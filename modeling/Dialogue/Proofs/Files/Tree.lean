import Dialogue.Files.Change
import Dialogue.Proofs.Keyed

/-!
# Paths in a tree that grows

Where a path leads depends on the directories on the way only.  So it leads to the same place in
every tree that has these directories (`Extends.place`), and files that are written and directories
that are made where there was none change no way.

Below a directory, ordinary names lead to the place that they spell (`eq_of_follow`), as far as the
directories on the way are there.  Whether the path is too long is a matter of its text alone
(`place_below`).
-/

namespace Dialogue.Files

variable {files files' : Files} {p q : Place} {path : Path}

/-! ## What lies at a place -/

/-- The place is that of a directory that is always there. -/
def IsFixed (place : Place) : Prop := place.all (· = "..") = true ∨ place = ["/"]

theorem node?_of_isFixed (hfixed : IsFixed p) : files.node? p = some .directory := if_pos hfixed

theorem node?_of_not_isFixed (hfree : ¬ IsFixed p) : files.node? p = files.get? p :=
  if_neg hfree

theorem node?_set_self (hfree : files.node? p ≠ some .directory) (node : Node) :
    node? (files.set p node) p = some node := by
  have hfree : ¬ IsFixed p := fun hfixed => hfree (node?_of_isFixed hfixed)
  rw [node?_of_not_isFixed hfree, Keyed.get?_set_self]

theorem node?_set_of_ne (hdifferent : q ≠ p) (node : Node) :
    node? (files.set p node) q = files.node? q := by
  by_cases hfixed : IsFixed q
  · rw [node?_of_isFixed hfixed, node?_of_isFixed hfixed]
  · rw [node?_of_not_isFixed hfixed, node?_of_not_isFixed hfixed,
      Keyed.get?_set_of_ne _ _ hdifferent]

/-! ## Trees that grow -/

/-- Every directory of one tree is a directory of the other. -/
def Extends (files files' : Files) : Prop :=
  ∀ place, files.node? place = some .directory → files'.node? place = some .directory

theorem Extends.refl (files : Files) : Extends files files := fun _ h => h

theorem Extends.trans {files'' : Files} (hfirst : Extends files files')
    (hsecond : Extends files' files'') : Extends files files'' :=
  fun place h => hsecond place (hfirst place h)

theorem extends_set (hfree : files.node? p ≠ some .directory) (node : Node) :
    Extends files (files.set p node) := by
  intro q hdirectory
  have hdifferent : q ≠ p := by
    rintro rfl
    exact hfree hdirectory
  rw [node?_set_of_ne hdifferent, hdirectory]

theorem Extends.follow (hextends : Extends files files') {parts : List String} :
    ∀ {place : Place}, Files.follow files place parts = .ok q →
      Files.follow files' place parts = .ok q := by
  induction parts with
  | nil => exact id
  | cons part rest ih =>
    intro place hleads
    simp only [Files.follow] at hleads ⊢
    split at hleads
    · cases hleads
    · cases hleads
    · rename_i hdirectory
      rw [hextends place hdirectory]
      simp only
      split at hleads
      · cases hleads
      · rename_i hshort
        rw [if_neg hshort]
        exact ih hleads

theorem Extends.place (hextends : Extends files files') (hleads : files.place path = .ok q) :
    files'.place path = .ok q := by
  simp only [Files.place] at hleads ⊢
  split at hleads
  · cases hleads
  · rename_i hplain
    rw [if_neg hplain]
    split at hleads
    · cases hleads
    · rename_i hshort
      rw [if_neg hshort]
      exact hextends.follow hleads

theorem write_of_place (hleads : files.place path = .ok p)
    (hfree : files.node? p ≠ some .directory) (content : Content) :
    files.write path content = .ok (files.set p (.file content)) := by
  simp only [Files.write, hleads]

/-! ## Names below a directory -/

/-- The name means itself: it leads neither up nor to the root, and it can be looked up. -/
structure IsOrdinary (name : String) : Prop where
  notUp : name ≠ ".."
  notRoot : name ≠ "/"
  legible : '\x00' ∉ name.toList

variable {name : String} {names : List String} {dir : Path}

theorem node?_child (hordinary : IsOrdinary name) :
    files.node? (p ++ [name]) = files.get? (p ++ [name]) := by
  refine node?_of_not_isFixed ?_
  rintro (hups | hroot)
  · simp [hordinary.notUp] at hups
  · cases p with
    | nil => exact hordinary.notRoot (by simpa using hroot)
    | cons part rest => simp at hroot

theorem node?_grandchild {part : String} (hordinary : IsOrdinary name) :
    files.node? (p ++ [part, name]) = files.get? (p ++ [part, name]) := by
  have hchild : files.node? (p ++ [part] ++ [name]) = _ := node?_child hordinary
  simpa using hchild

theorem step_of_isOrdinary (hordinary : IsOrdinary name) : step p name = p ++ [name] :=
  if_neg hordinary.notUp

theorem follow_append (files : Files) (p : Place) (xs ys : List String) :
    files.follow p (xs ++ ys) =
      match files.follow p xs with
      | .ok q => files.follow q ys
      | .error fault => .error fault := by
  induction xs generalizing p with
  | nil => rfl
  | cons x xs ih =>
    simp only [List.cons_append, follow]
    split
    · rfl
    · rfl
    · split
      · rfl
      · exact ih _

/-- From a directory an ordinary name leads on to its place. -/
theorem follow_cons (hdirectory : files.node? p = some .directory) (hordinary : IsOrdinary name) :
    files.follow p (name :: names) =
      if maxName < name.utf8ByteSize then .error .nameTooLong
      else files.follow (p ++ [name]) names := by
  simp only [follow, hdirectory, step_of_isOrdinary hordinary]

theorem eq_of_follow (hordinary : ∀ name ∈ names, IsOrdinary name)
    (hleads : files.follow p names = .ok q) : q = p ++ names := by
  induction names generalizing p with
  | nil =>
    cases hleads
    simp
  | cons name rest ih =>
    obtain ⟨hfirst, hothers⟩ := List.forall_mem_cons.1 hordinary
    simp only [follow] at hleads
    split at hleads
    · cases hleads
    · cases hleads
    · split at hleads
      · cases hleads
      · rw [step_of_isOrdinary hfirst] at hleads
        simpa using ih hothers hleads

theorem exists_long_of_follow (htooLong : files.follow p names = .error .nameTooLong) :
    ∃ name ∈ names, maxName < name.utf8ByteSize := by
  induction names generalizing p with
  | nil => cases htooLong
  | cons name rest ih =>
    simp only [follow] at htooLong
    split at htooLong
    · cases htooLong
    · cases htooLong
    · split at htooLong
      · exact ⟨name, List.mem_cons_self, by assumption⟩
      · obtain ⟨other, hlisted, hlong⟩ := ih htooLong
        exact ⟨other, List.mem_cons_of_mem _ hlisted, hlong⟩

theorem short_of_follow (hleads : files.follow p names = .ok q) :
    ∀ name ∈ names, name.utf8ByteSize ≤ maxName := by
  induction names generalizing p with
  | nil => simp
  | cons name rest ih =>
    simp only [follow] at hleads
    split at hleads
    · cases hleads
    · cases hleads
    · split at hleads
      · cases hleads
      · rename_i hshort
        exact List.forall_mem_cons.2 ⟨Nat.not_lt.1 hshort, ih hleads⟩

/-! ## The text of a path -/

/-- The text of a path is one that can be looked up. -/
structure IsLegible (path : Path) : Prop where
  noNul : '\x00' ∉ path.text.toList
  short : path.text.utf8ByteSize < maxPath

/-- The place that the parts of a path are followed from. -/
def origin (path : Path) : Place := if path.root.isEmpty then [] else ["/"]

theorem place_of_isLegible (hlegible : IsLegible path) :
    files.place path = files.follow (origin path) path.parts := by
  have hnoNul : path.text.toList.contains '\x00' = false := by simpa using hlegible.noNul
  have hshort : ¬ maxPath ≤ path.text.utf8ByteSize := Nat.not_le.2 hlegible.short
  simp only [place, hnoNul, if_neg hshort, origin]
  rfl

theorem isLegible_of_place (hleads : files.place path = .ok p) : IsLegible path := by
  simp only [place] at hleads
  split at hleads
  · cases hleads
  · rename_i hplain
    split at hleads
    · cases hleads
    · exact ⟨by simpa using hplain, by omega⟩

theorem place_of_not_isLegible (files : Files) (hnoNul : '\x00' ∉ path.text.toList)
    (hlong : ¬ IsLegible path) : files.place path = .error .nameTooLong := by
  have hplain : path.text.toList.contains '\x00' = false := by simpa using hnoNul
  have htooLong : maxPath ≤ path.text.utf8ByteSize :=
    Nat.not_lt.1 fun hshort => hlong ⟨hnoNul, hshort⟩
  simp only [place, hplain, if_pos htooLong]
  rfl

theorem mem_toList_intercalate {c : Char} (h : c ∈ (String.intercalate "/" names).toList) :
    c = '/' ∨ ∃ name ∈ names, c ∈ name.toList := by
  induction names with
  | nil => simp at h
  | cons name rest ih =>
    by_cases hlast : rest = []
    · subst hlast
      exact .inr ⟨name, List.mem_cons_self, by simpa using h⟩
    · rw [String.intercalate_cons_of_ne_nil hlast, String.toList_append, String.toList_append,
        List.mem_append, List.mem_append] at h
      rcases h with (hinName | hseparator) | hlater
      · exact .inr ⟨name, List.mem_cons_self, hinName⟩
      · exact .inl (by simpa using hseparator)
      · rcases ih hlater with hslash | ⟨other, hlisted, hinOther⟩
        · exact .inl hslash
        · exact .inr ⟨other, List.mem_cons_of_mem _ hlisted, hinOther⟩

/-- The text of a path below a directory: that of the directory, as far as it has one, and the
names. -/
theorem exists_text_below (dir : Path) (hnonempty : names ≠ []) :
    ∃ front, (dir.below names).text = front ++ String.intercalate "/" names ∧
      ∀ c ∈ front.toList, c ∈ dir.text.toList ∨ c = '/' := by
  have hsome :
      (dir.below names).text = dir.root ++ String.intercalate "/" (dir.parts ++ names) := by
    simp [Path.text, Path.below, hnonempty]
  by_cases hparts : dir.parts = []
  · refine ⟨dir.root, by rw [hsome, hparts, List.nil_append], fun c hc => .inl ?_⟩
    by_cases hroot : dir.root = ""
    · simp [hroot] at hc
    · simpa [Path.text, hparts, hroot] using hc
  · refine ⟨dir.text ++ "/", ?_, fun c hc => ?_⟩
    · rw [hsome, String.intercalate_append_of_ne_nil hparts hnonempty]
      simp [Path.text, hparts, String.append_assoc]
    · rw [String.toList_append, List.mem_append] at hc
      exact hc.imp_right fun hslash => by simpa using hslash

theorem noNul_below (hnoNul : '\x00' ∉ dir.text.toList)
    (hordinary : ∀ name ∈ names, IsOrdinary name) : '\x00' ∉ (dir.below names).text.toList := by
  by_cases hnonempty : names = []
  · subst hnonempty
    simpa using hnoNul
  · obtain ⟨front, htext, hbefore⟩ := exists_text_below dir hnonempty
    rw [htext, String.toList_append, List.mem_append]
    rintro (hinFront | hinNames)
    · rcases hbefore _ hinFront with hinDir | hslash
      · exact hnoNul hinDir
      · exact absurd hslash (by decide)
    · rcases mem_toList_intercalate hinNames with hslash | ⟨name, hlisted, hinName⟩
      · exact absurd hslash (by decide)
      · exact (hordinary name hlisted).legible hinName

theorem text_below_le (dir : Path) {xs : List String} (ys : List String) (hnonempty : xs ≠ []) :
    (dir.below xs).text.utf8ByteSize ≤ (dir.below (xs ++ ys)).text.utf8ByteSize := by
  by_cases hlast : ys = []
  · simp [hlast]
  · have htext : ∀ zs, zs ≠ [] → (dir.below zs).text =
        dir.root ++ String.intercalate "/" (dir.parts ++ zs) := by
      intro zs hnonempty
      simp [Path.text, Path.below, hnonempty]
    rw [htext xs hnonempty, htext (xs ++ ys) (by simp [hnonempty]), ← List.append_assoc,
      String.intercalate_append_of_ne_nil (by simp [hnonempty]) hlast]
    simp only [String.utf8ByteSize_append]
    omega

theorem isLegible_of_below {xs ys : List String} (hlegible : IsLegible (dir.below (xs ++ ys)))
    (hnoNul : '\x00' ∉ (dir.below xs).text.toList) (hnonempty : xs ≠ []) :
    IsLegible (dir.below xs) :=
  ⟨hnoNul, Nat.lt_of_le_of_lt (text_below_le dir ys hnonempty) hlegible.short⟩

theorem place_below (hbase : files.place dir = .ok p) (hlegible : IsLegible (dir.below names)) :
    files.place (dir.below names) = files.follow p names := by
  have hstart : files.place dir = _ := place_of_isLegible (isLegible_of_place hbase)
  have hsame : origin (dir.below names) = origin dir := rfl
  rw [place_of_isLegible hlegible, hsame, Path.below, follow_append, ← hstart, hbase]

theorem isLegible_of_child (hlegible : IsLegible (path.below [name])) : IsLegible path := by
  by_cases hparts : path.parts = []
  · by_cases hroot : path.root = ""
    · have htext : path.text = "." := by simp [Path.text, hparts, hroot]
      exact ⟨by rw [htext]; decide, by rw [htext]; decide⟩
    · have htext : (path.below [name]).text = path.text ++ name := by
        simp [Path.text, Path.below, hparts, hroot]
      have hnoNul := hlegible.noNul
      have hshort := hlegible.short
      rw [htext, String.toList_append, List.mem_append, not_or] at hnoNul
      rw [htext, String.utf8ByteSize_append] at hshort
      exact ⟨hnoNul.1, by omega⟩
  · have htext : (path.below [name]).text = path.text ++ ("/" ++ name) := by
      simp only [Path.text, Path.below]
      rw [String.intercalate_append_of_ne_nil hparts (by simp)]
      simp [hparts, String.append_assoc]
    have hnoNul := hlegible.noNul
    have hshort := hlegible.short
    rw [htext, String.toList_append, List.mem_append, not_or] at hnoNul
    rw [htext, String.utf8ByteSize_append] at hshort
    exact ⟨hnoNul.1, by omega⟩

/-- A path that leads to a child leads through a directory. -/
theorem place_parent (hleads : files.place (path.below [name]) = .ok q)
    (hlegible : IsLegible path) :
    ∃ p, files.place path = .ok p ∧ files.node? p = some .directory := by
  rw [place_of_isLegible (isLegible_of_place hleads), Path.below, follow_append] at hleads
  split at hleads
  · rename_i p hfound
    refine ⟨p, (place_of_isLegible hlegible).trans hfound, ?_⟩
    simp only [follow] at hleads
    split at hleads
    · cases hleads
    · cases hleads
    · assumption
  · cases hleads

/-- The path of a child of a directory leads there, unless it is too long. -/
theorem place_child (hleads : files.place path = .ok p)
    (hdirectory : files.node? p = some .directory) (hordinary : IsOrdinary name) :
    files.place (path.below [name]) = .ok (p ++ [name]) ∨
      files.place (path.below [name]) = .error .nameTooLong ∧
        ¬ ((path.below [name]).text.utf8ByteSize < maxPath ∧ name.utf8ByteSize ≤ maxName) := by
  have hnoNul := noNul_below (isLegible_of_place hleads).noNul
    (List.forall_mem_singleton.2 hordinary)
  by_cases hlegible : IsLegible (path.below [name])
  · rw [place_below hleads hlegible, follow_cons hdirectory hordinary]
    by_cases hshort : name.utf8ByteSize ≤ maxName
    · rw [if_neg (Nat.not_lt.2 hshort)]
      exact .inl rfl
    · rw [if_pos (Nat.not_le.1 hshort)]
      exact .inr ⟨rfl, fun hfits => hshort hfits.2⟩
  · exact .inr ⟨place_of_not_isLegible files hnoNul hlegible,
      fun hfits => hlegible ⟨hnoNul, hfits.1⟩⟩

/-- What a path below a directory finds where nothing lies: nothing, unless it is too long. -/
theorem content?_of_nothing (hbase : files.place dir = .ok p)
    (hordinary : ∀ name ∈ names, IsOrdinary name) (hnothing : files.node? (p ++ names) = none) :
    files.content? (dir.below names) = .ok none ∨
      files.content? (dir.below names) = .error .nameTooLong ∧
        ¬ ((dir.below names).text.utf8ByteSize < maxPath ∧
          ∀ name ∈ names, name.utf8ByteSize ≤ maxName) := by
  have hnoNul := noNul_below (isLegible_of_place hbase).noNul hordinary
  by_cases hlegible : IsLegible (dir.below names)
  · have hfollowed := place_below hbase hlegible
    cases hfound : files.follow p names with
    | ok q =>
      rw [eq_of_follow hordinary hfound] at hfound
      simp [content?, find?, hfollowed, hfound, hnothing]
    | error fault =>
      by_cases htooLong : fault = .nameTooLong
      · subst htooLong
        refine .inr ⟨by simp [content?, find?, hfollowed, hfound], fun hfits => ?_⟩
        obtain ⟨name, hlisted, hlong⟩ := exists_long_of_follow hfound
        exact absurd (hfits.2 name hlisted) (Nat.not_le.2 hlong)
      · left
        have hnowhere : files.find? (dir.below names) = .ok none := by
          rw [find?, hfollowed, hfound]
          cases fault <;> first | rfl | exact absurd rfl htooLong
        simp [content?, hnowhere]
  · refine .inr ⟨?_, fun hfits => hlegible ⟨hnoNul, hfits.1⟩⟩
    simp [content?, find?, place_of_not_isLegible files hnoNul hlegible]

theorem content?_of_place {content : Content} (hleads : files.place path = .ok p)
    (hlies : files.node? p = some (.file content)) :
    files.content? path = .ok (some content) := by
  simp [content?, find?, hleads, hlies]

/-! ## A file that is written -/

theorem exists_of_write {content : Content} (hwritten : files.write path content = .ok files') :
    ∃ p, files.place path = .ok p ∧ files.node? p ≠ some .directory ∧
      files' = files.set p (.file content) := by
  unfold write at hwritten
  split at hwritten
  · cases hwritten
  · rename_i p hleads
    split at hwritten
    · cases hwritten
    · rename_i hfree
      cases hwritten
      exact ⟨p, hleads, hfree, rfl⟩

theorem content?_of_write {content : Content} (hwritten : files.write path content = .ok files') :
    files'.content? path = .ok (some content) := by
  obtain ⟨p, hleads, hfree, rfl⟩ := exists_of_write hwritten
  exact content?_of_place ((extends_set hfree _).place hleads) (node?_set_self hfree _)

/-- A way either goes on past a file that is written or breaks off with it and without it. -/
theorem follow_set_file (hfree : files.node? p ≠ some .directory) (content : Content)
    (parts : List String) :
    follow (files.set p (.file content)) q parts = files.follow q parts ∨
      ∃ fault fault', files.follow q parts = .error fault ∧
        follow (files.set p (.file content)) q parts = .error fault' ∧
        fault ≠ .nameTooLong ∧ fault' ≠ .nameTooLong := by
  induction parts generalizing q with
  | nil => exact .inl rfl
  | cons part rest ih =>
    by_cases hsame : q = p
    · subst hsame
      refine .inr ?_
      simp only [follow, node?_set_self hfree]
      cases hlies : files.node? q with
      | none => exact ⟨_, _, rfl, rfl, by decide, by decide⟩
      | some node =>
        cases node with
        | directory => exact absurd hlies hfree
        | file _ => exact ⟨_, _, rfl, rfl, by decide, by decide⟩
    · simp only [follow, node?_set_of_ne hsame]
      split
      · exact .inl rfl
      · exact .inl rfl
      · split
        · exact .inl rfl
        · exact ih

/-- A file that is written shows only under the paths that lead to it. -/
theorem content?_set_file (hfree : files.node? p ≠ some .directory) (content : Content)
    (hother : files.place path ≠ .ok p) :
    content? (files.set p (.file content)) path = files.content? path := by
  have hfound : find? (files.set p (.file content)) path = files.find? path := by
    simp only [find?, place] at hother ⊢
    split at hother
    · rename_i hillegible
      simp only [hillegible, if_true]
    · rename_i hlegible
      simp only [hlegible, Bool.false_eq_true, if_false]
      split at hother
      · rename_i hlong
        simp only [hlong, if_true]
      · rename_i hshort
        simp only [hshort, if_false]
        rcases follow_set_file hfree content path.parts with
          hsame | ⟨fault, fault', hbefore, hafter, hnotLong, hnotLong'⟩
        · rw [hsame]
          split
          · rename_i q hleads
            have hdifferent : q ≠ p := by
              rintro rfl
              exact hother hleads
            rw [node?_set_of_ne hdifferent]
          · rfl
          · rfl
        · rw [hbefore, hafter]
          cases fault <;> cases fault' <;> simp_all
  rw [content?, content?, hfound]

theorem names_eq_of_place {names' : List String} (hordinary : ∀ name ∈ names, IsOrdinary name)
    (hordinary' : ∀ name ∈ names', IsOrdinary name) (hleads : files.place (dir.below names) = .ok p)
    (hleads' : files.place (dir.below names') = .ok p) : names = names' := by
  have halong : ∀ {names : List String}, (∀ name ∈ names, IsOrdinary name) →
      files.place (dir.below names) = .ok p →
        ∃ base, files.follow (origin dir) dir.parts = .ok base ∧ p = base ++ names := by
    intro names hordinary hleads
    rw [place_of_isLegible (isLegible_of_place hleads), Path.below, follow_append] at hleads
    split at hleads
    · rename_i base hfound
      exact ⟨base, hfound, eq_of_follow hordinary hleads⟩
    · cases hleads
  obtain ⟨base, hfound, rfl⟩ := halong hordinary hleads
  obtain ⟨base', hfound', hsame⟩ := halong hordinary' hleads'
  obtain rfl := Except.ok.inj (hfound.symm.trans hfound')
  exact List.append_cancel_left hsame

end Dialogue.Files
