import Dialogue.Proofs.Files.Tree
import Dialogue.Proofs.Run

/-!
# Directories that are made

Making a directory succeeds where its path leads to a directory or to nothing.  Two directories, one
below the other, are made below a directory that is there, whichever of them is missing
(`Keeps.ensureDirectories_lower`).
-/

namespace Dialogue.Files

variable {files : Files} {p q : Place} {path dir : Path} {a b : String}

theorem ensureDirectory_of_nothing (hleads : files.place path = .ok q)
    (hnothing : files.node? q = none) :
    ensureDirectory path files = (.ok (), files.set q .directory) := by
  simp [ensureDirectory, makeDirectory, hleads, hnothing]

theorem ensureDirectory_of_directory (hleads : files.place path = .ok q)
    (hdirectory : files.node? q = some .directory) :
    ensureDirectory path files = (.ok (), files) := by
  simp [ensureDirectory, makeDirectory, isDirectory, find?, hleads, hdirectory]

theorem ensureDirectory_of_error {fault : Fault} (hnowhere : files.place path = .error fault) :
    ensureDirectory path files = (.error (.files fault), files) := by
  have hnoDirectory : files.isDirectory path = false := by
    cases fault <;> simp [isDirectory, find?, hnowhere]
  simp [ensureDirectory, makeDirectory, hnowhere, hnoDirectory]

/-- The directories above are made only where they are missing. -/
theorem ensureDirectories_of_ne_absent (hnonempty : path.parts ≠ [])
    (hthere : files.place path ≠ .error .absent) :
    ensureDirectories path files = ensureDirectory path files := by
  obtain ⟨root, parts⟩ := path
  rw [ensureDirectories]
  cases hreversed : parts.reverse with
  | nil => simp_all
  | cons name above =>
    have hsame : (name :: above).reverse = parts := by rw [← hreversed, List.reverse_reverse]
    rw [ensureAll]
    simp only [hsame]
    have hmade : files.makeDirectory ⟨root, parts⟩ ≠ .error .absent := by
      unfold makeDirectory
      split
      · rename_i fault hnowhere
        rintro ⟨⟩
        exact hthere hnowhere
      · split <;> simp
    split
    · rename_i habsent
      exact absurd habsent hmade
    · rfl

/-- A missing directory above is made first. -/
theorem ensureDirectories_of_absent (hmissing : files.place (dir.below [a]) = .error .absent) :
    ensureDirectories (dir.below [a]) files =
      Run.bind (ensureDirectories dir) (fun _ => ensureDirectory (dir.below [a])) files := by
  have hreversed : (dir.below [a]).parts.reverse = a :: dir.parts.reverse := by simp [Path.below]
  have hsame : (⟨dir.root, (a :: dir.parts.reverse).reverse⟩ : Path) = dir.below [a] := by
    simp [Path.below]
  have habsent : files.makeDirectory (dir.below [a]) = .error .absent := by
    simp [makeDirectory, hmissing]
  rw [ensureDirectories, hreversed, show (dir.below [a]).root = dir.root from rfl, ensureAll]
  simp only [hsame, habsent]
  rfl

theorem ensureDirectories_of_directory (hleads : files.place path = .ok q)
    (hdirectory : files.node? q = some .directory) :
    ensureDirectories path files = (.ok (), files) := by
  by_cases hnonempty : path.parts = []
  · rw [ensureDirectories, hnonempty]
    rfl
  · rw [ensureDirectories_of_ne_absent hnonempty (by simp [hleads]),
      ensureDirectory_of_directory hleads hdirectory]

theorem directory_of_ensureDirectory {files' : Files}
    (hmade : ensureDirectory path files = (.ok (), files')) :
    ∃ q, files'.place path = .ok q ∧ files'.node? q = some .directory := by
  cases hleads : files.place path with
  | error fault =>
    rw [ensureDirectory_of_error hleads] at hmade
    cases hmade
  | ok q =>
    refine ⟨q, ?_⟩
    cases hlies : files.node? q with
    | none =>
      have hfree : files.node? q ≠ some .directory := by simp [hlies]
      rw [ensureDirectory_of_nothing hleads hlies] at hmade
      cases hmade
      exact ⟨(extends_set hfree _).place hleads, node?_set_self hfree _⟩
    | some node =>
      cases node with
      | directory =>
        rw [ensureDirectory_of_directory hleads hlies] at hmade
        cases hmade
        exact ⟨hleads, hlies⟩
      | file content =>
        simp [ensureDirectory, makeDirectory, isDirectory, find?, hleads, hlies] at hmade

theorem directory_of_ensureDirectories {files' : Files} (hnonempty : path.parts ≠ [])
    (hmade : ensureDirectories path files = (.ok (), files')) :
    ∃ q, files'.place path = .ok q ∧ files'.node? q = some .directory := by
  obtain ⟨root, parts⟩ := path
  rw [ensureDirectories] at hmade
  cases hreversed : parts.reverse with
  | nil => simp_all
  | cons name above =>
    have hsame : (name :: above).reverse = parts := by rw [← hreversed, List.reverse_reverse]
    simp only [hreversed, ensureAll, hsame] at hmade
    split at hmade
    · unfold Run.bind at hmade
      split at hmade
      · exact directory_of_ensureDirectory hmade
      · cases hmade
    · exact directory_of_ensureDirectory hmade

/-- Below the place of a directory, two directories may be made, one below the other, and a property
of trees is kept when one of them is made. -/
structure Keeps (I : Files → Prop) (dir : Path) (p : Place) (a b : String) : Prop where
  ordinary : ∀ name ∈ [a, b], IsOrdinary name
  short : b.utf8ByteSize ≤ maxName
  base : ∀ {files}, I files → files.place dir = .ok p ∧ files.node? p = some .directory
  upper : ∀ {files}, I files →
    files.node? (p ++ [a]) = none ∨ files.node? (p ++ [a]) = some .directory
  lower : ∀ {files}, I files →
    files.node? (p ++ [a, b]) = none ∨ files.node? (p ++ [a, b]) = some .directory
  kept : ∀ {files q}, I files → q = p ++ [a] ∨ q = p ++ [a, b] → files.node? q = none →
    I (files.set q .directory)

namespace Keeps

variable {I : Files → Prop} (hkeeps : Keeps I dir p a b)

include hkeeps

theorem noNul (hinv : I files) {names : List String} (hordinary : ∀ name ∈ names, IsOrdinary name) :
    '\x00' ∉ (dir.below names).text.toList :=
  noNul_below (isLegible_of_place (hkeeps.base hinv).1).noNul hordinary

theorem legible_upper (hinv : I files) (hlegible : IsLegible (dir.below [a, b])) :
    IsLegible (dir.below [a]) :=
  isLegible_of_below hlegible
    (hkeeps.noNul hinv fun name h => hkeeps.ordinary name (List.mem_append_left [b] h))
    (List.cons_ne_nil a [])

/-- Where the path of the upper directory leads. -/
theorem place_upper (hinv : I files) (hlegible : IsLegible (dir.below [a]))
    (hshort : a.utf8ByteSize ≤ maxName) : files.place (dir.below [a]) = .ok (p ++ [a]) := by
  obtain ⟨hbase, hdirectory⟩ := hkeeps.base hinv
  rw [place_below hbase hlegible, follow_cons hdirectory (hkeeps.ordinary a List.mem_cons_self),
    if_neg (Nat.not_lt.2 hshort)]
  rfl

/-- Where the path of the lower directory leads. -/
theorem place_lower (hinv : I files) (hlegible : IsLegible (dir.below [a, b])) :
    files.place (dir.below [a, b]) =
      if maxName < a.utf8ByteSize then .error .nameTooLong
      else if (files.node? (p ++ [a])).isSome then .ok (p ++ [a, b])
      else .error .absent := by
  obtain ⟨hbase, hdirectory⟩ := hkeeps.base hinv
  rw [place_below hbase hlegible, follow_cons hdirectory (hkeeps.ordinary a List.mem_cons_self)]
  rcases hkeeps.upper hinv with hnothing | habove
  · simp [hnothing, follow]
  · rw [follow_cons habove (hkeeps.ordinary b (by simp)), if_neg (Nat.not_lt.2 hkeeps.short)]
    simp [habove, follow]

/-- The lower directory is made where its path leads. -/
theorem ensureDirectory_lower (hinv : I files)
    (hleads : files.place (dir.below [a, b]) = .ok (p ++ [a, b])) :
    ∃ files', ensureDirectory (dir.below [a, b]) files = (.ok (), files') ∧ I files' ∧
      files'.place (dir.below [a, b]) = .ok (p ++ [a, b]) ∧
      files'.node? (p ++ [a, b]) = some .directory := by
  rcases hkeeps.lower hinv with hnothing | hdirectory
  · have hfree : files.node? (p ++ [a, b]) ≠ some .directory := by simp [hnothing]
    exact ⟨_, ensureDirectory_of_nothing hleads hnothing, hkeeps.kept hinv (.inr rfl) hnothing,
      (extends_set hfree _).place hleads, node?_set_self hfree _⟩
  · exact ⟨files, ensureDirectory_of_directory hleads hdirectory, hinv, hleads, hdirectory⟩

/-- Both directories are made, or the path is too long and nothing is made. -/
theorem ensureDirectories_lower (hinv : I files) :
    (∃ files', ensureDirectories (dir.below [a, b]) files = (.ok (), files') ∧ I files' ∧
      files'.place (dir.below [a, b]) = .ok (p ++ [a, b]) ∧
      files'.node? (p ++ [a, b]) = some .directory) ∨
    ∃ f, ensureDirectories (dir.below [a, b]) files = (.error f, files) ∧
      ¬ ((dir.below [a, b]).text.utf8ByteSize < maxPath ∧ a.utf8ByteSize ≤ maxName) := by
  have hparts : (dir.below [a, b]).parts ≠ [] := by simp [Path.below]
  have hnoNul := hkeeps.noNul hinv hkeeps.ordinary
  by_cases hlegible : IsLegible (dir.below [a, b])
  · have hleads := hkeeps.place_lower hinv hlegible
    by_cases hshort : a.utf8ByteSize ≤ maxName
    · rw [if_neg (Nat.not_lt.2 hshort)] at hleads
      refine .inl ?_
      rcases hkeeps.upper hinv with hnothing | habove
      · simp only [hnothing, Option.isSome_none, Bool.false_eq_true, if_false] at hleads
        have hleadsAbove := hkeeps.place_upper hinv (hkeeps.legible_upper hinv hlegible) hshort
        have hupperParts : (dir.below [a]).parts ≠ [] := by simp [Path.below]
        have hfree : files.node? (p ++ [a]) ≠ some .directory := by simp [hnothing]
        have hmade : ensureDirectories (dir.below [a]) files =
            (.ok (), files.set (p ++ [a]) .directory) := by
          rw [ensureDirectories_of_ne_absent hupperParts (by simp [hleadsAbove]),
            ensureDirectory_of_nothing hleadsAbove hnothing]
        have hinv' := hkeeps.kept hinv (.inl rfl) hnothing
        have habove : node? (files.set (p ++ [a]) .directory) (p ++ [a]) = some .directory :=
          node?_set_self hfree _
        have hleads' := hkeeps.place_lower hinv' hlegible
        rw [if_neg (Nat.not_lt.2 hshort), if_pos (by simp [habove])] at hleads'
        obtain ⟨files', hlowerMade, hrest⟩ := hkeeps.ensureDirectory_lower hinv' hleads'
        refine ⟨files', ?_, hrest⟩
        have hsplit : dir.below [a, b] = (dir.below [a]).below [b] :=
          (Path.below_below dir [a] [b]).symm
        rw [hsplit] at hleads hlowerMade ⊢
        rw [ensureDirectories_of_absent hleads, Run.bind, hmade]
        exact hlowerMade
      · rw [if_pos (by simp [habove])] at hleads
        rw [ensureDirectories_of_ne_absent hparts (by simp [hleads])]
        exact hkeeps.ensureDirectory_lower hinv hleads
    · rw [if_pos (Nat.not_le.1 hshort)] at hleads
      refine .inr ⟨.files .nameTooLong, ?_, fun hfits => hshort hfits.2⟩
      rw [ensureDirectories_of_ne_absent hparts (by simp [hleads]),
        ensureDirectory_of_error hleads]
  · have hnowhere := place_of_not_isLegible files hnoNul hlegible
    refine .inr ⟨.files .nameTooLong, ?_, fun hfits => hlegible ⟨hnoNul, hfits.1⟩⟩
    rw [ensureDirectories_of_ne_absent hparts (by simp [hnowhere]),
      ensureDirectory_of_error hnowhere]

end Keeps

end Dialogue.Files
