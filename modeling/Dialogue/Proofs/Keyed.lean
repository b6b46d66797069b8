import Dialogue.Keyed

/-!
# Keyed lists with distinct keys

A `Keyed` list is a finite map that also knows an order.  Setting and erasing keep its keys distinct
(`nodup_set`, `nodup_erase`), and where they are distinct `get?` and membership say the same
(`mem_of_get?_eq_some`, `get?_eq_some_of_mem`).

A part of a keyed list is picked by a partial function on keys (`pick`): the entries whose key it
knows, under their new keys and in the old order.  Picking goes along with every operation as long
as no two keys get the same new one (`Picks`), which is how the documents of one tenant are followed
inside a store for all.
-/

namespace Dialogue.Keyed

variable {κ κ' ν : Type}

/-! ## Keys -/

@[simp] theorem keys_nil : keys ([] : Keyed κ ν) = [] := rfl

@[simp] theorem keys_cons (e : κ × ν) (entries : Keyed κ ν) :
    keys (e :: entries) = e.1 :: keys entries := rfl

theorem mem_keys_of_mem {entries : Keyed κ ν} {key : κ} {v : ν} (h : (key, v) ∈ entries) :
    key ∈ keys entries := List.mem_map_of_mem h

variable [DecidableEq κ] [DecidableEq κ']

theorem get?_eq_none_iff {entries : Keyed κ ν} {key : κ} :
    entries.get? key = none ↔ key ∉ keys entries := by
  induction entries with
  | nil => simp [get?]
  | cons e rest ih =>
    obtain ⟨k, v⟩ := e
    by_cases h : k = key
    · simp [get?, h]
    · simp [get?, h, ih, Ne.symm h]

theorem has_eq_true_iff {entries : Keyed κ ν} {key : κ} :
    entries.has key = true ↔ key ∈ keys entries := by
  rw [has, Option.isSome_iff_ne_none, Ne, get?_eq_none_iff, Classical.not_not]

theorem mem_of_get?_eq_some {entries : Keyed κ ν} {key : κ} {v : ν}
    (h : entries.get? key = some v) : (key, v) ∈ entries := by
  induction entries with
  | nil => simp [get?] at h
  | cons e rest ih =>
    obtain ⟨k, w⟩ := e
    by_cases hk : k = key
    · simp only [get?, hk, if_true, Option.some.injEq] at h
      simp [hk, h]
    · simp only [get?, hk, if_false] at h
      exact List.mem_cons_of_mem _ (ih h)

theorem get?_eq_some_of_mem {entries : Keyed κ ν} (hnodup : (keys entries).Nodup) {key : κ} {v : ν}
    (h : (key, v) ∈ entries) : entries.get? key = some v := by
  induction entries with
  | nil => simp at h
  | cons e rest ih =>
    obtain ⟨k, w⟩ := e
    obtain ⟨hfresh, hothers⟩ := List.nodup_cons.1 hnodup
    rcases List.mem_cons.1 h with hsame | hlater
    · cases hsame
      simp [get?]
    · have hdifferent : k ≠ key := fun hsame => hfresh (hsame ▸ mem_keys_of_mem hlater)
      simp only [get?, hdifferent, if_false]
      exact ih hothers hlater

theorem get?_append (entries others : Keyed κ ν) (key : κ) :
    get? (entries ++ others) key = (entries.get? key).or (others.get? key) := by
  induction entries with
  | nil => rfl
  | cons e rest ih =>
    obtain ⟨k, v⟩ := e
    by_cases h : k = key <;> simp [get?, h, ih]

theorem get?_filter {entries : Keyed κ ν} (hnodup : (keys entries).Nodup) (p : ν → Bool) (key : κ) :
    get? (entries.filter fun e => p e.2) key = (entries.get? key).filter p := by
  induction entries with
  | nil => rfl
  | cons e rest ih =>
    obtain ⟨k, v⟩ := e
    obtain ⟨hfresh, hnodup⟩ := List.nodup_cons.1 hnodup
    by_cases h : k = key
    · subst h
      have hnothing : get? rest k = none := get?_eq_none_iff.2 hfresh
      by_cases hkept : p v = true
      · simp [get?, hkept, Option.filter]
      · simp [get?, hkept, ih hnodup, hnothing, Option.filter]
    · by_cases hkept : p v = true <;> simp [get?, h, hkept, ih hnodup]

/-! ## Setting -/

theorem set_of_notMem {entries : Keyed κ ν} {key : κ} (h : key ∉ keys entries) (v : ν) :
    entries.set key v = entries ++ [(key, v)] := by
  induction entries with
  | nil => rfl
  | cons e rest ih =>
    obtain ⟨k, w⟩ := e
    simp only [keys_cons, List.mem_cons, not_or] at h
    simp [set, Ne.symm h.1, ih h.2]

theorem keys_set_of_mem {entries : Keyed κ ν} {key : κ} (h : key ∈ keys entries) (v : ν) :
    keys (entries.set key v) = keys entries := by
  induction entries with
  | nil => simp at h
  | cons e rest ih =>
    obtain ⟨k, w⟩ := e
    by_cases hk : k = key
    · simp [set, hk]
    · simp only [keys_cons, List.mem_cons, Ne.symm hk, false_or] at h
      simp [set, hk, ih h]

theorem nodup_set {entries : Keyed κ ν} (hnodup : (keys entries).Nodup) (key : κ) (v : ν) :
    (keys (entries.set key v)).Nodup := by
  by_cases h : key ∈ keys entries
  · rw [keys_set_of_mem h]
    exact hnodup
  · rw [set_of_notMem h, keys, List.map_append]
    refine List.nodup_append.2 ⟨hnodup, by simp, ?_⟩
    intro k hk l hl hsame
    rw [List.mem_singleton.1 hl] at hsame
    subst hsame
    exact h hk

theorem mem_set {entries : Keyed κ ν} {key : κ} {v : ν} {e : κ × ν}
    (h : e ∈ entries.set key v) : e = (key, v) ∨ e ∈ entries := by
  induction entries with
  | nil => exact .inl (by simpa [set] using h)
  | cons f rest ih =>
    obtain ⟨k, w⟩ := f
    by_cases hk : k = key
    · simp only [set, hk, if_true, List.mem_cons] at h
      rcases h with rfl | h
      · exact .inl rfl
      · exact .inr (List.mem_cons_of_mem _ h)
    · simp only [set, hk, if_false, List.mem_cons] at h
      rcases h with rfl | h
      · exact .inr List.mem_cons_self
      · exact (ih h).imp_right (List.mem_cons_of_mem _)

theorem ofEntries_spec (entries : List (κ × ν)) :
    (keys (ofEntries entries)).Nodup ∧ ∀ e ∈ ofEntries entries, e ∈ entries := by
  have hcollect : ∀ (rest taken : List (κ × ν)), (keys taken).Nodup →
      (keys (rest.foldl (fun acc e => set acc e.1 e.2) taken)).Nodup ∧
        ∀ e ∈ rest.foldl (fun acc e => set acc e.1 e.2) taken, e ∈ taken ∨ e ∈ rest := by
    intro rest
    induction rest with
    | nil => exact fun taken hnodup => ⟨hnodup, fun e hlisted => .inl hlisted⟩
    | cons f rest ih =>
      intro taken hnodup
      obtain ⟨hdistinct, hlisted⟩ := ih (set taken f.1 f.2) (nodup_set hnodup f.1 f.2)
      refine ⟨hdistinct, fun e he => ?_⟩
      rcases hlisted e he with hnew | hold
      · rcases mem_set hnew with rfl | hold
        · exact .inr List.mem_cons_self
        · exact .inl hold
      · exact .inr (List.mem_cons_of_mem _ hold)
  obtain ⟨hdistinct, hlisted⟩ := hcollect entries [] List.nodup_nil
  exact ⟨hdistinct, fun e he => (hlisted e he).resolve_left List.not_mem_nil⟩

theorem ofEntries_eq_self {entries : List (κ × ν)} (hnodup : (keys entries).Nodup) :
    ofEntries entries = entries := by
  have hcollect : ∀ (rest taken : List (κ × ν)), (keys (taken ++ rest)).Nodup →
      rest.foldl (fun acc e => set acc e.1 e.2) taken = taken ++ rest := by
    intro rest
    induction rest with
    | nil => intro taken _; simp
    | cons e rest ih =>
      intro taken hnodup
      have hfresh : e.1 ∉ keys taken := by
        intro hold
        simp only [keys, List.map_append, List.map_cons] at hnodup
        exact (List.nodup_append.1 hnodup).2.2 _ hold _ List.mem_cons_self rfl
      rw [List.foldl_cons, set_of_notMem hfresh]
      have hnext := ih (taken ++ [e]) (by simpa using hnodup)
      simpa using hnext
  exact hcollect entries [] hnodup

/-! ## Erasing -/

theorem erase_eq_filter (entries : Keyed κ ν) (key : κ) :
    entries.erase key = entries.filter fun e => e.1 ≠ key := by
  induction entries with
  | nil => rfl
  | cons e rest ih =>
    obtain ⟨k, v⟩ := e
    by_cases h : k = key <;> simp [erase, h, ih]

theorem nodup_erase {entries : Keyed κ ν} (hnodup : (keys entries).Nodup) (key : κ) :
    (keys (entries.erase key)).Nodup := by
  rw [erase_eq_filter]
  exact hnodup.sublist (List.filter_sublist.map _)

theorem erase_of_notMem {entries : Keyed κ ν} {key : κ} (h : key ∉ keys entries) :
    entries.erase key = entries := by
  rw [erase_eq_filter, List.filter_eq_self]
  intro e he
  have hdifferent : e.1 ≠ key := by
    rintro rfl
    exact h (mem_keys_of_mem he)
  simpa using hdifferent

theorem mem_of_mem_erase {entries : Keyed κ ν} {key : κ} {e : κ × ν}
    (h : e ∈ entries.erase key) : e ∈ entries := by
  rw [erase_eq_filter] at h
  exact (List.mem_filter.1 h).1

/-! ## Parts of a keyed list -/

/-- No two keys get the same new key. -/
def Picks (φ : κ → Option κ') : Prop := ∀ a b c, φ a = some c → φ b = some c → a = b

/-- The entries whose key is known, under their new keys. -/
def pick (φ : κ → Option κ') (entries : Keyed κ ν) : Keyed κ' ν :=
  entries.filterMap fun e => (φ e.1).map fun k => (k, e.2)

variable {φ : κ → Option κ'} {key : κ} {key' : κ'}

omit [DecidableEq κ] [DecidableEq κ'] in
@[simp] theorem pick_nil : pick φ ([] : Keyed κ ν) = [] := rfl

omit [DecidableEq κ] [DecidableEq κ'] in
theorem pick_cons (e : κ × ν) (entries : Keyed κ ν) :
    pick φ (e :: entries) =
      match φ e.1 with
      | some k => (k, e.2) :: pick φ entries
      | none => pick φ entries := by
  rw [pick, List.filterMap_cons]
  cases φ e.1 <;> rfl

theorem get?_pick (hpicks : Picks φ) (hknown : φ key = some key') (entries : Keyed κ ν) :
    (pick φ entries).get? key' = entries.get? key := by
  induction entries with
  | nil => rfl
  | cons e rest ih =>
    obtain ⟨k, v⟩ := e
    rw [pick_cons]
    cases hk : φ k with
    | none =>
      have hdifferent : k ≠ key := fun hsame => by simp [hsame, hknown] at hk
      simp [get?, hdifferent, ih]
    | some k' =>
      by_cases hsame : k = key
      · subst hsame
        have : k' = key' := by simpa [hknown, eq_comm] using hk
        simp [get?, this]
      · have : k' ≠ key' := fun hsame' => hsame (hpicks k key key' (hsame' ▸ hk) hknown)
        simp [get?, hsame, this, ih]

theorem mem_keys_pick (hpicks : Picks φ) (hknown : φ key = some key') (entries : Keyed κ ν) :
    key' ∈ keys (pick φ entries) ↔ key ∈ keys entries := by
  rw [← has_eq_true_iff, ← has_eq_true_iff, has, has, get?_pick hpicks hknown]

omit [DecidableEq κ] [DecidableEq κ'] in
theorem keys_pick (φ : κ → Option κ') (entries : Keyed κ ν) :
    keys (pick φ entries) = (keys entries).filterMap φ := by
  induction entries with
  | nil => rfl
  | cons e rest ih =>
    rw [pick_cons, keys_cons, List.filterMap_cons]
    cases φ e.1 with
    | none => exact ih
    | some k => rw [keys_cons, ih]

omit [DecidableEq κ] [DecidableEq κ'] in
theorem nodup_pick (hpicks : Picks φ) {entries : Keyed κ ν} (hnodup : (keys entries).Nodup) :
    (keys (pick φ entries)).Nodup := by
  rw [keys_pick]
  refine List.Pairwise.filterMap φ ?_ hnodup
  rintro a b hdifferent c ha _ hb rfl
  exact hdifferent (hpicks a b c ha hb)

omit [DecidableEq κ] [DecidableEq κ'] in
theorem mem_pick {entries : Keyed κ ν} {e : κ' × ν} (h : e ∈ pick φ entries) :
    ∃ f ∈ entries, φ f.1 = some e.1 ∧ f.2 = e.2 := by
  obtain ⟨f, hf, hpicked⟩ := List.mem_filterMap.1 h
  obtain ⟨k, hknown, rfl⟩ := Option.map_eq_some_iff.1 hpicked
  exact ⟨f, hf, hknown, rfl⟩

theorem pick_set (hpicks : Picks φ) (hknown : φ key = some key') (entries : Keyed κ ν) (v : ν) :
    pick φ (entries.set key v) = (pick φ entries).set key' v := by
  induction entries with
  | nil => simp [set, pick_cons, hknown]
  | cons e rest ih =>
    obtain ⟨k, w⟩ := e
    by_cases hsame : k = key
    · subst hsame
      simp [set, pick_cons, hknown]
    · rw [set, if_neg hsame, pick_cons, pick_cons]
      cases hk : φ k with
      | none => simp [ih]
      | some k' =>
        have : k' ≠ key' := fun hsame' => hsame (hpicks k key key' (hsame' ▸ hk) hknown)
        simp [set, this, ih]

omit [DecidableEq κ'] in
theorem pick_set_of_none (hunknown : φ key = none) (entries : Keyed κ ν) (v : ν) :
    pick φ (entries.set key v) = pick φ entries := by
  induction entries with
  | nil => simp [set, pick_cons, hunknown]
  | cons e rest ih =>
    obtain ⟨k, w⟩ := e
    by_cases hsame : k = key
    · subst hsame
      simp [set, pick_cons, hunknown]
    · simp [set, hsame, pick_cons, ih]

theorem pick_erase (hpicks : Picks φ) (hknown : φ key = some key') (entries : Keyed κ ν) :
    pick φ (entries.erase key) = (pick φ entries).erase key' := by
  induction entries with
  | nil => rfl
  | cons e rest ih =>
    obtain ⟨k, w⟩ := e
    by_cases hsame : k = key
    · subst hsame
      simp [erase, pick_cons, hknown, ih]
    · rw [erase, if_neg hsame, pick_cons, pick_cons]
      cases hk : φ k with
      | none => simp [ih]
      | some k' =>
        have : k' ≠ key' := fun hsame' => hsame (hpicks k key key' (hsame' ▸ hk) hknown)
        simp [erase, this, ih]

omit [DecidableEq κ'] in
theorem pick_erase_of_none (hunknown : φ key = none) (entries : Keyed κ ν) :
    pick φ (entries.erase key) = pick φ entries := by
  induction entries with
  | nil => rfl
  | cons e rest ih =>
    obtain ⟨k, w⟩ := e
    by_cases hsame : k = key
    · subst hsame
      simp [erase, pick_cons, hunknown, ih]
    · simp [erase, hsame, pick_cons, ih]

/-- What is set alike in two lists is picked alike. -/
theorem pick_set_congr (hpicks : Picks φ) {entries entries' : Keyed κ ν}
    (hsame : pick φ entries = pick φ entries') (key : κ) (v : ν) :
    pick φ (entries.set key v) = pick φ (entries'.set key v) := by
  cases hknown : φ key with
  | none => rw [pick_set_of_none hknown, pick_set_of_none hknown, hsame]
  | some key' => rw [pick_set hpicks hknown, pick_set hpicks hknown, hsame]

theorem pick_erase_congr (hpicks : Picks φ) {entries entries' : Keyed κ ν}
    (hsame : pick φ entries = pick φ entries') (key : κ) :
    pick φ (entries.erase key) = pick φ (entries'.erase key) := by
  cases hknown : φ key with
  | none => rw [pick_erase_of_none hknown, pick_erase_of_none hknown, hsame]
  | some key' => rw [pick_erase hpicks hknown, pick_erase hpicks hknown, hsame]

/-! ## Values under a function -/

/-- The values under a function, under their old keys. -/
def mapValues {ν' : Type} (f : ν → ν') (entries : Keyed κ ν) : Keyed κ ν' :=
  entries.map fun e => (e.1, f e.2)

section

variable {ν' : Type} (f : ν → ν') (entries : Keyed κ ν)

omit [DecidableEq κ] in
@[simp] theorem keys_mapValues : keys (mapValues f entries) = keys entries := by
  simp [mapValues, keys, Function.comp_def]

@[simp] theorem get?_mapValues (key : κ) :
    (mapValues f entries).get? key = (entries.get? key).map f := by
  induction entries with
  | nil => rfl
  | cons e rest ih =>
    obtain ⟨k, v⟩ := e
    rw [mapValues] at ih
    by_cases h : k = key <;> simp [mapValues, get?, h, ih]

@[simp] theorem has_mapValues (key : κ) : (mapValues f entries).has key = entries.has key := by
  simp [has]

theorem mapValues_set (key : κ) (v : ν) :
    mapValues f (entries.set key v) = (mapValues f entries).set key (f v) := by
  induction entries with
  | nil => rfl
  | cons e rest ih =>
    obtain ⟨k, w⟩ := e
    rw [mapValues] at ih
    by_cases h : k = key <;> simp [mapValues, set, h, ih]

theorem mapValues_erase (key : κ) :
    mapValues f (entries.erase key) = (mapValues f entries).erase key := by
  induction entries with
  | nil => rfl
  | cons e rest ih =>
    obtain ⟨k, w⟩ := e
    rw [mapValues] at ih
    by_cases h : k = key <;> simp [mapValues, erase, h, ih]

end

end Dialogue.Keyed
