/-!
# Lists of keyed values

A `Keyed κ ν` lists values under distinct keys, in the order in which the keys were first set.
Documents, stores, rows of tables and directories of files are such lists.  The lemmas say what
`get?` sees after each operation.
-/

namespace Dialogue

/-- Values under keys, in the order of first insertion. -/
abbrev Keyed (κ ν : Type) := List (κ × ν)

namespace Keyed

variable {κ ν : Type} [DecidableEq κ]

/-- The value under a key. -/
def get? : Keyed κ ν → κ → Option ν
  | [], _ => none
  | (k, v) :: rest, key => if k = key then some v else get? rest key

/-- Whether there is a value under the key. -/
def has (entries : Keyed κ ν) (key : κ) : Bool := (entries.get? key).isSome

/-- Sets the value under a key: in place when the key is there, otherwise at the end. -/
def set : Keyed κ ν → κ → ν → Keyed κ ν
  | [], key, v => [(key, v)]
  | (k, w) :: rest, key, v => if k = key then (k, v) :: rest else (k, w) :: set rest key v

/-- The list without the values under a key. -/
def erase : Keyed κ ν → κ → Keyed κ ν
  | [], _ => []
  | (k, v) :: rest, key => if k = key then erase rest key else (k, v) :: erase rest key

/-- The keys in order. -/
def keys (entries : Keyed κ ν) : List κ := entries.map (·.1)

/-- Collects entries one after another; a repeated key keeps its first place and its last value. -/
def ofEntries (entries : List (κ × ν)) : Keyed κ ν :=
  entries.foldl (fun acc e => acc.set e.1 e.2) []

@[simp] theorem get?_set_self (entries : Keyed κ ν) (key : κ) (v : ν) :
    (entries.set key v).get? key = some v := by
  induction entries with
  | nil => simp [set, get?]
  | cons e rest ih =>
    obtain ⟨k, w⟩ := e
    by_cases h : k = key <;> simp [set, get?, h, ih]

theorem get?_set_of_ne (entries : Keyed κ ν) {key other : κ} (v : ν) (h : other ≠ key) :
    (entries.set key v).get? other = entries.get? other := by
  induction entries with
  | nil => simp [set, get?, Ne.symm h]
  | cons e rest ih =>
    obtain ⟨k, w⟩ := e
    by_cases hk : k = key
    · subst hk; simp [set, get?, Ne.symm h]
    · simp [set, get?, hk, ih]

@[simp] theorem get?_erase_self (entries : Keyed κ ν) (key : κ) :
    (entries.erase key).get? key = none := by
  induction entries with
  | nil => rfl
  | cons e rest ih =>
    obtain ⟨k, w⟩ := e
    by_cases h : k = key <;> simp [erase, get?, h, ih]

end Keyed

end Dialogue
