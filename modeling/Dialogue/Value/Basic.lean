import Dialogue.Double.Basic
import Dialogue.Keyed
import Dialogue.Moment

/-!
# Dynamic values

Stored documents, collected answers, settings and request bodies hold data whose shape this library
does not fix.  A `Value` is such a piece of data.  The entries of an object keep the order in which
they were first set; they are a `Keyed` list, whose lemmas say what `get?` sees after each change.
Settings files also know moments, and tables whose keys are not all texts.

`Value.plain` is the form in which documents hold data: a number that is not finite has no written
form and becomes `null` (`isFinite_plain`).
-/

namespace Dialogue

/-- A dynamic value. -/
inductive Value where
  | null
  | bool (b : Bool)
  | int (n : Int)
  | double (d : Double)
  | str (s : String)
  | list (items : List Value)
  | dict (fields : List (String × Value))
  | moment (m : Moment)
  | table (entries : List (Value × Value))
  deriving Inhabited, Repr

/-- The entries of an object, in the order of first insertion. -/
abbrev Fields := Keyed String Value

namespace Value

mutual
/-- Equality of values: of one kind, entry by entry in order. -/
def eq : Value → Value → Bool
  | .null, .null => true
  | .bool a, .bool b => a == b
  | .int a, .int b => a == b
  | .double a, .double b => a == b
  | .str a, .str b => a == b
  | .list a, .list b => eqList a b
  | .dict a, .dict b => eqFields a b
  | .moment a, .moment b => a == b
  | .table a, .table b => eqEntries a b
  | _, _ => false

/-- Equality of lists, item by item. -/
def eqList : List Value → List Value → Bool
  | [], [] => true
  | v :: r, w :: s => v.eq w && eqList r s
  | _, _ => false

/-- Equality of entries, key and value in order. -/
def eqFields : List (String × Value) → List (String × Value) → Bool
  | [], [] => true
  | (k, v) :: r, (l, w) :: s => k == l && v.eq w && eqFields r s
  | _, _ => false

/-- Equality of the entries of tables, key and value in order. -/
def eqEntries : List (Value × Value) → List (Value × Value) → Bool
  | [], [] => true
  | (k, v) :: r, (l, w) :: s => k.eq l && v.eq w && eqEntries r s
  | _, _ => false
end

instance : BEq Value := ⟨eq⟩

/-- Whether the value counts as absent: null, false, zero, or empty. -/
def isEmpty : Value → Bool
  | .null => true
  | .bool b => !b
  | .int n => n == 0
  | .double d => d.magnitude == 0
  | .str s => s.isEmpty
  | .list items => items.isEmpty
  | .dict fields => fields.isEmpty
  | .moment _ => false
  | .table entries => entries.isEmpty

/-- The value itself unless it counts as absent. -/
def orElse (v fallback : Value) : Value := if v.isEmpty then fallback else v

/-- The text of a text value. -/
def text? : Value → Option String
  | .str s => some s
  | _ => none

/-- Whether the value is null. -/
def isNull : Value → Bool
  | .null => true
  | _ => false

mutual
/-- The value with every number that is not finite replaced by null, at any depth. -/
def plain : Value → Value
  | .double d => if d.isFinite then .double d else .null
  | .list items => .list (plainList items)
  | .dict fields => .dict (plainFields fields)
  | .table entries => .table (plainEntries entries)
  | v => v

/-- `plain` on every item. -/
def plainList : List Value → List Value
  | [] => []
  | v :: rest => v.plain :: plainList rest

/-- `plain` on the value of every entry. -/
def plainFields : List (String × Value) → List (String × Value)
  | [] => []
  | (k, v) :: rest => (k, v.plain) :: plainFields rest

/-- `plain` on key and value of every entry of a table. -/
def plainEntries : List (Value × Value) → List (Value × Value)
  | [] => []
  | (k, v) :: rest => (k.plain, v.plain) :: plainEntries rest
end

mutual
/-- Whether all numbers in the value are finite, at any depth. -/
def isFinite : Value → Bool
  | .double d => d.isFinite
  | .list items => isFiniteList items
  | .dict fields => isFiniteFields fields
  | .table entries => isFiniteEntries entries
  | _ => true

/-- `isFinite` of every item. -/
def isFiniteList : List Value → Bool
  | [] => true
  | v :: rest => v.isFinite && isFiniteList rest

/-- `isFinite` of the value of every entry. -/
def isFiniteFields : List (String × Value) → Bool
  | [] => true
  | (_, v) :: rest => v.isFinite && isFiniteFields rest

/-- `isFinite` of key and value of every entry of a table. -/
def isFiniteEntries : List (Value × Value) → Bool
  | [] => true
  | (k, v) :: rest => k.isFinite && v.isFinite && isFiniteEntries rest
end

mutual
theorem isFinite_plain (v : Value) : v.plain.isFinite = true := by
  cases v with
  | double d => by_cases h : d.isFinite <;> simp [plain, isFinite, h]
  | list items => simpa [plain, isFinite] using isFiniteList_plainList items
  | dict fields => simpa [plain, isFinite] using isFiniteFields_plainFields fields
  | table entries => simpa [plain, isFinite] using isFiniteEntries_plainEntries entries
  | moment m => rfl
  | null => rfl
  | bool b => rfl
  | int n => rfl
  | str s => rfl

theorem isFiniteList_plainList (vs : List Value) : isFiniteList (plainList vs) = true := by
  cases vs with
  | nil => rfl
  | cons v rest => simp [plainList, isFiniteList, isFinite_plain v, isFiniteList_plainList rest]

theorem isFiniteFields_plainFields (es : List (String × Value)) :
    isFiniteFields (plainFields es) = true := by
  cases es with
  | nil => rfl
  | cons e rest =>
    obtain ⟨k, v⟩ := e
    simp [plainFields, isFiniteFields, isFinite_plain v, isFiniteFields_plainFields rest]

theorem isFiniteEntries_plainEntries (es : List (Value × Value)) :
    isFiniteEntries (plainEntries es) = true := by
  cases es with
  | nil => rfl
  | cons e rest =>
    obtain ⟨k, v⟩ := e
    simp [plainEntries, isFiniteEntries, isFinite_plain k, isFinite_plain v,
      isFiniteEntries_plainEntries rest]
end

/-- Text or null. -/
def ofOption (s : Option String) : Value := (s.map Value.str).getD .null

/-- An integer or null. -/
def ofIndex (n : Option Int) : Value := (n.map Value.int).getD .null

/-- A list of texts. -/
def ofTexts (xs : List String) : Value := .list (xs.map .str)

end Value

namespace Fields

/-- The value under a key. -/
abbrev get? (fields : Fields) (key : String) : Option Value := Keyed.get? fields key

/-- Whether there is an entry under the key. -/
abbrev has (fields : Fields) (key : String) : Bool := Keyed.has fields key

/-- Sets the value under a key: in place when the key is there, otherwise at the end. -/
abbrev set (fields : Fields) (key : String) (v : Value) : Fields := Keyed.set fields key v

/-- The value under a key, null when there is none. -/
def getD (fields : Fields) (key : String) : Value := (get? fields key).getD .null

/-- The entries whose value is not null. -/
def dropNulls (fields : Fields) : Fields := fields.filter fun e => !e.2.isNull

/-- The entries whose key is not among those given. -/
def without (fields : Fields) (keys : List String) : Fields :=
  fields.filter fun e => !keys.contains e.1

end Fields

/-! ## Values that count as the same

Values count as the same (`Value.same`) if they differ at most in how numbers are written and in the
order of entries.  A truth value is the number one or zero, a number without a fractional part is
the same in both kinds, and a NaN is the same as nothing.

`Value.same` is coarser than equality: a store that leaves alone what would not change goes by it.
-/

namespace Value

/-- The whole number that a value counts as. -/
def whole? : Value → Option Int
  | .bool b => some (if b then 1 else 0)
  | .int n => some n
  | .double d => d.integer?
  | _ => none

/-- Whether two values count as the same whole number. -/
def sameWhole (v w : Value) : Bool :=
  match v.whole?, w.whole? with
  | some m, some n => m == n
  | _, _ => false

mutual
/-- Whether two values count as the same: numbers by what they amount to, lists item by item,
objects by their keys. -/
def same : Value → Value → Bool
  | .null, .null => true
  | .double a, .double b => a.same b
  | .str a, .str b => a == b
  | .list a, .list b => sameList a b
  | .dict a, .dict b => a.length == b.length && sameFields a b
  | .moment a, .moment b => a == b
  | .table a, .table b => eqEntries a b
  | v, w => sameWhole v w

/-- Whether lists count as the same, item by item. -/
def sameList : List Value → List Value → Bool
  | [], [] => true
  | v :: r, w :: s => v.same w && sameList r s
  | _, _ => false

/-- Whether every entry counts as the same as the one that has its key among others. -/
def sameFields : List (String × Value) → Fields → Bool
  | [], _ => true
  | (k, v) :: r, others =>
    (match Fields.get? others k with
      | some w => v.same w
      | none => false) && sameFields r others
end

end Value

end Dialogue
