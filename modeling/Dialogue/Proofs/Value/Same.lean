import Dialogue.Proofs.Keyed
import Dialogue.Schema.Scalar
import Dialogue.Value.Basic
import Mathlib.Data.List.Perm.Subperm

/-!
# What counts as the same as a document

A value that counts as the same as a text or null is that text or null, and one that counts as the
same as an integer is read as that integer, if it is read as one at all (`readInteger_of_same`).
Objects that count as the same have the same keys (`keys_perm_of_same`), so the two differ only in
their order and in how numbers are written.
-/

namespace Dialogue

open Keyed (keys)

theorem Keyed.set_eq_self {κ ν : Type} [DecidableEq κ] {entries : Keyed κ ν} {key : κ} {v : ν}
    (hthere : entries.get? key = some v) : entries.set key v = entries := by
  induction entries with
  | nil => simp [get?] at hthere
  | cons e rest ih =>
    obtain ⟨k, w⟩ := e
    by_cases hsame : k = key
    · simp only [get?, hsame, if_true, Option.some.injEq] at hthere
      simp [set, hsame, hthere]
    · simp only [get?, hsame, if_false] at hthere
      simp [set, hsame, ih hthere]

namespace Value

variable {v w : Value} {a b : Fields}

/-! ## Scalars -/

theorem eq_str_of_same {s : String} (hsame : (Value.str s).same v = true) : v = .str s := by
  cases v <;> simp_all [Value.same, sameWhole, whole?]

theorem eq_null_of_same (hsame : Value.null.same v = true) : v = .null := by
  cases v <;> simp_all [Value.same, sameWhole, whole?]

theorem eq_ofOption_of_same {t : Option String} (hsame : (ofOption t).same v = true) :
    v = ofOption t := by
  cases t with
  | none => exact eq_null_of_same hsame
  | some s => exact eq_str_of_same hsame

theorem whole?_of_same {n : Int} (hsame : (Value.int n).same v = true) : v.whole? = some n := by
  cases v <;> simp_all [Value.same, sameWhole, whole?]
  split at hsame <;> simp_all

theorem readInteger_of_same {n i : Int} (hsame : (Value.int n).same v = true)
    (hread : Schema.readInteger v = .ok i) : i = n := by
  have hwhole := whole?_of_same hsame
  cases v with
  | bool b =>
    simp only [whole?, Option.some.injEq] at hwhole
    simpa [Schema.readInteger, hwhole] using hread.symm
  | int m =>
    simp only [whole?, Option.some.injEq] at hwhole
    simpa [Schema.readInteger, hwhole] using hread.symm
  | double d =>
    simp only [whole?] at hwhole
    simp only [Schema.readInteger, hwhole] at hread
    cases hfinite : d.isFinite with
    | false => simp [hfinite] at hread
    | true =>
      simp only [hfinite] at hread
      split at hread
      · exact (Except.ok.inj hread).symm
      · cases hread
  | _ => cases hwhole

theorem readInteger_eq_of_same {n : Int} (hsmall : n.natAbs < Nat.pow 2 63)
    (hsame : (Value.int n).same v = true) : Schema.readInteger v = .ok n := by
  have hwhole := whole?_of_same hsame
  cases v with
  | bool b =>
    simp only [whole?, Option.some.injEq] at hwhole
    simp [Schema.readInteger, hwhole]
  | int m =>
    simp only [whole?, Option.some.injEq] at hwhole
    simp [Schema.readInteger, hwhole]
  | double d =>
    simp only [whole?] at hwhole
    have hfinite : d.isFinite = true := by
      unfold Double.integer? at hwhole
      split at hwhole
      · assumption
      · cases hwhole
    simp only [Schema.readInteger, hwhole, hfinite, if_pos hsmall]
  | _ => cases hwhole

theorem exists_of_same_list {a : List Value} (hsame : (Value.list a).same v = true) :
    ∃ b, v = .list b := by
  cases v <;> simp_all [Value.same, sameWhole, whole?]

/-! ## Objects -/

theorem same_of_mem_sameFields (hsame : sameFields a b = true) {key : String}
    (hlisted : (key, v) ∈ a) : ∃ w, Fields.get? b key = some w ∧ v.same w = true := by
  induction a with
  | nil => simp at hlisted
  | cons e rest ih =>
    obtain ⟨k, u⟩ := e
    simp only [sameFields, Bool.and_eq_true] at hsame
    obtain ⟨hfirst, hothers⟩ := hsame
    rcases List.mem_cons.1 hlisted with here | hlater
    · cases here
      cases hfound : Fields.get? b key with
      | none => simp [hfound] at hfirst
      | some w => exact ⟨w, rfl, by simpa [hfound] using hfirst⟩
    · exact ih hothers hlater

/-- What counts as the same as an object is an object with an entry for each of its entries. -/
theorem exists_of_same_dict (hsame : (Value.dict a).same v = true) :
    ∃ b, v = .dict b ∧ a.length = b.length ∧ ∀ {key w}, (key, w) ∈ a →
      ∃ w', Fields.get? b key = some w' ∧ w.same w' = true := by
  cases v with
  | dict b =>
    simp only [Value.same, Bool.and_eq_true, beq_iff_eq] at hsame
    exact ⟨b, rfl, hsame.1, fun hlisted => same_of_mem_sameFields hsame.2 hlisted⟩
  | _ => simp [Value.same, sameWhole, whole?] at hsame

theorem keys_perm_of_same (hnodup : (keys a).Nodup)
    (hsame : (Value.dict a).same (.dict b) = true) : (keys a).Perm (keys b) := by
  obtain ⟨b', ⟨⟩, hlength, hentries⟩ := exists_of_same_dict hsame
  have hwithin : keys a ⊆ keys b := by
    intro key hlisted
    obtain ⟨⟨k, w⟩, hentry, rfl⟩ := List.mem_map.1 hlisted
    obtain ⟨w', hfound, -⟩ := hentries hentry
    exact Keyed.mem_keys_of_mem (Keyed.mem_of_get?_eq_some hfound)
  refine (hnodup.subperm hwithin).perm_of_length_le ?_
  simp [keys, hlength]

theorem eq_nil_of_same (hsame : (Value.dict []).same (.dict b) = true) : b = [] := by
  obtain ⟨b', ⟨⟩, hlength, -⟩ := exists_of_same_dict hsame
  exact List.length_eq_zero_iff.1 hlength.symm

/-- An object in which a text was set counts as the same only if the text was there. -/
theorem set_eq_self_of_same {field text : String}
    (hsame : (Value.dict (Fields.set a field (.str text))).same (.dict a) = true) :
    Fields.set a field (.str text) = a := by
  obtain ⟨b', ⟨⟩, hlength, hentries⟩ := exists_of_same_dict hsame
  have hset : (field, Value.str text) ∈ Fields.set a field (.str text) :=
    Keyed.mem_of_get?_eq_some (Keyed.get?_set_self _ _ _)
  obtain ⟨w, hfound, htext'⟩ := hentries hset
  rw [eq_str_of_same htext'] at hfound
  exact Keyed.set_eq_self hfound

end Value

end Dialogue
