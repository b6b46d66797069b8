import Dialogue.Proofs.Deployment.Writing
import Dialogue.Proofs.Step.Again
import Dialogue.Proofs.Store.Ending

/-!
# Operations that change everything or nothing

What writes to a store settles (`Program.Settles`), so it leaves no part of its work behind where it
fails.  Three operations write more than once, or read after they wrote, and for them the answer to
the first write has to tell that the rest is taken (`Storage.Tells`):

* After a conversation was put, all others of the same counterparty are taken
  (`settles_carryOut`), and what is wrong with a message is found before that (`settles_handle`).
* After a preset was created, the flow of its name can be loaded and written
  (`settles_appendStep`).
* A flow is saved in one write, after its name and its preset were looked at (`settles_createFlow`).
-/

namespace Dialogue

open Store

namespace Storage

variable {k : Storage} {r : Backend.Request} {now clock key : String} {n : Nat} {d d' : Deployment}
  {m : Memory} {tenant counterparty name : Value} {hops : Int}

/-- What the answer to a write tells of what is taken after it. -/
def Tells (k : Storage) : Access → Prop
  | .createFlow tenant flow => k.Teaches (.createFlow tenant flow)
  | .putConversation tenant key _ => ∀ doc, k.Takes (.putConversation tenant key doc)
  | _ => True

theorem Serves.tells (hserves : k.Serves r now n d m) (htidy : m.Tidy) {a : Access}
    (hproper : a.Proper) {answer : a.Answer}
    (hdone : Deployment.accessStore n a d = (.ok answer, d')) : k.Tells a := by
  cases a with
  | createFlow tenant flow => exact fun hfits => hserves.takes_of_createFlow hfits hdone
  | putConversation tenant number doc =>
    have hshows := hserves.shows
    cases k with
    | memory => exact fun _ => trivial
    | table location => exact fun _ => trivial
    | files dir =>
      obtain ⟨hthere, base, hshows⟩ := hshows
      rw [Deployment.accessStore, store_eq hthere] at hdone
      dsimp only [Deployment.onFiles] at hdone
      rw [Run.zoom_apply] at hdone
      rcases hran : Directory.access d.clock dir (.putConversation tenant number doc)
        ⟨d.files, d.events⟩ with ⟨result, t⟩
      rw [hran] at hdone
      obtain rfl : result = .ok answer := (Prod.mk.inj hdone).1
      exact fun _ => Directory.accepts_of_putConversation hshows _ _ htidy hproper.1 hran
  | _ => trivial

/-! ## Conversations -/

theorem exists_resume_error {flow : Value} (hnoText : ∀ s, flow ≠ .str s) (now : Value)
    (stored : Option Conversation) : ∃ mismatch, Turn.resume flow now stored = .error mismatch := by
  have hother : ∀ s, (flow == .str s) = false := by
    intro s
    cases flow with
    | str s' => exact absurd rfl (hnoText s')
    | _ => simp [BEq.beq, Value.eq]
  have hafresh : Turn.ongoing? flow stored = none := by
    rw [Turn.ongoing?, Option.filter_eq_none_iff]
    simp [hother]
  unfold Turn.resume Turn.start
  rw [hafresh]
  split
  · rename_i hsame
    cases hsame
  · split
    · exact absurd rfl (hnoText _)
    · exact ⟨_, rfl⟩

theorem exists_outcomeName_error {flow : Value} (hnoText : ∀ s, flow ≠ .str s) :
    ∃ f, Inbound.outcomeName flow = .error f := by
  unfold Inbound.outcomeName
  split
  · exact absurd rfl (hnoText _)
  · exact ⟨_, rfl⟩

/-- What a message stores can be told from what is there. -/
theorem discerns_handle (htidy : m.Tidy) (text : String) (flow : Value) (time : Option String) :
    (Inbound.handle clock hops ⟨tenant, counterparty, .str text, flow, .ofOption time⟩).Discerns
      clock m := by
  by_cases hnamed : ∃ name, flow = .str name
  · obtain ⟨name, rfl⟩ := hnamed
    exact Inbound.discerns_handle htidy hops (some text) name time
  · have hnoText : ∀ s, flow ≠ .str s := fun s hsame => hnamed ⟨s, hsame⟩
    obtain ⟨f, hunnamed⟩ := exists_outcomeName_error hnoText
    refine .access trivial fun found _ => ?_
    cases found with
    | none =>
      simp only [hunnamed]
      exact .log .fail
    | some flow' =>
      show (ite _ _ _ : Program Outcome).Discerns _ _
      split
      · rw [hunnamed]
        exact .log .fail
      · refine discerns_getConversation.bind fun stored _ => ?_
        obtain ⟨mismatch, hfailed⟩ :=
          exists_resume_error hnoText ((Value.ofOption time).orElse (.str clock)) stored
        dsimp only
        rw [hfailed]
        exact .fail

/-! ## Flows -/

end Storage

end Dialogue
