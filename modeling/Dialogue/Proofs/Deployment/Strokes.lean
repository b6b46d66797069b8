import Dialogue.Proofs.Deployment.Stored
import Dialogue.Proofs.Scene.Serial
import Dialogue.Proofs.Store.Log
import Dialogue.Strokes

/-!
# Strokes and what they see of a deployment

Two deployments are the same to a call if they differ in their time and their log only
(`Deployment.Same`): every call goes by a clock of its own, and no access reads the log.  Accesses
to flows are made in one piece, wherever flows are kept (`Deployment.inOnePiece_strokes`).
-/

namespace Dialogue

open Run Store

/-- Where a flow lies in a store. -/
def Backend.locate : Backend → Value → Value → String
  | .memory _, tenant, name => Memory.location tenant name
  | .directory dir, tenant, name => (Directory.flowPath dir tenant name).text
  | .table _ _ _, tenant, name => Table.location tenant name

namespace Deployment

/-- Two deployments are the same but for their time and their log. -/
def Same (d d' : Deployment) : Prop := { d with clock := d'.clock, events := d'.events } = d'

theorem equivalence_same : Equivalence Same where
  refl _ := rfl
  symm {d d'} hsame := by
    rw [← hsame]
    rfl
  trans {d d' d''} hsame hsame' := by
    rw [← hsame', ← hsame]
    rfl

theorem same_log (e : Event) (d : Deployment) : d.Same (d.log e) := rfl

theorem same_setClock (clock : String) (d : Deployment) : d.Same { d with clock } := rfl

variable {α : Type} {n : Nat}

theorem Same.store_eq {d d' : Deployment} (hsame : d.Same d') (n : Nat) :
    d.store n = d'.store n := by
  rw [← hsame]
  rfl

theorem setStore_of_eq {d : Deployment} {b : Backend} (hlies : d.store n = b) :
    d.setStore n b = d := by
  have hsame : d.stores.set n b = d.stores := by
    by_cases hmade : n < d.stores.length
    · have hthere : d.stores[n] = b := by simpa [store, hmade] using hlies
      rw [← hthere, List.set_getElem_self]
    · exact List.set_eq_of_length_le (Nat.le_of_not_lt hmade)
  rw [setStore, hsame]

/-- Runs over parts of a deployment that do not read the log do not see what deployments differ in
that are the same. -/
theorem agrees_onMemory {m : Run (Traced Memory) α} (hunlogged : m.Unlogged) (documents : Memory)
    {d d' : Deployment} (hsame : d.Same d') :
    (onMemory n documents m d).1 = (onMemory n documents m d').1 ∧
      (onMemory n documents m d).2.Same (onMemory n documents m d').2 := by
  obtain ⟨hresult, hafter⟩ := hunlogged ⟨documents, d.events⟩ ⟨documents, d'.events⟩ rfl
  refine ⟨hresult, ?_⟩
  simp only [onMemory, Run.zoom_apply]
  rw [show (m _).2.state = _ from hafter, ← hsame]
  rfl

theorem agrees_onFiles {m : Run (Traced Files) α} (hunlogged : m.Unlogged) {d d' : Deployment}
    (hsame : d.Same d') :
    (onFiles m d).1 = (onFiles m d').1 ∧ (onFiles m d).2.Same (onFiles m d').2 := by
  have hfiles : d.files = d'.files := by
    rw [← hsame]
  obtain ⟨hresult, hafter⟩ := hunlogged ⟨d.files, d.events⟩ ⟨d'.files, d'.events⟩ hfiles
  refine ⟨hresult, ?_⟩
  simp only [onFiles, Run.zoom_apply]
  rw [show (m _).2.state = _ from hafter, ← hsame]
  rfl

theorem agrees_onTable {m : Run (Traced Table.State) α} (hunlogged : m.Unlogged) (address : Value)
    (flowsReady conversationsReady : Bool) {d d' : Deployment} (hsame : d.Same d') :
    (onTable n address flowsReady conversationsReady m d).1 =
        (onTable n address flowsReady conversationsReady m d').1 ∧
      (onTable n address flowsReady conversationsReady m d).2.Same
        (onTable n address flowsReady conversationsReady m d').2 := by
  have hsite : Table.State.mk ⟨d.files, d.connection⟩ flowsReady conversationsReady =
      ⟨⟨d'.files, d'.connection⟩, flowsReady, conversationsReady⟩ := by
    rw [← hsame]
  obtain ⟨hresult, hafter⟩ := hunlogged ⟨_, d.events⟩ ⟨_, d'.events⟩ hsite
  refine ⟨hresult, ?_⟩
  simp only [onTable, Run.zoom_apply]
  rw [show (m _).2.state = _ from hafter, ← hsame]
  rfl

theorem clock_accessStore (n : Nat) (a : Access) (d : Deployment) :
    (accessStore n a d).2.clock = d.clock := by
  rw [accessStore]
  cases d.store n <;> rfl

/-- An access does not see what deployments differ in that are the same, if their times agree. -/
theorem agrees_accessStore (n : Nat) (a : Access) :
    Agrees (fun d d' => d.clock = d'.clock ∧ d.Same d') (accessStore n a) := by
  rintro d d' ⟨hclock, hsame⟩
  have hsettings : d.settings = d'.settings := by rw [← hsame]
  have hboth : (accessStore n a d).1 = (accessStore n a d').1 ∧
      (accessStore n a d).2.Same (accessStore n a d').2 := by
    rw [accessStore, accessStore, hsame.store_eq, hclock]
    cases d'.store n with
    | memory documents => exact agrees_onMemory (Memory.unlogged_access _ a) documents hsame
    | directory dir => exact agrees_onFiles (Directory.unlogged_access dir _ a) hsame
    | table address flowsReady conversationsReady =>
      have hfound : d.addressOr address = d'.addressOr address := by
        simp only [addressOr, hsettings]
      dsimp only
      rw [hfound, hsettings]
      exact agrees_onTable (Table.unlogged_access _ _ _ a) address _ _ hsame
  exact ⟨hboth.1, by rw [clock_accessStore, clock_accessStore, hclock], hboth.2⟩

theorem agrees_at (n : Nat) (a : Access) (clock : String) :
    Agrees Same fun d => accessStore n a { d with clock } := by
  intro d d' hsame
  have hsame' : Same { d with clock } { d' with clock } := by
    rw [← hsame]
    rfl
  obtain ⟨hresult, -, hafter⟩ :=
    agrees_accessStore n a { d with clock } { d' with clock } ⟨rfl, hsame'⟩
  exact ⟨hresult, hafter⟩

/-- An access leaves a store as it is but for its documents and for what it knows of its tables. -/
theorem store_accessStore {β : Type} (f : Backend → β)
    (hmemory : ∀ documents documents', f (.memory documents) = f (.memory documents'))
    (htable : ∀ address flowsReady conversationsReady flowsReady' conversationsReady',
      f (.table address flowsReady conversationsReady) =
        f (.table address flowsReady' conversationsReady'))
    (n : Nat) (a : Access) (d : Deployment) :
    f ((accessStore n a d).2.store n) = f (d.store n) := by
  cases hlies : d.store n with
  | memory documents =>
    simp only [accessStore, hlies, onMemory, Run.zoom_apply]
    show f (store (setStore n _ d) n) = _
    rw [store_setStore]
    split <;> exact hmemory _ _
  | directory dir =>
    simp only [accessStore, hlies, onFiles, Run.zoom_apply]
    show f (store d n) = _
    rw [hlies]
  | table address flowsReady conversationsReady =>
    have hmade : n < d.stores.length := by
      refine Classical.byContradiction fun hmissing => ?_
      rw [store_of_not_lt hmissing] at hlies
      cases hlies
    simp only [accessStore, hlies, onTable, Run.zoom_apply]
    show f (store (setStore n _ d) n) = _
    rw [store_setStore, if_pos hmade]
    exact htable _ _ _ _ _

theorem locate_accessStore (n : Nat) (a : Access) (d : Deployment) :
    ((accessStore n a d).2.store n).locate = (d.store n).locate :=
  store_accessStore Backend.locate (fun _ _ => rfl) (fun _ _ _ _ _ => rfl) n a d

theorem kind_accessStore (n : Nat) (a : Access) (d : Deployment) :
    ((accessStore n a d).2.store n).kind = (d.store n).kind :=
  store_accessStore Backend.kind (fun _ _ => rfl) (fun _ _ _ _ _ => rfl) n a d

theorem accessStore_locateFlow (n : Nat) (tenant name : Value) (d : Deployment) :
    accessStore n (.locateFlow tenant name) d = (.ok ((d.store n).locate tenant name), d) := by
  cases hlies : d.store n with
  | memory documents =>
    rw [accessStore, hlies]
    exact congrArg (Prod.mk _) (setStore_of_eq hlies)
  | directory dir =>
    rw [accessStore, hlies]
    rfl
  | table address flowsReady conversationsReady =>
    rw [accessStore, hlies]
    exact congrArg (Prod.mk _) (setStore_of_eq hlies)

theorem storeOf_of_isAboutFlows (e : Engine) {a : Access} (habout : a.isAboutFlows = true) :
    storeOf e a = e.flows := if_pos habout

theorem firstStroke_of_isAboutFlows (n : Nat) {a : Access} (habout : a.isAboutFlows = true)
    (d : Deployment) : firstStroke n a d = (.ok [], d) := by
  rw [firstStroke]
  cases d.store n with
  | memory documents => rfl
  | table address flowsReady conversationsReady => rfl
  | directory dir => cases a <;> first | rfl | cases habout

theorem secondStroke_of_isAboutFlows (n : Nat) {a : Access} (habout : a.isAboutFlows = true)
    (seen : Fields) (d : Deployment) : secondStroke n a seen d = accessStore n a d := by
  rw [secondStroke]
  cases hlies : d.store n with
  | memory documents => rfl
  | table address flowsReady conversationsReady => rfl
  | directory dir =>
    rw [accessStore, hlies]
    cases a <;> first | rfl | cases habout

/-- Calls at the times of clocks make their accesses to flows in one piece. -/
theorem inOnePiece_strokes {ι : Type} (e : Engine) (clocks : ι → String) (d : Deployment) :
    Scene.InOnePiece Same (fun d' => (d'.store e.flows).locate = (d.store e.flows).locate)
      fun i => strokes e (clocks i) where
  equivalence := equivalence_same
  log i e d := same_log e d
  agrees i a habout := agrees_at _ a (clocks i)
  first i a habout d := by
    show (firstStroke _ a { d with clock := clocks i }).1 = _ ∧ Same d (firstStroke _ a _).2
    rw [firstStroke_of_isAboutFlows _ habout]
    exact ⟨rfl, same_setClock _ d⟩
  second i a habout seen := by
    funext d
    exact secondStroke_of_isAboutFlows _ habout seen _
  locates i tenant name := by
    refine ⟨(d.store e.flows).locate tenant name, fun d' hplaced => ?_⟩
    have hlocated := accessStore_locateFlow e.flows tenant name { d' with clock := clocks i }
    show (accessStore e.flows _ _).1 = _ ∧ Same _ (accessStore e.flows _ _).2
    rw [hlocated, ← hplaced]
    exact ⟨rfl, same_setClock _ d'⟩
  related := by
    intro d₁ d₂ hsame hplaced
    rw [← hsame.store_eq]
    exact hplaced
  keeps i a habout d' hplaced := by
    show ((accessStore (storeOf e a) a _).2.store e.flows).locate = _
    rw [storeOf_of_isAboutFlows e habout, locate_accessStore]
    exact hplaced

end Deployment

end Dialogue
