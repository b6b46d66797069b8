import Dialogue.Proofs.Deployment.Append
import Dialogue.Proofs.Deployment.Turns
import Dialogue.Proofs.Deployment.Writing

/-!
# The ledger of a deployment

Replies to demands that write flows tell what was written (`Deployment.written`), so they are a
ledger of the flows that a deployment keeps.  On a deployment that keeps nothing at first, the
ledger is complete: what lies under a key is what was written there last (`Deployment.Books.lies`).

* A step that is appended comes after the steps that were found, so steps are neither lost nor
  repeated (`Deployment.Books.steps`).
* What is written over a flow has a greater version than all that was written there before
  (`Deployment.Ledger.rises`).
* A preset is created only where nothing was written (`Deployment.Ledger.tells`), so it is created
  once at most (`Deployment.Ledger.once`).
-/

namespace Dialogue

open Store

/-- An entry as it is found after it was stored. -/
def Entry.again (e : Entry) : Entry := Entry.ofValue e.storedDocument

namespace Deployment

/-- A demand that was made, and its answer. -/
abbrev Reply := Asking × Except Failure Demand.Answer

/-- The flow that a reply tells was written, and the tenant that it was written for. -/
def wrote? : Reply → Option (Value × Flow)
  | (⟨_, .operate (.saveFlow tenant _)⟩, .ok (.located (.flow saved) _)) => some (tenant, saved)
  | (⟨_, .operate (.appendStep tenant _ _)⟩, .ok (.plain (.flow grown))) => some (tenant, grown)
  | (⟨clock, .operate (.ensurePreset tenant name)⟩, .ok (.located (.created true) _)) =>
    (Flow.ofPresetNamed clock .leadQualification name).toOption.map fun preset => (tenant, preset)
  | _ => none

/-- The flow that a reply tells was written under a key. -/
def wroteUnder? (key : Key) (reply : Reply) : Option Flow :=
  (wrote? reply).bind fun (tenant, flow) =>
    if flowKey tenant (.str flow.name) = key then some flow else none

/-- The flows that were written under a key, one after another. -/
def written (key : Key) (replies : List Reply) : List Flow := replies.filterMap (wroteUnder? key)

/-- The steps that are found under a key after a reply, where others were found before. -/
def nextSteps (key : Key) (found : Option (List Entry)) : Reply → Option (List Entry)
  | (⟨_, .operate (.saveFlow tenant flow)⟩, .ok _) =>
    if flowKey tenant (.str flow.name) = key then some (flow.steps.map Entry.again) else found
  | (⟨_, .operate (.appendStep tenant name step)⟩, .ok _) =>
    if flowKey tenant name = key then
      some ((found.getD (Preset.steps .leadQualification) ++ [Entry.ofValue step]).map Entry.again)
    else found
  | (⟨_, .operate (.ensurePreset tenant name)⟩, .ok (.located (.created true) _)) =>
    if flowKey tenant name = key then some (Preset.steps .leadQualification) else found
  | _ => found

/-- The steps that are found under a key after replies, where none were found before. -/
def stepsFound (key : Key) (replies : List Reply) : Option (List Entry) :=
  replies.foldl (nextSteps key) none

/-- A preset was created under a key. -/
def Creates (key : Key) : Reply → Prop
  | (⟨_, .operate (.ensurePreset tenant name)⟩, .ok (.located (.created created) _)) =>
    created = true ∧ flowKey tenant name = key
  | _ => False

/-- What a reply tells of the flows that were written before: a preset is created exactly where
there is none, and a step makes the next version of what was written last. -/
def Tells (earlier : List Reply) : Reply → Prop
  | (⟨_, .operate (.ensurePreset tenant name)⟩, .ok (.located (.created created) _)) =>
    created = true ↔ written (flowKey tenant name) earlier = []
  | (⟨_, .operate (.appendStep tenant name _)⟩, .ok (.plain (.flow grown))) =>
    grown.version = (written (flowKey tenant name) earlier).getLast?.elim 1 Flow.version + 1
  | _ => True

/-- Versions rise, every reply tells of what was written before, and presets are created once. -/
structure Ledger (replies : List Reply) : Prop where
  rises : ∀ key, (written key replies).Pairwise fun f g => f.version < g.version
  tells : ∀ earlier reply later, replies = earlier ++ reply :: later → Tells earlier reply
  once : ∀ key, replies.Pairwise fun x y => ¬ (Creates key x ∧ Creates key y)

/-- Contents are those that replies tell of. -/
structure Books (m : Memory) (replies : List Reply) : Prop where
  sound : m.Sound
  lies : ∀ key, m.flows.get? key =
    (written key replies).getLast?.map fun flow => .dict flow.document
  named : ∀ key, ∀ flow ∈ written key replies, flow.name ≠ ""
  steps : ∀ key, stepsFound key replies =
    (written key replies).getLast?.map fun flow => flow.steps.map Entry.again
  created : ∀ key, ∀ reply ∈ replies, Creates key reply → written key replies ≠ []
  ledger : Ledger replies

variable {m : Memory} {replies earlier : List Reply} {reply : Reply} {key : Key} {flow : Flow}

theorem books_empty : Books {} [] where
  sound := Memory.sound_empty
  lies _ := rfl
  named _ _ hlisted := absurd hlisted List.not_mem_nil
  steps _ := rfl
  created _ _ hlisted := absurd hlisted List.not_mem_nil
  ledger :=
    { rises := fun _ => .nil
      tells := fun earlier _ _ hsplit => by simp at hsplit
      once := fun _ => .nil }

/-! ## One more reply -/

theorem written_concat (key : Key) (replies : List Reply) (reply : Reply) :
    written key (replies ++ [reply]) = written key replies ++ (wroteUnder? key reply).toList := by
  rw [written, List.filterMap_append]
  congr 1

theorem written_of_none (hnothing : wrote? reply = none) (key : Key) :
    written key (replies ++ [reply]) = written key replies := by
  simp [written_concat, wroteUnder?, hnothing]

theorem written_of_some {tenant : Value} (hwrote : wrote? reply = some (tenant, flow)) (key : Key) :
    written key (replies ++ [reply]) = written key replies ++
      if flowKey tenant (.str flow.name) = key then [flow] else [] := by
  rw [written_concat, wroteUnder?, hwrote]
  by_cases hsame : flowKey tenant (.str flow.name) = key <;> simp [hsame]

theorem stepsFound_concat (key : Key) (replies : List Reply) (reply : Reply) :
    stepsFound key (replies ++ [reply]) = nextSteps key (stepsFound key replies) reply := by
  rw [stepsFound, List.foldl_append]
  rfl

theorem key_of_written (hlisted : flow ∈ written key replies) :
    ∃ tenant, flowKey tenant (.str flow.name) = key := by
  obtain ⟨reply, -, hwrote⟩ := List.mem_filterMap.1 hlisted
  obtain ⟨⟨tenant, flow'⟩, -, hsame⟩ := Option.bind_eq_some_iff.1 hwrote
  obtain ⟨hequal, hown⟩ := Option.ite_none_right_eq_some.1 hsame
  cases hown
  exact ⟨tenant, hequal⟩

/-- A ledger goes on with a reply that tells of what was written before. -/
theorem Ledger.concat (hledger : Ledger replies) (htells : Tells replies reply)
    (hrises : ∀ key, (written key (replies ++ [reply])).Pairwise fun f g => f.version < g.version)
    (honce : ∀ key, ∀ x ∈ replies, Creates key x → ¬ Creates key reply) :
    Ledger (replies ++ [reply]) where
  rises := hrises
  tells earlier x later hsplit := by
    rcases List.eq_nil_or_concat later with rfl | ⟨init, last, rfl⟩
    · obtain ⟨rfl, hsame⟩ := List.append_inj' hsplit rfl
      exact List.head_eq_of_cons_eq hsame ▸ htells
    · rw [List.concat_eq_append, ← List.cons_append, ← List.append_assoc] at hsplit
      exact hledger.tells earlier x init (List.append_inj' hsplit rfl).1
  once key := by
    refine List.pairwise_append.2 ⟨hledger.once key, List.pairwise_singleton _ _, ?_⟩
    intro x hlisted y hlast
    obtain rfl := List.mem_singleton.1 hlast
    rintro ⟨hcreated, hagain⟩
    exact honce key x hlisted hcreated hagain

namespace Books

variable {m' : Memory} {tenant : Value}

/-- What was written last has the greatest version. -/
theorem le_of_mem (hbooks : Books m replies) {last : Flow}
    (hlatest : (written key replies).getLast? = some last) (hlisted : flow ∈ written key replies) :
    flow.version ≤ last.version := by
  obtain ⟨init, hsplit⟩ := List.getLast?_eq_some_iff.1 hlatest
  have hrises := hbooks.ledger.rises key
  rw [hsplit] at hlisted hrises
  rcases List.mem_append.1 hlisted with hbefore | hown
  · have hrises := (List.pairwise_append.1 hrises).2.2 flow hbefore last List.mem_cons_self
    omega
  · exact Int.le_of_eq (congrArg Flow.version (List.mem_singleton.1 hown))

/-- The flow that is found under a key is what was written there last. -/
theorem exists_of_flow? (hbooks : Books m replies) {now : String}
    (hfound : m.flow? now key = some flow) :
    ∃ last, (written key replies).getLast? = some last ∧
      Flow.ofValue now (.dict last.document) = .ok flow ∧ flow.name = last.name ∧
      flow.version = last.version ∧ stepsFound key replies = some flow.steps := by
  rw [Memory.flow?, Memory.document?_flows hbooks.sound.tidy, hbooks.lies] at hfound
  obtain ⟨doc, hthere, hread⟩ := Option.bind_eq_some_iff.1 hfound
  obtain ⟨last, hlatest, rfl⟩ := Option.map_eq_some_iff.1 hthere
  have hread : Flow.ofValue now (.dict last.document) = .ok flow := by
    cases hagain : Flow.ofValue now (.dict last.document) <;> simp_all [Except.toOption]
  refine ⟨last, hlatest, hread, ?_, Flow.version_of_ofValue_document hread, ?_⟩
  · exact Flow.name_of_ofValue_document (hbooks.named key last (List.mem_of_getLast? hlatest)) hread
  · rw [hbooks.steps, hlatest, Flow.steps_of_ofValue_document hread]
    rfl

theorem written_eq_nil (hbooks : Books m replies) (habsent : m.flows.get? key = none) :
    written key replies = [] := by
  rw [hbooks.lies] at habsent
  simpa using habsent

/-- A reply that tells of nothing that was written. -/
theorem of_none (hbooks : Books m replies) (hnothing : wrote? reply = none)
    (hstill : ∀ key found, nextSteps key found reply = found)
    (huncreated : ∀ key, ¬ Creates key reply) (htells : Tells replies reply) :
    Books m (replies ++ [reply]) where
  sound := hbooks.sound
  lies key := by rw [written_of_none hnothing, hbooks.lies]
  named key := by rw [written_of_none hnothing]; exact hbooks.named key
  steps key := by rw [stepsFound_concat, hstill, written_of_none hnothing, hbooks.steps]
  created key x hlisted hcreates := by
    rw [written_of_none hnothing]
    rcases List.mem_append.1 hlisted with hbefore | hown
    · exact hbooks.created key x hbefore hcreates
    · exact absurd (List.mem_singleton.1 hown ▸ hcreates) (huncreated key)
  ledger := hbooks.ledger.concat htells (fun key => by
      rw [written_of_none hnothing]
      exact hbooks.ledger.rises key) fun key _ _ _ => huncreated key

/-- A reply that tells of a flow that was written. -/
theorem of_some (hbooks : Books m replies) (hwrote : wrote? reply = some (tenant, flow))
    (hsound : m'.Sound)
    (hlies : ∀ key, m'.flows.get? key =
      if flowKey tenant (.str flow.name) = key then some (.dict flow.document)
      else m.flows.get? key)
    (hnamed : flow.name ≠ "")
    (habove : ∀ f ∈ written (flowKey tenant (.str flow.name)) replies, f.version < flow.version)
    (hnext : ∀ key, nextSteps key (stepsFound key replies) reply =
      if flowKey tenant (.str flow.name) = key then some (flow.steps.map Entry.again)
      else stepsFound key replies)
    (hfirst : ∀ key, Creates key reply →
      flowKey tenant (.str flow.name) = key ∧ written key replies = [])
    (htells : Tells replies reply) : Books m' (replies ++ [reply]) where
  sound := hsound
  lies key := by
    rw [hlies, written_of_some hwrote]
    split
    · simp
    · rw [List.append_nil, hbooks.lies]
  named key f hlisted := by
    rw [written_of_some hwrote] at hlisted
    rcases List.mem_append.1 hlisted with hbefore | hown
    · exact hbooks.named key f hbefore
    · split at hown
      · rwa [List.mem_singleton.1 hown]
      · cases hown
  steps key := by
    rw [stepsFound_concat, hnext, written_of_some hwrote]
    split
    · simp
    · rw [List.append_nil, hbooks.steps]
  created key x hlisted hcreates := by
    rw [written_of_some hwrote]
    rcases List.mem_append.1 hlisted with hbefore | hown
    · exact List.append_ne_nil_of_left_ne_nil (hbooks.created key x hbefore hcreates) _
    · rw [if_pos (hfirst key (List.mem_singleton.1 hown ▸ hcreates)).1]
      simp
  ledger := by
    refine hbooks.ledger.concat htells (fun key => ?_) fun key x hlisted hcreates hagain => ?_
    · rw [written_of_some hwrote]
      split
      · rename_i hsame
        refine List.pairwise_append.2 ⟨hbooks.ledger.rises key, List.pairwise_singleton _ _, ?_⟩
        intro f hlisted g hown
        rw [List.mem_singleton.1 hown]
        exact habove f (hsame ▸ hlisted)
      · rw [List.append_nil]
        exact hbooks.ledger.rises key
    · exact hbooks.created key x hlisted hcreates (hfirst key hagain).2

/-! ### Replies of a deployment -/

variable {k : Storage} {r : Backend.Request} {now clock : String} {n : Nat} {d : Deployment}
  {name : Value}

theorem meet_saveFlow (hbooks : Books m replies) (hserves : k.Serves r now n d m)
    (hproper : (Demand.operate (.saveFlow tenant flow)).Proper) :
    ∃ m', k.Serves r clock n (d.meet clock (.operate (.saveFlow tenant flow))).2 m' ∧
      Books m' (replies ++ [(⟨clock, .operate (.saveFlow tenant flow)⟩,
        (d.meet clock (.operate (.saveFlow tenant flow))).1)]) := by
  have hsaves : (Operation.saveFlow tenant flow).Saves clock tenant flow := ⟨rfl, rfl⟩
  have hwellFormed := Operation.wellFormed_of_saves hproper.1 hsaves
  rcases hserves.meet_saveFlow hbooks.sound clock tenant hwellFormed with
    ⟨f, d', hmet, hserves'⟩ | ⟨location, d', hnamed, hmet, hserves'⟩
  · rw [hmet]
    exact ⟨m, hserves', hbooks.of_none rfl (fun _ _ => rfl) (fun _ => id) trivial⟩
  · have hsound := Operation.kept_sound hbooks.sound hproper.1 hproper.2 tenant flow hsaves hnamed
    rw [hmet]
    refine ⟨_, hserves', ?_⟩
    cases hthere : m.flow? clock (flowKey tenant (.str flow.name)) with
    | none =>
      rw [hthere] at hsound
      refine hbooks.of_some rfl hsound (Storage.get?_withFlow m tenant _) hnamed ?_ (fun _ => rfl)
        (fun _ => False.elim) trivial
      rw [show (revised clock flow none).name = flow.name from rfl,
        hbooks.written_eq_nil (Storage.get?_of_flow?_eq_none hbooks.sound hthere)]
      simp
    | some old =>
      rw [hthere] at hsound
      obtain ⟨last, hlatest, -, -, hversion, -⟩ := hbooks.exists_of_flow? hthere
      refine hbooks.of_some rfl hsound (Storage.get?_withFlow m tenant _) hnamed
        (fun f hlisted => ?_)
        (fun _ => rfl) (fun _ => False.elim) trivial
      have hbefore := hbooks.le_of_mem hlatest hlisted
      show f.version < max flow.version old.version + 1
      omega

theorem meet_ensurePreset (hbooks : Books m replies) (hserves : k.Serves r now n d m) :
    ∃ m', k.Serves r clock n (d.meet clock (.operate (.ensurePreset tenant name))).2 m' ∧
      Books m' (replies ++ [(⟨clock, .operate (.ensurePreset tenant name)⟩,
        (d.meet clock (.operate (.ensurePreset tenant name))).1)]) := by
  rcases hserves.meet_ensurePreset hbooks.sound clock tenant name with
    ⟨f, d', hmet, hserves'⟩ | ⟨preset, location, d', hmade, hmet, hserves'⟩
  · rw [hmet]
    exact ⟨m, hserves', hbooks.of_none rfl (fun _ _ => rfl) (fun _ => id) trivial⟩
  · have hsameKey : flowKey tenant (.str preset.name) = flowKey tenant name :=
      flowKey_ofPresetNamed hmade
    have hwrote : wrote? (⟨clock, .operate (.ensurePreset tenant name)⟩,
        .ok (.located (.created true) location)) = some (tenant, preset) := by
      rw [wrote?, hmade]
      rfl
    rw [hmet]
    refine ⟨_, hserves', ?_⟩
    cases has : m.flows.has (flowKey tenant (.str preset.name)) with
    | true =>
      have hthere : written (flowKey tenant name) replies ≠ [] := by
        intro hnothing
        have habsent := hbooks.lies (flowKey tenant name)
        rw [hnothing] at habsent
        simp [Keyed.has, hsameKey, habsent] at has
      have hkept : m.after (.createFlow tenant preset) = m := by
        rw [Memory.after, if_pos has]
      rw [hkept]
      exact hbooks.of_none rfl (fun _ _ => rfl) (fun _ hcreated => by cases hcreated.1)
        ⟨fun hcreated => absurd hcreated (by decide), fun hnothing => absurd hnothing hthere⟩
    | false =>
      have hnothing : written (flowKey tenant (.str preset.name)) replies = [] :=
        hbooks.written_eq_nil (by simpa [Keyed.has] using has)
      have hafter : m.after (.createFlow tenant preset) = m.withFlow tenant preset := by
        rw [Memory.after, has]
        rfl
      rw [hafter]
      have hsound := (Memory.closed_sound clock).creates tenant name hbooks.sound preset hmade has
      refine hbooks.of_some hwrote hsound (Storage.get?_withFlow m tenant _) ?_ (by simp [hnothing])
        (fun key => ?_) ?_ ?_
      · obtain ⟨text, rfl, -⟩ := exists_of_ofPresetNamed hmade
        exact Flow.name_make_ne_empty _ _ _
      · obtain ⟨text, rfl, -⟩ := exists_of_ofPresetNamed hmade
        rw [hsameKey]
        rfl
      · rintro _ ⟨-, rfl⟩
        exact ⟨hsameKey, hsameKey ▸ hnothing⟩
      · exact ⟨fun _ => hsameKey ▸ hnothing, fun _ => rfl⟩

/-- The flow that a step is appended to, in contents that may have been given the preset for it. -/
structure IsBase (m m' : Memory) (replies : List Reply) (tenant name : Value) (base : Flow) :
    Prop where
  named : base.name ≠ ""
  key : flowKey tenant (.str base.name) = flowKey tenant name
  version : base.version = (written (flowKey tenant name) replies).getLast?.elim 1 Flow.version
  above : ∀ f ∈ written (flowKey tenant name) replies, f.version ≤ base.version
  steps : (stepsFound (flowKey tenant name) replies).getD (Preset.steps .leadQualification) =
    base.steps
  others : ∀ key, flowKey tenant name ≠ key → m'.flows.get? key = m.flows.get? key

theorem isBase_of_flow? {base : Flow} (hbooks : Books m replies)
    (hfound : m.flow? now (flowKey tenant name) = some base) :
    IsBase m m replies tenant name base := by
  obtain ⟨last, hlatest, -, hsame, hversion, hsteps⟩ := hbooks.exists_of_flow? hfound
  have hlisted := List.mem_of_getLast? hlatest
  obtain ⟨tenant', hkey⟩ := key_of_written hlisted
  refine ⟨hsame ▸ hbooks.named _ last hlisted, ?_, ?_, fun f hbefore => ?_, ?_, fun _ _ => rfl⟩
  · rw [hsame]
    exact congrArg (Prod.mk _) (congrArg Prod.snd hkey)
  · rw [hlatest, hversion]
    rfl
  · exact hversion ▸ hbooks.le_of_mem hlatest hbefore
  · rw [hsteps]
    rfl

/-- A preset that was created where no flow was is one that a step can be appended to. -/
theorem isBase_of_preset {preset base : Flow} (hbooks : Books m replies)
    (habsent : m.flows.get? (flowKey tenant name) = none)
    (hmade : Flow.ofPresetNamed clock .leadQualification name = .ok preset)
    (hread : Flow.ofValue now (.dict preset.document) = .ok base) :
    IsBase m (m.withFlow tenant preset) replies tenant name base := by
  have hnothing := hbooks.written_eq_nil habsent
  have hsameKey : flowKey tenant (.str preset.name) = flowKey tenant name :=
    flowKey_ofPresetNamed hmade
  have hnamed : preset.name ≠ "" := by
    obtain ⟨text, rfl, -⟩ := exists_of_ofPresetNamed hmade
    exact Flow.name_make_ne_empty _ _ _
  have hsame := Flow.name_of_ofValue_document hnamed hread
  refine ⟨hsame ▸ hnamed, hsame ▸ hsameKey, ?_, ?_, ?_, fun key hdifferent => ?_⟩
  · rw [hnothing, Flow.version_of_ofValue_document hread]
    obtain ⟨text, rfl, -⟩ := exists_of_ofPresetNamed hmade
    rfl
  · simp [hnothing]
  · rw [hbooks.steps, hnothing, Flow.steps_of_ofValue_document hread]
    obtain ⟨text, rfl, -⟩ := exists_of_ofPresetNamed hmade
    rfl
  · rw [Storage.get?_withFlow, if_neg (hsameKey ▸ hdifferent)]

theorem meet_appendStep (hbooks : Books m replies) (hserves : k.Serves r now n d m) {step : Value}
    (hdocument : step.IsDocument) :
    ∃ m', k.Serves r clock n (d.meet clock (.operate (.appendStep tenant name step))).2 m' ∧
      Books m' (replies ++ [(⟨clock, .operate (.appendStep tenant name step)⟩,
        (d.meet clock (.operate (.appendStep tenant name step))).1)]) := by
  rcases hserves.meet_appendStep hbooks.sound clock tenant name hdocument with
    ⟨f, d', hmet, hserves'⟩ | ⟨base, m', d', hmet, hserves', hsound, hfound, horigin⟩
  · rw [hmet]
    exact ⟨m, hserves', hbooks.of_none rfl (fun _ _ => rfl) (fun _ => id) trivial⟩
  · have hbase : IsBase m m' replies tenant name base := by
      rcases horigin with rfl | ⟨habsent, preset, hmade, hread, rfl⟩
      · exact hbooks.isBase_of_flow? hfound
      · exact hbooks.isBase_of_preset habsent hmade hread
    have hsound' := (Memory.closed_sound clock).appends tenant name hsound trivial hdocument hfound
    have hkey : flowKey tenant (.str (withStep clock step base).name) = flowKey tenant name :=
      hbase.key
    rw [hmet]
    refine ⟨_, hserves', hbooks.of_some rfl hsound' (fun other => ?_) hbase.named ?_
      (fun other => ?_) (fun _ => False.elim) ?_⟩
    · rw [Storage.get?_withFlow, hkey]
      split
      · rfl
      · rename_i hdifferent
        exact hbase.others other hdifferent
    · intro f hlisted
      have hbefore := hbase.above f (hkey ▸ hlisted)
      show f.version < base.version + 1
      omega
    · rw [hkey, nextSteps]
      split
      · rename_i hsame
        subst hsame
        rw [hbase.steps]
        rfl
      · rfl
    · exact congrArg (· + 1) hbase.version

/-- A reply of a deployment is entered into its books. -/
theorem meet (hbooks : Books m replies) (hserves : k.Serves r now n d m) (asking : Asking)
    (hwrites : asking.demand.Writes) (hproper : asking.demand.Proper) :
    ∃ m', k.Serves r asking.clock n (d.meet asking.clock asking.demand).2 m' ∧
      Books m' (replies ++ [(asking, (d.meet asking.clock asking.demand).1)]) := by
  obtain ⟨clock, demand⟩ := asking
  cases demand with
  | check tenant name => exact hwrites.elim
  | operate op =>
    cases op with
    | saveFlow tenant flow => exact hbooks.meet_saveFlow hserves hproper
    | ensurePreset tenant name => exact hbooks.meet_ensurePreset hserves
    | appendStep tenant name step => exact hbooks.meet_appendStep hserves hproper.1
    | _ => exact hwrites.elim

/-- The replies of a deployment are entered into its books one after another. -/
theorem afterAll (hbooks : Books m earlier) (hserves : k.Serves r now n d m) (askings : List Asking)
    (hwrites : ∀ asking ∈ askings, asking.demand.Writes)
    (hproper : ∀ asking ∈ askings, asking.demand.Proper) :
    ∃ now' m', k.Serves r now' n (d.afterAll askings) m' ∧
      Books m' (earlier ++ d.replies askings) := by
  induction askings generalizing now d m earlier with
  | nil => exact ⟨now, m, hserves, by rwa [Deployment.replies, List.append_nil]⟩
  | cons asking rest ih =>
    obtain ⟨hfirst, hothers⟩ := List.forall_mem_cons.1 hwrites
    obtain ⟨hproperFirst, hproperOthers⟩ := List.forall_mem_cons.1 hproper
    obtain ⟨m', hserves', hbooks'⟩ := hbooks.meet hserves asking hfirst hproperFirst
    obtain ⟨now'', m'', hserves'', hbooks''⟩ := ih hbooks' hserves' hothers hproperOthers
    refine ⟨now'', m'', hserves'', ?_⟩
    rwa [List.append_assoc] at hbooks''

end Books

/-! ## Demands side by side -/

/-- A flow is found exactly under the keys that one was written under, and it is the one that was
written there last, with the steps that replies tell of. -/
def Finds (d : Deployment) (replies : List Reply) : Prop :=
  ∀ clock tenant name,
    (∀ last, (written (flowKey tenant name) replies).getLast? = some last →
      ∃ flow, Flow.ofValue clock (.dict last.document) = .ok flow ∧
        (d.call clock (.loadFlow tenant name)).1 = .ok (.found (some flow)) ∧
        stepsFound (flowKey tenant name) replies = some flow.steps) ∧
    (written (flowKey tenant name) replies = [] →
      ∀ flow, (d.call clock (.loadFlow tenant name)).1 ≠ .ok (.found (some flow)))

section

variable {k : Storage} {r : Backend.Request} {now : String} {n : Nat} {d d' : Deployment}

theorem Books.finds (hbooks : Books m replies) (hserves : k.Serves r now n d m) :
    d.Finds replies := by
  intro clock tenant name
  have hcalled : d.call clock (.loadFlow tenant name) =
      (Program.access (.loadFlow tenant name) fun flow =>
        .done (Operation.Answer.found flow)).run (accessStore n) log { d with clock } := by
    rw [call, run, hserves.engine, access_one]
    rfl
  rw [hcalled]
  rcases (hserves.setClock clock).run_access hbooks.sound.tidy
    (.loadFlow tenant name) trivial trivial with
    ⟨f, d', hfailed, hrefused, -⟩ | ⟨found, d', hloaded, hsame, -⟩
  · refine ⟨fun last hlatest => ?_, fun hnothing flow => by rw [hfailed]; simp⟩
    have hthere := hbooks.lies (flowKey tenant name)
    rw [hlatest] at hthere
    exact absurd ⟨hbooks.sound.reads clock _,
      .inl (Keyed.mem_keys_of_mem (Keyed.mem_of_get?_eq_some hthere))⟩ hrefused
  · obtain rfl : found = m.flow? clock (flowKey tenant name) := hsame
    rw [hloaded]
    refine ⟨fun last hlatest => ?_, fun hnothing flow => ?_⟩
    · cases hthere : m.flow? clock (flowKey tenant name) with
      | none =>
        have hnothing := hbooks.written_eq_nil (Storage.get?_of_flow?_eq_none hbooks.sound hthere)
        rw [hnothing] at hlatest
        cases hlatest
      | some flow =>
        obtain ⟨last', hlatest', hread, -, -, hsteps⟩ := hbooks.exists_of_flow? hthere
        obtain rfl : last = last' := Option.some.inj (hlatest.symm.trans hlatest')
        exact ⟨flow, hread, rfl, hsteps⟩
    · cases hthere : m.flow? clock (flowKey tenant name) with
      | none =>
        intro hequal
        cases hequal
      | some flow' =>
        obtain ⟨last, hlatest, -⟩ := hbooks.exists_of_flow? hthere
        rw [hnothing] at hlatest
        cases hlatest

theorem Finds.of_same (hfinds : d.Finds replies) (hsame : d.Same d') : d'.Finds replies := by
  intro clock tenant name
  have hanswers := call_of_same hsame clock (.loadFlow tenant name)
  have hfound := hfinds clock tenant name
  rwa [hanswers] at hfound

variable {ι : Type} [DecidableEq ι] {calls : ι → Asking} {tenant : Value}

/-- On a deployment where nothing is stored, any number of demands write flows of one tenant side by
side.  They are answered as if they had been met one after another, in the order in which they took
the lock of the tenant, and they leave the same deployment.  The replies are a ledger, and what is
found in the end is what they tell of.  Demands that did not take the lock were refused, as they are
at any time. -/
theorem ledger_of_playAll (hfresh : k.Fresh r d) (hwrites : ∀ i, (calls i).demand.Writes)
    (hproper : ∀ i, (calls i).demand.Proper) (hown : ∀ i, (calls i).isOf tenant) (schedule : List ι)
    (hended : ∀ i, ((d.playAll calls schedule).tasks i).result? ≠ none) :
    let scene := d.playAll calls schedule
    let order := scene.turns.reverse
    ∃ answers : ι → Except Failure Demand.Answer,
      (∀ i, (scene.tasks i).result? = some (answers i)) ∧
      order.Nodup ∧
      (order.map fun i => (calls i, answers i)) = d.replies (order.map calls) ∧
      (d.afterAll (order.map calls)).Same scene.state ∧
      (∀ i, i ∉ order → answers i = .error .flowUnnamed ∧
        (calls i).demand.program (calls i).clock = .fail .flowUnnamed) ∧
      Ledger (d.replies (order.map calls)) ∧
      scene.state.Finds (d.replies (order.map calls)) := by
  obtain ⟨hnodup, hanswered, hsame, hrefused⟩ := replies_of_playAll hwrites hown schedule hended
  obtain ⟨n, hserves⟩ := hfresh.serves
  let order := (d.playAll calls schedule).turns.reverse
  obtain ⟨now', m', hserves', hbooks⟩ := books_empty.afterAll hserves (order.map calls)
    (fun asking hlisted => by
      obtain ⟨i, -, rfl⟩ := List.mem_map.1 hlisted
      exact hwrites i)
    (fun asking hlisted => by
      obtain ⟨i, -, rfl⟩ := List.mem_map.1 hlisted
      exact hproper i)
  let answers (i : ι) : Except Failure Demand.Answer :=
    ((d.playAll calls schedule).tasks i).result?.get (Option.isSome_iff_ne_none.2 (hended i))
  have htold (i : ι) : ((d.playAll calls schedule).tasks i).result? = some (answers i) :=
    (Option.some_get _).symm
  refine ⟨answers, htold, hnodup, ?_, hsame, fun i hunlisted => ?_, hbooks.ledger,
    (hbooks.finds hserves').of_same hsame⟩
  · simp only [htold] at hanswered
    have hinjective : ∀ x y : Reply, (x.1, some x.2) = (y.1, some y.2) → x = y := by
      rintro ⟨asking, answer⟩ ⟨asking', answer'⟩ hequal
      cases hequal
      rfl
    refine (List.map_inj_right hinjective).1 ?_
    rw [List.map_map]
    exact hanswered
  · obtain ⟨hanswer, hprogram⟩ := hrefused i hunlisted
    exact ⟨Option.some.inj ((htold i).symm.trans hanswer), hprogram⟩

end

/-- One call appends a step to a flow, and one ensures that there is such a flow. -/
def appendAndEnsure : Bool → Asking
  | true => ⟨"t1", .operate (.ensurePreset (.str "Acme") (.str "f"))⟩
  | false => ⟨"t2", .operate (.appendStep (.str "acme ") (.str "F") (.dict greetingStep))⟩

/-- Two calls go on by turns, one thing at a time. -/
def byTurns : List Bool := (List.replicate 18 [false, true]).flatten

/-- Both calls come to an end, though one waits for the other. -/
theorem ended_byTurns (i : Bool) :
    (((started {}).playAll appendAndEnsure byTurns).tasks i).result? ≠ none := by
  refine Option.isSome_iff_ne_none.1 ?_
  cases i <;> decide +kernel

/-- In memory, the step is found with the preset that was created for it. -/
theorem ledger_of_playAll_byTurns :
    let scene := (started {}).playAll appendAndEnsure byTurns
    let order := scene.turns.reverse
    ∃ answers : Bool → Except Failure Demand.Answer,
      (∀ i, (scene.tasks i).result? = some (answers i)) ∧
      order.Nodup ∧
      (order.map fun i => (appendAndEnsure i, answers i)) =
        (started {}).replies (order.map appendAndEnsure) ∧
      ((started {}).afterAll (order.map appendAndEnsure)).Same scene.state ∧
      (∀ i, i ∉ order → answers i = .error .flowUnnamed ∧
        (appendAndEnsure i).demand.program (appendAndEnsure i).clock = .fail .flowUnnamed) ∧
      Ledger ((started {}).replies (order.map appendAndEnsure)) ∧
      scene.state.Finds ((started {}).replies (order.map appendAndEnsure)) := by
  have hbuilt : greeting.build = .ok greetingStep := rfl
  have hdocument : (Value.dict greetingStep).IsDocument :=
    Step.Draft.isDocument_build (Schema.isPlain_str "hi").1 Schema.isPlain_null.1 hbuilt
  have hwrites (i : Bool) : (appendAndEnsure i).demand.Writes := by
    cases i <;> trivial
  have hproper (i : Bool) : (appendAndEnsure i).demand.Proper := by
    cases i
    · exact ⟨hdocument, trivial⟩
    · exact ⟨trivial, trivial⟩
  have hown (i : Bool) : (appendAndEnsure i).isOf (.str "acme") := by
    cases i <;> decide +kernel
  exact ledger_of_playAll fresh_started hwrites hproper hown byTurns ended_byTurns

end Deployment

end Dialogue
