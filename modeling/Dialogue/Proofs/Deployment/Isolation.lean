import Dialogue.Proofs.Deployment.Reading
import Dialogue.Proofs.Deployment.Storage
import Dialogue.Proofs.Store.Directory.Tenant
import Dialogue.Proofs.Store.Tenant

/-!
# Tenants do not see each other

A tenant sees its own flows and conversations and nothing else.  Whatever other tenants demand in
between, it is answered as if they had demanded nothing, and finds what it would find then
(`Deployment.replies_filter_isOf`).  Tenants are told apart by their storage keys, and the flows and
conversations of all may lie below one directory or in one database.

The proof follows two deployments, one with the demands of others and one without, that are alike
for the tenant (`Storage.Alike`): what the tenant demands is answered alike by both and leaves them
alike, and what another tenant demands leaves them alike, too.
-/

namespace Dialogue

open Store Run

/-- The tenant that an operation is asked for by. -/
def Operation.tenant : Operation → Value
  | createFlow tenant _ _ | addStep tenant _ _ | appendStep tenant _ _ | saveFlow tenant _
  | ensurePreset tenant _ | loadFlow tenant _ | listFlows tenant | inbound tenant _ _ _ _ _
  | getConversation tenant _ | resetConversation tenant _ | listConversations tenant => tenant

theorem Operation.staysWith_program (clock : String) (op : Operation) :
    (op.program clock).StaysWith op.tenant := by
  cases op with
  | createFlow tenant name preset =>
    exact .bind (Authoring.staysWith_createFlow clock tenant name preset) fun _ => .done _
  | addStep tenant name draft =>
    exact .bind (Authoring.staysWith_addStep clock tenant name draft) fun _ => .done _
  | appendStep tenant name step =>
    exact .bind (staysWith_appendStep clock tenant name step) fun _ => .done _
  | saveFlow tenant flow => exact .bind (staysWith_saveFlow clock tenant flow) fun _ => .done _
  | ensurePreset tenant name =>
    exact .bind (staysWith_ensurePreset clock tenant name) fun _ => .done _
  | loadFlow tenant name => exact .access rfl fun _ => .done _
  | listFlows tenant => exact .access rfl fun _ => .done _
  | inbound tenant counterparty text flow time hops =>
    exact .bind (Inbound.staysWith_handle clock hops tenant counterparty text flow time)
      fun _ => .done _
  | getConversation tenant counterparty =>
    exact .bind (staysWith_getConversation clock tenant counterparty) fun _ => .done _
  | resetConversation tenant counterparty =>
    exact .bind (staysWith_clearConversation tenant counterparty) fun _ => .done _
  | listConversations tenant => exact .access rfl fun _ => .done _

/-- Something that a tenant demands: an operation, or to have a flow checked. -/
inductive Demand where
  | operate (op : Operation)
  | check (tenant name : Value)

namespace Demand

/-- What is answered to a demand, with where a flow lies. -/
inductive Answer where
  | plain (answer : Operation.Answer)
  | located (answer : Operation.Answer) (location : String)
  | problems (problems : List Flow.Problem)

/-- A demand as a program, at the time of a clock. -/
def program (clock : String) : Demand → Program Answer
  | operate (.createFlow tenant name preset) =>
    (Authoring.createFlow clock tenant name preset).bind fun (flow, location) =>
      .done (.located (.flow flow) location)
  | operate (.saveFlow tenant flow) =>
    (Store.saveFlow clock tenant flow).bind fun (flow, location) =>
      .done (.located (.flow flow) location)
  | operate (.ensurePreset tenant name) =>
    (Store.ensurePreset clock tenant name).bind fun (created, location) =>
      .done (.located (.created created) location)
  | operate op => (op.program clock).bind fun answer => .done (.plain answer)
  | check tenant name => (Authoring.checkFlow tenant name).bind fun problems =>
      .done (.problems problems)

/-- The tenant that demands something. -/
def tenant : Demand → Value
  | operate op => op.tenant
  | check tenant _ => tenant

theorem staysWith_program (clock : String) (demand : Demand) :
    (demand.program clock).StaysWith demand.tenant := by
  cases demand with
  | check tenant name =>
    exact (Authoring.staysWith_checkFlow tenant name).bind fun _ => .done _
  | operate op =>
    have hplain := (op.staysWith_program clock).bind fun answer => .done (Answer.plain answer)
    cases op with
    | createFlow tenant name preset =>
      exact (Authoring.staysWith_createFlow clock tenant name preset).bind fun _ => .done _
    | saveFlow tenant flow => exact (staysWith_saveFlow clock tenant flow).bind fun _ => .done _
    | ensurePreset tenant name =>
      exact (staysWith_ensurePreset clock tenant name).bind fun _ => .done _
    | _ => exact hplain

end Demand

/-! ## Deployments that a tenant sees alike -/

namespace Storage

/-- The store of a number shows a tenant the same in two deployments. -/
def Part : Storage → String → Nat → Deployment → Deployment → Prop
  | files dir, tenant, n, d, d' =>
    d.stores[n]? = some (.directory dir) ∧ d'.stores[n]? = some (.directory dir) ∧
      ∃ base, Directory.Alike dir base tenant d.files d'.files
  | k, tenant, n, d, d' => ∃ m m', k.Shows n d m ∧ k.Shows n d' m' ∧ m.Alike tenant m'

/-- Two deployments at work are alike for a tenant. -/
structure Alike (k : Storage) (tenant : String) (n : Nat) (d d' : Deployment) : Prop where
  engine : d.engine = ⟨n, n⟩
  engine' : d'.engine = ⟨n, n⟩
  part : k.Part tenant n d d'

variable {k : Storage} {tenant other : String} {n : Nat} {d d' : Deployment} {r : Backend.Request}
  {m : Memory} {a : Access}

theorem Serves.alike {now : String} (hserves : k.Serves r now n d m) (tenant : String) :
    k.Alike tenant n d d := by
  refine ⟨hserves.engine, hserves.engine, ?_⟩
  have hshows := hserves.shows
  cases k with
  | memory => exact ⟨m, m, hshows, hshows, .refl tenant m⟩
  | table location => exact ⟨m, m, hshows, hshows, .refl tenant m⟩
  | files dir =>
    obtain ⟨hthere, base, hshows⟩ := hshows
    exact ⟨hthere, hthere, base, hshows.laid, hshows.laid, rfl, rfl, rfl, rfl⟩

theorem Alike.log (halike : k.Alike tenant n d d') (e e' : List Event) :
    k.Alike tenant n { d with events := e } { d' with events := e' } := by
  obtain ⟨hengine, hengine', hpart⟩ := halike
  exact ⟨hengine, hengine', by cases k <;> exact hpart⟩

theorem Alike.setClock (halike : k.Alike tenant n d d') (clock clock' : String) :
    k.Alike tenant n { d with clock } { d' with clock := clock' } := by
  obtain ⟨hengine, hengine', hpart⟩ := halike
  exact ⟨hengine, hengine', by cases k <;> exact hpart⟩

theorem part_iff : k.Part tenant n d d' ↔
    k.Relates (Memory.Alike tenant)
      (fun dir files files' => ∃ base, Directory.Alike dir base tenant files files') n d d' := by
  cases k <;> exact Iff.rfl

/-- An access of a tenant agrees on deployments that are alike for the tenant. -/
theorem agrees_accessStore (hname : Identifier.IsName tenant) (hof : a.IsOf tenant) :
    Agrees (fun d d' => d.clock = d'.clock ∧ k.Alike tenant n d d')
      (Deployment.accessStore n a) := by
  rintro d d' ⟨hclock, hengine, hengine', hpart⟩
  have hinFiles (dir : Path) (now : String) : Agrees
      (Silent fun files files' => ∃ base, Directory.Alike dir base tenant files files')
      (Directory.access now dir a) := by
    rintro t t' ⟨base, halike⟩
    obtain ⟨hsame, hafter⟩ := Directory.agrees_access hname now a hof t t' halike
    exact ⟨hsame, base, hafter⟩
  obtain ⟨hsame, hclock, hafter⟩ := agrees_of_relates (restsOn_agrees hof)
    (fun dir _ => hinFiles dir) d d' ⟨hclock, part_iff.1 hpart⟩
  exact ⟨hsame, hclock, (Deployment.engine_accessStore n a d).trans hengine,
    (Deployment.engine_accessStore n a d').trans hengine', part_iff.2 hafter⟩

/-- An access of another tenant leaves deployments alike for a tenant. -/
theorem spares_accessStore (hname : Identifier.IsName other) (hdifferent : other ≠ tenant)
    (hof : a.IsOf other) : Spares (k.Alike tenant n) (Deployment.accessStore n a) := by
  rintro d d' ⟨hengine, hengine', hpart⟩
  have hinFiles (dir : Path) (now : String) : Spares
      (Silent fun files files' => ∃ base, Directory.Alike dir base tenant files files')
      (Directory.access now dir a) := by
    rintro t t' ⟨base, halike⟩
    exact ⟨base, Directory.spares_access hname hdifferent now a hof t t' halike⟩
  have hafter := spares_of_relates (restsOn_spares hof hdifferent) (fun dir _ => hinFiles dir) d d'
    (part_iff.1 hpart)
  exact ⟨(Deployment.engine_accessStore n a d).trans hengine, hengine', part_iff.2 hafter⟩

end Storage

namespace Deployment

/-! ## Demands -/

variable {k : Storage} {tenant : String} {n : Nat} {d d' : Deployment}

/-- Demands something of a deployment. -/
def meet (clock : String) (demand : Demand) (d : Deployment) :
    Except Failure Demand.Answer × Deployment :=
  Deployment.run d.engine (demand.program clock) { d with clock }

/-- A demand at the time of a clock. -/
structure Asking where
  clock : String
  demand : Demand

/-- The demand is one of a tenant, whatever the spelling. -/
def Asking.isOf (tenant : Value) (asking : Asking) : Bool :=
  Identifier.safeName asking.demand.tenant == Identifier.safeName tenant

/-- What a deployment answers to demands, one after another, each with its answer. -/
def replies : List Asking → Deployment → List (Asking × Except Failure Demand.Answer)
  | [], _ => []
  | asking :: rest, d =>
    (asking, (d.meet asking.clock asking.demand).1) ::
      replies rest (d.meet asking.clock asking.demand).2

/-- A deployment after demands. -/
def afterAll : List Asking → Deployment → Deployment
  | [], d => d
  | asking :: rest, d => afterAll rest (d.meet asking.clock asking.demand).2

theorem access_one (n : Nat) : access ⟨n, n⟩ = accessStore n := by
  funext a
  simp [access]

theorem meet_eq (hengine : d.engine = ⟨n, n⟩) (clock : String) (demand : Demand) :
    d.meet clock demand =
      (demand.program clock).run (accessStore n) log { d with clock } := by
  rw [meet, run, hengine, access_one]

/-- A demand of a tenant is answered alike. -/
theorem meet_of_alike (halike : k.Alike tenant n d d') (clock : String) (demand : Demand)
    (hown : Identifier.safeName demand.tenant = tenant) :
    (d.meet clock demand).1 = (d'.meet clock demand).1 ∧
      k.Alike tenant n (d.meet clock demand).2 (d'.meet clock demand).2 := by
  subst hown
  have hagrees : Run.Agrees
      (fun d d' => d.clock = d'.clock ∧ k.Alike (Identifier.safeName demand.tenant) n d d')
      ((demand.program clock).run (accessStore n) log) :=
    Program.agrees_of_makes (fun e d d' hrelated => ⟨hrelated.1, hrelated.2.log _ _⟩)
      (fun a hof => Storage.agrees_accessStore (Identifier.isName_safeName _) hof)
      (demand.staysWith_program clock)
  obtain ⟨hsame, -, hafter⟩ := hagrees { d with clock } { d' with clock }
    ⟨rfl, halike.setClock clock clock⟩
  rw [meet_eq halike.engine, meet_eq halike.engine']
  exact ⟨hsame, hafter⟩

/-- A demand of another tenant makes no difference. -/
theorem alike_meet (halike : k.Alike tenant n d d') (clock : String) (demand : Demand)
    (hdifferent : Identifier.safeName demand.tenant ≠ tenant) :
    k.Alike tenant n (d.meet clock demand).2 d' := by
  have hspares : Run.Spares (k.Alike tenant n) ((demand.program clock).run (accessStore n) log) :=
    Program.spares_of_makes (fun e d d' hrelated => hrelated.log _ d'.events)
      (fun a hof =>
        Storage.spares_accessStore (Identifier.isName_safeName _) hdifferent hof)
      (demand.staysWith_program clock)
  rw [meet_eq halike.engine]
  exact hspares { d with clock } d' (halike.setClock clock d'.clock)

/-- Demands are answered to a tenant as they are without those of other tenants. -/
theorem replies_of_alike {tenant : Value} (askings : List Asking)
    (halike : k.Alike (Identifier.safeName tenant) n d d') :
    (d.replies askings).filter (fun reply => reply.1.isOf tenant) =
        d'.replies (askings.filter (·.isOf tenant)) ∧
      k.Alike (Identifier.safeName tenant) n (d.afterAll askings)
        (d'.afterAll (askings.filter (·.isOf tenant))) := by
  induction askings generalizing d d' with
  | nil => exact ⟨rfl, halike⟩
  | cons asking rest ih =>
    by_cases hown : asking.isOf tenant = true
    · obtain ⟨hsame, hafter⟩ := meet_of_alike halike asking.clock asking.demand
        (by simpa [Asking.isOf] using hown)
      obtain ⟨hothers, hfinal⟩ := ih hafter
      simp only [List.filter_cons, hown, if_true, replies, afterAll, hsame, hothers]
      exact ⟨trivial, hfinal⟩
    · have hafter := alike_meet halike asking.clock asking.demand
        (by simpa [Asking.isOf] using hown)
      obtain ⟨hothers, hfinal⟩ := ih hafter
      simp only [List.filter_cons, hown, replies, afterAll]
      exact ⟨hothers, hfinal⟩

/-- On a deployment where nothing was stored, a tenant is answered as if nobody else had demanded
anything, and in the end it finds the flows and conversations that it would find then. -/
theorem replies_filter_isOf {r : Backend.Request} (hfresh : k.Fresh r d) (askings : List Asking)
    (tenant : Value) :
    (d.replies askings).filter (fun reply => reply.1.isOf tenant) =
        d.replies (askings.filter (·.isOf tenant)) ∧
      ∀ asking : Asking, asking.isOf tenant →
        ((d.afterAll askings).meet asking.clock asking.demand).1 =
          ((d.afterAll (askings.filter (·.isOf tenant))).meet asking.clock asking.demand).1 := by
  obtain ⟨n, hserves⟩ := hfresh.serves
  obtain ⟨hsame, hfinal⟩ := replies_of_alike askings (hserves.alike (Identifier.safeName tenant))
  refine ⟨hsame, fun asking hown => (meet_of_alike hfinal _ _ ?_).1⟩
  simpa [Asking.isOf] using hown

/-- A tenant that is named like the directory of the conversations gets a flow, and another one asks
for its flows. -/
def visits : List Asking :=
  [⟨"t1", .operate (.ensurePreset (.str "state") (.str "acme"))⟩,
    ⟨"t2", .operate (.listFlows (.str "Acme"))⟩]

/-- In new files, the flows that are listed are those of the tenant that asks for them. -/
theorem replies_filter_isOf_visits :
    ((started filed).replies visits).filter (fun reply => reply.1.isOf (.str "acme")) =
        (started filed).replies (visits.filter (·.isOf (.str "acme"))) ∧
      (((started filed).afterAll visits).meet "t3" (.check (.str "ACME") (.str "acme"))).1 =
        (((started filed).afterAll (visits.filter (·.isOf (.str "acme")))).meet "t3"
          (.check (.str "ACME") (.str "acme"))).1 := by
  have hfresh : (Storage.files (Path.ofText "data")).Fresh filed (started filed) :=
    ⟨⟨{ clock := "t0" }, rfl⟩, ⟨rfl, "data", rfl, rfl⟩, isEmptyAt_started⟩
  obtain ⟨hsame, hfinal⟩ := replies_filter_isOf hfresh visits (.str "acme")
  exact ⟨hsame, hfinal ⟨"t3", .check (.str "ACME") (.str "acme")⟩ (by decide +kernel)⟩

end Deployment

end Dialogue
