import Dialogue.Proofs.Deployment.Beside
import Dialogue.Proofs.Engine.Redaction

/-!
# Logs show of a counterparty its redacted number

Whoever reads the log learns of a counterparty no more than its redacted number: what is done with
one counterparty is logged as it is logged with another one, if their redacted numbers are the same
and the same is stored for them (`Deployment.events_eq_of_redact_eq`).  A redacted number shows how
many digits there are, and the last four if there are more than four.

The proof follows two deployments, in which the same is done with the one and with the other
counterparty, and in which the same lies under the keys of the two (`Storage.Paired`).
-/

namespace Dialogue

open Store Run

namespace Storage

/-- The same lies under the keys of two numbers, in the stores of two deployments. -/
def Twins (tenant number number' : String) : Storage → Nat → Deployment → Deployment → Prop
  | memory, n, d, d' =>
    ∃ m m', d.stores[n]? = some (.memory m) ∧ d'.stores[n]? = some (.memory m') ∧
      Memory.Twins (tenant, number) (tenant, number') m m'
  | files dir, n, d, d' =>
      d.stores[n]? = some (.directory dir) ∧ d'.stores[n]? = some (.directory dir) ∧
        ∃ base, Directory.Twins dir base tenant number number' d.files d'.files
  | table location, n, d, d' => ∃ address f c f' c',
      d.stores[n]? = some (.table address f c) ∧ d'.stores[n]? = some (.table address f' c') ∧
        Database.IsAddressOf (d.addressOr address) location ∧
        Table.Twins location (tenant, number) (tenant, number') ⟨⟨d.files, d.connection⟩, f, c⟩
          ⟨⟨d'.files, d'.connection⟩, f', c'⟩

/-- Two deployments with the same log are told apart by the keys of two numbers at most. -/
structure Paired (k : Storage) (tenant number number' : String) (n : Nat) (d d' : Deployment) :
    Prop where
  clock : d.clock = d'.clock
  settings : d.settings = d'.settings
  events : d.events = d'.events
  twins : k.Twins tenant number number' n d d'

variable {k : Storage} {tenant number number' : String} {n : Nat} {d d' : Deployment}

theorem Paired.log (hpaired : k.Paired tenant number number' n d d') (e : Event) :
    k.Paired tenant number number' n (d.log e) (d'.log e) where
  clock := hpaired.clock
  settings := hpaired.settings
  events := congrArg (List.cons e) hpaired.events
  twins := by
    have htwins := hpaired.twins
    cases k <;> exact htwins

theorem Paired.setClock (hpaired : k.Paired tenant number number' n d d') (clock : String) :
    k.Paired tenant number number' n { d with clock } { d' with clock } where
  clock := rfl
  settings := hpaired.settings
  events := hpaired.events
  twins := by
    have htwins := hpaired.twins
    cases k <;> exact htwins

/-- What accesses to stores come to side by side, accesses to deployments come to. -/
theorem Paired.access (hpaired : k.Paired tenant number number' n d d') (a a' : Access)
    (P : a.Answer → a'.Answer → Prop → Prop)
    (hmono : ∀ {r r'} {X Y : Prop}, (X → Y) → P r r' X → P r r' Y)
    (hpart : ∀ {σ : Type} {R : σ → σ → Prop} {access : (a : Access) → Run (Traced σ) a.Answer},
      Tandem k.AsText (tenant, number) (tenant, number') Traced.SameLog (Traced.Related R) access →
        ∀ t t', Traced.Related R t t' →
          Coupled Traced.SameLog
            (fun r r' u u' => u.SameLog u' ∧ P r r' (Traced.Related R u u'))
            (access a t) (access a' t')) :
    Coupled (fun d d' => d.events = d'.events)
      (fun r r' e e' => e.events = e'.events ∧ P r r' (k.Paired tenant number number' n e e'))
      (Deployment.accessStore n a d) (Deployment.accessStore n a' d') := by
  obtain ⟨hclock, hsettings, hevents, htwins⟩ := hpaired
  unfold Deployment.accessStore
  cases k with
  | memory =>
    obtain ⟨m, m', hthere, hthere', htwins⟩ := htwins
    rw [store_eq hthere, store_eq hthere', ← hclock]
    have htogether := hpart (Memory.tandem (tenant, number) (tenant, number') d.clock)
      ⟨m, d.events⟩ ⟨m', d'.events⟩ ⟨htwins, hevents⟩
    show Coupled _ _ (Run.zoom _ _ _ d) (Run.zoom _ _ _ d')
    refine Coupled.zoom htogether ?_ fun t t' hlog => hlog
    rintro r r' t t' ⟨hlog, hafter⟩
    refine ⟨hlog, hmono (fun hrelated => ?_) hafter⟩
    exact ⟨hclock, hsettings, hrelated.2, t.state, t'.state, getElem?_setStore hthere,
      getElem?_setStore hthere', hrelated.1⟩
  | files dir =>
    obtain ⟨hthere, hthere', base, htwins⟩ := htwins
    rw [store_eq hthere, store_eq hthere', ← hclock]
    have htogether := hpart (Directory.tandem dir base tenant number number' d.clock)
      ⟨d.files, d.events⟩ ⟨d'.files, d'.events⟩ ⟨htwins, hevents⟩
    show Coupled _ _ (Run.zoom _ _ _ d) (Run.zoom _ _ _ d')
    refine Coupled.zoom htogether ?_ fun t t' hlog => hlog
    rintro r r' t t' ⟨hlog, hafter⟩
    refine ⟨hlog, hmono (fun hrelated => ?_) hafter⟩
    exact ⟨hclock, hsettings, hrelated.2, hthere, hthere', base, hrelated.1⟩
  | table location =>
    obtain ⟨address, f, c, f', c', hthere, hthere', hknown, htwins⟩ := htwins
    have hsame : d'.addressOr address = d.addressOr address := by
      rw [Deployment.addressOr, Deployment.addressOr, hsettings]
    rw [store_eq hthere, store_eq hthere', ← hclock]
    dsimp only
    rw [hsame, ← hsettings]
    have htogether := hpart (Table.tandem hknown d.settings.database.url (tenant, number)
      (tenant, number') d.clock) ⟨⟨⟨d.files, d.connection⟩, f, c⟩, d.events⟩
      ⟨⟨⟨d'.files, d'.connection⟩, f', c'⟩, d'.events⟩ ⟨htwins, hevents⟩
    show Coupled _ _ (Run.zoom _ _ _ d) (Run.zoom _ _ _ d')
    refine Coupled.zoom htogether ?_ fun t t' hlog => hlog
    rintro r r' t t' ⟨hlog, hafter⟩
    refine ⟨hlog, hmono (fun hrelated => ?_) hafter⟩
    exact ⟨hclock, hsettings, hrelated.2, address, _, _, _, _, getElem?_setStore hthere,
      getElem?_setStore hthere', hknown, hrelated.1⟩

/-- Accesses of two conversations of a tenant go side by side, wherever they are stored. -/
theorem tandem (k : Storage) (tenant number number' : String) (n : Nat) :
    Tandem k.AsText (tenant, number) (tenant, number') (fun d d' => d.events = d'.events)
      (k.Paired tenant number number' n) (Deployment.accessStore n) where
  same hpaired := hpaired.events
  load t name _ _ hpaired := by
    refine (hpaired.access (.loadFlow t name) (.loadFlow t name) (fun r r' X => r = r' ∧ X)
      And.imp_right fun htandem _ _ hrelated => (htandem.load t name hrelated).mono ?_).mono
        fun _ _ _ _ => And.right
    exact fun _ _ _ _ ⟨hsame, hafter⟩ => ⟨hafter.2, hsame, hafter⟩
  fetch hpaired := by
    refine (hpaired.access (.fetchConversation tenant number) (.fetchConversation tenant number')
      (fun r r' X => r = r' ∧ (∀ doc, r = some doc → k.AsText → doc.IsDocument) ∧ X)
      (fun hgoesOn => And.imp_right (And.imp_right hgoesOn))
      fun htandem _ _ hrelated => htandem.fetch hrelated |>.mono ?_).mono fun _ _ _ _ => And.right
    exact fun _ _ _ _ ⟨hsame, hdocument, hafter⟩ => ⟨hafter.2, hsame, hdocument, hafter⟩
  put doc _ _ hpaired :=
    hpaired.access (.putConversation tenant number doc) (.putConversation tenant number' doc)
      (fun _ _ X => (k.AsText → doc.IsJson) → X) (fun hgoesOn => (hgoesOn ∘ ·))
      fun htandem _ _ hrelated => htandem.put doc hrelated
  delete hpaired := by
    refine (hpaired.access (.deleteConversation tenant number) (.deleteConversation tenant number')
      (fun r r' X => r = r' ∧ X) And.imp_right
      fun htandem _ _ hrelated => htandem.delete hrelated |>.mono ?_).mono fun _ _ _ _ => And.right
    exact fun _ _ _ _ ⟨hsame, hafter⟩ => ⟨hafter.2, hsame, hafter⟩

/-- The same lies under two keys, or nothing under either of them. -/
def SameEntry (k : Storage) (key key' : Key) (n : Nat) (d : Deployment) : Prop :=
  k.Relates (fun m m' => m.conversations.get? key = m'.conversations.get? key')
    (fun dir files files' =>
      (Directory.stateIn dir key.1 files).map (fun state => Fields.get? state key.2) =
        (Directory.stateIn dir key'.1 files').map fun state => Fields.get? state key'.2) n d d

/-- A deployment is paired with itself where the same lies under the keys of two numbers. -/
theorem Keeps.paired (hkeeps : k.Keeps n d) (hnamed : Identifier.IsName tenant)
    (hsame : k.SameEntry (tenant, number) (tenant, number') n d) :
    k.Paired tenant number number' n d d where
  clock := rfl
  settings := rfl
  events := rfl
  twins := by
    have hsees := (hkeeps (tenant, number) hnamed).relates
    cases k with
    | memory =>
      obtain ⟨m, m', hthere, hthere', hentry⟩ := hsame
      obtain ⟨⟩ := hthere.symm.trans hthere'
      exact ⟨m, m, hthere, hthere, rfl, hentry⟩
    | files dir =>
      obtain ⟨hthere, -, hentry⟩ := hsame
      obtain ⟨-, -, base, hsees⟩ := hsees
      exact ⟨hthere, hthere, base, hnamed, hsees.laid, hsees.laid, fun _ _ => rfl, rfl, hentry⟩
    | table location =>
      obtain ⟨m, m', ⟨address, f, c, hthere, hknown, hshows⟩, ⟨_, _, _, hthere', _, hshows'⟩,
        hentry⟩ :=
        hsame
      obtain ⟨⟩ := hthere.symm.trans hthere'
      obtain rfl : m = m' := hshows.unique hshows'
      exact ⟨address, f, c, f, c, hthere, hthere, hknown, ⟨rfl, rfl, rfl⟩, m, m, hshows, hshows,
        rfl, hentry⟩

end Storage

/-- Something that is done with a counterparty. -/
inductive Contact where
  | message (text : Option String) (flow : String) (time : Option String) (hops : Int)
  | read
  | put (c : Conversation)
  | clear

namespace Contact

/-- What is done with a counterparty as a program, at the time of a clock. -/
def program (clock : String) (tenant counterparty : Value) : Contact → Program Unit
  | message text flow time hops =>
    (Inbound.handle clock hops (Inbound.ofTexts tenant counterparty text flow time)).bind
      fun _ => .done ()
  | read => (getConversation clock tenant counterparty).bind fun _ => .done ()
  | put c => setConversation tenant counterparty c
  | clear => (clearConversation tenant counterparty).bind fun _ => .done ()

variable {σ : Type} {asText : Prop} {access : (a : Access) → Run σ a.Answer} {log : Event → σ → σ}
  {E R : σ → σ → Prop} {tenant id id' : Value} {s s' : σ}

/-- The same is logged of what is done with two counterparties whose redacted numbers are the
same. -/
theorem coupled_program
    (htandem : Tandem asText (conversationKey tenant id) (conversationKey tenant id') E R access)
    (hlogs : ∀ e s s', R s s' → R (log e s) (log e s'))
    (hredacted : Identifier.redact id = Identifier.redact id') (clock : String) (contact : Contact)
    (hrelated : R s s') :
    E ((contact.program clock tenant id).run access log s).2
      ((contact.program clock tenant id').run access log s').2 := by
  have hparallel {α : Type} {Q : α → α → Prop} {p p' : Program α}
      (hparallels :
        p.Parallels asText (conversationKey tenant id) (conversationKey tenant id') Q p') :
      E ((p.bind fun _ => .done ()).run access log s).2
        ((p'.bind fun _ => .done ()).run access log s').2 := by
    have htogether : (p.bind fun _ => .done ()).Parallels asText (conversationKey tenant id)
        (conversationKey tenant id') (fun _ _ => True) (p'.bind fun _ => .done ()) :=
      hparallels.bind fun _ _ _ => .done trivial
    exact (htogether.coupled htandem hlogs hrelated).states fun _ _ _ _ hafter =>
      htandem.same hafter.2
  cases contact with
  | message text flow time hops =>
    exact hparallel (Inbound.parallels_handle hredacted asText clock hops tenant text flow time)
  | read => exact hparallel (parallels_getConversation hredacted asText clock tenant)
  | clear => exact hparallel (parallels_clearConversation hredacted asText tenant)
  | put c =>
    -- the document may be one that cannot be read again, and nothing is done after it is put
    rcases counterpartyKey_of_redact_eq hredacted with ⟨hkey, hkey'⟩ | ⟨f, f', hnone, hnone'⟩
    · rw [program, program, setConversation_eq hkey, setConversation_eq hkey']
      refine Coupled.states (E := E) (Q := fun _ _ => E) ?_ fun _ _ _ _ hsame => hsame
      exact (htandem.put (.dict c.document) hrelated).bind fun _ _ _ _ hafter => .ok hafter.1
    · rw [program, program]
      unfold setConversation
      rw [hnone, hnone']
      exact htandem.same hrelated

end Contact

namespace Deployment

open Storage

/-- What is done with two counterparties is logged alike if their redacted numbers are the same and
the same is stored for them.  A redacted number shows how many digits there are, and the last four
of more than four. -/
theorem events_eq_of_redact_eq :
    (∀ {k : Storage} {n : Nat} {d : Deployment} {tenant id id' : Value}, k.Keeps n d →
      Identifier.redact id = Identifier.redact id' →
      k.SameEntry (conversationKey tenant id) (conversationKey tenant id') n d →
        ∀ (clock : String) (contact : Contact),
          (run d.engine (contact.program clock tenant id) { d with clock }).2.events =
            (run d.engine (contact.program clock tenant id') { d with clock }).2.events) ∧
    ∀ v w : Value, Identifier.redact v = Identifier.redact w ↔
      (Identifier.digits v).toList.length = (Identifier.digits w).toList.length ∧
        (4 < (Identifier.digits v).toList.length →
          (Identifier.digits v).toList.drop ((Identifier.digits v).toList.length - 4) =
            (Identifier.digits w).toList.drop ((Identifier.digits w).toList.length - 4)) := by
  refine ⟨fun {k n d tenant id id'} hkeeps hredacted hsame clock contact => ?_,
    fun v w => Identifier.redact_inj_iff⟩
  have hpaired := (hkeeps.paired (Identifier.isName_safeName tenant) hsame).setClock clock
  have halike := contact.coupled_program (tandem k _ _ _ n) (fun e _ _ hpaired => hpaired.log e)
    hredacted clock hpaired
  have haccesses : access d.engine = accessStore n := by rw [engine_of_keeps hkeeps, access_one]
  rwa [run, run, haccesses]

/-! ### Two numbers with the same last digits -/

/-- A conversation that waits for an answer. -/
def waiting : Conversation :=
  { flow := "city", startedAt := "t1", updatedAt := .str "t1", waiting := some ⟨"city", 0⟩ }

/-- A deployment with a database in a file, in which two counterparties wait for the same. -/
def waitingTwice : Deployment :=
  let row : Database.ConversationRow :=
    { flow := .str "city", completedAt := .null, document := .dict waiting.document }
  { clock := "t0"
    files := [(["flows.db"], .file (.database
      { conversations := [(("acme", "15550001234"), row), (("acme", "15559991234"), row)] }))]
    stores := [.table (.str "sqlite:///flows.db") false false] }

/-- Whatever is done with the one or the other is logged alike. -/
theorem events_eq_of_redact_eq_waitingTwice :
    Identifier.digits (.str "+1 555 000-1234") ≠ Identifier.digits (.str "+1 555 999-1234") ∧
      ∀ (clock : String) (contact : Contact),
        (run waitingTwice.engine (contact.program clock (.str "Acme") (.str "+1 555 000-1234"))
            { waitingTwice with clock }).2.events =
          (run waitingTwice.engine (contact.program clock (.str "Acme") (.str "+1 555 999-1234"))
            { waitingTwice with clock }).2.events := by
  have hshows : (table (.file ⟨"", ["flows.db"]⟩ true)).Shows 0 waitingTwice
      { conversations := [(("acme", "15550001234"), .dict waiting.document),
          (("acme", "15559991234"), .dict waiting.document)] } := by
    have hserves : Database.Site.Serves (.file ⟨"", ["flows.db"]⟩ true)
        ⟨waitingTwice.files, waitingTwice.connection⟩ (some _) :=
      { connected := fun _ hopen => nomatch hopen
        holds := ⟨["flows.db"], rfl, rfl⟩ }
    exact ⟨_, false, false, rfl, Database.isAddressOf_of_location (by decide +kernel), _, hserves,
      rfl, by simp⟩
  have hkeeps : (table (.file ⟨"", ["flows.db"]⟩ true)).Keeps 0 waitingTwice :=
    keeps_table rfl hshows (by simp [Keyed.keys])
  have hredacted : Identifier.redact (.str "+1 555 000-1234") =
      Identifier.redact (.str "+1 555 999-1234") := by decide +kernel
  have hfirst :
      conversationKey (.str "Acme") (.str "+1 555 000-1234") = ("acme", "15550001234") := by
    decide +kernel
  have hsecond : conversationKey (.str "Acme") (.str "+1 555 999-1234") =
      ("acme", "15559991234") := by decide +kernel
  refine ⟨by decide +kernel, events_eq_of_redact_eq.1 hkeeps hredacted ?_⟩
  rw [hfirst, hsecond]
  exact ⟨_, _, hshows, hshows, rfl⟩

end Deployment

end Dialogue
