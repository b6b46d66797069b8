import Dialogue.Proofs.Deployment.Recall
import Dialogue.Proofs.Deployment.Resumption
import Dialogue.Proofs.Deployment.Steady

/-!
# What a message leaves alone

A message that resumes a conversation changes little.  In every document that it puts, the flow, the
time of the start and the extras are those of the conversation that was found, and so are the data,
but for the one field that the message fills, if a question was waiting
(`Conversation.IsKeptIn`).  It puts nothing anywhere else, so that flows and other conversations
stay what they are, whatever becomes of the message, and at any time in the middle of it
(`Deployment.call_frames`).

What the message accesses and passes through is followed access by access (`Program.Confined`).

## Main statements

* `isKeptIn_of_reference`: what is told of a conversation that is resumed keeps it.
* `Keeps.found_put`: a document that is put is found, or what was found before.
* `Amid.put`: what one put preserves.
* `confined_handle`: what a message accesses, and what a deployment shows in the middle of it.
-/

namespace Dialogue

open Store

/-! ## What is kept of a conversation -/

namespace Conversation

/-- The field that a message fills: that of the question that waits, unless the message is empty. -/
def filled (said : String) (c : Conversation) : Option String :=
  if said = "" then none else c.waiting.map (·.field)

/-- A document keeps what a message may not change of a conversation: its flow, its start, its
extras, and the data that the message does not fill. -/
structure IsKeptIn (said : String) (c : Conversation) (fields : Fields) : Prop where
  flow : Fields.get? fields "flow" = some (.str c.flow)
  started : Fields.get? fields "startedAt" = some (.str c.startedAt)
  extras : Schema.extras slots fields = c.extras
  data : ∃ data, Fields.get? fields "data" = some (.dict data) ∧
    ∀ field, Fields.get? data field =
      if c.filled said = some field then some (.str said) else Fields.get? c.data field

variable {b c : Conversation} {said : String}

/-- A sound conversation with the flow, the start, the extras and the data of another keeps it in
its document. -/
theorem IsSound.isKeptIn (hsound : b.IsSound) (hflow : b.flow = c.flow)
    (hstarted : b.startedAt = c.startedAt) (hextras : b.extras = c.extras)
    (hdata : ∀ field, Fields.get? b.data field =
      if c.filled said = some field then some (.str said) else Fields.get? c.data field) :
    c.IsKeptIn said b.document := by
  have hentry (slot : Schema.Slot) {v : Value} (hlisted : slot ∈ slots)
      (hthere : Fields.get? b.entries slot.name = some v) :
      Fields.get? b.document slot.name = some v := (hsound.get?_document hlisted).trans hthere
  have hentries := hsound.entries_eq
  refine ⟨?_, ?_, hsound.extras_document.trans hextras, b.data, ?_, hdata⟩
  · rw [← hflow]
    exact hentry (.plain "flow") (by simp [slots])
      (by simp [hentries, Keyed.get?, Schema.Slot.plain])
  · rw [← hstarted]
    exact hentry startedSlot (by simp [slots]) (by simp [hentries, Keyed.get?, startedSlot])
  · exact hentry (.plain "data") (by simp [slots])
      (by simp [hentries, Keyed.get?, Schema.Slot.plain])

end Conversation

namespace Turn

variable {flow : Flow} {name text now : String} {limit : Nat} {b c : Conversation}
  {outcome : Outcome} {saves : List Conversation}

/-- An answer fills the field of the question that waits, and changes no other data. -/
theorem get?_answered (text : String) (c : Conversation) (field : String) :
    Fields.get? (answered text c).data field =
      if c.filled text = some field then some (.str text) else Fields.get? c.data field := by
  cases hwaits : c.waiting with
  | none => simp [answered, hwaits, Conversation.filled]
  | some w =>
    by_cases hempty : text = ""
    · simp [answered, hwaits, Conversation.filled, hempty]
    · have hfilled : c.filled text = some w.field := by
        simp [Conversation.filled, hempty, hwaits]
      simp only [answered, hwaits, if_neg hempty, hfilled, Option.some.injEq]
      by_cases hsame : w.field = field
      · subst hsame
        rw [if_pos rfl]
        exact Keyed.get?_set_self _ _ _
      · rw [if_neg hsame]
        exact Keyed.get?_set_of_ne _ _ (Ne.symm hsame)

theorem answered_kept (text : String) (c : Conversation) :
    (answered text c).flow = c.flow ∧ (answered text c).startedAt = c.startedAt ∧
      (answered text c).extras = c.extras := by
  unfold answered
  split
  · split <;> exact ⟨rfl, rfl, rfl⟩
  · exact ⟨rfl, rfl, rfl⟩

/-- What is told of a conversation that is resumed keeps it. -/
theorem isKeptIn_of_reference (hsound : c.IsSound) (hgoing : c.isCompleted = false)
    (htold : Reference flow c.flow text now limit (some c) outcome saves) :
    ∀ b ∈ saves, b.IsSound ∧ c.IsKeptIn text b.document := by
  intro b hlisted
  have hsoundly : b.IsSound :=
    inherited_isSound.reference htold (fun c' hsame => Option.some.inj hsame ▸ hsound) b hlisted
  let heard : Conversation := { c with updatedAt := .str now, lastInboundAt := .str now }
  have hstart : resumed c.flow now (some c) = heard := if_pos ⟨rfl, hgoing⟩
  have hcarries := carries_of_told htold b hlisted
  rw [hstart] at hcarries
  obtain ⟨hflow, hstarted, hextras⟩ := answered_kept text heard
  refine ⟨hsoundly, hsoundly.isKeptIn (hcarries.flow.trans hflow)
    (hcarries.startedAt.trans hstarted)
    (hcarries.extras.trans hextras) fun field => ?_⟩
  rw [hcarries.data]
  exact get?_answered text heard field

end Turn

/-! ## What one access leaves alone -/

/-- An access of a message that resumes a conversation: it loads a flow, it fetches the
conversation, or it puts a document in its place that keeps it. -/
def Store.Access.IsKeeping (said : String) (c : Conversation) (key : Key) : Access → Prop
  | .loadFlow _ _ => True
  | .fetchConversation tenant number => (tenant, number) = key
  | .putConversation tenant number doc =>
    (tenant, number) = key ∧ ∃ fields, doc = .dict fields ∧ c.IsKeptIn said fields
  | _ => False

namespace Storage

variable {k : Storage} {key own : Key} {n : Nat} {d s : Deployment} {c : Conversation}
  {P : Conversation → Prop} {clock : String} {tenant : Value} {name : Value} {number : String}

/-- What is found under a key, when it is fetched at the time of a clock. -/
def found (n : Nat) (key : Key) (clock : String) (d : Deployment) : Except Failure (Option Value) :=
  (Deployment.accessStore n (.fetchConversation key.1 key.2) { d with clock }).1

theorem found_of_sees (hsees : k.Sees key n s d) (clock : String) :
    found n key clock s = found n key clock d :=
  (agrees_of_converses (a := .fetchConversation key.1 key.2) rfl clock s d hsees).1

/-- Loading a flow and fetching a conversation change nothing that is seen. -/
theorem spares_of_reads {a : Access} (hreads : (∃ tenant name, a = .loadFlow tenant name) ∨
    ∃ tenant number, a = .fetchConversation tenant number) :
    Run.Spares (k.Sees key n) (Deployment.accessStore n a) := by
  intro d d' hsees
  refine ⟨(Deployment.engine_accessStore n a d).trans hsees.engine, hsees.engine', ?_⟩
  refine spares_of_relates ?_ (fun dir _ now => ?_) d d' hsees.relates
  · rcases hreads with ⟨tenant, name, rfl⟩ | ⟨tenant, number, rfl⟩
    · exact spares_reads _
    · exact spares_reads _
  · rintro t t' ⟨base, hseen⟩
    have hunchanged : (Directory.access now dir a t).2.state = t.state := by
      rcases hreads with ⟨tenant, name, rfl⟩ | ⟨tenant, number, rfl⟩
      · exact (Directory.of_loadFlow t).2
      · obtain ⟨events, hran⟩ :=
          Directory.exists_fetchConversation now dir tenant number t.state t.events
        rw [show t = ⟨t.state, t.events⟩ from rfl, hran]
    exact ⟨base, hunchanged.symm ▸ hseen⟩

/-- What is found in files is told by the conversations of the tenant. -/
theorem found_of_files {dir : Path} (hthere : d.stores[n]? = some (.directory dir))
    (tenant : String) (number clock : String) :
    found n (tenant, number) clock d = (Directory.stateIn dir tenant d.files).bind fun state =>
      .ok (Directory.conversationOf (Fields.get? state number)) := by
  obtain ⟨events, hran⟩ :=
    Directory.exists_fetchConversation clock dir tenant number d.files d.events
  rw [found, Deployment.accessStore, store_eq (d := { d with clock }) hthere]
  simp only [Deployment.onFiles, Run.zoom_apply, hran]

/-- Where a conversation is put, it is found as it is written, or what was found before is found. -/
theorem Keeps.found_put (hkeeps : k.Keeps n d) (hsound : c.IsSound) (tenant : Value)
    (number : String) :
    let put := Deployment.accessStore n
      (.putConversation (Identifier.safeName tenant) number c.written) d
    (∀ clock, found n (Identifier.safeName tenant, number) clock put.2 = .ok (some c.written)) ∨
      ∀ clock, found n (Identifier.safeName tenant, number) clock put.2 =
        found n (Identifier.safeName tenant, number) clock d := by
  intro put
  obtain ⟨haccepts, hputs⟩ := hkeeps.put hsound tenant number
  by_cases hdone : put.1 = .ok ()
  · obtain ⟨hstays, hwritten⟩ := hputs hdone
    by_cases hfree : ∀ held,
        ¬ k.Retains n d (Identifier.safeName tenant, number) c.written held
    · exact .inl fun clock => (hwritten hfree).fetch clock
    · -- a row stays, and it was there before
      obtain ⟨held, hretains⟩ := Classical.not_forall_not.1 hfree
      have hafter := hstays held hretains
      obtain ⟨location, m, rfl, hshows, hthere, hsame⟩ := hretains
      have hbefore : (table location).Finds n (Identifier.safeName tenant) number held d := by
        refine ⟨m, hshows, ?_⟩
        simp [Memory.document?, Option.filter, hthere, hsound.isEmpty_of_same hsame]
      exact .inr fun clock => (hafter.fetch clock).trans (hbefore.fetch clock).symm
  · -- nothing is written where the conversations of the tenant are not accepted
    refine .inr fun clock => ?_
    have hrefuses := mt haccepts.2 hdone
    cases k with
    | memory | table => exact absurd trivial hrefuses
    | files dir =>
      have hnamed := Identifier.isName_safeName tenant
      obtain ⟨hthere, -, base, hsees⟩ :=
        (hkeeps (Identifier.safeName tenant, number) hnamed).relates
      obtain ⟨r, files', events', hran, hputs⟩ := Directory.exists_putConversation hsees.laid hnamed
        d.clock number (Value.IsPlain.isJson _ hsound.isPlain_written) d.events
      have hafter : put.2 = { d with files := files', events := events' } := by
        simp only [put, Deployment.accessStore, store_eq hthere, Deployment.onFiles,
          Run.zoom_apply, hran]
      have hunchanged : Directory.stateIn dir (Identifier.safeName tenant) files' =
          Directory.stateIn dir (Identifier.safeName tenant) d.files := by
        rw [hputs.state]
        cases hlies : Directory.stateIn dir (Identifier.safeName tenant) d.files with
        | error f => rfl
        | ok state =>
          have hlong : Directory.isTooLong
              (Directory.statePath dir (Identifier.safeName tenant)) = true :=
            eq_true_of_ne_false fun hshort => hrefuses ⟨hshort, state, hlies⟩
          simp [Except.map, hlong]
      rw [hafter, found_of_files hthere,
        found_of_files (d := { d with files := files', events := events' }) hthere, hunchanged]

/-- A deployment in the middle of a message, beside the one that the message came to: flows and
other conversations are seen as they were, and under the key of the message what was found before is
found, or a conversation of a kind. -/
structure Amid (k : Storage) (n : Nat) (own : Key) (P : Conversation → Prop) (d s : Deployment) :
    Prop where
  others : ∀ key : Key, Identifier.IsName key.1 → key ≠ own → k.Sees key n s d
  self : k.Sees own n s s
  own : (∀ clock, found n own clock s = found n own clock d) ∨
    ∃ b, P b ∧ ∀ clock, found n own clock s = .ok (some b.written)

/-- Where nothing that is seen has changed yet. -/
theorem Amid.of_sees (hnamed : Identifier.IsName own.1)
    (hsees : ∀ key : Key, Identifier.IsName key.1 → k.Sees key n s d) : k.Amid n own P d s where
  others key hnamed _ := hsees key hnamed
  self := (hsees own hnamed).trans (hsees own hnamed).symm
  own := .inl (found_of_sees (hsees own hnamed))

/-- What is found of the conversation stays of the kind as long as it is found alike. -/
theorem Amid.own_of_found {t : Deployment} (hamid : k.Amid n own P d s)
    (hsame : ∀ clock, found n own clock t = found n own clock s) :
    (∀ clock, found n own clock t = found n own clock d) ∨
      ∃ b, P b ∧ ∀ clock, found n own clock t = .ok (some b.written) := by
  rcases hamid.own with hbefore | ⟨b, hkind, hwritten⟩
  · exact .inl fun clock => (hsame clock).trans (hbefore clock)
  · exact .inr ⟨b, hkind, fun clock => (hsame clock).trans (hwritten clock)⟩

theorem Amid.log (hamid : k.Amid n own P d s) (e : Event) : k.Amid n own P d (s.log e) where
  others key hnamed hdifferent := (hamid.others key hnamed hdifferent).of_same
    (Deployment.same_log e s) (Deployment.equivalence_same.refl d)
  self := hamid.self.of_same (Deployment.same_log e s) (Deployment.same_log e s)
  own := hamid.own_of_found (found_of_sees
    (hamid.self.of_same (Deployment.same_log e s) (Deployment.equivalence_same.refl s)))

theorem Amid.keeps (hamid : k.Amid n own P d s) : k.Keeps n s := by
  intro key hnamed
  by_cases hsame : key = own
  · exact hsame ▸ hamid.self
  · have hsees := hamid.others key hnamed hsame
    exact hsees.trans hsees.symm

/-- One put of a conversation of the kind leaves alone what the message leaves alone. -/
theorem Amid.put {b : Conversation} (hnamed : Identifier.IsName (Identifier.safeName tenant))
    (hamid : k.Amid n (Identifier.safeName tenant, number) P d s) (hsound : b.IsSound)
    (hkind : P b) :
    k.Amid n (Identifier.safeName tenant, number) P d (Deployment.accessStore n
      (.putConversation (Identifier.safeName tenant) number b.written) s).2 := by
  have hconverses : (Access.putConversation (Identifier.safeName tenant) number b.written).Converses
      k.AsText (Identifier.safeName tenant, number) :=
    ⟨rfl, fun _ => Value.IsPlain.isJson _ hsound.isPlain_written⟩
  refine ⟨fun key hnamed' hdifferent => ?_, ?_, ?_⟩
  · exact spares_of_converses hnamed hdifferent hconverses s.clock s d
      (hamid.others key hnamed' hdifferent)
  · exact (agrees_of_converses hconverses s.clock s s hamid.self).2
  · rcases hamid.keeps.found_put hsound tenant number with hwritten | hunchanged
    · exact .inr ⟨b, hkind, hwritten⟩
    · exact hamid.own_of_found hunchanged

end Storage

/-! ## Messages -/

namespace Inbound

open Storage Program

variable {k : Storage} {n : Nat} {d s : Deployment} {c : Conversation}
  {said key name clock : String} {tenant counterparty : Value}

/-- What a deployment shows in the middle of a message that resumes a conversation. -/
abbrev AmidMessage (k : Storage) (n : Nat) (own : Key) (said : String) (c : Conversation)
    (d s : Deployment) : Prop :=
  k.Amid n own (fun b => b.IsSound ∧ c.IsKeptIn said b.document) d s

/-- Effects that keep a conversation are carried out without touching anything else. -/
theorem confined_carryOut (hkey : counterpartyKey counterparty = .ok key)
    {effects : List Turn.Effect}
    (hkeeping : ∀ b ∈ Turn.saved effects, b.IsSound ∧ c.IsKeptIn said b.document)
    (hamid : AmidMessage k n (Identifier.safeName tenant, key) said c d s) :
    (carryOut tenant counterparty effects).Confined (Deployment.accessStore n) Deployment.log
      (Access.IsKeeping said c (Identifier.safeName tenant, key))
      (AmidMessage k n (Identifier.safeName tenant, key) said c d) s := by
  induction effects generalizing s with
  | nil => exact .done () hamid
  | cons effect rest ih =>
    cases effect with
    | log e => exact .log (ih hkeeping (hamid.log e))
    | save b =>
      rw [Turn.saved_save] at hkeeping
      obtain ⟨hfirst, hothers⟩ := List.forall_mem_cons.1 hkeeping
      have hafter := hamid.put (Identifier.isName_safeName tenant) hfirst.1 hfirst
      rw [carryOut, setConversation_eq hkey]
      exact .access ⟨rfl, b.document, rfl, hfirst.2⟩ hafter fun _ _ => ih hothers hafter

/-- A message that resumes a conversation makes keeping accesses only, and leaves everything else
alone. -/
theorem confined_handle (hkeeps : k.Keeps n d) (hkey : counterpartyKey counterparty = .ok key)
    (hfetched : ∀ doc, found n (Identifier.safeName tenant, key) d.clock d = .ok doc →
      Conversation.read? d.clock doc = some c)
    (hsound : c.IsSound) (hgoing : c.isCompleted = false) (hops : Int) (text now : Option String) :
    (handle d.clock hops (ofTexts tenant counterparty text c.flow now)).Confined
      (Deployment.accessStore n) Deployment.log
      (Access.IsKeeping (stripped text) c (Identifier.safeName tenant, key))
      (AmidMessage k n (Identifier.safeName tenant, key) (stripped text) c d) d := by
  have hnamed := Identifier.isName_safeName tenant
  have hunchanged {s : Deployment}
    (hsees : ∀ key : Key, Identifier.IsName key.1 → k.Sees key n s d) :
      AmidMessage k n (Identifier.safeName tenant, key) (stripped text) c d s :=
    .of_sees hnamed hsees
  let s₁ := (Deployment.accessStore n (.loadFlow tenant (.str c.flow)) d).2
  have hsees₁ : ∀ key : Key, Identifier.IsName key.1 → k.Sees key n s₁ d := fun key hnamed =>
    spares_of_reads (.inl ⟨_, _, rfl⟩) d d (hkeeps key hnamed)
  have hclock₁ : s₁.clock = d.clock := Deployment.clock_accessStore n _ d
  let s₂ := (Deployment.accessStore n (.fetchConversation (Identifier.safeName tenant) key) s₁).2
  have hsees₂ : ∀ key : Key, Identifier.IsName key.1 → k.Sees key n s₂ d := fun key hnamed =>
    spares_of_reads (.inr ⟨_, _, rfl⟩) s₁ d (hsees₁ key hnamed)
  rw [handle_eq]
  refine .access trivial (hunchanged hsees₁) fun flow _ => ?_
  cases flow with
  | none => exact .log (.done _ ((hunchanged hsees₁).log _))
  | some flow =>
    dsimp only
    split
    · exact .log (.done _ ((hunchanged hsees₁).log _))
    · rw [getConversation_eq hkey]
      refine .access rfl (hunchanged hsees₂) fun doc hanswered => ?_
      have hsame : found n (Identifier.safeName tenant, key) d.clock d = .ok doc := by
        rw [← found_of_sees (hsees₁ (Identifier.safeName tenant, key) hnamed), ← hanswered, found,
          ← hclock₁]
      obtain ⟨v, held, hparsed⟩ := Option.bind_eq_some_iff.1 (hfetched doc hsame)
      obtain ⟨rfl, hnonempty⟩ := Option.filter_eq_some_iff.1 held
      have hread : Conversation.ofValue d.clock v = .ok c := eq_ok_of_toOption_eq_some hparsed
      obtain ⟨effects, outcome, hdoes, htold, -⟩ :=
        exists_afterReading hops tenant counterparty text
        c.flow (timeOf d.clock now) flow (some c)
      have hkeeping := Turn.isKeptIn_of_reference hsound hgoing htold
      have hfull : ¬ v.isEmpty = true := by simpa using hnonempty
      simp only [if_neg hfull, hread, Program.bind, hdoes]
      exact (confined_carryOut hkey hkeeping (hunchanged hsees₂)).bind fun _ _ hamid =>
        .done _ hamid

end Inbound

namespace Deployment

open Storage

variable {k : Storage} {n : Nat} {d : Deployment} {c : Conversation} {clock : String}
  {tenant counterparty : Value}

/-- The conversation is answered that is found. -/
theorem call_getConversation_of_found {key : String} {s : Deployment} (hengine : s.engine = ⟨n, n⟩)
    (hkey : counterpartyKey counterparty = .ok key) (clock : String) :
    (s.call clock (.getConversation tenant counterparty)).1 =
      (found n (Identifier.safeName tenant, key) clock s).map fun doc =>
        .conversation (Conversation.read? clock doc) := by
  have hone : access s.engine = accessStore n := by rw [hengine, access_one]
  rw [call_getConversation_eq hkey, hone]
  rfl

/-- Flows are loaded alike where they are seen alike. -/
theorem call_loadFlow_of_sees {key : Key} {s : Deployment} (hsees : k.Sees key n s d)
    (clock : String) (tenant name : Value) :
    (s.call clock (.loadFlow tenant name)).1 = (d.call clock (.loadFlow tenant name)).1 := by
  have hsame := (agrees_of_converses (a := .loadFlow tenant name) trivial clock s d hsees).1
  have hloads (e : Deployment) (hengine : e.engine = ⟨n, n⟩) :
      (e.call clock (.loadFlow tenant name)).1 =
        (accessStore n (.loadFlow tenant name) { e with clock }).1.map .found := by
    have hone : access e.engine = accessStore n := by rw [hengine, access_one]
    rw [call_eq (.loadFlow tenant name) rfl, hone]
    rcases accessStore n (.loadFlow tenant name) { e with clock } with ⟨f | flow, t⟩ <;> rfl
  rw [hloads s hsees.engine, hloads d hsees.engine', hsame]

/-- A message that resumes a conversation, whatever it comes to, loads flows, fetches the
conversation and puts documents in its place that keep it, and does nothing else.  In every state in
the middle and at the end, all flows and all other conversations are found as before, and of the
conversation itself either what was found before or one whose document keeps it. -/
theorem call_frames (hkeeps : k.Keeps n d)
    (hfetched : (d.call clock (.getConversation tenant counterparty)).1 =
      .ok (.conversation (some c)))
    (hsound : c.IsSound) (hgoing : c.isCompleted = false) (text now : Option String) (hops : Int) :
    let op := Operation.inbound tenant counterparty text c.flow now hops
    (∀ a ∈ (op.program clock).accesses (access d.engine) log { d with clock },
      a.IsKeeping (Inbound.stripped text) c (conversationKey tenant counterparty)) ∧
    ∀ s ∈ (d.call clock op).2 :: d.statesOf clock op, ∀ clock',
      (∀ tenant' name, (s.call clock' (.loadFlow tenant' name)).1 =
        (d.call clock' (.loadFlow tenant' name)).1) ∧
      (∀ tenant' counterparty',
        conversationKey tenant' counterparty' ≠ conversationKey tenant counterparty →
          (s.call clock' (.getConversation tenant' counterparty')).1 =
            (d.call clock' (.getConversation tenant' counterparty')).1) ∧
      ((s.call clock' (.getConversation tenant counterparty)).1 =
          (d.call clock' (.getConversation tenant counterparty)).1 ∨
        ∃ b, (s.call clock' (.getConversation tenant counterparty)).1 =
            .ok (.conversation (some b)) ∧
          c.IsKeptIn (Inbound.stripped text) b.document) := by
  intro op
  obtain ⟨key, hkey⟩ := exists_counterpartyKey_of_call hfetched
  have hown : conversationKey tenant counterparty = (Identifier.safeName tenant, key) := by
    rw [conversationKey, counterpartyKey_eq_ok hkey]
  have hengine : d.engine = ⟨n, n⟩ := engine_of_keeps hkeeps
  have hone : access d.engine = accessStore n := by rw [hengine, access_one]
  have htimed : k.Keeps n { d with clock } :=
    fun key hnamed => (hkeeps key hnamed).of_same (same_setClock clock d) (same_setClock clock d)
  have hread : ∀ doc, found n (Identifier.safeName tenant, key) clock d = .ok doc →
      Conversation.read? clock doc = some c := by
    intro doc hthere
    rw [call_getConversation_of_found hengine hkey, hthere] at hfetched
    simpa [Except.map] using hfetched
  have hconfined : (op.program clock).Confined (accessStore n) log
      (Access.IsKeeping (Inbound.stripped text) c (Identifier.safeName tenant, key))
      (Inbound.AmidMessage k n (Identifier.safeName tenant, key) (Inbound.stripped text) c
        { d with clock }) { d with clock } :=
    (Inbound.confined_handle (d := { d with clock }) htimed hkey hread hsound hgoing hops text
      now).bind
      fun _ _ hamid => .done _ hamid
  rw [hone, hown]
  refine ⟨hconfined.allowed, fun s hlisted clock' => ?_⟩
  have hamid : Inbound.AmidMessage k n (Identifier.safeName tenant, key) (Inbound.stripped text) c
      { d with clock } s := by
    obtain ⟨hbetween, hends⟩ := hconfined.states
    rcases List.mem_cons.1 hlisted with rfl | hlisted
    · rw [call, Deployment.run, hone]
      exact hends
    · rw [statesOf, hone] at hlisted
      exact hbetween s hlisted
  have hsees {key' : Key} (hnamed : Identifier.IsName key'.1)
      (hdifferent : key' ≠ (Identifier.safeName tenant, key)) : k.Sees key' n s d :=
    (hamid.others key' hnamed hdifferent).of_same (equivalence_same.refl s)
      (equivalence_same.symm (same_setClock clock d))
  refine ⟨fun tenant' name => ?_, fun tenant' counterparty' hdifferent => ?_, ?_⟩
  · have hdifferent : (Identifier.safeName tenant, key ++ "0") ≠
        (Identifier.safeName tenant, key) := by simp
    exact call_loadFlow_of_sees (hsees (Identifier.isName_safeName tenant) hdifferent) clock'
      tenant'
      name
  · exact call_of_sees (hsees (Identifier.isName_safeName tenant') hdifferent) clock'
  · rw [call_getConversation_of_found hamid.self.engine hkey,
      call_getConversation_of_found hengine hkey]
    rcases hamid.own with hbefore | ⟨b, ⟨hsound', hkept⟩, hwritten⟩
    · exact .inl (congrArg _ (hbefore clock'))
    · refine .inr ⟨b, ?_, hkept⟩
      rw [hwritten, Except.map, hsound'.read?_written]

/-- A message that is stuck keeps the note of someone else and fills the city. -/
theorem call_frames_crossing :
    let op :=
      Operation.inbound (.str "Acme") (.str "+1 555") (some " Pune ") noted.flow (some "t2") 1
    (∀ a ∈ (op.program "t1").accesses (access crossing.engine) log { crossing with clock := "t1" },
      a.IsKeeping "Pune" noted ("acme", "1555")) ∧
    ∀ s ∈ (crossing.call "t1" op).2 :: crossing.statesOf "t1" op, ∀ clock name,
      (s.call clock (.loadFlow (.str "Acme") name)).1 =
        (crossing.call clock (.loadFlow (.str "Acme") name)).1 := by
  have hkeeps : memory.Keeps 0 crossing := keeps_memory rfl rfl (by decide)
  have hfetched : (crossing.call "t1" (.getConversation (.str "Acme") (.str "+1 555"))).1 =
    .ok (.conversation (some noted)) := rfl
  have heard : Inbound.stripped (some " Pune ") = "Pune" := by decide +kernel
  have hkey : conversationKey (.str "Acme") (.str "+1 555") = ("acme", "1555") := by decide +kernel
  obtain ⟨haccesses, hstates⟩ :=
    call_frames hkeeps hfetched isSound_noted rfl (some " Pune ") (some "t2") 1
  rw [heard, hkey] at haccesses
  exact ⟨haccesses, fun s hlisted clock name => (hstates s hlisted clock).1 (.str "Acme") name⟩

end Deployment

end Dialogue
