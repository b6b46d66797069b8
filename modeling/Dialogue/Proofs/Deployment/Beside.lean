import Dialogue.Proofs.Deployment.Turns
import Dialogue.Proofs.Engine.Conduct
import Dialogue.Proofs.Scene.Apart
import Dialogue.Proofs.Scene.Progress
import Dialogue.Proofs.Store.Directory.State

/-!
# Messages that are handled side by side

Messages of different counterparties may be handled at a time, and no update is lost: each message
is answered as it would be if it were alone, and each conversation is left as it would be then
(`Deployment.answers_beside`).  It does not matter what was stored before, which flows the messages
go by, or that the conversations of a tenant lie in one document.

Two deployments are compared by what they show under the key of one conversation (`Storage.Sees`).
What a message does agrees on deployments that show its own conversation alike, and spares what they
show of the other ones (`Storage.apart_strokes`).
-/

namespace Dialogue

open Run Store

/-- The demand is a message in the conversation under a key. -/
def Demand.IsMessageOf (key : Key) : Demand → Prop
  | operate (.inbound tenant counterparty _ _ _ _) => conversationKey tenant counterparty = key
  | _ => False

namespace Storage

/-- Conversations are written as text. -/
def AsText : Storage → Prop
  | files _ => True
  | _ => False

/-- Two deployments at work show the same flows, and the same conversation under a key. -/
structure Sees (k : Storage) (key : Key) (n : Nat) (d d' : Deployment) : Prop where
  engine : d.engine = ⟨n, n⟩
  engine' : d'.engine = ⟨n, n⟩
  relates : k.Relates (Memory.Sees key)
    (fun dir files files' => ∃ base, Directory.Sees dir base key files files') n d d'

/-- The store of a number is in use for flows and for conversations, whatever lies there. -/
def Keeps (k : Storage) (n : Nat) (d : Deployment) : Prop :=
  ∀ key : Key, Identifier.IsName key.1 → k.Sees key n d d

variable {k : Storage} {key own : Key} {n : Nat} {d d' d'' : Deployment} {m m' : Memory}
  {clock : String} {a : Access}

/-! ## What is seen -/

theorem keeps_memory (hengine : d.engine = ⟨n, n⟩) (hthere : d.stores[n]? = some (.memory m))
    (hdistinct : (Keyed.keys m.conversations).Nodup) : memory.Keeps n d :=
  fun _ _ => ⟨hengine, hengine, m, m, hthere, hthere, .refl _ hdistinct⟩

theorem keeps_files {dir : Path} {base : Place} (hengine : d.engine = ⟨n, n⟩)
    (hthere : d.stores[n]? = some (.directory dir)) (hlaid : Directory.Laid dir base d.files) :
    (files dir).Keeps n d :=
  fun _ hnamed => ⟨hengine, hengine, hthere, hthere, base, hnamed, hlaid, hlaid,
    fun _ _ => rfl, rfl⟩

theorem keeps_table {location : Database.Location} (hengine : d.engine = ⟨n, n⟩)
    (hshows : (table location).Shows n d m) (hdistinct : (Keyed.keys m.conversations).Nodup) :
    (table location).Keeps n d :=
  fun _ _ => ⟨hengine, hengine, m, m, hshows, hshows, .refl _ hdistinct⟩

theorem Sees.of_same {e e' : Deployment} (hsame : d.Same e) (hsame' : d'.Same e')
    (hsees : k.Sees key n d d') : k.Sees key n e e' := by
  rw [← hsame, ← hsame']
  exact ⟨hsees.engine, hsees.engine', hsees.relates.at _ _ _ _⟩

theorem Sees.symm (hsees : k.Sees key n d d') : k.Sees key n d' d := by
  refine ⟨hsees.engine', hsees.engine, ?_⟩
  have hrelates := hsees.relates
  cases k with
  | memory =>
    obtain ⟨m, m', hshows, hshows', hseen⟩ := hrelates
    exact ⟨m', m, hshows', hshows, hseen.symm⟩
  | files dir =>
    obtain ⟨hthere, hthere', base, hseen⟩ := hrelates
    exact ⟨hthere', hthere, base, hseen.symm⟩
  | table location =>
    obtain ⟨m, m', hshows, hshows', hseen⟩ := hrelates
    exact ⟨m', m, hshows', hshows, hseen.symm⟩

theorem Sees.trans (hsees : k.Sees key n d d') (hsees' : k.Sees key n d' d'') :
    k.Sees key n d d'' := by
  refine ⟨hsees.engine, hsees'.engine', ?_⟩
  have hrelates := hsees.relates
  have hrelates' := hsees'.relates
  cases k with
  | memory =>
    obtain ⟨m, m', hshows, hshows', hseen⟩ := hrelates
    obtain ⟨m₁, m'', hshows₁, hshows'', hseen'⟩ := hrelates'
    obtain ⟨⟩ := hshows'.symm.trans hshows₁
    exact ⟨m, m'', hshows, hshows'', hseen.trans hseen'⟩
  | files dir =>
    obtain ⟨hthere, -, base, hseen⟩ := hrelates
    obtain ⟨-, hthere', base', hseen'⟩ := hrelates'
    obtain rfl : base = base' := Except.ok.inj (hseen.laid'.place.symm.trans hseen'.laid.place)
    exact ⟨hthere, hthere', base, hseen.trans hseen'⟩
  | table location =>
    obtain ⟨m, m', hshows, ⟨address, f, c, hthere, -, hshows'⟩, hseen⟩ := hrelates
    obtain ⟨m₁, m'', ⟨address', f', c', hthere', -, hshows₁⟩, hshows'', hseen'⟩ := hrelates'
    obtain ⟨⟩ := hthere.symm.trans hthere'
    obtain rfl : m' = m₁ := Table.Shows.unique hshows' hshows₁
    exact ⟨m, m'', hshows, hshows'', hseen.trans hseen'⟩

/-! ## What a message does -/

theorem strokes_one (n : Nat) (clock : String) : Deployment.strokes ⟨n, n⟩ clock =
    { access := fun a d => Deployment.accessStore n a { d with clock }
      first := fun a d => Deployment.firstStroke n a { d with clock }
      second := fun a seen d => Deployment.secondStroke n a seen { d with clock }
      log := Deployment.log } := by
  simp [Deployment.strokes, Deployment.storeOf]

theorem same_firstStroke (n : Nat) (a : Access) (d : Deployment) :
    d.Same (Deployment.firstStroke n a d).2 := by
  rw [Deployment.firstStroke]
  cases d.store n with
  | memory | table => exact Deployment.equivalence_same.refl d
  | directory dir =>
    have hreads (tenant : String) :
        d.Same (Deployment.onFiles (Directory.readState dir tenant) d).2 := by
      obtain ⟨events, hread⟩ := Directory.exists_readState dir tenant d.files d.events
      rw [Deployment.onFiles, Run.zoom_apply, hread]
      rfl
    cases a with
    | putConversation tenant | deleteConversation tenant => exact hreads tenant
    | _ => rfl

theorem agrees_firstStroke (n : Nat) (a : Access) (clock : String) :
    Agrees Deployment.Same fun d => Deployment.firstStroke n a { d with clock } := by
  intro d d' hsame
  have hsame' : Deployment.Same { d with clock } { d' with clock } := by
    rw [← hsame]
    rfl
  simp only [Deployment.firstStroke]
  rw [hsame'.store_eq]
  cases Deployment.store { d' with clock } n with
  | memory | table => exact ⟨rfl, hsame'⟩
  | directory dir => exact Deployment.agrees_onFiles (Directory.unlogged_first dir a) hsame'

theorem agrees_secondStroke (n : Nat) (a : Access) (seen : Fields) (clock : String) :
    Agrees Deployment.Same fun d => Deployment.secondStroke n a seen { d with clock } := by
  intro d d' hsame
  have hsame' : Deployment.Same { d with clock } { d' with clock } := by
    rw [← hsame]
    rfl
  have hwhole := Deployment.agrees_at n a clock d d' hsame
  simp only [Deployment.secondStroke]
  rw [hsame'.store_eq]
  cases Deployment.store { d' with clock } n with
  | memory | table => exact hwhole
  | directory dir =>
    exact Deployment.agrees_onFiles (Directory.unlogged_second dir clock a seen) hsame'

/-- An access is its first stroke and then the second one. -/
theorem accessStore_eq_strokes (n : Nat) (a : Access) (d : Deployment) :
    Deployment.accessStore n a { d with clock } =
      Run.bind (fun d => Deployment.firstStroke n a { d with clock })
        (fun seen d => Deployment.secondStroke n a seen { d with clock }) d := by
  cases hlies : d.store n with
  | memory documents =>
    have hlies' : Deployment.store { d with clock } n = .memory documents := hlies
    simp only [Run.bind, Deployment.firstStroke, Deployment.secondStroke, hlies']
  | table address flowsReady conversationsReady =>
    have hlies' : Deployment.store { d with clock } n =
        .table address flowsReady conversationsReady := hlies
    simp only [Run.bind, Deployment.firstStroke, Deployment.secondStroke, hlies']
  | directory dir =>
    have hlies' (files : Files) (events : List Event) :
        Deployment.store { d with clock, files, events } n = .directory dir := hlies
    have here := hlies' d.files d.events
    simp only [Run.bind, Deployment.accessStore, Deployment.firstStroke, here, Deployment.onFiles,
      Run.zoom_apply, Directory.access_eq_strokes]
    rcases Directory.first dir a ⟨d.files, d.events⟩ with ⟨f | seen, t⟩
    · rfl
    · simp only [Deployment.secondStroke, hlies' t.state t.events, Deployment.onFiles,
        Run.zoom_apply]

theorem agrees_of_converses (hconverses : a.Converses k.AsText key) (clock : String) :
    Agrees (k.Sees key n) fun d => Deployment.accessStore n a { d with clock } := by
  intro d d' hsees
  have hinFiles (dir : Path) (hkind : k = files dir) (now : String) : Agrees
      (Silent fun files files' => ∃ base, Directory.Sees dir base key files files')
      (Directory.access now dir a) := by
    subst hkind
    rintro t t' ⟨base, hsees⟩
    obtain ⟨hsame, hafter⟩ := Directory.agrees_of_converses now hconverses t t' hsees
    exact ⟨hsame, base, hafter⟩
  obtain ⟨hsame, -, hafter⟩ := agrees_of_relates (restsOn_agrees_of_converses hconverses) hinFiles
    { d with clock } { d' with clock } ⟨rfl, hsees.relates.at _ _ _ _⟩
  exact ⟨hsame, (Deployment.engine_accessStore n a _).trans hsees.engine,
    (Deployment.engine_accessStore n a _).trans hsees.engine', hafter⟩

/-- An access of another conversation spares what is seen. -/
theorem spares_of_converses (hnamed : Identifier.IsName own.1) (hdifferent : key ≠ own)
    (hconverses : a.Converses k.AsText own) (clock : String) :
    Spares (k.Sees key n) fun d => Deployment.accessStore n a { d with clock } := by
  intro d d' hsees
  have hinFiles (dir : Path) (hkind : k = files dir) (now : String) : Spares
      (Silent fun files files' => ∃ base, Directory.Sees dir base key files files')
      (Directory.access now dir a) := by
    subst hkind
    rintro t t' ⟨base, hsees⟩
    exact ⟨base, Directory.spares_of_converses now hnamed hdifferent hconverses t t' hsees⟩
  exact ⟨(Deployment.engine_accessStore n a _).trans hsees.engine, hsees.engine',
    spares_of_relates (restsOn_spares_of_converses hconverses hdifferent) hinFiles { d with clock }
      d'
      (hsees.relates.at _ _ _ _)⟩

theorem finds_of_sees (hsees : k.Sees key n d d') {r : a.Answer}
    (hanswered : (Deployment.accessStore n a d).1 = .ok r) : a.Finds k.AsText r := by
  cases a with
  | fetchConversation tenant number =>
    intro doc hfound htext
    cases k with
    | memory | table => exact htext.elim
    | files dir =>
      obtain ⟨hthere, -⟩ := hsees.relates
      obtain ⟨_, hran⟩ :=
        Directory.exists_fetchConversation d.clock dir tenant number d.files d.events
      rw [Deployment.accessStore, store_eq hthere] at hanswered
      simp only [Deployment.onFiles, Run.zoom_apply, hran] at hanswered
      cases hstate : Directory.stateIn dir tenant d.files with
      | error f =>
        rw [hstate] at hanswered
        cases hanswered
      | ok fields =>
        rw [hstate] at hanswered
        obtain rfl : Directory.conversationOf (Fields.get? fields number) = r :=
          Except.ok.inj hanswered
        exact Directory.isDocument_of_conversationOf hstate hfound
  | _ => trivial

/-- Outside of files an access has no first stroke to speak of. -/
theorem firstStroke_of_kind (hkind : (d.store n).kind ≠ .directory) :
    (Deployment.firstStroke n a d).1 = .ok [] := by
  rw [Deployment.firstStroke]
  cases hlies : d.store n with
  | memory | table => rfl
  | directory dir => exact absurd (by rw [hlies]; rfl) hkind

/-- Before a conversation is put into a file, those of its tenant are read. -/
theorem firstStroke_putConversation {dir : Path} (hlies : d.store n = .directory dir)
    (tenant number : String) (doc : Value) :
    (Deployment.firstStroke n (.putConversation tenant number doc) d).1 =
      Directory.stateIn dir tenant d.files := by
  obtain ⟨_, hran⟩ := Directory.exists_readState dir tenant d.files d.events
  simp only [Deployment.firstStroke, hlies, Deployment.onFiles, Run.zoom_apply, Directory.first,
    hran]

/-- What the first stroke of an access reads inside of a lock, an access outside of it spares. -/
theorem firstStroke_of_other {other : Key} {b : Access} {l : Lock}
    (hnamed : Identifier.IsName own.1)
    (hnamed' : Identifier.IsName other.1) (hconverses : a.Converses k.AsText own)
    (hconverses' : b.Converses k.AsText other) (hlocked : a.lock? = some l)
    (hfree : b.lock? ≠ some l) (hsees : k.Sees key n d d') (clock clock' : String) :
    (Deployment.firstStroke n a
        { (Deployment.accessStore n b { d with clock := clock' }).2 with clock }).1 =
      (Deployment.firstStroke n a { d with clock }).1 := by
  have hrelates := hsees.relates
  have hpiece (hkind : (d.store n).kind ≠ .directory) :
      (Deployment.firstStroke n a
          { (Deployment.accessStore n b { d with clock := clock' }).2 with clock }).1 =
        (Deployment.firstStroke n a { d with clock }).1 := by
    have hsame := Deployment.kind_accessStore n b { d with clock := clock' }
    have hbefore : (Deployment.store { d with clock := clock' } n).kind ≠ .directory := hkind
    rw [firstStroke_of_kind (d := { d with clock }) hkind]
    exact firstStroke_of_kind
      (d := { (Deployment.accessStore n b { d with clock := clock' }).2 with clock })
      (hsame.symm ▸ hbefore)
  cases k with
  | memory =>
    obtain ⟨m, -, hthere, -⟩ := hrelates
    exact hpiece (by rw [store_eq hthere]; simp [Backend.kind])
  | table location =>
    obtain ⟨m, -, ⟨address, f, c, hthere, -⟩, -⟩ := hrelates
    exact hpiece (by rw [store_eq hthere]; simp [Backend.kind])
  | files dir =>
    obtain ⟨hthere, -, base, hseen⟩ := hrelates
    have hlies (d' : Deployment) (hsame : d'.stores = d.stores) : d'.store n = .directory dir :=
      store_eq (hsame ▸ hthere)
    have hran : Deployment.accessStore n b { d with clock := clock' } =
        Deployment.onFiles (Directory.access clock' dir b) { d with clock := clock' } := by
      rw [Deployment.accessStore, hlies { d with clock := clock' } rfl]
    cases a with
    | putConversation tenant number doc =>
      obtain ⟨rfl, -⟩ := hconverses
      obtain rfl : Lock.conversations tenant = l := Option.some.inj hlocked
      rw [hran, firstStroke_putConversation (by exact hlies _ rfl),
        firstStroke_putConversation (by exact hlies _ rfl)]
      exact Directory.stateIn_of_other clock' hnamed' hnamed hconverses' hfree
        (t := ⟨d.files, d.events⟩) hseen.laid
    | loadFlow | fetchConversation => cases hlocked
    | createFlow | writeFlow | listFlows | locateFlow | deleteConversation | listConversations =>
      exact hconverses.elim

/-- Messages in different conversations keep apart. -/
theorem apart_strokes {ι : Type} {keys : ι → Key} (hnamed : ∀ i, Identifier.IsName (keys i).1)
    (clocks : ι → String) :
    Scene.Apart Deployment.Same (fun key => k.Sees key n) keys
      (fun i a => a.Converses k.AsText (keys i)) (Access.Finds k.AsText)
      fun i => Deployment.strokes ⟨n, n⟩ (clocks i) := by
  simp only [strokes_one]
  exact
    { equivalence := Deployment.equivalence_same
      related := fun hsame hsame' hsees => hsees.of_same hsame hsame'
      log := fun i e d => Deployment.same_log e d
      first := fun i a d => same_firstStroke n a { d with clock := clocks i }
      agreesFirst := fun i a => agrees_firstStroke n a (clocks i)
      agreesSecond := fun i a seen => agrees_secondStroke n a seen (clocks i)
      access := fun i a => funext fun d => accessStore_eq_strokes n a d
      agrees := fun i a hconverses => agrees_of_converses hconverses (clocks i)
      spares := fun i a key hconverses hdifferent =>
        spares_of_converses (hnamed i) hdifferent hconverses (clocks i)
      answers := fun i a key d d' r _ hsees hanswered =>
        finds_of_sees (hsees.of_same (Deployment.same_setClock (clocks i) d)
          (Deployment.equivalence_same.refl d')) hanswered
      reads := fun i j a b l key d d' hconverses hconverses' hlocked hfree hsees =>
        firstStroke_of_other (hnamed i) (hnamed j) hconverses hconverses' hlocked hfree hsees
          (clocks i) (clocks j) }

end Storage

/-! ## Messages -/

namespace Demand

variable {demand : Demand} {key : Key}

theorem IsMessageOf.named (hmessage : demand.IsMessageOf key) : Identifier.IsName key.1 := by
  cases demand with
  | check tenant name => exact hmessage.elim
  | operate op =>
    cases op with
    | inbound tenant counterparty =>
      obtain rfl : conversationKey tenant counterparty = key := hmessage
      exact Identifier.isName_safeName tenant
    | _ => exact hmessage.elim

/-- A message accesses flows and its own conversation. -/
theorem IsMessageOf.behaves_guarded (hmessage : demand.IsMessageOf key) (asText : Prop)
    (clock : String) :
    (demand.guarded clock).Behaves (Access.Converses asText key) (Access.Finds asText) := by
  cases demand with
  | check tenant name => exact hmessage.elim
  | operate op =>
    cases op with
    | inbound tenant counterparty text flow time hops =>
      obtain rfl : conversationKey tenant counterparty = key := hmessage
      exact ((Inbound.behaves_handle asText clock hops tenant counterparty text flow time).bind
        fun _ => .done _).guarded.bind fun _ => .done _
    | _ => exact hmessage.elim

theorem IsMessageOf.behaves_unlocked (hmessage : demand.IsMessageOf key) (asText : Prop)
    (clock : String) : (demand.guarded clock).unlocked.Behaves (Access.Converses asText key)
      (Access.Finds asText) := by
  rw [unlocked_guarded]
  cases demand with
  | check tenant name => exact hmessage.elim
  | operate op =>
    cases op with
    | inbound tenant counterparty text flow time hops =>
      obtain rfl : conversationKey tenant counterparty = key := hmessage
      exact ((Inbound.behaves_handle asText clock hops tenant counterparty text flow time).bind
        fun _ => .done _).bind fun _ => .done _
    | _ => exact hmessage.elim

end Demand

/-- Looking for a conversation accesses that conversation. -/
theorem Operation.behaves_getConversation (asText : Prop) (clock : String)
    (tenant counterparty : Value) :
    ((getConversation tenant counterparty).program clock).Behaves
      (Access.Converses asText (conversationKey tenant counterparty)) (Access.Finds asText) := by
  cases hkey : counterpartyKey counterparty with
  | error f =>
    have hfails : Store.getConversation clock tenant counterparty = .fail f := by
      unfold Store.getConversation
      rw [hkey]
      rfl
    rw [program, hfails]
    exact .fail f
  | ok key => exact Inbound.behaves_getConversation hkey fun _ _ => .done _

namespace Deployment

open Storage

variable {ι : Type} {k : Storage} {key own : Key} {n : Nat} {d d' : Deployment}
  {calls : ι → Asking} {keys : ι → Key}

/-- What behaves as a message does agrees on deployments that show its conversation alike. -/
theorem agrees_of_behaves {α : Type} {p : Program α}
    (hbehaves : p.Behaves (Access.Converses k.AsText key) (Access.Finds k.AsText))
    (hnamed : Identifier.IsName key.1) (clock : String) :
    Agrees (k.Sees key n) ((strokes ⟨n, n⟩ clock).run p) := by
  have hapart : Scene.Apart Same (fun key => k.Sees key n) (fun _ : Unit => key) _ _ _ :=
    apart_strokes (fun _ => hnamed) fun _ => clock
  have hanswers {a : Access} {d d' : Deployment} {r : a.Answer}
      (hconverses : a.Converses k.AsText key)
      (hsees : k.Sees key n d d') (hanswered : ((strokes ⟨n, n⟩ clock).access a d).1 = .ok r) :
      a.Finds k.AsText r := hapart.answers () hconverses hsees hanswered
  exact Program.agrees_of_behaves @hanswers
    (fun e d d' hsees => hsees.of_same (same_log e d) (same_log e d'))
    (fun a hconverses => hapart.agrees () hconverses) hbehaves

/-- What behaves as a message does spares what deployments show of other conversations. -/
theorem spares_of_behaves {α : Type} {p : Program α}
    (hbehaves : p.Behaves (Access.Converses k.AsText own) (Access.Finds k.AsText))
    (hnamed : Identifier.IsName own.1) (hdifferent : key ≠ own) (clock : String) :
    Run.Spares (k.Sees key n) ((strokes ⟨n, n⟩ clock).run p) := by
  have hapart : Scene.Apart Same (fun key => k.Sees key n) (fun _ : Unit => own) _ _ _ :=
    apart_strokes (fun _ => hnamed) fun _ => clock
  have hanswers {a : Access} {d d' : Deployment} {r : a.Answer}
      (hconverses : a.Converses k.AsText own)
      (hsees : k.Sees key n d d') (hanswered : ((strokes ⟨n, n⟩ clock).access a d).1 = .ok r) :
      a.Finds k.AsText r := hapart.answers () hconverses hsees hanswered
  exact Program.spares_of_behaves @hanswers
    (fun e d d' hsees => hsees.of_same (same_log e d) (equivalence_same.refl d'))
    (fun a hconverses => hapart.spares () hconverses hdifferent) hbehaves

/-- A message is answered alike where its conversation is seen alike. -/
theorem meet_of_sees {demand : Demand} (hmessage : demand.IsMessageOf key)
    (hsees : k.Sees key n d d') (clock : String) :
    (d.meet clock demand).1 = (d'.meet clock demand).1 ∧
      k.Sees key n (d.meet clock demand).2 (d'.meet clock demand).2 := by
  obtain ⟨hresult, hafter⟩ := meet_of_same hsees.engine (equivalence_same.refl d) clock demand
  obtain ⟨hresult', hafter'⟩ := meet_of_same hsees.engine' (equivalence_same.refl d') clock demand
  obtain ⟨hsame, hseen⟩ := agrees_of_behaves
    (hmessage.behaves_unlocked k.AsText clock)
    hmessage.named clock d d' hsees
  exact ⟨hresult.trans (hsame.trans hresult'.symm),
    hseen.of_same (equivalence_same.symm hafter) (equivalence_same.symm hafter')⟩

/-- A message changes nothing that is seen of other conversations. -/
theorem sees_meet {demand : Demand} (hmessage : demand.IsMessageOf own) (hdifferent : key ≠ own)
    (hsees : k.Sees key n d d') (clock : String) : k.Sees key n (d.meet clock demand).2 d' := by
  obtain ⟨-, hafter⟩ := meet_of_same hsees.engine (equivalence_same.refl d) clock demand
  have hseen := spares_of_behaves (hmessage.behaves_unlocked k.AsText clock)
    hmessage.named hdifferent clock d d' hsees
  exact hseen.of_same (equivalence_same.symm hafter) (equivalence_same.refl d')

/-- A conversation that is seen alike is found alike. -/
theorem call_of_sees {tenant counterparty : Value}
    (hsees : k.Sees (conversationKey tenant counterparty) n d d') (clock : String) :
    (d.call clock (.getConversation tenant counterparty)).1 =
      (d'.call clock (.getConversation tenant counterparty)).1 := by
  rw [call_eq_strokes hsees.engine, call_eq_strokes hsees.engine']
  exact (agrees_of_behaves (Operation.behaves_getConversation k.AsText clock tenant counterparty)
    (Identifier.isName_safeName tenant) clock _ _
    (hsees.of_same (same_setClock clock d) (same_setClock clock d'))).1

/-! ## Messages one after another -/

theorem sees_afterAll_of_ne (hmessages : ∀ i, (calls i).demand.IsMessageOf (keys i))
    {order : List ι} (hothers : ∀ i ∈ order, key ≠ keys i) (hsees : k.Sees key n d d') :
    k.Sees key n (d.afterAll (order.map calls)) d' := by
  induction order generalizing d with
  | nil => exact hsees
  | cons i rest ih =>
    obtain ⟨hdifferent, hothers⟩ := List.forall_mem_cons.1 hothers
    exact ih hothers (sees_meet (hmessages i) hdifferent hsees _)

/-- Where messages are handled one after another, each conversation is left as its message leaves
it.
-/
theorem sees_afterAll_of_mem (hmessages : ∀ i, (calls i).demand.IsMessageOf (keys i))
    (hdistinct : ∀ i j, keys i = keys j → i = j) {order : List ι} (hnodup : order.Nodup) {i : ι}
    (hlisted : i ∈ order) (hsees : k.Sees (keys i) n d d') :
    k.Sees (keys i) n (d.afterAll (order.map calls))
      (d'.meet (calls i).clock (calls i).demand).2 := by
  induction order generalizing d with
  | nil => cases hlisted
  | cons j rest ih =>
    obtain ⟨honce, hnodup⟩ := List.nodup_cons.1 hnodup
    rcases List.mem_cons.1 hlisted with rfl | hlater
    · have hafter := (meet_of_sees (hmessages i) hsees (calls i).clock).2
      have hothers : ∀ j ∈ rest, keys i ≠ keys j :=
        fun j hlater hsame => honce (hdistinct i j hsame ▸ hlater)
      exact (sees_afterAll_of_ne hmessages hothers hafter :)
    · have hdifferent : keys i ≠ keys j := fun hsame => honce (hdistinct i j hsame ▸ hlater)
      exact ih hnodup hlater (sees_meet (hmessages j) hdifferent hsees _)

/-! ## Messages side by side -/

theorem engine_of_keeps (hkeeps : k.Keeps n d) : d.engine = ⟨n, n⟩ :=
  (hkeeps ("default", "") Identifier.isName_default).engine

variable [DecidableEq ι]

/-- Messages that are handled side by side are on the way that each would take alone. -/
theorem along_playAll (hkeeps : k.Keeps n d)
    (hmessages : ∀ i, (calls i).demand.IsMessageOf (keys i))
    (hdistinct : ∀ i j, keys i = keys j → i = j) (schedule : List ι) :
    Scene.Along (fun key => k.Sees key n) keys (fun i a => a.Converses k.AsText (keys i))
      (Access.Finds k.AsText) (fun i => strokes ⟨n, n⟩ (calls i).clock)
      (fun i => (calls i).demand.guarded (calls i).clock) d (d.playAll calls schedule) := by
  have hnamed i := (hmessages i).named
  rw [playAll, engine_of_keeps hkeeps]
  exact Scene.along_play (apart_strokes hnamed fun i => (calls i).clock) hdistinct
    (fun i => hkeeps _ (hnamed i)) (fun i => (hmessages i).behaves_guarded k.AsText (calls i).clock)
    schedule

/-- Messages in different conversations, handled side by side, whatever the deployment keeps.  Each
of them can be brought to its end, and it is answered as it is alone.  All other conversations are
found as before.  Once the messages have ended, flows and conversations are what they are when the
messages are handled one after another, in any order, and every conversation is found as it is then.
-/
theorem answers_beside (hkeeps : k.Keeps n d)
    (hmessages : ∀ i, (calls i).demand.IsMessageOf (keys i))
    (hdistinct : ∀ i j, keys i = keys j → i = j) (schedule : List ι) :
    let scene := d.playAll calls schedule
    (∀ i, Scene.Ends (fun i => strokes d.engine (calls i).clock) i scene) ∧
      (∀ i answer, (scene.tasks i).result? = some answer →
        answer = (d.meet (calls i).clock (calls i).demand).1) ∧
      (∀ clock tenant counterparty, (∀ i, keys i ≠ conversationKey tenant counterparty) →
        (scene.state.call clock (.getConversation tenant counterparty)).1 =
          (d.call clock (.getConversation tenant counterparty)).1) ∧
      ∀ order : List ι, (∀ i, (scene.tasks i).result? ≠ none) → (∀ i, i ∈ order) → order.Nodup →
        (∀ key, Identifier.IsName key.1 →
          k.Sees key n scene.state (d.afterAll (order.map calls))) ∧
        ∀ clock tenant counterparty,
          (scene.state.call clock (.getConversation tenant counterparty)).1 =
            ((d.afterAll (order.map calls)).call clock
              (.getConversation tenant counterparty)).1 := by
  intro scene
  have halong := along_playAll hkeeps hmessages hdistinct schedule
  have halone (i : ι) := meet_of_same (engine_of_keeps hkeeps) (equivalence_same.refl d)
    (calls i).clock (calls i).demand
  have hothers (key : Key) (hnamed : Identifier.IsName key.1) (hfree : ∀ i, keys i ≠ key) :
      k.Sees key n scene.state d := halong.others key (hkeeps key hnamed) hfree
  refine ⟨halong.disciplined.ends _, fun i answer hended => ?_,
    fun clock tenant counterparty hfree => ?_, fun order hended hlisted hnodup => ?_⟩
  · exact (halong.result hended).1.trans (halone i).1.symm
  · exact call_of_sees (hothers _ (Identifier.isName_safeName tenant) hfree) clock
  · have hfinal (key : Key) (hnamed : Identifier.IsName key.1) :
        k.Sees key n scene.state (d.afterAll (order.map calls)) := by
      by_cases hown : ∃ i, keys i = key
      · obtain ⟨i, rfl⟩ := hown
        obtain ⟨answer, hanswered⟩ := Option.ne_none_iff_exists'.1 (hended i)
        have hreached : k.Sees (keys i) n scene.state (d.meet (calls i).clock (calls i).demand).2 :=
          (halong.result hanswered).2.of_same (equivalence_same.refl _)
            (equivalence_same.symm (halone i).2)
        exact hreached.trans
          (sees_afterAll_of_mem hmessages hdistinct hnodup (hlisted i) (hkeeps _ hnamed)).symm
      · have hfree : ∀ i, keys i ≠ key := fun i hsame => hown ⟨i, hsame⟩
        exact (hothers key hnamed hfree).trans
          (sees_afterAll_of_ne hmessages (fun i _ => (hfree i).symm) (hkeeps _ hnamed)).symm
    exact ⟨hfinal, fun clock tenant counterparty =>
      call_of_sees (hfinal _ (Identifier.isName_safeName tenant)) clock⟩

/-- A deployment with a flow in a file. -/
def stocked : Deployment :=
  let city := Json.pretty (.dict Inbound.cityFlow.document)
  { clock := "t0"
    files := [(["data"], .directory), (["data", "state"], .directory),
      (["data", "acme"], .directory), (["data", "acme", "flows"], .directory),
      (["data", "acme", "flows", "city.json"], .file (.text city))]
    stores := [.directory (Path.ofText "data")] }

/-- Two counterparties of one tenant greet. -/
def greetingPair (second : Bool) : Asking :=
  ⟨"t1", .operate (.inbound (.str "Acme") (.str (if second then "+2" else "+1")) (some "hi") "city"
    none 8)⟩

/-- Two greetings that are handled side by side leave what they leave in either order, though the
conversations lie in one file. -/
theorem answers_beside_greetings : ∃ schedule,
    let scene := stocked.playAll greetingPair schedule
    (∀ i, (scene.tasks i).result? ≠ none) ∧
      (∀ i answer, (scene.tasks i).result? = some answer →
        answer = (stocked.meet "t1" (greetingPair i).demand).1) ∧
      ∀ order ∈ [[false, true], [true, false]],
        (∀ key, Identifier.IsName key.1 →
          (Storage.files (Path.ofText "data")).Sees key 0 scene.state
          (stocked.afterAll (order.map greetingPair))) ∧
        ∀ clock tenant counterparty,
          (scene.state.call clock (.getConversation tenant counterparty)).1 =
            ((stocked.afterAll (order.map greetingPair)).call clock
              (.getConversation tenant counterparty)).1 := by
  have hkeeps : (Storage.files (Path.ofText "data")).Keeps 0 stocked :=
    keeps_files rfl rfl
      (show Directory.Laid (Path.ofText "data") ["data"] stocked.files from ⟨rfl, rfl, rfl, rfl⟩)
  have hmessages (i : Bool) :
      (greetingPair i).demand.IsMessageOf ("acme", if i then "2" else "1") := by
    cases i
    · exact show conversationKey (.str "Acme") (.str "+1") = ("acme", "1") by decide +kernel
    · exact show conversationKey (.str "Acme") (.str "+2") = ("acme", "2") by decide +kernel
  have hdistinct (i j : Bool) (hsame : ("acme", if i then "2" else "1") =
      (("acme", if j then "2" else "1") : Key)) : i = j := by
    cases i <;> cases j <;> simp_all
  obtain ⟨schedule, hended⟩ := (Scene.disciplined_start stocked _).exists_all_end
    (fun i => strokes stocked.engine (greetingPair i).clock) [false, true]
  have hended (i : Bool) : ((stocked.playAll greetingPair schedule).tasks i).result? ≠ none :=
    hended i (by cases i <;> simp)
  obtain ⟨-, hanswers, -, hfinal⟩ := answers_beside hkeeps hmessages hdistinct schedule
  refine ⟨schedule, hended, ?_, fun order heither => ?_⟩
  · intro i answer htold
    exact (hanswers i answer htold).trans (by cases i <;> rfl)
  · have hcomplete : (∀ i, i ∈ order) ∧ order.Nodup := by
      simp only [List.mem_cons, List.not_mem_nil, or_false] at heither
      rcases heither with rfl | rfl <;> decide
    exact hfinal order hended hcomplete.1 hcomplete.2

end Deployment

end Dialogue
