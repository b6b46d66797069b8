import Dialogue.Proofs.Deployment.Holding

/-!
# Conversations that are put and found again

A conversation that is put is found again under every spelling of its tenant and its counterparty,
as the same document, and every other conversation is found as before.  There is one exception: a
row of a database keeps its document where the new one counts as the same (`Storage.Retains`), and
values count as the same that are different documents, such as `true`, `1` and `1.0`.  So the
conversation is found as it was put exactly if the document that stays is read as this conversation
(`Deployment.recalls_put_iff`).

The conversation may be any that was read from a document, with extras and with numbers that are not
finite, and it does not matter what the deployment keeps.
-/

namespace Dialogue

open Store Run

/-! ## Documents that are alike -/

namespace Value

mutual
/-- Whether two documents are the same: of one kind, lists item by item, objects by their keys. -/
def alike : Value → Value → Bool
  | .list a, .list b => alikeList a b
  | .dict a, .dict b => a.length == b.length && alikeFields a b
  | v, w => v.eq w

/-- Whether lists are the same documents, item by item. -/
def alikeList : List Value → List Value → Bool
  | [], [] => true
  | v :: r, w :: s => v.alike w && alikeList r s
  | _, _ => false

/-- Whether every entry is the same document as the one that has its key among others. -/
def alikeFields : List (String × Value) → Fields → Bool
  | [], _ => true
  | (k, v) :: r, others => ((Fields.get? others k).any fun w => v.alike w) && alikeFields r others
end

mutual
theorem alike_self (v : Value) (hdocument : v.IsDocument) : v.alike v = true := by
  cases v with
  | list items => exact alikeList_self items hdocument
  | dict fields =>
    rw [alike, beq_self_eq_true, Bool.true_and]
    exact alikeFields_self fields fields hdocument.2 fun e hlisted =>
      Keyed.get?_eq_some_of_mem hdocument.1 hlisted
  | moment m => exact hdocument.elim
  | table entries => exact hdocument.elim
  | null | bool | int | double | str => simp [alike, eq]

theorem alikeList_self (vs : List Value) (hdocuments : IsDocumentList vs) :
    alikeList vs vs = true := by
  cases vs with
  | nil => rfl
  | cons v rest => simp [alikeList, alike_self v hdocuments.1, alikeList_self rest hdocuments.2]

theorem alikeFields_self (es : List (String × Value)) (fields : Fields)
    (hdocuments : IsDocumentFields es)
    (hwithin : ∀ e ∈ es, Fields.get? fields e.1 = some e.2) : alikeFields es fields = true := by
  cases es with
  | nil => rfl
  | cons e rest =>
    obtain ⟨k, v⟩ := e
    obtain ⟨hfirst, hothers⟩ := List.forall_mem_cons.1 hwithin
    simp [alikeFields, hfirst, alike_self v hdocuments.1,
      alikeFields_self rest fields hdocuments.2 hothers]
end

/-- The document is read as the conversation, at whatever time. -/
def Tells (v : Value) (c : Conversation) : Prop :=
  ∀ clock, ∃ b, Conversation.ofValue clock v = .ok b ∧
    (Value.dict b.document).alike (.dict c.document) = true

end Value

namespace Storage

variable {k : Storage} {n : Nat} {d : Deployment} {tenant counterparty : Value} {number : String}
  {key : Key} {c : Conversation} {doc held : Value}

/-- A row is there whose document counts as the same as one that is put, so that it stays. -/
def Retains (k : Storage) (n : Nat) (d : Deployment) (key : Key) (doc held : Value) : Prop :=
  ∃ location m, k = table location ∧ k.Shows n d m ∧ m.conversations.get? key = some held ∧
    doc.same held = true

/-- Rows are there that the contents of a database have. -/
theorem retains_iff {location : Database.Location} {m : Memory}
    (hshows : (table location).Shows n d m) :
    (table location).Retains n d key doc held ↔
      m.conversations.get? key = some held ∧ doc.same held = true := by
  refine ⟨?_, fun ⟨hthere, hsame⟩ => ⟨location, m, rfl, hshows, hthere, hsame⟩⟩
  rintro ⟨_, m', ⟨⟩, hshows', hthere', hsame⟩
  obtain ⟨address, f, c, hthere, -, hshows⟩ := hshows
  obtain ⟨address', f', c', hagain, -, hshows'⟩ := hshows'
  obtain ⟨⟩ := hthere.symm.trans hagain
  obtain rfl : m = m' := hshows.unique hshows'
  exact ⟨hthere', hsame⟩

theorem Retains.unique {held' : Value} (hretains : k.Retains n d key doc held)
    (hretains' : k.Retains n d key doc held') : held = held' := by
  obtain ⟨location, m, rfl, hshows, hthere, -⟩ := hretains
  exact Option.some.inj (hthere.symm.trans ((retains_iff hshows).1 hretains').1)

theorem not_retains (hkind : ∀ location, k ≠ table location) :
    ¬ k.Retains n d key doc held :=
  fun ⟨location, _, hsame, _⟩ => hkind location hsame

/-- The conversations of a tenant can be put: in files, the one that has them can be read, and its
name is not too long. -/
def Accepts : Storage → Value → Deployment → Prop
  | files dir, tenant, d =>
    Directory.isTooLong (Directory.statePath dir (Identifier.safeName tenant)) = false ∧
      ∃ state, Directory.stateIn dir (Identifier.safeName tenant) d.files = .ok state
  | _, _, _ => True

/-- A document of a conversation is there under a key. -/
def Finds (k : Storage) (n : Nat) (tenant number : String) (doc : Value) (d : Deployment) : Prop :=
  k.Has (fun m => Memory.document? m.conversations (tenant, number) = some doc)
    (fun dir files => (Directory.stateIn dir tenant files).map
      (fun state => Directory.conversationOf (Fields.get? state number)) = .ok (some doc)) n d

theorem Finds.fetch {tenant : String} (hfinds : k.Finds n tenant number doc d) (clock : String) :
    (Deployment.accessStore n (.fetchConversation tenant number) { d with clock }).1 =
      .ok (some doc) := by
  have has : k.Finds n tenant number doc { d with clock } := by
    cases k <;> exact hfinds
  have hfetched : (Deployment.accessStore n (.fetchConversation tenant number)
      { d with clock }).1 = .ok (some doc) ∧ k.Has (fun _ => True) (fun _ _ => True) n
        (Deployment.accessStore n (.fetchConversation tenant number) { d with clock }).2 := by
    refine Has.accessStore (a := .fetchConversation tenant number) (Q := (· = .ok (some doc))) has
      (fun m events hseen => ?_)
      (fun m hseen => ?_) fun dir _ files events hlies => ?_
    · exact ⟨congrArg Except.ok hseen, trivial⟩
    · exact ⟨congrArg Except.ok hseen, trivial⟩
    · obtain ⟨events', hran⟩ :=
        Directory.exists_fetchConversation clock dir tenant number files events
      refine ⟨?_, trivial⟩
      rw [hran, ← hlies]
      cases Directory.stateIn dir tenant files <;> rfl
  exact hfetched.1

/-- What comes of putting the conversation of a tenant: it is put if it is accepted, and then the
document is there that stays, or the new one if none does. -/
structure Puts (k : Storage) (n : Nat) (d : Deployment) (tenant : Value) (number : String)
    (doc : Value) : Prop where
  accepted : (Deployment.accessStore n
    (.putConversation (Identifier.safeName tenant) number doc) d).1 = .ok () ↔ k.Accepts tenant d
  finds : (Deployment.accessStore n
      (.putConversation (Identifier.safeName tenant) number doc) d).1 = .ok () →
    (∀ held, k.Retains n d (Identifier.safeName tenant, number) doc held →
      k.Finds n (Identifier.safeName tenant) number held (Deployment.accessStore n
        (.putConversation (Identifier.safeName tenant) number doc) d).2) ∧
    ((∀ held, ¬ k.Retains n d (Identifier.safeName tenant, number) doc held) →
      k.Finds n (Identifier.safeName tenant) number doc (Deployment.accessStore n
        (.putConversation (Identifier.safeName tenant) number doc) d).2)

theorem puts_memory {m : Memory} (hthere : d.stores[n]? = some (.memory m)) (hsound : c.IsSound)
    (tenant : Value) (number : String) : memory.Puts n d tenant number c.written := by
  constructor <;> rw [Deployment.accessStore, store_eq hthere]
  · exact iff_of_true rfl trivial
  · refine fun _ => ⟨fun held hstays => (not_retains (by simp) hstays).elim, fun _ =>
      ⟨_, getElem?_setStore hthere, ?_⟩⟩
    simp [Memory.document?, Option.filter, hsound.isEmpty_written]

theorem puts_files {dir : Path} {base : Place} (hthere : d.stores[n]? = some (.directory dir))
    (hlaid : Directory.Laid dir base d.files) (hsound : c.IsSound) (tenant : Value)
    (number : String) : (files dir).Puts n d tenant number c.written := by
  obtain ⟨r, files', events', hran, hputs⟩ := Directory.exists_putConversation hlaid
    (Identifier.isName_safeName tenant) d.clock number
    (Value.IsPlain.isJson _ hsound.isPlain_written) d.events
  have hresult := hputs.result
  have hstate := hputs.state
  constructor <;> rw [Deployment.accessStore, store_eq hthere] <;>
    simp only [Deployment.onFiles, Run.zoom_apply, hran]
  · rw [hresult, Accepts]
    cases Directory.stateIn dir (Identifier.safeName tenant) d.files <;> simp [Except.bind]
  · refine fun hdone => ⟨fun held hstays => (not_retains (by simp) hstays).elim,
      fun _ => ⟨hthere, ?_⟩⟩
    rw [hdone] at hresult
    rw [hstate]
    cases hfound : Directory.stateIn dir (Identifier.safeName tenant) d.files with
    | error f =>
      rw [hfound] at hresult
      cases hresult
    | ok fields =>
      have hshort : Directory.isTooLong (Directory.statePath dir (Identifier.safeName tenant)) =
          false := by
        refine Bool.eq_false_iff.2 fun hlong => ?_
        rw [hfound, hlong] at hresult
        cases hresult
      simp [Except.map, hshort, Fields.get?, Directory.conversationOf, Conversation.written]

/-- In a table a row is written whose document is the new one, or the one that it keeps. -/
theorem puts_table {location : Database.Location} {m : Memory}
    (hshows : (table location).Shows n d m) (hsound : c.IsSound) (tenant : Value)
    (number : String) :
    (table location).Puts n d tenant number c.written := by
  have hretains (held : Value) :
      (table location).Retains n d (Identifier.safeName tenant, number) c.written held ↔
        m.conversations.get? (Identifier.safeName tenant, number) = some held ∧
          c.written.same held = true := retains_iff hshows
  obtain ⟨address, f, c', hthere, hknown, hshows⟩ := hshows
  have htold := Table.access_comesTo hknown hshows d.clock d.settings.database.url d.events
    (.putConversation (Identifier.safeName tenant) number c.written)
  obtain ⟨row, hmade, hdocument⟩ := Table.conversationRow_of_isSound hsound
    ((m.conversations.get? (Identifier.safeName tenant, number)).map
      fun document => ⟨.null, .null, document⟩)
  have hran : Table.outcome d.clock
      (.putConversation (Identifier.safeName tenant) number c.written) ⟨m, []⟩ =
        (.ok (), ⟨m.withConversation (Identifier.safeName tenant, number) row.document, []⟩) := by
    simp only [Table.outcome, Memory.reads_bind, hmade]
    rfl
  rw [hran] at htold
  have hlies {doc : Value} (hwritten : row.document = doc) (hnonempty : doc.isEmpty = false) :
      (table location).Finds n (Identifier.safeName tenant) number doc
        (Deployment.onTable n address f c' (Table.access d.clock (d.addressOr address)
          d.settings.database.url
          (.putConversation (Identifier.safeName tenant) number c.written)) d).2 := by
    refine ⟨_, ⟨address, _, _, getElem?_setStore hthere, hknown, htold.shows⟩, ?_⟩
    simp [Memory.document?, Memory.withConversation, Option.filter, hwritten, hnonempty]
  rw [Option.map_map] at hdocument
  have hkept : row.document = Table.kept
      (m.conversations.get? (Identifier.safeName tenant, number)) c.written := by
    rw [hdocument]
    cases m.conversations.get? (Identifier.safeName tenant, number) <;> rfl
  constructor <;> rw [Deployment.accessStore, store_eq hthere]
  · exact iff_of_true htold.result trivial
  · simp only [hretains]
    refine fun _ => ⟨?_, fun hfree => ?_⟩
    · rintro held ⟨hrow, hsame⟩
      refine hlies ?_ (hsound.isEmpty_of_same hsame)
      rw [hkept, hrow]
      exact if_pos hsame
    · rcases Table.kept_cases (m.conversations.get? (Identifier.safeName tenant, number)) c.written
        with ⟨hwritten, -⟩ | ⟨held, hrow, hsame, -⟩
      · exact hlies (hkept.trans hwritten) hsound.isEmpty_written
      · exact absurd ⟨hrow, hsame⟩ (hfree held)

theorem Keeps.put (hkeeps : k.Keeps n d) (hsound : c.IsSound) (tenant : Value) (number : String) :
    k.Puts n d tenant number c.written := by
  have hnamed := Identifier.isName_safeName tenant
  have hrelates := (hkeeps (Identifier.safeName tenant, number) hnamed).relates
  cases k with
  | memory =>
    obtain ⟨m, -, hthere, -⟩ := hrelates
    exact puts_memory hthere hsound tenant number
  | files dir =>
    obtain ⟨hthere, -, base, hsees⟩ := hrelates
    exact puts_files hthere hsees.laid hsound tenant number
  | table location =>
    obtain ⟨m, -, hshows, -⟩ := hrelates
    exact puts_table hshows hsound tenant number

end Storage

namespace Deployment

open Storage

variable {k : Storage} {n : Nat} {d : Deployment} {now : String} {tenant counterparty v : Value}
  {c : Conversation}

/-- A conversation is found as it is, under every spelling of its tenant and its counterparty. -/
def Recalls (d : Deployment) (tenant counterparty : Value) (c : Conversation) : Prop :=
  ∀ clock tenant' counterparty', Identifier.safeName tenant' = Identifier.safeName tenant →
    Identifier.digits counterparty' = Identifier.digits counterparty →
      ∃ b, (d.call clock (.getConversation tenant' counterparty')).1 =
        .ok (.conversation (some b)) ∧
        (Value.dict b.document).alike (.dict c.document) = true

/-- A conversation is found as it is exactly if the document that is there is read as it. -/
theorem recalls_iff_tells {doc : Value} (hengine : d.engine = ⟨n, n⟩)
    (hdigit : Identifier.digits counterparty ≠ "")
    (hfinds : k.Finds n (Identifier.safeName tenant) (Identifier.digits counterparty) doc d) :
    d.Recalls tenant counterparty c ↔ doc.Tells c := by
  have hfetched (clock : String) {tenant' counterparty' : Value}
      (hsameTenant : Identifier.safeName tenant' = Identifier.safeName tenant)
      (hsameDigits : Identifier.digits counterparty' = Identifier.digits counterparty) :
      (d.call clock (.getConversation tenant' counterparty')).1 =
        .ok (.conversation (Conversation.read? clock (some doc))) := by
    have hfound := hfinds.fetch clock
    rw [← access_one, ← hengine] at hfound
    rw [call_getConversation_eq (counterpartyKey_of_digits (hsameDigits ▸ hdigit)), hsameTenant,
      hsameDigits]
    exact congrArg _ hfound
  constructor
  · intro hrecalls clock
    obtain ⟨b, hfound, hsame⟩ := hrecalls clock tenant counterparty rfl rfl
    rw [hfetched clock rfl rfl] at hfound
    have hread := Operation.Answer.conversation.inj (Except.ok.inj hfound)
    obtain ⟨doc', held, hparsed⟩ := Option.bind_eq_some_iff.1 hread
    obtain rfl : doc = doc' := by simpa using (Option.filter_eq_some_iff.1 held).1
    refine ⟨b, ?_, hsame⟩
    cases hthere : Conversation.ofValue clock doc <;> rw [hthere] at hparsed <;> cases hparsed
    rfl
  · intro htells clock tenant' counterparty' hsameTenant hsameDigits
    obtain ⟨b, hread, hsame⟩ := htells clock
    exact ⟨b, by rw [hfetched clock hsameTenant hsameDigits, Conversation.read?_of_ofValue hread],
      hsame⟩

/-- Putting a conversation is one access. -/
theorem run_setConversation (hengine : d.engine = ⟨n, n⟩)
    (hdigit : Identifier.digits counterparty ≠ "") (c : Conversation) :
    run d.engine (setConversation tenant counterparty c) d = accessStore n (.putConversation
      (Identifier.safeName tenant) (Identifier.digits counterparty) c.plain.written) d := by
  rw [run, setConversation_eq (counterpartyKey_of_digits hdigit), hengine, Conversation.written,
    Conversation.document_plain]
  simp only [Program.run, access_one, Run.bind]
  rcases accessStore n _ d with ⟨f | r, t⟩ <;> rfl

/-- What is put under one key is not seen under another. -/
theorem sees_setConversation {key : Key} (hengine : d.engine = ⟨n, n⟩) (hsees : k.Sees key n d d)
    (hdigit : Identifier.digits counterparty ≠ "") (hwritable : c.IsWritable)
    (hother : key ≠ conversationKey tenant counterparty) :
    k.Sees key n (run d.engine (setConversation tenant counterparty c) d).2 d := by
  have hbehaves : (setConversation tenant counterparty c).Behaves
      (Access.Converses k.AsText (conversationKey tenant counterparty))
      (Access.Finds k.AsText) := by
    rw [setConversation_eq (counterpartyKey_of_digits hdigit)]
    exact .access ⟨rfl, fun _ => Value.IsPlain.isJson _ hwritable.isPlain_document⟩
      fun _ _ => .done _
  have hspares :=
    spares_of_behaves hbehaves (Identifier.isName_safeName tenant) hother d.clock d d hsees
  rwa [run_strokes _ rfl, ← hengine] at hspares

/-- A conversation that was read from a document is put, whatever the deployment keeps.  It is found
as it was put exactly if no row stays that is read as something else, and every other conversation
is found as before. -/
theorem recalls_put_iff (hkeeps : k.Keeps n d) (hdocument : v.IsDocument)
    (hread : Conversation.ofValue now v = .ok c) (hdigit : Identifier.digits counterparty ≠ "") :
    let put := run d.engine (setConversation tenant counterparty c) d
    (put.1 = .ok () ↔ k.Accepts tenant d) ∧
      (put.1 = .ok () → (put.2.Recalls tenant counterparty c ↔ ∀ held,
        k.Retains n d (conversationKey tenant counterparty) (.dict c.document) held →
          held.Tells c)) ∧
      ∀ clock tenant' counterparty',
        conversationKey tenant' counterparty' ≠ conversationKey tenant counterparty →
          (put.2.call clock (.getConversation tenant' counterparty')).1 =
            (d.call clock (.getConversation tenant' counterparty')).1 := by
  intro put
  have hengine := engine_of_keeps hkeeps
  have hsound := Conversation.isSound_plain_of_ofValue hdocument hread
  have hran : put = _ := run_setConversation hengine hdigit c
  have hengine' : put.2.engine = ⟨n, n⟩ := by rw [hran, engine_accessStore, hengine]
  obtain ⟨haccepted, hfinds⟩ := hkeeps.put hsound tenant (Identifier.digits counterparty)
  rw [← hran] at haccepted hfinds
  refine ⟨haccepted, fun hdone => ?_, fun clock tenant' counterparty' hother => ?_⟩
  · obtain ⟨hstays, hlies⟩ := hfinds hdone
    rw [Conversation.written, Conversation.document_plain] at hstays hlies
    by_cases hretains : ∃ held,
        k.Retains n d (conversationKey tenant counterparty) (.dict c.document) held
    · obtain ⟨held, hretains⟩ := hretains
      rw [recalls_iff_tells hengine' hdigit (hstays held hretains)]
      exact ⟨fun htells _ hstays => hretains.unique hstays ▸ htells, fun hall => hall held hretains⟩
    · rw [recalls_iff_tells hengine' hdigit (hlies (not_exists.1 hretains))]
      refine iff_of_true (fun clock => ?_) fun held hstays => absurd ⟨held, hstays⟩ hretains
      refine ⟨c.plain, ?_, ?_⟩
      · rw [← Conversation.document_plain]
        exact hsound.ofValue_document clock
      · rw [Conversation.document_plain]
        exact Value.alike_self _
          (Conversation.isWritable_of_ofValue hdocument hread).isPlain_document.1
  · exact call_of_sees (sees_setConversation hengine (hkeeps _ (Identifier.isName_safeName tenant'))
      hdigit (Conversation.isWritable_of_ofValue hdocument hread) hother) clock

/-! ### A truth value for a number -/

/-- A conversation with a flow in which a value was collected. -/
def collecting (n : Value) : Conversation :=
  { flow := "city", startedAt := "t1", updatedAt := .str "t1", data := [("n", n)] }

/-- A deployment with a row of a conversation in a database in a file. -/
def rowed : Deployment :=
  let row : Database.ConversationRow :=
    { flow := .str "city", completedAt := .null, document := (collecting (.bool true)).written }
  { clock := "t0"
    files := [(["flows.db"], .file (.database { conversations := [(("acme", "1"), row)] }))]
    stores := [.table (.str "sqlite:///flows.db") false false] }

theorem shows_rowed : (table (.file ⟨"", ["flows.db"]⟩ true)).Shows 0 rowed
    { conversations := [(("acme", "1"), (collecting (.bool true)).written)] } := by
  have hserves : Database.Site.Serves (.file ⟨"", ["flows.db"]⟩ true)
      ⟨rowed.files, rowed.connection⟩ (some _) :=
    { connected := fun _ hopen => nomatch hopen
      holds := ⟨["flows.db"], rfl, rfl⟩ }
  exact ⟨_, false, false, rfl, Database.isAddressOf_of_location (by decide +kernel), _, hserves,
    rfl, by simp⟩

theorem keeps_rowed : (table (.file ⟨"", ["flows.db"]⟩ true)).Keeps 0 rowed :=
  keeps_table rfl shows_rowed (by simp)

/-- The document of a conversation with extras, in which a number is not finite. -/
def annotated : Value :=
  .dict [("flow", .str "city"), ("startedAt", .str "t1"), ("updatedAt", .str "t1"),
    ("data", .dict [("n", .int 1)]), ("note", .double Double.nan)]

/-- The conversation that is read from it. -/
def annotatedConversation : Conversation :=
  { collecting (.int 1) with extras := [("note", .double Double.nan)] }

/-- A conversation with a note is found as it is, since it does not count as the same as the row. -/
theorem recalls_put_iff_annotated :
    let put := run rowed.engine
      (setConversation (.str "Acme") (.str "+1") annotatedConversation) rowed
    annotated.IsDocument ∧ Conversation.ofValue "t2" annotated = .ok annotatedConversation ∧
      put.1 = .ok () ∧ put.2.Recalls (.str "Acme") (.str "+1") annotatedConversation := by
  intro put
  have hdocument : annotated.IsDocument := by
    simp [annotated, Value.IsDocument, Value.IsDocumentFields]
  have hread : Conversation.ofValue "t2" annotated = .ok annotatedConversation := rfl
  have hdigit : Identifier.digits (.str "+1") ≠ "" := by decide +kernel
  obtain ⟨haccepted, hrecalls, -⟩ : (put.1 = .ok () ↔ _) ∧
      (put.1 = .ok () → (put.2.Recalls (.str "Acme") (.str "+1") annotatedConversation ↔ _)) ∧ _ :=
    recalls_put_iff keeps_rowed hdocument hread hdigit
  refine ⟨hdocument, hread, haccepted.2 trivial,
    (hrecalls (haccepted.2 trivial)).2 fun held hstays => ?_⟩
  obtain ⟨hthere, hsame⟩ := (retains_iff shows_rowed).1 hstays
  obtain rfl : (collecting (.bool true)).written = held := by
    have hkey : conversationKey (.str "Acme") (.str "+1") = ("acme", "1") := by decide +kernel
    rw [hkey] at hthere
    exact Option.some.inj hthere
  have hdifferent : (Value.dict annotatedConversation.document).same
      (collecting (.bool true)).written = false := by decide +kernel
  rw [hdifferent] at hsame
  cases hsame

/-- A conversation that is put is not always found as it was put: a row with a truth value stays
where the number one is put in its place. -/
theorem not_recalls_put :
    ¬ ∀ (k : Storage) (n : Nat) (d : Deployment) (now : String) (tenant counterparty v : Value)
      (c : Conversation), k.Keeps n d → v.IsDocument → Conversation.ofValue now v = .ok c →
        Identifier.digits counterparty ≠ "" →
          (run d.engine (setConversation tenant counterparty c) d).1 = .ok () →
            (run d.engine (setConversation tenant counterparty c) d).2.Recalls tenant counterparty
              c := by
  intro halways
  have hdigit : Identifier.digits (.str "+1") ≠ "" := by decide +kernel
  have hread : Conversation.ofValue "t2" (collecting (.int 1)).written =
      .ok (collecting (.int 1)) := rfl
  have hdocument : (collecting (.int 1)).written.IsDocument := by
    simp [collecting, Conversation.written, Conversation.document, Conversation.entries,
      Value.IsDocument, Value.IsDocumentFields, Value.plainFields, Value.plain]
  have hsound := Conversation.isSound_plain_of_ofValue hdocument hread
  have hran :
      run rowed.engine (setConversation (.str "Acme") (.str "+1") (collecting (.int 1))) rowed =
        _ := run_setConversation rfl hdigit _
  obtain ⟨haccepted, hfinds⟩ := keeps_rowed.put hsound (.str "Acme") (Identifier.digits (.str "+1"))
  rw [← hran] at haccepted hfinds
  have hrow :
      (Identifier.safeName (.str "Acme"), Identifier.digits (.str "+1")) = ("acme", "1") := by
    decide +kernel
  have hstays := (hfinds (haccepted.2 trivial)).1 (collecting (.bool true)).written
    ((retains_iff shows_rowed).2 ⟨hrow ▸ rfl, by decide +kernel⟩)
  have hrecalls :=
    halways _ 0 rowed "t2" (.str "Acme") (.str "+1") _ _ keeps_rowed hdocument hread hdigit
    (haccepted.2 trivial)
  have hengine : (run rowed.engine (setConversation (.str "Acme") (.str "+1")
      (collecting (.int 1))) rowed).2.engine = ⟨0, 0⟩ := by
    rw [hran, engine_accessStore]
    rfl
  obtain ⟨b, hreads, hsame⟩ := (recalls_iff_tells hengine hdigit hstays).1 hrecalls "t2"
  obtain rfl : collecting (.bool true) = b := Except.ok.inj hreads
  have hdifferent : (Value.dict (collecting (.bool true)).document).alike
      (.dict (collecting (.int 1)).document) = false := by decide +kernel
  rw [hdifferent] at hsame
  cases hsame

end Deployment

end Dialogue
