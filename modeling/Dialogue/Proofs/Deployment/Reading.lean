import Dialogue.Proofs.Deployment.History

/-!
# What a deployment finds

A deployment that keeps contents finds every flow and every conversation that they hold, whatever
the names are (`Storage.Serves.load`, `Storage.Serves.call_getConversation`), and it finds nothing
else (`Storage.Serves.mem_of_call`).  So what is listed can be found.

A deployment in memory whose process goes on, one in files and one in a database give the same
answers to the same operations, however often the processes of the latter two start over in between
(`Deployment.answers_agree`).  At the end each of them lists what it finds.
-/

namespace Dialogue.Storage

open Store Keyed

variable {k : Storage} {r : Backend.Request} {now clock : String} {n : Nat} {d : Deployment}
  {m : Memory} {tenant counterparty name : Value} {c : Conversation}

/-- An access of a call goes as the contents say. -/
theorem Serves.follows (hserves : k.Serves r now n d m) (htidy : m.Tidy) (clock : String)
    (a : Access) (hproper : a.Proper) :
    Follows clock k.Takes (k.Serves r clock n) m a
      (Deployment.access d.engine a { d with clock }) := by
  have hsame : Deployment.access d.engine a { d with clock } =
      Deployment.access ⟨n, n⟩ a { d with clock } :=
    congrArg (fun e => Deployment.access e a { d with clock }) hserves.engine
  rw [hsame]
  exact (mirrors k r clock n).access a (hserves.setClock clock) htidy hproper

/-- A call of one access answers what the access does. -/
theorem call_eq {op : Operation} (a : Access) {f : a.Answer → Operation.Answer}
    (hsingle : op.program clock = .access a fun found => .done (f found)) :
    d.call clock op =
      match Deployment.access d.engine a { d with clock } with
      | (.ok found, t) => (.ok (f found), t)
      | (.error fault, t) => (.error fault, t) := by
  rw [Deployment.call, Deployment.run, hsingle]
  simp only [Program.run, Run.bind]
  rcases Deployment.access d.engine a { d with clock } with ⟨f | found, t⟩ <;> rfl

/-- A flow that is there is found, if it can be read. -/
theorem Serves.load (hserves : k.Serves r now n d m) (htidy : m.Tidy)
    (hthere : flowKey tenant name ∈ keys m.flows) (hreads : m.Reads clock (flowKey tenant name)) :
    (d.call clock (.loadFlow tenant name)).1 =
      .ok (.found (m.flow? clock (flowKey tenant name))) := by
  have hfollows := hserves.follows htidy clock (.loadFlow tenant name) trivial
  rw [call_eq (.loadFlow tenant name) rfl]
  revert hfollows
  rcases Deployment.access d.engine (.loadFlow tenant name) { d with clock } with ⟨f | found, t⟩
  · intro hfollows
    exact absurd ⟨hreads, .inl hthere⟩ hfollows.1
  · intro hfollows
    rw [show found = _ from hfollows.1]
    rfl

theorem Serves.load_of_flow? (hserves : k.Serves r now n d m) (htidy : m.Tidy) {flow : Flow}
    (hthere : m.flow? clock (flowKey tenant name) = some flow) :
    (d.call clock (.loadFlow tenant name)).1 = .ok (.found (some flow)) := by
  obtain ⟨written, -, hlisted, hread⟩ := exists_of_flow? htidy hthere
  have hreads : m.Reads clock (flowKey tenant name) := by
    intro doc hfound
    rw [Memory.document?_flows htidy, get?_eq_some_of_mem htidy.flowKeys hlisted] at hfound
    cases hfound
    exact ⟨flow, hread⟩
  rw [hserves.load htidy (mem_keys_of_mem hlisted) hreads, hthere]

/-- What is done once a conversation was fetched. -/
theorem call_getConversation_eq {key : String} (hkey : counterpartyKey counterparty = .ok key) :
    (d.call clock (.getConversation tenant counterparty)).1 =
      (Deployment.access d.engine (.fetchConversation (Identifier.safeName tenant) key)
        { d with clock }).1.map fun found =>
          .conversation ((found.filter fun doc => !doc.isEmpty).bind fun doc =>
            (Conversation.ofValue clock doc).toOption) := by
  rw [Deployment.call, Deployment.run, Operation.program, getConversation_eq hkey]
  simp only [Program.bind, Program.run, Run.bind]
  rcases Deployment.access d.engine (.fetchConversation (Identifier.safeName tenant) key)
    { d with clock } with ⟨f | found, t⟩
  · rfl
  · cases found with
    | none => rfl
    | some doc =>
      cases hempty : doc.isEmpty with
      | true => simp [hempty, Program.bind, Program.run, Run.pure, Except.map, Option.filter]
      | false =>
        cases hread : Conversation.ofValue clock doc <;>
          simp [hempty, hread, Program.bind, Program.run, Run.pure, Except.map, Except.toOption,
            Option.filter]

/-- A fetch that goes as the contents say comes to the conversation that they hold. -/
theorem Serves.answer_getConversation (hserves : k.Serves r now n d m) (htidy : m.Tidy)
    (clock : String) (tenant : Value) {key : String}
    (hkey : counterpartyKey counterparty = .ok key) :
    (d.call clock (.getConversation tenant counterparty)).1 =
        .ok (.conversation (m.conversation? clock (Identifier.safeName tenant, key))) ∨
      ∃ f, (d.call clock (.getConversation tenant counterparty)).1 = .error f ∧
        (Identifier.safeName tenant, key) ∉ keys m.conversations := by
  have hfollows := hserves.follows htidy clock (.fetchConversation (Identifier.safeName tenant) key)
    (isOfConversation_of_counterpartyKey hkey tenant)
  rw [call_getConversation_eq hkey]
  revert hfollows
  rcases Deployment.access d.engine (.fetchConversation (Identifier.safeName tenant) key)
    { d with clock } with ⟨f | answer, t⟩
  · intro hfollows
    exact .inr ⟨f, rfl, fun hthere => hfollows.1 (.inl hthere)⟩
  · intro hfollows
    have hsame : answer = Memory.document? m.conversations (Identifier.safeName tenant, key) :=
      hfollows.1
    have hnonempty : answer.filter (fun doc => !doc.isEmpty) = answer := by
      rw [hsame, Memory.document?, Option.filter_filter]
      simp
    refine .inl ?_
    simp only [Except.map, hnonempty]
    rw [hsame]
    rfl

theorem exists_counterpartyKey_of_call {answer : Operation.Answer}
    (hfound : (d.call clock (.getConversation tenant counterparty)).1 = .ok answer) :
    ∃ key, counterpartyKey counterparty = .ok key := by
  cases hkey : counterpartyKey counterparty with
  | ok key => exact ⟨key, rfl⟩
  | error f =>
    have hfailed : Operation.program clock (.getConversation tenant counterparty) = .fail f := by
      rw [Operation.program, Store.getConversation, hkey]
      rfl
    rw [Deployment.call, Deployment.run, hfailed] at hfound
    cases hfound

/-- What is found for a conversation is what the contents hold, whenever they are read. -/
theorem Serves.conversation_eq (hserves : k.Serves r now n d m) (htidy : m.Tidy)
    {stored : Option Conversation}
    (hfound : (d.call clock (.getConversation tenant counterparty)).1 =
      .ok (.conversation stored)) :
    ∃ key, counterpartyKey counterparty = .ok key ∧
      ∀ now, m.conversation? now (Identifier.safeName tenant, key) = stored := by
  obtain ⟨key, hkey⟩ := exists_counterpartyKey_of_call hfound
  refine ⟨key, hkey, fun now => ?_⟩
  rcases hserves.answer_getConversation htidy clock tenant hkey with hanswer | ⟨f, hfailed, -⟩
  · rw [hanswer] at hfound
    cases hfound
    exact Memory.conversation?_now htidy now clock _
  · rw [hfailed] at hfound
    cases hfound

/-- A conversation that is found is plain, and its document lies there. -/
theorem Serves.mem_of_call (hserves : k.Serves r now n d m) (htidy : m.Tidy)
    (hfound : (d.call clock (.getConversation tenant counterparty)).1 =
      .ok (.conversation (some c))) :
    ∃ key, counterpartyKey counterparty = .ok key ∧ c.IsPlain ∧
      ((Identifier.safeName tenant, key), .dict c.document) ∈ m.conversations := by
  obtain ⟨key, hkey, hthere⟩ := hserves.conversation_eq htidy hfound
  exact ⟨key, hkey, m.exists_of_conversation? htidy (hthere clock)⟩

/-- A conversation that is there is found. -/
theorem Serves.call_getConversation (hserves : k.Serves r now n d m) (htidy : m.Tidy) {key : String}
    (hkey : counterpartyKey counterparty = .ok key)
    (hthere : ((Identifier.safeName tenant, key), Value.dict c.document) ∈ m.conversations)
    (hplain : c.IsPlain) :
    (d.call clock (.getConversation tenant counterparty)).1 = .ok (.conversation (some c)) := by
  rcases hserves.answer_getConversation htidy clock tenant hkey with
    hanswer | ⟨f, -, habsent⟩
  · rw [hanswer, Memory.conversation?, Memory.document?_conversations htidy,
      get?_eq_some_of_mem htidy.conversationKeys hthere]
    simp [hplain.ofValue_document, Except.toOption]
  · exact absurd (mem_keys_of_mem hthere) habsent

theorem counterpartyKey_of_isNumber {number : String} (hnumber : Identifier.IsNumber number) :
    counterpartyKey (.str number) = .ok number := by
  have hnonempty : number.isEmpty = false := by
    simpa [String.isEmpty_iff] using hnumber.nonempty
  simp [counterpartyKey, Identifier.digits_of_isNumber hnumber, hnonempty]

/-- A list is that of the contents. -/
theorem Serves.names_of_call (hserves : k.Serves r now n d m) (htidy : m.Tidy) {op : Operation}
    {a : Access} (hproper : a.Proper) {f : a.Answer → Operation.Answer}
    (hsingle : op.program clock = .access a fun found => .done (f found)) (hdiscerns : m.Discerns a)
    {answer : Operation.Answer} (hlisted : (d.call clock op).1 = .ok answer) :
    ∃ found, answer = f found ∧ a.Same found (m.answer clock a) ∧
      k.Serves r clock n (d.call clock op).2 (m.after a) := by
  have hfollows := hserves.follows htidy clock a hproper
  rw [call_eq a hsingle] at hlisted ⊢
  revert hfollows hlisted
  rcases Deployment.access d.engine a { d with clock } with ⟨fault | found, t⟩
  · intro hlisted
    cases hlisted
  · intro hlisted hfollows
    exact ⟨found, (Except.ok.inj hlisted).symm, hfollows.1, hfollows.shows hdiscerns⟩

theorem Serves.listsWell (hserves : k.Serves r now n d m) (hsound : m.Sound) : d.ListsWell where
  flows := by
    intro clock clock' tenant names hlisted
    obtain ⟨found, hsame, hnames, hserves'⟩ := hserves.names_of_call hsound.tidy
      (show Access.Proper (.listFlows tenant) from trivial) rfl trivial hlisted
    obtain rfl : names = found := by simpa using hsame
    obtain rfl : names = listUnder (Identifier.safeName tenant) m.flows := hnames
    have hserves' : k.Serves r clock n _ m := hserves'
    refine ⟨Memory.pairwise_listUnder hsound.tidy.flowKeys _, fun name hlisted => ?_⟩
    obtain ⟨⟨key, doc⟩, hentry, rfl⟩ := List.mem_map.1 (Memory.mem_listUnder.1 hlisted)
    have hname : Identifier.IsName name := (hsound.tidy.flows _ hentry).1.name
    have hkey : flowKey tenant (.str name) = (Identifier.safeName tenant, name) := by
      rw [flowKey, Identifier.safeName_of_isName hname]
    obtain ⟨flow, hread⟩ := hsound.readable _ hentry clock'
    have hfound : m.flow? clock' (flowKey tenant (.str name)) = some flow := by
      rw [hkey, Memory.flow?, Memory.document?_flows hsound.tidy,
        get?_eq_some_of_mem hsound.tidy.flowKeys hentry]
      simp [hread, Except.toOption]
    refine ⟨flow, ?_⟩
    rw [hserves'.load hsound.tidy (hkey ▸ mem_keys_of_mem hentry) (hsound.reads clock' _), hfound]
  conversations := by
    intro clock clock' tenant numbers hlisted
    obtain ⟨found, hsame, hnumbers, hserves'⟩ := hserves.names_of_call hsound.tidy
      (show Access.Proper (.listConversations tenant) from trivial) rfl trivial hlisted
    obtain rfl : numbers = found := by simpa using hsame
    obtain rfl : numbers = listUnder (Identifier.safeName tenant) m.conversations := hnumbers
    refine ⟨Memory.pairwise_listUnder hsound.tidy.conversationKeys _, fun number hlisted => ?_⟩
    obtain ⟨⟨key, doc⟩, hentry, rfl⟩ := List.mem_map.1 (Memory.mem_listUnder.1 hlisted)
    obtain ⟨hproper, c, hplain, rfl⟩ := hsound.tidy.conversations _ hentry
    have hnumber : Identifier.IsNumber number := hproper.number
    exact ⟨c, hserves'.call_getConversation hsound.tidy (counterpartyKey_of_isNumber hnumber) hentry
      hplain⟩

end Dialogue.Storage

namespace Dialogue.Deployment

open Store Storage

/-- Deployments that start with nothing stored answer alike, if the file system accepts the names
and the versions fit into their column. -/
theorem answers_agree {history : List Act} (hfine : IsHistory history)
    {inMemory inFiles inTables : Deployment} {r r' r'' : Backend.Request} {dir : Path}
    {location : Database.Location} (hfreshMemory : Storage.memory.Fresh r inMemory)
    (hfreshFiles : (Storage.files dir).Fresh r' inFiles)
    (hfreshTables : (Storage.table location).Fresh r'' inTables)
    (hlasts : (Storage.table location).Lasts ∨ history.filter Act.isCall = history)
    (hnames : ∀ a ∈ inMemory.accesses r (history.filter Act.isCall), a.SuitsFiles dir)
    (hversions : ∀ a ∈ inMemory.accesses r (history.filter Act.isCall), a.Fits) :
    inFiles.answers r' history = inMemory.answers r (history.filter Act.isCall) ∧
      inTables.answers r'' history = inMemory.answers r (history.filter Act.isCall) ∧
      (inMemory.after r (history.filter Act.isCall)).ListsWell ∧
      (inFiles.after r' history).ListsWell ∧ (inTables.after r'' history).ListsWell := by
  obtain ⟨n, hservesMemory⟩ := hfreshMemory.serves
  obtain ⟨n', hservesFiles⟩ := hfreshFiles.serves
  obtain ⟨n'', hservesTables⟩ := hfreshTables.serves
  obtain ⟨hsameFiles, m, _, _, _, hfinalMemory, hfinalFiles, hsound⟩ :=
    answers_eq hfine hservesMemory hservesFiles Memory.sound_empty (.inl trivial) hnames
  obtain ⟨hsameTables, m', _, _, _, -, hfinalTables, hsound'⟩ :=
    answers_eq hfine hservesMemory hservesTables Memory.sound_empty hlasts hversions
  exact ⟨hsameFiles, hsameTables, hfinalMemory.listsWell hsound, hfinalFiles.listsWell hsound,
    hfinalTables.listsWell hsound'⟩

/-- A request for a store in the files of a directory. -/
def filed : Backend.Request := { backend := .str "file", dir := .str "data" }

/-- A request for a store in a database in a file. -/
def tabled : Backend.Request := { backend := .str "sql", address := .str "sqlite:///flows.db" }

/-- A flow is saved, the process starts over, and the flow and a conversation are looked for. -/
def lookup : List Act :=
  [.call "t1" (.saveFlow (.str "Acme") Inbound.cityFlow), .restart,
    .call "t2" (.listFlows (.str "Acme")),
    .call "t3" (.getConversation (.str "Acme") (.str "+1 555"))]

theorem isHistory_lookup : IsHistory lookup := by
  intro clock op hlisted
  simp only [lookup, List.mem_cons, List.not_mem_nil, or_false, reduceCtorEq, false_or,
    Act.call.injEq] at hlisted
  rcases hlisted with ⟨rfl, rfl⟩ | ⟨rfl, rfl⟩ | ⟨rfl, rfl⟩
  · exact ⟨valid_cityFlow _, "t0", Inbound.cityFlow, rfl⟩
  · exact ⟨trivial, trivial⟩
  · exact ⟨trivial, trivial⟩

theorem isEmptyAt_started : Directory.IsEmptyAt (Path.ofText "data") (started filed).files := by
  intro base hplace names hnonempty hother
  obtain rfl : base = ["data"] := Except.ok.inj (hplace.symm.trans rfl)
  have hlies : (started filed).files = [(["data"], .directory), (["data", "state"], .directory)] :=
    rfl
  rw [hlies, Keyed.get?_eq_none_iff]
  simp [hnonempty, hother]

/-- The file of the new database is not there. -/
theorem serves_started :
    Database.Site.Serves (.file ⟨"", ["flows.db"]⟩ true)
      ⟨(started tabled).files, (started tabled).connection⟩ none where
  connected _ hopen := nomatch hopen
  holds := ⟨["flows.db"], rfl, .inl ⟨rfl, rfl⟩⟩

theorem fresh_tabled : (Storage.table (.file ⟨"", ["flows.db"]⟩ true)).Fresh tabled
    (started tabled) :=
  ⟨⟨{ clock := "t0" }, rfl⟩,
    ⟨rfl, Database.isAddressOf_of_location (by decide +kernel)⟩, none, serves_started, rfl⟩

/-- The flow is looked for before it is written. -/
theorem accesses_lookup :
    (started {}).accesses {} (lookup.filter Act.isCall) =
      [.loadFlow (.str "Acme") (.str "intake"), .writeFlow (.str "Acme") Inbound.cityFlow,
        .listFlows (.str "Acme"), .fetchConversation "acme" "1555"] := rfl

/-- New stores in memory, in files and in a database agree on what is looked for. -/
theorem answers_agree_lookup :
    (started filed).answers filed lookup = (started {}).answers {} (lookup.filter Act.isCall) ∧
      (started tabled).answers tabled lookup =
        (started {}).answers {} (lookup.filter Act.isCall) := by
  have hfreshFiles : (Storage.files (Path.ofText "data")).Fresh filed (started filed) :=
    ⟨⟨{ clock := "t0" }, rfl⟩, ⟨rfl, "data", rfl, rfl⟩, isEmptyAt_started⟩
  have hnames : ∀ a ∈ (started {}).accesses {} (lookup.filter Act.isCall),
      a.SuitsFiles (Path.ofText "data") := by
    rw [accesses_lookup]
    refine List.forall_mem_cons.2 ⟨?_, List.forall_mem_cons.2 ⟨?_, List.forall_mem_cons.2 ⟨?_,
      List.forall_mem_singleton.2 ?_⟩⟩⟩ <;> exact ⟨rfl, by decide +kernel⟩
  have hversions : ∀ a ∈ (started {}).accesses {} (lookup.filter Act.isCall), a.Fits := by
    have hfits : Table.fits Inbound.cityFlow.version = true := by decide
    rw [accesses_lookup]
    simpa [Access.Fits] using hfits
  obtain ⟨hinFiles, hinTables, -⟩ := answers_agree isHistory_lookup fresh_started hfreshFiles
    fresh_tabled (.inl ⟨_, _, rfl⟩) hnames hversions
  exact ⟨hinFiles, hinTables⟩

end Dialogue.Deployment
