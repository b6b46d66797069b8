import Dialogue.Proofs.Store.Directory.Tenant
import Dialogue.Proofs.Store.Outcome
import Dialogue.Strokes

/-!
# Accesses do not read the log

What an access answers and stores does not depend on what was logged before, in memory, in files and
in a database alike (`Memory.unlogged_access`, `Directory.unlogged_access`,
`Table.unlogged_access`).
-/

namespace Dialogue

open Run Store

namespace Run

variable {σ τ α β : Type}

/-- The run comes to the same whatever was logged before. -/
abbrev Unlogged (m : Run (Traced σ) α) : Prop := Agrees (Silent (· = ·)) m

theorem agrees_eq (m : Run σ α) : Agrees (· = ·) m := by
  rintro s _ rfl
  exact ⟨rfl, rfl⟩

theorem unlogged_silently (m : Run σ α) : (Run.silently m).Unlogged := (agrees_eq m).silently

theorem unlogged_read : (Run.read : Run (Traced σ) σ).Unlogged :=
  fun _ _ hsame => ⟨congrArg Except.ok hsame, hsame⟩

theorem unlogged_write (f : σ → σ) : (Run.write f).Unlogged :=
  fun _ _ hsame => ⟨rfl, congrArg f hsame⟩

end Run

/-! ## Stores in memory and in files -/

namespace Store

theorem Access.exists_isOf (a : Access) : ∃ tenant, a.IsOf tenant := by
  cases a <;> exact ⟨_, rfl⟩

theorem Memory.unlogged_access (now : String) (a : Access) : (Memory.access now a).Unlogged := by
  refine Memory.access_of_restsOn (composes_agrees _) now ?_
  have hreads {α : Type} (f : Memory → α) : (Memory.reads f).Unlogged :=
    agrees_reads fun _ _ hsame => congrArg f hsame
  cases a with
  | loadFlow | listFlows | fetchConversation | listConversations => exact hreads _
  | createFlow | writeFlow => exact ⟨hreads _, unlogged_write _⟩
  | locateFlow => trivial
  | putConversation => exact ⟨hreads _, fun _ => unlogged_write _⟩
  | deleteConversation => exact ⟨hreads _, unlogged_write _⟩

namespace Directory

variable (dir path : Path)

theorem unlogged_readJson : (readJson path).Unlogged :=
  agrees_readJson_of_content fun _ _ hsame => by rw [hsame]

theorem handles_unlogged (now tenant : String) :
    Handles (fun {_} m => m.Unlogged) now dir tenant where
  composes := composes_agrees _
  note := agrees_note
  readFlow _ _ _ := unlogged_readJson _
  createFlow _ _ _ _ := unlogged_silently _
  writeFlow _ _ _ _ := unlogged_silently _
  listFlows _ _ := unlogged_read.bind fun _ =>
    ((composes_agrees _).ofExcept _ _).bind fun _ => agrees_pure _
  readState := unlogged_readJson _
  writeState _ := unlogged_silently _

theorem unlogged_access (now : String) (a : Access) : (access now dir a).Unlogged := by
  obtain ⟨tenant, hof⟩ := a.exists_isOf
  exact (handles_unlogged dir now tenant).access a hof

theorem unlogged_first (a : Access) : (first dir a).Unlogged := by
  cases a with
  | putConversation tenant | deleteConversation tenant =>
    exact (handles_unlogged dir "" tenant).state
  | _ => exact agrees_pure _

theorem unlogged_second (now : String) (a : Access) (seen : Fields) :
    (second now dir a seen).Unlogged := by
  cases a with
  | putConversation tenant number doc => exact unlogged_silently _
  | deleteConversation tenant number =>
    rw [second]
    split
    · exact (unlogged_silently _).bind fun _ => agrees_pure _
    · exact agrees_pure _
  | _ => exact unlogged_access dir now _

/-- An access is its first stroke and then the second one. -/
theorem access_eq_strokes (now : String) (a : Access) :
    access now dir a = Run.bind (first dir a) (second now dir a) := by
  cases a <;> rfl

end Directory

end Store

/-! ## Stores in a database -/

namespace Database

variable (address : Value) (connection : Connection) (tables : Tables)

theorem unlogged_connect : (connect address).Unlogged := by
  refine unlogged_read.bind fun site => ?_
  split
  · exact agrees_pure _
  · exact ((composes_agrees _).ofExcept _ _).bind fun _ =>
      (unlogged_write _).bind fun _ => (agrees_note _).bind fun _ => agrees_pure _

theorem unlogged_tables? : (tables? connection).Unlogged := by
  rw [tables?]
  split
  · exact unlogged_read.bind fun _ => agrees_pure _
  · exact unlogged_silently _
  · exact agrees_fail _

theorem unlogged_store : (store connection tables).Unlogged := by
  rw [store]
  split
  · exact unlogged_write _
  · exact unlogged_silently _
  · exact agrees_fail _

theorem unlogged_createTables : (createTables address).Unlogged := by
  refine (unlogged_connect address).bind fun connection =>
    (unlogged_tables? connection).bind fun found => ?_
  have hlogs : (Run.note (.schemaReady "sqlite" Tables.names) : Run (Traced Site) Unit).Unlogged :=
    agrees_note _
  split
  · exact (unlogged_store connection {}).bind fun _ => hlogs
  · exact hlogs

theorem unlogged_current : (current address).Unlogged := by
  refine (unlogged_connect address).bind fun connection =>
    (unlogged_tables? connection).bind fun found => ?_
  split
  · exact agrees_pure _
  · exact agrees_fail _

end Database

namespace Store.Table

open Database

variable {α : Type} (now : String) (address configured : Value)

theorem unlogged_onSite {m : Run (Traced Site) α} (hunlogged : m.Unlogged) :
    (onSite m).Unlogged := by
  rintro ⟨s, events⟩ ⟨_, events'⟩ rfl
  obtain ⟨hresult, hafter⟩ := hunlogged ⟨s.site, events⟩ ⟨s.site, events'⟩ rfl
  exact ⟨hresult, congrArg (fun site : Site => ({ s with site } : State)) hafter⟩

theorem unlogged_readyFlows : (readyFlows address).Unlogged := by
  refine unlogged_read.bind fun s => ?_
  split
  · exact (unlogged_onSite (unlogged_createTables address)).bind fun _ => unlogged_write _
  · exact agrees_pure _

theorem unlogged_readyConversations : (readyConversations address).Unlogged := by
  refine unlogged_read.bind fun s => ?_
  split
  · exact (unlogged_onSite (unlogged_createTables address)).bind fun _ => unlogged_write _
  · exact agrees_pure _

theorem unlogged_access (a : Access) : (access now address configured a).Unlogged := by
  have hflows {k : Connection × Tables → Run (Traced State) a.Answer}
      (hgoesOn : ∀ found, (k found).Unlogged) :
      (readyFlows address >>= fun _ => onSite (current configured) >>= k).Unlogged :=
    (unlogged_readyFlows address).bind fun _ =>
      (unlogged_onSite (unlogged_current configured)).bind hgoesOn
  have hconversations {k : Connection × Tables → Run (Traced State) a.Answer}
      (hgoesOn : ∀ found, (k found).Unlogged) :
      (readyConversations address >>= fun _ => onSite (current configured) >>= k).Unlogged :=
    (unlogged_readyConversations address).bind fun _ =>
      (unlogged_onSite (unlogged_current configured)).bind hgoesOn
  have hstores (connection : Connection) (tables : Tables) :=
    unlogged_onSite (unlogged_store connection tables)
  have hofExcept {ε α : Type} (f : ε → Failure) (r : Except ε α) :
      (Run.ofExcept f r : Run (Traced State) α).Unlogged := (composes_agrees _).ofExcept f r
  cases a with
  | loadFlow tenant name =>
    refine hflows ?_
    rintro ⟨connection, tables⟩
    dsimp only
    split
    · exact agrees_pure _
    · split
      · exact agrees_pure _
      · exact (agrees_note _).bind fun _ => agrees_pure _
  | createFlow tenant flow =>
    refine hflows ?_
    rintro ⟨connection, tables⟩
    dsimp only
    split
    · exact agrees_pure _
    · exact (hofExcept _ _).bind fun row => (hstores _ _).bind fun _ => agrees_pure _
  | writeFlow tenant flow =>
    exact hflows fun found => (hofExcept _ _).bind fun row =>
      (hstores _ _).bind fun _ => agrees_pure _
  | listFlows tenant => exact hflows fun found => agrees_pure _
  | locateFlow tenant name => exact agrees_pure _
  | fetchConversation tenant key => exact hconversations fun found => agrees_pure _
  | putConversation tenant key doc =>
    exact hconversations fun found => (hofExcept _ _).bind fun row => hstores _ _
  | deleteConversation tenant key =>
    refine hconversations ?_
    rintro ⟨connection, tables⟩
    dsimp only
    split
    · exact (hstores _ _).bind fun _ => agrees_pure _
    · exact agrees_pure _
  | listConversations tenant => exact hconversations fun found => agrees_pure _

end Store.Table

end Dialogue
