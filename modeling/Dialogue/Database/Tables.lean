import Dialogue.Identifier

/-!
# Tables

A database holds flows and conversations as rows of two tables.  A row holds the whole document in
one column and copies of some of its entries in others, for looking up.  Rows lie under pairs of
storage keys.
-/

namespace Dialogue.Database

/-- A row of the table of flows. -/
structure FlowRow where
  version : Int := 1
  document : Value

/-- A row of the table of conversations. -/
structure ConversationRow where
  flow : Value
  completedAt : Value
  document : Value

/-- The tables of a database. -/
structure Tables where
  flows : Keyed Store.Key FlowRow := []
  conversations : Keyed Store.Key ConversationRow := []

/-- The names of the tables. -/
def Tables.names : List String := ["conversation_states", "flows"]

end Dialogue.Database
