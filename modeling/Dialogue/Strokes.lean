import Dialogue.Deployment
import Dialogue.Scene

/-!
# The strokes of a deployment

A store in memory makes every access in one piece, and so does one in a database, where an access is
a transaction.  In files the conversations of a tenant lie in one document: to store one of them or
to remove it, the document is read in a first stroke, and written with the change in a second one
(`Directory.first`, `Directory.second`).
-/

namespace Dialogue

open Store

namespace Store.Directory

/-- The first stroke of an access: what is read before anything is written. -/
def first (dir : Path) : Access → Run (Traced Files) Fields
  | .putConversation tenant _ _ | .deleteConversation tenant _ => readState dir tenant
  | _ => Run.pure []

/-- The second stroke of an access, with what the first one read. -/
def second (now : String) (dir : Path) : (a : Access) → Fields → Run (Traced Files) a.Answer
  | .putConversation tenant key doc, state =>
    writeJson (statePath dir tenant) (.dict (Fields.set state key doc))
  | .deleteConversation tenant key, state => do
    if Fields.has state key then
      writeJson (statePath dir tenant) (.dict (state.erase key))
      return true
    else return false
  | a, _ => access now dir a

end Store.Directory

namespace Deployment

/-- The number of the store that an access goes to. -/
def storeOf (e : Engine) (a : Access) : Nat := if a.isAboutFlows then e.flows else e.conversations

/-- The first stroke of an access to the store of a number. -/
def firstStroke (n : Nat) (a : Access) : Run Deployment Fields := fun d =>
  match d.store n with
  | .directory dir => onFiles (Directory.first dir a) d
  | _ => (.ok [], d)

/-- The second stroke of an access to the store of a number. -/
def secondStroke (n : Nat) (a : Access) (seen : Fields) : Run Deployment a.Answer := fun d =>
  match d.store n with
  | .directory dir => onFiles (Directory.second d.clock dir a seen) d
  | _ => accessStore n a d

/-- What a call at the time of a clock does to the stores of an engine. -/
def strokes (e : Engine) (clock : String) : Strokes Deployment where
  access a d := accessStore (storeOf e a) a { d with clock }
  first a d := firstStroke (storeOf e a) a { d with clock }
  second a seen d := secondStroke (storeOf e a) a seen { d with clock }
  log := log

end Deployment

end Dialogue
