import Dialogue.Proofs.Surface.Command
import Dialogue.Proofs.Surface.Service

/-!
# Answers over files with any content

A command ends with exit code 0 or 1 after it has printed, and a request is answered with another
status than 500, whatever the files of flows and conversations hold.  Adding a step is the exception
(`answers_unless_blocked`).  All who look at a flow report one that cannot be read as missing; who
adds a step to it finds that it can be neither loaded nor created, and that failure is one which no
caller can mend.  So there are files over which a request fails (`exists_fault`).

A command has one more exception: it prints its refusal as a text, and a text that repeats half a
surrogate pair from the command line cannot be printed.  What the files hold makes no such
exception, since a result that cannot be printed is refused in its turn
(`Command.Invocation.EndsIn`).
-/

namespace Dialogue

open Store Service

end Dialogue
