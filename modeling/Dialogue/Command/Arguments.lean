import Dialogue.Step.Basic
import Dialogue.Text.Digit
import Dialogue.Value.Basic

/-!
# Command lines

A command line holds general options, a command, and the options and arguments of the command.  An
option is written with two hyphens; its name may be cut short as long as it stays unambiguous, and
its value stands behind an equals sign or comes next.  What starts with a hyphen is an option,
except a negative number, a single hyphen and what holds a blank.  Behind two hyphens alone nothing
is an option.

The value of an option is a text, or the integer that the text spells where the option expects one.
Two hyphens alone behind an equals sign leave nothing of the value: it is an empty list, whatever
the option expects.

`Invocation.parse` reads a command line.  It stops early where help is asked for and where something
is wrong.
-/

namespace Dialogue.Command

/-- What a command line asks for. -/
inductive Action where
  | list
  | create (name : String) (preset : Value) (blank : Bool)
  | addStep (flow kind text field condition thenTarget elseTarget reason : Value)
  | show (flow : Value)
  | check (flow : Value)
  | trial (flow sender text : Value)
  | reset (sender : Value)
  deriving Repr

/-- A command line: its general options and what it asks for. -/
structure Invocation where
  tenant : Value := .null
  config : Value := .null
  json : Bool := false
  action : Action
  deriving Repr

/-- Why a command line is not carried out. -/
inductive Stop where
  | help
  | usage
  deriving DecidableEq, Repr

/-- The exit status for a command line that is not carried out. -/
def Stop.status : Stop → Nat
  | .help => 0
  | .usage => 2

/-- What the value of an option must be. -/
inductive Expects where
  | nothing
  | text
  | integer
  | oneOf (words : List String)

/-- An option: its name with its hyphens, and its value. -/
structure OptionSpec where
  name : String
  expects : Expects

/-- A word of a command line. -/
inductive Word where
  | value (s : String)
  | option (o : OptionSpec) (attached : Option String)
  | unknown (s : String)
  | help (attached : Option String)
  | ambiguous
  | divider

/-- The characters without a line feed at their end. -/
def dropLineEnd (cs : List Char) : List Char :=
  if cs.getLast? = some '\n' then cs.dropLast else cs

/-- Whether the text is a negative number; a line may end behind it. -/
def isNegativeNumber : List Char → Bool
  | '-' :: cs =>
    let cs := dropLineEnd cs
    let whole := cs.takeWhile Text.isDigit
    match cs.dropWhile Text.isDigit with
    | [] => !whole.isEmpty
    | '.' :: fraction => !fraction.isEmpty && fraction.all Text.isDigit
    | _ => false
  | _ => false

/-- What stands before the first equals sign and what stands after it. -/
def splitValue (s : String) : String × Option String :=
  let cs := s.toList
  match cs.dropWhile (· != '=') with
  | '=' :: after => (String.ofList (cs.takeWhile (· != '=')), some (String.ofList after))
  | _ => (s, none)

/-- What a word that starts with two hyphens names among some options. -/
def classifyLong (options : List OptionSpec) (s : String) : Option Word :=
  let (name, attached) := splitValue s
  let exact := options.find? fun o => o.name == name
  let help : Word := .help (attached.map fun _ => "")
  if name == "--help" then some help
  else
    match exact with
    | some o => some (.option o attached)
    | none =>
      let matching := options.filter fun o => name.isPrefixOf o.name
      match matching, name.isPrefixOf "--help" with
      | [], true => some help
      | [o], false => some (.option o attached)
      | [], false => none
      | _, _ => some .ambiguous

/-- What a word is among some options. -/
def classify (options : List OptionSpec) (s : String) : Word :=
  let cs := s.toList
  match cs with
  | '-' :: '-' :: [] => .divider
  | '-' :: '-' :: _ =>
    match classifyLong options s with
    | some w => w
    | none => if cs.contains ' ' then .value s else .unknown s
  | '-' :: [] => .value s
  | '-' :: 'h' :: [] => .help none
  | '-' :: 'h' :: '=' :: rest => .help (some (String.ofList rest))
  | '-' :: 'h' :: rest => .help (some (String.ofList rest))
  | '-' :: _ =>
    if isNegativeNumber cs || cs.contains ' ' then .value s else .unknown s
  | _ => .value s

/-- Words of a command line; behind a divider all are values. -/
def classifyAll (options : List OptionSpec) : List String → List Word
  | [] => []
  | s :: rest =>
    match classify options s with
    | .divider => .divider :: rest.map .value
    | w => w :: classifyAll options rest

/-- What is known of a command line so far: the options given, latest first, the arguments, and
whether there was anything that has no place. -/
structure Given where
  options : List (String × Value) := []
  arguments : List String := []
  misplaced : Bool := false

/-- The value that a word is for an option, if it is one that the option expects. -/
def Expects.read? : Expects → String → Option Value
  | .nothing, _ => none
  | .text, s => some (.str s)
  | .integer, s => (Text.integer? s).map .int
  | .oneOf words, s => if words.contains s then some (.str s) else none

/-- The value that stands behind an equals sign. -/
def Expects.readAttached? (e : Expects) (s : String) : Option Value :=
  if s == "--" then some (.list []) else e.read? s

/-- Notes an option with its value. -/
def Given.withOption (g : Given) (o : OptionSpec) : Option Value → Except Stop Given
  | some v => .ok { g with options := (o.name, v) :: g.options }
  | none => .error .usage

/-- Notes an option without a value. -/
def Given.withFlag (g : Given) (o : OptionSpec) : Given :=
  { g with options := (o.name, .bool true) :: g.options }

/-- What a call for help comes to; a value that is attached to it may only repeat it. -/
def helpWith (attached : Option String) : Stop :=
  match attached with
  | none => .help
  | some s => if !s.isEmpty && s.toList.all (· = 'h') then .help else .usage

/-- Reads the words behind a command; `places` is the number of arguments that the command takes. -/
def readWords (places : Nat) : List Word → Given → Except Stop Given
  | [], g => .ok g
  | .value s :: rest, g =>
    if g.arguments.length < places then
      readWords places rest { g with arguments := g.arguments ++ [s] }
    else readWords places rest { g with misplaced := true }
  | .divider :: rest, g =>
    readWords places rest (if places = 0 then { g with misplaced := true } else g)
  | .unknown _ :: rest, g => readWords places rest { g with misplaced := true }
  | .help attached :: _, _ => .error (helpWith attached)
  | .ambiguous :: _, _ => .error .usage
  | .option o attached :: rest, g =>
    match o.expects, attached with
    | .nothing, some _ => .error .usage
    | .nothing, none => readWords places rest (g.withFlag o)
    | e, some v => do readWords places rest (← g.withOption o (e.readAttached? v))
    | e, none =>
      match rest with
      | .value v :: rest => do readWords places rest (← g.withOption o (e.read? v))
      | _ => .error .usage

/-- Reads the words of a command; something misplaced and something ambiguous are errors. -/
def readCommand (options : List OptionSpec) (places : Nat) (words : List String) :
    Except Stop Given := do
  let classified := classifyAll options words
  if classified.any fun w => w matches .ambiguous then .error .usage
  else
    let g ← readWords places classified {}
    if g.arguments.length < places then .error .usage else return g

/-- The value of an option, the latest where it was given more than once. -/
def Given.value? (g : Given) (name : String) : Option Value := g.options.lookup name

/-- The value of an option, null where it was not given. -/
def Given.value (g : Given) (name : String) : Value := (g.value? name).getD .null

/-- The value of an option that must be given. -/
def Given.need (g : Given) (name : String) : Except Stop Value :=
  match g.value? name with
  | some v => .ok v
  | none => .error .usage

/-! ## The commands -/

/-- An option with a text. -/
def textOption (name : String) : OptionSpec := ⟨name, .text⟩

/-- The options of the command that adds a step. -/
def stepOptions : List OptionSpec :=
  [textOption "--flow", ⟨"--type", .oneOf (Step.Kind.all.map (·.tag))⟩, textOption "--text",
    textOption "--field", textOption "--if", ⟨"--then", .integer⟩, ⟨"--else", .integer⟩,
    textOption "--reason"]

/-- Reads what a command asks for.  Answers also whether something was misplaced. -/
def readAction (command : String) (words : List String) : Except Stop (Action × Bool) :=
  match command with
  | "list" => do
    let g ← readCommand [] 0 words
    return (.list, g.misplaced)
  | "create" => do
    let g ← readCommand [textOption "--preset", ⟨"--blank", .nothing⟩] 1 words
    return (.create (g.arguments.headD "") ((g.value? "--preset").getD (.str "lead-qualification"))
      (g.value? "--blank").isSome, g.misplaced)
  | "add-step" => do
    let g ← readCommand stepOptions 0 words
    return (.addStep (← g.need "--flow") (← g.need "--type") (g.value "--text") (g.value "--field")
      (g.value "--if") (g.value "--then") (g.value "--else") (g.value "--reason"), g.misplaced)
  | "show" => do
    let g ← readCommand [textOption "--flow"] 0 words
    return (.show (← g.need "--flow"), g.misplaced)
  | "validate" => do
    let g ← readCommand [textOption "--flow"] 0 words
    return (.check (← g.need "--flow"), g.misplaced)
  | "test" => do
    let g ← readCommand [textOption "--flow", textOption "--from", textOption "--text"] 0 words
    return (.trial (← g.need "--flow") (← g.need "--from") (← g.need "--text"), g.misplaced)
  | "reset" => do
    let g ← readCommand [textOption "--from"] 0 words
    return (.reset (← g.need "--from"), g.misplaced)
  | _ => .error .usage

/-- The general options. -/
def generalOptions : List OptionSpec :=
  [textOption "--tenant", textOption "--config", ⟨"--json", .nothing⟩]

/-- Reads general options up to the command, and the command with all that follows. -/
def readGeneral : List String → Given → Except Stop (Given × Action × Bool)
  | [], _ => .error .usage
  | s :: rest, g =>
    match classify generalOptions s with
    | .value command => do
      let (action, misplaced) ← readAction command rest
      return (g, action, misplaced)
    | .divider => .error .usage
    | .unknown _ => readGeneral rest { g with misplaced := true }
    | .help attached => .error (helpWith attached)
    | .ambiguous => .error .usage
    | .option o attached =>
      match o.expects, attached with
      | .nothing, some _ => .error .usage
      | .nothing, none => readGeneral rest (g.withFlag o)
      | e, some v => do readGeneral rest (← g.withOption o (e.readAttached? v))
      | e, none =>
        match rest with
        | [] => .error .usage
        | v :: rest =>
          match classify generalOptions v with
          | .value v => do readGeneral rest (← g.withOption o (e.read? v))
          | _ => .error .usage

/-- Reads a command line. -/
def Invocation.parse (words : List String) : Except Stop Invocation := do
  let (g, action, misplaced) ← readGeneral words {}
  if g.misplaced || misplaced then .error .usage
  else
    return {
      tenant := g.value "--tenant"
      config := g.value "--config"
      json := (g.value? "--json").isSome
      action := action }

end Dialogue.Command
