import Dialogue.Files.Path
import Dialogue.Keyed
import Dialogue.Schema.Scalar
import Dialogue.Text.Case
import Dialogue.Text.Class
import Dialogue.Text.Digit
import Dialogue.Text.Hex
import Dialogue.Text.Quoted

/-!
# Database addresses

A database is configured by an address in its plain form, such as `sqlite:///./flows.db`.  The
connection goes through a driver that works without blocking, and the address that it gets
(`driverAddress`) names the driver in its scheme.

`Address.parse` divides an address into driver, user, password, host, port, database and query;
`Address.shown` writes it again, with stars for the password.  `Address.location?` says where the
database lies, and why it cannot be used otherwise.
-/

/-! ## What goes wrong with a database

An address may be unreadable, name a driver that is unknown or missing, or ask for what the driver
cannot give; the database behind it may not open; and a row may not fit into its table.
-/

namespace Dialogue.Database

/-- What goes wrong with a database. -/
inductive Fault where
  | notAddress
  | unreadable
  | unreadablePort (port : String)
  | noPort
  | noDatabase
  | severalDrivers
  | unknownDriver
  | missingDriver
  | blockingDriver
  | location
  | notTruth (option : String)
  | notNumber (option : String)
  | notInteger (option : String)
  | repeatedOption
  | cannotOpen
  | notDatabase
  | tableMissing
  | columnMissing
  | columnUnsupported
  | numberTooLarge
  deriving DecidableEq, Repr

/-- Whether a fault lies in a value that the address holds. -/
def Fault.isValue : Fault → Bool
  | .unreadablePort _ | .severalDrivers | .notTruth _ | .notNumber _ | .notInteger _ => true
  | _ => false

/-- The wording of a fault that lies in a value; the others have none. -/
def Fault.message : Fault → String
  | .unreadablePort port => Text.notIntegerMessage 10 port
  | .severalDrivers => "too many values to unpack (expected 2)"
  | .notTruth option => "String is not true/false: " ++ Text.quoted option
  | .notNumber option => Text.notNumberMessage option
  | .notInteger option => Text.notIntegerMessage 10 option
  | _ => ""

/-! ## Addresses -/

/-- The schemes of addresses and the drivers that serve them. -/
def drivers : List (String × String) :=
  [("postgresql", "postgresql+asyncpg"), ("postgres", "postgresql+asyncpg"),
   ("mysql", "mysql+aiomysql"), ("mysql+pymysql", "mysql+aiomysql"),
   ("sqlite", "sqlite+aiosqlite")]

/-- What stands before the first `://` of an address and what stands after it. -/
def splitScheme : List Char → Option (List Char × List Char)
  | [] => none
  | ':' :: '/' :: '/' :: rest => some ([], rest)
  | c :: rest => (splitScheme rest).map fun (scheme, after) => (c :: scheme, after)

/-- The address with the driver in its scheme; an address of another form or with an unknown scheme
is left as it is. -/
def driverAddress (address : String) : String :=
  match splitScheme address.toList with
  | none => address
  | some (scheme, after) =>
    let scheme := String.ofList scheme
    (drivers.lookup scheme).getD scheme ++ "://" ++ String.ofList after

/-- How connections are made to an address: SQLite connections may be used from any thread, other
databases get a pool. -/
def connectionOptions (echo : Bool) (address : String) : Fields :=
  ("echo", .bool echo) ::
    (if "sqlite".isPrefixOf address then
      [("connect_args", .dict [("check_same_thread", .bool false)])]
    else
      [("pool_size", .int 5), ("max_overflow", .int 10), ("pool_recycle", .int 1800),
        ("pool_pre_ping", .bool true)])

/-- An address, divided, its escapes resolved.  A name may stand several times in the query. -/
structure Address where
  driver : String
  user : Option (List Char) := none
  password : Option (List Char) := none
  host : Option (List Char) := none
  port : Option Int := none
  database : Option (List Char) := none
  query : Keyed String (List String) := []
  deriving Repr

/-- Where a database lies: in memory, in a file that is made where it is missing unless it has to be
there, or where nothing can be opened. -/
inductive Location where
  | memory
  | file (path : Path) (makes : Bool)
  | nowhere
  deriving DecidableEq, Repr

namespace Address

/-! ## Dividing an address -/

/-- User and password before an at sign, and what follows.  The password starts at the first colon
and ends at the next at sign; without one the last at sign before a slash counts. -/
def splitUser (cs : List Char) : Option (List Char × Option (List Char)) × List Char :=
  let stops (c : Char) : Bool := c == ':' || c == '/'
  let run := cs.takeWhile (!stops ·)
  let rest := cs.dropWhile (!stops ·)
  let withPassword := match rest with
    | ':' :: after =>
      match Text.splitFirst '@' after with
      | (password, some left) => some (password, left)
      | _ => none
    | _ => none
  match withPassword with
  | some (password, left) => (some (run, some password), left)
  | none =>
    match Text.splitFirst '@' run.reverse with
    | (host, some user) => (some (user.reverse, none), host.reverse ++ rest)
    | _ => (none, cs)

/-- The host, in brackets or up to a colon, and what follows. -/
def splitHost (cs : List Char) : List Char × List Char :=
  let bracketed := match cs with
    | '[' :: after =>
      let run := after.takeWhile fun c => c != '/' && c != '?'
      match Text.splitFirst ']' run.reverse with
      | (tail, some host) =>
        if host.isEmpty then none
        else some (host.reverse, tail.reverse ++ after.drop run.length)
      | _ => none
    | _ => none
  bracketed.getD (cs.span fun c => c != '/' && c != ':' && c != '?')

/-- A name or a value of a query: plus signs are blanks, escapes are resolved. -/
def queryText (cs : List Char) : String :=
  String.ofList (Text.percentDecode (cs.map fun c => if c = '+' then ' ' else c))

/-- The entries of a query that have a value. -/
def readQuery (cs : List Char) : Keyed String (List String) :=
  (Text.splitOn '&' cs).foldl
    (fun query part =>
      match Text.splitFirst '=' part with
      | (_, none) | (_, some []) => query
      | (name, some value) =>
        let name := queryText name
        query.set name ((query.get? name).getD [] ++ [queryText value]))
    []

/-- The text behind a character that the text starts with, up to a character of a class, and what
follows. -/
def after (mark : Char) (stops : Char → Bool) : List Char → Option (List Char) × List Char
  | c :: rest =>
    if c = mark then
      let (run, left) := rest.span (!stops ·)
      (some run, left)
    else (none, c :: rest)
  | [] => (none, [])

/-- The port that a text writes. -/
def readPort : List Char → Except Fault Int
  | [] => .error .noPort
  | cs =>
    match Text.integer? (String.ofList cs) with
    | some n => .ok n
    | none => .error (.unreadablePort (String.ofList cs))

/-- Divides an address. -/
def parse (s : String) : Except Fault Address := do
  let (driver, rest) := s.toList.span fun c => Text.isWord c || c == '+'
  if driver.isEmpty || !"://".toList.isPrefixOf rest then .error .unreadable
  let (user, rest) := splitUser (rest.drop 3)
  let (host, rest) := splitHost rest
  let (port, rest) := after ':' (fun c => c == '/' || c == '?') rest
  let (database, rest) := after '/' (· == '?') rest
  let (query, _) := after '?' (· == '\n') rest
  let port ← match port with
    | some cs => (readPort cs).map some
    | none => .ok none
  return {
    driver := String.ofList driver
    user := user.map fun u => Text.percentDecode u.1
    password := (user.bind (·.2)).map Text.percentDecode
    host := if host.isEmpty then none else some host
    port
    database := database.map Text.percentDecode
    query := (query.map readQuery).getD [] }

/-! ## Writing an address -/

/-- Whether a character stands for itself in every part of an address. -/
def isPlain (c : Char) : Bool := c.isAlphanum || c == '_' || c == '.' || c == '-' || c == '~'

/-- A part of an address in which the given characters stand for themselves, too. -/
def quote (safe : List Char) (cs : List Char) : String :=
  String.ofList (Text.percentEncode (fun c => isPlain c || safe.contains c) cs)

/-- A name or a value of a query, written. -/
def quoteQuery (s : String) : String :=
  String.ofList ((Text.percentEncode (fun c => isPlain c || c == ' ') s.toList).map fun c =>
    if c = ' ' then '+' else c)

/-- The entries of a query in the order of their names. -/
def sortedQuery (query : Keyed String (List String)) : List (String × String) :=
  (query.mergeSort fun a b => !decide (b.1 < a.1)).flatMap fun e => e.2.map fun v => (e.1, v)

/-- The address as it may be shown: three stars stand for the password. -/
def shown (a : Address) : String :=
  let user := match a.user with
    | some u => quote [' ', '+'] u ++ (if a.password.isSome then ":***" else "") ++ "@"
    | none => ""
  let host := match a.host with
    | some h => if h.contains ':' then "[" ++ String.ofList h ++ "]" else String.ofList h
    | none => ""
  let port := (a.port.map fun n => ":" ++ toString n).getD ""
  let database := (a.database.map fun d => "/" ++ quote [' ', '+', '/'] d).getD ""
  let query := if a.query.isEmpty then "" else
    "?" ++ String.intercalate "&" ((sortedQuery a.query).map fun e =>
      quoteQuery e.1 ++ "=" ++ quoteQuery e.2)
  a.driver ++ "://" ++ user ++ host ++ port ++ database ++ query

/-! ## Where the database lies -/

/-- The kinds of databases and their drivers, `base` for the one that is taken when none is named.
-/
def knownDrivers : List (String × List String) :=
  [("sqlite", ["base", "aiosqlite", "pysqlite", "pysqlcipher"]),
   ("postgresql", ["base", "asyncpg", "pg8000", "psycopg", "psycopg_async", "psycopg2",
     "psycopg2cffi"]),
   ("mysql", ["base", "aiomysql", "asyncmy", "cymysql", "mariadbconnector", "mysqlconnector",
     "mysqldb", "pymysql", "pyodbc"]),
   ("mariadb", ["base", "aiomysql", "asyncmy", "cymysql", "mariadbconnector", "mysqlconnector",
     "mysqldb", "pymysql", "pyodbc"]),
   ("oracle", ["base", "cx_oracle", "oracledb", "oracledb_async"]),
   ("mssql", ["base", "aioodbc", "pymssql", "pyodbc"])]

/-- The kind of the database and its driver. -/
def kindAndDriver (a : Address) : Except Fault (String × String) :=
  match (Text.splitOn '+' a.driver.toList).map String.ofList with
  | [kind] => .ok (kind, "base")
  | [kind, driver] => .ok (kind, driver)
  | _ => .error .severalDrivers

/-- The truth value that an option writes. -/
def readTruth (s : String) : Except Fault Bool :=
  let word := Text.lower (Text.strip s)
  if ["true", "yes", "on", "y", "t", "1"].contains word then .ok true
  else if ["false", "no", "off", "n", "f", "0"].contains word then .ok false
  else .error (.notTruth word)

/-- Looks at an option of the query that must be a number. -/
def checkNumber (a : Address) (name : String) (fault : String → Fault) (reads : String → Bool) :
    Except Fault Unit :=
  match a.query.get? name with
  | none => .ok ()
  | some [s] => if reads s then .ok () else .error (fault s)
  | some _ => .error .repeatedOption

/-- An option of the query that must be a truth value; several values count as true. -/
def truth? (a : Address) (name : String) : Except Fault (Option Bool) :=
  match a.query.get? name with
  | none => .ok none
  | some [s] => (readTruth s).map some
  | some _ => .ok (some true)

/-- The options of the query that say how a connection is made, and not which database is opened. -/
def connectionNames : List String :=
  ["uri", "timeout", "isolation_level", "detect_types", "check_same_thread", "cached_statements"]

/-- The place that the name of a database stands for. -/
def named (name : List Char) (makes : Bool) : Location :=
  if name.isEmpty || name == ":memory:".toList then .memory
  else .file (Path.ofText (String.ofList name)).flat makes

/-- The place of a database that is itself named by an address with the scheme `file`; `query` holds
the parameters of that address. -/
def nested (path : List Char) (query : List (String × String)) : Location :=
  let path := match path with
    | '/' :: '/' :: rest => rest.dropWhile (· != '/')
    | path => path
  let path := Text.percentDecode (path.takeWhile (· != '#'))
  match query.lookup "mode" with
  | none | some "rwc" => named path true
  | some "memory" => .memory
  | some "ro" | some "rw" => named path false
  | some _ => .nowhere

/-- Where the database of an SQLite address lies. -/
def sqliteLocation (a : Address) (nests : Bool) : Except Fault Location :=
  if nests then
    let query := sortedQuery (a.query.filter fun e => !connectionNames.contains e.1)
    match a.database with
    | none => .error .noDatabase
    | some ('f' :: 'i' :: 'l' :: 'e' :: ':' :: path) => .ok (nested path query)
    | some name =>
      let entries := query.map fun e => (e.1 ++ "=" ++ e.2).toList
      .ok (named (if entries.isEmpty then name else name ++ '?' :: ['&'].intercalate entries) true)
  else .ok (named (a.database.getD []) true)

/-- Whether an address names a place in the network, which SQLite does not have. -/
def namesNetwork (a : Address) : Bool :=
  (a.user.map (!·.isEmpty)).getD false || (a.password.map (!·.isEmpty)).getD false ||
    a.host.isSome || (a.port.map (· != 0)).getD false

/-- Where the database of an address lies. -/
def location? (a : Address) : Except Fault Location := do
  if a.query.has "plugin" then .error .unknownDriver
  let (kind, driver) ← a.kindAndDriver
  match knownDrivers.lookup kind with
  | none => .error .unknownDriver
  | some drivers =>
    if !drivers.contains driver then .error .unknownDriver
    else if kind != "sqlite" || driver == "pysqlcipher" then .error .missingDriver
    else
      if a.namesNetwork then .error .location
      let nests ← a.truth? "uri"
      a.checkNumber "timeout" .notNumber fun s => (Schema.numberOfText? s).isSome
      a.checkNumber "detect_types" .notInteger fun s => (Text.integer? s).isSome
      let _ ← a.truth? "check_same_thread"
      a.checkNumber "cached_statements" .notInteger fun s => (Text.integer? s).isSome
      let location ← a.sqliteLocation (nests.getD false)
      if driver != "aiosqlite" then .error .blockingDriver
      return location

end Address

end Dialogue.Database
