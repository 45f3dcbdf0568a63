/-!
# Arguments

The arguments of the command line. An option takes its value from what is attached to it or, where
nothing is, from the next argument, which then must not look like an option itself.
-/

namespace Sharding.CommandLine

structure Arguments where
  config : String
  table : String
  values : List String
  ranges : List String
  databaseHints : List String
  tableHints : List String
  generateKey : Bool

inductive Request where
  | route (arguments : Arguments)
  | version
  | help
  | rejected

/-- An option that takes a value. -/
inductive Setting where
  | config
  | table
  | value
  | range
  | databaseHint
  | tableHint
  deriving DecidableEq

/-- What an option name stands for. -/
inductive Switch where
  | setting (setting : Setting)
  | generateKey
  | version
  | help

def Switch.ofLong : String → Option Switch
  | "config" => some (.setting .config)
  | "table" => some (.setting .table)
  | "value" => some (.setting .value)
  | "range" => some (.setting .range)
  | "hint-db" => some (.setting .databaseHint)
  | "hint-table" => some (.setting .tableHint)
  | "generate-key" => some .generateKey
  | "version" => some .version
  | "help" => some .help
  | _ => none

def Switch.ofShort : Char → Option Switch
  | 'c' => some (.setting .config)
  | 't' => some (.setting .table)
  | 'v' => some (.setting .value)
  | 'r' => some (.setting .range)
  | 'g' => some .generateKey
  | 'V' => some .version
  | 'h' => some .help
  | _ => none

/-- What the arguments read so far gave. -/
structure Given where
  settings : List (Setting × String)
  generateKey : Bool

namespace Given

def empty : Given := ⟨[], false⟩

def all (given : Given) (setting : Setting) : List String :=
  (given.settings.filter (·.1 == setting)).map (·.2)

/-- The document and the table are given at most once. -/
def add (given : Given) (setting : Setting) (value : String) : Option Given :=
  let added : Given := { given with settings := given.settings ++ [(setting, value)] }
  match setting with
  | .config | .table => if given.all setting = [] then some added else none
  | _ => some added

def addKey (given : Given) : Option Given :=
  if given.generateKey then none else some { given with generateKey := true }

/-- The document and the table are needed. -/
def request (given : Given) : Request :=
  match given.all .config, given.all .table with
  | [config], [table] =>
    .route ⟨config, table, given.all .value, given.all .range, given.all .databaseHint,
      given.all .tableHint, given.generateKey⟩
  | _, _ => .rejected

end Given

/-- How reading goes on after an argument: with the next one, with the next one as the value of a
setting, or not at all. -/
inductive Progress where
  | next (given : Given)
  | pending (given : Given) (setting : Setting)
  | done (request : Request)

def Progress.ofGiven : Option Given → Progress
  | some given => .next given
  | none => .done .rejected

/-- Options of one letter, written together. A setting takes the letters after it, without the
equals sign that may stand between. -/
def readShort (given : Given) : List Char → Progress
  | [] => .next given
  | c :: cs =>
    match Switch.ofShort c with
    | none => .done .rejected
    | some .version => .done .version
    | some .help => .done .help
    | some .generateKey =>
      match given.addKey with
      | some given => readShort given cs
      | none => .done .rejected
    | some (.setting setting) =>
      match cs with
      | [] => .pending given setting
      | '=' :: value => .ofGiven (given.add setting (String.ofList value))
      | value => .ofGiven (given.add setting (String.ofList value))

/-- An option by its full name, with the value after the equals sign if there is one. -/
def readLong (given : Given) (name : String) (value : Option String) : Progress :=
  match Switch.ofLong name, value with
  | some (.setting setting), some value => .ofGiven (given.add setting value)
  | some (.setting setting), none => .pending given setting
  | some .generateKey, none => .ofGiven given.addKey
  | some .version, none => .done .version
  | some .help, none => .done .help
  | _, _ => .done .rejected

/-- The name and the value of an option, cut at the first equals sign. -/
def cutLong (cs : List Char) : String × Option String :=
  (String.ofList (cs.takeWhile (· != '=')),
    match cs.dropWhile (· != '=') with
    | [] => none
    | _ :: value => some (String.ofList value))

/-- An argument that is not a value. None is taken by place, so a plain word is rejected. -/
def readArgument (given : Given) (argument : String) : Progress :=
  match argument.toList with
  | '-' :: '-' :: cs =>
    let (name, value) := cutLong cs
    readLong given name value
  | '-' :: c :: cs => readShort given (c :: cs)
  | _ => .done .rejected

/-- The argument can be the value of an option before it. -/
def isValue (argument : String) : Bool :=
  match argument.toList with
  | '-' :: _ :: _ => false
  | _ => true

mutual

/-- Reads the arguments after those that gave `given`. Two dashes end the options, and nothing can
follow them. -/
def readFrom (given : Given) : List String → Request
  | [] => given.request
  | "--" :: [] => given.request
  | "--" :: _ => .rejected
  | argument :: arguments =>
    match readArgument given argument with
    | .next given => readFrom given arguments
    | .pending given setting => readValue given setting arguments
    | .done request => request

/-- Reads the next argument as the value of a setting. -/
def readValue (given : Given) (setting : Setting) : List String → Request
  | [] => .rejected
  | value :: arguments =>
    if isValue value then
      match given.add setting value with
      | some given => readFrom given arguments
      | none => .rejected
    else .rejected

end

def Request.ofArguments (arguments : List String) : Request :=
  readFrom .empty arguments

end Sharding.CommandLine
