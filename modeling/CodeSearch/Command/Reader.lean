import CodeSearch.Command.Form

/-! # Reading commands

The first word is the name of a command; before it there may be options that go for every command.
The name `help` asks for help, on a command if one follows.
-/

namespace CodeSearch

namespace Command

/-- Whether a text is a natural number of 64 bits. -/
def isNat (s : String) : Bool :=
  (Argument.wordOf? s).isSome

/-- The options that every command has. -/
def commonOptions : List OptionForm :=
  [.verbose, .help]

/-- A command's words and its own options, and how it is made of what was read. -/
structure Entry where
  name : String
  words : List Bool
  options : List OptionForm := []
  make : List String → Form.Reading → Option Command

namespace Entry

def form (e : Entry) : Form :=
  { words := e.words, options := e.options ++ commonOptions }

def index : Entry :=
  { name := "index", words := [false]
    make := fun words _ =>
      match words with
      | [path] => some (.index path)
      | _ => none }

def query : Entry :=
  { name := "query", words := [false, true]
    options :=
      [{ name := "filter", letter := some 'f', role := .repeated },
       { name := "top-k", role := .single isNat },
       { name := "patterns", role := .switch }]
    make := fun words r =>
      match words with
      | [path, question] =>
        some (.query path question (r.values "filter")
          ((r.values "top-k").head?.bind Argument.wordOf?) (r.has "patterns"))
      | _ => none }

def threshold? (s : String) : Option Score :=
  (Decimal.Literal.ofText? s).map Decimal.Literal.toFloat32

def similar : Entry :=
  { name := "similar", words := [false, true]
    options := [{ name := "threshold", role := .single fun s => (threshold? s).isSome }]
    make := fun words r =>
      match words with
      | [path, name] =>
        some (.similar path name
          (((r.values "threshold").head?.bind threshold?).getD SimilarRequest.defaultThreshold))
      | _ => none }

def patterns : Entry :=
  { name := "patterns", words := [false, true]
    make := fun words _ =>
      match words with
      | [path, name] => some (.patterns path name)
      | _ => none }

def all : List Entry :=
  [index, query, similar, patterns]

def find? (name : String) : Option Entry :=
  all.find? (·.name == name)

end Entry

/-- Whether a text is the name of a command or `help`. -/
def isName (s : String) : Bool :=
  s == "help" || (Entry.find? s).isSome

/-- What follows `help`: nothing, or the name of one command. -/
def readHelp : List String → UsageError
  | [] => .helpWanted
  | [name] => if isName name then .helpWanted else .unknownCommand
  | _ => .unknownCommand

def readNamed (verbose : Bool) (name : String) (arguments : List String) :
    Except UsageError Invocation := do
  if name = "help" then throw (readHelp arguments)
  let some entry := Entry.find? name | throw .unknownCommand
  let r ← entry.form.read arguments
  match entry.make r.words.reverse r with
  | some command => pure { verbose := verbose || r.has OptionForm.verbose.name, command }
  | none => throw .missingArgument

/-- What may be given before the name of the command. -/
def outerForm : Form :=
  { words := [], options := commonOptions ++ [.version] }

/-- The end of the arguments, where no command was named. -/
def unnamed (r : Form.Reading) : UsageError :=
  if r.given.isEmpty then .nothingGiven else .noCommand

/-- Read options, and then the command. -/
def readFrom (r : Form.Reading) : List String → Except UsageError Invocation
  | [] => .error (unnamed r)
  | "--" :: [] => .error (unnamed r)
  | "--" :: word :: _ => .error (if isName word then .unknownArgument else .unknownCommand)
  | argument :: rest =>
    match argument.toList with
    | '-' :: _ :: _ => do readFrom (← outerForm.readArgument r argument) rest
    | _ => readNamed (r.has OptionForm.verbose.name) argument rest

end Command

/-- The command that arguments ask for. -/
def Invocation.ofArguments (arguments : List String) : Except UsageError Invocation :=
  Command.readFrom {} arguments

end CodeSearch
