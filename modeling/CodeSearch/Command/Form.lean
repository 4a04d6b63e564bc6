import CodeSearch.Command.Basic

/-! # Forms of arguments

A form says what may be given to a command: words in a fixed order, and options by name or letter.
Arguments are read from left to right. The value of an option, or a word, is looked at only when
the next argument is known to belong to the form, or when there is none.
-/

namespace CodeSearch

inductive OptionRole where
  /-- It is on when it is given. -/
  | switch
  /-- It has one value, which has to be accepted. -/
  | single (accepts : String → Bool)
  /-- It has a value each time it is given. -/
  | repeated
  /-- It ends the reading. -/
  | stop (error : UsageError)
  deriving Inhabited

structure OptionForm where
  name : String
  letter : Option Char := none
  role : OptionRole
  deriving Inhabited

namespace OptionForm

def hasValue (o : OptionForm) : Bool :=
  match o.role with
  | .single _ | .repeated => true
  | _ => false

def verbose : OptionForm :=
  { name := "verbose", letter := some 'v', role := .switch }

def help : OptionForm :=
  { name := "help", letter := some 'h', role := .stop .helpWanted }

def version : OptionForm :=
  { name := "version", letter := some 'V', role := .stop .versionWanted }

end OptionForm

/-- What may be given. -/
structure Form where
  /-- For each word, whether it may be empty. -/
  words : List Bool
  options : List OptionForm

namespace Form

/-- Something that was given but not looked at yet. -/
inductive Pending where
  | word (text : String) (mayBeEmpty : Bool)
  /-- An option that has no value so far. -/
  | awaiting (option : OptionForm)
  | valued (option : OptionForm) (value : String)
  deriving Inhabited

structure Reading where
  /-- The words, the last one first. -/
  words : List String := []
  /-- Names of the options with their values, the last one first. -/
  given : List (String × String) := []
  pending : Option Pending := none
  /-- Whether no options follow. -/
  onlyWords : Bool := false
  deriving Inhabited

namespace Reading

/-- The values of an option in order. -/
def values (r : Reading) (name : String) : List String :=
  (r.given.filter (·.1 == name)).reverse.map (·.2)

def has (r : Reading) (name : String) : Bool :=
  r.given.any (·.1 == name)

def note (r : Reading) (o : OptionForm) (value : String) : Except UsageError Reading :=
  let noted := { r with given := (o.name, value) :: r.given }
  match o.role with
  | .stop error => .error error
  | .repeated => .ok noted
  | .switch => if r.has o.name then .error .conflict else .ok noted
  | .single accepts =>
    if r.has o.name then .error .conflict
    else if accepts value then .ok noted
    else .error .unreadableValue

/-- Look at what is pending. -/
def settle (r : Reading) : Except UsageError Reading :=
  let rest := { r with pending := none }
  match r.pending with
  | none => .ok rest
  | some (.word text mayBeEmpty) =>
    if text.isEmpty && !mayBeEmpty then .error .invalidValue else .ok rest
  | some (.awaiting _) => .error .invalidValue
  | some (.valued o value) => rest.note o value

/-- An option without a value, or whose value is still to come. -/
def takeOption (r : Reading) (o : OptionForm) : Except UsageError Reading := do
  let r ← r.settle
  if o.hasValue then pure { r with pending := some (.awaiting o) } else r.note o ""

/-- An option with the value that stands in the same argument. -/
def takeValued (r : Reading) (o : OptionForm) (value : String) : Except UsageError Reading := do
  if o.hasValue then (← r.settle).note o value else .error .tooManyValues

end Reading

/-- An argument that begins with two hyphens, without these. -/
def readLong (f : Form) (r : Reading) (argument : String) : Except UsageError Reading :=
  match Text.cut? argument '=' with
  | some (name, value) =>
    match f.options.find? (·.name == name) with
    | some o => r.takeValued o value
    | none => .error .unknownArgument
  | none =>
    match f.options.find? (·.name == argument) with
    | some o => r.takeOption o
    | none => .error .unknownArgument

/-- The letters behind one hyphen. What follows an option with a value is that value, with or
    without an equals sign before it. -/
def readLetters (f : Form) (r : Reading) : List Char → Except UsageError Reading
  | [] => .ok r
  | c :: rest =>
    match f.options.find? (·.letter == some c) with
    | none => .error .unknownArgument
    | some o =>
      if o.hasValue && !rest.isEmpty then
        r.takeValued o (String.ofList (if rest.head? == some '=' then rest.drop 1 else rest))
      else do readLetters f (← r.takeOption o) rest

/-- A word, for which there has to be a place. -/
def readWord (f : Form) (r : Reading) (text : String) : Except UsageError Reading :=
  match f.words[r.words.length]? with
  | none => .error .unknownArgument
  | some mayBeEmpty => do
    let r ← r.settle
    pure { r with words := text :: r.words, pending := some (.word text mayBeEmpty) }

def readArgument (f : Form) (r : Reading) (argument : String) : Except UsageError Reading :=
  if r.onlyWords then f.readWord r argument
  else
    match argument.toList with
    | ['-', '-'] => .ok { r with onlyWords := true }
    | '-' :: '-' :: rest => f.readLong r (String.ofList rest)
    | '-' :: c :: rest => f.readLetters r (c :: rest)
    | _ =>
      match r.pending with
      | some (.awaiting o) => .ok { r with pending := some (.valued o argument) }
      | _ => f.readWord r argument

/-- Read all arguments. Every word has to be given. -/
def read (f : Form) (arguments : List String) : Except UsageError Reading := do
  let r ← (← arguments.foldlM f.readArgument {}).settle
  if r.words.length < f.words.length then throw .missingArgument else pure r

end Form

end CodeSearch
