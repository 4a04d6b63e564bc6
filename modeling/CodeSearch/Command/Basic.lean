import CodeSearch.Argument.Request

/-! # Commands

What can be asked for on the command line.
-/

namespace CodeSearch

/-- Something to do with a project. -/
inductive Command where
  /-- Index the project, and tell how much was found. -/
  | index (path : String)
  | query (path question : String) (filters : List String) (topK : Option Nat)
      (withPatterns : Bool)
  | similar (path name : String) (threshold : Score)
  | patterns (path name : String)
  deriving Repr, BEq, Inhabited

/-- A command with what goes for every command. -/
structure Invocation where
  verbose : Bool
  command : Command
  deriving Repr, BEq, Inhabited

/-- Why arguments ask for no command. -/
inductive UsageError where
  | helpWanted
  | versionWanted
  | nothingGiven
  | noCommand
  | unknownCommand
  | unknownArgument
  | missingArgument
  /-- An option without its value, or an empty path. -/
  | invalidValue
  /-- A value that cannot be read. -/
  | unreadableValue
  | tooManyValues
  /-- An option that is given twice. -/
  | conflict
  deriving Repr, DecidableEq, Inhabited

namespace UsageError

def kind : UsageError → String
  | helpWanted => "DisplayHelp"
  | versionWanted => "DisplayVersion"
  | nothingGiven => "DisplayHelpOnMissingArgumentOrSubcommand"
  | noCommand => "MissingSubcommand"
  | unknownCommand => "InvalidSubcommand"
  | unknownArgument => "UnknownArgument"
  | missingArgument => "MissingRequiredArgument"
  | invalidValue => "InvalidValue"
  | unreadableValue => "ValueValidation"
  | tooManyValues => "TooManyValues"
  | conflict => "ArgumentConflict"

/-- The exit code: help and version were asked for. -/
def exitCode : UsageError → Nat
  | helpWanted | versionWanted => 0
  | _ => 2

end UsageError

end CodeSearch
