import CodeSearch.Command.Reader
import CodeSearch.Command.Run
import CodeSearch.Project.Json

/-! # The program

The command is given by the arguments. The project is read from the first line of the standard
input, an object of the root's path, the files, and the time on the clock.
-/

namespace CodeSearch

/-- The clock of a project that does not tell the time. -/
def epoch : Time.Instant :=
  ⟨0, 0⟩

/-- Run a command, and give what is printed or why nothing is. -/
def respond (invocation : Invocation) (line : String) : Except String String :=
  match Json.ofText? line with
  | none => .error "the project cannot be read"
  | some j =>
    let now := (j.time? "now").getD epoch
    let project := Project.ofJson (j.text "root") now (j.member "files")
    match invocation.command.run project now with
    | .ok output => .ok output.render
    | .error cause => .error cause.message

end CodeSearch

def main (arguments : List String) : IO UInt32 := do
  match CodeSearch.Invocation.ofArguments arguments with
  | .error cause =>
    (← IO.getStderr).putStrLn cause.kind
    return cause.exitCode.toUInt32
  | .ok invocation =>
    let line ← (← IO.getStdin).getLine
    match CodeSearch.respond invocation line with
    | .ok text =>
      (← IO.getStdout).putStr text
      return 0
    | .error message =>
      (← IO.getStderr).putStrLn message
      return 1
