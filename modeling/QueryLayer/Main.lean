import QueryLayer.Cli.Request

/-!
# The program

Reads the script file that a request names, answers the request and prints.
-/

namespace QueryLayer

namespace Cli

/-- The content of a file, or the reason why it cannot be read. -/
def readContent (file : String) : IO (Except String String) := do
  try
    return .ok (← IO.FS.readFile file)
  catch
    | .noFileOrDirectory .. => return .error "No such file or directory (os error 2)"
    | e => return .error (toString e)

/-- Prints an answer. -/
def Answer.print (a : Answer) : IO UInt32 := do
  (← IO.getStdout).putStr a.output
  (← IO.getStderr).putStr a.errors
  return a.code

/-- Answers the arguments. -/
def run (arguments : List String) : IO UInt32 := do
  match Request.read arguments (← IO.getEnv dialectVariable) with
  | none => Answer.wrongUsage.print
  | some request =>
    let content ← match request.task with
      | .compile file => readContent file
      | .dialects => pure (.ok "")
    (request.answer Registry.defaults content).print

end Cli

end QueryLayer

/-- The program's entry. -/
def main (arguments : List String) : IO UInt32 := QueryLayer.Cli.run arguments
