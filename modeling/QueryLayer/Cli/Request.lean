import QueryLayer.Language
import QueryLayer.Script

/-!
# The command line

A request is read from the arguments and one environment variable. `dialects`
lists the registered dialects, and `compile` prints the commands of a script.
The answer is the exit code with the texts for both output streams; what the
steps before an error print is kept.
-/

namespace QueryLayer

namespace Cli

/-- What is asked for. -/
inductive Task where
  /-- The list of dialects. -/
  | dialects
  /-- The commands of a script file. -/
  | compile (file : String)
deriving DecidableEq, Repr

/-- A request. -/
structure Request where
  /-- The name of the language. -/
  dialect : String
  /-- What is asked for. -/
  task : Task
deriving DecidableEq, Repr

/-- The environment variable that names the language. -/
def dialectVariable : String := "DBQUERY_DIALECT"

/-- The language where none is named. -/
def defaultDialect : String := "SQLite"

/-- The options before the task. -/
structure Options where
  /-- The language, if it was named. -/
  dialect : Option String
  /-- More output was asked for. -/
  verbose : Bool
deriving DecidableEq, Repr

/-- An argument that is not the value of an option: it starts with a dash and
is more than that. -/
def isDashed (s : String) : Bool := s.startsWith "-" && s != "-"

/-- The task that the last arguments name. -/
def readTask : List String → Option Task
  | ["dialects"] | ["dialects", "--"] => some .dialects
  | ["compile", file] => if file.isEmpty || isDashed file then none else some (.compile file)
  | ["compile", "--", file] => if file.isEmpty then none else some (.compile file)
  | ["compile", file, "--"] => if file.isEmpty || isDashed file then none else some (.compile file)
  | _ => none

/-- Names the language, which may be done once. -/
def Options.setDialect (o : Options) (name : String) : Option Options :=
  if o.dialect.isSome then none else some { o with dialect := some name }

/-- Asks for more output, which may be done once. -/
def Options.setVerbose (o : Options) : Option Options :=
  if o.verbose then none else some { o with verbose := true }

/-- The value in an argument that holds its option's name before it. -/
def attached (arg : String) : Option String :=
  let mark := "--dialect=".toList
  if mark.isPrefixOf arg.toList then some (String.ofList (arg.toList.drop mark.length)) else none

/-- The options and the task of the arguments. Options stand before the task. -/
def readArguments (o : Options) : List String → Option (Options × Task)
  | [] => none
  | arg :: rest =>
    if arg = "--dialect" then
      match rest with
      | value :: rest =>
        if isDashed value then none
        else (o.setDialect value).bind fun o => readArguments o rest
      | [] => none
    else if arg = "-v" ∨ arg = "--verbose" then o.setVerbose.bind fun o => readArguments o rest
    else match attached arg with
      | some value => (o.setDialect value).bind fun o => readArguments o rest
      | none => (readTask (arg :: rest)).map fun t => (o, t)

/-- The request of the arguments and the environment. The option wins over the
variable, and either over the default. -/
def Request.read (arguments : List String) (environment : Option String) : Option Request :=
  (readArguments ⟨none, false⟩ arguments).map fun (o, task) =>
    ⟨(o.dialect.or environment).getD defaultDialect, task⟩

/-- What a request answers. -/
structure Answer where
  /-- The exit code. -/
  code : UInt32
  /-- The text for the standard output. -/
  output : String
  /-- The text for the standard error output. -/
  errors : String
deriving DecidableEq, Repr

/-- The answer to arguments that are no request. -/
def Answer.wrongUsage : Answer := ⟨2, "", "error: wrong usage\n"⟩

/-- The text with blanks after it up to a width. -/
def padded (width : Nat) (s : String) : String :=
  s ++ String.ofList (List.replicate (width - s.length) ' ')

/-- The line that describes a dialect. -/
def dialectLine (d : Dialect) : String :=
  padded 12 d.name ++ " " ++ padded 8 d.environment.title ++ " " ++
    String.ofList [d.quotes.opening, d.quotes.closing] ++ "  " ++ d.protocol ++ "\n"

/-- The list of dialects, and the document store after them. -/
def dialectList (r : Registry) : String :=
  String.join (r.dialects.map dialectLine) ++ Language.documentName ++ "\n"

/-- What is printed for a command. -/
def commandLines : Command → String
  | .sql q =>
    let params :=
      if q.params.isEmpty then ""
      else "  -- params: " ++ (Json.array (q.params.map Value.toJson)).compact ++ "\n"
    q.text ++ "\n" ++ params ++ String.join (q.additionalTexts.map (· ++ "\n"))
  | .document c => c.toJson.compact ++ "\n"

/-- What is printed for the steps of a script, up to the first that cannot be
compiled. -/
def printSteps (l : Language) : List Script.Step → Answer
  | [] => ⟨0, "", ""⟩
  | s :: rest =>
    match l.compile s.statement s.values with
    | .error e => ⟨1, "", "Error: " ++ e.message ++ "\n"⟩
    | .ok c =>
      let after := printSteps l rest
      { after with output := commandLines c ++ after.output }

/-- The answer to a script file that could not be read. -/
def unreadable (reason : String) : Answer :=
  ⟨1, "", "Error: IO error: " ++ reason ++ "\n\nCaused by:\n    " ++ reason ++ "\n"⟩

/-- The answer to a request, given the content of its file or the reason why
there is none. -/
def Request.answer (r : Request) (registry : Registry) (content : Except String String) : Answer :=
  match r.task with
  | .dialects => ⟨0, dialectList registry, ""⟩
  | .compile file =>
    match Language.named? registry r.dialect, content with
    | none, _ => ⟨1, "", "Error: " ++ Language.unknownMessage r.dialect ++ "\n"⟩
    | some _, .error reason => unreadable reason
    | some l, .ok text =>
      match Script.parse text with
      | none => ⟨1, "", "Error: Failed to parse script '" ++ file ++ "'\n"⟩
      | some steps => printSteps l steps

end Cli

end QueryLayer
