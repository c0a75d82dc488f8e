import AskSql.CommandLine
import AskSql.Interpreter.Document
import AskSql.Json.Pretty
import AskSql.Optimizer.Report
import AskSql.Render.Explain
import AskSql.Schema.Reading

/-!
# The program

Reads a schema and settings from files, and answers one question from the command line or a
conversation of questions from the standard input, one on each line.
-/

namespace AskSql.Program

open CommandLine

/-- Why the program stops: what it was doing, if that is to be told, and what went wrong. -/
structure Trouble where
  doing : Option String
  cause : String

namespace Trouble

/-- A failure on its own. -/
def ofFailure (f : Failure) : Trouble :=
  ⟨none, f.message⟩

/-- The trouble on several lines. -/
def report (t : Trouble) : String :=
  match t.doing with
  | some doing => "Error: " ++ doing ++ "\n\nCaused by:\n    " ++ t.cause
  | none => "Error: " ++ t.cause

/-- The trouble on one line. -/
def line (t : Trouble) : String :=
  "error: " ++ (t.doing.map fun doing => doing ++ ": ").getD "" ++ t.cause

end Trouble

/-- What is printed for an interpretation: the statement, its parameters, an explanation, and the
report of the optimizer if it is asked for. -/
def shown (withPlan : Bool) (t : Interpretation) : String :=
  let params := if t.params.isEmpty then [] else
    ["-- params: " ++ String.intercalate ", " (t.params.map Literal.describe)]
  let plan := if withPlan then ["", t.optimized.report] else []
  String.intercalate "\n" ([t.sql] ++ params ++ ["", t.explanation] ++ plan)

/-- What is printed for a question, with the interpreter as it is afterwards. -/
def answer (a : Arguments) (d : Dialect) (t : Interpreter) (question : String) :
    Except Trouble String × Interpreter :=
  if a.has .analyze then (.ok (t.analyze question).toJson.pretty, t)
  else
    let (result, t) := t.interpret question d
    let doing := "translating '" ++ question ++ "'"
    (match result with
      | .error f => .error ⟨some doing, f.message⟩
      | .ok r => .ok (if a.has .json then r.toJson.pretty else shown (a.has .plan) r), t)

/-- The text of a file, or why it cannot be read. -/
def contentOf (file : String) : IO (Except String String) := do
  try
    let bytes ← IO.FS.readBinFile file
    match String.fromUTF8? bytes with
    | some text => return .ok text
    | none => return .error "stream did not contain valid UTF-8"
  catch e => return .error (toString e)

/-- The settings of the file that is named, if one is. -/
def settingsOf (a : Arguments) : IO (Except Failure Settings) := do
  match a.value? .config with
  | none => return .ok {}
  | some file =>
    match ← contentOf file with
    | .ok text => return Settings.ofText text
    | .error reason => return .error (.config reason (some file))

/-- The last part of a path. -/
def fileName (path : String) : String :=
  String.ofList (path.toList.reverse.takeWhile (· != '/')).reverse

/-- The schema of the file that is named. -/
def schemaOf (a : Arguments) (format : SchemaFormat) : IO (Except Trouble Schema) := do
  let file := (a.value? .schema).getD ""
  let result : Except Failure Schema ← match ← contentOf file with
    | .ok text => pure (Schema.ofFile (fileName file) text format (a.value? .tableName))
    | .error reason => pure (.error (.malformedSchema reason none (some file)))
  return result.mapError fun f => ⟨some ("loading schema " ++ file), f.message⟩

/-- The strategy that is asked for. -/
def strategyOf (a : Arguments) (settings : Settings) : Except Misuse Strategy :=
  match a.value? .strategy with
  | none | some "heuristic" => .ok .heuristic
  | some "classifier" => .ok (.classifier settings.recognizer)
  | some other => .error (.invalid other .strategy)

/-- Answers questions until the input ends or the word for that is given. -/
partial def converse (a : Arguments) (d : Dialect) (t : Interpreter) : IO Unit := do
  let output ← IO.getStdout
  output.putStr "nlsql> "
  output.flush
  let line ← (← IO.getStdin).getLine
  let question := Text.trim line
  if line.isEmpty || ["exit", "quit"].any (Text.sameFold question) then output.putStrLn ""
  else if question.isEmpty then converse a d t
  else
    let (result, t) := answer a d t question
    match result with
    | .ok text => output.putStrLn text
    | .error e => IO.eprintln e.line
    converse a d t

/-- Prepares the interpreter and the dialect that the arguments ask for. -/
def prepare (a : Arguments) (settings : Settings) (strategy : Strategy) :
    IO (Except Trouble (Interpreter × Dialect)) := do
  match SchemaFormat.ofName ((a.value? .format).getD "auto") with
  | .error f => return .error (.ofFailure f)
  | .ok format =>
    match ← schemaOf a format with
    | .error e => return .error e
    | .ok schema =>
      return Except.mapError Trouble.ofFailure do
        let d ← match a.value? .dialect with
          | some name => Dialect.ofName name
          | none => pure settings.defaultDialect
        return (← Interpreter.ofSettings schema settings strategy, d)

/-- Does what the arguments ask for. -/
def run (a : Arguments) : IO UInt32 := do
  let stop (e : Trouble) : IO UInt32 := do
    IO.eprintln e.report
    return 1
  match ← settingsOf a with
  | .error f => stop (.ofFailure f)
  | .ok settings =>
    match strategyOf a settings with
    | .error m =>
      IO.eprintln m.message
      return 2
    | .ok strategy =>
      match ← prepare a settings strategy with
      | .error e => stop e
      | .ok (t, d) =>
        match a.question? with
        | none =>
          converse a d t
          return 0
        | some question =>
          match (answer a d t question).1 with
          | .error e => stop e
          | .ok text =>
            IO.println text
            return 0

/-- Does what the arguments ask for, or tells how the program is used. -/
def start (arguments : List String) : IO UInt32 := do
  match Arguments.ofList arguments with
  | .error m =>
    IO.eprintln m.message
    return 2
  | .ok a =>
    if a.has .help then
      IO.println help
      return 0
    else run a

end AskSql.Program

def main (arguments : List String) : IO UInt32 :=
  AskSql.Program.start arguments
