/-!
# The command line

The arguments of the program: options with a value, flags, and the words of the question.  An
option is given by its long name or, if it has one, by a letter; its value follows behind an equals
sign or as the next argument.  Letters may be run together, and behind `--` everything is a word of
the question.
-/

namespace AskSql.CommandLine

/-- An option with a value. -/
inductive Setting where
  | schema | format | tableName | dialect | config | strategy
  deriving DecidableEq, Repr

/-- A flag. -/
inductive Flag where
  | analyze | json | plan | verbose | help
  deriving DecidableEq, Repr

/-- The long names of the options. -/
def Setting.names : List (String × Setting) :=
  [("schema", schema), ("format", format), ("table-name", tableName), ("dialect", dialect),
    ("config", config), ("strategy", strategy)]

/-- The letters of the options. -/
def Setting.letters : List (Char × Setting) :=
  [('s', schema), ('d', dialect), ('c', config)]

/-- The long names of the flags. -/
def Flag.names : List (String × Flag) :=
  [("analyze", analyze), ("json", json), ("plan", plan), ("verbose", verbose), ("help", help)]

/-- The letters of the flags. -/
def Flag.letters : List (Char × Flag) :=
  [('v', verbose), ('h', help)]

/-- An option as it stands in the messages of the program. -/
def Setting.usage : Setting → String
  | schema => "--schema <SCHEMA>"
  | format => "--format <FORMAT>"
  | tableName => "--table-name <TABLE_NAME>"
  | dialect => "--dialect <DIALECT>"
  | config => "--config <CONFIG>"
  | strategy => "--strategy <STRATEGY>"

/-- What is wrong with some arguments. -/
inductive Misuse where
  | unexpected (argument : String)
  | valueMissing (setting : Setting)
  | repeated (setting : Setting)
  | invalid (value : String) (setting : Setting)
  | schemaMissing
  deriving DecidableEq, Repr

/-- How the program is used. -/
def usage : String :=
  "Usage: nlsql [OPTIONS] --schema <SCHEMA> [QUESTION]..."

/-- The misuse in words. -/
def Misuse.reason : Misuse → String
  | unexpected argument => "unexpected argument '" ++ argument ++ "' found"
  | valueMissing setting =>
    "a value is required for '" ++ setting.usage ++ "' but none was supplied"
  | repeated setting =>
    "the argument '" ++ setting.usage ++ "' cannot be used multiple times"
  | invalid value setting =>
    "invalid value '" ++ value ++ "' for '" ++ setting.usage ++ "'"
  | schemaMissing =>
    "the following required arguments were not provided:\n  " ++ Setting.schema.usage

/-- The message on a misuse. -/
def Misuse.message (m : Misuse) : String :=
  "error: " ++ m.reason ++ "\n\n" ++ usage ++ "\n\nFor more information, try '--help'."

/-- The arguments in their parts. -/
structure Arguments where
  words : List String := []
  settings : List (Setting × String) := []
  flags : List Flag := []
  deriving DecidableEq, Repr

namespace Arguments

/-- The value of an option. -/
def value? (a : Arguments) (setting : Setting) : Option String :=
  a.settings.lookup setting

/-- The flag is given. -/
def has (a : Arguments) (flag : Flag) : Bool :=
  a.flags.contains flag

/-- Sets an option that is not set yet. -/
def set (a : Arguments) (setting : Setting) (value : String) : Except Misuse Arguments :=
  if (a.value? setting).isSome then .error (.repeated setting)
  else .ok { a with settings := a.settings ++ [(setting, value)] }

/-- Sets a flag. -/
def raise (a : Arguments) (flag : Flag) : Arguments :=
  { a with flags := a.flags ++ [flag] }

/-- A text without an equals sign in front. -/
def withoutEquals : List Char → String
  | '=' :: cs => String.ofList cs
  | cs => String.ofList cs

/-- Takes letters that are run together.  The last one may be an option whose value is still to
come. -/
def takeLetters (whole : String) (a : Arguments) :
    List Char → Except Misuse (Arguments × Option Setting)
  | [] => .ok (a, none)
  | c :: cs =>
    match Flag.letters.lookup c, Setting.letters.lookup c with
    | some flag, _ => takeLetters whole (a.raise flag) cs
    | none, some setting =>
      if cs.isEmpty then .ok (a, some setting)
      else do return (← a.set setting (withoutEquals cs), none)
    | none, none => .error (.unexpected whole)

/-- Takes a long name, with or without a value behind an equals sign. -/
def takeLong (whole : String) (a : Arguments) (cs : List Char) :
    Except Misuse (Arguments × Option Setting) :=
  let name := String.ofList (cs.takeWhile (· != '='))
  let rest := cs.dropWhile (· != '=')
  match Flag.names.lookup name, Setting.names.lookup name with
  | some flag, _ => if rest.isEmpty then .ok (a.raise flag, none) else .error (.unexpected whole)
  | none, some setting =>
    if rest.isEmpty then .ok (a, some setting)
    else do return (← a.set setting (withoutEquals rest), none)
  | none, none => .error (.unexpected whole)

/-- Takes one argument.  It may be an option whose value is still to come. -/
def takeOne (a : Arguments) (argument : String) :
    Except Misuse (Arguments × Option Setting) :=
  match argument.toList with
  | '-' :: '-' :: cs => takeLong argument a cs
  | '-' :: c :: cs => takeLetters argument a (c :: cs)
  | _ => .ok ({ a with words := a.words ++ [argument] }, none)

/-- Takes the arguments one after the other, with the option that waits for its value. -/
def take (a : Arguments) : Option Setting → List String → Except Misuse Arguments
  | none, [] => .ok a
  | some setting, [] => .error (.valueMissing setting)
  | some setting, value :: rest => do take (← a.set setting value) none rest
  | none, argument :: rest => do
    if argument == "--" then return { a with words := a.words ++ rest }
    else
      let (a, waiting) ← takeOne a argument
      take a waiting rest

/-- The arguments of the program, among them the file of the schema, unless help is asked for. -/
def ofList (arguments : List String) : Except Misuse Arguments := do
  let a ← take {} none arguments
  if (a.value? .schema).isNone && !a.has .help then throw .schemaMissing
  return a

/-- The question, if there is one. -/
def question? (a : Arguments) : Option String :=
  if a.words.isEmpty then none else some (String.intercalate " " a.words)

end Arguments

/-- What the program prints when it is asked for help. -/
def help : String :=
  String.intercalate "\n" [
    "Translate plain-English questions into SQL against a schema", "", usage, "", "Arguments:",
    "  [QUESTION]...  Question to translate; omit to read questions from stdin", "", "Options:",
    "  -s, --schema <SCHEMA>          Schema file (.sql DDL, .json, or .csv header)",
    "      --format <FORMAT>          Schema format: auto, ddl, json, csv [default: auto]",
    "      --table-name <TABLE_NAME>  Table name for CSV and JSON row schemas",
    "  -d, --dialect <DIALECT>        Output dialect: sqlite, postgres, mysql, ansi (defaults to the config's)",
    "  -c, --config <CONFIG>          JSON engine config file",
    "      --strategy <STRATEGY>      IR construction strategy [default: heuristic]",
    "      --analyze                  Print tokens, entities and intent instead of SQL",
    "      --json                     Print the full translation as JSON",
    "      --plan                     Print the estimated plan, alternatives and recommendations",
    "  -v, --verbose...               Increase log verbosity (-v debug, -vv trace)",
    "  -h, --help                     Print help"]

end AskSql.CommandLine
