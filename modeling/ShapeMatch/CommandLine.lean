import ShapeMatch.Check

/-!
# The command line

Arguments are options and the paths of documents, in any order. What is asked for twice, left
out, or asked for together with its opposite is an error of usage.

## Main definitions

* `Setting`, `Toggle`: options with and without a value.
* `CheckRequest`, `Request`: what arguments ask for.
* `parseArguments`: reads arguments.
* `respond`: what the program prints, and its exit code.
-/

namespace ShapeMatch

/-- An option that takes a value. -/
inductive Setting where
  | schema
  | format
deriving DecidableEq, Repr

/-- An option without a value. -/
inductive Toggle where
  | json
  | quiet
  | verbose
  | logJson
deriving DecidableEq, Repr

/-- An option. The last two are answered at once. -/
inductive CommandOption where
  | setting (s : Setting)
  | toggle (t : Toggle)
  | help
  | version
deriving DecidableEq, Repr

/-- The option with a long name. -/
def longOption? : String → Option CommandOption
  | "schema" => some (.setting .schema)
  | "format" => some (.setting .format)
  | "json" => some (.toggle .json)
  | "quiet" => some (.toggle .quiet)
  | "verbose" => some (.toggle .verbose)
  | "log-json" => some (.toggle .logJson)
  | "help" => some .help
  | "version" => some .version
  | _ => none

/-- The option with a letter. -/
def shortOption? : Char → Option CommandOption
  | 's' => some (.setting .schema)
  | 'q' => some (.toggle .quiet)
  | 'v' => some (.toggle .verbose)
  | 'h' => some .help
  | 'V' => some .version
  | _ => none

/-- Why arguments cannot be used. -/
inductive UsageError where
  | unknownOption (text : String)
  | missingValue (s : Setting)
  | unexpectedValue (text : String)
  | invalidFormat (text : String)
  | emptyPath
  | repeatedSetting (s : Setting)
  | repeatedToggle (t : Toggle)
  | missingSchema
  | missingDocuments
  | conflict
deriving DecidableEq, Repr

/-- The long name of an option that takes a value. -/
def Setting.name : Setting → String
  | schema => "--schema"
  | format => "--format"

/-- The long name of an option without a value. -/
def Toggle.name : Toggle → String
  | json => "--json"
  | quiet => "--quiet"
  | verbose => "--verbose"
  | logJson => "--log-json"

def UsageError.message : UsageError → String
  | unknownOption text => "unexpected argument " ++ text
  | missingValue s => "a value is required for " ++ s.name
  | unexpectedValue text => "unexpected value " ++ text
  | invalidFormat text => "invalid value " ++ text ++ " for --format"
  | emptyPath => "a path must not be empty"
  | repeatedSetting s => s.name ++ " cannot be used multiple times"
  | repeatedToggle t => t.name ++ " cannot be used multiple times"
  | missingSchema => "--schema is required"
  | missingDocuments => "at least one document is required"
  | conflict => "--json cannot be used with --quiet"

/-- What arguments have asked for so far. -/
structure Settings where
  schema : Option String
  format : Option Format
  toggles : List Toggle
  documents : List String

/-- A check that is asked for. -/
structure CheckRequest where
  schema : String
  documents : List String
  format : Format
  toggles : List Toggle
deriving DecidableEq, Repr

/-- What arguments ask for. -/
inductive Request where
  | check (r : CheckRequest)
  | help
  | version
deriving DecidableEq, Repr

namespace Settings

def empty : Settings := ⟨none, none, [], []⟩

/-- Adds the path of a document. -/
def addDocument (s : Settings) (path : String) : Except UsageError Settings :=
  if path.isEmpty then .error .emptyPath else .ok { s with documents := s.documents ++ [path] }

/-- Sets an option without a value, which may be set once. -/
def setToggle (s : Settings) (t : Toggle) : Except UsageError Settings :=
  if s.toggles.contains t then .error (.repeatedToggle t)
  else .ok { s with toggles := s.toggles ++ [t] }

/-- The format with a name. -/
def format? : String → Option Format
  | "auto" => some .auto
  | "json" => some .json
  | "yaml" => some .yaml
  | _ => none

/-- Sets an option that takes a value, which may be set once. -/
def setValue (s : Settings) (setting : Setting) (value : String) : Except UsageError Settings :=
  match setting with
  | .schema =>
    if value.isEmpty then .error .emptyPath
    else if s.schema.isSome then .error (.repeatedSetting .schema)
    else .ok { s with schema := some value }
  | .format =>
    match format? value with
    | none => .error (.invalidFormat value)
    | some f =>
      if s.format.isSome then .error (.repeatedSetting .format)
      else .ok { s with format := some f }

/-- The check that is asked for once all arguments have been read. -/
def finish (s : Settings) : Except UsageError CheckRequest :=
  match s.schema with
  | none => .error .missingSchema
  | some schema =>
    if s.documents.isEmpty then .error .missingDocuments
    else if s.toggles.contains .json && s.toggles.contains .quiet then .error .conflict
    else .ok ⟨schema, s.documents, s.format.getD .auto, s.toggles⟩

end Settings

/-- What one argument leads to: more settings, a value to come, only paths from here on, or an
answer at once. -/
inductive Reading where
  | more (s : Settings)
  | awaiting (setting : Setting) (s : Settings)
  | pathsOnly (s : Settings)
  | answer (r : Request)

/-- Whether an argument has the form of an option. A single dash has not. -/
def looksLikeOption (argument : String) : Bool := argument.startsWith "-" && argument != "-"

/-- Reads the letters of short options. The first that takes a value takes the rest for it,
without an equals sign in front. -/
def readLetters (s : Settings) : List Char → Except UsageError Reading
  | [] => .ok (.more s)
  | c :: rest =>
    match shortOption? c with
    | none => .error (.unknownOption (String.ofList ['-', c]))
    | some (.setting setting) =>
      match rest with
      | [] => .ok (.awaiting setting s)
      | '=' :: value => (s.setValue setting (String.ofList value)).map .more
      | value => (s.setValue setting (String.ofList value)).map .more
    | some (.toggle t) => (s.setToggle t).bind fun s => readLetters s rest
    | some .help => .ok (.answer .help)
    | some .version => .ok (.answer .version)

/-- Reads a long option, whose value may follow an equals sign. -/
def readLong (s : Settings) (text : List Char) : Except UsageError Reading :=
  let name := String.ofList (text.takeWhile (· != '='))
  let value := match text.dropWhile (· != '=') with
    | _ :: value => some (String.ofList value)
    | [] => none
  match longOption? name, value with
  | none, _ => .error (.unknownOption name)
  | some (.setting setting), some value => (s.setValue setting value).map .more
  | some (.setting setting), none => .ok (.awaiting setting s)
  | some _, some value => .error (.unexpectedValue value)
  | some (.toggle t), none => (s.setToggle t).map .more
  | some .help, none => .ok (.answer .help)
  | some .version, none => .ok (.answer .version)

/-- Reads one argument where options may stand. -/
def readArgument (s : Settings) (argument : String) : Except UsageError Reading :=
  if !looksLikeOption argument then (s.addDocument argument).map .more
  else if argument == "--" then .ok (.pathsOnly s)
  else
    match argument.toList with
    | '-' :: '-' :: text => readLong s text
    | text => readLetters s (text.drop 1)

/-- Reads arguments of which all are paths. -/
def readPaths (s : Settings) (arguments : List String) : Except UsageError Settings :=
  arguments.foldlM Settings.addDocument s

/-- Reads arguments. An option may wait for its value. -/
def readArguments (s : Settings) (awaiting : Option Setting) :
    List String → Except UsageError Request
  | [] =>
    match awaiting with
    | some setting => .error (.missingValue setting)
    | none => s.finish.map .check
  | argument :: rest =>
    match awaiting with
    | some setting =>
      if looksLikeOption argument then .error (.missingValue setting)
      else (s.setValue setting argument).bind fun s => readArguments s none rest
    | none =>
      match readArgument s argument with
      | .error e => .error e
      | .ok (.more s) => readArguments s none rest
      | .ok (.awaiting setting s) => readArguments s (some setting) rest
      | .ok (.pathsOnly s) => ((readPaths s rest).bind Settings.finish).map .check
      | .ok (.answer r) => .ok r

/-- What arguments ask for. -/
def parseArguments (arguments : List String) : Except UsageError Request :=
  readArguments .empty none arguments

/-! ## Answers -/

/-- What the program prints, what it says about errors, and its exit code. -/
structure Response where
  exitCode : Nat
  output : String
  diagnostic : String
deriving DecidableEq, Repr

/-- The name and the version of the program. -/
def versionText : String := "scheming 0.1.0\n"

/-- How the program is used. -/
def usageText : String :=
  "Match JSON and YAML documents against a scheming schema\n\n" ++
  "Usage: scheming [OPTIONS] --schema <SCHEMA> <DOCUMENTS>...\n"

/-- The answer to a check: the report in the form that is asked for. The exit code is 0 when
every document matches, and 1 otherwise. -/
def respondToCheck (read : FileReader) (r : CheckRequest) (readers : Readers := .standard) :
    Response :=
  match check read r.schema r.documents r.format readers with
  | .error e => ⟨1, "", e.message ++ "\n"⟩
  | .ok report =>
    let output :=
      if r.toggles.contains .json then report.layout.pretty ++ "\n"
      else if r.toggles.contains .quiet then ""
      else report.text
    ⟨if report.allMatched then 0 else 1, output, ""⟩

/-- The answer to arguments. Errors of usage give the exit code 2. -/
def respond (read : FileReader) (arguments : List String) (readers : Readers := .standard) :
    Response :=
  match parseArguments arguments with
  | .error e => ⟨2, "", e.message ++ "\n\n" ++ usageText⟩
  | .ok .help => ⟨0, usageText, ""⟩
  | .ok .version => ⟨0, versionText, ""⟩
  | .ok (.check r) => respondToCheck read r readers

end ShapeMatch
