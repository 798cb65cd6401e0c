import ModelSql.Schema.FullText
import ModelSql.Text.Occurrence
/-!
# Command-line arguments

Options come first, then a command, then the options of the command. The value
of an option is attached to it, or is the next argument, which may then not look
like an option itself. Flags of one letter run together, and the last of them may
take a value. No option but the columns of an index is given twice.

Arguments are read from the left, and the first mistake makes them unusable. A
request for the version is answered as soon as it is met.
-/

namespace ModelSql.CommandLine

/-- What is asked of the program. -/
inductive Command where
  | templates
  | createTable
  | fullText (columns : List String) (mode : FullTextMode)
deriving DecidableEq, Repr

structure Options where
  modelPath : String
  engine : Engine
  tableName : Option String
  settingsPath : Option String
  verbose : Bool
  command : Command
deriving DecidableEq, Repr

/-- What usable arguments ask for. -/
inductive Invocation where
  | version
  | run (options : Options)
deriving DecidableEq, Repr

/-- The options that take a value. -/
inductive ValueOption where
  | model
  | engine
  | table
  | settings
deriving DecidableEq, Repr

def ValueOption.ofName? (name : String) : Option ValueOption :=
  [("model", model), ("dialect", engine), ("table", table), ("config", settings)].lookup name

def ValueOption.ofLetter? (letter : Char) : Option ValueOption :=
  [('m', model), ('d', engine), ('t', table), ('c', settings)].lookup letter

structure Given where
  modelPath : Option String := none
  engine : Option Engine := none
  tableName : Option String := none
  settingsPath : Option String := none
  verbose : Bool := false
deriving DecidableEq, Repr

/-- The value of an option that is not yet given. -/
def once {α : Type} (given : Option α) (value : Option α) : Option (Option α) :=
  if given.isSome then none else value.map some

/-- A path, which cannot be empty. -/
def path? (value : String) : Option String :=
  if value.isEmpty then none else some value

namespace Given

def set (g : Given) (value : String) : ValueOption → Option Given
  | .model => (once g.modelPath (path? value)).map fun v => { g with modelPath := v }
  | .engine => (once g.engine (Engine.ofName? value)).map fun v => { g with engine := v }
  | .table => (once g.tableName (some value)).map fun v => { g with tableName := v }
  | .settings => (once g.settingsPath (path? value)).map fun v => { g with settingsPath := v }

def setVerbose (g : Given) : Option Given :=
  if g.verbose then none else some { g with verbose := true }

/-- The engine given, or else that of the environment, or else SQLite. -/
def chosenEngine (g : Given) (environment : Option String) : Option Engine :=
  match g.engine, environment with
  | some engine, _ => some engine
  | none, some name => Engine.ofName? name
  | none, none => some .sqlite

/-- All that the options and a command say, if nothing is missing. -/
def complete (g : Given) (environment : Option String) (command : Command) : Option Options := do
  return {
    modelPath := ← g.modelPath
    engine := ← g.chosenEngine environment
    tableName := g.tableName
    settingsPath := g.settingsPath
    verbose := g.verbose
    command := command }

end Given

/-- Whether an argument can be the value of the option before it. -/
def isValue (argument : String) : Bool :=
  match argument.toList with
  | '-' :: _ :: _ => false
  | _ => true

/-- The name of a long option, and the value attached to it by an equals sign. -/
def splitLong (option : List Char) : String × Option String :=
  let name := String.ofList (option.takeWhile (· ≠ '='))
  match option.dropWhile (· ≠ '=') with
  | [] => (name, none)
  | _ :: value => (name, some (String.ofList value))

/-- Where options that run together lead. -/
inductive Step where
  | done (g : Given)
  | version
  /-- An option whose value is the next argument. -/
  | awaits (g : Given) (option : ValueOption)
deriving DecidableEq, Repr

/-- Options of one letter. What follows the letter of an option with a value is its value. -/
def readLetters (g : Given) : List Char → Option Step
  | [] => some (.done g)
  | letter :: rest =>
    if letter = 'V' then some .version
    else if letter = 'v' then do
      let g ← g.setVerbose
      readLetters g rest
    else do
      let option ← ValueOption.ofLetter? letter
      match rest with
      | [] => return .awaits g option
      | '=' :: value => (g.set (String.ofList value) option).map .done
      | value => (g.set (String.ofList value) option).map .done

def readLong (g : Given) (option : List Char) : Option Step :=
  match splitLong option with
  | ("version", none) => some .version
  | ("verbose", none) => g.setVerbose.map .done
  | (name, value) => do
    let option ← ValueOption.ofName? name
    match value with
    | none => return .awaits g option
    | some value => (g.set value option).map .done

def modes : List (String × FullTextMode) :=
  [("content", .content), ("content-less", .contentLess), ("external-content", .externalContent)]

/-- A full-text command, unless it has no columns. -/
def fullTextCommand? (columns : List String) (mode : Option FullTextMode) : Option Command :=
  if columns.isEmpty then none else some (.fullText columns (mode.getD .externalContent))

/-- The options of the full-text command. Columns add up, and commas separate them. -/
def readFullText (columns : List String) (mode : Option FullTextMode) :
    List String → Option Command
  | [] => fullTextCommand? columns mode
  | argument :: rest =>
    match argument.toList with
    | ['-', '-'] => if rest.isEmpty then fullTextCommand? columns mode else none
    | '-' :: '-' :: option =>
      match splitLong option, rest with
      | ("columns", some value), rest =>
        readFullText (columns ++ Text.splitOn ',' value) mode rest
      | ("columns", none), value :: rest =>
        if isValue value then readFullText (columns ++ Text.splitOn ',' value) mode rest else none
      | ("mode", some value), rest => do
        let mode ← once mode (modes.lookup value)
        readFullText columns mode rest
      | ("mode", none), value :: rest =>
        if isValue value then do
          let mode ← once mode (modes.lookup value)
          readFullText columns mode rest
        else none
      | _, _ => none
    | _ => none

/-- Whether nothing is left but the mark that ends options. -/
def isSpent (arguments : List String) : Bool := arguments.isEmpty || arguments = ["--"]

/-- A command with its options. -/
def readCommand (name : String) (rest : List String) : Option Command :=
  if name = "templates" then if isSpent rest then some .templates else none
  else if name = "create-table" then if isSpent rest then some .createTable else none
  else if name = "fts" then readFullText [] none rest
  else none

/-- The arguments after the options `g`. -/
def readArguments (environment : Option String) (g : Given) : List String → Option Invocation
  | [] => none
  | argument :: rest =>
    let step : Option (Option Step) :=
      match argument.toList with
      | '-' :: '-' :: option => some (readLong g option)
      | '-' :: letter :: letters => some (readLetters g (letter :: letters))
      | _ => none
    match step, rest with
    | none, rest => do
      let command ← readCommand argument rest
      return .run (← g.complete environment command)
    | some none, _ => none
    | some (some .version), _ => some .version
    | some (some (.done g)), rest => readArguments environment g rest
    | some (some (.awaits g option)), value :: rest =>
      if isValue value then do
        let g ← g.set value option
        readArguments environment g rest
      else none
    | some (some (.awaits ..)), [] => none

/-- What the arguments ask for, if they can be used. The environment may name the
engine, and is looked at only if the arguments do not. -/
def parse? (arguments : List String) (environment : Option String) : Option Invocation :=
  readArguments environment {} arguments

end ModelSql.CommandLine
