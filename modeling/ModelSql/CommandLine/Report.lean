import ModelSql.CommandLine.Arguments
import ModelSql.Json.Reader
import ModelSql.Model.JsonForm
import ModelSql.Schema.CreateTable
import ModelSql.Statement.Template
import ModelSql.Table.Build
/-!
# Reports

What the program has to say to usable arguments, given the contents of files: a
line about the table once it is built, and then a script or the reason why there
is none.
-/

namespace ModelSql.CommandLine

/-- The files that the program reads. -/
inductive InputFile where
  | model
  | settings
deriving DecidableEq, Repr

def InputFile.label : InputFile → String
  | model => "model"
  | settings => "config"

/-- Why there is no script. -/
inductive Failure where
  | unreadable (file : InputFile) (path : String)
  | malformed (file : InputFile) (path : String)
  /-- The model has no table. -/
  | invalidModel (name : String) (fault : Fault)
  /-- The table does not have what the command asks for. -/
  | refused (fault : Fault)
deriving DecidableEq, Repr

namespace Failure

def message : Failure → String
  | unreadable file path => "failed to read " ++ file.label ++ " file " ++ path
  | malformed file path => "failed to parse " ++ file.label ++ " file " ++ path
  | invalidModel name _ => "invalid model `" ++ name ++ "`"
  | refused fault => fault.message

def cause? : Failure → Option Fault
  | invalidModel _ fault => some fault
  | _ => none

end Failure

structure Report where
  info : List String := []
  script : Except Failure String

/-- The value in a file, read by `decode`. -/
def load {α : Type} (contents : String → Option String) (decode : Json → Option α)
    (file : InputFile) (path : String) : Except Failure α :=
  match contents path with
  | none => .error (.unreadable file path)
  | some text =>
    match (Json.parse? text).bind decode with
    | none => .error (.malformed file path)
    | some value => .ok value

/-- The model and the settings. The model's file is looked at first. -/
def Options.inputs (o : Options) (contents : String → Option String) :
    Except Failure (Model × Settings) := do
  let model ← load contents Model.ofJson? .model o.modelPath
  let settings ← match o.settingsPath with
    | none => pure {}
    | some path => load contents Settings.ofJson? .settings path
  return (model, settings)

def templatesScript (table : Table) : String :=
  "\n\n".intercalate (table.templates.map fun t => "-- " ++ t.kind.label ++ "\n" ++ t.text)

def Command.script (table : Table) : Command → Except Failure String
  | templates => .ok (templatesScript table)
  | createTable => .ok table.createScript
  | fullText columns mode => (table.fullTextScript columns mode).mapError .refused

def announcement (table : Table) : String :=
  "Generating SQL for table " ++ table.name ++ " (" ++ table.engine.name ++ ")"

/-- What is said to the options, given the contents of files by path. -/
def Options.report (o : Options) (contents : String → Option String) : Report :=
  match o.inputs contents with
  | .error failure => { script := .error failure }
  | .ok (model, settings) =>
    match model.build o.engine o.tableName settings with
    | .error fault => { script := .error (.invalidModel model.name fault) }
    | .ok table => { info := [announcement table], script := o.command.script table }

def Options.paths (o : Options) : List String := o.modelPath :: o.settingsPath.toList

def versionLine : String := "oxide-sqlgen 0.1.0"

end ModelSql.CommandLine
