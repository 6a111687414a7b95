import Lending.CommandLine.Arguments
import Lending.Files.Loading

/-!
# Settings

The settings file: a TOML file with a table `check` for the mode and a table `output` for the
format. What it leaves out has a default.
-/

namespace Lending.CommandLine

/-- The settings of a check. -/
structure Settings where
  mode : Mode := .lexical
  format : OutputFormat := .text
deriving DecidableEq, Repr, Inhabited

/-- The name of the settings file that is looked for in the working directory. -/
def settingsFile : String := "lexborrow.toml"

/-- Why the settings cannot be read. -/
inductive SettingsError where
  | unreadable (path : String)
  | invalid (path : String)
deriving DecidableEq, Repr, Inhabited

/-- The error in words. -/
def SettingsError.message : SettingsError → String
  | .unreadable path => s!"failed to read config {path}"
  | .invalid path => s!"invalid config {path}"

/-- A table whose only member is the output format. -/
def OutputFormat.ofSettings? (dialect : Dialect) (datum : Datum) : Option OutputFormat := do
  let fields ← dialect.fields? ["format"] datum
  fields.optional "format" .text fun value => do
    OutputFormat.ofKeyword? (← dialect.choice? value)

namespace Settings

/-- Settings from data. -/
def ofDatum? (dialect : Dialect) (datum : Datum) : Option Settings := do
  let fields ← dialect.fields? ["check", "output"] datum
  let mode ← fields.optional "check" .lexical (Mode.ofSettings? dialect)
  let format ← fields.optional "output" .text (OutputFormat.ofSettings? dialect)
  return { mode, format }

/-- The settings in a text. -/
def parse? (text : String) : Option Settings :=
  (Toml.read? text).bind (ofDatum? .toml)

/-- Loads the settings at a path, where `found` stands. -/
def load (path : String) (found : Option Tree) : Except SettingsError Settings :=
  match found with
  | some (.file text) =>
      match parse? text with
      | some settings => .ok settings
      | none => .error (.invalid path)
  | _ => .error (.unreadable path)

/-- The settings to use: those of the file that is asked for, else those of the settings file in
the working directory if there is one, else the defaults. -/
def discover (files : String → Option Tree) (directory : String) (asked : Option String) :
    Except SettingsError Settings :=
  match asked, files settingsFile with
  | some path, _ => load path (files path)
  | none, some (.file text) => load (Path.join directory settingsFile) (some (.file text))
  | none, _ => .ok {}

end Settings

end Lending.CommandLine
