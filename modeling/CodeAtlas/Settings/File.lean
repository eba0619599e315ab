import CodeAtlas.Settings.Basic
import CodeAtlas.Text.Utf8
import CodeAtlas.Toml.Reader

/-!
# Settings files

Settings are read from the table {lit}`analysis` of a file that the caller names, or else of the
default file where there is one.  A switch from the environment has the last word on tolerance.
-/

namespace CodeAtlas

/-- A settings file: its name, and its text where it exists. -/
structure SettingsFile where
  name : String
  content : Option String

namespace SettingsFile

/-- The overrides that a text holds. -/
def overridesIn (name text : String) : Except InvalidInput Table :=
  match Toml.parse? (Text.unifyLineEnds text.toList) with
  | none => .error (.malformedSettings name)
  | some entries =>
    match entries.lookup "analysis" with
    | none => .ok []
    | some (.table overrides) => .ok overrides
    | some _ => .error (.settingsNotTable name)

/-- The overrides of the file that counts: the explicit one, which must exist, or else the
default one, which need not. -/
def overrides (explicit : Option SettingsFile) (fallback : SettingsFile) :
    Except InvalidInput Table :=
  let file := explicit.getD fallback
  match file.content with
  | some text => overridesIn file.name text
  | none => if explicit.isSome then .error (.settingsNotFound file.name) else .ok []

end SettingsFile

/-- The settings with the switch of the environment applied. -/
def Settings.withSwitch (settings : Settings) (switch : Option String) : Settings :=
  match switch with
  | some word => { settings with tolerantParsing := Settings.isTrueWord word }
  | none => settings

/-- The settings that files and environment give, with what is reported about them. -/
def Settings.load (explicit : Option SettingsFile) (fallback : SettingsFile)
    (switch : Option String) : Except InvalidInput (Settings × List Warning) := do
  let overrides ← SettingsFile.overrides explicit fallback
  let settings ← Settings.default.override overrides
  return (settings.withSwitch switch, Settings.overrideWarnings overrides)

end CodeAtlas
