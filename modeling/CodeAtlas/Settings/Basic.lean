import CodeAtlas.Error
import CodeAtlas.Text.Blank
import CodeAtlas.Text.Case
import CodeAtlas.Value.Literal
import CodeAtlas.Warning

/-!
# Settings

The thresholds of the rules and the options of an analysis.  A table of overrides changes the
settings it names; a value of the wrong shape is refused, and an unknown name is only reported.
-/

namespace CodeAtlas

/-- The settings of an analysis. -/
structure Settings where
  maxComplexity : Nat
  maxParameters : Nat
  maxFunctionLines : Nat
  maxClassLines : Nat
  tolerantParsing : Bool
  /-- The number of cycles after which a search for them stops, or zero. -/
  maxCycles : Nat
  /-- What specifiers may begin with, and what it stands for. -/
  pathAliases : List (String × String)
  /-- Directories whose files are not read, each listed once. -/
  skipDirs : List String
  deriving DecidableEq

namespace Settings

/-- The settings without any override. -/
def default : Settings :=
  { maxComplexity := 10
    maxParameters := 5
    maxFunctionLines := 50
    maxClassLines := 300
    tolerantParsing := false
    maxCycles := 0
    pathAliases := [("@/", "src/")]
    skipDirs :=
      ["node_modules", ".git", "dist", "build", "out", "coverage", ".next", ".nuxt",
        ".svelte-kit", ".cache", ".turbo", ".vercel", "__pycache__", ".venv", "venv"] }

/-! ## Keys -/

/-- The name of a setting. -/
inductive Key where
  | maxComplexity
  | maxParameters
  | maxFunctionLines
  | maxClassLines
  | tolerantParsing
  | maxCycles
  | pathAliases
  | skipDirs
  deriving DecidableEq

namespace Key

/-- Every key, in the order of the settings. -/
def all : List Key :=
  [.maxComplexity, .maxParameters, .maxFunctionLines, .maxClassLines, .tolerantParsing,
    .maxCycles, .pathAliases, .skipDirs]

/-- The text of a key. -/
def label : Key → String
  | .maxComplexity => "max_complexity"
  | .maxParameters => "max_parameters"
  | .maxFunctionLines => "max_function_lines"
  | .maxClassLines => "max_class_lines"
  | .tolerantParsing => "tolerant_parsing"
  | .maxCycles => "max_cycles"
  | .pathAliases => "path_aliases"
  | .skipDirs => "skip_dirs"

/-- The key with a given text. -/
def ofLabel? (label : String) : Option Key := all.find? (·.label == label)

end Key

/-! ## Values of settings -/

/-- The words that switch an option on. -/
def trueWords : List String := ["1", "true", "yes", "on"]

/-- Whether a text switches an option on. -/
def isTrueWord (text : String) : Bool := trueWords.contains (Text.lower (Text.strip text))

/-- A value as a switch: a text by its word, anything else by whether it counts as true. -/
def switchOf : Value → Bool
  | .text word => isTrueWord word
  | value => value.truthy

/-- A value as a natural number. -/
def naturalOf (key : Key) (value : Value) : Except InvalidInput Nat :=
  match value with
  | .int (.ofNat n) => .ok n
  | _ => .error (.notNatural key.label value.literal)

/-- A value as a table of texts. -/
def aliasesOf (key : Key) : Value → Except InvalidInput (List (String × String))
  | .table entries => .ok (entries.map fun entry => (entry.1, entry.2.display))
  | _ => .error (.notTable key.label)

/-- A value as a set of texts. -/
def textsOf (key : Key) : Value → Except InvalidInput (List String)
  | .list items => .ok (items.map Value.display).eraseDups
  | _ => .error (.notList key.label)

/-! ## Overrides -/

/-- The settings with one of them changed. -/
def set (settings : Settings) (key : Key) (value : Value) : Except InvalidInput Settings :=
  match key with
  | .maxComplexity => (naturalOf key value).map fun n => { settings with maxComplexity := n }
  | .maxParameters => (naturalOf key value).map fun n => { settings with maxParameters := n }
  | .maxFunctionLines => (naturalOf key value).map fun n => { settings with maxFunctionLines := n }
  | .maxClassLines => (naturalOf key value).map fun n => { settings with maxClassLines := n }
  | .tolerantParsing => .ok { settings with tolerantParsing := switchOf value }
  | .maxCycles => (naturalOf key value).map fun n => { settings with maxCycles := n }
  | .pathAliases => (aliasesOf key value).map fun table => { settings with pathAliases := table }
  | .skipDirs => (textsOf key value).map fun texts => { settings with skipDirs := texts }

/-- The settings with one entry of a table applied.  An unknown name has no effect. -/
def applyEntry (settings : Settings) (entry : String × Value) : Except InvalidInput Settings :=
  match Key.ofLabel? entry.1 with
  | some key => settings.set key entry.2
  | none => .ok settings

/-- The settings with a table of overrides applied, in the order of its entries. -/
def override (settings : Settings) (overrides : Table) : Except InvalidInput Settings :=
  overrides.foldlM applyEntry settings

/-- What is reported about a table of overrides. -/
def overrideWarnings (overrides : Table) : List Warning :=
  (overrides.filter fun entry => (Key.ofLabel? entry.1).isNone).map fun entry =>
    .unknownSetting entry.1

end Settings
end CodeAtlas
