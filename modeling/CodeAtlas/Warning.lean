/-!
# Warnings

What a run reports without failing.
-/

namespace CodeAtlas

/-- A report of something that did not stop a run. -/
inductive Warning where
  | unreadable (path reason : String)
  | unknownSetting (key : String)
  | cyclesStopped (limit : Int)
  deriving DecidableEq

/-- The text of a warning. -/
def Warning.message : Warning → String
  | .unreadable path reason => s!"Failed to parse {path}: {reason}"
  | .unknownSetting key => s!"Ignoring unknown analysis setting '{key}'"
  | .cyclesStopped limit => s!"Stopped cycle search after {limit} cycles (max_cycles)"

end CodeAtlas
