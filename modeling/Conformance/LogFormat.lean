import Conformance.Text.Blank

/-!
Formats of log output.
-/

namespace Conformance

/-- How log output is written. -/
inductive LogFormat where
  | text
  | tree
  | json
deriving DecidableEq, Repr

namespace LogFormat

/-- The name of a format. -/
def name : LogFormat → String
  | text => "Text"
  | tree => "Tree"
  | json => "Json"

/-- The format that a setting names. Anything unknown means text. -/
def parse (setting : String) : LogFormat :=
  if Text.keyword setting = "tree" then tree
  else if Text.keyword setting = "json" then json
  else text

end LogFormat

end Conformance
