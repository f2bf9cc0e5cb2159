/-
The options of a scan, checked and ready for use.
-/
import Marginalia.Dialect.Rules
import Marginalia.Pattern.Basic

namespace Marginalia

/-- What a scan may be told. -/
structure ScanOptions where
  /-- The most tokens a comment waits for its declaration. -/
  window : Nat := 128
  /-- That number as it was written. -/
  writtenWindow : String := toString window
  /-- Whether comments inside a declaration's body can document it. -/
  includeInner : Bool := true
  /-- Lines that match one of these are passed over. -/
  ignorePatterns : List Pattern := []
  /-- Openers of doc comments in place of the dialect's own. -/
  outerMarkers : Option (List String) := none
  innerMarkers : Option (List String) := none

/-- The rules with the options applied: the markers first, then the switch for
inner comments. -/
def Rules.withOptions (rules : Rules) (options : ScanOptions) :
    Except MarkerError Rules :=
  (rules.withMarkers options.outerMarkers options.innerMarkers).map
    (·.withInnerComments options.includeInner)

end Marginalia
