import Antipattern.Rule.Severity

/-!
Settings of an analysis with their defaults. Reading them from text is in `Settings.Reader`.
-/

namespace Antipattern

structure Thresholds where
  maxConstructorParameters : Nat := 10
  maxClassLines : Nat := 600
  maxMethodLines : Nat := 100
  maxTotalLines : Nat := 10000
  maxNanoServiceEndpoints : Nat := 1
deriving DecidableEq, Inhabited

/-- Full names of the framework types that the endpoint rule asks for. -/
structure KnownTypeNames where
  controller : String := "Microsoft.AspNetCore.Mvc.ControllerBase"
  routeProvider : String := "Microsoft.AspNetCore.Mvc.Routing.IRouteTemplateProvider"
deriving DecidableEq, Inhabited

structure RuleSettings where
  enabled : Bool := true
  severity : Option Severity := none
deriving DecidableEq, Inhabited

structure Settings where
  version : String := ""
  excludedPaths : List String := []
  thresholds : Thresholds := {}
  knownTypes : KnownTypeNames := {}
  /-- Settings of single rules, in increasing order of their ids. -/
  rules : List (String × RuleSettings) := []
  includeGenerated : Bool := false
deriving DecidableEq, Inhabited

namespace Settings

/-- Rules are on unless the settings turn them off. -/
def isEnabled (s : Settings) (rule : String) : Bool :=
  match s.rules.lookup rule with
  | some r => r.enabled
  | none => true

def severityOverrides (s : Settings) : List (String × Severity) :=
  s.rules.filterMap fun (id, r) => r.severity.map fun v => (id, v)

end Settings
end Antipattern
