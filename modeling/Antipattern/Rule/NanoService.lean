import Antipattern.Analysis.Detector
import Antipattern.Symbol.Hierarchy

/-!
Services with too few endpoints. Routed members of controllers are counted class by class into a
shared counter, and the verdict on their total is given once.
-/

namespace Antipattern.Rule

def nanoService : Descriptor where
  id := "AP_1"
  title := "Only one API found in the service."
  messageFormat := "Too few APIs found in the service. \x7b0\x7d endpoints found, " ++
    "more than \x7b1\x7d expected."
  description := "Only one API found in the service. Service looks like a nano-service. " ++
    "Consider merging it with another service."
  category := "Size"

def endpointsCounter : String := "endpoints"

def verdictLatch : String := "nano_service.finalized"

/-- Members with an attribute that provides a route. -/
def routedMembers (symbols : SymbolTable) (routeProvider : KnownType) (s : TypeSymbol) : Nat :=
  s.members.countP fun m => m.attributes.any fun a => symbols.implements a.classId routeProvider

/-- Endpoints that a node adds: those of the controller that it declares, if it is the first of the
declarations that make up the class. -/
def endpointsAt (controller routeProvider : KnownType) (c : NodeContext) : Nat :=
  if c.node.kind = .classDeclaration then
    match c.declaredSymbol? with
    | none => 0
    | some id =>
        match c.symbols.symbol? id with
        | none => 0
        | some s =>
            if s.declared.head? = some c.place && c.symbols.isSubtypeOf (some id) controller then
              routedMembers c.symbols routeProvider s
            else 0
  else 0

def countEndpoints (controller routeProvider : KnownType) (c : NodeContext) (s : RunState) :
    RunState :=
  let n := endpointsAt controller routeProvider c
  if 0 < n then { s with tally := s.tally.add endpointsCounter (UInt64.ofNat n) } else s

def judgeEndpoints (maxEndpoints : Nat) (s : RunState) : Option Finding × RunState :=
  let (won, tally) := s.tally.tryLatch verdictLatch
  let s := { s with tally }
  if won then
    let total := (tally.get endpointsCounter).toNat
    if total ≤ maxEndpoints then
      (some (nanoService.finding .none [toString total, toString maxEndpoints]), s)
    else (none, s)
  else (none, s)

def nanoServiceDetector (controller routeProvider : KnownType) (maxEndpoints : Nat) :
    Detector RunState where
  rule := nanoService
  kinds := [.classDeclaration]
  check := fun c s => (.nothing, countEndpoints controller routeProvider c s)
  complete := fun _ s =>
    let (finding, s) := judgeEndpoints maxEndpoints s
    (.ofOption finding, s)

end Antipattern.Rule
