import Antipattern.Rule.Complexity
import Antipattern.Rule.NanoService
import Antipattern.Rule.Naming
import Antipattern.Rule.Size
import Antipattern.Settings.Basic

/-!
The six rules in the order of their ids, and the detectors that settings turn on.
-/

namespace Antipattern.Rule

def builtin : List Descriptor :=
  [nanoService, monolith, complexity, naming, methodSize, classSize]

def builtin? (id : String) : Option Descriptor :=
  builtin.find? fun r => r.id == id

def allDetectors (s : Settings) : List (Detector RunState) :=
  [ nanoServiceDetector (.named s.knownTypes.controller) (.named s.knownTypes.routeProvider)
      s.thresholds.maxNanoServiceEndpoints,
    monolithDetector s.thresholds.maxTotalLines,
    complexityDetector s.thresholds.maxConstructorParameters,
    namingDetector,
    methodSizeDetector s.thresholds.maxMethodLines,
    classSizeDetector s.thresholds.maxClassLines ]

def detectors (s : Settings) : List (Detector RunState) :=
  (allDetectors s).filter fun d => s.isEnabled d.rule.id

end Antipattern.Rule
