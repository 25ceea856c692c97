/-!
The settings that a new project starts from: the defaults, with directories of build output excluded.
-/

namespace Antipattern.Settings

/-- Lines of the starting settings. -/
def templateLines : List String :=
  [ "# apcheck configuration",
    "version: \"1\"",
    "",
    "# Paths never analyzed (globset syntax)",
    "excluded_paths:",
    "  - \"**/bin/**\"",
    "  - \"**/obj/**\"",
    "",
    "thresholds:",
    "  max_constructor_parameters: 10",
    "  max_class_lines: 600",
    "  max_method_lines: 100",
    "  max_total_lines: 10000",
    "  max_nano_service_endpoints: 1",
    "",
    "known_types:",
    "  controller: Microsoft.AspNetCore.Mvc.ControllerBase",
    "  route_provider: Microsoft.AspNetCore.Mvc.Routing.IRouteTemplateProvider",
    "",
    "# Per-rule overrides, e.g.",
    "#   AP_4:",
    "#     enabled: false",
    "#   AP_6:",
    "#     severity: error",
    "rules: \x7b\x7d",
    "",
    "include_generated: false" ]

def template : String :=
  String.join (templateLines.map (· ++ "\n"))

end Antipattern.Settings
