import Antipattern.Symbol.Table

/-!
Framework types that sources refer to without declaring them. The catalog lists a type before the
types that it refers to, so taking over a type with all that it derives from follows the list
down and ends.
-/

namespace Antipattern

structure CatalogType where
  kind : TypeKind := .classType
  base : Option String := none
  interfaces : List String := []
deriving DecidableEq, Inhabited

namespace Catalog

def httpMethod : String := "Microsoft.AspNetCore.Mvc.Routing.HttpMethodAttribute"

def routeProvider : String := "Microsoft.AspNetCore.Mvc.Routing.IRouteTemplateProvider"

def methodProvider : String := "Microsoft.AspNetCore.Mvc.Routing.IActionHttpMethodProvider"

def derived (base : String) : CatalogType :=
  { base := some base }

def attributeType (interfaces : List String) : CatalogType :=
  { base := some "System.Attribute", interfaces }

def types : List (String × CatalogType) := [
  ("Microsoft.AspNetCore.Mvc.HttpGetAttribute", derived httpMethod),
  ("Microsoft.AspNetCore.Mvc.HttpPostAttribute", derived httpMethod),
  ("Microsoft.AspNetCore.Mvc.HttpPutAttribute", derived httpMethod),
  ("Microsoft.AspNetCore.Mvc.HttpDeleteAttribute", derived httpMethod),
  ("Microsoft.AspNetCore.Mvc.HttpPatchAttribute", derived httpMethod),
  ("Microsoft.AspNetCore.Mvc.HttpHeadAttribute", derived httpMethod),
  ("Microsoft.AspNetCore.Mvc.HttpOptionsAttribute", derived httpMethod),
  (httpMethod, attributeType [methodProvider, routeProvider]),
  ("Microsoft.AspNetCore.Mvc.AcceptVerbsAttribute", attributeType [methodProvider, routeProvider]),
  ("Microsoft.AspNetCore.Mvc.RouteAttribute", attributeType [routeProvider]),
  ("Microsoft.AspNetCore.Mvc.ApiControllerAttribute", attributeType []),
  ("Microsoft.AspNetCore.Mvc.NonActionAttribute", attributeType []),
  ("Microsoft.AspNetCore.Mvc.Controller", derived "Microsoft.AspNetCore.Mvc.ControllerBase"),
  ("Microsoft.AspNetCore.Mvc.ControllerBase", derived "System.Object"),
  ("System.ObsoleteAttribute", attributeType []),
  ("System.SerializableAttribute", attributeType []),
  ("System.CodeDom.Compiler.GeneratedCodeAttribute", attributeType []),
  ("System.Runtime.CompilerServices.CompilerGeneratedAttribute", attributeType []),
  ("System.Attribute", derived "System.Object"),
  (routeProvider, { kind := .interfaceType }),
  (methodProvider, { kind := .interfaceType }),
  ("System.Object", {})]

def find? (name : String) : Option CatalogType :=
  types.lookup name

/-- Namespaces that every file sees without importing them. -/
def implicitNamespaces : List String := ["System"]

/-- Takes a type of the list over into the table, with all that it derives from. A type of that
name that is in the table already is left as it is. -/
def takeOver : List (String × CatalogType) → String → SymbolTable → Option (Nat × SymbolTable)
  | [], _, _ => none
  | (entry, type) :: rest, name, t =>
      if entry = name then
        match t.lookup? name with
        | some id => some (id, t)
        | none =>
            let (id, t) := t.addType name type.kind
            let t := match type.base with
              | none => t
              | some base =>
                  match takeOver rest base t with
                  | none => t
                  | some (baseId, t) => t.setBase id baseId
            let t := type.interfaces.foldl (fun t interface =>
              match takeOver rest interface t with
              | none => t
              | some (interfaceId, t) => t.addInterface id interfaceId) t
            some (id, t)
      else takeOver rest name t

/-- The id of a framework type, taken over on its first use. -/
def ensure? (name : String) (t : SymbolTable) : Option (Nat × SymbolTable) :=
  takeOver types name t

end Catalog
end Antipattern
