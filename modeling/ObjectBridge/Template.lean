import ObjectBridge.Fault
import ObjectBridge.Json
import ObjectBridge.Message.Basic
import ObjectBridge.Text.Suffix

/-!
# Class templates

The members of a class of the server, as sets of names: each list is sorted by code points and names
nothing twice, whatever the order and the repetitions in which the server told them.
-/

namespace ObjectBridge

/-- A name put at its place in a sorted list, unless it stands there already. -/
def insertName (name : String) : List String → List String
  | [] => [name]
  | first :: rest =>
    if name < first then name :: first :: rest
    else if name = first then first :: rest
    else first :: insertName name rest

/-- The names of a list, sorted and each of them once. -/
def sortedNames (names : List String) : List String :=
  names.foldl (fun sorted name => insertName name sorted) []

/-- The part of a class name behind its last dot. -/
def shortName (className : String) : String := Text.behindLast '.' className

/-- A class is called the same in whatever namespace it is. -/
theorem shortName_nested (space className : String) :
    shortName (space ++ ("." ++ className)) = shortName className := Text.behindLast_prepend space className

/-- The members of a class. -/
structure Template where
  className : String
  properties : List String
  methods : List String
  staticMethods : List String
deriving DecidableEq, Repr

namespace Template

/-- The template of a class from the member names that the server lists. -/
def ofMembers (className : String) (members : Members) : Template where
  className := className
  properties := sortedNames members.properties
  methods := sortedNames members.methods
  staticMethods := sortedNames members.staticMethods

/-- Whether the class declares an instance method of this name. -/
def hasMethod (t : Template) (name : String) : Bool := t.methods.contains name

/-- Whether the class declares a property of this name. -/
def hasProperty (t : Template) (name : String) : Bool := t.properties.contains name

/-- Whether the class declares a static method of this name. -/
def hasStaticMethod (t : Template) (name : String) : Bool := t.staticMethods.contains name

/-- Why a name that is no static method cannot be called on the class. -/
def refusal (t : Template) (name : String) : Fault :=
  if t.hasMethod name || t.hasProperty name then .notCallable t.className name
  else .unknownMember t.className name

def toJson (t : Template) : Json :=
  .object [("classname", .text t.className), ("properties", .texts t.properties),
    ("methods", .texts t.methods), ("static_methods", .texts t.staticMethods)]

end Template

end ObjectBridge
