import ObjectBridge.Json
import ObjectBridge.Value.Basic

/-!
# Values as JSON documents
-/

namespace ObjectBridge

/-- Labels as a field that is left out where there are none. -/
def labelField (name : String) : Option (List String) → List (String × Json)
  | some names => [(name, .texts names)]
  | none => []

/-- A vector as an object of its labels, if any, and its values. -/
def LabelledVector.toJson (v : LabelledVector) : Json :=
  .object (labelField "labels" v.labels ++ [("values", .array (v.values.map .double))])

/-- A matrix as an object of its shape, its labels, if any, and its values column after column. -/
def LabelledMatrix.toJson (m : LabelledMatrix) : Json :=
  .object ([("rows", .integer m.rows), ("cols", .integer m.cols)] ++
    labelField "row_labels" m.rowLabels ++ labelField "col_labels" m.colLabels ++
    [("data", .array (m.data.map .double))])

/-- A proxy as an object of its identifier and its class name. -/
def Proxy.toJson (p : Proxy) : Json :=
  .object [("object", .integer p.id.toInt), ("class", .optionalText p.className)]

namespace Value

mutual

def toJson : Value → Json
  | null => .null
  | bool v => .bool v
  | byte v => .integer v.toNat
  | int v => .integer v.toInt
  | float v => .double v
  | string v => .text v
  | object p => p.toJson
  | boolArray vs => .array (vs.map .bool)
  | byteArray vs => .array (vs.map fun v => .integer v.toNat)
  | int32Array vs => .array (vs.map fun v => .integer v.toInt)
  | int64Array vs => .array (vs.map fun v => .integer v.toInt)
  | float64Array vs => .array (vs.map .double)
  | stringArray vs => .texts vs
  | list items => .array (toJsonAll items)
  | vector v => v.toJson
  | matrix m => m.toJson

def toJsonAll : List Value → List Json
  | [] => []
  | v :: vs => toJson v :: toJsonAll vs

end

end Value

end ObjectBridge
