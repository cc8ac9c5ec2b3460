import ObjectBridge.Decimal.Layout
import ObjectBridge.Text.Quoted

/-!
# JSON documents

A document keeps its fields in the order in which they are given. `Json.compact` writes it without
any space, `Json.pretty` with one element to a line and two spaces for each level.
-/

namespace ObjectBridge

/-- A JSON document. -/
inductive Json where
  | null
  | bool (v : Bool)
  | integer (n : Int)
  | double (x : Binary64)
  | text (s : String)
  | array (items : List Json)
  | object (fields : List (String × Json))

namespace Json

/-- One character inside a JSON text. Control characters are escaped, by a letter where there is
one; all others but quote and backslash stand for themselves. -/
def textChar (c : Char) : String :=
  if c = '"' then "\\\""
  else if c = '\\' then "\\\\"
  else if c = '\n' then "\\n"
  else if c = '\r' then "\\r"
  else if c = '\t' then "\\t"
  else if c = '\x08' then "\\b"
  else if c = '\x0c' then "\\f"
  else if c.toNat < 0x10 then "\\u000" ++ Text.hexDigits c.toNat
  else if c.toNat < 0x20 then "\\u00" ++ Text.hexDigits c.toNat
  else c.toString

def writeText (s : String) : String := "\"" ++ String.join (s.toList.map textChar) ++ "\""

/-- A double; what is no finite number is written as null. -/
def writeDouble (x : Binary64) : String :=
  if x.isNaN || x.isInfinite then "null" else NumberStyle.document.finite x

mutual

def compact : Json → String
  | null => "null"
  | bool v => if v then "true" else "false"
  | integer n => toString n
  | double x => writeDouble x
  | text s => writeText s
  | array items => "[" ++ String.intercalate "," (compactItems items) ++ "]"
  | object fields => "\x7b" ++ String.intercalate "," (compactFields fields) ++ "\x7d"

/-- The elements of an array, each without any space. -/
def compactItems : List Json → List String
  | [] => []
  | item :: items => compact item :: compactItems items

/-- The fields of an object, each without any space. -/
def compactFields : List (String × Json) → List String
  | [] => []
  | (name, value) :: fields => (writeText name ++ ":" ++ compact value) :: compactFields fields

end

/-- Parts between brackets, each on a line of its own. -/
def block (opening closing : String) (indent : String) (parts : List String) : String :=
  if parts.isEmpty then opening ++ closing
  else
    let inner := "\n" ++ indent ++ "  "
    opening ++ inner ++ String.intercalate ("," ++ inner) parts ++ "\n" ++ indent ++ closing

mutual

/-- A document whose lines stand behind `indent`. -/
def prettyAt (indent : String) : Json → String
  | array items => block "[" "]" indent (prettyItems (indent ++ "  ") items)
  | object fields => block "\x7b" "\x7d" indent (prettyFields (indent ++ "  ") fields)
  | null => "null"
  | bool v => if v then "true" else "false"
  | integer n => toString n
  | double x => writeDouble x
  | text s => writeText s

/-- The elements of an array, each behind `indent`. -/
def prettyItems (indent : String) : List Json → List String
  | [] => []
  | item :: items => prettyAt indent item :: prettyItems indent items

/-- The fields of an object, each behind `indent`. -/
def prettyFields (indent : String) : List (String × Json) → List String
  | [] => []
  | (name, value) :: fields =>
    (writeText name ++ ": " ++ prettyAt indent value) :: prettyFields indent fields

end

def pretty (j : Json) : String := prettyAt "" j

def texts (ss : List String) : Json := array (ss.map text)

def optionalText : Option String → Json
  | some s => text s
  | none => null

end Json

end ObjectBridge
