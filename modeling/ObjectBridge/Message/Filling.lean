import ObjectBridge.Message.Reading

/-!
# Filling messages in place

The reading of a message as it is carried out on one message: the catalogue hands out the message that stands for
the code, and whatever it holds, its fields are overwritten one after the other as they arrive. A field that is
not overwritten would keep what the catalogue's message held in it.
-/

namespace ObjectBridge

namespace Message

/-! ### Overwriting one field

A message that has no such field stays as it is. -/

def withClassName : Message → String → Message
  | create _ args, className => create className args
  | callStaticMethod _ method args, className => callStaticMethod className method args
  | getStaticProperty _ property, className => getStaticProperty className property
  | setStaticProperty _ property value, className => setStaticProperty className property value
  | m, _ => m

def withMethod : Message → String → Message
  | callStaticMethod className _ args, method => callStaticMethod className method args
  | callMethod id _ args, method => callMethod id method args
  | m, _ => m

def withArgs : Message → List Message → Message
  | create className _, args => create className args
  | callStaticMethod className method _, args => callStaticMethod className method args
  | callMethod id method _, args => callMethod id method args
  | m, _ => m

def withId : Message → Int32 → Message
  | callMethod _ method args, id => callMethod id method args
  | getProperty _ property, id => getProperty id property
  | getIndexedProperty _ property index, id => getIndexedProperty id property index
  | getIndexed _ index, id => getIndexed id index
  | setProperty _ property value, id => setProperty id property value
  | m, _ => m

def withProperty : Message → String → Message
  | getProperty id _, property => getProperty id property
  | getIndexedProperty id _ index, property => getIndexedProperty id property index
  | setProperty id _ value, property => setProperty id property value
  | getStaticProperty className _, property => getStaticProperty className property
  | setStaticProperty className _ value, property => setStaticProperty className property value
  | m, _ => m

def withIndex : Message → Int32 → Message
  | getIndexedProperty id property _, index => getIndexedProperty id property index
  | getIndexed id _, index => getIndexed id index
  | m, _ => m

def withValue : Message → Message → Message
  | setProperty id property _, value => setProperty id property value
  | setStaticProperty className property _, value => setStaticProperty className property value
  | m, _ => m

end Message

namespace Reader

/-- Fills a message in place. A message of one field gets this field anew, the others get theirs one by one.
`item` reads a message that is part of it. -/
def fill (item : Action Message) (m : Message) : Action Message :=
  match m with
  | .null => pure m
  | .bool _ => return .bool (← flag)
  | .byte _ => return .byte (← word .u8)
  | .int32 _ => return .int32 (← word .i32)
  | .int64 _ => return .int64 (← word .i64)
  | .float64 _ => return .float64 (← word .f64)
  | .string _ => return .string (← text)
  | .exception _ => return .exception (← text)
  | .object _ => return .object (← objectRef)
  | .vector _ => return .vector (← vector)
  | .matrix _ => return .matrix (← matrix)
  | .boolArray _ => return .boolArray (← flags none)
  | .byteArray _ => return .byteArray (← bytes none)
  | .int32Array _ => return .int32Array (← words .i32 none)
  | .int64Array _ => return .int64Array (← words .i64 none)
  | .float64Array _ => return .float64Array (← words .f64 none)
  | .stringArray _ => return .stringArray (← texts none)
  | .objectArray _ => do
    let n ← count "object array"
    return .objectArray (← repeated item n)
  | .create .. => do
    let m := m.withClassName (← text)
    return m.withArgs (← arguments item)
  | .callStaticMethod .. => do
    let m := m.withClassName (← text)
    let m := m.withMethod (← text)
    return m.withArgs (← arguments item)
  | .callMethod .. => do
    let m := m.withId (← word .i32)
    let m := m.withMethod (← text)
    return m.withArgs (← arguments item)
  | .getProperty .. => do
    let m := m.withId (← word .i32)
    return m.withProperty (← text)
  | .getIndexedProperty .. => do
    let m := m.withId (← word .i32)
    let m := m.withProperty (← text)
    return m.withIndex (← word .i32)
  | .getIndexed .. => do
    let m := m.withId (← word .i32)
    return m.withIndex (← word .i32)
  | .setProperty .. => do
    let m := m.withId (← word .i32)
    let m := m.withProperty (← text)
    return m.withValue (← item)
  | .getStaticProperty .. => do
    let m := m.withClassName (← text)
    return m.withProperty (← text)
  | .setStaticProperty .. => do
    let m := m.withClassName (← text)
    let m := m.withProperty (← text)
    return m.withValue (← item)
  | .protect _ => return .protect (← word .i32)
  | .release _ => return .release (← word .i32)
  | .templateReq _ => return .templateReq (← text)
  | .templateReply _ => return .templateReply (← members)

/-- A message whose parts are nested at most `depth` deep, each filled in place. -/
def filledWithin (catalogue : Catalogue) : Nat → Action Message
  | 0 => do throw (.unknownTag (← header))
  | depth + 1 => do
    let code ← header
    match catalogue.find? code with
    | some blank => fill (filledWithin catalogue depth) blank
    | none => throw (.unknownTag code)

/-- A message, filled in place. -/
def filled (catalogue : Catalogue) : Action Message := fun r =>
  filledWithin catalogue (r.left + 1) r

end Reader

end ObjectBridge
