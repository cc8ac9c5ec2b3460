import ObjectBridge.Text.Quoted
import ObjectBridge.Text.Utf8
import ObjectBridge.Wire.Tag

/-!
# Faults

Everything that can go wrong between a client and the object server, one constructor for each cause.
`Fault.message` is the wording. `Fault.isFatal` tells the faults after which the position in the byte
stream is unknown, so that the session cannot go on.
-/

namespace ObjectBridge

/-- The kind of a failed operation on a stream, a socket or a process. -/
inductive IoKind where
  | interrupted
  | connectionReset
  | timedOut
  | wouldBlock
  | brokenPipe
  | writeZero
  | connectionRefused
  | permissionDenied
  | notFound
  | addressNotAvailable
  | networkUnreachable
  | other
deriving DecidableEq, Repr

def IoKind.message : IoKind → String
  | .interrupted => "operation interrupted"
  | .connectionReset => "connection reset"
  | .timedOut => "timed out"
  | .wouldBlock => "operation would block"
  | .brokenPipe => "broken pipe"
  | .writeZero => "failed to write whole buffer"
  | .connectionRefused => "connection refused"
  | .permissionDenied => "permission denied"
  | .notFound => "entity not found"
  | .addressNotAvailable => "address not available"
  | .networkUnreachable => "network unreachable"
  | .other => "other error"

/-- A failed operation: its kind, and its own wording where it has one. -/
structure IoError where
  kind : IoKind
  detail : Option String := none
deriving DecidableEq, Repr

def IoError.message (e : IoError) : String := e.detail.getD e.kind.message

/-- Why the companion server was not started. -/
inductive LaunchError where
  | spawn (cause : IoError)
  | other (reason : String)
deriving DecidableEq, Repr

def LaunchError.message : LaunchError → String
  | .spawn cause => s!"failed to launch bridge server: {cause.message}"
  | .other reason => s!"bridge server launch failed: {reason}"

/-- The sort of a native value, as named in faults. -/
inductive Kind where
  | null | bool | byte | int | float | string | object
  | boolArray | byteArray | int32Array | int64Array | float64Array | stringArray
  | list | vector | matrix
deriving DecidableEq, Repr

def Kind.name : Kind → String
  | .null => "null"
  | .bool => "bool"
  | .byte => "byte"
  | .int => "int"
  | .float => "float"
  | .string => "string"
  | .object => "object"
  | .boolArray => "bool array"
  | .byteArray => "byte array"
  | .int32Array => "int32 array"
  | .int64Array => "int64 array"
  | .float64Array => "float64 array"
  | .stringArray => "string array"
  | .list => "list"
  | .vector => "vector"
  | .matrix => "matrix"

/-- One of the two directions of a matrix. -/
inductive Axis where
  | row
  | column
deriving DecidableEq, Repr

def Axis.name : Axis → String
  | .row => "row"
  | .column => "column"

/-- How the content of a message or of a table contradicts itself. -/
inductive Malformation where
  | negativeLength (length : Int)
  | negativeCount (what : String) (count : Int)
  | arrayOverflow (count : Nat)
  | matrixOverflow (rows cols : Nat)
  | matrixBody (rows cols expected got : Nat)
  | raggedRow (row got expected : Nat)
  | vectorLabels (labels values : Nat)
  | axisLabels (axis : Axis) (labels expected : Nat)
  | text (flaw : Utf8.Flaw)
  /-- What a conversion rule of the client's own says. -/
  | other (reason : String)
deriving DecidableEq, Repr

def Malformation.message : Malformation → String
  | .negativeLength length => s!"negative length {length}"
  | .negativeCount what count => s!"negative {what} count {count}"
  | .arrayOverflow count => s!"array of {count} elements overflows"
  | .matrixOverflow rows cols => s!"matrix {rows}x{cols} overflows"
  | .matrixBody rows cols expected got =>
    s!"matrix {rows}x{cols} needs {expected} values, got {got}"
  | .raggedRow row got expected => s!"row {row} has {got} columns, expected {expected}"
  | .vectorLabels labels values => s!"vector has {labels} labels for {values} values"
  | .axisLabels axis labels expected =>
    s!"{labels} {axis.name} labels for {expected} {axis.name}s"
  | .text flaw => s!"string is not valid UTF-8: {flaw.message}"
  | .other reason => reason

/-- Why a native value has no message. -/
inductive Mismatch where
  /-- No conversion rule accepts the value. -/
  | noRule (kind : Kind)
  /-- A rule was handed a value that it cannot convert. -/
  | wrongRule (rule : String) (kind : Kind)
  /-- The value does not fit the requested tag. -/
  | wrongTag (tag : Tag) (kind : Kind)
  /-- What a conversion rule of the client's own says. -/
  | other (reason : String)
deriving DecidableEq, Repr

def Mismatch.message : Mismatch → String
  | .noRule kind => s!"no rule accepts a {kind.name}"
  | .wrongRule rule kind => s!"{rule} rule given a {kind.name}"
  | .wrongTag tag kind => s!"cannot build a {tag.name} message from a {kind.name}"
  | .other reason => reason

/-- Why a configuration is refused. -/
inductive ConfigFlaw where
  /-- A variable that has to hold a number holds something else. -/
  | notANumber (name value : String)
  | other (reason : String)
deriving DecidableEq, Repr

def ConfigFlaw.message : ConfigFlaw → String
  | .notANumber name value => s!"{name}={Text.quoted value} is not a valid number"
  | .other reason => reason

/-- A failure of an operation of the bridge. -/
inductive Fault where
  | io (cause : IoError)
  | endOfStream (needed available : Nat)
  | badMagic (found : UInt16)
  | unknownTag (code : UInt8)
  | malformed (how : Malformation)
  | unserializable (why : Mismatch)
  | tooLong (what : String) (length : Nat)
  /-- The server raised an exception while it served the request. -/
  | remote (text : String)
  | unknownMember (className member : String)
  | notCallable (className member : String)
  | notAProperty (className member : String)
  | readOnly (name : String)
  | released (id : Int32)
  | missingClassName (id : Int32)
  | unexpectedReply (request : Tag) (reply : String)
  | connectFailed (address : String) (attempts : Nat) (cause : IoError)
  | launch (cause : LaunchError)
  | closed
  | broken (cause : String)
  | config (flaw : ConfigFlaw)
deriving DecidableEq, Repr

namespace Fault

def hexWord (w : UInt16) : String :=
  let digits := Text.hexDigits w.toNat
  String.ofList (List.replicate (4 - digits.length) '0') ++ digits

def message : Fault → String
  | io cause => s!"bridge channel i/o failed: {cause.message}"
  | endOfStream needed available =>
    s!"unexpected end of stream: needed {needed} bytes, {available} buffered"
  | badMagic found =>
    s!"bad magic 0x{hexWord found} (expected 0x{hexWord magic}), stream is corrupt"
  | unknownTag code => s!"unknown message tag {code.toNat}, protocol version mismatch"
  | malformed how => s!"malformed message: {how.message}"
  | unserializable why => s!"cannot serialize value: {why.message}"
  | tooLong what length => s!"{what} length {length} exceeds the wire limit"
  | remote text => s!"remote exception: {text}"
  | unknownMember className member =>
    s!"unknown method or property '{member}' on {className}"
  | notCallable className member => s!"'{member}' on {className} is not a method"
  | notAProperty className member => s!"'{member}' on {className} is a method, not a property"
  | readOnly name => s!"cannot assign read-only attribute '{name}'"
  | released id => s!"object {id.toInt} has already been released"
  | missingClassName id =>
    s!"object {id.toInt} carries no class name, members cannot be resolved"
  | unexpectedReply request reply => s!"unexpected reply to {request.name}: {reply}"
  | connectFailed address attempts cause =>
    s!"failed to connect to {address} after {attempts} attempt(s): {cause.message}"
  | launch cause => cause.message
  | closed => "session is closed"
  | broken cause => s!"session is unusable after a fatal channel error: {cause}"
  | config flaw => s!"invalid configuration: {flaw.message}"

/-- Whether the byte stream can no longer be trusted after this fault. -/
def isFatal : Fault → Bool
  | io _ | endOfStream .. | badMagic _ | unknownTag _ | malformed _ | broken _ => true
  | _ => false

/-- Whether a fault says that a stream cannot be read on. -/
def ofStream : Fault → Bool
  | io _ | endOfStream .. | badMagic _ | unknownTag _ | malformed _ => true
  | _ => false

/-- Whether a fault says that bytes of a stream that did arrive mean nothing. -/
def ofContent : Fault → Bool
  | badMagic _ | unknownTag _ | malformed _ => true
  | _ => false

theorem ofStream_of_ofContent {fault : Fault} (h : fault.ofContent = true) : fault.ofStream = true := by
  cases fault <;> first | rfl | cases h

theorem isFatal_of_ofStream {fault : Fault} (h : fault.ofStream = true) : fault.isFatal = true := by
  cases fault <;> first | rfl | cases h

/-- The failed operation below a fault, if there is one. -/
def cause? : Fault → Option IoError
  | io cause => some cause
  | connectFailed _ _ cause => some cause
  | launch (.spawn cause) => some cause
  | _ => none

end Fault

end ObjectBridge
