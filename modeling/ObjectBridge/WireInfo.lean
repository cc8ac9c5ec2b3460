import ObjectBridge.Json
import ObjectBridge.Wire.Tag

/-!
# The wire contract

What a client speaks: its version, the magic number, the revision of the protocol, the byte order, and
the address of the server it is connected to.
-/

namespace ObjectBridge

def version : String := "0.1.0"

/-- The revision of the protocol that the magic number stands for. -/
def protocolRevision : Nat := 1

/-- The contract as a document; `peer` is the address of the connected server, if there is one. -/
def wireInfo (peer : Option String) : Json :=
  .object ([("clrbridge", .text version), ("magic", .integer magic.toNat),
    ("protocol_revision", .integer protocolRevision), ("byte_order", .text "little-endian")] ++
    (peer.map fun p => ("peer", .text p)).toList)

end ObjectBridge
