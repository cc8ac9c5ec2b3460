/-!
# Text as UTF-8 bytes

A text travels as its UTF-8 bytes. `Utf8.encode` gives the bytes of a text, `Utf8.decode` reads them
back and says of a refused byte string where its first flaw lies and how many bytes it spans.
Main statements: `decode_encode` and `eq_encode_of_decode`, so that a byte string is accepted exactly
when it is the encoding of the text that is returned.
-/

namespace ObjectBridge.Utf8

def encode (s : String) : List UInt8 := s.toByteArray.data.toList

/-- The first place at which a byte string stops being UTF-8. The index counts the bytes of the
complete characters before it. -/
inductive Flaw where
  /-- The `length` bytes at `index` begin no character. -/
  | invalid (length index : Nat)
  /-- The bytes end inside the character that begins at `index`. -/
  | incomplete (index : Nat)
deriving DecidableEq, Repr

def Flaw.message : Flaw → String
  | .invalid length index => s!"invalid utf-8 sequence of {length} bytes from index {index}"
  | .incomplete index => s!"incomplete utf-8 byte sequence from index {index}"

/-- Any continuation byte. -/
def continuation : UInt8 × UInt8 := (0x80, 0xbf)

/-- The ranges of the bytes that have to follow a lead byte; `none` if no character begins with it.
The first range is narrower where it keeps out overlong forms, surrogates and code points above
`0x10ffff`. -/
def followers (lead : UInt8) : Option (List (UInt8 × UInt8)) :=
  if lead < 0x80 then some []
  else if lead < 0xc2 then none
  else if lead < 0xe0 then some [continuation]
  else if lead = 0xe0 then some [(0xa0, 0xbf), continuation]
  else if lead = 0xed then some [(0x80, 0x9f), continuation]
  else if lead < 0xf0 then some [continuation, continuation]
  else if lead = 0xf0 then some [(0x90, 0xbf), continuation, continuation]
  else if lead < 0xf4 then some [continuation, continuation, continuation]
  else if lead = 0xf4 then some [(0x80, 0x8f), continuation, continuation]
  else none

/-- Walks the bytes. `start` is where the current character began, `seen` how many of its bytes have
been passed, `wanted` what is still to follow. -/
def scan (start seen : Nat) (wanted : List (UInt8 × UInt8)) : List UInt8 → Option Flaw
  | [] => if seen = 0 then none else some (.incomplete start)
  | b :: rest =>
    match wanted with
    | [] =>
      match followers b with
      | none => some (.invalid 1 start)
      | some [] => scan (start + 1) 0 [] rest
      | some more => scan start 1 more rest
    | (low, high) :: more =>
      if low ≤ b ∧ b ≤ high then
        if more.isEmpty then scan (start + seen + 1) 0 [] rest else scan start (seen + 1) more rest
      else some (.invalid seen start)

/-- The first flaw of a byte string, if it has one. -/
def flaw? (bytes : List UInt8) : Option Flaw := scan 0 0 [] bytes

/-- The text whose UTF-8 bytes these are, or the first flaw. -/
def decode (bytes : List UInt8) : Except Flaw String :=
  match String.fromUTF8? ⟨bytes.toArray⟩ with
  | some s => .ok s
  | none => .error ((flaw? bytes).getD (.incomplete bytes.length))

theorem decode_encode (s : String) : decode (encode s) = .ok s := by
  have h : String.fromUTF8? s.toByteArray = some s := by
    simp [String.fromUTF8?, s.isValidUTF8, String.fromUTF8]
  simp [decode, encode, h]

theorem eq_encode_of_decode {bytes : List UInt8} {s : String} (h : decode bytes = .ok s) :
    bytes = encode s := by
  unfold decode at h
  split at h
  · rename_i t ht
    cases h
    simp only [String.fromUTF8?] at ht
    split at ht
    · cases ht
      simp [encode, String.fromUTF8]
    · cases ht
  · cases h

end ObjectBridge.Utf8
