/-!
# Ill-formed UTF-8

Where a run of bytes stops being UTF-8, and why.  A fault lies at the first
byte that begins no whole character.  It has a length if the bytes that follow
cannot continue it, whatever comes later; it is open if the bytes end before
the character does.

## Main Definitions

* `Utf8Fault` — the place and the length of a fault, with its wording.
* `utf8Fault` — the first fault of a run of bytes.
* `ofUtf8` — the text of a run of bytes, or its first fault.
-/

namespace Upkeep.Text

/-- The first place where bytes are not UTF-8. -/
structure Utf8Fault where
  /-- How many bytes before it are well-formed. -/
  index : Nat
  /-- How many bytes it takes up, if more bytes could not mend it. -/
  length : Option Nat
  deriving DecidableEq, Repr

namespace Utf8Fault

/-- The wording of a fault. -/
def message (fault : Utf8Fault) : String :=
  match fault.length with
  | some n => s!"invalid utf-8 sequence of {n} bytes from index {fault.index}"
  | none => s!"incomplete utf-8 byte sequence from index {fault.index}"

end Utf8Fault

/-- How a character of several bytes begins: its length in bytes and the range
of its second byte. -/
def leadByte? (b : UInt8) : Option (Nat × UInt8 × UInt8) :=
  if b < 0xc2 then none
  else if b ≤ 0xdf then some (2, 0x80, 0xbf)
  else if b = 0xe0 then some (3, 0xa0, 0xbf)
  else if b = 0xed then some (3, 0x80, 0x9f)
  else if b ≤ 0xef then some (3, 0x80, 0xbf)
  else if b = 0xf0 then some (4, 0x90, 0xbf)
  else if b ≤ 0xf3 then some (4, 0x80, 0xbf)
  else if b = 0xf4 then some (4, 0x80, 0x8f)
  else none

/-- Whether the byte may stand third or fourth in a character. -/
def isTrailByte (b : UInt8) : Bool := 0x80 ≤ b && b ≤ 0xbf

/-- The first fault from position `index` on; at the end of the bytes there is
only the open fault of a character that has not begun. -/
def utf8FaultFrom (index : Nat) : List UInt8 → Utf8Fault
  | [] => ⟨index, none⟩
  | b :: rest =>
      if b < 0x80 then utf8FaultFrom (index + 1) rest
      else
        match leadByte? b with
        | none => ⟨index, some 1⟩
        | some (width, low, high) =>
            match rest with
            | [] => ⟨index, none⟩
            -- Only the second byte has a range of its own; it rules out the characters
            -- that could be shorter, surrogates, and numbers that no character has.
            | b₂ :: rest =>
                if b₂ < low || high < b₂ then ⟨index, some 1⟩
                else if width = 2 then utf8FaultFrom (index + 2) rest
                else
                  match rest with
                  | [] => ⟨index, none⟩
                  | b₃ :: rest =>
                      if !isTrailByte b₃ then ⟨index, some 2⟩
                      else if width = 3 then utf8FaultFrom (index + 3) rest
                      else
                        match rest with
                        | [] => ⟨index, none⟩
                        | b₄ :: rest =>
                            if !isTrailByte b₄ then ⟨index, some 3⟩
                            else utf8FaultFrom (index + 4) rest

/-- The text that the bytes encode, or their first fault. -/
def ofUtf8 (bytes : List UInt8) : Except Utf8Fault String :=
  match String.fromUTF8? ⟨bytes.toArray⟩ with
  | some s => .ok s
  | none => .error (utf8FaultFrom 0 bytes)

/-- The bytes that encode the text. -/
def toUtf8 (s : String) : List UInt8 :=
  s.toUTF8.data.toList

end Upkeep.Text
