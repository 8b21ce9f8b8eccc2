import Upkeep.Reindex.Action
import Upkeep.Text.Utf8

/-!
# Actions as bytes

The byte form of an action, one field after the other in the order of the
record.  A number takes eight bytes, the lowest first; a state takes four; a
text and an id have their length in bytes before them, as a number; an optional
field is a byte that says whether it is there, and then the field.

## Main Definitions

* `Encoding.encode` — the bytes of an action.
* `Encoding.decode` — the action that some bytes begin with; what follows it is
  of no interest.
* `Encoding.Fault` — why bytes begin with no action.

## Design Notes

A decoder is a function from bytes to a value and the remaining bytes, so each
field's decoder is undone by its encoder no matter what follows.
-/

namespace Upkeep.Encoding

/-- Why bytes do not begin with an action. -/
inductive Fault where
  /-- They end within a number or before the mark of an optional field. -/
  | endOfBytes
  /-- They end before the length of a text or an id is reached. -/
  | shortText
  /-- An id of a length that no id has. -/
  | idLength (found : Nat)
  /-- A state that is none of the three. -/
  | unknownState (found : Nat)
  /-- A mark that is neither that of a present nor that of an absent field. -/
  | unknownMark (found : Nat)
  /-- A text that is not UTF-8. -/
  | notUtf8 (fault : Text.Utf8Fault)
  deriving DecidableEq, Repr

/-- The wording of a fault. -/
def Fault.message : Fault → String
  | endOfBytes => "io error: unexpected end of file"
  | shortText => "io error: "
  | idLength found =>
      s!"UUID parsing failed: invalid length: expected 16 bytes, found {found}"
  | unknownState found =>
      "invalid value: integer `" ++ toString found ++
        "`, expected variant index 0 <= i < 3"
  | unknownMark found => s!"tag for enum is not valid, found {found}"
  | notUtf8 fault => "string is not valid utf8: " ++ fault.message

/-! ### Encoding -/

/-- The lowest `width` bytes of a number, the lowest first. -/
def lowBytes : Nat → Nat → List UInt8
  | 0, _ => []
  | width + 1, n => UInt8.ofNat n :: lowBytes width (n / 256)

/-- A number. -/
def word (n : UInt64) : List UInt8 := lowBytes 8 n.toNat

/-- Bytes with their length before them. -/
def counted (bytes : List UInt8) : List UInt8 := lowBytes 8 bytes.length ++ bytes

/-- A text. -/
def text (s : String) : List UInt8 := counted (Text.toUtf8 s)

/-- A field that may be absent. -/
def optional {α : Type} (encode : α → List UInt8) : Option α → List UInt8
  | none => [0]
  | some value => 1 :: encode value

/-- The place of a state among the three. -/
def stateIndex : Action.State → Nat
  | .running => 0
  | .finished => 1
  | .failed => 2

/-- The bytes of an action. -/
def encode (action : Action) : List UInt8 :=
  counted action.id.toBytes ++ text action.database ++ text action.index ++
    lowBytes 4 (stateIndex action.state) ++ word action.started ++
    optional word action.ended ++ word action.sizeBefore ++
    optional word action.sizeAfter ++ optional word action.bloatBefore ++
    optional text action.error

/-! ### Decoding -/

/-- Takes a value from the front of some bytes. -/
abbrev Decoder := StateT (List UInt8) (Except Fault)

/-- The number with the given bytes, the lowest first. -/
def ofLowBytes : List UInt8 → Nat
  | [] => 0
  | b :: bytes => b.toNat + 256 * ofLowBytes bytes

/-- So many bytes; if there are fewer, that is the given fault. -/
def takeBytes (count : Nat) (missing : Fault) : Decoder (List UInt8) := fun bytes =>
  if count ≤ bytes.length then .ok (bytes.take count, bytes.drop count) else .error missing

/-- A number of `width` bytes. -/
def takeNumber (width : Nat) : Decoder Nat :=
  ofLowBytes <$> takeBytes width .endOfBytes

/-- A number. -/
def takeWord : Decoder UInt64 := UInt64.ofNat <$> takeNumber 8

/-- Bytes with their length before them. -/
def takeCounted : Decoder (List UInt8) := do
  let count ← takeNumber 8
  takeBytes count .shortText

/-- A text. -/
def takeText : Decoder String := do
  let bytes ← takeCounted
  match Text.ofUtf8 bytes with
  | .ok s => return s
  | .error fault => throw (.notUtf8 fault)

/-- An id. -/
def takeId : Decoder Uuid := do
  let bytes ← takeCounted
  match Uuid.ofBytes? bytes with
  | some id => return id
  | none => throw (.idLength bytes.length)

/-- A state. -/
def takeState : Decoder Action.State := do
  match ← takeNumber 4 with
  | 0 => return .running
  | 1 => return .finished
  | 2 => return .failed
  | n => throw (.unknownState n)

/-- A field that may be absent. -/
def takeOptional {α : Type} (take : Decoder α) : Decoder (Option α) := do
  match ← takeNumber 1 with
  | 0 => return none
  | 1 => some <$> take
  | n => throw (.unknownMark n)

/-- An action, field by field. -/
def takeAction : Decoder Action := do
  let id ← takeId
  let database ← takeText
  let index ← takeText
  let state ← takeState
  let started ← takeWord
  let ended ← takeOptional takeWord
  let sizeBefore ← takeWord
  let sizeAfter ← takeOptional takeWord
  let bloatBefore ← takeOptional takeWord
  let error ← takeOptional takeText
  return { id, database, index, state, started, ended, sizeBefore, sizeAfter, bloatBefore, error }

/-- The action that the bytes begin with. -/
def decode (bytes : List UInt8) : Except Fault Action :=
  (takeAction.run bytes).map Prod.fst

@[simp] theorem length_lowBytes (width n : Nat) : (lowBytes width n).length = width := by
  induction width generalizing n with
  | zero => rfl
  | succ width ih => simp [lowBytes, ih]

/-- The low bytes of a number name it, if there are enough of them. -/
theorem ofLowBytes_lowBytes (width n : Nat) :
    ofLowBytes (lowBytes width n) = n % Nat.pow 256 width := by
  induction width generalizing n with
  | zero => simp [lowBytes, ofLowBytes, Nat.mod_one]
  | succ width ih =>
      have byte : (UInt8.ofNat n).toNat = n % 256 := UInt8.toNat_ofNat'
      rw [lowBytes, ofLowBytes, ih, byte]
      exact (Nat.pow_succ' ▸ Nat.mod_mul).symm

/-- The front of a longer list is taken by its length. -/
theorem takeBytes_append {bytes : List UInt8} {count : Nat} (width : bytes.length = count)
    (rest : List UInt8) (missing : Fault) :
    takeBytes count missing (bytes ++ rest) = .ok (bytes, rest) := by
  subst width
  simp [takeBytes]

end Upkeep.Encoding
