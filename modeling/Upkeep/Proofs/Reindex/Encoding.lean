import Upkeep.Proofs.Uuid
import Upkeep.Reindex.Encoding

/-!
# Actions read back from their bytes

Decoding undoes encoding, field by field and so for the whole record.  The length of a text
is written in eight bytes, and a text whose UTF-8 form is longer than that can say would be
cut; no text that fits into the memory of a machine is.

## Main Definitions

* `Encoding.Reads` — a decoder takes just these bytes from the front and gives the value.
* `Action.IsStorable` — every text of the action has a length that eight bytes can say.

## Main Results

* `Encoding.decode_encode` — an action is read back from its bytes.
-/

namespace Upkeep

/-- The length of a text in bytes is below `2 ^ 64`. -/
def Text.IsCountable (s : String) : Prop := (Text.toUtf8 s).length < 2 ^ 64

instance (s : String) : Decidable (Text.IsCountable s) :=
  inferInstanceAs (Decidable ((Text.toUtf8 s).length < 2 ^ 64))

/-- A text is read back from its bytes. -/
theorem Text.ofUtf8_toUtf8 (s : String) : Text.ofUtf8 (Text.toUtf8 s) = .ok s := by
  have valid : s.toByteArray.IsValidUTF8 := s.isValidUTF8
  simp [Text.ofUtf8, Text.toUtf8, String.toUTF8, String.fromUTF8?, valid, String.fromUTF8]

/-- The texts of the action have lengths that can be written. -/
structure Action.IsStorable (action : Action) : Prop where
  database : Text.IsCountable action.database
  index : Text.IsCountable action.index
  error : ∀ text ∈ action.error, Text.IsCountable text

namespace Encoding

variable {α β : Type}

/-- The decoder takes these bytes from the front, whatever follows them, and gives the
value. -/
def Reads (take : Decoder α) (bytes : List UInt8) (value : α) : Prop :=
  ∀ rest, take (bytes ++ rest) = .ok (value, rest)

namespace Reads

theorem pure (value : α) : Reads (Pure.pure value) [] value := fun _ => rfl

/-- What the first decoder leaves is for the second. -/
theorem bind {take : Decoder α} {next : α → Decoder β} {bytes bytes' : List UInt8} {a : α} {b : β}
    (first : Reads take bytes a) (second : Reads (next a) bytes' b) :
    Reads (take >>= next) (bytes ++ bytes') b := by
  intro rest
  show (take (bytes ++ bytes' ++ rest)).bind _ = _
  rw [List.append_assoc, first]
  exact second rest

/-- A last step that takes no bytes. -/
theorem bind_nil {take : Decoder α} {next : α → Decoder β} {bytes : List UInt8} {a : α} {b : β}
    (first : Reads take bytes a) (second : Reads (next a) [] b) :
    Reads (take >>= next) bytes b :=
  List.append_nil bytes ▸ first.bind second

theorem map {take : Decoder α} {bytes : List UInt8} {a : α} (f : α → β)
    (reads : Reads take bytes a) : Reads (f <$> take) bytes (f a) := by
  rw [map_eq_pure_bind]
  exact reads.bind_nil (pure (f a))

theorem bytes {bytes : List UInt8} {count : Nat} (width : bytes.length = count)
    (missing : Fault) : Reads (takeBytes count missing) bytes bytes := fun rest =>
  takeBytes_append width rest missing

/-- A number is read back if its bytes suffice for it. -/
theorem number {width n : Nat} (fits : n < 256 ^ width) :
    Reads (takeNumber width) (lowBytes width n) n := by
  have value : ofLowBytes (lowBytes width n) = n :=
    (ofLowBytes_lowBytes width n).trans (Nat.mod_eq_of_lt fits)
  have read := (bytes (length_lowBytes width n) .endOfBytes).map ofLowBytes
  rwa [value] at read

theorem word (n : UInt64) : Reads takeWord (Encoding.word n) n := by
  have fits : n.toNat < 256 ^ 8 := n.toNat_lt
  have read := (number fits).map UInt64.ofNat
  rwa [UInt64.ofNat_toNat] at read

theorem counted {bytes : List UInt8} (fits : bytes.length < 2 ^ 64) :
    Reads takeCounted (Encoding.counted bytes) bytes := by
  have length : Reads (takeNumber 8) (lowBytes 8 bytes.length) bytes.length := number fits
  exact length.bind (Reads.bytes rfl .shortText)

theorem text {s : String} (fits : Text.IsCountable s) : Reads takeText (Encoding.text s) s := by
  refine (counted fits).bind_nil ?_
  rw [Text.ofUtf8_toUtf8]
  exact pure s

theorem id (id : Uuid) : Reads takeId (Encoding.counted id.toBytes) id := by
  have fits : id.toBytes.length < 2 ^ 64 := by simp
  refine (counted fits).bind_nil ?_
  rw [Uuid.ofBytes?_toBytes]
  exact pure id

theorem state (state : Action.State) :
    Reads takeState (lowBytes 4 (stateIndex state)) state := by
  have fits : stateIndex state < 256 ^ 4 := by cases state <;> decide
  refine (number fits).bind_nil ?_
  cases state <;> exact pure _

theorem optional {take : Decoder α} {encode : α → List UInt8} {value? : Option α}
    (reads : ∀ value ∈ value?, Reads take (encode value) value) :
    Reads (takeOptional take) (Encoding.optional encode value?) value? := by
  have mark {n : Nat} (fits : n < 256 ^ 1) : Reads (takeNumber 1) (lowBytes 1 n) n := number fits
  cases value? with
  | none => exact (mark (by decide : 0 < 256 ^ 1)).bind_nil (pure none)
  | some value => exact (mark (by decide : 1 < 256 ^ 1)).bind ((reads value rfl).map some)

theorem optionalWord (n? : Option UInt64) :
    Reads (takeOptional takeWord) (Encoding.optional Encoding.word n?) n? :=
  optional fun n _ => word n

end Reads

/-- The decoder of actions takes just the bytes of an action. -/
theorem reads_encode {action : Action} (storable : action.IsStorable) :
    Reads takeAction (encode action) action := by
  simp only [encode, List.append_assoc]
  exact (Reads.id action.id).bind <| (Reads.text storable.database).bind <|
    (Reads.text storable.index).bind <| (Reads.state action.state).bind <|
    (Reads.word action.started).bind <| (Reads.optionalWord action.ended).bind <|
    (Reads.word action.sizeBefore).bind <| (Reads.optionalWord action.sizeAfter).bind <|
    (Reads.optionalWord action.bloatBefore).bind <|
    (Reads.optional fun text given => Reads.text (storable.error text given)).bind_nil <|
    Reads.pure action

/-- An action is read back from its bytes. -/
theorem decode_encode {action : Action} (storable : action.IsStorable) :
    decode (encode action) = .ok action := by
  have read := reads_encode storable []
  rw [List.append_nil] at read
  simp [decode, StateT.run, read, Except.map]

end Encoding

end Upkeep
