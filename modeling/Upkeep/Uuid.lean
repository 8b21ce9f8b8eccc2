import Upkeep.Text.Hex

/-!
# UUIDs

The 128-bit identifiers of actions and lease holders.  Written, an identifier
is 32 lowercase hex digits in groups of 8, 4, 4, 4 and 12 between hyphens.
Read, it may have no hyphens at all, braces around the hyphenated form, or
`urn:uuid:` before it; digits and head may have either case.

## Main Definitions

* `Uuid.toText` — the written form.
* `Uuid.ofText?` — reading one of the four forms.
* `Uuid.toBytes`, `Uuid.ofBytes?` — sixteen bytes, the highest first.
-/

namespace Upkeep

/-- A 128-bit identifier. -/
@[ext] structure Uuid where
  bits : BitVec 128
  deriving DecidableEq, Repr, Inhabited

namespace Uuid

/-- The identifier with the given number, which counts modulo the number of
identifiers. -/
def ofNat (n : Nat) : Uuid := ⟨BitVec.ofNat 128 n⟩

/-- The digits of the written form without its hyphens. -/
def digits (id : Uuid) : List Char := Text.hexDigits 32 id.bits.toNat

/-- The written form: groups of 8, 4, 4, 4 and 12 digits. -/
def toText (id : Uuid) : String :=
  let ds := id.digits
  String.ofList <|
    ds.take 8 ++ '-' :: ((ds.drop 8).take 4 ++ '-' :: ((ds.drop 12).take 4 ++
      '-' :: ((ds.drop 16).take 4 ++ '-' :: ds.drop 20)))

instance : ToString Uuid := ⟨toText⟩

/-- The identifier of exactly 32 digits. -/
def ofDigits? (cs : List Char) : Option Uuid :=
  if cs.length = 32 then (Text.hexNumber? cs).map ofNat else none

/-- The identifier of a hyphenated form, whose hyphens stand after 8, 12, 16
and 20 digits and nowhere else. -/
def ofHyphenated? (cs : List Char) : Option Uuid :=
  if cs.length = 36 ∧ cs[8]? = some '-' ∧ cs[13]? = some '-' ∧ cs[18]? = some '-' ∧
      cs[23]? = some '-' then
    ofDigits? (cs.take 8 ++ (cs.drop 9).take 4 ++ (cs.drop 14).take 4 ++
      (cs.drop 19).take 4 ++ cs.drop 24)
  else none

/-- What stands before a hyphenated form that is written as a name, in lower
case. -/
def urnHead : List Char := ['u', 'r', 'n', ':', 'u', 'u', 'i', 'd', ':']

/-- The identifier that one of the four forms names. -/
def ofText? (s : String) : Option Uuid :=
  let cs := s.toList
  match cs with
  | '\x7b' :: rest =>
      if rest.getLast? = some '\x7d' then ofHyphenated? rest.dropLast else none
  | _ =>
      -- Like the braces, this head stands before a hyphenated form only.
      if urnHead.isPrefixOf (cs.map Char.toLower) then ofHyphenated? (cs.drop urnHead.length)
      else (ofHyphenated? cs).orElse fun _ => ofDigits? cs

/-- The sixteen bytes of an identifier, the highest first. -/
def toBytes (id : Uuid) : List UInt8 :=
  (List.range 16).map fun i => UInt8.ofNat (id.bits.toNat / Nat.pow 256 (15 - i))

/-- The identifier of exactly sixteen bytes. -/
def ofBytes? (bytes : List UInt8) : Option Uuid :=
  if bytes.length = 16 then
    some (ofNat (bytes.foldl (fun n b => n * 256 + b.toNat) 0))
  else none

/-- Identifiers are ordered as numbers. -/
instance : Ord Uuid := ⟨fun a b => compare a.bits.toNat b.bits.toNat⟩

@[simp] theorem length_toBytes (id : Uuid) : id.toBytes.length = 16 := by
  simp [toBytes]

@[simp] theorem length_digits (id : Uuid) : id.digits.length = 32 := by
  simp [digits]

end Uuid

end Upkeep
