/-!
# Hex digits

Numbers and bytes in base sixteen.  Digits are written in lowercase and read in
either case.

## Main Definitions

* `hexDigits`, `hexNumber?` — a number in a fixed count of digits, and back.
* `hexOfBytes`, `hexBytes?` — bytes in two digits each, and back.
-/

namespace Upkeep.Text

/-- The lowercase digit of a number below sixteen. -/
def hexDigit (n : Nat) : Char := Nat.digitChar (n % 16)

/-- The value of a hex digit of either case. -/
def hexValue? (c : Char) : Option Nat :=
  let n := c.toNat
  if 0x30 ≤ n ∧ n ≤ 0x39 then some (n - 0x30)
  else if 0x61 ≤ n ∧ n ≤ 0x66 then some (n - 0x61 + 10)
  else if 0x41 ≤ n ∧ n ≤ 0x46 then some (n - 0x41 + 10)
  else none

/-- The last `count` hex digits of a number, the highest first. -/
def hexDigits (count : Nat) (n : Nat) : List Char :=
  (List.range count).map fun i => hexDigit (n / Nat.pow 16 (count - 1 - i))

/-- The number that hex digits name. -/
def hexNumber? (cs : List Char) : Option Nat :=
  cs.foldlM (fun n c => (hexValue? c).map fun d => n * 16 + d) 0

/-- Bytes in two digits each. -/
def hexOfBytes (bytes : List UInt8) : List Char :=
  bytes.flatMap fun b => hexDigits 2 b.toNat

/-- The bytes of pairs of digits. -/
def hexBytes? : List Char → Option (List UInt8)
  | [] => some []
  | [_] => none
  | high :: low :: cs => do
      let n ← hexNumber? [high, low]
      return UInt8.ofNat n :: (← hexBytes? cs)

@[simp] theorem length_hexDigits (count n : Nat) : (hexDigits count n).length = count := by
  simp [hexDigits]

end Upkeep.Text
