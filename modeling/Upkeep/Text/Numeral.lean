/-!
# Decimal numerals

Whole numbers as the database prints them and as it reads them back: an
optional single sign and then at least one ASCII digit.  Nothing else is
accepted, so neither blanks nor digits of other scripts nor separators occur in
a numeral.  A 64-bit numeral must also name a number within range.

## Main Definitions

* `natural?` — an unsigned run of digits.
* `integer?` — with an optional sign.
* `int64?` — within the signed 64-bit range.
* `ofInt64` — the numeral written for a signed 64-bit number.
-/

namespace Upkeep.Text

/-- The number that a non-empty run of ASCII digits names. -/
def natural? (cs : List Char) : Option Nat :=
  if !cs.isEmpty && cs.all Char.isDigit then some (Nat.ofDigitChars 10 cs 0) else none

/-- The number that a numeral with an optional sign names. -/
def integer? : List Char → Option Int
  | '-' :: cs => (natural? cs).map fun n => -(n : Int)
  | '+' :: cs => (natural? cs).map fun n => (n : Int)
  | cs => (natural? cs).map fun n => (n : Int)

/-- The number that a numeral names, if it has one of the signed 64-bit values. -/
def int64? (cs : List Char) : Option Int64 :=
  (integer? cs).bind fun n =>
    if Int64.minValue.toInt ≤ n ∧ n ≤ Int64.maxValue.toInt then some (Int64.ofInt n) else none

/-- The numeral of a signed 64-bit number: a minus sign if it is negative, and
its digits without leading zeros. -/
def ofInt64 (n : Int64) : List Char :=
  if n.toInt < 0 then '-' :: Nat.toDigits 10 n.toInt.natAbs else Nat.toDigits 10 n.toInt.natAbs

/-- A run of digits is never empty. -/
@[simp] theorem natural?_nil : natural? [] = none := rfl

/-- Every number is read back from its own digits. -/
@[simp] theorem natural?_toDigits (n : Nat) : natural? (Nat.toDigits 10 n) = some n := by
  have digits : (Nat.toDigits 10 n).all Char.isDigit = true := by
    rw [List.all_eq_true]
    exact fun c hc => Nat.isDigit_of_mem_toDigits (by decide) (by decide) hc
  simp [natural?, digits, Nat.toDigits_ne_nil, Nat.ofDigitChars_ten_toDigits]

end Upkeep.Text
