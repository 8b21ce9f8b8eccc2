import Mathlib.Algebra.Group.Nat.Defs
import Upkeep.Uuid

/-!
# Identifiers and their forms

An identifier is given back by its sixteen bytes, and no two identifiers are written alike:
the written form has all the 32 digits, and so many digits name every number below
`2 ^ 128`.
-/

namespace Upkeep

namespace Text

/-- A hex digit says which number below sixteen it stands for. -/
theorem hexDigit_inj {m n : Nat} : hexDigit m = hexDigit n ↔ m % 16 = n % 16 := by
  have small : ∀ a < 16, ∀ b < 16, Nat.digitChar a = Nat.digitChar b → a = b := by decide
  exact ⟨small _ (Nat.mod_lt m (by decide)) _ (Nat.mod_lt n (by decide)),
    fun same => congrArg Nat.digitChar same⟩

/-- Numbers with the same last digits agree in each of them. -/
theorem div_mod_of_hexDigits {count m n : Nat} (same : hexDigits count m = hexDigits count n)
    {place : Nat} (inside : place < count) :
    m / Nat.pow 16 place % 16 = n / Nat.pow 16 place % 16 := by
  have digit := congrArg (fun digits => digits[count - 1 - place]?) same
  have back : count - 1 - (count - 1 - place) = place := by omega
  have bound : count - 1 - place < count := by omega
  simpa [hexDigits, bound, back, hexDigit_inj] using digit

/-- The last `count` digits of a number say what it is modulo `16 ^ count`. -/
theorem mod_of_hexDigits {count m n : Nat} (same : hexDigits count m = hexDigits count n) :
    m % 16 ^ count = n % 16 ^ count := by
  have upTo : ∀ k ≤ count, m % 16 ^ k = n % 16 ^ k := by
    intro k
    induction k with
    | zero => simp [Nat.mod_one]
    | succ k ih =>
        intro le
        have digit : m / 16 ^ k % 16 = n / 16 ^ k % 16 := div_mod_of_hexDigits same le
        rw [Nat.mod_pow_succ, Nat.mod_pow_succ, ih (by omega), digit]
  exact upTo count (Nat.le_refl count)

end Text

namespace Uuid

theorem ofNat_toNat (id : Uuid) : ofNat id.bits.toNat = id := by
  simp [ofNat]

/-- Reading bytes, the highest first, after so many of an identifier's bytes. -/
theorem foldl_toBytes {n : Nat} (small : n < 256 ^ 16) {count : Nat} (le : count ≤ 16) :
    ((List.range count).map fun i => UInt8.ofNat (n / Nat.pow 256 (15 - i))).foldl
      (fun n b => n * 256 + b.toNat) 0 = n / 256 ^ (16 - count) := by
  induction count with
  | zero => exact (Nat.div_eq_of_lt small).symm
  | succ count ih =>
      have width : 16 - count = 15 - count + 1 := by omega
      rw [List.range_succ, List.map_append, List.foldl_append, ih (by omega), width, Nat.pow_succ,
        ← Nat.div_div_eq_div_mul]
      simp only [List.map_cons, List.map_nil, List.foldl_cons, List.foldl_nil, UInt8.toNat_ofNat']
      have rest : 16 - (count + 1) = 15 - count := by omega
      rw [rest]
      exact Nat.div_add_mod' (n / 256 ^ (15 - count)) 256

/-- An identifier is that of its bytes. -/
theorem ofBytes?_toBytes (id : Uuid) : ofBytes? id.toBytes = some id := by
  have small : id.bits.toNat < 256 ^ 16 := id.bits.isLt
  have read := foldl_toBytes small (Nat.le_refl 16)
  rw [ofBytes?, if_pos (length_toBytes id), toBytes, read]
  simp [ofNat_toNat]

/-- An identifier is known by its digits. -/
theorem digits_inj {a b : Uuid} : a.digits = b.digits ↔ a = b := by
  refine ⟨fun same => ?_, congrArg digits⟩
  have number : a.bits.toNat % 16 ^ 32 = b.bits.toNat % 16 ^ 32 := Text.mod_of_hexDigits same
  have ha : a.bits.toNat < 16 ^ 32 := a.bits.isLt
  have hb : b.bits.toNat < 16 ^ 32 := b.bits.isLt
  rw [Nat.mod_eq_of_lt ha, Nat.mod_eq_of_lt hb] at number
  exact Uuid.ext (BitVec.eq_of_toNat_eq number)

/-- The groups of digits put together are the digits. -/
theorem groups_digits (id : Uuid) :
    id.digits.take 8 ++ ((id.digits.drop 8).take 4 ++ ((id.digits.drop 12).take 4 ++
      ((id.digits.drop 16).take 4 ++ id.digits.drop 20))) = id.digits := by
  have join (n k : Nat) :
      (id.digits.drop n).take k ++ id.digits.drop (n + k) = id.digits.drop n := by
    rw [← List.drop_drop, List.take_append_drop]
  rw [join 16 4, join 12 4, join 8 4, List.take_append_drop]

/-- An identifier is known by its written form. -/
theorem toText_inj {a b : Uuid} : a.toText = b.toText ↔ a = b := by
  refine ⟨fun same => ?_, congrArg toText⟩
  have lists := String.ofList_injective same
  rw [← digits_inj, ← groups_digits a, ← groups_digits b]
  have head := List.append_inj lists (by simp)
  have second := List.append_inj (List.cons.inj head.2).2 (by simp)
  have third := List.append_inj (List.cons.inj second.2).2 (by simp)
  have fourth := List.append_inj (List.cons.inj third.2).2 (by simp)
  rw [head.1, second.1, third.1, fourth.1, (List.cons.inj fourth.2).2]

end Uuid

end Upkeep
