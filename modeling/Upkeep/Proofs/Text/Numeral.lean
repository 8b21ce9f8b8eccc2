import Upkeep.Proofs.Text.Phrase

/-!
# Numerals, and what stands around them

A numeral is a sign or none and then digits, and it denotes one number.  What is read from a
catalog or from a statement is taken out of its blanks and its delimiters first, at places that
are counted in characters here and in bytes elsewhere.

## Main Definitions

* `IsNumeral` — the numerals of a number.
* `SameLetters` — texts that differ in the case of ASCII letters at most.
* `splitAtByte?` — the two parts of a text at a place that is counted in bytes.

## Main Statements

* `int64?_eq_some_iff` — the 64-bit numerals are the numerals of 64-bit numbers.
* `between?_eq_some_iff` — what stands between two delimiters.
* `exists_trimBlanks` — trimming takes away blanks at both ends, and nothing else.
* `trimBlanks_append` — it makes no difference how many blanks there are.
* `splitAtByte?_eq_some_iff` — a text has a place wherever so many bytes are those of whole
  characters.
-/

namespace Upkeep.Text

variable {cs : List Char}

/-! ### Numerals -/

/-- At least one ASCII digit, and nothing else. -/
def IsDigits (cs : List Char) : Prop := cs ≠ [] ∧ ∀ c ∈ cs, c.isDigit = true

/-- The text is a decimal numeral of the number, with a sign or without. -/
inductive IsNumeral : List Char → Int → Prop
  | bare {digits : List Char} (h : IsDigits digits) :
      IsNumeral digits (Nat.ofDigitChars 10 digits 0)
  | plus {digits : List Char} (h : IsDigits digits) :
      IsNumeral ('+' :: digits) (Nat.ofDigitChars 10 digits 0)
  | minus {digits : List Char} (h : IsDigits digits) :
      IsNumeral ('-' :: digits) (-(Nat.ofDigitChars 10 digits 0 : Int))

/-- Numerals consist of digits, and of a sign at most. -/
theorem IsNumeral.mem {n : Int} (h : IsNumeral cs n) {c : Char} (hc : c ∈ cs) :
    c.isDigit = true ∨ c = '+' ∨ c = '-' := by
  cases h with
  | bare h => exact .inl (h.2 c hc)
  | plus h =>
      rcases List.mem_cons.1 hc with rfl | hc
      · exact .inr (.inl rfl)
      · exact .inl (h.2 c hc)
  | minus h =>
      rcases List.mem_cons.1 hc with rfl | hc
      · exact .inr (.inr rfl)
      · exact .inl (h.2 c hc)

theorem IsNumeral.ne_nil {n : Int} (h : IsNumeral cs n) : cs ≠ [] := by
  cases h with
  | bare h => exact h.1
  | plus h => exact List.cons_ne_nil _ _
  | minus h => exact List.cons_ne_nil _ _

theorem natural?_eq_some_iff {n : Nat} :
    natural? cs = some n ↔ IsDigits cs ∧ Nat.ofDigitChars 10 cs 0 = n := by
  simp only [natural?, Option.ite_none_right_eq_some, Bool.and_eq_true, Bool.not_eq_true',
    List.isEmpty_eq_false_iff, List.all_eq_true, Option.some.injEq, IsDigits]

/-- The integers that are read are those that numerals denote. -/
theorem integer?_eq_some_iff {n : Int} : integer? cs = some n ↔ IsNumeral cs n := by
  constructor
  · intro h
    unfold integer? at h
    split at h <;> simp only [Option.bind_eq_bind, Option.pure_def, Option.map_eq_some_iff,
      Option.bind_eq_some_iff, Option.some.injEq, natural?_eq_some_iff] at h <;>
      obtain ⟨_, ⟨_, ⟨hdigits, rfl⟩, rfl⟩, rfl⟩ := h
    · exact .minus hdigits
    · exact .plus hdigits
    · exact .bare hdigits
  · intro h
    cases h with
    | bare h =>
        rw [integer?_of_digits h.2, natural?_eq_some_iff.2 ⟨h, rfl⟩]
        rfl
    | plus h =>
        rw [integer?, natural?_eq_some_iff.2 ⟨h, rfl⟩]
        rfl
    | minus h =>
        rw [integer?, natural?_eq_some_iff.2 ⟨h, rfl⟩]
        rfl

/-- **The 64-bit numerals** are the numerals of 64-bit numbers. -/
theorem int64?_eq_some_iff {value : Int64} :
    int64? cs = some value ↔ IsNumeral cs value.toInt := by
  rw [← integer?_eq_some_iff, int64?, Option.bind_eq_some_iff]
  constructor
  · rintro ⟨n, hn, hvalue⟩
    obtain ⟨⟨hlow, hhigh⟩, heq⟩ := Option.ite_none_right_eq_some.1 hvalue
    obtain rfl := Option.some.inj heq
    have hlow : -2 ^ 63 ≤ n := hlow
    have hhigh : n ≤ 2 ^ 63 - 1 := hhigh
    rw [hn, Int64.toInt_ofInt_of_le hlow (by omega)]
  · intro h
    have hrange : Int64.minValue.toInt ≤ value.toInt ∧ value.toInt ≤ Int64.maxValue.toInt :=
      ⟨value.minValue_le_toInt, value.toInt_le⟩
    exact ⟨value.toInt, h, by rw [if_pos hrange, Int64.ofInt_toInt]⟩

/-! ### Delimiters and blanks -/

/-- What stands between two delimiters. -/
theorem between?_eq_some_iff {opening closing : Char} {body : List Char} :
    between? opening closing cs = some body ↔ cs = opening :: (body ++ [closing]) := by
  constructor
  · intro h
    cases cs with
    | nil => cases h
    | cons c cs =>
        obtain ⟨⟨rfl, hlast⟩, heq⟩ := Option.ite_none_right_eq_some.1 h
        obtain rfl := Option.some.inj heq
        obtain ⟨front, rfl⟩ := List.getLast?_eq_some_iff.1 hlast
        rw [List.dropLast_concat]
  · rintro rfl
    exact between?_enclosed opening closing body

/-- Trimming on the right takes away blanks and nothing else. -/
private theorem exists_trimRight (cs : List Char) :
    ∃ back, cs = trimRight cs ++ back ∧ ∀ c ∈ back, isBlank c = true := by
  induction cs with
  | nil => exact ⟨[], rfl, by simp⟩
  | cons c cs ih =>
      obtain ⟨back, hcs, hback⟩ := ih
      rw [trimRight]
      split
      · next heq =>
          rw [heq, List.nil_append] at hcs
          split
          · next hc => exact ⟨c :: back, by rw [← hcs]; rfl, by simpa [hc] using hback⟩
          · exact ⟨back, by rw [← hcs]; rfl, hback⟩
      · next heq => exact ⟨back, by rw [List.cons_append, ← heq, ← hcs], hback⟩

/-- **Trimming takes away blanks** at both ends, and nothing else. -/
theorem exists_trimBlanks (cs : List Char) :
    ∃ front back, cs = front ++ (trimBlanks cs ++ back) ∧
      ∀ c ∈ front ++ back, isBlank c = true := by
  obtain ⟨back, hcs, hback⟩ := exists_trimRight (cs.dropWhile isBlank)
  refine ⟨cs.takeWhile isBlank, back, ?_, fun c hc => ?_⟩
  · rw [trimBlanks, ← hcs, List.takeWhile_append_dropWhile]
  · rcases List.mem_append.1 hc with hc | hc
    · exact List.all_eq_true.1 List.all_takeWhile c hc
    · exact hback c hc

private theorem trimRight_append {back : List Char} (hback : ∀ c ∈ back, isBlank c = true)
    (cs : List Char) : trimRight (cs ++ back) = trimRight cs := by
  induction cs with
  | nil =>
      induction back with
      | nil => rfl
      | cons c back ih =>
          obtain ⟨hc, hback⟩ := List.forall_mem_cons.1 hback
          have hrest : trimRight back = [] := ih hback
          simp only [List.nil_append, trimRight, hrest, hc, if_true]
  | cons c cs ih => simp only [List.cons_append, trimRight, ih]

/-- **Blanks around a text** make no difference. -/
theorem trimBlanks_append {front back : List Char} (hblank : ∀ c ∈ front ++ back, isBlank c = true)
    (cs : List Char) : trimBlanks (front ++ (cs ++ back)) = trimBlanks cs := by
  have hfront : ∀ c ∈ front, isBlank c = true := fun c hc => hblank c (List.mem_append_left back hc)
  have hback : ∀ c ∈ back, isBlank c = true := fun c hc => hblank c (List.mem_append_right front hc)
  rw [trimBlanks, List.dropWhile_append_of_pos hfront, List.dropWhile_append, trimBlanks]
  split
  · next hempty =>
      -- There are blanks only.
      have hnone : (back ++ []).dropWhile isBlank = [] := List.dropWhile_append_of_pos hback
      rw [List.append_nil] at hnone
      rw [List.isEmpty_iff.1 hempty, hnone]
  · exact trimRight_append hback _

/-- What is trimmed has no blanks around it. -/
theorem trimBlanks_trimBlanks (cs : List Char) : trimBlanks (trimBlanks cs) = trimBlanks cs := by
  obtain ⟨front, back, hcs, hblank⟩ := exists_trimBlanks cs
  have htrim := trimBlanks_append hblank (trimBlanks cs)
  rw [← hcs] at htrim
  exact htrim.symm

theorem length_trimBlanks_le (cs : List Char) : (trimBlanks cs).length ≤ cs.length := by
  obtain ⟨front, back, hcs, -⟩ := exists_trimBlanks cs
  have hlength := congrArg List.length hcs
  simp only [List.length_append] at hlength
  omega

/-- What is no blank is not taken away. -/
theorem mem_trimBlanks {c : Char} (hc : isBlank c = false) (hm : c ∈ cs) : c ∈ trimBlanks cs := by
  obtain ⟨front, back, hcs, hblank⟩ := exists_trimBlanks cs
  rw [hcs, ← List.append_assoc, List.mem_append, List.mem_append] at hm
  have houter : c ∉ front ++ back := fun h => by
    rw [hblank c h] at hc
    cases hc
  rw [List.mem_append, not_or] at houter
  exact (hm.resolve_right houter.2).resolve_left houter.1

/-! ### Letters -/

/-- Two texts that differ in the case of ASCII letters at most. -/
def SameLetters (a b : List Char) : Prop := a.map Char.toLower = b.map Char.toLower

private theorem toNat_toLower (c : Char) :
    c.toLower.val.toNat =
      if 65 ≤ c.val.toNat ∧ c.val.toNat ≤ 90 then c.val.toNat + 32 else c.val.toNat := by
  have hA : 'A'.val.toNat = 65 := rfl
  have hZ : 'Z'.val.toNat = 90 := rfl
  have hshift : ('a'.val - 'A'.val).toNat = 32 := rfl
  unfold Char.toLower
  split
  · next h =>
      simp only [ge_iff_le, UInt32.le_iff_toNat_le, hA, hZ] at h
      rw [if_pos h, UInt32.toNat_add, hshift]
      omega
  · next h =>
      simp only [ge_iff_le, UInt32.le_iff_toNat_le, hA, hZ] at h
      rw [if_neg h]

private theorem toNat_toUpper (c : Char) :
    c.toUpper.val.toNat =
      if 97 ≤ c.val.toNat ∧ c.val.toNat ≤ 122 then c.val.toNat - 32 else c.val.toNat := by
  have ha : 'a'.val.toNat = 97 := rfl
  have hz : 'z'.val.toNat = 122 := rfl
  -- The difference of the codes wraps around.
  have hshift : ('A'.val - 'a'.val).toNat = 2 ^ 32 - 32 := rfl
  unfold Char.toUpper
  split
  · next h =>
      simp only [UInt32.le_iff_toNat_le, ha, hz] at h
      rw [if_pos h, UInt32.toNat_add, hshift]
      omega
  · next h =>
      simp only [UInt32.le_iff_toNat_le, ha, hz] at h
      rw [if_neg h]

private theorem toLower_eq_iff (a b : Char) :
    a.toLower = b.toLower ↔ a.toUpper = b.toUpper := by
  simp only [Char.ext_iff, ← UInt32.toNat_inj, toNat_toLower, toNat_toUpper]
  split <;> split <;> split <;> split <;> omega

/-- Texts of the same letters are the same in upper case. -/
theorem sameLetters_iff_toUpper {a b : List Char} :
    SameLetters a b ↔ a.map Char.toUpper = b.map Char.toUpper := by
  induction a generalizing b with
  | nil => simp [SameLetters]
  | cons c cs ih =>
      cases b with
      | nil => simp [SameLetters]
      | cons d ds =>
          simp only [SameLetters, List.map_cons, List.cons.injEq, toLower_eq_iff c d] at ih ⊢
          rw [ih]

/-- A text of the letters of an ASCII text has one byte for each of its characters. -/
theorem SameLetters.utf8ByteSize {a b : List Char} (h : SameLetters a b)
    (hb : ∀ c ∈ b, c.val.toNat ≤ 127) : (String.ofList a).utf8ByteSize = b.length := by
  induction a generalizing b with
  | nil =>
      cases b with
      | nil => rfl
      | cons d ds => cases h
  | cons c cs ih =>
      cases b with
      | nil => cases h
      | cons d ds =>
          obtain ⟨hcd, hrest⟩ := List.cons.inj h
          have hsize : c.utf8Size = 1 := by
            have hd := hb d List.mem_cons_self
            have hcase := congrArg (fun e : Char => e.val.toNat) hcd
            simp only [toNat_toLower] at hcase
            rw [Char.utf8Size_eq_one_iff, UInt32.le_iff_toNat_le]
            change c.val.toNat ≤ 127
            split at hcase <;> split at hcase <;> omega
          have htail := ih hrest fun e he => hb e (List.mem_cons_of_mem d he)
          rw [String.ofList_cons, String.utf8ByteSize_append, String.utf8ByteSize_singleton, hsize,
            htail, List.length_cons, Nat.add_comm]

/-! ### Places in a text -/

/-- The parts of a text before and after so many bytes; nothing, if the text has fewer bytes or if
the place is inside of a character. -/
def splitAtByte? (count : Nat) (text : String) : Option (String × String) :=
  if h : String.Pos.Raw.IsValid text ⟨count⟩ then
    let place := text.pos ⟨count⟩ h
    some ((text.sliceTo place).copy, (text.sliceFrom place).copy)
  else none

/-- **A text has a place** exactly where so many bytes are those of whole characters. -/
theorem splitAtByte?_eq_some_iff {count : Nat} {text front back : String} :
    splitAtByte? count text = some (front, back) ↔
      text = front ++ back ∧ front.utf8ByteSize = count := by
  constructor
  · intro h
    simp only [splitAtByte?] at h
    split at h
    · next hvalid =>
        obtain ⟨rfl, rfl⟩ := Prod.mk.inj (Option.some.inj h)
        have hsplits := (text.pos ⟨count⟩ hvalid).splits
        refine ⟨hsplits.eq_append, ?_⟩
        have hoffset := hsplits.offset_eq_rawEndPos
        rw [String.offset_pos] at hoffset
        exact (congrArg String.Pos.Raw.byteIdx hoffset).symm
    · cases h
  · rintro ⟨rfl, rfl⟩
    have hvalid : String.Pos.Raw.IsValid (front ++ back) ⟨front.utf8ByteSize⟩ :=
      String.Pos.Raw.isValid_iff_exists_append.2 ⟨front, back, rfl, rfl⟩
    have hsplits : ((front ++ back).pos ⟨front.utf8ByteSize⟩ hvalid).Splits front back :=
      ⟨rfl, String.offset_pos⟩
    rw [splitAtByte?, dif_pos hvalid]
    exact congrArg some (Prod.ext hsplits.copy_sliceTo_eq hsplits.copy_sliceFrom_eq)

end Upkeep.Text
