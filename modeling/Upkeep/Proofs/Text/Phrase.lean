import Upkeep.Text.Blank
import Upkeep.Text.Numeral
import Upkeep.Text.Phrase

/-!
# Phrases and numerals in a text

When a phrase is found where it was written: not before, because what stands before it
has no such phrase in it and ends with a character that the phrase has not.

## Main Statements

* `contains_iff` — containing a phrase, as an infix.
* `splitOnce_closed`, `splitOnce_of_not_mem` — where the first occurrence of a phrase is.
* `exists_of_afterLast?`, `afterLast?_of_not_mem` — where the last occurrence is.
* `isPrefix_of_last`, `eq_of_last` — a text is taken apart at the last occurrence in one way.
* `trimBlanks_of_ends` — a text between two characters that are no blanks.
* `int64?_ofInt64` — every numeral is read back.
-/

namespace Upkeep.Text

variable {phrase text body rest : List Char} {quote : Char}

/-! ### Where a phrase may stand -/

/-- A phrase without the quote does not reach over it. -/
theorem isPrefix_of_append_cons (hq : quote ∉ phrase) (h : phrase <+: body ++ quote :: rest) :
    phrase <+: body := by
  rcases List.prefix_or_prefix_of_prefix h (List.prefix_append body (quote :: rest)) with h' | h'
  · exact h'
  · obtain ⟨tail, rfl⟩ := h'
    rw [List.prefix_append_right_inj] at h
    cases tail with
    | nil => simp
    | cons c cs =>
        rw [List.cons_prefix_cons] at h
        exact absurd (by simp [h.1]) hq

/-- A phrase without the quote stands on one side of it. -/
theorem not_isInfix_append_cons (hq : quote ∉ phrase) (hbody : ¬phrase <:+: body)
    (hrest : ¬phrase <:+: rest) : ¬phrase <:+: body ++ quote :: rest := by
  induction body with
  | nil =>
      rw [List.nil_append, List.infix_cons_iff]
      rintro (h | h)
      · rw [List.prefix_cons_iff] at h
        rcases h with rfl | ⟨tail, rfl, -⟩
        · exact hbody (List.infix_refl [])
        · exact hq List.mem_cons_self
      · exact hrest h
  | cons c cs ih =>
      rw [List.cons_append, List.infix_cons_iff]
      rintro (h | h)
      · exact hbody (isPrefix_of_append_cons hq h).isInfix
      · exact ih (fun h => hbody (h.trans (List.suffix_cons c cs).isInfix)) h

theorem after?_eq_none_iff : after? phrase text = none ↔ ¬phrase <+: text := by
  simp [after?]

/-! ### Splitting -/

theorem splitOnce_eq_none_iff : splitOnce phrase text = none ↔ ¬phrase <:+: text := by
  induction text with
  | nil => simp [splitOnce]
  | cons c cs ih =>
      rw [List.infix_cons_iff, not_or, ← after?_eq_none_iff, ← ih]
      rw [splitOnce]
      cases ha : after? phrase (c :: cs) with
      | none => simp only [Option.map_eq_none_iff, true_and]
      | some rest => simp

theorem contains_iff : contains phrase text = true ↔ phrase <:+: text := by
  rw [contains, Option.isSome_iff_ne_none, ne_eq, splitOnce_eq_none_iff,
    Classical.not_not]

theorem contains_eq_false_iff : contains phrase text = false ↔ ¬phrase <:+: text := by
  rw [← Bool.not_eq_true, contains_iff]

theorem splitOnce_cons_of_not_isPrefix {c : Char} {cs : List Char} (h : ¬phrase <+: c :: cs) :
    splitOnce phrase (c :: cs) =
      (splitOnce phrase cs).map fun parts => (c :: parts.1, parts.2) := by
  rw [splitOnce, after?_eq_none_iff.2 h]

theorem splitOnce_start (hne : phrase ≠ []) :
    splitOnce phrase (phrase ++ rest) = some ([], rest) := by
  cases phrase with
  | nil => exact absurd rfl hne
  | cons p ps =>
      rw [List.cons_append, splitOnce, ← List.cons_append, after?_append]

/-- **A phrase is found where it was written**, behind a text without the phrase and a
character that the phrase has not. -/
theorem splitOnce_closed (hq : quote ∉ phrase) (hne : phrase ≠ []) (hbody : ¬phrase <:+: body) :
    splitOnce phrase (body ++ quote :: (phrase ++ rest)) = some (body ++ [quote], rest) := by
  induction body with
  | nil =>
      have hstart : ¬phrase <+: quote :: (phrase ++ rest) := by
        intro h
        have hnil : phrase <+: [] := isPrefix_of_append_cons hq h
        exact hne (List.prefix_nil.1 hnil)
      rw [List.nil_append, splitOnce_cons_of_not_isPrefix hstart, splitOnce_start hne]
      rfl
  | cons c cs ih =>
      have hstart : ¬phrase <+: c :: (cs ++ quote :: (phrase ++ rest)) := by
        intro h
        have hprefix : phrase <+: c :: cs := isPrefix_of_append_cons hq h
        exact hbody hprefix.isInfix
      rw [List.cons_append, splitOnce_cons_of_not_isPrefix hstart,
        ih fun h => hbody (h.trans (List.suffix_cons c cs).isInfix)]
      rfl

/-- A phrase is found behind a text without its first character. -/
theorem splitOnce_of_not_mem {c : Char} (h : c ∉ body) :
    splitOnce (c :: phrase) (body ++ (c :: phrase ++ rest)) = some (body, rest) := by
  induction body with
  | nil => exact splitOnce_start (List.cons_ne_nil c phrase)
  | cons d ds ih =>
      have hd : c ≠ d := fun hd => h (hd ▸ List.mem_cons_self)
      have hstart : ¬(c :: phrase) <+: d :: (ds ++ (c :: phrase ++ rest)) := by
        rw [List.cons_prefix_cons]
        exact fun hp => hd hp.1
      rw [List.cons_append, splitOnce_cons_of_not_isPrefix hstart,
        ih fun hm => h (List.mem_cons_of_mem d hm)]
      rfl

/-- What is found in a text stands between its two parts. -/
theorem eq_of_splitOnce {before behind : List Char}
    (h : splitOnce phrase text = some (before, behind)) : text = before ++ (phrase ++ behind) := by
  induction text generalizing before with
  | nil =>
      simp only [splitOnce, Option.ite_none_right_eq_some, List.isEmpty_iff, Option.some.injEq,
        Prod.mk.injEq] at h
      obtain ⟨rfl, rfl, rfl⟩ := h
      rfl
  | cons c cs ih =>
      rw [splitOnce] at h
      split at h
      · next found =>
          obtain ⟨rfl, rfl⟩ := Prod.mk.inj (Option.some.inj h)
          exact (after?_eq_some_iff.1 found :)
      · obtain ⟨⟨front, back⟩, found, heq⟩ := Option.map_eq_some_iff.1 h
        obtain ⟨rfl, rfl⟩ := Prod.mk.inj heq
        rw [ih found, List.cons_append]

/-! ### Last occurrences -/

theorem afterLast?_eq_none_iff : afterLast? phrase text = none ↔ ¬phrase <:+: text := by
  induction text with
  | nil => rw [afterLast?, after?_eq_none_iff, List.infix_nil, List.prefix_nil]
  | cons c cs ih =>
      rw [List.infix_cons_iff, not_or, ← after?_eq_none_iff, ← ih, afterLast?]
      cases afterLast? phrase cs with
      | none => exact (and_iff_left rfl).symm
      | some rest => simp

/-- What follows the last occurrence of a phrase follows one. -/
theorem exists_of_afterLast? (h : afterLast? phrase text = some rest) :
    ∃ stem, text = stem ++ (phrase ++ rest) := by
  induction text with
  | nil => exact ⟨[], (after?_eq_some_iff.1 h :)⟩
  | cons c cs ih =>
      rw [afterLast?] at h
      split at h
      · next later =>
          obtain ⟨stem, rfl⟩ := ih (later.trans h)
          exact ⟨c :: stem, rfl⟩
      · exact ⟨[], (after?_eq_some_iff.1 h :)⟩

/-- What stands before the last occurrence of a phrase makes no difference. -/
theorem afterLast?_append (h : afterLast? phrase text = some rest) (stem : List Char) :
    afterLast? phrase (stem ++ text) = some rest := by
  induction stem with
  | nil => exact h
  | cons c stem ih => rw [List.cons_append, afterLast?, ih]

/-- **A phrase is found where it was written last**: its first character stands neither later in it
nor in what follows. -/
theorem afterLast?_of_not_mem {c : Char} (h : c ∉ phrase ++ rest) (stem : List Char) :
    afterLast? (c :: phrase) (stem ++ (c :: phrase ++ rest)) = some rest := by
  have later : afterLast? (c :: phrase) (phrase ++ rest) = none := by
    rw [afterLast?_eq_none_iff]
    exact fun inside => h (inside.subset List.mem_cons_self)
  refine afterLast?_append ?_ stem
  rw [List.cons_append, afterLast?, later]
  exact after?_append (c :: phrase) rest

/-- No occurrence of such a phrase is later than that one. -/
theorem isPrefix_of_last {c : Char} (h : c ∉ phrase ++ rest) {stem front back : List Char}
    (same : stem ++ (c :: phrase ++ rest) = front ++ (c :: phrase ++ back)) : front <+: stem := by
  rcases List.append_eq_append_iff.1 same with ⟨more, rfl, hrest⟩ | ⟨more, rfl, -⟩
  · cases more with
    | nil => exact ⟨[], by simp⟩
    | cons d ds =>
        rw [List.cons_append, List.cons_append, List.cons.injEq] at hrest
        exact absurd (hrest.2 ▸ List.mem_append_right ds List.mem_cons_self) h
  · exact List.prefix_append front more

/-- **A text is taken apart in one way** where such a phrase was written last. -/
theorem eq_of_last {c : Char} {stem stem' rest' : List Char} (h : c ∉ phrase ++ rest)
    (h' : c ∉ phrase ++ rest')
    (same : stem ++ (c :: phrase ++ rest) = stem' ++ (c :: phrase ++ rest')) :
    stem = stem' ∧ rest = rest' := by
  have found := afterLast?_of_not_mem h stem
  rw [same, afterLast?_of_not_mem h' stem'] at found
  obtain rfl := Option.some.inj found
  exact ⟨List.append_cancel_right same, rfl⟩

/-- A text without the separator is one piece. -/
theorem fields_of_not_mem {separator : Char} (h : separator ∉ text) :
    fields separator text = [text] := by
  induction text with
  | nil => rfl
  | cons c cs ih =>
      have hc : c ≠ separator := fun hc => h (by simp [hc])
      rw [fields, if_neg hc, ih fun hm => h (List.mem_cons_of_mem _ hm)]

/-! ### Blanks -/

/-- Nothing is trimmed that stands before a character which is no blank. -/
theorem trimRight_append_cons {c : Char} (hc : isBlank c = false) (cs ds : List Char) :
    trimRight (cs ++ c :: ds) = cs ++ c :: trimRight ds := by
  induction cs with
  | nil =>
      rw [List.nil_append, List.nil_append, trimRight]
      cases trimRight ds <;> simp [hc]
  | cons d cs ih =>
      rw [List.cons_append, trimRight, ih]
      cases cs <;> rfl

/-- Of a text that begins with a character which is no blank, only what follows another such
character is trimmed. -/
theorem trimBlanks_cons_append_cons {c d : Char} (hc : isBlank c = false) (hd : isBlank d = false)
    (cs ds : List Char) : trimBlanks (c :: (cs ++ d :: ds)) = c :: (cs ++ d :: trimRight ds) := by
  rw [trimBlanks, List.dropWhile_cons_of_neg (by simp [hc])]
  exact trimRight_append_cons hd (c :: cs) ds

/-- A text that begins and ends with characters that are no blanks stays as it is. -/
theorem trimBlanks_of_ends {c d : Char} (hc : isBlank c = false) (hd : isBlank d = false)
    (cs : List Char) : trimBlanks (c :: (cs ++ [d])) = c :: (cs ++ [d]) :=
  trimBlanks_cons_append_cons hc hd cs []

/-- A text without blanks stays as it is. -/
theorem trimBlanks_of_no_blank (h : ∀ c ∈ text, isBlank c = false) : trimBlanks text = text := by
  rcases List.eq_nil_or_concat text with rfl | ⟨front, last, rfl⟩
  · rfl
  · have hlast : isBlank last = false := h last (by simp)
    cases front with
    | nil => simp [trimBlanks, trimRight, hlast]
    | cons c cs =>
        simp only [List.concat_eq_append, List.cons_append]
        exact trimBlanks_of_ends (h c (by simp)) hlast cs

/-! ### Numerals -/

/-- The characters of numerals. -/
def isNumeric (c : Char) : Bool := c.isDigit || c == '-'

/-- No character of a numeral is a blank. -/
theorem isBlank_of_isNumeric {c : Char} (h : isNumeric c = true) : isBlank c = false := by
  have hn : c.toNat = 45 ∨ (48 ≤ c.toNat ∧ c.toNat ≤ 57) := by
    simp only [isNumeric, Char.isDigit, Bool.or_eq_true, Bool.and_eq_true, decide_eq_true_eq,
      beq_iff_eq] at h
    rcases h with ⟨hlow, hhigh⟩ | rfl
    · exact .inr ⟨hlow, hhigh⟩
    · exact .inl rfl
  simp only [isBlank]
  generalize c.toNat = n at hn
  simp
  omega

theorem isNumeric_of_mem_ofInt64 (n : Int64) : ∀ c ∈ ofInt64 n, isNumeric c = true := by
  have digits : ∀ c ∈ Nat.toDigits 10 n.toInt.natAbs, isNumeric c = true := fun c hc => by
    simp [isNumeric, Nat.isDigit_of_mem_toDigits (by decide) (by decide) hc]
  intro c hc
  unfold ofInt64 at hc
  split at hc
  · rcases List.mem_cons.1 hc with rfl | hc
    · rfl
    · exact digits c hc
  · exact digits c hc

theorem not_mem_ofInt64 {c : Char} (hc : isNumeric c = false) (n : Int64) : c ∉ ofInt64 n :=
  fun hm => Bool.false_ne_true (hc.symm.trans (isNumeric_of_mem_ofInt64 n c hm))

/-- Without a sign a numeral is a run of digits. -/
theorem integer?_of_digits (h : ∀ c ∈ text, c.isDigit = true) :
    integer? text = (natural? text).map fun n => (n : Int) := by
  unfold integer?
  split
  · next cs => exact absurd (h '-' (by simp)) (by decide)
  · next cs => exact absurd (h '+' (by simp)) (by decide)
  · rfl

/-- **Every numeral is read back.** -/
theorem int64?_ofInt64 (n : Int64) : int64? (ofInt64 n) = some n := by
  have hinteger : integer? (ofInt64 n) = some n.toInt := by
    unfold ofInt64
    split
    · next hneg =>
        have habs : -(n.toInt.natAbs : Int) = n.toInt := by omega
        rw [integer?, natural?_toDigits]
        exact congrArg some habs
    · next hpos =>
        rw [integer?_of_digits fun c hc =>
          Nat.isDigit_of_mem_toDigits (by decide) (by decide) hc]
        have habs : (n.toInt.natAbs : Int) = n.toInt := by omega
        rw [natural?_toDigits]
        exact congrArg some habs
  have hrange : Int64.minValue.toInt ≤ n.toInt ∧ n.toInt ≤ Int64.maxValue.toInt :=
    ⟨n.minValue_le_toInt, n.toInt_le⟩
  rw [int64?, hinteger, Option.bind_some, if_pos hrange, Int64.ofInt_toInt]

/-- Two numbers with one numeral are the same number. -/
theorem ofInt64_injective {m n : Int64} (h : ofInt64 m = ofInt64 n) : m = n := by
  have hm := int64?_ofInt64 m
  rw [h, int64?_ofInt64] at hm
  exact (Option.some.inj hm).symm

end Upkeep.Text
