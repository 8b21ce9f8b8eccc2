import Upkeep.Proofs.Sql.Reading
import Upkeep.Proofs.Text.Numeral

/-!
# The grammar of bounds

Every text is a bound of one value or has one fault, and which of them it is depends on its
shape alone: how it begins, what its rest is enclosed in, and how many values stand between the
parentheses.

## Main Definitions

* `IsLiteral` — the literals of a number.
* `parseAt?` — the reading of a bound at places that are counted in bytes.

## Main Statements

* `afterHead?_eq_some_iff`, `value?_eq_some_iff` — the parts of the grammar.
* `parse_eq_noBound_iff` — what is no list bound.
* `ofList_eq_manyValues_iff`, `ofList_eq_ok_iff`, `ofList_eq_malformed` — what a list denotes.
* `parseAt?_eq_parse` — the places in bytes are places between characters.
* `parse_classifies` — the whole grammar.
-/

namespace Upkeep.Partition.Condition

open Upkeep.Text

variable {cs rest values : List Char} {value : Int64}

/-! ### How a bound begins -/

/-- A text begins like a list bound if its first letters are those of the head. -/
theorem afterHead?_eq_some_iff :
    afterHead? cs = some rest ↔ ∃ start, cs = start ++ rest ∧ SameLetters start head := by
  have hupper : head.map Char.toUpper = head := by decide
  simp only [sameLetters_iff_toUpper, hupper]
  constructor
  · intro h
    simp only [afterHead?, Option.ite_none_right_eq_some, Option.some.injEq] at h
    obtain ⟨hstart, rfl⟩ := h
    exact ⟨cs.take head.length, (List.take_append_drop _ _).symm, hstart⟩
  · rintro ⟨start, rfl, hstart⟩
    have hlength : start.length = head.length := by rw [← List.length_map, hstart]
    simp only [afterHead?, ← hlength, List.take_left, List.drop_left, hstart, if_true]

/-- What does not begin like a list bound is none. -/
theorem parse_eq_noBound_iff {condition : String} :
    parse condition = .error .noBound ↔
      ¬∃ start rest, trimBlanks condition.toList = start ++ rest ∧ SameLetters start head := by
  constructor
  · rintro h ⟨start, rest, hcs, hstart⟩
    rw [parse, afterHead?_eq_some_iff.2 ⟨start, hcs, hstart⟩] at h
    simp only [ofList] at h
    split at h
    · cases h
    · split at h
      · split at h <;> cases h
      · cases h
  · intro h
    have hnone : afterHead? (trimBlanks condition.toList) = none := by
      rw [Option.eq_none_iff_forall_ne_some]
      intro rest hrest
      obtain ⟨start, hcs, hstart⟩ := afterHead?_eq_some_iff.1 hrest
      exact h ⟨start, rest, hcs, hstart⟩
    rw [parse, hnone]

/-! ### What a list denotes -/

/-- A literal of a number is a numeral of it, bare or in one pair of single quotes. -/
inductive IsLiteral : List Char → Int64 → Prop
  | bare {numeral : List Char} {value : Int64} (h : IsNumeral numeral value.toInt) :
      IsLiteral numeral value
  | quoted {numeral : List Char} {value : Int64} (h : IsNumeral numeral value.toInt) :
      IsLiteral ('\'' :: (numeral ++ ['\''])) value

/-- Numerals have no quotes. -/
private theorem quote_not_mem {n : Int} (h : IsNumeral cs n) : '\'' ∉ cs :=
  fun hm => absurd (h.mem hm) (by decide)

/-- Literals consist of digits, and of a sign and quotes at most. -/
theorem IsLiteral.mem (h : IsLiteral cs value) {c : Char} (hc : c ∈ cs) :
    (c.isDigit = true ∨ c = '+' ∨ c = '-') ∨ c = '\'' := by
  cases h with
  | bare h => exact .inl (h.mem hc)
  | quoted h =>
      simp only [List.mem_cons, List.mem_append, List.not_mem_nil, or_false] at hc
      rcases hc with rfl | hc | rfl
      · exact .inr rfl
      · exact .inl (h.mem hc)
      · exact .inr rfl

theorem IsLiteral.comma_not_mem (h : IsLiteral cs value) : ',' ∉ cs :=
  fun hm => absurd (h.mem hm) (by decide)

/-- The values that are read are those that literals denote. -/
theorem value?_eq_some_iff : value? cs = some value ↔ IsLiteral cs value := by
  rw [value?, unquoted, int64?_eq_some_iff]
  cases hbetween : between? '\'' '\'' cs with
  | none =>
      refine ⟨.bare, fun h => ?_⟩
      cases h with
      | bare h => exact h
      | quoted h => rw [between?_enclosed] at hbetween; cases hbetween
  | some body =>
      obtain rfl := between?_eq_some_iff.1 hbetween
      refine ⟨.quoted, fun h => ?_⟩
      generalize hquoted : '\'' :: (body ++ ['\'']) = text at h
      cases h with
      | bare h => exact absurd (hquoted ▸ List.mem_cons_self) (quote_not_mem h)
      | quoted h =>
          simp only [List.cons.injEq, true_and, List.append_cancel_right_eq] at hquoted
          exact hquoted ▸ h

private theorem ofList_of_comma (h : 1 ≤ values.count ',') :
    ofList values = .error (.manyValues (values.count ',' + 1)) := by
  have hlength := length_fields ',' values
  rw [ofList]
  split
  · next hfields => rw [hfields, List.length_singleton] at hlength; omega
  · rw [hlength]

private theorem ofList_of_no_comma (h : ',' ∉ values) :
    ofList values = (value? (trimBlanks values)).elim
      (.error (.malformed (String.ofList (trimBlanks values)))) .ok := by
  rw [ofList, fields_of_not_mem h]
  cases hvalue : value? (trimBlanks values) <;> simp only [hvalue, Option.elim]

/-- A list of several values has one value more than commas. -/
theorem ofList_eq_manyValues_iff {count : Nat} :
    ofList values = .error (.manyValues count) ↔
      1 ≤ values.count ',' ∧ count = values.count ',' + 1 := by
  constructor
  · intro h
    by_cases hcomma : ',' ∈ values
    · have hmany := List.count_pos_iff.2 hcomma
      rw [ofList_of_comma hmany] at h
      exact ⟨hmany, (Fault.manyValues.inj (Except.error.inj h)).symm⟩
    · rw [ofList_of_no_comma hcomma] at h
      cases hvalue : value? (trimBlanks values) <;> rw [hvalue] at h <;> cases h
  · rintro ⟨hmany, rfl⟩
    exact ofList_of_comma hmany

/-- A list has a value if it is a literal between blanks. -/
theorem ofList_eq_ok_iff : ofList values = .ok value ↔ IsLiteral (trimBlanks values) value := by
  by_cases hcomma : ',' ∈ values
  · rw [ofList_of_comma (List.count_pos_iff.2 hcomma)]
    constructor
    · intro h
      cases h
    · intro h
      exact absurd (mem_trimBlanks (by decide) hcomma) h.comma_not_mem
  · rw [ofList_of_no_comma hcomma, ← value?_eq_some_iff]
    cases value? (trimBlanks values) <;> simp

/-- A list without commas that has no value is malformed. -/
theorem ofList_eq_malformed (hcomma : ',' ∉ values)
    (hliteral : ¬∃ value, IsLiteral (trimBlanks values) value) :
    ofList values = .error (.malformed (String.ofList (trimBlanks values))) := by
  have hnone : value? (trimBlanks values) = none := by
    rw [Option.eq_none_iff_forall_ne_some]
    exact fun value h => hliteral ⟨value, value?_eq_some_iff.1 h⟩
  rw [ofList_of_no_comma hcomma, hnone, Option.elim_none]

/-- The fault of a list names a part of it. -/
private theorem ofList_ne_malformed {text : List Char} (h : values.length < text.length) :
    ofList values ≠ .error (.malformed (String.ofList text)) := by
  by_cases hcomma : ',' ∈ values
  · rw [ofList_of_comma (List.count_pos_iff.2 hcomma)]
    simp
  · rw [ofList_of_no_comma hcomma]
    cases value? (trimBlanks values) with
    | some value => exact nofun
    | none =>
        intro heq
        have hparts : trimBlanks values = text := by
          simpa only [Option.elim_none, Except.error.injEq, Fault.malformed.injEq,
            String.ofList_inj] using heq
        have hshort := length_trimBlanks_le values
        rw [hparts] at hshort
        omega

/-! ### Places in bytes -/

/-- The reading of a bound at places that are counted in bytes: the head is looked for at the
place that many bytes from the start, and the rest is taken from there.  Nothing, if there is no
such place where the rest is taken, or if the list has no first value. -/
def parseAt? (condition : String) : Option (Except Fault Int64) :=
  let text := String.ofList (trimBlanks condition.toList)
  let length := (String.ofList head).utf8ByteSize
  let begins := (splitAtByte? length text).any fun parts =>
    parts.1.toList.map Char.toLower = head.map Char.toLower
  if begins then
    (splitAtByte? length text).bind fun parts =>
      let list := trimBlanks parts.2.toList
      match between? '(' ')' list with
      | none => some (.error (.malformed (String.ofList list)))
      | some inner =>
          let trimmed := (fields ',' inner).map trimBlanks
          if 1 < trimmed.length then some (.error (.manyValues trimmed.length))
          else trimmed[0]?.map fun raw =>
            match value? raw with
            | some value => .ok value
            | none => .error (.malformed (String.ofList raw))
  else some (.error .noBound)

/-- The place where the rest begins. -/
private theorem splitAtByte?_start {start : List Char} (hcs : cs = start ++ rest)
    (hstart : SameLetters start head) :
    splitAtByte? (String.ofList head).utf8ByteSize (String.ofList cs) =
      some (String.ofList start, String.ofList rest) := by
  have hascii : ∀ c ∈ head, c.val.toNat ≤ 127 := by
    have hall : head.all (fun c => decide (c.val.toNat ≤ 127)) = true := by decide
    exact fun c hc => of_decide_eq_true (List.all_eq_true.1 hall c hc)
  have hhead : (String.ofList head).utf8ByteSize = head.length :=
    SameLetters.utf8ByteSize rfl hascii
  rw [splitAtByte?_eq_some_iff, hcs, String.ofList_append]
  exact ⟨rfl, by rw [hhead]; exact hstart.utf8ByteSize hascii⟩

/-- **The places in bytes exist** wherever they are used, and reading there is reading between
characters. -/
theorem parseAt?_eq_parse (condition : String) : parseAt? condition = some (parse condition) := by
  cases hafter : afterHead? (trimBlanks condition.toList) with
  | none =>
      have hbegins : (splitAtByte? (String.ofList head).utf8ByteSize
          (String.ofList (trimBlanks condition.toList))).any (fun parts =>
            parts.1.toList.map Char.toLower = head.map Char.toLower) = false := by
        rw [Option.any_eq_false]
        rintro ⟨front, back⟩ hparts
        obtain ⟨htext, -⟩ := splitAtByte?_eq_some_iff.1 hparts
        have hcs : trimBlanks condition.toList = front.toList ++ back.toList := by
          rw [← String.toList_append, ← htext, String.toList_ofList]
        rw [decide_eq_false_iff_not]
        intro hletters
        have hsome := afterHead?_eq_some_iff.2 ⟨front.toList, hcs, hletters⟩
        rw [hafter] at hsome
        cases hsome
      rw [parse, hafter, parseAt?]
      simp only [hbegins, Bool.false_eq_true, if_false]
  | some rest =>
      obtain ⟨start, hcs, hstart⟩ := afterHead?_eq_some_iff.1 hafter
      have hletters : start.map Char.toLower = head.map Char.toLower := hstart
      rw [parse, hafter, parseAt?]
      simp only [splitAtByte?_start hcs hstart, Option.any_some, String.toList_ofList, hletters,
        decide_true, if_true, Option.bind_some]
      cases between? '(' ')' (trimBlanks rest) with
      | none => rfl
      | some inner =>
          dsimp only
          by_cases hcomma : ',' ∈ inner
          · have hmany := List.count_pos_iff.2 hcomma
            rw [if_pos (by rw [List.length_map, length_fields]; omega), List.length_map,
              length_fields, ofList_of_comma hmany]
          · rw [if_neg (by rw [fields_of_not_mem hcomma]; simp), fields_of_not_mem hcomma,
              ofList_of_no_comma hcomma]
            cases hvalue : value? (trimBlanks inner) <;> simp [hvalue]

/-! ### The grammar -/

/-- **The grammar of bounds.**  A text without the head is no bound; one whose rest is not in
parentheses is malformed there; one with commas between the parentheses has too many values; one
with a literal there has its value; any other is malformed in what stands between the
parentheses.  The places where the text is cut exist, and both forms in which a value is printed
are read. -/
theorem parse_classifies :
    (∀ condition : String,
      (parse condition = .error .noBound ↔
        ¬∃ start rest, trimBlanks condition.toList = start ++ rest ∧ SameLetters start head) ∧
      (∀ start rest, trimBlanks condition.toList = start ++ rest → SameLetters start head →
        (parse condition = .error (.malformed (String.ofList (trimBlanks rest))) ↔
          ¬∃ inner, trimBlanks rest = '(' :: (inner ++ [')'])) ∧
        (∀ inner, trimBlanks rest = '(' :: (inner ++ [')']) →
          (∀ count, parse condition = .error (.manyValues count) ↔
            1 ≤ inner.count ',' ∧ count = inner.count ',' + 1) ∧
          (∀ value, parse condition = .ok value ↔ IsLiteral (trimBlanks inner) value) ∧
          (',' ∉ inner → (¬∃ value, IsLiteral (trimBlanks inner) value) →
            parse condition = .error (.malformed (String.ofList (trimBlanks inner)))))) ∧
      parseAt? condition = some (parse condition)) ∧
    ∀ value : Int64,
      parse ("FOR VALUES IN (" ++ String.ofList (ofInt64 value) ++ ")") = .ok value ∧
      parse ("FOR VALUES IN ('" ++ String.ofList (ofInt64 value) ++ "')") = .ok value := by
  refine ⟨fun condition => ⟨parse_eq_noBound_iff, fun start rest hcs hstart => ?_,
    parseAt?_eq_parse condition⟩, fun value => ?_⟩
  · have hparse : parse condition = (between? '(' ')' (trimBlanks rest)).elim
        (.error (.malformed (String.ofList (trimBlanks rest)))) ofList := by
      rw [parse, afterHead?_eq_some_iff.2 ⟨start, hcs, hstart⟩]
      cases hinner : between? '(' ')' (trimBlanks rest) <;> simp only [hinner, Option.elim]
    refine ⟨⟨?_, fun hopen => ?_⟩, fun inner hlist => ?_⟩
    · rintro h ⟨inner, hlist⟩
      have hlonger : inner.length < ('(' :: (inner ++ [')'])).length := by
        rw [List.length_cons, List.length_append]
        omega
      rw [hparse, hlist, between?_enclosed, Option.elim_some] at h
      exact ofList_ne_malformed hlonger h
    · have hnone : between? '(' ')' (trimBlanks rest) = none := by
        rw [Option.eq_none_iff_forall_ne_some]
        exact fun inner h => hopen ⟨inner, between?_eq_some_iff.1 h⟩
      rw [hparse, hnone, Option.elim_none]
    · rw [hparse, hlist, between?_enclosed, Option.elim_some]
      exact ⟨fun count => ofList_eq_manyValues_iff, fun value => ofList_eq_ok_iff,
        ofList_eq_malformed⟩
  · have hnumeral : IsNumeral (ofInt64 value) value.toInt :=
      int64?_eq_some_iff.1 (int64?_ofInt64 value)
    have hquoted : "FOR VALUES IN ('" ++ String.ofList (ofInt64 value) ++ "')" =
        "FOR VALUES IN (" ++ String.ofList ('\'' :: (ofInt64 value ++ ['\''])) ++ ")" := by
      simp [← String.toList_inj]
    constructor
    · rw [parse_enclosed, ofList_eq_ok_iff, trimBlanks_ofInt64]
      exact .bare hnumeral
    · rw [hquoted, parse_enclosed, ofList_eq_ok_iff, trimBlanks_of_ends rfl rfl]
      exact .quoted hnumeral

end Upkeep.Partition.Condition
