import Upkeep.Proofs.Partition.Bound

/-!
# The grammar of defaults

The default of the partitioning column is an expression that the database prints, and its value is
compared with those of bounds.  Both are literals between blanks.  Only an expression may go on
with a cast, and whatever the cast is to, it makes no difference to the value.

## Main Definitions

* `IsExpression` — the expressions of a number.

## Main Statements

* `default?_eq_some_iff` — the defaults that are read are the expressions of numbers.
* `parse_enclosed_eq_ok_iff` — one text as a default and as the list of a bound.
* `readers_agree` — both together, with the forms in which a value is printed.
-/

namespace Upkeep.Partition.Condition

open Upkeep.Text

variable {cs : List Char} {value : Int64} {expression : String}

/-! ### Expressions -/

/-- An expression of a number is a literal of it between blanks, with a cast or without. -/
inductive IsExpression : List Char → Int64 → Prop
  | plain {front literal back : List Char} {value : Int64} (h : IsLiteral literal value)
      (blank : ∀ c ∈ front ++ back, isBlank c = true) :
      IsExpression (front ++ (literal ++ back)) value
  | cast {front literal back : List Char} {value : Int64} (h : IsLiteral literal value)
      (blank : ∀ c ∈ front ++ back, isBlank c = true) (type : List Char) :
      IsExpression (front ++ (literal ++ back ++ ':' :: ':' :: type)) value

namespace IsLiteral

theorem colon_not_mem (h : IsLiteral cs value) : ':' ∉ cs :=
  fun hm => absurd (h.mem hm) (by decide)

theorem isBlank_eq_false (h : IsLiteral cs value) : ∀ c ∈ cs, isBlank c = false := by
  intro c hc
  rcases h.mem hc with (hdigit | rfl | rfl) | rfl
  · exact isBlank_of_isNumeric (by simp [isNumeric, hdigit])
  · rfl
  · rfl
  · rfl

theorem trimBlanks_eq (h : IsLiteral cs value) : trimBlanks cs = cs :=
  trimBlanks_of_no_blank h.isBlank_eq_false

theorem ne_nil (h : IsLiteral cs value) : cs ≠ [] := by
  cases h with
  | bare h => exact h.ne_nil
  | quoted h => exact List.cons_ne_nil _ _

end IsLiteral

/-! ### Casts -/

theorem beforeCast_of_no_cast (h : ¬[':', ':'] <:+: cs) : beforeCast cs = cs := by
  rw [beforeCast, splitOnce_eq_none_iff.2 h]

/-- A cast begins at the first colon. -/
theorem beforeCast_append (h : ':' ∉ cs) (type : List Char) :
    beforeCast (cs ++ ':' :: ':' :: type) = cs := by
  have hsplit : splitOnce [':', ':'] (cs ++ ([':', ':'] ++ type)) = some (cs, type) :=
    splitOnce_of_not_mem h
  rw [beforeCast]
  simp only [List.cons_append, List.nil_append] at hsplit
  rw [hsplit]

/-- A text is what stands before a cast, and then the cast if it has one. -/
theorem eq_beforeCast (cs : List Char) :
    cs = beforeCast cs ∨ ∃ type, cs = beforeCast cs ++ ':' :: ':' :: type := by
  rw [beforeCast]
  cases hsplit : splitOnce [':', ':'] cs with
  | none => exact .inl rfl
  | some parts => exact .inr ⟨parts.2, eq_of_splitOnce hsplit⟩

/-! ### Reading a default -/

/-- The literal of an expression is what is left of it. -/
theorem isLiteral_of_isExpression (h : IsExpression cs value) :
    IsLiteral (trimBlanks (beforeCast (trimBlanks cs))) value := by
  cases h with
  | plain h blank =>
      have hcast : ¬[':', ':'] <:+: _ := fun hi => h.colon_not_mem (hi.subset List.mem_cons_self)
      rw [trimBlanks_append blank, h.trimBlanks_eq, beforeCast_of_no_cast hcast, h.trimBlanks_eq]
      exact h
  | @cast front literal back _ h blank type =>
      obtain ⟨hfront, hback⟩ := List.forall_mem_append.1 blank
      obtain ⟨c, rest, rfl⟩ := List.exists_cons_of_ne_nil h.ne_nil
      have hcolon : ':' ∉ c :: rest ++ back := by
        rw [List.mem_append, not_or]
        exact ⟨h.colon_not_mem, fun hm => absurd (hback _ hm) (by decide)⟩
      -- The type may end with blanks, and those are gone before the cast is.
      have htrim : trimBlanks (front ++ (c :: rest ++ back ++ ':' :: ':' :: type)) =
          c :: rest ++ back ++ ':' :: ':' :: trimRight type := by
        have hc : isBlank c = false := h.isBlank_eq_false c List.mem_cons_self
        have hends := trimBlanks_cons_append_cons hc (d := ':') rfl (rest ++ back ++ [':']) type
        rw [trimBlanks, List.dropWhile_append_of_pos hfront, ← trimBlanks]
        simpa using hends
      have hliteral : trimBlanks ([] ++ (c :: rest ++ back)) = trimBlanks (c :: rest) :=
        trimBlanks_append hback _
      rw [htrim, beforeCast_append hcolon, ← List.nil_append (c :: rest ++ back), hliteral,
        h.trimBlanks_eq]
      exact h

/-- **The defaults that are read** are the expressions of 64-bit numbers. -/
theorem default?_eq_some_iff :
    default? expression = some value ↔ IsExpression expression.toList value := by
  rw [default?, value?_eq_some_iff]
  refine ⟨fun h => ?_, isLiteral_of_isExpression⟩
  obtain ⟨front, back, hcs, hblank⟩ := exists_trimBlanks expression.toList
  generalize trimBlanks expression.toList = trimmed at h hcs
  obtain ⟨front', back', hbefore, hblank'⟩ := exists_trimBlanks (beforeCast trimmed)
  generalize trimBlanks (beforeCast trimmed) = literal at h hbefore
  rw [List.forall_mem_append] at hblank hblank'
  have hfront : ∀ c ∈ front ++ front', isBlank c = true :=
    List.forall_mem_append.2 ⟨hblank.1, hblank'.1⟩
  rw [hcs]
  rcases eq_beforeCast trimmed with hplain | ⟨type, hcast⟩
  · have htext : front ++ (trimmed ++ back) =
        front ++ front' ++ (literal ++ (back' ++ back)) := by
      rw [hplain, hbefore]
      simp only [List.append_assoc]
    rw [htext]
    have hback : ∀ c ∈ back' ++ back, isBlank c = true :=
      List.forall_mem_append.2 ⟨hblank'.2, hblank.2⟩
    exact .plain h (List.forall_mem_append.2 ⟨hfront, hback⟩)
  · have htext : front ++ (trimmed ++ back) =
        front ++ front' ++ (literal ++ back' ++ ':' :: ':' :: (type ++ back)) := by
      rw [hcast, hbefore]
      simp only [List.append_assoc, List.cons_append]
    rw [htext]
    exact .cast h (List.forall_mem_append.2 ⟨hfront, hblank'.2⟩) _

/-! ### Bounds and defaults -/

/-- A default without a cast is read like the only value of a list. -/
theorem default?_of_no_cast (h : ¬[':', ':'] <:+: expression.toList) :
    default? expression = value? (trimBlanks expression.toList) := by
  obtain ⟨front, back, hcs, -⟩ := exists_trimBlanks expression.toList
  have hcast : ¬[':', ':'] <:+: trimBlanks expression.toList :=
    fun hi => h (hi.trans ⟨front, back, by rw [List.append_assoc, ← hcs]⟩)
  rw [default?, beforeCast_of_no_cast hcast, trimBlanks_trimBlanks]

/-- **One text as a default and as the list of a bound**: the list has a value if and only if the
default has it and there is no cast. -/
theorem parse_enclosed_eq_ok_iff :
    parse ("FOR VALUES IN (" ++ expression ++ ")") = .ok value ↔
      default? expression = some value ∧ ¬[':', ':'] <:+: expression.toList := by
  have hlist := parse_enclosed expression.toList
  rw [String.ofList_toList] at hlist
  rw [hlist, ofList_eq_ok_iff]
  constructor
  · intro h
    have hcast : ¬[':', ':'] <:+: expression.toList := fun hi =>
      h.colon_not_mem (mem_trimBlanks rfl (hi.subset List.mem_cons_self))
    exact ⟨by rw [default?_of_no_cast hcast, value?_eq_some_iff]; exact h, hcast⟩
  · rintro ⟨h, hcast⟩
    rwa [default?_of_no_cast hcast, value?_eq_some_iff] at h

/-- The forms in which a value is printed. -/
def printed (value : Int64) : List String :=
  [String.ofList (ofInt64 value), "'" ++ String.ofList (ofInt64 value) ++ "'"]

theorem isLiteral_of_mem_printed {literal : String} (h : literal ∈ printed value) :
    IsLiteral literal.toList value := by
  have hnumeral : IsNumeral (ofInt64 value) value.toInt :=
    int64?_eq_some_iff.1 (int64?_ofInt64 value)
  simp only [printed, List.mem_cons, List.not_mem_nil, or_false] at h
  rcases h with rfl | rfl
  · rw [String.toList_ofList]
    exact .bare hnumeral
  · have hquote : "'".toList = ['\''] := by simp
    simp only [String.toList_append, String.toList_ofList, hquote, List.singleton_append]
    exact .quoted hnumeral

/-- **The two readers agree.**  A text is the list of a bound of some value if and only if it is a
default of that value without a cast, so of the texts without casts both readers read the same
ones, and as the same values.  Defaults are read if and only if they are expressions of numbers; in
particular every number is read from its printed forms, whatever blanks are around them and
whatever they are cast to. -/
theorem readers_agree :
    (∀ (text : String) (value : Int64),
      (parse ("FOR VALUES IN (" ++ text ++ ")") = .ok value ↔
        default? text = some value ∧ ¬"::".toList <:+: text.toList) ∧
      (default? text = some value ↔ IsExpression text.toList value)) ∧
    ∀ (value : Int64) (front middle back type : String),
      (∀ c ∈ (front ++ middle ++ back).toList, isBlank c = true) →
      ∀ literal ∈ printed value,
        default? (front ++ literal ++ back) = some value ∧
        default? (front ++ literal ++ middle ++ "::" ++ type ++ back) = some value := by
  have hcolons : "::".toList = [':', ':'] := by simp
  refine ⟨fun text value => ⟨?_, default?_eq_some_iff⟩, ?_⟩
  · rw [hcolons]
    exact parse_enclosed_eq_ok_iff
  · intro value front middle back type hblank literal hprinted
    simp only [String.toList_append, List.forall_mem_append] at hblank
    have hliteral := isLiteral_of_mem_printed hprinted
    simp only [default?_eq_some_iff, String.toList_append, hcolons, List.append_assoc,
      List.cons_append, List.nil_append]
    refine ⟨.plain hliteral (List.forall_mem_append.2 ⟨hblank.1.1, hblank.2⟩), ?_⟩
    have hcast := IsExpression.cast hliteral
      (List.forall_mem_append.2 ⟨hblank.1.1, hblank.1.2⟩) (type.toList ++ back.toList)
    simpa only [List.append_assoc] using hcast

/-- The least of all values in single quotes, between blanks of three kinds and cast twice. -/
theorem readers_agree_least :
    let text := "\u3000" ++ "'-9223372036854775808'" ++ "\t" ++ "::" ++ "text::bigint" ++ " "
    (∀ c ∈ ("\u3000" ++ "\t" ++ " ").toList, isBlank c = true) ∧
      "'-9223372036854775808'" ∈ printed Int64.minValue ∧
      default? text = some Int64.minValue ∧
      parse ("FOR VALUES IN (" ++ text ++ ")") ≠ .ok Int64.minValue := by
  have hblank : ∀ c ∈ ("\u3000" ++ "\t" ++ " ").toList, isBlank c = true :=
    List.all_eq_true.1 (by decide)
  have hprinted : "'-9223372036854775808'" ∈ printed Int64.minValue := by decide
  have hread := (readers_agree.2 Int64.minValue "\u3000" "\t" " " "text::bigint" hblank _
    hprinted).2
  have hcast (front back : String) : "::".toList <:+: (front ++ "::" ++ back).toList :=
    ⟨front.toList, back.toList, by simp only [String.toList_append]⟩
  refine ⟨hblank, hprinted, hread, fun h => ((readers_agree.1 _ _).1.1 h).2 ?_⟩
  have hinfix := hcast ("\u3000" ++ "'-9223372036854775808'" ++ "\t") ("text::bigint" ++ " ")
  rwa [← String.append_assoc] at hinfix

end Upkeep.Partition.Condition
