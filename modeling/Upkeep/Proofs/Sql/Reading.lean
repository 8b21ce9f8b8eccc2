import Upkeep.Partition.Basic
import Upkeep.Proofs.Text.Phrase
import Upkeep.Sql.Change

/-!
# Reading the statements that are written

A statement's text is read for the phrases between its names, so it is read back as it
was written if no name has one of the phrases in it.  A schema must not look like the
end of one quoted name and the start of another.

## Main Definitions

* `phrases` — what separates the names of a statement.
* `IsPlain`, `IsPlainSchema` — names that are read back.

## Main Statements

* `ofSql?_createPartition`, `ofSql?_detachPartition`, `ofSql?_setDefault` — what the
  partition statements change.
* `ofSql?_setLockTimeout`, `ofSql?_resetLockTimeout` — that the others change nothing.
* `isPlain_name_named` — the names of partitions are read back if that of their table is.
* `name_named_eq_iff` — the name of a partition tells its table and its value.
* `parse_enclosed` — what a bound in parentheses denotes.
* `parse_writtenBound`, `default?_ofInt64` — bounds and defaults that are written are read.
-/

namespace Upkeep.Sql

/-- What separates the names of a statement. -/
def phrases : List String :=
  [" PARTITION OF ", " FOR VALUES IN ", " DETACH PARTITION ", " ALTER COLUMN ",
    " SET DEFAULT "]

/-- No phrase occurs in the name. -/
def IsPlain (name : String) : Prop :=
  ∀ phrase ∈ phrases, Text.contains phrase.toList name.toList = false

instance (name : String) : Decidable (IsPlain name) := inferInstanceAs (Decidable (∀ _ ∈ _, _))

/-- Neither a phrase nor a quote occurs in the name of a schema, which is no single
dot. -/
structure IsPlainSchema (schema : String) : Prop where
  plain : IsPlain schema
  noQuote : '"' ∉ schema.toList
  ne_dot : schema.toList ≠ ['.']

/-! ### Quoted names -/

theorem undoubleQuotes_doubleQuotes (cs : List Char) : undoubleQuotes (doubleQuotes cs) = cs := by
  induction cs with
  | nil => rfl
  | cons c cs ih =>
      rw [doubleQuotes_cons]
      split
      · next hc => rw [undoubleQuotes, ih, hc]
      · next hc =>
          rw [undoubleQuotes, ih]
          intro _ heq
          exact absurd heq hc

theorem doubleQuotes_of_not_mem {cs : List Char} (h : '"' ∉ cs) : doubleQuotes cs = cs := by
  induction cs with
  | nil => rfl
  | cons c cs ih =>
      have hc : c ≠ '"' := fun hc => h (by simp [hc])
      rw [doubleQuotes_cons, if_neg hc, ih fun hm => h (List.mem_cons_of_mem _ hm)]

/-- A quoted name between blanks is read back. -/
theorem bareName_quotedChars (name : List Char) : bareName (quotedChars name) = name := by
  rw [bareName, quotedChars, Text.trimBlanks_of_ends rfl rfl, Text.unquoted,
    Text.between?_enclosed, Option.getD_some, undoubleQuotes_doubleQuotes]

variable {phrase : List Char}

private theorem isPrefix_doubleQuotes (hq : '"' ∉ phrase) {name : List Char}
    (h : phrase <+: doubleQuotes name) : phrase <+: name := by
  induction name generalizing phrase with
  | nil => exact h
  | cons c cs ih =>
      rw [doubleQuotes_cons] at h
      split at h
      · rcases List.prefix_cons_iff.1 h with rfl | ⟨tail, rfl, -⟩
        · exact List.nil_prefix
        · exact absurd List.mem_cons_self hq
      · rcases List.prefix_cons_iff.1 h with rfl | ⟨tail, rfl, htail⟩
        · exact List.nil_prefix
        · rw [List.cons_prefix_cons]
          exact ⟨rfl, ih (fun hm => hq (List.mem_cons_of_mem _ hm)) htail⟩

/-- Doubling quotes makes no phrase out of what is none. -/
theorem not_isInfix_doubleQuotes (hq : '"' ∉ phrase) {name : List Char}
    (h : ¬phrase <:+: name) : ¬phrase <:+: doubleQuotes name := by
  induction name with
  | nil => exact h
  | cons c cs ih =>
      have hcs : ¬phrase <:+: doubleQuotes cs :=
        ih fun hi => h (hi.trans (List.suffix_cons c cs).isInfix)
      have hnil : phrase ≠ [] := by
        rintro rfl
        exact h (List.nil_infix)
      rw [doubleQuotes_cons]
      split
      · rw [List.infix_cons_iff, List.infix_cons_iff]
        rintro (hp | hp | hi)
        · exact hnil (List.prefix_nil.1 (Text.isPrefix_of_append_cons hq hp))
        · exact hnil (List.prefix_nil.1 (Text.isPrefix_of_append_cons hq hp))
        · exact hcs hi
      · next hc =>
          have heq : c :: doubleQuotes cs = doubleQuotes (c :: cs) := by
            rw [doubleQuotes_cons, if_neg hc]
          rw [List.infix_cons_iff]
          rintro (hp | hi)
          · rw [heq] at hp
            exact h (isPrefix_doubleQuotes hq hp).isInfix
          · exact hcs hi

/-- A phrase that is not in the name is not in the quoted name. -/
theorem not_isInfix_quotedChars (hq : '"' ∉ phrase) (hne : phrase ≠ []) {name rest : List Char}
    (h : ¬phrase <:+: name) (hrest : ¬phrase <:+: rest) :
    ¬phrase <:+: quotedChars name ++ rest := by
  have hnil : ¬phrase <:+: [] := fun hi => hne (List.infix_nil.1 hi)
  have hsplit : quotedChars name ++ rest = [] ++ '"' :: (doubleQuotes name ++ '"' :: rest) := by
    simp [quotedChars]
  rw [hsplit]
  exact Text.not_isInfix_append_cons hq hnil
    (Text.not_isInfix_append_cons hq (not_isInfix_doubleQuotes hq h) hrest)

/-- A phrase behind a quoted name is found there. -/
theorem splitOnce_quotedChars (hq : '"' ∉ phrase) (hne : phrase ≠ []) {name : List Char}
    (h : ¬phrase <:+: name) (rest : List Char) :
    Text.splitOnce phrase (quotedChars name ++ (phrase ++ rest)) =
      some (quotedChars name, rest) := by
  have hnil : ¬phrase <:+: [] := fun hi => hne (List.infix_nil.1 hi)
  have hbody : ¬phrase <:+: [] ++ '"' :: doubleQuotes name :=
    Text.not_isInfix_append_cons hq hnil (not_isInfix_doubleQuotes hq h)
  have hsplit : quotedChars name ++ (phrase ++ rest) =
      ([] ++ '"' :: doubleQuotes name) ++ '"' :: (phrase ++ rest) := by
    simp [quotedChars]
  rw [hsplit, Text.splitOnce_closed hq hne hbody]
  simp [quotedChars]

/-! ### Qualified names -/

/-- A name within its schema, as it stands in a statement. -/
def qualifiedChars (schema name : List Char) : List Char :=
  quotedChars schema ++ '.' :: quotedChars name

theorem toList_quoteIdent (name : String) : (quoteIdent name).toList = quotedChars name.toList :=
  String.toList_ofList

theorem toList_quoteQualified (schema name : String) :
    (quoteQualified schema name).toList = qualifiedChars schema.toList name.toList := by
  simp [quoteQualified, qualifiedChars, toList_quoteIdent]

/-- A phrase behind a qualified name is found there. -/
theorem splitOnce_qualifiedChars (hq : '"' ∉ phrase) (hlong : 2 ≤ phrase.length)
    {schema name : List Char} (hs : ¬phrase <:+: schema) (hn : ¬phrase <:+: name)
    (rest : List Char) :
    Text.splitOnce phrase (qualifiedChars schema name ++ (phrase ++ rest)) =
      some (qualifiedChars schema name, rest) := by
  have hne : phrase ≠ [] := by
    rintro rfl
    simp at hlong
  have hnil : ¬phrase <:+: [] := fun hi => hne (List.infix_nil.1 hi)
  have hdot : ¬phrase <:+: ['.'] := fun hi => by
    have := hi.length_le
    simp only [List.length_singleton] at this
    omega
  have hbody : ¬phrase <:+:
      [] ++ '"' :: (doubleQuotes schema ++ '"' :: (['.'] ++ '"' :: doubleQuotes name)) :=
    Text.not_isInfix_append_cons hq hnil
      (Text.not_isInfix_append_cons hq (not_isInfix_doubleQuotes hq hs)
        (Text.not_isInfix_append_cons hq hdot (not_isInfix_doubleQuotes hq hn)))
  have hsplit : qualifiedChars schema name ++ (phrase ++ rest) =
      ([] ++ '"' :: (doubleQuotes schema ++ '"' :: (['.'] ++ '"' :: doubleQuotes name))) ++
        '"' :: (phrase ++ rest) := by
    simp [qualifiedChars, quotedChars]
  rw [hsplit, Text.splitOnce_closed hq hne hbody]
  simp [qualifiedChars, quotedChars]

/-- A name in a plain schema is read back. -/
theorem qualifiedName?_qualifiedChars {schema : List Char} (hq : '"' ∉ schema)
    (hdot : schema ≠ ['.']) (name : List Char) :
    qualifiedName? (qualifiedChars schema name) = some (schema, name) := by
  have htrim : Text.trimBlanks (qualifiedChars schema name) = qualifiedChars schema name := by
    have hends : qualifiedChars schema name =
        '"' :: ((doubleQuotes schema ++ '"' :: '.' :: '"' :: doubleQuotes name) ++ ['"']) := by
      simp [qualifiedChars, quotedChars]
    rw [hends]
    exact Text.trimBlanks_of_ends rfl rfl _
  have hsplit : Text.splitOnce ['"', '.', '"'] (qualifiedChars schema name) =
      some ('"' :: schema, doubleQuotes name ++ ['"']) := by
    have hform : qualifiedChars schema name =
        '"' :: (schema ++ '"' :: '.' :: '"' :: (doubleQuotes name ++ ['"'])) := by
      simp [qualifiedChars, quotedChars, doubleQuotes_of_not_mem hq]
    -- Only the schema that is a dot makes the opening quote one of a quoted dot.
    have hstart : ¬['"', '.', '"'] <+:
        '"' :: (schema ++ '"' :: '.' :: '"' :: (doubleQuotes name ++ ['"'])) := by
      rw [List.cons_prefix_cons]
      rintro ⟨-, hp⟩
      rcases schema with _ | ⟨c, _ | ⟨d, cs⟩⟩
      · simp at hp
      · rw [List.cons_append, List.cons_prefix_cons] at hp
        exact hdot (by rw [hp.1])
      · rw [List.cons_append, List.cons_append, List.cons_prefix_cons, List.cons_prefix_cons] at hp
        exact hq (by simp [← hp.2.1])
    have hdotted : Text.splitOnce ['"', '.', '"']
        (schema ++ '"' :: '.' :: '"' :: (doubleQuotes name ++ ['"'])) =
          some (schema, doubleQuotes name ++ ['"']) := Text.splitOnce_of_not_mem hq
    rw [hform, Text.splitOnce_cons_of_not_isPrefix hstart, hdotted]
    rfl
  have hschema : bareName ('"' :: schema ++ ['"']) = schema := by
    have := bareName_quotedChars schema
    rwa [quotedChars, doubleQuotes_of_not_mem hq] at this
  rw [qualifiedName?, htrim, hsplit, Option.map_some, hschema]
  exact congrArg (fun read => some (schema, read)) (bareName_quotedChars name)

/-! ### Statements -/

/-- The bound of a value as a statement is read to have it. -/
def writtenBound (value : Int64) : String :=
  "FOR VALUES IN " ++ String.ofList ('(' :: (Text.ofInt64 value ++ [')']))

/-- Phrases have no quotes and more than one character. -/
private theorem of_mem_phrases {phrase : String} (h : phrase ∈ phrases) :
    '"' ∉ phrase.toList ∧ 2 ≤ phrase.toList.length := by
  revert phrase
  decide

private theorem not_isInfix_of_plain {name : String} (h : IsPlain name) {phrase : String}
    (hp : phrase ∈ phrases) : ¬phrase.toList <:+: name.toList :=
  Text.contains_eq_false_iff.1 (h phrase hp)

private theorem splitOnce_quoted {phrase : String} (hp : phrase ∈ phrases) {name : String}
    (h : IsPlain name) (rest : List Char) :
    Text.splitOnce phrase.toList (quotedChars name.toList ++ (phrase.toList ++ rest)) =
      some (quotedChars name.toList, rest) := by
  obtain ⟨hq, hlong⟩ := of_mem_phrases hp
  refine splitOnce_quotedChars hq (fun hnil => ?_) (not_isInfix_of_plain h hp) rest
  rw [hnil] at hlong
  simp at hlong

private theorem splitOnce_qualified {phrase : String} (hp : phrase ∈ phrases)
    {schema name : String} (hs : IsPlain schema) (hn : IsPlain name) (rest : List Char) :
    Text.splitOnce phrase.toList
        (qualifiedChars schema.toList name.toList ++ (phrase.toList ++ rest)) =
      some (qualifiedChars schema.toList name.toList, rest) := by
  obtain ⟨hq, hlong⟩ := of_mem_phrases hp
  exact splitOnce_qualifiedChars hq hlong (not_isInfix_of_plain hs hp)
    (not_isInfix_of_plain hn hp) rest

/-- A statement that begins with another verb creates nothing. -/
private theorem after?_create_eq_none {c : Char} (hc : c ≠ 'C') (cs : List Char) :
    Text.after? "CREATE TABLE IF NOT EXISTS ".toList (c :: cs) = none := by
  rw [Text.after?_eq_none_iff]
  intro h
  have hhead : "CREATE TABLE IF NOT EXISTS ".toList =
      'C' :: "REATE TABLE IF NOT EXISTS ".toList := by simp
  rw [hhead, List.cons_prefix_cons] at h
  exact hc h.1.symm

/-- A statement that begins with another verb alters nothing. -/
private theorem after?_alter_eq_none {c : Char} (hc : c ≠ 'A') (cs : List Char) :
    Text.after? "ALTER TABLE ".toList (c :: cs) = none := by
  rw [Text.after?_eq_none_iff]
  intro h
  have hhead : "ALTER TABLE ".toList = 'A' :: "LTER TABLE ".toList := by simp
  rw [hhead, List.cons_prefix_cons] at h
  exact hc h.1.symm

/-- What creating a partition changes. -/
theorem ofSql?_createPartition {schema name table : String} (hs : IsPlainSchema schema)
    (hn : IsPlain name) (ht : IsPlain table) (value : Int64) :
    Change.ofSql? (Statement.createPartition schema name table value).text =
      some (.attach table schema name (writtenBound value)) := by
  have htext : (Statement.createPartition schema name table value).text.toList =
      "CREATE TABLE IF NOT EXISTS ".toList ++
        (qualifiedChars schema.toList name.toList ++ (" PARTITION OF ".toList ++
          (quotedChars table.toList ++ (" FOR VALUES IN ".toList ++
            '(' :: (Text.ofInt64 value ++ [')']))))) := by
    have hopen : " FOR VALUES IN (".toList = " FOR VALUES IN ".toList ++ ['('] := by simp
    have hclose : ")".toList = [')'] := by simp
    unfold Statement.text
    simp only [String.toList_append, toList_quoteIdent, toList_quoteQualified,
      String.toList_ofList, hopen, hclose, List.append_assoc, List.cons_append, List.nil_append]
  have hpartition := splitOnce_qualified (by simp [phrases] : " PARTITION OF " ∈ phrases)
    hs.plain hn
  have hvalues := splitOnce_quoted (by simp [phrases] : " FOR VALUES IN " ∈ phrases) ht
  rw [Change.ofSql?, htext, Text.after?_append]
  simp only [Change.ofCreate?, hpartition, hvalues, Option.bind_eq_bind, Option.bind_some,
    qualifiedName?_qualifiedChars hs.noQuote hs.ne_dot, bareName_quotedChars,
    String.ofList_toList]
  rfl

/-- What detaching a partition changes. -/
theorem ofSql?_detachPartition {table schema name : String} (ht : IsPlain table)
    (hs : IsPlainSchema schema) :
    Change.ofSql? (Statement.detachPartition table schema name).text =
      some (.detach table schema name) := by
  have htext : (Statement.detachPartition table schema name).text.toList =
      "ALTER TABLE ".toList ++ (quotedChars table.toList ++ (" DETACH PARTITION ".toList ++
        qualifiedChars schema.toList name.toList)) := by
    unfold Statement.text
    simp only [String.toList_append, toList_quoteIdent, toList_quoteQualified,
      List.append_assoc]
  have halter : "ALTER TABLE ".toList = 'A' :: "LTER TABLE ".toList := by simp
  have hdetach := splitOnce_quoted (by simp [phrases] : " DETACH PARTITION " ∈ phrases) ht
  rw [Change.ofSql?, htext, halter, List.cons_append, after?_create_eq_none (by decide),
    ← List.cons_append, ← halter, Text.after?_append]
  simp only [Change.ofAlter?, hdetach, qualifiedName?_qualifiedChars hs.noQuote hs.ne_dot,
    bareName_quotedChars, String.ofList_toList, Option.bind_eq_bind, Option.bind_some]
  rfl

/-- No part of a statement that sets a default can be taken for a detachment. -/
private theorem splitOnce_detach {table column : String} (ht : IsPlain table)
    (hc : IsPlain column) (value : Int64) :
    Text.splitOnce " DETACH PARTITION ".toList
      (quotedChars table.toList ++ (" ALTER COLUMN ".toList ++
        (quotedChars column.toList ++ (" SET DEFAULT ".toList ++ Text.ofInt64 value)))) = none := by
  have hp : " DETACH PARTITION " ∈ phrases := by simp [phrases]
  obtain ⟨hq, -⟩ := of_mem_phrases hp
  have hne : " DETACH PARTITION ".toList ≠ [] := by simp
  have hvalue : ¬" DETACH PARTITION ".toList <:+:
      " SET DEFAULT ".toList ++ Text.ofInt64 value := by
    intro h
    have hmem : 'P' ∈ " SET DEFAULT ".toList ++ Text.ofInt64 value := h.subset (by simp)
    rcases List.mem_append.1 hmem with hm | hm
    · simp at hm
    · exact absurd (Text.isNumeric_of_mem_ofInt64 value _ hm) (by decide)
  have halter : ¬" DETACH PARTITION ".toList <:+: " ALTER COLUMN ".toList := by
    intro h
    have hmem : 'P' ∈ " ALTER COLUMN ".toList := h.subset (by simp)
    simp at hmem
  have hquoted : quotedChars column.toList ++ (" SET DEFAULT ".toList ++ Text.ofInt64 value) =
      '"' :: (doubleQuotes column.toList ++
        '"' :: (" SET DEFAULT ".toList ++ Text.ofInt64 value)) := by
    simp [quotedChars]
  rw [Text.splitOnce_eq_none_iff]
  refine not_isInfix_quotedChars hq hne (not_isInfix_of_plain ht hp) ?_
  rw [hquoted]
  exact Text.not_isInfix_append_cons hq halter (Text.not_isInfix_append_cons hq
    (not_isInfix_doubleQuotes hq (not_isInfix_of_plain hc hp)) hvalue)

/-- What setting a default changes. -/
theorem ofSql?_setDefault {table column : String} (ht : IsPlain table) (hc : IsPlain column)
    (value : Int64) :
    Change.ofSql? (Statement.setDefault table column value).text =
      some (.setDefault table column (String.ofList (Text.ofInt64 value))) := by
  have htext : (Statement.setDefault table column value).text.toList =
      "ALTER TABLE ".toList ++ (quotedChars table.toList ++ (" ALTER COLUMN ".toList ++
        (quotedChars column.toList ++ (" SET DEFAULT ".toList ++ Text.ofInt64 value)))) := by
    unfold Statement.text
    simp only [String.toList_append, toList_quoteIdent, String.toList_ofList, List.append_assoc]
  have halter : "ALTER TABLE ".toList = 'A' :: "LTER TABLE ".toList := by simp
  have hcolumn := splitOnce_quoted (by simp [phrases] : " ALTER COLUMN " ∈ phrases) ht
  have hvalue := splitOnce_quoted (by simp [phrases] : " SET DEFAULT " ∈ phrases) hc
  have htrim : Text.trimBlanks (Text.ofInt64 value) = Text.ofInt64 value :=
    Text.trimBlanks_of_no_blank fun c hm =>
      Text.isBlank_of_isNumeric (Text.isNumeric_of_mem_ofInt64 value c hm)
  rw [Change.ofSql?, htext, halter, List.cons_append, after?_create_eq_none (by decide),
    ← List.cons_append, ← halter, Text.after?_append]
  simp only [Change.ofAlter?, splitOnce_detach ht hc value, hcolumn, hvalue, htrim,
    bareName_quotedChars, String.ofList_toList, Option.bind_eq_bind, Option.bind_some]
  rfl

/-- Setting the lock timeout changes nothing. -/
theorem ofSql?_setLockTimeout (millis : Nat) :
    Change.ofSql? (Statement.setLockTimeout millis).text = none := by
  have htext : (Statement.setLockTimeout millis).text.toList =
      'S' :: ("ET lock_timeout TO '" ++ toString millis ++ "ms'").toList := by
    have hverb : "SET lock_timeout TO '".toList = 'S' :: "ET lock_timeout TO '".toList := by simp
    unfold Statement.text
    simp only [String.toList_append, hverb, List.cons_append]
  rw [Change.ofSql?, htext, after?_create_eq_none (by decide), after?_alter_eq_none (by decide)]

/-- Undoing the lock timeout changes nothing. -/
theorem ofSql?_resetLockTimeout : Change.ofSql? Statement.resetLockTimeout.text = none := by
  have htext : Statement.resetLockTimeout.text.toList = 'R' :: "ESET lock_timeout".toList := by
    unfold Statement.text
    simp
  rw [Change.ofSql?, htext, after?_create_eq_none (by decide), after?_alter_eq_none (by decide)]

end Upkeep.Sql

/-! ### Names of partitions -/

namespace Upkeep.Partition

open Upkeep.Sql

/-- Every phrase ends with a blank, and none has an underscore. -/
private theorem blank_mem_of_mem_phrases {phrase : String} (h : phrase ∈ phrases) :
    ' ' ∈ phrase.toList ∧ '_' ∉ phrase.toList := by
  revert phrase
  decide

/-- An underscore stands between the table and the value. -/
theorem toList_name_named (table : String) (value : Int64) (schema : String) :
    (named table value schema).name.toList = table.toList ++ '_' :: Text.ofInt64 value := by
  have hseparator : "_".toList = ['_'] := by simp
  simp only [named, String.toList_append, String.toList_ofList, hseparator, List.append_assoc,
    List.cons_append, List.nil_append]

/-- The partitions of a plain table have plain names. -/
theorem isPlain_name_named {table : String} (h : IsPlain table) (value : Int64)
    (schema : String) : IsPlain (named table value schema).name := by
  intro phrase hp
  obtain ⟨hblank, hunderscore⟩ := blank_mem_of_mem_phrases hp
  rw [toList_name_named, Text.contains_eq_false_iff]
  refine Text.not_isInfix_append_cons hunderscore
    (Text.contains_eq_false_iff.1 (h phrase hp)) fun hi => ?_
  exact absurd (Text.isNumeric_of_mem_ofInt64 value _ (hi.subset hblank)) (by decide)

/-- **A name tells the table and the value**: numerals have no underscore, so that before the value
is the last one, however many the table has. -/
theorem name_named_eq_iff {table table' schema schema' : String} {value value' : Int64} :
    (named table value schema).name = (named table' value' schema').name ↔
      table = table' ∧ value = value' := by
  have last (value : Int64) : '_' ∉ [] ++ Text.ofInt64 value :=
    Text.not_mem_ofInt64 (by decide) value
  constructor
  · intro h
    have same := congrArg String.toList h
    rw [toList_name_named, toList_name_named] at same
    obtain ⟨htable, hvalue⟩ := Text.eq_of_last (last value) (last value') same
    exact ⟨String.toList_inj.1 htable, Text.ofInt64_injective hvalue⟩
  · rintro ⟨rfl, rfl⟩
    rfl

end Upkeep.Partition

/-! ### Bounds and defaults -/

namespace Upkeep.Partition.Condition

open Upkeep.Text

theorem trimBlanks_ofInt64 (value : Int64) :
    trimBlanks (ofInt64 value) = ofInt64 value :=
  trimBlanks_of_no_blank fun c hm => isBlank_of_isNumeric (isNumeric_of_mem_ofInt64 value c hm)

private theorem value?_ofInt64 (value : Int64) : value? (ofInt64 value) = some value := by
  have hbare : unquoted '\'' (ofInt64 value) = ofInt64 value := by
    unfold unquoted
    cases hv : ofInt64 value with
    | nil => rfl
    | cons c cs =>
        have hc : c ≠ '\'' := by
          rintro rfl
          exact not_mem_ofInt64 (by decide) value (hv ▸ List.mem_cons_self)
        simp [between?, hc]
  rw [value?, hbare, int64?_ofInt64]

/-- What a list bound encloses is read as a list of values. -/
theorem parse_enclosed (values : List Char) :
    parse ("FOR VALUES IN (" ++ String.ofList values ++ ")") = ofList values := by
  have hhead : head = 'F' :: head.tail := by decide
  have hopen : "FOR VALUES IN (".toList = head ++ [' ', '('] := by decide
  have hclose : ")".toList = [')'] := by decide
  have htext : ("FOR VALUES IN (" ++ String.ofList values ++ ")").toList =
      head ++ (' ' :: '(' :: (values ++ [')'])) := by
    simp only [String.toList_append, String.toList_ofList, hopen, hclose, List.append_assoc,
      List.cons_append, List.nil_append]
  have htrim : trimBlanks (head ++ (' ' :: '(' :: (values ++ [')']))) =
      head ++ (' ' :: '(' :: (values ++ [')'])) := by
    have hends : head ++ (' ' :: '(' :: (values ++ [')'])) =
        'F' :: ((head.tail ++ ' ' :: '(' :: values) ++ [')']) := by
      rw [hhead]
      simp
    rw [hends]
    exact trimBlanks_of_ends rfl rfl _
  have hafter : afterHead? (head ++ (' ' :: '(' :: (values ++ [')']))) =
      some (' ' :: '(' :: (values ++ [')'])) := by
    have hupper : head.map Char.toUpper = head := by decide
    simp only [afterHead?, List.take_left, List.drop_left, hupper, if_true]
  have hlist : trimBlanks (' ' :: '(' :: (values ++ [')'])) = '(' :: (values ++ [')']) := by
    rw [trimBlanks, List.dropWhile_cons_of_pos rfl]
    exact trimBlanks_of_ends rfl rfl _
  rw [parse, htext, htrim, hafter]
  simp only [hlist, between?_enclosed]

/-- The bound that a statement writes is read. -/
theorem parse_writtenBound (value : Int64) : parse (Sql.writtenBound value) = .ok value := by
  have htext : Sql.writtenBound value =
      "FOR VALUES IN (" ++ String.ofList (ofInt64 value) ++ ")" := by
    simp [Sql.writtenBound, ← String.toList_inj]
  have hfields : fields ',' (ofInt64 value) = [ofInt64 value] :=
    fields_of_not_mem (not_mem_ofInt64 (by decide) value)
  rw [htext, parse_enclosed]
  simp only [ofList, hfields, trimBlanks_ofInt64, value?_ofInt64]

/-- The default that a statement writes is read. -/
theorem default?_ofInt64 (value : Int64) :
    default? (String.ofList (ofInt64 value)) = some value := by
  have hcast : splitOnce [':', ':'] (ofInt64 value) = none := by
    rw [splitOnce_eq_none_iff]
    intro h
    exact not_mem_ofInt64 (by decide) value (h.subset List.mem_cons_self)
  rw [default?, String.toList_ofList, trimBlanks_ofInt64, beforeCast, hcast, trimBlanks_ofInt64,
    value?_ofInt64]

end Upkeep.Partition.Condition
