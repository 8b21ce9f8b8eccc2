import Upkeep.Partition.SlidingList
import Upkeep.Proofs.Sql.Reading
import Upkeep.Reindex.Index

/-!
# Names stay in their quotes

A reader that knows nothing of names reads every statement back: it takes fixed phrases one after
the other, and between them names as far as their closing quotes reach.  So no name, whatever
quotes, dots or phrases it has in it, can be taken for more than a name, and no two statements
have the same text.

## Main Definitions

* `readQualified?`, `readNumeral?` — a qualified name and a numeral at the start of a text.
* `Statement.ofText?` — the statement of a text.

## Main Statements

* `readIdent?_quoteIdent_iff` — where a quoted name ends.
* `Statement.ofText?_text` — every statement is read back.
* `names_stay_quoted` — what the statements that are built say.

## Design Notes

Unlike `Change.ofSql?`, which searches a text for phrases as the simulated database does and needs
names that are plain, this reader goes from left to right and never searches.
-/

namespace Upkeep.Text

/-- A text does not start with a phrase if neither of phrase and start begins the other. -/
theorem after?_append_eq_none {phrase start : List Char} (h : ¬phrase <+: start)
    (h' : ¬start <+: phrase) (rest : List Char) : after? phrase (start ++ rest) = none := by
  rw [after?_eq_none_iff]
  intro hp
  exact (List.prefix_or_prefix_of_prefix hp (List.prefix_append start rest)).elim h h'

end Upkeep.Text

namespace Upkeep.Sql

open Upkeep.Text

/-! ### Names -/

/-- A quote behind the closing quote is taken for one of the name. -/
private theorem readName?_doubled (name rest : List Char) :
    readName? (doubleQuotes name ++ '"' :: '"' :: rest) =
      (readName? rest).map fun (more, rest) => (name ++ '"' :: more, rest) := by
  induction name with
  | nil => rfl
  | cons c cs ih =>
      rw [doubleQuotes_cons]
      split
      · next hc =>
          simp only [List.cons_append, readName?, ih, hc, Option.map_map]
          rfl
      · next hc =>
          rw [List.cons_append, readName?]
          · simp only [ih, Option.map_map]
            rfl
          · intro _ heq; exact fun _ => hc heq
          · intro heq; exact hc heq

/-- **Where a quoted name ends**: it is read back, and what follows it is left, unless that begins
with another quote. -/
theorem readIdent?_quoteIdent_iff (name rest : String) :
    readIdent? (quoteIdent name ++ rest).toList = some (name.toList, rest.toList) ↔
      rest.toList.head? ≠ some '"' := by
  rw [String.toList_append, toList_quoteIdent]
  refine ⟨fun h hquote => ?_, readIdent?_quoted name.toList⟩
  obtain ⟨tail, htail⟩ := List.head?_eq_some_iff.1 hquote
  have hread : readIdent? (quotedChars name.toList ++ rest.toList) =
      readName? (doubleQuotes name.toList ++ '"' :: '"' :: tail) := by
    simp [quotedChars, readIdent?, htail]
  rw [hread, readName?_doubled, Option.map_eq_some_iff] at h
  obtain ⟨⟨more, left⟩, -, h⟩ := h
  exact absurd (Prod.mk.inj h).1 (by simp)

/-- The qualified name at the start of a text, and what follows it. -/
def readQualified? (cs : List Char) : Option ((String × String) × List Char) := do
  let (schema, cs) ← readIdent? cs
  let cs ← after? ".".toList cs
  let (name, cs) ← readIdent? cs
  return ((String.ofList schema, String.ofList name), cs)

theorem readQualified?_quoted (schema name : String) (rest : List Char)
    (h : rest.head? ≠ some '"') :
    readQualified? (qualifiedChars schema.toList name.toList ++ rest) =
      some ((schema, name), rest) := by
  have hdot : ".".toList = ['.'] := by decide
  have hform : qualifiedChars schema.toList name.toList ++ rest =
      quotedChars schema.toList ++ (".".toList ++ (quotedChars name.toList ++ rest)) := by
    simp [qualifiedChars, hdot]
  have hhead : (".".toList ++ (quotedChars name.toList ++ rest)).head? ≠ some '"' := by
    simp [hdot]
  rw [hform, readQualified?]
  simp only [readIdent?_quoted _ hhead, after?_append, readIdent?_quoted _ h, Option.bind_eq_bind,
    Option.bind_some, Option.pure_def, String.ofList_toList]

/-! ### Numerals -/

/-- The numeral at the start of a text, as a number of some kind, and what follows it. -/
def readNumeral? {α : Type} (number? : List Char → Option α) (cs : List Char) :
    Option (α × List Char) :=
  (number? (cs.takeWhile isNumeric)).map fun number => (number, cs.dropWhile isNumeric)

theorem readNumeral?_append {α : Type} {number? : List Char → Option α} {number : α}
    {numeral : List Char} (hnumber : number? numeral = some number)
    (hnumeral : ∀ c ∈ numeral, isNumeric c = true) (rest : List Char)
    (hrest : rest.head?.any isNumeric = false) :
    readNumeral? number? (numeral ++ rest) = some (number, rest) := by
  have htake : rest.takeWhile isNumeric = [] := by
    cases rest with
    | nil => rfl
    | cons c cs => exact List.takeWhile_cons_of_neg (Bool.not_eq_true _ ▸ hrest)
  have hdrop : rest.dropWhile isNumeric = rest := by
    cases rest with
    | nil => rfl
    | cons c cs => exact List.dropWhile_cons_of_neg (Bool.not_eq_true _ ▸ hrest)
  rw [readNumeral?, List.takeWhile_append_of_pos hnumeral, List.dropWhile_append_of_pos hnumeral,
    htake, hdrop, List.append_nil, hnumber, Option.map_some]

/-! ### Statements -/

namespace Statement

/-- The statement of a text that creates a partition. -/
def ofCreate? (cs : List Char) : Option Statement := do
  let cs ← after? "CREATE TABLE IF NOT EXISTS ".toList cs
  let ((schema, name), cs) ← readQualified? cs
  let cs ← after? " PARTITION OF ".toList cs
  let (table, cs) ← readIdent? cs
  let cs ← after? " FOR VALUES IN (".toList cs
  let (value, cs) ← readNumeral? int64? cs
  if cs = ")".toList then some (createPartition schema name (String.ofList table) value) else none

/-- The statement of a text that alters a table. -/
def ofAlter? (cs : List Char) : Option Statement := do
  let cs ← after? "ALTER TABLE ".toList cs
  let (table, cs) ← readIdent? cs
  match after? " DETACH PARTITION ".toList cs with
  | some cs =>
      let ((schema, name), cs) ← readQualified? cs
      if cs = [] then some (detachPartition (String.ofList table) schema name) else none
  | none =>
      let cs ← after? " ALTER COLUMN ".toList cs
      let (column, cs) ← readIdent? cs
      let cs ← after? " SET DEFAULT ".toList cs
      let (value, cs) ← readNumeral? int64? cs
      if cs = [] then some (setDefault (String.ofList table) (String.ofList column) value)
      else none

/-- The statement of a text that drops an index. -/
def ofDrop? (cs : List Char) : Option Statement := do
  let cs ← after? "DROP INDEX CONCURRENTLY IF EXISTS ".toList cs
  let ((schema, name), cs) ← readQualified? cs
  if cs = [] then some (dropIndex schema name) else none

/-- The statement of a text that sets the lock timeout, or undoes it. -/
def ofTimeout? (cs : List Char) : Option Statement :=
  if cs = "RESET lock_timeout".toList then some resetLockTimeout
  else do
    let cs ← after? "SET lock_timeout TO '".toList cs
    let (millis, cs) ← readNumeral? natural? cs
    if cs = "ms'".toList then some (setLockTimeout millis) else none

/-- The statement of a text. -/
def ofText? (text : String) : Option Statement :=
  ofCreate? text.toList <|> ofAlter? text.toList <|> ofDrop? text.toList <|>
    ofTimeout? text.toList

private theorem head?_ne_quote (phrase : String) (hne : phrase.toList ≠ [])
    (hq : '"' ∉ phrase.toList) (rest : List Char) :
    (phrase.toList ++ rest).head? ≠ some '"' := by
  cases hp : phrase.toList with
  | nil => exact absurd hp hne
  | cons c cs =>
      intro h
      exact hq (hp ▸ Option.some.inj h ▸ List.mem_cons_self)

/-- A statement with one verb is not read as one with another. -/
private theorem ofText?_eq {text : String} {start rest : List Char}
    (htext : text.toList = start ++ rest)
    (hcreate : ¬"CREATE TABLE IF NOT EXISTS ".toList <+: start ∧
      ¬start <+: "CREATE TABLE IF NOT EXISTS ".toList) :
    ofText? text = (ofAlter? (start ++ rest) <|> ofDrop? (start ++ rest) <|>
      ofTimeout? (start ++ rest)) := by
  rw [ofText?, htext, ofCreate?, after?_append_eq_none hcreate.1 hcreate.2]
  rfl

private theorem ofAlter?_eq_none {start : List Char} (rest : List Char)
    (h : ¬"ALTER TABLE ".toList <+: start ∧ ¬start <+: "ALTER TABLE ".toList) :
    ofAlter? (start ++ rest) = none := by
  rw [ofAlter?, after?_append_eq_none h.1 h.2]
  rfl

private theorem ofDrop?_eq_none {start : List Char} (rest : List Char)
    (h : ¬"DROP INDEX CONCURRENTLY IF EXISTS ".toList <+: start ∧
      ¬start <+: "DROP INDEX CONCURRENTLY IF EXISTS ".toList) :
    ofDrop? (start ++ rest) = none := by
  rw [ofDrop?, after?_append_eq_none h.1 h.2]
  rfl

private theorem readNumeral?_ofInt64 (value : Int64) (rest : List Char)
    (hrest : rest.head?.any isNumeric = false) :
    readNumeral? int64? (ofInt64 value ++ rest) = some (value, rest) :=
  readNumeral?_append (int64?_ofInt64 value) (isNumeric_of_mem_ofInt64 value) rest hrest

theorem ofText?_createPartition (schema name table : String) (value : Int64) :
    ofText? (createPartition schema name table value).text =
      some (createPartition schema name table value) := by
  have htext : (createPartition schema name table value).text.toList =
      "CREATE TABLE IF NOT EXISTS ".toList ++
        (qualifiedChars schema.toList name.toList ++ (" PARTITION OF ".toList ++
          (quotedChars table.toList ++ (" FOR VALUES IN (".toList ++
            (ofInt64 value ++ ")".toList))))) := by
    unfold text
    simp only [String.toList_append, toList_quoteIdent, toList_quoteQualified,
      String.toList_ofList, List.append_assoc]
  have hname := readQualified?_quoted schema name _
    (head?_ne_quote " PARTITION OF " (by decide) (by decide)
      (quotedChars table.toList ++ (" FOR VALUES IN (".toList ++ (ofInt64 value ++ ")".toList))))
  have htable := readIdent?_quoted table.toList
    (head?_ne_quote " FOR VALUES IN (" (by decide) (by decide)
      (ofInt64 value ++ ")".toList))
  have hvalue := readNumeral?_ofInt64 value ")".toList (by decide)
  have hread : ofCreate? (createPartition schema name table value).text.toList =
      some (createPartition schema name table value) := by
    rw [htext, ofCreate?]
    simp only [after?_append, hname, htable, hvalue, Option.bind_eq_bind, Option.bind_some,
      String.ofList_toList, if_true]
  rw [ofText?, hread]
  rfl

/-- A statement that alters a table is read for the table first. -/
private theorem ofText?_alter {text : String} {rest : List Char} {statement : Statement}
    (htext : text.toList = "ALTER TABLE ".toList ++ rest)
    (hread : ofAlter? ("ALTER TABLE ".toList ++ rest) = some statement) :
    ofText? text = some statement := by
  rw [ofText?_eq htext (by decide), hread]
  rfl

theorem ofText?_detachPartition (table schema name : String) :
    ofText? (detachPartition table schema name).text =
      some (detachPartition table schema name) := by
  have htext : (detachPartition table schema name).text.toList =
      "ALTER TABLE ".toList ++ (quotedChars table.toList ++ (" DETACH PARTITION ".toList ++
        (qualifiedChars schema.toList name.toList ++ []))) := by
    unfold text
    simp only [String.toList_append, toList_quoteIdent, toList_quoteQualified,
      List.append_assoc, List.append_nil]
  have htable := readIdent?_quoted table.toList
    (head?_ne_quote " DETACH PARTITION " (by decide) (by decide)
      (qualifiedChars schema.toList name.toList ++ []))
  have hname := readQualified?_quoted schema name [] (by simp)
  refine ofText?_alter htext ?_
  rw [ofAlter?]
  simp only [after?_append, htable, hname, Option.bind_eq_bind, Option.bind_some,
    String.ofList_toList, if_true]

theorem ofText?_setDefault (table column : String) (value : Int64) :
    ofText? (setDefault table column value).text = some (setDefault table column value) := by
  have htext : (setDefault table column value).text.toList =
      "ALTER TABLE ".toList ++ (quotedChars table.toList ++ (" ALTER COLUMN ".toList ++
        (quotedChars column.toList ++ (" SET DEFAULT ".toList ++ (ofInt64 value ++ []))))) := by
    unfold text
    simp only [String.toList_append, toList_quoteIdent, String.toList_ofList,
      List.append_assoc, List.append_nil]
  have htable := readIdent?_quoted table.toList
    (head?_ne_quote " ALTER COLUMN " (by decide) (by decide)
      (quotedChars column.toList ++ (" SET DEFAULT ".toList ++ (ofInt64 value ++ []))))
  have hdetach : after? " DETACH PARTITION ".toList (" ALTER COLUMN ".toList ++
      (quotedChars column.toList ++ (" SET DEFAULT ".toList ++ (ofInt64 value ++ [])))) = none :=
    after?_append_eq_none (by decide) (by decide) _
  have hcolumn := readIdent?_quoted column.toList
    (head?_ne_quote " SET DEFAULT " (by decide) (by decide)
      (ofInt64 value ++ []))
  have hvalue := readNumeral?_ofInt64 value [] (by simp)
  refine ofText?_alter htext ?_
  rw [ofAlter?]
  simp only [after?_append, htable, hdetach, hcolumn, hvalue, Option.bind_eq_bind,
    Option.bind_some, String.ofList_toList, if_true]

theorem ofText?_dropIndex (schema name : String) :
    ofText? (dropIndex schema name).text = some (dropIndex schema name) := by
  have htext : (dropIndex schema name).text.toList =
      "DROP INDEX CONCURRENTLY IF EXISTS ".toList ++
        (qualifiedChars schema.toList name.toList ++ []) := by
    unfold text
    simp only [String.toList_append, toList_quoteQualified, List.append_nil]
  have hname := readQualified?_quoted schema name [] (by simp)
  have hread : ofDrop? ("DROP INDEX CONCURRENTLY IF EXISTS ".toList ++
      (qualifiedChars schema.toList name.toList ++ [])) = some (dropIndex schema name) := by
    rw [ofDrop?]
    simp only [after?_append, hname, Option.bind_eq_bind, Option.bind_some, if_true]
  rw [ofText?_eq htext (by decide), ofAlter?_eq_none _ (by decide), hread]
  rfl

theorem ofText?_setLockTimeout (millis : Nat) :
    ofText? (setLockTimeout millis).text = some (setLockTimeout millis) := by
  have hdigits : (toString millis).toList = Nat.toDigits 10 millis := String.toList_ofList
  have htext : (setLockTimeout millis).text.toList =
      "SET lock_timeout TO '".toList ++ (Nat.toDigits 10 millis ++ "ms'".toList) := by
    unfold text
    simp only [String.toList_append, hdigits, List.append_assoc]
  have hnumeral : ∀ c ∈ Nat.toDigits 10 millis, isNumeric c = true := fun c hc => by
    simp [isNumeric, Nat.isDigit_of_mem_toDigits (by decide) (by decide) hc]
  have hmillis := readNumeral?_append (natural?_toDigits millis) hnumeral "ms'".toList
    (by decide)
  have hreset : ¬"SET lock_timeout TO '".toList ++ (Nat.toDigits 10 millis ++ "ms'".toList) =
      "RESET lock_timeout".toList := by
    intro h
    exact absurd (congrArg List.head? h) (by simp)
  rw [ofText?_eq htext (by decide), ofAlter?_eq_none _ (by decide), ofDrop?_eq_none _ (by decide),
    ofTimeout?, if_neg hreset]
  simp only [after?_append, hmillis, Option.bind_eq_bind, Option.bind_some, if_true]
  rfl

/-- **Every statement is read back.** -/
theorem ofText?_text (statement : Statement) : ofText? statement.text = some statement := by
  cases statement with
  | createPartition schema name table value => exact ofText?_createPartition schema name table value
  | detachPartition table schema name => exact ofText?_detachPartition table schema name
  | setDefault table column value => exact ofText?_setDefault table column value
  | dropIndex schema name => exact ofText?_dropIndex schema name
  | setLockTimeout millis => exact ofText?_setLockTimeout millis
  | resetLockTimeout => decide

/-- Two statements of one text are the same statement. -/
theorem text_injective : Function.Injective text := fun a b h => by
  have hb := ofText?_text b
  rw [← h, ofText?_text a] at hb
  exact Option.some.inj hb

end Statement

/-! ### The statements that are built -/

open Upkeep.Partition in
/-- **Names stay in their quotes**: a quoted name is read back whatever it is, and what follows it
is left where no other quote comes next.  So the statements that create, detach and drop and that
set a default are read back to the names and the value of which they were built, and two of one
text were built of the same. -/
theorem names_stay_quoted :
    (∀ name rest : String,
      readIdent? (quoteIdent name ++ rest).toList = some (name.toList, rest.toList) ↔
        rest.toList.head? ≠ some '"') ∧
    (∀ partition : Partition,
      Statement.ofText? partition.createStatement.text =
        some (.createPartition partition.schema partition.name partition.table partition.value) ∧
      Statement.ofText? partition.detachStatement.text =
        some (.detachPartition partition.table partition.schema partition.name)) ∧
    (∀ (list : SlidingList) (value : Int64),
      Statement.ofText? (list.setDefaultStatement value).text =
        some (.setDefault list.table list.column value)) ∧
    (∀ index : Index,
      Statement.ofText? index.dropStatement.text = some (.dropIndex index.schema index.name)) ∧
    Function.Injective Statement.text := by
  refine ⟨readIdent?_quoteIdent_iff, fun partition => ⟨?_, ?_⟩, fun list value => ?_,
    fun index => ?_, Statement.text_injective⟩
  · exact Statement.ofText?_text partition.createStatement
  · exact Statement.ofText?_text partition.detachStatement
  · exact Statement.ofText?_text (list.setDefaultStatement value)
  · exact Statement.ofText?_text index.dropStatement

end Upkeep.Sql
