/-!
# Quoted identifiers

In a statement every name stands in double quotes, and a quote inside the name
is written twice.  Reading goes the other way: the name ends at the first quote
that no other quote follows.

## Main Definitions

* `quoteIdent`, `quoteQualified` — a name, and a name within a schema.
* `readIdent?` — the name at the start of a text and the text after it.

## Main Statements

* `readIdent?_quoted` — a quoted name is read back, whatever follows it, as long
  as that is not another quote.
-/

namespace Upkeep.Sql

/-- The text with every double quote written twice. -/
def doubleQuotes : List Char → List Char
  | [] => []
  | c :: cs => if c = '"' then '"' :: '"' :: doubleQuotes cs else c :: doubleQuotes cs

/-- The name in double quotes. -/
def quotedChars (name : List Char) : List Char :=
  '"' :: (doubleQuotes name ++ ['"'])

/-- The name as it stands in a statement. -/
def quoteIdent (name : String) : String :=
  String.ofList (quotedChars name.toList)

/-- The name within its schema as it stands in a statement. -/
def quoteQualified (schema name : String) : String :=
  quoteIdent schema ++ "." ++ quoteIdent name

/-- The rest of a name whose opening quote has been read, and what follows its
closing quote. -/
def readName? : List Char → Option (List Char × List Char)
  | [] => none
  -- Two quotes are one of the name; it is their pairing from the left that counts.
  | '"' :: '"' :: cs => (readName? cs).map fun (name, rest) => ('"' :: name, rest)
  | '"' :: cs => some ([], cs)
  | c :: cs => (readName? cs).map fun (name, rest) => (c :: name, rest)

/-- The quoted name at the start of a text, and what follows it. -/
def readIdent? : List Char → Option (List Char × List Char)
  | '"' :: cs => readName? cs
  | _ => none

@[simp] theorem doubleQuotes_nil : doubleQuotes [] = [] := rfl

theorem doubleQuotes_cons (c : Char) (cs : List Char) :
    doubleQuotes (c :: cs) =
      if c = '"' then '"' :: '"' :: doubleQuotes cs else c :: doubleQuotes cs := rfl

/-- A closing quote is one that no quote follows. -/
theorem readName?_close {rest : List Char} (h : rest.head? ≠ some '"') :
    readName? ('"' :: rest) = some ([], rest) := by
  cases rest with
  | nil => rfl
  | cons c cs =>
      have : c ≠ '"' := by simpa using h
      rw [readName?]
      simpa using this

/-- Reading undoes the doubling. -/
theorem readName?_doubleQuotes (name : List Char) {rest : List Char}
    (h : rest.head? ≠ some '"') :
    readName? (doubleQuotes name ++ '"' :: rest) = some (name, rest) := by
  induction name with
  | nil => exact readName?_close h
  | cons c cs ih =>
      rw [doubleQuotes_cons]
      split
      · next hc => simp [readName?, ih, hc]
      · next hc =>
          rw [List.cons_append, readName?]
          · simp [ih]
          · intro _ heq; exact fun _ => hc heq
          · intro heq; exact hc heq

/-- A quoted name is read back, and so is what follows it. -/
theorem readIdent?_quoted (name : List Char) {rest : List Char}
    (h : rest.head? ≠ some '"') :
    readIdent? (quotedChars name ++ rest) = some (name, rest) := by
  simp only [quotedChars, readIdent?, List.cons_append, List.append_assoc, List.nil_append]
  exact readName?_doubleQuotes name h

end Upkeep.Sql
