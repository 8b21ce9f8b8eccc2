/-!
# Phrases in a text

Searching a text for a fixed phrase.  All functions work on lists of
characters and compare characters exactly; a phrase is found at its first
occurrence unless the name says otherwise.

## Main Definitions

* `after?` — what follows a phrase at the start of a text.
* `splitOnce` — the texts before and after the first occurrence.
* `contains` — whether a phrase occurs.
* `afterLast?` — what follows the last occurrence.
* `fields` — the pieces between separators.
* `between?` — the text inside one pair of delimiters.
-/

namespace Upkeep.Text

/-- The rest of a text that starts with the phrase. -/
def after? (phrase text : List Char) : Option (List Char) :=
  if phrase.isPrefixOf text then some (text.drop phrase.length) else none

/-- The texts before and after the first occurrence of the phrase. -/
def splitOnce (phrase : List Char) : List Char → Option (List Char × List Char)
  | [] => if phrase.isEmpty then some ([], []) else none
  | c :: cs =>
      match after? phrase (c :: cs) with
      | some rest => some ([], rest)
      | none => (splitOnce phrase cs).map fun parts => (c :: parts.1, parts.2)

/-- Whether the phrase occurs in the text. -/
def contains (phrase text : List Char) : Bool :=
  (splitOnce phrase text).isSome

/-- What follows the last occurrence of the phrase. -/
def afterLast? (phrase : List Char) : List Char → Option (List Char)
  | [] => after? phrase []
  | c :: cs =>
      match afterLast? phrase cs with
      | some rest => some rest
      | none => after? phrase (c :: cs)

/-- The pieces of a text between occurrences of a separator; there is one more
piece than there are separators. -/
def fields (separator : Char) : List Char → List (List Char)
  | [] => [[]]
  | c :: cs =>
      if c = separator then [] :: fields separator cs
      else
        match fields separator cs with
        | [] => [[c]]
        | piece :: pieces => (c :: piece) :: pieces

/-- The text inside an opening and a closing delimiter, which are two different
places of the text even if they are the same character. -/
def between? (opening closing : Char) : List Char → Option (List Char)
  | [] => none
  | c :: cs =>
      if c = opening ∧ cs.getLast? = some closing then some cs.dropLast else none

/-- The text without one pair of the quote around it; a text that is not
enclosed in a pair stays as it is. -/
def unquoted (quote : Char) (cs : List Char) : List Char :=
  (between? quote quote cs).getD cs

@[simp] theorem after?_append (phrase rest : List Char) :
    after? phrase (phrase ++ rest) = some rest := by
  simp [after?]

/-- A text starts with the phrase exactly if it is the phrase and a rest. -/
theorem after?_eq_some_iff {phrase text rest : List Char} :
    after? phrase text = some rest ↔ text = phrase ++ rest := by
  constructor
  · intro h
    simp only [after?, Option.ite_none_right_eq_some, List.isPrefixOf_iff_prefix,
      Option.some.injEq] at h
    obtain ⟨⟨tail, rfl⟩, h⟩ := h
    simp_all
  · rintro rfl
    exact after?_append phrase rest

theorem fields_ne_nil (separator : Char) (cs : List Char) : fields separator cs ≠ [] := by
  cases cs with
  | nil => simp [fields]
  | cons c cs =>
      simp only [fields]
      split
      · simp
      · split <;> simp

/-- There is one more piece than there are separators. -/
theorem length_fields (separator : Char) (cs : List Char) :
    (fields separator cs).length = cs.count separator + 1 := by
  induction cs with
  | nil => rfl
  | cons c cs ih =>
      simp only [fields, List.count_cons]
      split
      · next h => simp [h, ih]
      · next h =>
          split
          · next hnil => exact absurd hnil (fields_ne_nil separator cs)
          · next piece pieces hcons =>
              rw [hcons] at ih
              simp_all

@[simp] theorem between?_enclosed (opening closing : Char) (cs : List Char) :
    between? opening closing (opening :: (cs ++ [closing])) = some cs := by
  simp [between?]

end Upkeep.Text
