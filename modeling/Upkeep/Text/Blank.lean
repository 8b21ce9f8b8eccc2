/-!
# Blanks around a value

A value read from the catalog may stand between blanks, and those are not part
of it.  A blank is a character with the Unicode property `White_Space`: the
five control blanks, the space, U+0085, U+00A0 and the separators.  The
zero-width characters U+200B and U+FEFF do not have that property.

## Main Definitions

* `isBlank` — the property.
* `trimBlanks` — the text between the first and the last character that is no
  blank.
-/

namespace Upkeep.Text

/-- The Unicode property `White_Space`. -/
def isBlank (c : Char) : Bool :=
  let n := c.toNat
  (0x9 ≤ n && n ≤ 0xd) || n == 0x20 || n == 0x85 || n == 0xa0 || n == 0x1680 ||
    (0x2000 ≤ n && n ≤ 0x200a) || n == 0x2028 || n == 0x2029 || n == 0x202f ||
    n == 0x205f || n == 0x3000

/-- The text without the blanks at its end. -/
def trimRight : List Char → List Char
  | [] => []
  | c :: cs =>
      match trimRight cs with
      | [] => if isBlank c then [] else [c]
      | d :: ds => c :: d :: ds

/-- The text without the blanks at either end. -/
def trimBlanks (cs : List Char) : List Char :=
  trimRight (cs.dropWhile isBlank)

@[simp] theorem trimRight_nil : trimRight [] = [] := rfl

@[simp] theorem trimBlanks_nil : trimBlanks [] = [] := rfl

/-- Every blank of core's own narrower class is a blank. -/
theorem isBlank_of_isWhitespace {c : Char} (h : c.isWhitespace = true) :
    isBlank c = true := by
  simp only [Char.isWhitespace, Bool.or_eq_true, decide_eq_true_eq] at h
  rcases h with ((rfl | rfl) | rfl) | rfl <;> rfl

end Upkeep.Text
