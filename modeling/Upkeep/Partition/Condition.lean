import Upkeep.Text.Blank
import Upkeep.Text.Numeral
import Upkeep.Text.Phrase
import Upkeep.Text.Quoted

/-!
# Partition bounds

The catalog prints the bound of a list partition as `FOR VALUES IN (3)` or
`FOR VALUES IN ('3')`.  A bound is read only if it lists exactly one value and
that value is a 64-bit numeral; anything else is a fault that says what is
wrong with it.

## Main Definitions

* `Condition.Fault` — the three ways in which a bound is not readable.
* `Condition.parse` — the value of a bound.
* `Condition.default?` — the value of a column default, which may carry a cast.

## Design Notes

Both readers share `value?`, the reading of one literal with or without single
quotes, because the value of a default is compared with the values of bounds.
-/

namespace Upkeep.Partition.Condition

/-- Why a bound is not the bound of a one-value list partition. -/
inductive Fault where
  /-- It does not begin like a list bound. -/
  | noBound
  /-- It lists more than one value. -/
  | manyValues (count : Nat)
  /-- Its list or its value is not well-formed. -/
  | malformed (text : String)
  deriving DecidableEq, Repr

/-- The name of a fault. -/
def Fault.code : Fault → String
  | noBound => "NoBound"
  | manyValues _ => "MultipleValues"
  | malformed _ => "Malformed"

/-- The wording of a fault. -/
def Fault.message : Fault → String
  | noBound => "no list bound in partition condition"
  | manyValues count => s!"expected a single list value, found {count}"
  | malformed text => "malformed list bound value " ++ Text.quoted text

/-- How every list bound begins. -/
def head : List Char := "FOR VALUES IN".toList

/-- The rest of a text that begins like a list bound, whatever the case of its
ASCII letters. -/
def afterHead? (cs : List Char) : Option (List Char) :=
  let start := cs.take head.length
  if start.map Char.toUpper = head then some (cs.drop head.length) else none

/-- The number of a literal, which may stand in single quotes. -/
def value? (cs : List Char) : Option Int64 :=
  Text.int64? (Text.unquoted '\'' cs)

/-- The value of a list of values, if it is a single one. -/
def ofList (values : List Char) : Except Fault Int64 :=
  match Text.fields ',' values with
  | [field] =>
      let literal := Text.trimBlanks field
      match value? literal with
      | some value => .ok value
      | none => .error (.malformed (String.ofList literal))
  | fields => .error (.manyValues fields.length)

/-- The one value of a bound as the catalog prints it. -/
def parse (condition : String) : Except Fault Int64 :=
  match afterHead? (Text.trimBlanks condition.toList) with
  | none => .error .noBound
  | some rest =>
      let list := Text.trimBlanks rest
      match Text.between? '(' ')' list with
      | none => .error (.malformed (String.ofList list))
      | some values => ofList values

/-- The part of an expression before a cast. -/
def beforeCast (cs : List Char) : List Char :=
  match Text.splitOnce [':', ':'] cs with
  | some parts => parts.1
  | none => cs

/-- The value of a column default, which may be cast to a type. -/
def default? (expression : String) : Option Int64 :=
  value? (Text.trimBlanks (beforeCast (Text.trimBlanks expression.toList)))

end Upkeep.Partition.Condition
