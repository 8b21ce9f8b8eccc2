import Upkeep.Service
import Upkeep.Settings

/-!
# Which indexes to rebuild

An index is worth a rebuild if it is valid, nobody's leftover, neither too small
nor too large, and bloated enough.  Of those, the ones that were rebuilt
recently are left alone, and the most bloated ones come first.

## Main Definitions

* `Thresholds.accept` — whether an index is worth a rebuild.
* `Thresholds.cutoff` — since when an action counts as recent.
* `Selection.rank` — the most bloated first, and no more than asked for.
* `Selection.select` — the choice, with the history asked for each candidate.
-/

namespace Upkeep

namespace Thresholds

/-- Whether an index is worth a rebuild. -/
def accept (thresholds : Thresholds) (index : Index) : Bool :=
  index.valid && !index.isLeftover &&
    (thresholds.minimumSize ≤ index.size && index.size ≤ thresholds.maximumSize) &&
    (match index.relativeBloat with
      | some ratio => thresholds.minimumBloat.toFloat ≤ ratio
      | none => false)

/-- The earliest start of an action that counts as recent at the time `now`. -/
def cutoff (thresholds : Thresholds) (now : UInt64) : UInt64 :=
  -- A window that reaches back before time began takes in every action.
  let window := thresholds.recent.millis64
  if window ≤ now then now - window else 0

/-- Whether a history holds an action that counts as recent. -/
def isRecent (thresholds : Thresholds) (now : UInt64) (history : List Action) : Bool :=
  history.any fun action => thresholds.cutoff now ≤ action.started

end Thresholds

namespace Selection

/-- An index was left alone because of a recent action. -/
def recentEvent (index : Index) : Event :=
  ⟨.debug, "Skipping recently reindexed index", [("index", index.display)]⟩

/-- The indexes without a recent action. -/
def withoutRecent (thresholds : Thresholds) (now : UInt64) : List Index → Task (List Index)
  | [] => return []
  | index :: rest => do
      let history ← Service.attempt (Service.ask (.listActions index.database index.identifier))
      if thresholds.isRecent now history then
        Service.log (recentEvent index)
        withoutRecent thresholds now rest
      else return index :: (← withoutRecent thresholds now rest)

/-- Up to `maximum` of the indexes, the most bloated first; equally bloated ones
keep their order. -/
def rank (maximum : Nat) (indexes : List Index) : List Index :=
  (indexes.mergeSort fun a b => b.bloatEstimate ≤ a.bloatEstimate).take maximum

/-- Up to `maximum` of the candidates that are worth a rebuild and have no recent
action, the most bloated first. -/
def select (thresholds : Thresholds) (candidates : List Index) (now : UInt64)
    (maximum : Nat) : Task (List Index) := do
  let fresh ← withoutRecent thresholds now (candidates.filter thresholds.accept)
  return rank maximum fresh

end Selection

end Upkeep
