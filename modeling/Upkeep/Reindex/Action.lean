import Upkeep.Duration
import Upkeep.Event
import Upkeep.Reindex.Index
import Upkeep.Uuid

/-!
# Actions

The record of one attempt to rebuild an index.  It is written when the attempt
starts, and once more when it ends; a later attempt has a record of its own.

## Main Definitions

* `Action` — the record, and `Action.start` for the beginning of an attempt.
* `Action.fail`, `Action.finish` — what happens to it.
* `Action.concerns` — whether it is about the given index.
* `Action.oldestFirst` — the order of histories.

## Design Notes

A history is ordered by the starts of its actions, and by nothing else: those
that started together have no particular order in it.  One has to be fixed for
histories to be values, and that is the order of ids.
-/

namespace Upkeep

/-- How far an attempt has come. -/
inductive Action.State where
  | running
  | finished
  | failed
  deriving DecidableEq, Repr

/-- The word for a state. -/
def Action.State.word : Action.State → String
  | running => "running"
  | finished => "finished"
  | failed => "failed"

/-- The state that a word stands for. -/
def Action.State.ofWord? (word : String) : Option Action.State :=
  [running, finished, failed].find? fun state => state.word == word

instance : ToString Action.State := ⟨Action.State.word⟩

theorem Action.State.ofWord?_word (state : Action.State) : ofWord? state.word = some state := by
  cases state <;> decide

/-- The record of one attempt to rebuild an index.  Times are milliseconds of
the wall clock, sizes are bytes. -/
@[ext] structure Action where
  id : Uuid
  database : String
  /-- The identifier of the index within its database. -/
  index : String
  state : Action.State
  started : UInt64
  ended : Option UInt64
  sizeBefore : UInt64
  /-- The size after the attempt, if it could be read. -/
  sizeAfter : Option UInt64
  bloatBefore : Option UInt64
  /-- What the rebuild failed with. -/
  error : Option String
  deriving DecidableEq, Repr

namespace Action

/-- The record of an attempt that starts now. -/
def start (id : Uuid) (index : Index) (now : UInt64) : Action where
  id := id
  database := index.database
  index := index.identifier
  state := .running
  started := now
  ended := none
  sizeBefore := index.size
  sizeAfter := none
  bloatBefore := index.bloat
  error := none

/-- The record after the rebuild has failed. -/
def fail (action : Action) (error : String) : Action :=
  { action with state := .failed, error := some error }

/-- The record after the attempt has ended; a failed one stays failed. -/
def finish (action : Action) (now : UInt64) (sizeAfter : Option UInt64) : Action :=
  { action with
    ended := some now
    sizeAfter := sizeAfter
    state := if action.state = .failed then .failed else .finished }

/-- Whether the attempt has ended. -/
def isClosed (action : Action) : Bool := action.ended.isSome

/-- How many milliseconds an attempt took, if it has ended: zero if the clock
went back in between. -/
def millis? (action : Action) : Option UInt64 :=
  action.ended.map fun ended => if ended ≤ action.started then 0 else ended - action.started

/-- The bytes that the attempt won back, if the size after it is known. -/
def reclaimed? (action : Action) : Option Int64 :=
  action.sizeAfter.map fun after => action.sizeBefore.toInt64 - after.toInt64

/-- Whether the action is about the index with the given identifier in the given
database. -/
def concerns (action : Action) (database index : String) : Bool :=
  action.database == database && action.index == index

/-- Whether an action comes before another in a history: the one that started
first does.  For two that started together it makes no difference which one does,
and it is the one with the lower id. -/
def comesFirst (a b : Action) : Bool :=
  a.started < b.started || (a.started == b.started && (compare a.id b.id).isLE)

/-- The actions in the order of histories, with ids to settle the places of those
that started together. -/
def oldestFirst (actions : List Action) : List Action := actions.mergeSort comesFirst

/-- An attempt has ended. -/
def endedEvent (action : Action) : Event where
  level := .info
  message := "Reindex action finished"
  fields :=
    [("action_id", action.id.toText), ("index", action.index), ("state", action.state.word)] ++
      Event.optional "duration_ms" (action.millis?.map toString)

@[simp] theorem id_fail (action : Action) (error : String) : (action.fail error).id = action.id :=
  rfl

@[simp] theorem id_finish (action : Action) (now : UInt64) (sizeAfter : Option UInt64) :
    (action.finish now sizeAfter).id = action.id := rfl

theorem mem_oldestFirst {action : Action} {actions : List Action} :
    action ∈ oldestFirst actions ↔ action ∈ actions :=
  List.mem_mergeSort

end Action

end Upkeep
