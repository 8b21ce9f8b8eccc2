import Upkeep.Reindex.Directory
import Upkeep.Reindex.Encoding

/-!
# The history of actions

Stores of actions, and the two that there are: one that keeps the actions in
memory, and one that keeps each action in a file of its own, named after the
action's id.  A file is always replaced as a whole: its new content is written
under a temporary name first.

## Main Definitions

* `Memory` — actions by id.
* `Files` — actions in a directory, opened by `Files.openAt`.
* `ActionStore` — either of them, with `create`, `update`, `load` and `history`.

## Design Notes

Writing to files is worth an entry in the log, so an operation that writes
answers with a `Saving`: its result, the store after it, and the events.
-/

namespace Upkeep

/-- Actions by id, in memory. -/
structure Memory where
  actions : List Action := []
  deriving DecidableEq, Repr, Inhabited

namespace Memory

/-- The action with an id. -/
def load (memory : Memory) (id : Uuid) : Option Action :=
  memory.actions.find? fun action => action.id == id

/-- The actions with one in the place of that of the same id. -/
def put (memory : Memory) (action : Action) : Memory :=
  if (memory.load action.id).isSome then
    ⟨memory.actions.map fun stored => if stored.id = action.id then action else stored⟩
  else ⟨memory.actions ++ [action]⟩

/-- Every action, in the order of histories. -/
def all (memory : Memory) : List Action := Action.oldestFirst memory.actions

/-- The actions on one index, in the order of histories. -/
def history (memory : Memory) (database index : String) : List Action :=
  Action.oldestFirst (memory.actions.filter fun action => action.concerns database index)

@[simp] theorem mem_history {memory : Memory} {database index : String} {action : Action} :
    action ∈ memory.history database index ↔
      action ∈ memory.actions ∧ action.concerns database index = true := by
  simp [history, Action.mem_oldestFirst]

end Memory

/-- Actions in a directory, each in a file of its own. -/
structure Files where
  directory : Directory := {}
  deriving DecidableEq, Repr

/-- What stands in the place where a store is opened. -/
inductive Place where
  | nothing
  /-- A file, in which no other file can be. -/
  | file
  | directory (directory : Directory)
  deriving DecidableEq, Repr

namespace Files

/-- The store in a place; if nothing is there then a directory is made. -/
def openAt : Place → Except StoreError Files
  | .nothing => .ok {}
  | .file => .error (.file .alreadyExists)
  | .directory directory => .ok ⟨directory⟩

/-- The name of an action's file. -/
def fileName (id : Uuid) : String := id.toText ++ ".bin"

/-- The name under which an action's file is first written. -/
def temporaryName (id : Uuid) : String := id.toText ++ ".tmp"

/-- Whether a file holds an action, by the end of its name; the end alone is no
name. -/
def isActionFile (name : String) : Bool :=
  let ending := ".bin".toList
  ending.isSuffixOf name.toList && ending.length < name.toList.length

/-- The action in a file, if there is such a file. -/
def readFile (files : Files) (name : String) : Except StoreError (Option Action) :=
  match files.directory.read name with
  | .ok bytes =>
      match Encoding.decode bytes with
      | .ok action => .ok (some action)
      | .error fault => .error (.serialization fault.message)
  | .error .notFound => .ok none
  | .error fault => .error (.file fault)

/-- The action with an id. -/
def load (files : Files) (id : Uuid) : Except StoreError (Option Action) :=
  files.readFile (fileName id)

/-- Replaces an action's file. -/
def write (files : Files) (action : Action) : Except StoreError Unit × Files :=
  match files.directory.replaceFile (temporaryName action.id) (fileName action.id)
      (Encoding.encode action) with
  | (.ok (), directory) => (.ok (), ⟨directory⟩)
  | (.error fault, directory) => (.error (.file fault), ⟨directory⟩)

/-- The actions in files of the given names. -/
def readAll (files : Files) : List String → Except StoreError (List Action)
  | [] => .ok []
  | name :: names => do
      let action? ← files.readFile name
      let actions ← files.readAll names
      return action?.toList ++ actions

/-- The actions on one index, in the order of histories; every action's file
must be readable for that. -/
def history (files : Files) (database index : String) : Except StoreError (List Action) := do
  let names ← files.directory.names.mapError .file
  let actions ← files.readAll (names.filter isActionFile)
  return Action.oldestFirst (actions.filter fun action => action.concerns database index)

end Files

/-- A store of actions. -/
inductive ActionStore where
  | memory (memory : Memory)
  | files (files : Files)
  deriving DecidableEq, Repr

namespace ActionStore

instance : Inhabited ActionStore := ⟨.memory {}⟩

/-- The result of writing to a store. -/
structure Saving where
  result : Except StoreError Unit
  store : ActionStore
  events : List Event := []

/-- An action has been written to its file. -/
def savedEvent (action : Action) : Event where
  level := .debug
  message := "Saved reindex action"
  fields := [("action_id", action.id.toText), ("state", action.state.word)]

/-- Replaces an action's file, with its entry in the log. -/
def saveFile (files : Files) (action : Action) : Saving :=
  match files.write action with
  | (.ok (), files) => { result := .ok (), store := .files files, events := [savedEvent action] }
  | (.error error, files) => { result := .error error, store := .files files }

/-- Writes a new action. -/
def create (store : ActionStore) (action : Action) : Saving :=
  match store with
  | memory m => { result := .ok (), store := .memory (m.put action) }
  | files f => saveFile f action

/-- Writes an action in the place of the one with its id, which there must be. -/
def update (store : ActionStore) (action : Action) : Saving :=
  match store with
  | memory m =>
      if (m.load action.id).isSome then { result := .ok (), store := .memory (m.put action) }
      else { result := .error (.notFound action.id), store := .memory m }
  | files f =>
      if f.directory.has (Files.fileName action.id) then saveFile f action
      else { result := .error (.notFound action.id), store := .files f }

/-- The action with an id. -/
def load (store : ActionStore) (id : Uuid) : Except StoreError (Option Action) :=
  match store with
  | memory m => .ok (m.load id)
  | files f => f.load id

/-- The actions on one index, in the order of histories. -/
def history (store : ActionStore) (database index : String) :
    Except StoreError (List Action) :=
  match store with
  | memory m => .ok (m.history database index)
  | files f => f.history database index

/-- Every action that the store keeps in memory. -/
def all (store : ActionStore) : List Action :=
  match store with
  | memory m => m.all
  | files _ => []

end ActionStore

end Upkeep
