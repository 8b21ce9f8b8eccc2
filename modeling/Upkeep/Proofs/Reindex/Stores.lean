import Mathlib.Data.List.Nodup
import Upkeep.Proofs.Reindex.Directory
import Upkeep.Proofs.Reindex.Encoding
import Upkeep.Reindex.History

/-!
# Actions in files and actions in memory

The two stores of actions give the same answers, histories up to the order of actions that started
together.  A directory that a store writes alone
holds one file for each action in memory: its name is made from the action's id, no two ids
have the same one, its content is the action's bytes, and a temporary file is there only
while an action is written.

## Main Definitions

* `StoreCall`, `ActionStore.serve`, `ActionStore.answers` — a store that is called time and
  again, and reopened in between.
* `Files.Mirrors` — the directory holds what the memory holds.

## Main Results

* `Files.Mirrors.serve` — a call is answered in the same way by both, and the directory still
  holds what the memory holds.
* `ActionStore.answers_openAt` — a store opened in an empty directory answers every sequence of
  calls as the store in memory does.
-/

namespace Upkeep

/-! ### The names of files -/

namespace Files

/-- No two actions have the same file. -/
theorem fileName_inj {a b : Uuid} : fileName a = fileName b ↔ a = b := by
  refine ⟨fun same => ?_, congrArg fileName⟩
  have lists : a.toText.toList ++ ".bin".toList = b.toText.toList ++ ".bin".toList := by
    simpa [fileName] using congrArg String.toList same
  exact Uuid.toText_inj.1 (String.toList_injective (List.append_cancel_right lists))

/-- A temporary file is not mistaken for that of an action. -/
theorem fileName_ne_temporaryName (a b : Uuid) : fileName a ≠ temporaryName b := by
  intro same
  have lists : a.toText.toList ++ ".bin".toList = b.toText.toList ++ ".tmp".toList := by
    simpa [fileName, temporaryName] using congrArg String.toList same
  exact absurd (List.append_inj_right' lists rfl) (by decide)

theorem isActionFile_fileName (id : Uuid) : isActionFile (fileName id) = true := by
  have named : 0 < id.toText.toList.length := by simp [Uuid.toText]
  have form : (fileName id).toList = id.toText.toList ++ ".bin".toList := by simp [fileName]
  simp only [isActionFile, form, Bool.and_eq_true, decide_eq_true_eq, List.length_append]
  exact ⟨List.isSuffixOf_iff_suffix.2 (List.suffix_append _ _), by omega⟩

end Files

/-! ### Memory as a function of ids -/

namespace Memory

variable {memory : Memory}

/-- The actions have different ids. -/
def IsDistinct (memory : Memory) : Prop := (memory.actions.map Action.id).Nodup

theorem mem_of_load {id : Uuid} {action : Action} (found : memory.load id = some action) :
    action ∈ memory.actions ∧ action.id = id :=
  ⟨List.mem_of_find?_eq_some found, by simpa using List.find?_some found⟩

/-- What is in memory after an action has been put there. -/
theorem mem_of_mem_put {action stored : Action} (mem : stored ∈ (memory.put action).actions) :
    stored = action ∨ stored ∈ memory.actions := by
  rw [put] at mem
  split at mem
  · obtain ⟨former, there, rfl⟩ := List.mem_map.1 mem
    split
    · exact .inl rfl
    · exact .inr there
  · exact (List.mem_append.1 mem).symm.imp List.mem_singleton.1 id

theorem load_eq_none_iff {id : Uuid} :
    memory.load id = none ↔ ∀ action ∈ memory.actions, action.id ≠ id := by
  simp [load, List.find?_eq_none]

/-- An action is loaded by its id. -/
theorem load_of_mem (distinct : memory.IsDistinct) {action : Action}
    (mem : action ∈ memory.actions) :
    memory.load action.id = some action := by
  cases found : memory.load action.id with
  | none => exact absurd rfl (load_eq_none_iff.1 found action mem)
  | some other =>
      obtain ⟨mem', same⟩ := mem_of_load found
      rw [List.inj_on_of_nodup_map distinct mem' mem same]

/-- Put in a place or at the end, the action is what its id stands for, and no other id is
affected. -/
theorem load_put (memory : Memory) (action : Action) (id : Uuid) :
    (memory.put action).load id = if id = action.id then some action else memory.load id := by
  let replace (stored : Action) : Action := if stored.id = action.id then action else stored
  have keepsId (stored : Action) : (replace stored).id = stored.id := by
    simp only [replace]
    split
    · exact Eq.symm ‹_›
    · rfl
  rw [put]
  split
  case isTrue there =>
    have replaced :
        (Memory.mk (memory.actions.map replace)).load id = (memory.load id).map replace := by
      simp only [load, List.find?_map, Function.comp_def, keepsId]
    rw [replaced]
    split
    case isTrue same =>
      subst same
      obtain ⟨stored, found⟩ := Option.isSome_iff_exists.1 there
      simp [found, replace, (mem_of_load found).2]
    case isFalse other =>
      cases found : memory.load id with
      | none => rfl
      | some stored =>
          have ne : stored.id ≠ action.id := (mem_of_load found).2 ▸ other
          simp [replace, ne]
  case isFalse absent =>
    have missing : memory.load action.id = none := Option.not_isSome_iff_eq_none.1 absent
    split
    case isTrue same =>
      subst same
      have before : memory.actions.find? (fun stored => stored.id == action.id) = none := missing
      simp [load, List.find?_append, before]
    case isFalse other =>
      have skipped : (action.id == id) = false := beq_false_of_ne (Ne.symm other)
      simp [load, List.find?_append, skipped]

theorem IsDistinct.put (distinct : memory.IsDistinct) (action : Action) :
    (memory.put action).IsDistinct := by
  rw [Memory.put]
  split
  case isTrue =>
    have ids : (memory.actions.map fun stored =>
        if stored.id = action.id then action else stored).map Action.id =
        memory.actions.map Action.id := by
      rw [List.map_map]
      refine List.map_congr_left fun stored _ => ?_
      by_cases same : stored.id = action.id <;> simp [same]
    rwa [IsDistinct, ids]
  case isFalse absent =>
    have missing := load_eq_none_iff.1 (Option.not_isSome_iff_eq_none.1 absent)
    rw [IsDistinct, List.map_append, List.map_singleton, List.nodup_append_comm]
    refine List.nodup_cons.2 ⟨fun mem => ?_, distinct⟩
    obtain ⟨stored, mem, same⟩ := List.mem_map.1 mem
    exact missing stored mem same

end Memory

/-! ### The order of histories -/

namespace Action

theorem comesFirst_iff {a b : Action} : comesFirst a b = true ↔ a.started.toNat < b.started.toNat ∨
    a.started.toNat = b.started.toNat ∧ a.id.bits.toNat ≤ b.id.bits.toNat := by
  have ids : (compare a.id b.id).isLE = true ↔ a.id.bits.toNat ≤ b.id.bits.toNat :=
    Nat.isLE_compare
  simp [comesFirst, ids, UInt64.lt_iff_toNat_lt, ← UInt64.toNat_inj]

/-- Histories of the same actions are equal if no two actions have the same id. -/
theorem oldestFirst_of_perm {former latter : List Action} (perm : former.Perm latter)
    (distinct : (latter.map Action.id).Nodup) : oldestFirst former = oldestFirst latter := by
  have sorted (actions : List Action) :
      (oldestFirst actions).Pairwise fun a b => comesFirst a b = true :=
    List.pairwise_mergeSort
      (fun a b c => by simp only [comesFirst_iff]; omega)
      (fun a b => by simp only [Bool.or_eq_true, comesFirst_iff]; omega) actions
  have same : (oldestFirst former).Perm (oldestFirst latter) :=
    (List.mergeSort_perm former comesFirst).trans
      (perm.trans (List.mergeSort_perm latter comesFirst).symm)
  refine same.eq_of_pairwise (fun a b ha hb ab ba => ?_) (sorted former) (sorted latter)
  have ids : a.id = b.id := by
    rw [comesFirst_iff] at ab ba
    exact Uuid.ext (BitVec.eq_of_toNat_eq (by omega))
  exact List.inj_on_of_nodup_map distinct (perm.mem_iff.1 (mem_oldestFirst.1 ha))
    (mem_oldestFirst.1 hb) ids

end Action

/-! ### A directory that holds what the memory holds -/

namespace Files

/-- Every action in memory has its file, and there are no other files. -/
structure Mirrors (files : Files) (memory : Memory) : Prop where
  isOrdered : files.directory.IsOrdered
  find? : ∀ id, files.directory.find? (fileName id) =
    (memory.load id).map fun action => .file (Encoding.encode action)
  named : ∀ name, (files.directory.find? name).isSome → ∃ id, name = fileName id
  isDistinct : memory.IsDistinct
  isStorable : ∀ action ∈ memory.actions, action.IsStorable

namespace Mirrors

variable {files : Files} {memory : Memory}

/-- Nothing is in an empty directory or in an empty memory. -/
theorem empty : Mirrors {} {} where
  isOrdered := ⟨[], rfl, .nil⟩
  find? _ := rfl
  named _ there := absurd there (by simp [Directory.find?, Directory.entries])
  isDistinct := .nil
  isStorable _ mem := absurd mem List.not_mem_nil

/-- A file that is there is read as the action in memory. -/
theorem readFile (mirrors : files.Mirrors memory) (id : Uuid) :
    files.readFile (fileName id) = .ok (memory.load id) := by
  have there := mirrors.find? id
  cases found : memory.load id with
  | none => simp [Files.readFile, Directory.read, there, found]
  | some action =>
      have storable := mirrors.isStorable action (Memory.mem_of_load found).1
      have decoded := Encoding.decode_encode storable
      simp [Files.readFile, Directory.read, there, found, decoded]

theorem has (mirrors : files.Mirrors memory) (id : Uuid) :
    files.directory.has (fileName id) = (memory.load id).isSome := by
  simp [Directory.has, mirrors.find? id]

/-- No temporary file is left. -/
theorem find?_temporaryName (mirrors : files.Mirrors memory) (id : Uuid) :
    files.directory.find? (temporaryName id) = none := by
  refine Option.not_isSome_iff_eq_none.1 fun there => ?_
  obtain ⟨other, same⟩ := mirrors.named _ there
  exact fileName_ne_temporaryName other id same.symm

/-- An action is written to its file as it is put in memory. -/
theorem write (mirrors : files.Mirrors memory) {action : Action} (storable : action.IsStorable) :
    ∃ after, files.write action = (.ok (), after) ∧ after.Mirrors (memory.put action) := by
  have temporaryFree : files.directory.IsFree (temporaryName action.id) := by
    simp [Directory.IsFree, mirrors.find?_temporaryName]
  have free : files.directory.IsFree (fileName action.id) := by
    simp [Directory.IsFree, mirrors.find?]
  obtain ⟨directory, replaced, ordered, find⟩ := Directory.replaceFile_of_isFree mirrors.isOrdered
    (Encoding.encode action) (fileName_ne_temporaryName action.id action.id).symm temporaryFree free
  refine ⟨⟨directory⟩, by simp [Files.write, replaced], ordered, fun id => ?_, fun name there => ?_,
    mirrors.isDistinct.put action, fun stored mem => ?_⟩
  · simp only [find, fileName_inj, fileName_ne_temporaryName, if_false, Memory.load_put,
      mirrors.find?]
    split <;> rfl
  · rw [find] at there
    split at there
    · exact ⟨action.id, ‹_›⟩
    · split at there
      · simp at there
      · exact mirrors.named name there
  · obtain rfl | mem := Memory.mem_of_mem_put mem
    · exact storable
    · exact mirrors.isStorable stored mem

/-- The files of the listed names hold the actions in memory, each of them once. -/
theorem readAll (mirrors : files.Mirrors memory) {names : List String}
    (there : ∀ name ∈ names, (files.directory.find? name).isSome) :
    ∃ actions, files.readAll names = .ok actions ∧
      actions.map (fun action => fileName action.id) = names ∧
      ∀ action ∈ actions, memory.load action.id = some action := by
  induction names with
  | nil => exact ⟨[], rfl, rfl, fun _ mem => absurd mem List.not_mem_nil⟩
  | cons name names ih =>
      obtain ⟨actions, read, named, stored⟩ :=
        ih fun n mem => there n (List.mem_cons_of_mem name mem)
      have found := there name List.mem_cons_self
      obtain ⟨id, rfl⟩ := mirrors.named name found
      rw [mirrors.find? id, Option.isSome_map] at found
      obtain ⟨action, loaded⟩ := Option.isSome_iff_exists.1 found
      have same : action.id = id := (Memory.mem_of_load loaded).2
      refine ⟨action :: actions, ?_, by simp [named, same], fun a mem => ?_⟩
      · simp only [Files.readAll, mirrors.readFile, loaded, read]
        rfl
      · obtain rfl | mem := List.mem_cons.1 mem
        · rwa [same]
        · exact stored a mem

/-- Every action's file is listed and read for a history, in whatever order, and the order of
histories makes up for that. -/
theorem history (mirrors : files.Mirrors memory) (database index : String) :
    files.history database index = .ok (memory.history database index) := by
  obtain ⟨names, listed, distinct, mem_names⟩ := mirrors.isOrdered.names
  obtain ⟨actions, read, named, stored⟩ := mirrors.readAll fun name => (mem_names name).1
  have actionFiles : names.filter isActionFile = names := by
    refine List.filter_eq_self.2 fun name mem => ?_
    obtain ⟨id, rfl⟩ := mirrors.named name ((mem_names name).1 mem)
    exact isActionFile_fileName id
  have perm : actions.Perm memory.actions := by
    refine (List.perm_ext_iff_of_nodup (.of_map _ (named ▸ distinct))
      (.of_map _ mirrors.isDistinct)).2
      fun action => ⟨fun mem => (Memory.mem_of_load (stored action mem)).1, fun mem => ?_⟩
    have loaded := Memory.load_of_mem mirrors.isDistinct mem
    have inNames : fileName action.id ∈ names := by
      rw [mem_names, mirrors.find?, loaded]
      rfl
    obtain ⟨other, mem', same⟩ := List.mem_map.1 (named ▸ inNames)
    have loaded' := stored other mem'
    rw [fileName_inj.1 same, loaded] at loaded'
    exact Option.some.inj loaded' ▸ mem'
  have distinct' : ((memory.actions.filter fun action => action.concerns database index).map
      Action.id).Nodup := mirrors.isDistinct.sublist (List.filter_sublist.map _)
  simp only [Files.history, listed, Except.mapError, bind, Except.bind, actionFiles, read,
    Memory.history]
  exact congrArg Except.ok (Action.oldestFirst_of_perm (perm.filter _) distinct')

end Mirrors

end Files

/-! ### Stores that are called time and again -/

/-- A call of a store, or the store opened once more. -/
inductive StoreCall where
  | create (action : Action)
  | update (action : Action)
  | load (id : Uuid)
  | history (database index : String)
  | reopen

/-- What a store answers. -/
inductive StoreAnswer where
  | done (result : Except StoreError Unit)
  | loaded (result : Except StoreError (Option Action))
  | listed (result : Except StoreError (List Action))

/-- What the call writes can be read back. -/
def StoreCall.IsStorable : StoreCall → Prop
  | create action => action.IsStorable
  | update action => action.IsStorable
  | _ => True

/-- Whether there is as yet nothing in a place. -/
def Place.IsFresh (place : Place) : Prop := place = .nothing ∨ place = .directory {}

namespace ActionStore

/-- The store opened once more; what is in memory stays there. -/
def reopen : ActionStore → Except StoreError ActionStore
  | memory m => .ok (memory m)
  | files f => (Files.openAt (.directory f.directory)).map files

/-- The answer to a call, and the store after it. -/
def serve (store : ActionStore) : StoreCall → StoreAnswer × ActionStore
  | .create action => (.done (store.create action).result, (store.create action).store)
  | .update action => (.done (store.update action).result, (store.update action).store)
  | .load id => (.loaded (store.load id), store)
  | .history database index => (.listed (store.history database index), store)
  | .reopen =>
      match store.reopen with
      | .ok reopened => (.done (.ok ()), reopened)
      | .error error => (.done (.error error), store)

/-- The answers to some calls, one after the other. -/
def answers (store : ActionStore) : List StoreCall → List StoreAnswer
  | [] => []
  | call :: calls => (store.serve call).1 :: (store.serve call).2.answers calls

end ActionStore

/-- The files and the memory answer a call in the same way, and the files still hold what the
memory holds. -/
theorem Files.Mirrors.serve {f : Files} {m : Memory} (mirrors : f.Mirrors m) {call : StoreCall}
    (storable : call.IsStorable) :
    ∃ answer f' m', (ActionStore.files f).serve call = (answer, .files f') ∧
      (ActionStore.memory m).serve call = (answer, .memory m') ∧ f'.Mirrors m' := by
  cases call with
  | create action =>
      obtain ⟨f', written, mirrors'⟩ := mirrors.write storable
      refine ⟨.done (.ok ()), f', m.put action, ?_, rfl, mirrors'⟩
      simp [ActionStore.serve, ActionStore.create, ActionStore.saveFile, written]
  | update action =>
      cases there : (m.load action.id).isSome with
      | true =>
          obtain ⟨f', written, mirrors'⟩ := mirrors.write storable
          refine ⟨.done (.ok ()), f', m.put action, ?_, ?_, mirrors'⟩
          · simp [ActionStore.serve, ActionStore.update, ActionStore.saveFile, mirrors.has, there,
              written]
          · simp [ActionStore.serve, ActionStore.update, there]
      | false =>
          refine ⟨.done (.error (.notFound action.id)), f, m, ?_, ?_, mirrors⟩
          · simp [ActionStore.serve, ActionStore.update, mirrors.has, there]
          · simp [ActionStore.serve, ActionStore.update, there]
  | load id =>
      refine ⟨.loaded (.ok (m.load id)), f, m, ?_, rfl, mirrors⟩
      simp [ActionStore.serve, ActionStore.load, Files.load, mirrors.readFile]
  | history database index =>
      refine ⟨.listed (.ok (m.history database index)), f, m, ?_, rfl, mirrors⟩
      simp [ActionStore.serve, ActionStore.history, mirrors.history]
  | reopen => exact ⟨.done (.ok ()), f, m, rfl, rfl, mirrors⟩

/-- So they do for every sequence of calls. -/
theorem Files.Mirrors.answers {f : Files} {m : Memory} (mirrors : f.Mirrors m)
    {calls : List StoreCall} (storable : ∀ call ∈ calls, call.IsStorable) :
    (ActionStore.files f).answers calls = (ActionStore.memory m).answers calls := by
  induction calls generalizing f m with
  | nil => rfl
  | cons call calls ih =>
      obtain ⟨answer, f', m', inFiles, inMemory, mirrors'⟩ :=
        mirrors.serve (storable call List.mem_cons_self)
      simp only [ActionStore.answers, inFiles, inMemory]
      rw [ih mirrors' fun c mem => storable c (List.mem_cons_of_mem call mem)]

/-- A store of files that is opened where nothing is as yet gives the same answers to every
sequence of calls as a store in memory, however often it is opened again in between.  Histories
are the same up to the order of actions that started together: neither store has a particular order
for them, and both sides are taken in the order that ids give. -/
theorem ActionStore.answers_openAt {place : Place} (fresh : place.IsFresh) {calls : List StoreCall}
    (storable : ∀ call ∈ calls, call.IsStorable) :
    ∃ f, Files.openAt place = .ok f ∧
      (ActionStore.files f).answers calls = (ActionStore.memory {}).answers calls := by
  obtain rfl | rfl := fresh
  · exact ⟨{}, rfl, Files.Mirrors.empty.answers storable⟩
  · exact ⟨{}, rfl, Files.Mirrors.empty.answers storable⟩

/-- An action with a text that is not ASCII is written twice, loaded after the store has been
opened again, and listed; an update of an id that no action has is refused. -/
theorem ActionStore.answers_openAt_twice :
    let first : Action :=
      { id := .ofNat 1, database := "main", index := "public.événements", state := .running,
        started := 5, ended := none, sizeBefore := 1024, sizeAfter := none, bloatBefore := some 7,
        error := none }
    let second : Action := { first with state := .failed, ended := some 9, error := some "refused" }
    let calls : List StoreCall :=
      [.create first, .reopen, .create second, .update { first with id := .ofNat 2 },
        .reopen, .load (.ofNat 1), .history "main" "public.événements"]
    (∀ call ∈ calls, call.IsStorable) ∧ Place.nothing.IsFresh ∧
      ∃ f, Files.openAt .nothing = .ok f ∧
        (ActionStore.files f).answers calls = (ActionStore.memory {}).answers calls ∧
        (ActionStore.memory {}).answers calls =
          [.done (.ok ()), .done (.ok ()), .done (.ok ()), .done (.error (.notFound (.ofNat 2))),
            .done (.ok ()), .loaded (.ok (some second)), .listed (.ok [second])] := by
  intro first second calls
  have storable : ∀ call ∈ calls, call.IsStorable := by
    have main : Text.IsCountable "main" := by decide
    have events : Text.IsCountable "public.événements" := by decide
    have refused : Text.IsCountable "refused" := by decide
    have started : first.IsStorable := ⟨main, events, fun _ given => nomatch given⟩
    have ended : second.IsStorable := ⟨main, events, by rintro _ ⟨⟩; exact refused⟩
    have other : ({ first with id := .ofNat 2 } : Action).IsStorable :=
      ⟨main, events, fun _ given => nomatch given⟩
    simp [calls, StoreCall.IsStorable, started, ended, other]
  obtain ⟨f, opened, same⟩ := ActionStore.answers_openAt (.inl rfl) storable
  refine ⟨storable, .inl rfl, f, opened, same, ?_⟩
  have unknown : (Uuid.ofNat 1 == Uuid.ofNat 2) = false := by decide
  simp [calls, first, second, answers, serve, create, update, load, history, reopen, Memory.put,
    Memory.load, Memory.history, Action.concerns, Action.oldestFirst, unknown]

end Upkeep
