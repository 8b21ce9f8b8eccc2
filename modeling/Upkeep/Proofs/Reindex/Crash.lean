import Upkeep.Proofs.Reindex.Stores

/-!
# Writes that are cut short

A process may stop at any moment while it writes an action: before a step, after it, or when only
a part of the content has been written.  Whoever opens the store again finds the action as it was
before or as it should have become, and everything else as it was.  What may be left of the write
is a temporary file, on which no answer depends and which the next write makes empty.

## Main Definitions

* `CutShort` — what is done of some steps when the process stops.
* `StoreCall.steps`, `Files.stopped` — the steps that a call takes, and the files after some of
  them.
* `Files.Reached` — what a store may come to, with calls that were cut short among the others.
* `Files.swept` — the files without those that are no action's.
* `Action.renew` — a history after one of its actions was written anew.

## Main Results

* `Files.load_swept`, `Files.history_swept` — no answer depends on temporary files.
* `Files.Survives.cutShort` — one call, cut short anywhere.
* `Files.crash_atomic` — the old version or the new one, in every answer.

## Design Notes

Up to the last step only the temporary file has changed, and after it the action's file is
complete.  So the invariant is that of a store whose calls were never cut short, for the files that
are left when the temporary ones are swept away.
-/

namespace Upkeep

/-! ### Steps that are cut short -/

/-- What is done of some steps when the process stops: some of them, and perhaps a part of what
was to be written by the next one. -/
inductive CutShort : List FileStep → List FileStep → Prop
  /-- The process stops before the next step. -/
  | here (steps : List FileStep) : CutShort steps []
  /-- The process stops while it writes. -/
  | within {name : String} {bytes part : List UInt8} {steps : List FileStep}
      (started : part <+: bytes) : CutShort (.append name bytes :: steps) [.append name part]
  /-- The process goes on after a step. -/
  | later {steps done : List FileStep} (step : FileStep) (cut : CutShort steps done) :
      CutShort (step :: steps) (step :: done)

/-- A process that does not stop takes all steps. -/
theorem CutShort.all (steps : List FileStep) : CutShort steps steps := by
  induction steps with
  | nil => exact .here []
  | cons step steps ih => exact .later step ih

/-- The step writes to a file that is there, and to no other. -/
def FileStep.Fills (name : String) : FileStep → Prop
  | .append name' _ => name' = name
  | .sync name' => name' = name
  | _ => False

/-- Of the steps that replace a file none is taken, or those that write the temporary file, or
all. -/
theorem CutShort.of_replaceSteps {temporary name : String} {bytes : List UInt8}
    {done : List FileStep} (cut : CutShort (Directory.replaceSteps temporary name bytes) done) :
    done = [] ∨
      (∃ filling, done = .create temporary :: filling ∧
        ∀ step ∈ filling, step.Fills temporary) ∨
      done = Directory.replaceSteps temporary name bytes := by
  cases cut with
  | here => exact .inl rfl
  | later _ cut =>
    cases cut with
    | here => exact .inr (.inl ⟨[], rfl, by simp⟩)
    | within => exact .inr (.inl ⟨_, rfl, by simp [FileStep.Fills]⟩)
    | later _ cut =>
      cases cut with
      | here => exact .inr (.inl ⟨_, rfl, by simp [FileStep.Fills]⟩)
      | later _ cut =>
        cases cut with
        | here => exact .inr (.inl ⟨_, rfl, by simp [FileStep.Fills]⟩)
        | later _ cut =>
          cases cut
          exact .inr (.inr rfl)

namespace Directory

variable {directory : Directory} {name temporary : String}

/-- What is written to a file that is there is added to it, and no other name is affected. -/
theorem takeAll_of_fills (ordered : directory.IsOrdered) {bytes : List UInt8}
    (there : directory.find? temporary = some (.file bytes)) {filling : List FileStep}
    (fills : ∀ step ∈ filling, step.Fills temporary) :
    (directory.takeAll filling).2.IsOrdered ∧
      ∃ bytes', ∀ name, (directory.takeAll filling).2.find? name =
        if name = temporary then some (.file bytes') else directory.find? name := by
  induction filling generalizing directory bytes with
  | nil =>
      refine ⟨ordered, bytes, fun name => ?_⟩
      split
      · next same => rw [same]; exact there
      · rfl
  | cons step filling ih =>
      obtain ⟨hstep, hrest⟩ := List.forall_mem_cons.1 fills
      have read : directory.read temporary = .ok bytes := by simp [Directory.read, there]
      cases step with
      | create name => exact hstep.elim
      | rename old new => exact hstep.elim
      | sync name =>
          obtain rfl : name = temporary := hstep
          have taken : directory.take (.sync name) = .ok directory := by
            simp only [take, read]
            rfl
          simp only [takeAll, taken]
          exact ih ordered there hrest
      | append name more =>
          obtain rfl : name = temporary := hstep
          have taken : directory.take (.append name more) =
              .ok (directory.insert name (.file (bytes ++ more))) := by
            simp only [take, read]
            rfl
          have find (name' : String) :=
            find?_insert ordered.isSome name name' (.file (bytes ++ more))
          obtain ⟨ordered', bytes', find'⟩ :=
            ih (ordered.insert name _) ((find name).trans (if_pos rfl)) hrest
          simp only [takeAll, taken]
          refine ⟨ordered', bytes', fun name' => ?_⟩
          rw [find', find]
          split <;> rfl

/-- Until the temporary file gets its name, no other name is affected. -/
theorem takeAll_create_of_fills (ordered : directory.IsOrdered)
    (free : directory.IsFree temporary) {filling : List FileStep}
    (fills : ∀ step ∈ filling, step.Fills temporary) :
    (directory.takeAll (.create temporary :: filling)).2.IsOrdered ∧
      ∃ bytes, ∀ name, (directory.takeAll (.create temporary :: filling)).2.find? name =
        if name = temporary then some (.file bytes) else directory.find? name := by
  have find (name : String) := find?_insert ordered.isSome temporary name (.file [])
  obtain ⟨ordered', bytes, find'⟩ := takeAll_of_fills (ordered.insert temporary (.file []))
    ((find temporary).trans (if_pos rfl)) fills
  simp only [takeAll, take_create ordered free]
  refine ⟨ordered', bytes, fun name => ?_⟩
  rw [find', find]
  split <;> rfl

/-- The directory with those names alone that pass. -/
def filter (directory : Directory) (p : String → Bool) : Directory :=
  ⟨directory.entries?.map fun entries => entries.filter fun entry => p entry.1⟩

theorem find?_filter (directory : Directory) (p : String → Bool) (name : String) :
    (directory.filter p).find? name = if p name = true then directory.find? name else none := by
  obtain ⟨none | entries⟩ := directory
  · simp [find?, filter, entries]
  · exact lookup_filter p name entries

theorem IsOrdered.filter (ordered : directory.IsOrdered) (p : String → Bool) :
    (directory.filter p).IsOrdered := by
  obtain ⟨entries, there, pairwise⟩ := ordered
  exact ⟨entries.filter fun entry => p entry.1, by simp [Directory.filter, there],
    pairwise.filter _⟩

theorem names_filter (directory : Directory) (p : String → Bool) :
    (directory.filter p).names = directory.names.map (·.filter p) := by
  obtain ⟨none | entries⟩ := directory
  · rfl
  · simp [names, filter, Except.map, List.filter_map, Function.comp_def]

end Directory

/-! ### Temporary files -/

namespace Files

theorem isActionFile_temporaryName (id : Uuid) : isActionFile (temporaryName id) = false := by
  have form : (temporaryName id).toList = id.toText.toList ++ ".tmp".toList := by
    simp [temporaryName]
  have other : ¬ ".bin".toList <:+ id.toText.toList ++ ".tmp".toList := by
    intro suffix
    obtain ⟨front, same⟩ := suffix
    exact absurd (List.append_inj_right' same rfl) (by decide)
  simp only [isActionFile, form, Bool.and_eq_false_iff]
  exact .inl (Bool.eq_false_iff.2 fun suffix => other (List.isSuffixOf_iff_suffix.1 suffix))

/-- The files without those that are no action's. -/
def swept (files : Files) : Files := ⟨files.directory.filter isActionFile⟩

theorem find?_swept (files : Files) (name : String) :
    files.swept.directory.find? name =
      if isActionFile name = true then files.directory.find? name else none :=
  Directory.find?_filter ..

theorem readFile_swept (files : Files) {name : String} (h : isActionFile name = true) :
    files.swept.readFile name = files.readFile name := by
  simp only [readFile, Directory.read, find?_swept, h, if_true]

theorem has_of_load {files : Files} {id : Uuid} {action : Action}
    (loads : files.load id = .ok (some action)) : files.directory.has (fileName id) = true := by
  rw [Directory.has, Option.isSome_iff_ne_none]
  intro gone
  simp [load, readFile, Directory.read, gone] at loads

/-- What is loaded does not depend on temporary files. -/
theorem load_swept (files : Files) (id : Uuid) : files.swept.load id = files.load id :=
  files.readFile_swept (isActionFile_fileName id)

theorem readAll_swept (files : Files) {names : List String}
    (h : ∀ name ∈ names, isActionFile name = true) :
    files.swept.readAll names = files.readAll names := by
  induction names with
  | nil => rfl
  | cons name names ih =>
      obtain ⟨hname, hnames⟩ := List.forall_mem_cons.1 h
      simp only [readAll, files.readFile_swept hname, ih hnames]

/-- Nor do histories. -/
theorem history_swept (files : Files) (database index : String) :
    files.swept.history database index = files.history database index := by
  have listed : files.swept.directory.names = files.directory.names.map (·.filter isActionFile) :=
    Directory.names_filter ..
  unfold history
  rw [listed]
  match files.directory.names with
  | .error fault => rfl
  | .ok names =>
      have twice : (names.filter isActionFile).filter isActionFile = names.filter isActionFile := by
        simp
      simp only [Except.map, Except.mapError, bind, Except.bind, twice]
      rw [files.readAll_swept fun name mem => (List.mem_filter.1 mem).2]

/-- A directory in which every name stands for the same holds the same. -/
theorem Mirrors.of_find? {files after : Files} {memory : Memory} (mirrors : files.Mirrors memory)
    (ordered : after.directory.IsOrdered)
    (same : ∀ name, after.directory.find? name = files.directory.find? name) :
    after.Mirrors memory where
  isOrdered := ordered
  find? id := (same _).trans (mirrors.find? id)
  named name there := mirrors.named name (same name ▸ there)
  isDistinct := mirrors.isDistinct
  isStorable := mirrors.isStorable

/-! ### Files that survive -/

/-- The files of actions hold what the memory holds, and whatever else is there is a temporary
file. -/
structure Survives (files : Files) (memory : Memory) : Prop where
  isOrdered : files.directory.IsOrdered
  mirrors : files.swept.Mirrors memory
  temporary : ∀ name, (files.directory.find? name).isSome → isActionFile name = false →
    ∃ id bytes, name = temporaryName id ∧ files.directory.find? name = some (.file bytes)

namespace Survives

variable {files : Files} {memory : Memory}

/-- Where nothing was cut short there are no temporary files. -/
theorem of_mirrors (mirrors : files.Mirrors memory) : files.Survives memory where
  isOrdered := mirrors.isOrdered
  mirrors := by
    refine mirrors.of_find? (mirrors.isOrdered.filter isActionFile) fun name => ?_
    rw [find?_swept]
    split
    · rfl
    · next other =>
        refine (Option.not_isSome_iff_eq_none.1 fun there => other ?_).symm
        obtain ⟨id, rfl⟩ := mirrors.named name there
        exact isActionFile_fileName id
  temporary name there other := by
    obtain ⟨id, rfl⟩ := mirrors.named name there
    rw [isActionFile_fileName] at other
    cases other

theorem load (survives : files.Survives memory) (id : Uuid) :
    files.load id = .ok (memory.load id) := by
  rw [← load_swept]
  exact survives.mirrors.readFile id

theorem history (survives : files.Survives memory) (database index : String) :
    files.history database index = .ok (memory.history database index) := by
  rw [← history_swept]
  exact survives.mirrors.history database index

theorem find?_fileName (survives : files.Survives memory) (id : Uuid) :
    files.directory.find? (fileName id) =
      (memory.load id).map fun action => .file (Encoding.encode action) := by
  rw [← survives.mirrors.find? id, find?_swept, if_pos (isActionFile_fileName id)]

theorem isFree_fileName (survives : files.Survives memory) (id : Uuid) :
    files.directory.IsFree (fileName id) := by
  rw [Directory.IsFree, survives.find?_fileName]
  cases memory.load id <;> simp

theorem isFree_temporaryName (survives : files.Survives memory) (id : Uuid) :
    files.directory.IsFree (temporaryName id) := by
  intro folder
  obtain ⟨_, bytes, -, file⟩ := survives.temporary (temporaryName id) (by simp [folder])
    (isActionFile_temporaryName id)
  rw [folder] at file
  cases file

/-- A temporary file that comes or changes makes no difference. -/
theorem of_temporary (survives : files.Survives memory) {after : Files} (id : Uuid)
    (ordered : after.directory.IsOrdered) {bytes : List UInt8}
    (find : ∀ name, after.directory.find? name =
      if name = temporaryName id then some (.file bytes) else files.directory.find? name) :
    after.Survives memory where
  isOrdered := ordered
  mirrors := by
    refine survives.mirrors.of_find? (ordered.filter isActionFile) fun name => ?_
    rw [find?_swept, find?_swept]
    split
    · next actionFile =>
        refine (find name).trans (if_neg fun same => ?_)
        rw [same, isActionFile_temporaryName] at actionFile
        cases actionFile
    · rfl
  temporary name there other := by
    by_cases same : name = temporaryName id
    · exact ⟨id, bytes, same, (find name).trans (if_pos same)⟩
    · have elsewhere := (find name).trans (if_neg same)
      rw [elsewhere] at there ⊢
      exact survives.temporary name there other

/-- A file that was replaced holds its new action, and its temporary file is gone. -/
theorem of_replaced (survives : files.Survives memory) {after : Files} {action : Action}
    (storable : action.IsStorable) (ordered : after.directory.IsOrdered)
    (find : ∀ name, after.directory.find? name =
      if name = fileName action.id then some (.file (Encoding.encode action))
      else if name = temporaryName action.id then none else files.directory.find? name) :
    after.Survives (memory.put action) where
  isOrdered := ordered
  mirrors := by
    -- The same action is written to the swept files, in which no call was ever cut short.
    obtain ⟨clean, written, mirrors⟩ := survives.mirrors.write storable
    have temporaryFree : files.swept.directory.IsFree (temporaryName action.id) := by
      simp [Directory.IsFree, find?_swept, isActionFile_temporaryName]
    have free : files.swept.directory.IsFree (fileName action.id) := by
      simpa [Directory.IsFree, find?_swept, isActionFile_fileName] using
        survives.isFree_fileName action.id
    obtain ⟨directory, replaced, -, findClean⟩ := Directory.replaceFile_of_isFree
      survives.mirrors.isOrdered (Encoding.encode action)
      (fileName_ne_temporaryName action.id action.id).symm temporaryFree free
    obtain rfl : clean = ⟨directory⟩ := by
      simp only [write, replaced] at written
      exact (congrArg Prod.snd written).symm
    refine mirrors.of_find? (ordered.filter isActionFile) fun name => ?_
    show (after.swept.directory).find? name = directory.find? name
    rw [find?_swept, find, findClean, find?_swept]
    by_cases own : name = fileName action.id
    · rw [if_pos own, if_pos own, own, if_pos (isActionFile_fileName _)]
    · by_cases temporary : name = temporaryName action.id
      · simp [temporary, isActionFile_temporaryName, (fileName_ne_temporaryName _ _).symm]
      · simp [own, temporary]
  temporary name there other := by
    have elsewhere : name ≠ fileName action.id := by
      rintro rfl
      rw [isActionFile_fileName] at other
      cases other
    have found := (find name).trans (if_neg elsewhere)
    by_cases gone : name = temporaryName action.id
    · rw [found, if_pos gone] at there
      cases there
    · rw [if_neg gone] at found
      rw [found] at there ⊢
      exact survives.temporary name there other

/-- An action can be written, whatever is left of earlier writes. -/
theorem write (survives : files.Survives memory) {action : Action}
    (storable : action.IsStorable) :
    ∃ after, files.write action = (.ok (), after) ∧ after.Survives (memory.put action) := by
  obtain ⟨directory, replaced, ordered, find⟩ := Directory.replaceFile_of_isFree
    survives.isOrdered (Encoding.encode action)
    (fileName_ne_temporaryName action.id action.id).symm
    (survives.isFree_temporaryName action.id) (survives.isFree_fileName action.id)
  exact ⟨⟨directory⟩, by simp [Files.write, replaced],
    survives.of_replaced storable ordered find⟩

end Survives

end Files

/-! ### Calls that are cut short -/

/-- The steps that a call takes to write. -/
def StoreCall.steps (files : Files) : StoreCall → List FileStep
  | create action => Directory.replaceSteps (Files.temporaryName action.id)
      (Files.fileName action.id) (Encoding.encode action)
  | update action =>
      if files.directory.has (Files.fileName action.id) then
        Directory.replaceSteps (Files.temporaryName action.id) (Files.fileName action.id)
          (Encoding.encode action)
      else []
  | _ => []

/-- The files after some steps. -/
def Files.stopped (files : Files) (done : List FileStep) : Files :=
  ⟨(files.directory.takeAll done).2⟩

/-- The step by which an action's file gets its name. -/
def Action.renaming (action : Action) : FileStep :=
  .rename (Files.temporaryName action.id) (Files.fileName action.id)

/-- Writing an action takes the steps that replace its file. -/
theorem Files.snd_write (files : Files) (action : Action) :
    (files.write action).2 = files.stopped ((StoreCall.create action).steps files) := by
  simp only [write, stopped, StoreCall.steps, Directory.replaceFile]
  generalize files.directory.takeAll _ = outcome
  obtain ⟨result, directory⟩ := outcome
  cases result <;> rfl

namespace ActionStore

theorem store_saveFile (f : Files) (action : Action) :
    (saveFile f action).store = files (f.stopped ((StoreCall.create action).steps f)) := by
  rw [← Files.snd_write, saveFile]
  generalize f.write action = outcome
  obtain ⟨result, after⟩ := outcome
  cases result <;> rfl

/-- A call takes its steps and changes nothing else. -/
theorem serve_eq_stopped (f : Files) (call : StoreCall) :
    ((files f).serve call).2 = files (f.stopped (call.steps f)) := by
  cases call with
  | create action => exact store_saveFile f action
  | update action =>
      simp only [serve, update, StoreCall.steps]
      split
      · exact store_saveFile f action
      · rfl
  | load id => rfl
  | history database index => rfl
  | reopen => rfl

end ActionStore

namespace Files

/-- **A call that is cut short** leaves what there was, and after the renaming it has put its
action. -/
theorem Survives.cutShort {files : Files} {memory : Memory} (survives : files.Survives memory)
    {call : StoreCall} (storable : call.IsStorable) {done : List FileStep}
    (cut : CutShort (call.steps files) done) :
    ∀ action, call = .create action ∨ call = .update action →
      (files.stopped done).Survives
        (if action.renaming ∈ done then memory.put action else memory) := by
  intro action writes
  have storableAction : action.IsStorable := by
    rcases writes with rfl | rfl <;> exact storable
  have steps : call.steps files = [] ∨
      call.steps files = (StoreCall.create action).steps files := by
    rcases writes with rfl | rfl
    · exact .inr rfl
    · simp only [StoreCall.steps]
      split
      · exact .inr rfl
      · exact .inl rfl
  rcases steps with steps | steps
  · rw [steps] at cut
    cases cut
    exact survives
  rw [steps] at cut
  rcases cut.of_replaceSteps with rfl | ⟨filling, rfl, fills⟩ | rfl
  · exact survives
  · have notYet : action.renaming ∉ FileStep.create (temporaryName action.id) :: filling := by
      intro mem
      rcases List.mem_cons.1 mem with same | mem
      · cases same
      · exact fills _ mem
    rw [if_neg notYet]
    obtain ⟨ordered, bytes, find⟩ := Directory.takeAll_create_of_fills survives.isOrdered
      (survives.isFree_temporaryName action.id) fills
    exact survives.of_temporary action.id ordered find
  · rw [if_pos (by simp [Directory.replaceSteps, Action.renaming])]
    obtain ⟨after, written, survives'⟩ := survives.write storableAction
    have stopped := snd_write files action
    rw [written] at stopped
    exact stopped ▸ survives'

/-- What a store may come to that was opened where nothing was as yet, with calls that were cut
short among the others; after each of these the store is opened again. -/
inductive Reached : Files → Prop
  | opened {place : Place} {files : Files} (fresh : place.IsFresh)
      (opens : openAt place = .ok files) : Reached files
  | served {files after : Files} {call : StoreCall} {answer : StoreAnswer} (reached : Reached files)
      (storable : call.IsStorable)
      (serves : (ActionStore.files files).serve call = (answer, .files after)) : Reached after
  | crashed {files reopened : Files} {call : StoreCall} {done : List FileStep}
      (reached : Reached files) (storable : call.IsStorable)
      (cut : CutShort (call.steps files) done)
      (opens : openAt (.directory (files.stopped done).directory) = .ok reopened) :
      Reached reopened

/-- A call that does not write changes nothing, however it ends. -/
private theorem stopped_of_steps_eq_nil {files : Files} {done : List FileStep}
    (cut : CutShort [] done) : files.stopped done = files := by
  cases cut
  rfl

/-- Whatever was cut short, the files of actions hold what some memory holds. -/
theorem Reached.survives {files : Files} (reached : files.Reached) :
    ∃ memory, files.Survives memory := by
  have cutShort : ∀ {files : Files} {call : StoreCall} {done : List FileStep},
      (∃ memory, files.Survives memory) → call.IsStorable → CutShort (call.steps files) done →
        ∃ memory, (files.stopped done).Survives memory := by
    rintro files call done ⟨memory, survives⟩ storable cut
    cases call with
    | create action => exact ⟨_, survives.cutShort storable cut action (.inl rfl)⟩
    | update action => exact ⟨_, survives.cutShort storable cut action (.inr rfl)⟩
    | _ => exact ⟨memory, stopped_of_steps_eq_nil cut ▸ survives⟩
  induction reached with
  | @opened place files fresh opens =>
      have empty : openAt place = .ok {} := by
        rcases fresh with rfl | rfl <;> rfl
      obtain rfl := Except.ok.inj (empty.symm.trans opens)
      exact ⟨{}, .of_mirrors .empty⟩
  | @served files after call answer _ storable serves ih =>
      have store := ActionStore.serve_eq_stopped files call
      rw [serves] at store
      obtain rfl := ActionStore.files.inj store
      exact cutShort ih storable (CutShort.all _)
  | crashed _ storable cut opens ih =>
      obtain rfl := Except.ok.inj opens
      exact cutShort ih storable cut

end Files

/-! ### What is found afterwards -/

/-- A history after one of its actions was written anew. -/
def Action.renew (action : Action) (database index : String) (history : List Action) :
    List Action :=
  oldestFirst (history.filter (fun stored => stored.id != action.id) ++
    if action.concerns database index then [action] else [])

namespace Memory

theorem mem_put_iff {memory : Memory} (distinct : memory.IsDistinct) {action stored : Action} :
    stored ∈ (memory.put action).actions ↔
      stored = action ∨ stored ∈ memory.actions ∧ stored.id ≠ action.id := by
  have byId {memory : Memory} (distinct : memory.IsDistinct) (stored : Action) :
      stored ∈ memory.actions ↔ memory.load stored.id = some stored :=
    ⟨load_of_mem distinct, fun loaded => (mem_of_load loaded).1⟩
  rw [byId (distinct.put action), byId distinct, load_put]
  by_cases same : stored.id = action.id
  · rw [if_pos same]
    constructor
    · intro h
      exact .inl (Option.some.inj h).symm
    · rintro (rfl | ⟨-, other⟩)
      · rfl
      · exact absurd same other
  · rw [if_neg same]
    constructor
    · intro h
      exact .inr ⟨h, same⟩
    · rintro (rfl | ⟨h, -⟩)
      · exact absurd rfl same
      · exact h

/-- An action that is put in memory is renewed in every history. -/
theorem history_put {memory : Memory} (distinct : memory.IsDistinct) (action : Action)
    (database index : String) :
    (memory.put action).history database index =
      action.renew database index (memory.history database index) := by
  have distinctBefore : (memory.history database index).Nodup :=
    .of_map Action.id (((List.mergeSort_perm _ Action.comesFirst).map Action.id).nodup_iff.2
      (distinct.sublist (List.filter_sublist.map _)))
  have distinctAfter := (distinct.put action).sublist
    ((List.filter_sublist (p := fun stored => stored.concerns database index)).map Action.id)
  refine (Action.oldestFirst_of_perm (List.Perm.symm ?_) distinctAfter).symm
  refine (List.perm_ext_iff_of_nodup (.of_map _ distinctAfter) ?_).2 fun stored => ?_
  · refine (distinctBefore.filter _).append ?_ fun stored mem mem' => ?_
    · split <;> simp
    · split at mem'
      · obtain rfl := List.mem_singleton.1 mem'
        simp at mem
      · cases mem'
  · rw [List.mem_filter, mem_put_iff distinct, List.mem_append, List.mem_filter, mem_history]
    by_cases concerns : action.concerns database index = true
    · simp only [concerns, if_true, List.mem_singleton, bne_iff_ne]
      constructor
      · rintro ⟨rfl | ⟨mem, other⟩, concerned⟩
        · exact .inr rfl
        · exact .inl ⟨⟨mem, concerned⟩, other⟩
      · rintro (⟨⟨mem, concerned⟩, other⟩ | rfl)
        · exact ⟨.inr ⟨mem, other⟩, concerned⟩
        · exact ⟨.inl rfl, concerns⟩
    · rw [if_neg concerns]
      simp only [List.not_mem_nil, or_false, bne_iff_ne]
      constructor
      · rintro ⟨rfl | ⟨mem, other⟩, concerned⟩
        · exact absurd concerned concerns
        · exact ⟨⟨mem, concerned⟩, other⟩
      · rintro ⟨⟨mem, concerned⟩, other⟩
        exact ⟨.inr ⟨mem, other⟩, concerned⟩

end Memory

namespace Files

/-- **A write that is cut short leaves the old version or the new one.**  Whatever a store has come
to, and wherever a call stops that creates or updates an action, the store is opened again and
every action is loaded and every history listed without an error: the new version if the file got
its name, the old one if not, and no other action is affected.  What is left of the write is seen
in no answer, and the action can be written again. -/
theorem crash_atomic {files : Files} (reached : files.Reached) {call : StoreCall} {action : Action}
    (writes : call = .create action ∨ call = .update action) (storable : action.IsStorable)
    {done : List FileStep} (cut : CutShort (call.steps files) done) :
    ∃ (reopened : Files) (loaded : Uuid → Option Action) (listed : String → String → List Action),
      openAt (.directory (files.stopped done).directory) = .ok reopened ∧
      (∀ id, files.load id = .ok (loaded id)) ∧
      (∀ database index, files.history database index = .ok (listed database index)) ∧
      (∀ id, reopened.load id =
        .ok (if action.renaming ∈ done ∧ id = action.id then some action else loaded id)) ∧
      (∀ database index, reopened.history database index =
        .ok (if action.renaming ∈ done then action.renew database index (listed database index)
          else listed database index)) ∧
      (∀ id, reopened.swept.load id = reopened.load id) ∧
      (∀ database index,
        reopened.swept.history database index = reopened.history database index) ∧
      ∀ later : Action, later.id = action.id → later.IsStorable → ∀ again,
        again = .create later ∨ again = .update later ∧ reopened.load later.id ≠ .ok none →
        ∃ after, (ActionStore.files reopened).serve again = (.done (.ok ()), .files after) ∧
          after.load later.id = .ok (some later) := by
  obtain ⟨memory, survives⟩ := reached.survives
  have storableCall : call.IsStorable := by
    rcases writes with rfl | rfl <;> exact storable
  have survives' := survives.cutShort storableCall cut action writes
  have distinct := survives.mirrors.isDistinct
  refine ⟨files.stopped done, memory.load, memory.history, rfl, survives.load, survives.history,
    fun id => ?_, fun database index => ?_, load_swept _, history_swept _, ?_⟩
  · rw [survives'.load]
    by_cases renamed : action.renaming ∈ done
    · simp [renamed, Memory.load_put]
    · simp [renamed]
  · rw [survives'.history]
    by_cases renamed : action.renaming ∈ done
    · simp [renamed, Memory.history_put distinct]
    · simp [renamed]
  · intro later same storableLater again writesAgain
    obtain ⟨after, written, survives''⟩ := survives'.write storableLater
    refine ⟨after, ?_, ?_⟩
    · rcases writesAgain with rfl | ⟨rfl, there⟩
      · simp [ActionStore.serve, ActionStore.create, ActionStore.saveFile, written]
      · have has : (files.stopped done).directory.has (fileName later.id) = true := by
          rw [survives'.load] at there
          rw [Directory.has, survives'.find?_fileName, Option.isSome_map]
          exact Option.isSome_iff_ne_none.2 fun gone => there (congrArg Except.ok gone)
        simp [ActionStore.serve, ActionStore.update, ActionStore.saveFile, has, written]
    · rw [survives''.load, Memory.load_put, if_pos rfl]

/-- The first write of an action is torn, the second one goes through, and the update after it
stops before the file gets its name: the action is found as it was. -/
theorem crash_atomic_torn :
    let first : Action :=
      { id := .ofNat 1, database := "main", index := "public.événements", state := .running,
        started := 5, ended := none, sizeBefore := 1024, sizeAfter := none, bloatBefore := some 7,
        error := none }
    let second : Action := { first with state := .failed, ended := some 9, error := some "refused" }
    let temporary := temporaryName first.id
    let torn := ({} : Files).stopped
      [.create temporary, .append temporary ((Encoding.encode first).take 20)]
    let whole := torn.stopped ((StoreCall.create first).steps torn)
    let synced : List FileStep :=
      [.create temporary, .append temporary (Encoding.encode second), .sync temporary]
    whole.Reached ∧ second.IsStorable ∧
      CutShort ((StoreCall.update second).steps whole) synced ∧
      ∃ reopened, openAt (.directory (whole.stopped synced).directory) = .ok reopened ∧
        reopened.load first.id = .ok (some first) ∧
        reopened.history "main" "public.événements" = .ok [first] := by
  intro first second temporary torn whole synced
  have main : Text.IsCountable "main" := by decide
  have events : Text.IsCountable "public.événements" := by decide
  have refused : Text.IsCountable "refused" := by decide
  have storable : first.IsStorable := ⟨main, events, fun _ given => nomatch given⟩
  have storable' : second.IsStorable := ⟨main, events, by rintro _ ⟨⟩; exact refused⟩
  have storableCreate : (StoreCall.create first).IsStorable := storable
  have opened : Reached {} := .opened (.inl rfl) rfl
  have tears : CutShort ((StoreCall.create first).steps {})
      [.create temporary, .append temporary ((Encoding.encode first).take 20)] :=
    .later _ (.within (List.take_prefix ..))
  have goesThrough : CutShort ((StoreCall.create first).steps torn)
      ((StoreCall.create first).steps torn) := .all _
  have reachedTorn : torn.Reached := .crashed opened storableCreate tears rfl
  have reachedWhole : whole.Reached := .crashed reachedTorn storableCreate goesThrough rfl
  -- Nothing is found of the torn write, and the action after the one that goes through.
  obtain ⟨_, _, listed, ⟨⟩, -, lists, -, listsTorn, -⟩ :=
    crash_atomic opened (.inl rfl) storable tears
  obtain ⟨_, _, _, ⟨⟩, -, lists', loadsWhole, listsWhole, -⟩ :=
    crash_atomic reachedTorn (.inl rfl) storable goesThrough
  have renamed : first.renaming ∈ (StoreCall.create first).steps torn := by
    simp [StoreCall.steps, Directory.replaceSteps, Action.renaming]
  have loads : whole.load first.id = .ok (some first) := by
    rw [loadsWhole, if_pos ⟨renamed, rfl⟩]
  have histories : whole.history "main" "public.événements" = .ok [first] := by
    have torn : torn.history "main" "public.événements" = .ok [] := by
      rw [listsTorn, if_neg (by simp [Action.renaming]),
        ← Except.ok.inj (lists "main" "public.événements")]
      simp [Action.oldestFirst]
    rw [listsWhole, if_pos renamed, ← Except.ok.inj (torn.symm.trans (lists' _ _))]
    simp [Action.renew, Action.concerns, Action.oldestFirst, first]
  have cut : CutShort ((StoreCall.update second).steps whole) synced := by
    rw [StoreCall.steps, if_pos (has_of_load loads)]
    exact .later _ (.later _ (.later _ (.here _)))
  have kept : second.renaming ∉ synced := by simp [synced, Action.renaming]
  obtain ⟨reopened, _, _, opens, loads', lists', loadsAgain, listsAgain, -⟩ :=
    crash_atomic reachedWhole (.inr rfl) storable' cut
  refine ⟨reachedWhole, storable', cut, reopened, opens, ?_, ?_⟩
  · rw [loadsAgain, if_neg fun h => kept h.1, ← loads', loads]
  · rw [listsAgain, if_neg kept, ← lists', histories]

end Files

end Upkeep
