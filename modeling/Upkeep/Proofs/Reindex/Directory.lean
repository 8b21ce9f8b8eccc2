import Mathlib.Data.String.Basic
import Upkeep.Reindex.Directory

/-!
# Directories in order

What stands under which name after the steps that write.  A directory lists its names in
order, so each of them once, and a file that is replaced by way of a temporary one is the only
change to it.

## Main Definitions

* `Directory.IsOrdered` — the directory is there, and its entries are in order.
* `Directory.IsFree` — no folder is in the way of a file.

## Main Results

* `Directory.replaceFile_of_isFree` — the file has its new content, the temporary file is
  gone, and every other name stands for what it stood for.
* `Directory.IsOrdered.names` — the listed names are those that stand for something.
-/

namespace Upkeep

namespace Directory

/-- The directory is there, and its entries are in the order of their names. -/
def IsOrdered (directory : Directory) : Prop :=
  ∃ entries, directory.entries? = some entries ∧
    entries.Pairwise fun former latter => former.1 < latter.1

variable {directory : Directory} {name name' temporary : String}

theorem mem_insertEntry {node : Node} {entries : List (String × Node)} {entry : String × Node}
    (mem : entry ∈ insertEntry name node entries) : entry = (name, node) ∨ entry ∈ entries := by
  induction entries with
  | nil => exact .inl (List.mem_singleton.1 mem)
  | cons head rest ih =>
      simp only [insertEntry] at mem
      split at mem
      · exact (List.mem_cons.1 mem).imp id (List.mem_cons_of_mem head)
      · split at mem
        · exact List.mem_cons.1 mem
        · obtain rfl | mem := List.mem_cons.1 mem
          · exact .inr List.mem_cons_self
          · exact (ih mem).imp id (List.mem_cons_of_mem head)

theorem pairwise_insertEntry (name : String) (node : Node) {entries : List (String × Node)}
    (ordered : entries.Pairwise fun former latter => former.1 < latter.1) :
    (insertEntry name node entries).Pairwise fun former latter => former.1 < latter.1 := by
  induction entries with
  | nil => exact List.pairwise_singleton _ _
  | cons head rest ih =>
      obtain ⟨above, ordered'⟩ := List.pairwise_cons.1 ordered
      simp only [insertEntry]
      split
      case isTrue same => exact List.pairwise_cons.2 ⟨same ▸ above, ordered'⟩
      case isFalse other =>
        split
        case isTrue lt =>
          refine List.pairwise_cons.2 ⟨fun entry mem => ?_, ordered⟩
          obtain rfl | mem := List.mem_cons.1 mem
          · exact lt
          · exact lt_trans lt (above entry mem)
        case isFalse notBelow =>
          refine List.pairwise_cons.2 ⟨fun entry mem => ?_, ih ordered'⟩
          obtain rfl | mem := mem_insertEntry mem
          · exact lt_of_le_of_ne (not_lt.1 notBelow) other
          · exact above entry mem

theorem IsOrdered.insert (ordered : directory.IsOrdered) (name : String) (node : Node) :
    (directory.insert name node).IsOrdered := by
  obtain ⟨entries, there, pairwise⟩ := ordered
  exact ⟨_, by simp [Directory.insert, there], pairwise_insertEntry name node pairwise⟩

theorem IsOrdered.erase (ordered : directory.IsOrdered) (name : String) :
    (directory.erase name).IsOrdered := by
  obtain ⟨entries, there, pairwise⟩ := ordered
  exact ⟨entries.filter fun entry => entry.1 != name, by simp [Directory.erase, there],
    pairwise.filter _⟩

theorem IsOrdered.isSome (ordered : directory.IsOrdered) : directory.entries?.isSome := by
  obtain ⟨entries, there, _⟩ := ordered
  simp [there]

/-- Entries are looked up among those whose names pass. -/
theorem lookup_filter (p : String → Bool) (name : String) (entries : List (String × Node)) :
    (entries.filter fun entry => p entry.1).lookup name =
      if p name = true then entries.lookup name else none := by
  induction entries with
  | nil => simp
  | cons entry rest ih =>
      obtain ⟨n, node⟩ := entry
      rw [List.filter_cons]
      by_cases same : name = n
      · subst same
        by_cases passes : p name = true
        · simp [passes]
        · simpa [passes] using ih
      · have skipped : (name == n) = false := beq_false_of_ne same
        split
        · simp only [List.lookup_cons, skipped, ih]
        · simp only [List.lookup_cons, skipped, ih]

/-- An erased name stands for nothing, and no other name is affected. -/
theorem find?_erase (directory : Directory) (name name' : String) :
    (directory.erase name).find? name' = if name' = name then none else directory.find? name' := by
  obtain ⟨none | entries⟩ := directory
  · simp [find?, erase, entries]
  · show List.lookup name' (entries.filter fun entry => entry.1 != name) = _
    rw [lookup_filter (· != name)]
    by_cases gone : name' = name <;> simp [gone, find?, Directory.entries]

/-- The listed names are those that stand for something, each of them once. -/
theorem IsOrdered.names (ordered : directory.IsOrdered) :
    ∃ names, directory.names = .ok names ∧ names.Nodup ∧
      ∀ name, name ∈ names ↔ (directory.find? name).isSome := by
  obtain ⟨entries, there, pairwise⟩ := ordered
  refine ⟨entries.map Prod.fst, by simp [Directory.names, there], ?_, fun name => ?_⟩
  · exact List.pairwise_map.2 (pairwise.imp fun lt => ne_of_lt lt)
  · simp [find?, Directory.entries, there, List.lookup_isSome_iff]

/-- A name for which a file can be written. -/
def IsFree (directory : Directory) (name : String) : Prop := directory.find? name ≠ some .folder

theorem take_create (ordered : directory.IsOrdered) (free : directory.IsFree name) :
    directory.take (.create name) = .ok (directory.insert name (.file [])) := by
  obtain ⟨entries, there, _⟩ := ordered
  simp only [take, there]
  split
  · exact absurd ‹_› free
  · rfl

theorem take_rename {bytes : List UInt8} (read : directory.read name = .ok bytes)
    (free : directory.IsFree name') :
    directory.take (.rename name name') =
      .ok ((directory.erase name).insert name' (.file bytes)) := by
  simp only [take, read, bind, Except.bind]
  split
  · exact absurd ‹_› free
  · rfl

/-- What stands under a name after a file has been replaced by way of a temporary one. -/
theorem replaceFile_of_isFree (ordered : directory.IsOrdered) (bytes : List UInt8)
    (distinct : temporary ≠ name) (temporaryFree : directory.IsFree temporary)
    (free : directory.IsFree name) :
    ∃ after : Directory, directory.replaceFile temporary name bytes = (.ok (), after) ∧
      after.IsOrdered ∧ ∀ name', after.find? name' =
        if name' = name then some (.file bytes)
        else if name' = temporary then none else directory.find? name' := by
  -- The directory after each of the steps.
  let created := directory.insert temporary (.file [])
  let written := created.insert temporary (.file bytes)
  let renamed := (written.erase temporary).insert name (.file bytes)
  have createdOrdered : created.IsOrdered := ordered.insert temporary (.file [])
  have writtenOrdered : written.IsOrdered := createdOrdered.insert temporary (.file bytes)
  have erasedOrdered := writtenOrdered.erase temporary
  have findCreated (n : String) : created.find? n =
      if n = temporary then some (.file []) else directory.find? n :=
    find?_insert ordered.isSome temporary n (.file [])
  have findWritten (n : String) : written.find? n =
      if n = temporary then some (.file bytes) else directory.find? n := by
    rw [find?_insert createdOrdered.isSome, findCreated]
    split <;> rfl
  have readCreated : created.read temporary = .ok [] := by simp [read, findCreated]
  have readWritten : written.read temporary = .ok bytes := by simp [read, findWritten]
  have create : directory.take (.create temporary) = .ok created :=
    take_create ordered temporaryFree
  have append : created.take (.append temporary bytes) = .ok written := by
    simp only [take, readCreated]
    rfl
  have sync : written.take (.sync temporary) = .ok written := by
    simp only [take, readWritten]
    rfl
  have target : written.IsFree name := by
    rwa [IsFree, findWritten, if_neg distinct.symm]
  have rename : written.take (.rename temporary name) = .ok renamed :=
    take_rename readWritten target
  refine ⟨renamed, ?_, erasedOrdered.insert name _, fun n => ?_⟩
  · simp only [replaceFile, replaceSteps, takeAll, create, append, sync, rename]
  · rw [find?_insert erasedOrdered.isSome, find?_erase, findWritten]
    by_cases h : n = temporary
    · simp [h, distinct]
    · simp [h]

end Directory

end Upkeep
