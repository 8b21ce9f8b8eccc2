import Upkeep.Error

/-!
# A directory of files

As much of a file system as a store of actions needs: one directory with files
and folders in it, and the steps that write, rename and read them.  The
directory itself may be gone.

## Main Definitions

* `Directory` — what is in the directory, in the order of names.
* `Directory.read`, `Directory.names` — reading.
* `FileStep`, `Directory.take` — the steps of writing, and what each one does.
* `Directory.replaceFile` — a file written under a temporary name and then given
  its own.

## Design Notes

Writing is a list of steps, so that one can say what a directory looks like if
the steps end early.  A step changes the directory only if it succeeds.
-/

namespace Upkeep

/-- What a name in a directory stands for. -/
inductive Node where
  | file (bytes : List UInt8)
  | folder
  deriving DecidableEq, Repr

/-- The directory's names and what they stand for, in the order of names; nothing
if the directory is gone. -/
structure Directory where
  entries? : Option (List (String × Node)) := some []
  deriving DecidableEq, Repr

namespace Directory

/-- The names and nodes, none if the directory is gone. -/
def entries (directory : Directory) : List (String × Node) := directory.entries?.getD []

/-- What a name stands for. -/
def find? (directory : Directory) (name : String) : Option Node :=
  directory.entries.lookup name

/-- A list of entries with a name standing for something new, in order. -/
def insertEntry (name : String) (node : Node) : List (String × Node) → List (String × Node)
  | [] => [(name, node)]
  | (n, x) :: rest =>
      if n = name then (name, node) :: rest
      else if name < n then (name, node) :: (n, x) :: rest
      else (n, x) :: insertEntry name node rest

/-- The directory with a name standing for something new. -/
def insert (directory : Directory) (name : String) (node : Node) : Directory :=
  ⟨directory.entries?.map (insertEntry name node)⟩

/-- The directory without a name. -/
def erase (directory : Directory) (name : String) : Directory :=
  ⟨directory.entries?.map fun entries => entries.filter fun entry => entry.1 != name⟩

/-- The names in order, if the directory is there. -/
def names (directory : Directory) : Except FileFault (List String) :=
  match directory.entries? with
  | some entries => .ok (entries.map Prod.fst)
  | none => .error .notFound

/-- The content of a file. -/
def read (directory : Directory) (name : String) : Except FileFault (List UInt8) :=
  match directory.find? name with
  | some (.file bytes) => .ok bytes
  | some .folder => .error .isADirectory
  | none => .error .notFound

/-- Whether a name stands for anything. -/
def has (directory : Directory) (name : String) : Bool := (directory.find? name).isSome

end Directory

/-- A step of writing. -/
inductive FileStep where
  /-- Make the file empty, whether it was there or not. -/
  | create (name : String)
  /-- Write at the end of the file. -/
  | append (name : String) (bytes : List UInt8)
  /-- Make sure that the content will last. -/
  | sync (name : String)
  /-- Give a file another name, in place of a file of that name. -/
  | rename (old new : String)
  deriving DecidableEq, Repr

namespace Directory

/-- What a step of writing does. -/
def take (directory : Directory) : FileStep → Except FileFault Directory
  | .create name =>
      match directory.entries? with
      | none => .error .notFound
      | some _ =>
          match directory.find? name with
          | some .folder => .error .isADirectory
          | _ => .ok (directory.insert name (.file []))
  | .append name bytes => do
      let content ← directory.read name
      return directory.insert name (.file (content ++ bytes))
  | .sync name => do
      let _ ← directory.read name
      return directory
  | .rename old new => do
      let content ← directory.read old
      -- The file is still under its old name if the new one is taken by a folder.
      match directory.find? new with
      | some .folder => throw .isADirectory
      | _ => return (directory.erase old).insert new (.file content)

/-- What several steps do: the directory after the last one that succeeded, and
the fault of the one that did not. -/
def takeAll (directory : Directory) : List FileStep → Except FileFault Unit × Directory
  | [] => (.ok (), directory)
  | step :: steps =>
      match directory.take step with
      | .ok directory => directory.takeAll steps
      | .error fault => (.error fault, directory)

/-- The steps that write a file under a temporary name and then give it its own. -/
def replaceSteps (temporary name : String) (bytes : List UInt8) : List FileStep :=
  [.create temporary, .append temporary bytes, .sync temporary, .rename temporary name]

/-- Writes a file under a temporary name and then gives it its own. -/
def replaceFile (directory : Directory) (temporary name : String) (bytes : List UInt8) :
    Except FileFault Unit × Directory :=
  directory.takeAll (replaceSteps temporary name bytes)

@[simp] theorem takeAll_nil (directory : Directory) :
    directory.takeAll [] = (.ok (), directory) := rfl

theorem lookup_insertEntry (name name' : String) (node : Node)
    (entries : List (String × Node)) :
    (insertEntry name node entries).lookup name' =
      if name' = name then some node else entries.lookup name' := by
  induction entries with
  | nil =>
      by_cases h : name' = name
      · simp [insertEntry, h]
      · have : (name' == name) = false := by simpa using h
        simp [insertEntry, List.lookup_cons, h, this]
  | cons entry rest ih =>
      obtain ⟨n, x⟩ := entry
      simp only [insertEntry]
      by_cases h : name' = name
      · subst h
        by_cases hn : n = name'
        · simp [hn]
        · have hne : (name' == n) = false := by simpa using fun h => hn h.symm
          simp only [hn, if_false, if_true]
          split
          · simp
          · simp [List.lookup_cons, hne, ih]
      · have hne : (name' == name) = false := by simpa using h
        by_cases hn : n = name
        · subst hn; simp [List.lookup_cons, hne, h]
        · simp only [hn, if_false, h]
          split
          · simp [List.lookup_cons, hne]
          · simp only [List.lookup_cons, ih, h, if_false]

/-- A name stands for what it was last made to stand for, and no other name is
affected. -/
theorem find?_insert {directory : Directory} (h : directory.entries?.isSome)
    (name name' : String) (node : Node) :
    (directory.insert name node).find? name' =
      if name' = name then some node else directory.find? name' := by
  obtain ⟨entries, he⟩ := Option.isSome_iff_exists.1 h
  simp [find?, insert, Directory.entries, he, lookup_insertEntry]

end Directory

end Upkeep
