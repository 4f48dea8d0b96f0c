-- Stores that keep their files apart. What is loaded from a path is decided by
-- what the store keeps of that file alone, and a write changes nothing of another
-- file. Files may still compete: where room is short, one write takes what another
-- would need. They do not in a store that also decides each write by its own file.
-- The store over files in memory is one of these, and a write to it that fails
-- changes nothing at all.
import Uplift.Store.Memory

namespace Uplift

/-- `stored` gives all that decides what is loaded: the text of the file, and whatever else the
store keeps of it. A file is known by the steps of its path. -/
def Store.ReadsOneFile {σ β : Type} (store : Store σ) (stored : σ → List Path.Step → β) : Prop :=
  ∀ s s' path, stored s (Path.steps path) = stored s' (Path.steps path) →
    store.load s path = store.load s' path

/-- A write changes what is stored of its own file only. -/
def Store.WritesOneFile {σ β : Type} (store : Store σ) (stored : σ → List Path.Step → β) : Prop :=
  ∀ s path text file, Path.steps path ≠ file →
    stored (store.persist s path text).1 file = stored s file

/-- No write stands in the way of another: what it answers, and what it leaves of its file, is
decided by what is stored of that file alone. -/
structure Store.Uncontended {σ β : Type} (store : Store σ) (stored : σ → List Path.Step → β) :
    Prop where
  answer : ∀ s s' path text, stored s (Path.steps path) = stored s' (Path.steps path) →
    (store.persist s path text).2 = (store.persist s' path text).2
  own : ∀ s s' path text, stored s (Path.steps path) = stored s' (Path.steps path) →
    stored (store.persist s path text).1 (Path.steps path) =
      stored (store.persist s' path text).1 (Path.steps path)

namespace Memory

/-- What is kept of a file in memory, and whether it is locked. -/
def stored (m : Memory) (file : List Path.Step) : Option MemoryFile × Bool :=
  (m.files.find? fun f => Path.steps f.path = file, m.locked.any fun p => file = Path.steps p)

theorem load_eq (m : Memory) (path : String) :
    m.load path =
      match (m.stored (Path.steps path)).1 with
      | none => .error (.unreadable path "entity not found")
      | some f =>
        match f.snapshot.filter (·.source = f.text) with
        | some tree => .ok tree
        | none => Snapshot.ofSource path f.text := rfl

theorem persist_eq (m : Memory) (path : String) (text : Text) :
    m.persist path text =
      if (m.stored (Path.steps path)).2 then (m, some (.persist path "permission denied"))
      else (m.write path text, none) := rfl

/-- Writing a file changes its text, or makes the file, and changes nothing else. -/
theorem find?_putFile (new : MemoryFile) (files : List MemoryFile) (file : List Path.Step) :
    (putFile new files).find? (fun f => Path.steps f.path = file) =
      if Path.steps new.path = file then
        some (((files.find? fun f => Path.steps f.path = file).map
          fun f => { f with text := new.text }).getD new)
      else files.find? fun f => Path.steps f.path = file := by
  induction files with
  | nil =>
    by_cases h : Path.steps new.path = file
    · simp [putFile, h]
    · simp [putFile, h]
  | cons f rest ih =>
    unfold putFile
    by_cases hf : Path.same f.path new.path = true
    · have hsteps : Path.steps f.path = Path.steps new.path := by simpa [Path.same] using hf
      by_cases h : Path.steps new.path = file
      · simp [hf, hsteps, h]
      · simp [hf, hsteps, h]
    · have hsteps : Path.steps f.path ≠ Path.steps new.path := by simpa [Path.same] using hf
      by_cases h : Path.steps f.path = file
      · have hne : ¬ Path.steps new.path = file := fun he => hsteps (h.trans he.symm)
        simp [hf, h, hne]
      · simp [hf, h, ih]

theorem stored_write (m : Memory) (path : String) (text : Text) (file : List Path.Step) :
    (m.write path text).stored file =
      if Path.steps path = file then
        (some (((m.stored file).1.map fun f => { f with text }).getD { path, text }),
          (m.stored file).2)
      else m.stored file := by
  unfold write stored
  rw [find?_putFile]
  by_cases h : Path.steps path = file
  · simp [h]
  · simp [h]

theorem store_readsOneFile : Memory.store.ReadsOneFile stored := by
  intro s s' path h
  show s.load path = s'.load path
  rw [load_eq, load_eq, h]

theorem store_writesOneFile : Memory.store.WritesOneFile stored := by
  intro s path text file h
  show stored (s.persist path text).1 file = s.stored file
  rw [persist_eq]
  split
  · rfl
  · simp [stored_write, h]

theorem store_uncontended : Memory.store.Uncontended stored where
  answer s s' path text h := by
    show (s.persist path text).2 = (s'.persist path text).2
    rw [persist_eq, persist_eq, h]
    split <;> rfl
  own s s' path text h := by
    show stored (s.persist path text).1 _ = stored (s'.persist path text).1 _
    rw [persist_eq, persist_eq, h]
    split
    · exact h
    · simp [stored_write, h]

/-- The bytes of all files. -/
def size (m : Memory) : Nat := m.files.foldr (fun f n => Text.width f.text + n) 0

/-- A write is refused if the files would take more than `room` bytes together. -/
def persistWithin (room : Nat) (m : Memory) (path : String) (text : Text) :
    Memory × Option ApplyError :=
  let write := m.persist path text
  if write.1.size ≤ room then write else (m, some (.persist path "no space left on device"))

/-- The store over files in memory that have `room` bytes for all of them. -/
def storeWithin (room : Nat) : Store Memory := ⟨load, persistWithin room⟩

theorem storeWithin_readsOneFile (room : Nat) : (storeWithin room).ReadsOneFile stored :=
  store_readsOneFile

theorem storeWithin_writesOneFile (room : Nat) : (storeWithin room).WritesOneFile stored := by
  intro s path text file h
  show stored (s.persistWithin room path text).1 file = s.stored file
  unfold persistWithin
  dsimp only
  split
  · exact store_writesOneFile s path text file h
  · rfl

end Memory

end Uplift
