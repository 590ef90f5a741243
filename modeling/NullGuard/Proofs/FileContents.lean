import NullGuard.Files.FileTree

/-!
What writing a file changes. The files and directories that there are stay, so every path leads where it
led before, and of all contents only those of the file that the path leads to are replaced: by what was
written, or by what a write that failed has left.
-/
namespace NullGuard.FileTree

/-- The same files and directories, to be read and written as before, perhaps with other contents. -/
structure SameShape (t t' : FileTree) : Prop where
  locations : t'.files.map (·.1) = t.files.map (·.1)
  directories : t'.directories = t.directories
  here : t'.here = t.here
  readFaults : t'.readFaults = t.readFaults
  writeFaults : t'.writeFaults = t.writeFaults

theorem isSome_read? (t : FileTree) (l : Location) :
    (t.read? l).isSome = (t.files.map (·.1)).contains l := by
  unfold read?
  induction t.files with
  | nil => rfl
  | cons file rest ih =>
    rw [List.lookup_cons, List.map_cons, List.contains_cons, ← ih]
    cases l == file.1 <;> rfl

theorem file?_of_locate {t : FileTree} {p : Path} {l : Location} (leads : t.locate p = .ok l) :
    t.file? p = t.read? l := by
  rw [file?, leads]
  rfl

theorem exists_of_file? {t : FileTree} {p : Path} {source : Bytes} (found : t.file? p = some source) :
    ∃ l, t.locate p = .ok l ∧ t.read? l = some source := by
  cases leads : t.locate p with
  | error e =>
    rw [file?, leads] at found
    cases found
  | ok l =>
    rw [file?_of_locate leads] at found
    exact ⟨l, rfl, found⟩

/-- A file can be read if nothing is wrong with it. -/
theorem readAt_eq_ok_iff {t : FileTree} {p : Path} {source : Bytes} :
    t.readAt p = .ok source ↔
      ∃ l, t.locate p = .ok l ∧ t.read? l = some source ∧ t.readFaults.lookup l = none := by
  unfold readAt
  cases t.locate p with
  | error e => simp
  | ok l =>
    simp only [Except.ok.injEq, exists_eq_left']
    cases t.read? l with
    | none => simp only [reduceCtorEq, false_and]
    | some bytes =>
      cases t.readFaults.lookup l with
      | none => simp only [Except.ok.injEq, Option.some.injEq, and_true]
      | some fault => simp only [reduceCtorEq, and_false]

theorem file?_of_readAt {t : FileTree} {p : Path} {source : Bytes} (read : t.readAt p = .ok source) :
    t.file? p = some source := by
  obtain ⟨l, leads, read, -⟩ := readAt_eq_ok_iff.1 read
  rw [file?_of_locate leads, read]

namespace SameShape

variable {t t' t'' : FileTree}

theorem refl (t : FileTree) : t.SameShape t := ⟨rfl, rfl, rfl, rfl, rfl⟩

theorem trans (first : t.SameShape t') (second : t'.SameShape t'') : t.SameShape t'' :=
  ⟨second.locations.trans first.locations, second.directories.trans first.directories,
    second.here.trans first.here, second.readFaults.trans first.readFaults,
    second.writeFaults.trans first.writeFaults⟩

theorem isSome_read?_eq (same : t.SameShape t') (l : Location) :
    (t'.read? l).isSome = (t.read? l).isSome := by
  rw [isSome_read?, isSome_read?, same.locations]

theorem read?_eq_none (same : t.SameShape t') {l : Location} (missing : t.read? l = none) :
    t'.read? l = none := by
  rw [← Option.isNone_iff_eq_none, ← Option.isSome_eq_false_iff, same.isSome_read?_eq, missing]
  rfl

theorem isDirectory_eq (same : t.SameShape t') (l : Location) :
    t'.isDirectory l = t.isDirectory l := by
  have below : ∀ s : FileTree, s.files.flatMap (above ·.1) = (s.files.map (·.1)).flatMap above := by
    intro s
    rw [List.flatMap_map]
  have all : t'.allDirectories = t.allDirectories := by
    rw [allDirectories, allDirectories, below, below, same.locations, same.directories, same.here]
  rw [isDirectory, isDirectory, all]

theorem has_eq (same : t.SameShape t') (l : Location) : t'.has l = t.has l := by
  rw [has, has, same.isSome_read?_eq, same.isDirectory_eq]

theorem follow_eq (same : t.SameShape t') (l : Location) (parts : List String) :
    t'.follow l parts = t.follow l parts := by
  induction parts generalizing l with
  | nil => rfl
  | cons part rest ih => rw [follow, follow, same.isDirectory_eq, same.has_eq, ih, ih]

theorem locate_eq (same : t.SameShape t') (p : Path) : t'.locate p = t.locate p := by
  have base : t'.base p.start = t.base p.start := by
    cases p.start with
    | here => exact same.here
    | root => rfl
    | doubleRoot => rfl
  rw [locate, locate, base, same.follow_eq]

/-- Where the contents are the same, they can be read as well as before. -/
theorem readAt_eq (same : t.SameShape t') {p : Path} (contents : t'.file? p = t.file? p) :
    t'.readAt p = t.readAt p := by
  unfold readAt
  rw [same.locate_eq, same.readFaults]
  cases leads : t.locate p with
  | error e => rfl
  | ok l =>
    rw [file?_of_locate leads, file?_of_locate ((same.locate_eq p).trans leads)] at contents
    simp only [contents]

end SameShape

/-- The second tree is the first one with other contents of the file that a path leads to. -/
structure Replaced (t : FileTree) (p : Path) (bytes : Bytes) (t' : FileTree) : Prop where
  shape : t.SameShape t'
  inside : t'.file? p = some bytes
  outside : ∀ l, t.locate p ≠ .ok l → t'.read? l = t.read? l

theorem replaced_self {t : FileTree} {p : Path} {bytes : Bytes} (found : t.file? p = some bytes) :
    t.Replaced p bytes t :=
  ⟨.refl t, found, fun _ _ => rfl⟩

theorem lookup_replace (files : List (Location × Bytes)) (l m : Location) (bytes : Bytes) :
    (files.map fun f => if f.1 = l then (l, bytes) else f).lookup m =
      if m = l then (files.lookup m).map fun _ => bytes else files.lookup m := by
  induction files with
  | nil => simp
  | cons file rest ih =>
    rw [List.map_cons, List.lookup_cons, List.lookup_cons, ih]
    by_cases here : file.1 = l
    · by_cases same : m = l
      · simp [here, same]
      · have other : (m == l) = false := beq_false_of_ne same
        simp [here, same, other]
    · by_cases same : m = l
      · have other : (l == file.1) = false := beq_false_of_ne (Ne.symm here)
        simp [here, same, other]
      · simp [here, same]

theorem replaced_put {t : FileTree} {p : Path} {l : Location} {old : Bytes} (leads : t.locate p = .ok l)
    (read : t.read? l = some old) (bytes : Bytes) : t.Replaced p bytes (t.put l bytes) := by
  have contents : ∀ m, (t.put l bytes).read? m =
      if m = l then (t.read? m).map fun _ => bytes else t.read? m := fun m =>
    lookup_replace t.files l m bytes
  have shape : t.SameShape (t.put l bytes) := by
    refine ⟨?_, rfl, rfl, rfl, rfl⟩
    rw [put, List.map_map]
    refine List.map_congr_left fun f _ => ?_
    by_cases at_l : f.1 = l
    · simp [at_l]
    · simp [at_l]
  refine ⟨shape, ?_, fun m elsewhere => ?_⟩
  · rw [file?_of_locate ((shape.locate_eq p).trans leads), contents, if_pos rfl, read, Option.map_some]
  · rw [contents, if_neg]
    rintro rfl
    exact elsewhere leads

/-- How writing the file that a path leads to fails. -/
def writeFault? (t : FileTree) (p : Path) : Option Fault :=
  (t.locate p).toOption.bind fun l => t.writeFaults.lookup l

/-- What writing a file makes of it, whether the write fails or not. -/
def written (t : FileTree) (p : Path) (old new : Bytes) : Bytes :=
  (t.writeFault? p).elim new (·.leaves old new)

theorem SameShape.writeFault?_eq {t t' : FileTree} (same : t.SameShape t') (p : Path) :
    t'.writeFault? p = t.writeFault? p := by
  rw [writeFault?, writeFault?, same.locate_eq, same.writeFaults]

theorem write_replaces {t : FileTree} {p : Path} {old : Bytes} (found : t.file? p = some old)
    (new : Bytes) :
    t.Replaced p (t.written p old new) (t.write p new).1 ∧ (t.write p new).2 = t.writeFault? p := by
  obtain ⟨l, leads, read⟩ := exists_of_file? found
  have fault : t.writeFault? p = t.writeFaults.lookup l := by
    rw [writeFault?, leads]
    rfl
  unfold write
  simp only [written, leads, read, fault]
  cases t.writeFaults.lookup l with
  | none => exact ⟨replaced_put leads read new, rfl⟩
  | some fault => exact ⟨replaced_put leads read (fault.leaves old new), rfl⟩

/-- The paths do not lead to the same file. -/
def Apart (t : FileTree) (p q : Path) : Prop :=
  ∀ l, t.locate p = .ok l → t.locate q = .ok l → t.read? l = none

theorem Apart.symm {t : FileTree} {p q : Path} (apart : t.Apart p q) : t.Apart q p :=
  fun l first second => apart l second first

/-- Paths that lead to different places are apart. -/
theorem pairwise_apart {t : FileTree} {paths : List Path}
    (differ : (paths.filterMap fun p => (t.locate p).toOption).Nodup) : paths.Pairwise t.Apart := by
  rw [List.Nodup, List.pairwise_filterMap] at differ
  refine differ.imp fun other l first second => ?_
  exact absurd rfl (other l (by rw [first]; rfl) l (by rw [second]; rfl))

theorem SameShape.apart {t t' : FileTree} (same : t.SameShape t') {p q : Path}
    (apart : t.Apart p q) : t'.Apart p q := by
  intro l first second
  rw [same.locate_eq] at first second
  exact same.read?_eq_none (apart l first second)

end NullGuard.FileTree
