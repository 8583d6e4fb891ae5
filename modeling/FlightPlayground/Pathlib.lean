import FlightPlayground.Posix
/-!
# Pathlib — Python's strings and pure paths

A string that names a file is modelled by its bytes in the file system's encoding, UTF-8.  A pure path is parsed without
looking at any file: empty parts and `.` are dropped, `..` is kept, and joining an absolute path replaces what stood there.
-/
namespace Pathlib

open Posix (Bytes NodePath FileTree Errno Node ValidName slash dot)

/-! ## Strings -/

/-- The bytes decode as UTF-8, to the characters of one string. -/
def IsUtf8 (b : Bytes) : Prop := ByteArray.IsValidUTF8 ⟨b.toArray⟩

instance (b : Bytes) : Decidable (IsUtf8 b) := inferInstanceAs (Decidable (ByteArray.IsValidUTF8 _))

def nul : UInt8 := 0

/-! ## Pure paths -/

/-- A part of a pure path: what it is parsed to has no empty part and no `.`. -/
def IsPart (c : Bytes) : Prop := c ≠ [] ∧ c ≠ [dot] ∧ slash ∉ c

structure Path where
  absolute : Bool
  parts : List Bytes
  isPart : ∀ c ∈ parts, IsPart c
  deriving DecidableEq

def parse (s : Bytes) : Path where
  absolute := s.head? = some slash
  parts := (Posix.components s).filter fun c => c ≠ [] ∧ c ≠ [dot]
  isPart c hc := by
    obtain ⟨hm, hc⟩ := List.mem_filter.1 hc
    have hc := of_decide_eq_true hc
    exact ⟨hc.1, hc.2, Posix.notMem_of_mem_components hm⟩

/-- `path / s`. -/
def Path.join (path : Path) (s : Bytes) : Path :=
  if (parse s).absolute then parse s
  else
    { absolute := path.absolute
      parts := path.parts ++ (parse s).parts
      isPart := fun c hc => (List.mem_append.1 hc).elim (path.isPart c) ((parse s).isPart c) }

theorem parse_of_valid {n : Bytes} (h : ValidName n) : (parse n).absolute = false ∧ (parse n).parts = [n] := by
  obtain ⟨h1, h2, -, h4⟩ := h
  have hhead : n.head? ≠ some slash := fun hh => h4 (List.mem_of_mem_head? hh)
  simp [parse, Posix.components_of_notMem h4, hhead, h1, h2]

theorem join_of_valid {n : Bytes} (h : ValidName n) (path : Path) :
    (path.join n).absolute = path.absolute ∧ (path.join n).parts = path.parts ++ [n] := by
  obtain ⟨ha, hp⟩ := parse_of_valid h
  unfold Path.join
  simp [ha, hp]

/-! ## Lookup -/

/-- The files, and the directory that relative paths start at. -/
structure Disk where
  tree : FileTree
  cwd : NodePath
  cwd_dir : tree.node cwd = some .dir

inductive OSError
  | ValueError
  | errno (e : Errno)
  deriving DecidableEq

namespace Disk

/-- A path with a NUL is rejected before any file is looked at. -/
def lookup (disk : Disk) (path : Path) : Except OSError NodePath :=
  if ∃ c ∈ path.parts, nul ∈ c then .error .ValueError
  else
    match disk.tree.walk (if path.absolute then [] else disk.cwd) path.parts with
    | .ok p => .ok p
    | .error e => .error (.errno e)

def setFile (disk : Disk) (p : NodePath) (c : Bytes) : Disk :=
  ⟨disk.tree.setFile p c, disk.cwd, (FileTree.dir_setFile ..).2 disk.cwd_dir⟩

def unlink (disk : Disk) (p : NodePath) : Disk :=
  ⟨disk.tree.unlink p, disk.cwd, (FileTree.dir_unlink ..).2 disk.cwd_dir⟩

/-- The disk with only so much left of the file at `p`. -/
def leave (disk : Disk) (p : NodePath) : Option Bytes → Disk
  | some b => disk.setFile p b
  | none => disk.unlink p

variable {disk : Disk} {path : Path} {base : NodePath}

@[simp] theorem setFile_tree (p : NodePath) (c : Bytes) : (disk.setFile p c).tree = disk.tree.setFile p c := rfl

@[simp] theorem unlink_tree (p : NodePath) : (disk.unlink p).tree = disk.tree.unlink p := rfl

theorem ext_tree {disk disk' : Disk} (ht : disk.tree = disk'.tree) (hcwd : disk.cwd = disk'.cwd) : disk = disk' := by
  obtain ⟨t, d, _⟩ := disk
  obtain ⟨t', d', _⟩ := disk'
  obtain rfl : t = t' := ht
  obtain rfl : d = d' := hcwd
  rfl

theorem setFile_setFile (p : NodePath) (c c' : Bytes) : (disk.setFile p c).setFile p c' = disk.setFile p c' :=
  ext_tree (FileTree.setFile_setFile ..) rfl

theorem unlink_setFile {p : NodePath} (h : disk.tree.CanHoldFile p) (c : Bytes) :
    (disk.setFile p c).unlink p = disk.unlink p := ext_tree (FileTree.unlink_setFile h c) rfl

theorem node_leave {p : NodePath} (h : disk.tree.CanHoldFile p) (b : Option Bytes) (q : NodePath) :
    (disk.leave p b).tree.node q = if q = p then b.map .file else disk.tree.node q := by
  cases b with
  | none => exact FileTree.node_unlink (FileTree.not_dir_of_canHoldFile h) q
  | some b => exact FileTree.node_setFile h b q

theorem lookup_eq_ok {p : NodePath} : disk.lookup path = .ok p ↔
    (∀ c ∈ path.parts, nul ∉ c) ∧ disk.tree.walk (if path.absolute then [] else disk.cwd) path.parts = .ok p := by
  unfold lookup
  split
  · rename_i hnul
    obtain ⟨c, hc, hn⟩ := hnul
    simp only [reduceCtorEq, false_iff, not_and]
    exact fun h => absurd hn (h c hc)
  · rename_i hnul
    have hno : ∀ c ∈ path.parts, nul ∉ c := fun c hc hn => hnul ⟨c, hc, hn⟩
    rw [and_iff_right hno]
    split <;> simp_all

/-- **A name of a directory leads to that name in it.** -/
theorem lookup_join_of_valid (hb : disk.lookup path = .ok base) (hd : disk.tree.node base = some .dir) {n : Bytes}
    (hn : ValidName n) (hnul : nul ∉ n) : disk.lookup (path.join n) = .ok (n :: base) := by
  obtain ⟨hno, hw⟩ := lookup_eq_ok.1 hb
  obtain ⟨ha, hp⟩ := join_of_valid hn path
  rw [lookup_eq_ok, ha, hp]
  constructor
  · intro c hc
    rcases List.mem_append.1 hc with hc | hc
    · exact hno c hc
    · obtain rfl := List.mem_singleton.1 hc
      exact hnul
  · rw [FileTree.walk_append, hw]
    exact FileTree.walk_valid hd hn

/-- **A name of a directory leads nowhere else.** -/
theorem lookup_join_eq_ok (hb : disk.lookup path = .ok base) (hd : disk.tree.node base = some .dir) {n : Bytes}
    (hn : ValidName n) {p : NodePath} (h : disk.lookup (path.join n) = .ok p) : p = n :: base := by
  have hnul : nul ∉ n := (lookup_eq_ok.1 h).1 n (by simp [(join_of_valid hn path).2])
  rw [lookup_join_of_valid hb hd hn hnul] at h
  exact (Except.ok.inj h).symm

/-- **Where a path leads that is no directory, a file may stand.** -/
theorem canHoldFile_of_lookup {p : NodePath} (h : disk.lookup path = .ok p) (hp : disk.tree.node p ≠ some .dir) :
    disk.tree.CanHoldFile p := by
  have hstart : disk.tree.node (if path.absolute then [] else disk.cwd) = some .dir := by
    split
    · exact FileTree.node_nil _
    · exact disk.cwd_dir
  obtain ⟨hne, d, rfl, hn, hd⟩ :=
    FileTree.walk_last hstart (fun c hc => (path.isPart c hc).2.2) (lookup_eq_ok.1 h).2 hp
  exact ⟨hn, hd, hp⟩

theorem lookup_of_same_dirs {disk' : Disk} (hcwd : disk'.cwd = disk.cwd)
    (hdirs : ∀ p, disk.tree.node p = some .dir → disk'.tree.node p = some .dir) {p : NodePath}
    (h : disk.lookup path = .ok p) : disk'.lookup path = .ok p := by
  rw [lookup_eq_ok] at h ⊢
  rw [hcwd]
  exact ⟨h.1, FileTree.walk_of_same_dirs hdirs _ h.2⟩

end Disk
end Pathlib
