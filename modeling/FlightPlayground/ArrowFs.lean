import FlightPlayground.Posix
import Mathlib.Data.List.DropRight
/-!
# ArrowFs — Arrow's statuses and its file system of one directory

`SubTreeFileSystem` over the local file system, as the servers are given it: a path string is appended to the base
directory, its leading separators dropped, and the operating system looks the result up.
-/
namespace Arrow

open Posix (Bytes Node NodePath Errno FileTree)
open Unordered (Enumeration)

/-- What Arrow itself fails with. -/
inductive IOError
  | emptyPath
  | pathNotFound (path : Bytes)
  | notAFile (path : Bytes)
  | errno (e : Errno)
  | parquet
  | unavailable
  deriving DecidableEq

inductive Status
  | Invalid (message : Bytes)
  | NotImplemented (message : Bytes)
  | IOError (e : IOError)
  deriving DecidableEq

abbrev Result (α : Type) := Except Status α

/-! ## What a lookup reports -/

inductive FileType
  | NotFound
  | File
  | Directory
  deriving DecidableEq

structure FileInfo where
  path : Bytes
  type : FileType
  size : Int
  deriving DecidableEq

def kNoSize : Int := -1

namespace FileInfo

def isFile (info : FileInfo) : Bool := info.type = .File
def baseName (info : FileInfo) : Bytes := Posix.baseName info.path
def extension (info : FileInfo) : Bytes := Posix.extension info.path

def ofNode (path : Bytes) : Option Node → FileInfo
  | none => ⟨path, .NotFound, kNoSize⟩
  | some .dir => ⟨path, .Directory, kNoSize⟩
  | some (.file c) => ⟨path, .File, c.length⟩

@[simp] theorem ofNode_path (path : Bytes) (x : Option Node) : (ofNode path x).path = path := by
  rcases x with _ | _ | _ <;> rfl

end FileInfo

/-! ## The file system -/

/-- `SubTreeFileSystem(base, LocalFileSystem)`; its base is a directory of the tree. -/
structure SubTreeFileSystem where
  tree : FileTree
  base : NodePath
  base_dir : tree.node base = some .dir

def SubTreeFileSystem.bare : SubTreeFileSystem := ⟨.bare, [], FileTree.node_nil _⟩

structure Sink where
  path : NodePath
  pos : Nat
  deriving DecidableEq

/-- A file that is open for reading; `ReadableFile` takes its size when it is opened. -/
structure ReadableFile where
  path : NodePath
  size : Nat
  deriving DecidableEq

namespace SubTreeFileSystem

theorem ext_tree {fs fs' : SubTreeFileSystem} (ht : fs.tree = fs'.tree) (hb : fs.base = fs'.base) : fs = fs' := by
  obtain ⟨t, b, _⟩ := fs
  obtain ⟨t', b', _⟩ := fs'
  obtain rfl : t = t' := ht
  obtain rfl : b = b' := hb
  rfl

variable (fs : SubTreeFileSystem)

def resolve (s : Bytes) : Except Errno NodePath := fs.tree.resolve fs.base (Posix.removeLeadingSlash s)

def nodeAt (s : Bytes) : Option Node := (fs.resolve s).toOption.bind fs.tree.node

def getFileInfo (s : Bytes) : Result FileInfo := .ok (.ofNode (Posix.removeLeadingSlash s) (fs.nodeAt s))

/-- `GetFileInfo(selector)` with the base directory "/": the root's entries, in the order the directory has them. -/
def getFileInfoRoot (readdir : Enumeration (Bytes × Node)) : Result (List FileInfo) :=
  .ok ((readdir.list (fs.tree.children fs.base)).map fun e => .ofNode e.1 (some e.2))

/-- `OpenInputFile(path)`: the bytes there to be read. -/
def openInputFile (s : Bytes) : Result Bytes :=
  if s = [] then .error (.IOError .emptyPath)
  else
    match fs.nodeAt s with
    | some (.file c) => .ok c
    | some .dir => .error (.IOError (.notAFile s))
    | none => .error (.IOError (.pathNotFound s))

/-- `OpenInputFile(info)` refuses what the info says is no file. -/
def openInputFileInfo (info : FileInfo) : Result Bytes :=
  match info.type with
  | .NotFound => .error (.IOError (.pathNotFound info.path))
  | .Directory => .error (.IOError (.notAFile info.path))
  | .File => fs.openInputFile info.path

/-- `OpenInputFile(path)` on its own, where the reads come later. -/
def openReadable (s : Bytes) : Result ReadableFile :=
  if s = [] then .error (.IOError .emptyPath)
  else
    match fs.resolve s with
    | .error _ => .error (.IOError (.pathNotFound s))
    | .ok p =>
      match fs.tree.node p with
      | some (.file c) => .ok ⟨p, c.length⟩
      | some .dir => .error (.IOError (.notAFile s))
      | none => .error (.IOError (.pathNotFound s))

def openReadableInfo (info : FileInfo) : Result ReadableFile :=
  match info.type with
  | .NotFound => .error (.IOError (.pathNotFound info.path))
  | .Directory => .error (.IOError (.notAFile info.path))
  | .File => fs.openReadable info.path

/-- What there is to read by now of an open file, up to the size it had when it was opened. -/
def bytesOf (file : ReadableFile) : Bytes :=
  match fs.tree.node file.path with
  | some (.file c) => c.take file.size
  | _ => []

def setFile (p : NodePath) (c : Bytes) : SubTreeFileSystem :=
  ⟨fs.tree.setFile p c, fs.base, (FileTree.dir_setFile _ _ _ _).2 fs.base_dir⟩

def unlink (p : NodePath) : SubTreeFileSystem :=
  ⟨fs.tree.unlink p, fs.base, (FileTree.dir_unlink _ _ _).2 fs.base_dir⟩

/-- `OpenOutputStream(path)`: the file is created, or truncated, at once. -/
def openOutputStream (s : Bytes) : Result (Sink × SubTreeFileSystem) :=
  if s = [] then .error (.IOError .emptyPath)
  else
    match fs.resolve s with
    | .error e => .error (.IOError (.errno e))
    | .ok p => if fs.tree.node p = some .dir then .error (.IOError (.notAFile s)) else .ok (⟨p, 0⟩, fs.setFile p [])

def write (sink : Sink) (chunk : Bytes) : Sink × SubTreeFileSystem :=
  (⟨sink.path, sink.pos + chunk.length⟩,
   match fs.tree.node sink.path with
   | some (.file c) => fs.setFile sink.path (Posix.overlay c sink.pos chunk)
   | _ => fs)

def deleteFile (s : Bytes) : Result SubTreeFileSystem :=
  if s = [] then .error (.IOError .emptyPath)
  else
    match fs.resolve s with
    | .error e => .error (.IOError (.errno e))
    | .ok p =>
      match fs.tree.node p with
      | none => .error (.IOError (.pathNotFound s))
      | some .dir => .error (.IOError (.notAFile s))
      | some (.file _) => .ok (fs.unlink p)

/-! ## What they do -/

@[simp] theorem setFile_base (p : NodePath) (c : Bytes) : (fs.setFile p c).base = fs.base := rfl
@[simp] theorem setFile_tree (p : NodePath) (c : Bytes) : (fs.setFile p c).tree = fs.tree.setFile p c := rfl
@[simp] theorem unlink_base (p : NodePath) : (fs.unlink p).base = fs.base := rfl
@[simp] theorem unlink_tree (p : NodePath) : (fs.unlink p).tree = fs.tree.unlink p := rfl

def outputPath (s : Bytes) : Option NodePath :=
  if s = [] then none
  else
    match fs.resolve s with
    | .error _ => none
    | .ok p => if fs.tree.node p = some .dir then none else some p

variable {fs}

theorem outputPath_eq_some {s : Bytes} {p : NodePath} :
    fs.outputPath s = some p ↔ s ≠ [] ∧ fs.resolve s = .ok p ∧ fs.tree.node p ≠ some .dir := by
  unfold outputPath
  split
  · simp_all
  · rename_i hs
    cases hr : fs.resolve s with
    | error e => simp
    | ok q =>
      by_cases hq : fs.tree.node q = some .dir
      · simp only [hq, if_true, reduceCtorEq, Except.ok.injEq, false_iff, not_and]
        rintro - rfl
        simpa using hq
      · simp only [hq, if_false, Option.some.injEq, Except.ok.injEq]
        constructor
        · rintro rfl
          exact ⟨hs, rfl, hq⟩
        · exact fun h => h.2.1

/-- **Opening for writing creates or empties exactly the file the path opens.** -/
theorem openOutputStream_of_some {s : Bytes} {p : NodePath} (h : fs.outputPath s = some p) :
    fs.openOutputStream s = .ok (⟨p, 0⟩, fs.setFile p []) := by
  obtain ⟨hs, hr, hp⟩ := outputPath_eq_some.1 h
  simp [openOutputStream, hs, hr, hp]

theorem openOutputStream_of_none {s : Bytes} (h : fs.outputPath s = none) : ∃ e, fs.openOutputStream s = .error e := by
  unfold outputPath at h
  unfold openOutputStream
  split
  · exact ⟨_, rfl⟩
  · rename_i hs
    rw [if_neg hs] at h
    cases hr : fs.resolve s with
    | error e => exact ⟨_, rfl⟩
    | ok p =>
      rw [hr] at h
      by_cases hp : fs.tree.node p = some .dir
      · exact ⟨_, by simp [hp]; rfl⟩
      · simp [hp] at h

theorem canHoldFile_of_outputPath {s : Bytes} {p : NodePath} (h : fs.outputPath s = some p) : fs.tree.CanHoldFile p :=
  have ⟨_, hr, hp⟩ := outputPath_eq_some.1 h
  FileTree.canHoldFile_of_resolve fs.base_dir hr hp

theorem setFile_setFile (p : NodePath) (c c' : Bytes) : (fs.setFile p c).setFile p c' = fs.setFile p c' :=
  ext_tree (FileTree.setFile_setFile _ _ _ _) rfl

theorem write_eq {p : NodePath} {c : Bytes} (h : fs.tree.node p = some (.file c)) (pos : Nat) (chunk : Bytes) :
    fs.write ⟨p, pos⟩ chunk = (⟨p, pos + chunk.length⟩, fs.setFile p (Posix.overlay c pos chunk)) := by
  simp [write, h]

theorem write_after_open {p : NodePath} (h : fs.tree.CanHoldFile p) (b : Bytes) :
    (fs.setFile p []).write ⟨p, 0⟩ b = (⟨p, b.length⟩, fs.setFile p b) := by
  have hn : (fs.setFile p []).tree.node p = some (.file []) := by rw [setFile_tree, FileTree.node_setFile h, if_pos rfl]
  rw [write_eq hn, setFile_setFile, Nat.zero_add]
  exact congrArg _ (congrArg _ (Posix.overlay_at_end [] b))

theorem removeLeadingSlash_idem (s : Bytes) :
    Posix.removeLeadingSlash (Posix.removeLeadingSlash s) = Posix.removeLeadingSlash s :=
  List.dropWhile_idempotent (· == Posix.slash) s

@[simp] theorem resolve_removeLeadingSlash (s : Bytes) : fs.resolve (Posix.removeLeadingSlash s) = fs.resolve s := by
  rw [resolve, removeLeadingSlash_idem, resolve]

@[simp] theorem nodeAt_removeLeadingSlash (s : Bytes) : fs.nodeAt (Posix.removeLeadingSlash s) = fs.nodeAt s := by
  rw [nodeAt, resolve_removeLeadingSlash, nodeAt]

variable (fs) in
@[simp] theorem nodeAt_nil : fs.nodeAt [] = some .dir := by
  have hr : fs.resolve [] = .ok fs.base := by
    simp [resolve, Posix.removeLeadingSlash, FileTree.resolve, Posix.components, FileTree.walk, fs.base_dir]
  unfold nodeAt
  rw [hr]
  exact fs.base_dir

theorem openInputFile_of_file {s c : Bytes} (h : fs.nodeAt s = some (.file c)) : fs.openInputFile s = .ok c := by
  have hs : s ≠ [] := by
    rintro rfl
    simp at h
  simp [openInputFile, hs, h]

theorem nodeAt_of_openInputFile {s c : Bytes} (h : fs.openInputFile s = .ok c) : fs.nodeAt s = some (.file c) := by
  unfold openInputFile at h
  split at h
  · cases h
  · rcases hs : fs.nodeAt s with _ | _ | c'
    · simp [hs] at h
    · simp [hs] at h
    · simp only [hs, Except.ok.injEq] at h
      rw [h]

theorem nodeAt_of_openInputFileInfo {info : FileInfo} {c : Bytes} (h : fs.openInputFileInfo info = .ok c) :
    fs.nodeAt info.path = some (.file c) := by
  unfold openInputFileInfo at h
  split at h
  · cases h
  · cases h
  · exact nodeAt_of_openInputFile h

theorem openReadable_of_file {s c : Bytes} {p : NodePath} (hs : s ≠ []) (hr : fs.resolve s = .ok p)
    (hp : fs.tree.node p = some (.file c)) : fs.openReadable s = .ok ⟨p, c.length⟩ := by
  simp [openReadable, hs, hr, hp]

/-- **What opens is a file, and its size is the size by then.** -/
theorem file_of_openReadable {s : Bytes} {file : ReadableFile} (h : fs.openReadable s = .ok file) :
    fs.resolve s = .ok file.path ∧ ∃ c, fs.tree.node file.path = some (.file c) ∧ file.size = c.length := by
  unfold openReadable at h
  split at h
  · cases h
  · cases hr : fs.resolve s with
    | error e => simp [hr] at h
    | ok p =>
      rcases hp : fs.tree.node p with _ | _ | c
      · simp [hr, hp] at h
      · simp [hr, hp] at h
      · simp only [hr, hp, Except.ok.injEq] at h
        subst h
        exact ⟨rfl, c, hp, rfl⟩

theorem openReadable_congr {fs' : SubTreeFileSystem} {s : Bytes} {p : NodePath} (hr : fs.resolve s = .ok p)
    (hr' : fs'.resolve s = .ok p) (h : fs.tree.node p = fs'.tree.node p) : fs.openReadable s = fs'.openReadable s := by
  unfold openReadable
  rw [hr, hr']
  simp only [h]

theorem bytesOf_of_file {c : Bytes} {file : ReadableFile} (h : fs.tree.node file.path = some (.file c)) :
    fs.bytesOf file = c.take file.size := by
  simp [bytesOf, h]

@[simp] theorem bytesOf_whole {p : NodePath} {c : Bytes} (h : fs.tree.node p = some (.file c)) :
    fs.bytesOf ⟨p, c.length⟩ = c := by
  simp [bytesOf, h]

theorem bytesOf_congr {fs' : SubTreeFileSystem} {file : ReadableFile} (h : fs'.tree.node file.path = fs.tree.node file.path) :
    fs'.bytesOf file = fs.bytesOf file := by
  unfold bytesOf
  rw [h]

variable (fs) in
/-- **A file that is opened and read at once is read whole.** -/
theorem openInputFile_eq (s : Bytes) : fs.openInputFile s = (fs.openReadable s).map fs.bytesOf := by
  unfold openInputFile openReadable nodeAt
  split
  · rfl
  · cases fs.resolve s with
    | error e => rfl
    | ok p =>
      rcases hp : fs.tree.node p with _ | _ | c
      · simp [Except.toOption, hp, Except.map]
      · simp [Except.toOption, hp, Except.map]
      · simp [Except.toOption, hp, Except.map, bytesOf]

variable (fs) in
theorem openInputFileInfo_eq (info : FileInfo) : fs.openInputFileInfo info = (fs.openReadableInfo info).map fs.bytesOf := by
  unfold openInputFileInfo openReadableInfo
  cases info.type with
  | NotFound => rfl
  | File => exact fs.openInputFile_eq info.path
  | Directory => rfl

theorem length_bytesOf {s : Bytes} {file : ReadableFile} (h : fs.openReadable s = .ok file) :
    (fs.bytesOf file).length = file.size := by
  obtain ⟨-, c, hc, hsize⟩ := file_of_openReadable h
  rw [bytesOf_of_file hc, hsize, List.take_length]

theorem openReadable_of_openReadableInfo {info : FileInfo} {file : ReadableFile} (h : fs.openReadableInfo info = .ok file) :
    fs.openReadable info.path = .ok file := by
  unfold openReadableInfo at h
  split at h
  · cases h
  · cases h
  · exact h

theorem length_bytesOf_info {info : FileInfo} {file : ReadableFile} (h : fs.openReadableInfo info = .ok file) :
    (fs.bytesOf file).length = file.size := length_bytesOf (openReadable_of_openReadableInfo h)

/-! ## Stores that differ in their files only -/

structure SameDirs (fs fs' : SubTreeFileSystem) : Prop where
  base : fs'.base = fs.base
  dir : ∀ q, fs'.tree.node q = some .dir ↔ fs.tree.node q = some .dir

theorem SameDirs.refl (fs : SubTreeFileSystem) : SameDirs fs fs := ⟨rfl, fun _ => Iff.rfl⟩

theorem SameDirs.setFile {fs fs' : SubTreeFileSystem} (h : SameDirs fs fs') (p : NodePath) (c : Bytes) :
    SameDirs fs (fs'.setFile p c) := ⟨h.base, fun q => (FileTree.dir_setFile _ _ _ _).trans (h.dir q)⟩

theorem SameDirs.write {fs fs' : SubTreeFileSystem} (h : SameDirs fs fs') (sink : Sink) (chunk : Bytes) :
    SameDirs fs (fs'.write sink chunk).2 := by
  unfold SubTreeFileSystem.write
  split
  · exact h.setFile _ _
  · exact h

/-- **A path is looked up alike in both.** -/
theorem SameDirs.resolve_ok {fs fs' : SubTreeFileSystem} (h : SameDirs fs fs') {s : Bytes} {p : NodePath} :
    fs'.resolve s = .ok p ↔ fs.resolve s = .ok p := by
  unfold resolve
  rw [h.base]
  exact ⟨FileTree.resolve_of_same_dirs fun q => (h.dir q).1, FileTree.resolve_of_same_dirs fun q => (h.dir q).2⟩

theorem SameDirs.outputPath {fs fs' : SubTreeFileSystem} (h : SameDirs fs fs') (s : Bytes) :
    fs'.outputPath s = fs.outputPath s := by
  ext p
  simp only [outputPath_eq_some, h.resolve_ok, ne_eq, h.dir]

/-! ## Names of the root directory -/

theorem resolve_of_valid {n : Bytes} (h : Posix.ValidName n) : fs.resolve n = .ok (n :: fs.base) := by
  unfold resolve
  rw [Posix.removeLeadingSlash_of_valid h]
  exact FileTree.resolve_of_valid fs.base_dir h

@[simp] theorem nodeAt_of_valid {n : Bytes} (h : Posix.ValidName n) : fs.nodeAt n = fs.tree.node (n :: fs.base) := by
  unfold nodeAt
  rw [resolve_of_valid h]
  rfl

theorem outputPath_of_valid {n : Bytes} (h : Posix.ValidName n) (hd : fs.tree.node (n :: fs.base) ≠ some .dir) :
    fs.outputPath n = some (n :: fs.base) :=
  outputPath_eq_some.2 ⟨h.1, resolve_of_valid h, hd⟩

/-- **The open of a name has the size of the file there.** -/
theorem openReadable_of_node {n c : Bytes} (h : fs.tree.node (n :: fs.base) = some (.file c)) :
    fs.openReadable n = .ok ⟨n :: fs.base, c.length⟩ :=
  have hv : Posix.ValidName n := FileTree.validName_of_node h
  openReadable_of_file hv.1 (resolve_of_valid hv) h

theorem nodeAt_eq_file {s c : Bytes} :
    fs.nodeAt s = some (.file c) ↔ ∃ p, fs.resolve s = .ok p ∧ fs.tree.node p = some (.file c) := by
  unfold nodeAt
  cases hr : fs.resolve s with
  | error e => simp [Except.toOption]
  | ok p => simp [Except.toOption]

end SubTreeFileSystem
end Arrow
