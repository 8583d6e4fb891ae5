import FlightPlayground.StoreRequests
import FlightPlayground.DatasetMap
/-!
# ReadDuringPut — readers of a dataset that is being replaced

From the moment an upload opens the file until it has written its last byte, the file is no Parquet file, and whoever
opens it or reads its footer then fails.  A reader that stays out of that window, and has the file not open when the window
begins, sees the table there was or the one there is.
-/
namespace ReadDuringPut

open Posix (Bytes Node NodePath FileTree ValidName utf8)
open Unordered (Enumeration)
open Arrow
open Flight
open Interleave
open FlightStressTestServer
open DatasetServer (isDataset mintedInfo)

variable {Schema Row ι : Type} [DecidableEq ι] (pq : Parquet Schema Row) (port : Nat)

def datasetNames (root : SubTreeFileSystem) : Multiset Bytes :=
  ((root.tree.children root.base).filter fun e => isDataset (.ofNode e.1 (some e.2))).map Prod.fst

/-- Every file of the directory that a listing reports is a Parquet file. -/
def Readable (root : SubTreeFileSystem) : Prop :=
  ∀ name c, root.tree.node (name :: root.base) = some (.file c) → DatasetMap.hasExtension name → (pq.openFile c).isSome

/-- A directory that holds a file `old` of the table `told` under the name `n`, and an upload to `n` that completes. -/
structure Replacing (root : SubTreeFileSystem) (n old : Bytes) (told : ParquetFile Schema Row) (u : Upload Schema Row) :
    Prop where
  held : root.tree.node (n :: root.base) = some (.file old)
  valid : pq.Holds old told
  name : DatasetServer.nameOf u.reader.descriptor = some n
  completes : u.Completes

inductive Reader
  | getFlightInfo
  | doGet
  | listFlights (readdir : Enumeration (Bytes × Node))

def Reader.task (n : Bytes) : Reader → Task Schema Row
  | .getFlightInfo => .getFlightInfo (.ofPath [n])
  | .doGet => .doGet ⟨n⟩
  | .listFlights readdir => .listFlights readdir

def start (root : SubTreeFileSystem) (n : Bytes) (w : ι) (u : Upload Schema Row) (cut : Chunking) (reader : ι → Reader) :
    Pool ι SubTreeFileSystem (Task Schema Row) :=
  ⟨root, fun i => if i = w then .doPut u cut else (reader i).task n⟩

def run (root : SubTreeFileSystem) (n : Bytes) (w : ι) (u : Upload Schema Row) (cut : Chunking) (reader : ι → Reader)
    (sched : List ι) : Pool ι SubTreeFileSystem (Task Schema Row) :=
  (start root n w u cut reader).run (Task.step pq port) sched

/-- Its next step opens the file `n`. -/
def OpensInput (n : Bytes) : Task Schema Row → Prop
  | .inspecting _ => True
  | .doGet _ => True
  | .listing (fileInfo :: _) _ => fileInfo.path = n ∧ isDataset fileInfo
  | _ => False

/-- Its next step reads the footer of the file `n`, which it has open. -/
def ReadsFooter (n : Bytes) : Task Schema Row → Prop
  | .inspectingFile _ _ => True
  | .fetching _ => True
  | .listingFile fileInfo _ _ _ => fileInfo.path = n
  | _ => False

/-- It has the file `n` open. -/
def HasOpen (n : Bytes) : Task Schema Row → Prop
  | .reading _ _ => True
  | t => ReadsFooter n t

/-- The thread `i` neither opens nor reads the file between the upload's open and its last byte, and does not have it open
when the upload opens it. -/
def Quiet (n : Bytes) (w i : ι) (c : Pool ι SubTreeFileSystem (Task Schema Row)) (j : ι) : Prop :=
  (j = i → OpensInput n (c.task i) ∨ HasOpen n (c.task i) → ¬ (c.task w).Unwritten) ∧
    (j = w → (c.task w).Opens c.shared → ¬ HasOpen n (c.task i))

/-- An info under the name `n` of the table, as to its schema and its rows; the size is that of the look-up. -/
def InfoOf (n : Bytes) (t : Table Schema Row) (f : FlightInfo Schema) : Prop :=
  ∃ md size, md.schema = t.schema ∧ md.numRows = t.rows.length ∧ f = mintedInfo port n md size

/-- What is reported for a name: for `n` the one table or the other, for every other name what is stored under it. -/
def Reports (root : SubTreeFileSystem) (n : Bytes) (told tnew : Table Schema Row) (name : Bytes) (f : FlightInfo Schema) :
    Prop :=
  if name = n then InfoOf port n told f ∨ InfoOf port n tnew f
  else ∃ c md, root.tree.node (name :: root.base) = some (.file c) ∧ pq.openFile c = some md ∧
    f = mintedInfo port name md c.length

/-- An answer, if there is one, is OK and reports the table there was or the one there is; a listing reports one for every
name, in a directory where all can be read. -/
def AnswersWell (root : SubTreeFileSystem) (n : Bytes) (told tnew : Table Schema Row) : Task Schema Row → Prop
  | .info r => ∃ f, r = .ok f ∧ Reports pq port root n told tnew n f
  | .stream r => ∃ s, r = .ok s ∧ (s.readAll = told ∨ s.readAll = tnew)
  | .flights r => Readable pq root → ∃ fs names, r = .ok fs ∧ ((names : List Bytes) : Multiset Bytes) = datasetNames root ∧
      List.Forall₂ (Reports pq port root n told tnew) names fs
  | _ => True

def Answered : Task Schema Row → Prop
  | .info _ => True
  | .stream _ => True
  | .flights _ => True
  | _ => False

def Failed : Task Schema Row → Prop
  | .info (.error _) => True
  | .stream (.error _) => True
  | .flights (.error _) => True
  | _ => False

section Invariant

variable {pq port} {root : SubTreeFileSystem} {n old : Bytes} {told : ParquetFile Schema Row} {u : Upload Schema Row} {w : ι}

/-! ## The file -/

/-- What the file holds, given where the upload stands. -/
def content (pq : Parquet Schema Row) (old : Bytes) (u : Upload Schema Row) : Task Schema Row → Bytes
  | .doPut .. => old
  | .opening .. => old
  | t => (uploadBytes pq u).take (t.written (uploadBytes pq u))

theorem content_of_opened {t : Task Schema Row} (h : t.Opened) :
    content pq old u t = (uploadBytes pq u).take (t.written (uploadBytes pq u)) := by
  cases t with
  | doPut => exact h.elim
  | opening => exact h.elim
  | _ => rfl

theorem content_of_not_opened {t : Task Schema Row} (h : ¬ t.Opened) : content pq old u t = old := by
  cases t with
  | doPut => rfl
  | opening => rfl
  | _ => exact absurd trivial h

/-- The content is one that no upload is at work on: the old file before it is opened, or the new one when it is written. -/
def Settled (pq : Parquet Schema Row) (old : Bytes) (u : Upload Schema Row) (writer : Task Schema Row) (c : Bytes) : Prop :=
  (c = old ∧ ¬ writer.Opened) ∨ (c = pq.encode u.reader.table ∧ writer.Opened ∧ ¬ writer.Unwritten)

theorem Settled.unique {writer : Task Schema Row} {c c' : Bytes} (h : Settled pq old u writer c)
    (h' : Settled pq old u writer c') : c = c' := by
  rcases h with ⟨rfl, ho⟩ | ⟨rfl, ho, -⟩ <;> rcases h' with ⟨rfl, ho'⟩ | ⟨rfl, ho', -⟩
  · rfl
  · exact absurd ho' ho
  · exact absurd ho ho'
  · rfl

/-- A step of the upload that does not open the file leaves settled what was settled. -/
theorem Settled.mono {fs : SubTreeFileSystem} {writer : Task Schema Row} {r : SubTreeFileSystem × Task Schema Row} {c : Bytes}
    (h : Settled pq old u writer c) (hp : root.outputPath (Posix.removeLeadingSlash n) ≠ none)
    (hstep : PutStep pq root fs (Posix.removeLeadingSlash n) u writer r) (hopens : ¬ writer.Opens fs) :
    Settled pq old u r.2 c := by
  cases hstep with
  | idle _ hun ho hfirst =>
    rcases h with ⟨hc, hw⟩ | ⟨hc, hw, hw'⟩
    · exact .inl ⟨hc, fun h => (hfirst h).elim hw hp⟩
    · exact .inr ⟨hc, ho hw, fun h => hw' (hun h)⟩
  | opens _ ho => exact absurd ho hopens
  | writes _ _ ho ho' hun =>
    rcases h with ⟨-, hw⟩ | ⟨hc, -, hw'⟩
    · exact absurd ho hw
    · exact .inr ⟨hc, ho', fun h => hw' (hun h)⟩

/-- **A settled content opens as the one table or the other**, and reads as its rows. -/
theorem Settled.opens (hold : pq.Holds old told) {writer : Task Schema Row} {c : Bytes} (h : Settled pq old u writer c) :
    ∃ md t, pq.openFile c = some md ∧ pq.readTable md c = some t.rows ∧ md.schema = t.schema ∧ md.numRows = t.rows.length ∧
      (t = told.table ∨ t = u.reader.table) := by
  rcases h with ⟨rfl, -⟩ | ⟨rfl, -, -⟩
  · obtain ⟨footer, ho, hr⟩ := hold
    exact ⟨_, told.table, ho, hr, rfl, List.length_flatten.symm, .inl rfl⟩
  · exact ⟨_, u.reader.table, pq.openFile_encode _, pq.readTable_encode _, rfl, pq.encodedMetaData_numRows _, .inr rfl⟩

theorem Replacing.validName (h : Replacing pq root n old told u) : ValidName n := FileTree.validName_of_node h.held

theorem Replacing.outputPath (h : Replacing pq root n old told u) :
    root.outputPath (Posix.removeLeadingSlash n) = some (n :: root.base) := by
  rw [Posix.removeLeadingSlash_of_valid h.validName]
  exact SubTreeFileSystem.outputPath_of_valid h.validName (by simp [h.held])

theorem Replacing.bytes (h : Replacing pq root n old told u) : uploadBytes pq u = pq.encode u.reader.table :=
  uploadBytes_of_completes h.completes

structure Stored (pq : Parquet Schema Row) (root : SubTreeFileSystem) (n old : Bytes) (u : Upload Schema Row) (w : ι)
    (c : Pool ι SubTreeFileSystem (Task Schema Row)) : Prop where
  shared : c.shared = root.setFile (n :: root.base) (content pq old u (c.task w))
  upload : PutAt pq root (Posix.removeLeadingSlash n) u (c.task w)

omit [DecidableEq ι] in
theorem Stored.card_children (h : Replacing pq root n old told u) {c : Pool ι SubTreeFileSystem (Task Schema Row)}
    (hc : Stored pq root n old u w c) : (c.shared.tree.children c.shared.base).card = (root.tree.children root.base).card := by
  rw [hc.shared]
  exact FileTree.card_children_setFile h.held _ _

/-- **A step of the upload keeps the store as it was but for the file.** -/
theorem Stored.step_upload (h : Replacing pq root n old told u) {c : Pool ι SubTreeFileSystem (Task Schema Row)}
    (hc : Stored pq root n old u w c) : Stored pq root n old u w (c.step (Task.step pq port) w) := by
  have hdirs : root.SameDirs c.shared := by
    rw [hc.shared]
    exact (SubTreeFileSystem.SameDirs.refl root).setFile _ _
  obtain ⟨hput, hstep⟩ := hc.upload.step port h.name hdirs
  refine ⟨?_, by rwa [Pool.step_task_self]⟩
  rw [Pool.step_shared, Pool.step_task_self]
  generalize Task.step pq port c.shared (c.task w) = r at hstep
  cases hstep with
  | @idle t' _ _ hopened hfirst hwritten =>
    by_cases ho : (c.task w).Opened
    · have ho' := hopened ho
      rw [hc.shared, content_of_opened ho, content_of_opened ho', hwritten ho h.completes]
    · have ho' : ¬ t'.Opened := fun ho' => (hfirst ho').elim ho fun hn => by cases hn.symm.trans h.outputPath
      rw [hc.shared, content_of_not_opened ho, content_of_not_opened ho']
  | @opens p t' hp _ ho hwritten =>
    obtain rfl : _ = p := Option.some.inj (h.outputPath.symm.trans hp)
    rw [hc.shared, SubTreeFileSystem.setFile_setFile, content_of_opened ho, hwritten, List.take_zero]
  | @writes p pos piece t' hp _ ho ho' _ _ hpos hwritten hlen hpiece =>
    obtain rfl : _ = p := Option.some.inj (h.outputPath.symm.trans hp)
    have hhold : root.tree.CanHoldFile (n :: root.base) := FileTree.canHoldFile_of_file h.held
    have hc' : content pq old u (c.task w) = (uploadBytes pq u).take pos := by rw [content_of_opened ho, hpos]
    have hnode : c.shared.tree.node (n :: root.base) = some (.file ((uploadBytes pq u).take pos)) := by
      rw [hc.shared, hc', SubTreeFileSystem.setFile_tree, FileTree.node_setFile hhold, if_pos rfl]
    have hend : Posix.overlay ((uploadBytes pq u).take pos) pos piece = (uploadBytes pq u).take (pos + piece.length) := by
      have hl : ((uploadBytes pq u).take pos).length = pos := by simp; omega
      have := Posix.overlay_at_end ((uploadBytes pq u).take pos) piece
      rw [hl] at this
      rw [this, List.take_add, ← hpiece]
    rw [SubTreeFileSystem.write_eq hnode, hc.shared, SubTreeFileSystem.setFile_setFile, hend, content_of_opened ho', hwritten]

omit [DecidableEq ι] in
theorem Stored.settled (h : Replacing pq root n old told u) {c : Pool ι SubTreeFileSystem (Task Schema Row)}
    (hc : Stored pq root n old u w c) (hun : ¬ (c.task w).Unwritten) :
    Settled pq old u (c.task w) (content pq old u (c.task w)) := by
  by_cases ho : (c.task w).Opened
  · refine .inr ⟨?_, ho, hun⟩
    rw [content_of_opened ho, List.take_of_length_le (hc.upload.length_le_written hun), h.bytes]
  · exact .inl ⟨content_of_not_opened ho, ho⟩

theorem opened_of_unwritten {t : Task Schema Row} (h : t.Unwritten) : t.Opened := by
  cases t with
  | doPut => exact h.elim
  | opening => exact h.elim
  | _ => trivial

omit [DecidableEq ι] in
/-- What is in the file while it is being written ends before the new table does. -/
theorem Stored.written_lt (h : Replacing pq root n old told u) (hpq : pq.RejectsPartial)
    {c : Pool ι SubTreeFileSystem (Task Schema Row)} (hc : Stored pq root n old u w c) (hun : (c.task w).Unwritten) :
    (c.task w).written (pq.encode u.reader.table) < (pq.encode u.reader.table).length := by
  have := hc.upload.written_lt hun (by rw [h.bytes]; exact pq.encode_ne_nil hpq _)
  rwa [h.bytes] at this

/-- **Less than the whole of a table's bytes does not open**, whatever size the file had. -/
theorem openFile_of_cut (hpq : pq.RejectsPartial) {t : Table Schema Row} {k : Nat} {input : ReadableFile}
    (h : k < (pq.encode t).length ∨ input.size < (pq.encode t).length) :
    openFile pq input (((pq.encode t).take k).take input.size) = .error (.IOError .parquet) := by
  unfold openFile
  split
  · rfl
  · rw [List.take_take, DatasetServer.openParquet, Parquet.encode, hpq.2 _ _ (lt_of_le_of_lt (Nat.le_refl _) ?_)]
    exact h.elim (fun hk => (min_le_right _ _).trans_lt hk) fun hs => (min_le_left _ _).trans_lt hs

/-! ## The names -/

theorem mem_datasetNames {name : Bytes} : name ∈ datasetNames root ↔
    ∃ x, root.tree.node (name :: root.base) = some x ∧ isDataset (.ofNode name (some x)) = true := by
  unfold datasetNames
  rw [Multiset.mem_map]
  constructor
  · rintro ⟨⟨name, x⟩, he, rfl⟩
    rw [Multiset.mem_filter, FileTree.mem_children] at he
    exact ⟨x, he⟩
  · rintro ⟨x, hx, hd⟩
    exact ⟨(name, x), Multiset.mem_filter.2 ⟨FileTree.mem_children.2 hx, hd⟩, rfl⟩

theorem nodup_datasetNames (root : SubTreeFileSystem) : (datasetNames root).Nodup :=
  Multiset.nodup_of_le (Multiset.map_le_map (Multiset.filter_le _ _)) (FileTree.nodup_children root.tree root.base)

variable (root) in
/-- **The datasets of a directory are those of its listing.** -/
theorem names_of_listing (readdir : Enumeration (Bytes × Node)) :
    (((((readdir.list (root.tree.children root.base)).map fun e => FileInfo.ofNode e.1 (some e.2)).filter isDataset).map
      FileInfo.path : List Bytes) : Multiset Bytes) = datasetNames root := by
  have hpath : FileInfo.path ∘ (fun e : Bytes × Node => FileInfo.ofNode e.1 (some e.2)) = Prod.fst :=
    funext fun e => FileInfo.ofNode_path _ _
  unfold datasetNames
  rw [List.filter_map, List.map_map, hpath]
  conv_rhs => rw [← readdir.coe_list (root.tree.children root.base), Multiset.filter_coe, Multiset.map_coe]
  simp [Function.comp_def]

/-- **Another content under a name is no other name.** -/
theorem datasetNames_setFile {c : Bytes} (hn : root.tree.node (n :: root.base) = some (.file c)) (c' : Bytes) :
    datasetNames (root.setFile (n :: root.base) c') = datasetNames root := by
  refine (Multiset.Nodup.ext (nodup_datasetNames _) (nodup_datasetNames _)).2 fun name => ?_
  rw [mem_datasetNames, mem_datasetNames, SubTreeFileSystem.setFile_tree, SubTreeFileSystem.setFile_base,
    FileTree.node_setFile (FileTree.canHoldFile_of_file hn)]
  by_cases hname : name = n
  · subst hname
    rw [if_pos rfl, hn]
    constructor
    · rintro ⟨x, hx, hd⟩
      cases hx
      exact ⟨_, rfl, hd⟩
    · rintro ⟨x, hx, hd⟩
      cases hx
      exact ⟨_, rfl, hd⟩
  · rw [if_neg (by simpa using hname)]

/-! ## The readers -/

/-- An entry of a listing: under `n` a file with some content, under any other name what is stored there. -/
def Listed (root : SubTreeFileSystem) (n : Bytes) (fileInfo : FileInfo) : Prop :=
  ∃ name x, fileInfo = .ofNode name (some x) ∧
    if name = n then ∃ c, x = .file c else root.tree.node (name :: root.base) = some x

/-- What a reader has open under a name: for `n` a file that was settled when it was opened, and still is, if the reader
has been quiet; for any other name the file that is stored there. -/
def InputAt (pq : Parquet Schema Row) (root : SubTreeFileSystem) (n old : Bytes) (u : Upload Schema Row) (Q : Prop)
    (writer : Task Schema Row) (name : Bytes) (input : ReadableFile) : Prop :=
  input.path = name :: root.base ∧
    if name = n then Q → ∃ c, Settled pq old u writer c ∧ input.size = c.length
    else ∃ c, root.tree.node (name :: root.base) = some (.file c) ∧ input.size = c.length

/-- What a listing has still to report, and what it has found, for a reader that has been quiet so far if `Q`. -/
def ListedSoFar (pq : Parquet Schema Row) (port : Nat) (root : SubTreeFileSystem) (n : Bytes) (told tnew : Table Schema Row)
    (Q : Prop) (rest : List FileInfo) (found : List (FlightInfo Schema)) : Prop :=
  (∀ fileInfo ∈ rest, Listed root n fileInfo) ∧ (Q → Readable pq root → ∃ names : List Bytes,
    ((names ++ (rest.filter isDataset).map FileInfo.path : List Bytes) : Multiset Bytes) = datasetNames root ∧
      List.Forall₂ (Reports pq port root n told tnew) names found)

/-- Where a reader can stand while the upload is at `writer`.  `Q` says that it has been quiet so far. -/
def ReaderAt (pq : Parquet Schema Row) (port : Nat) (root : SubTreeFileSystem) (n old : Bytes) (told : ParquetFile Schema Row)
    (u : Upload Schema Row) (Q : Prop) (writer : Task Schema Row) : Task Schema Row → Prop
  | .getFlightInfo d => d = .ofPath [n]
  | .inspecting fileInfo => ∃ x, fileInfo = .ofNode n (some (.file x))
  | .inspectingFile fileInfo input => (∃ x, fileInfo = .ofNode n (some (.file x))) ∧ InputAt pq root n old u Q writer n input
  | .info r => Q → AnswersWell pq port root n told.table u.reader.table (.info r)
  | .doGet t => t = ⟨n⟩
  | .fetching input => InputAt pq root n old u Q writer n input
  | .reading input md => input.path = n :: root.base ∧
      (Q → ∃ c, Settled pq old u writer c ∧ input.size = c.length ∧ pq.openFile c = some md)
  | .stream r => Q → AnswersWell pq port root n told.table u.reader.table (.stream r)
  | .listFlights _ => True
  | .listing rest found => ListedSoFar pq port root n told.table u.reader.table Q rest found
  | .listingFile fileInfo input rest found => isDataset fileInfo ∧ InputAt pq root n old u Q writer fileInfo.path input ∧
      ListedSoFar pq port root n told.table u.reader.table Q (fileInfo :: rest) found
  | .flights r => Q → AnswersWell pq port root n told.table u.reader.table (.flights r)
  | _ => False

theorem InputAt.mono {Q : Prop} {writer writer' : Task Schema Row} {name : Bytes} {input : ReadableFile}
    (h : InputAt pq root n old u Q writer name input)
    (hw : name = n → Q → ∀ c, Settled pq old u writer c → Settled pq old u writer' c) :
    InputAt pq root n old u Q writer' name input := by
  refine ⟨h.1, ?_⟩
  have hin := h.2
  split
  · rename_i hname
    rw [if_pos hname] at hin
    intro hQ
    obtain ⟨c, hc, hsize⟩ := hin hQ
    exact ⟨c, hw hname hQ c hc, hsize⟩
  · rename_i hname
    rwa [if_neg hname] at hin

/-- A step of the upload that does not open the file under a reader leaves the readers where they stand. -/
theorem ReaderAt.mono {Q : Prop} {fs : SubTreeFileSystem} {writer t : Task Schema Row}
    {r : SubTreeFileSystem × Task Schema Row} (hp : root.outputPath (Posix.removeLeadingSlash n) ≠ none)
    (hstep : PutStep pq root fs (Posix.removeLeadingSlash n) u writer r) (hquiet : Q → writer.Opens fs → ¬ HasOpen n t)
    (ht : ReaderAt pq port root n old told u Q writer t) : ReaderAt pq port root n old told u Q r.2 t := by
  have hkept : HasOpen n t → Q → ∀ c, Settled pq old u writer c → Settled pq old u r.2 c := fun hopen hQ c hc =>
    hc.mono hp hstep fun ho => hquiet hQ ho hopen
  cases t with
  | inspectingFile fileInfo input => exact ⟨ht.1, ht.2.mono fun _ => hkept trivial⟩
  | fetching input => exact InputAt.mono ht fun _ => hkept trivial
  | reading input md =>
    refine ⟨ht.1, fun hQ => ?_⟩
    obtain ⟨c, hc, hmd⟩ := ht.2 hQ
    exact ⟨c, hkept trivial hQ c hc, hmd⟩
  | listingFile fileInfo input rest found => exact ⟨ht.1, ht.2.1.mono hkept, ht.2.2⟩
  | _ => exact ht

theorem Replacing.node_setFile (h : Replacing pq root n old told u) (c name : Bytes) :
    (root.setFile (n :: root.base) c).tree.node (name :: root.base) =
      if name = n then some (.file c) else root.tree.node (name :: root.base) := by
  rw [SubTreeFileSystem.setFile_tree, FileTree.node_setFile (FileTree.canHoldFile_of_file h.held)]
  by_cases hname : name = n
  · rw [if_pos (by rw [hname]), if_pos hname]
  · rw [if_neg (by simpa using hname), if_neg hname]

theorem Replacing.nodeAt_setFile (h : Replacing pq root n old told u) (c : Bytes) :
    (root.setFile (n :: root.base) c).nodeAt n = some (.file c) := by
  rw [SubTreeFileSystem.nodeAt_of_valid h.validName, SubTreeFileSystem.setFile_base, h.node_setFile, if_pos rfl]

/-- **A file that a quiet reader has open is read whole**: what it was when it was opened is what it is by now. -/
theorem InputAt.bytes (h : Replacing pq root n old told u) {Q : Prop} {writer : Task Schema Row} {name c : Bytes}
    {input : ReadableFile} (hin : InputAt pq root n old u Q writer name input) (hQ : Q)
    (hc : name = n → Settled pq old u writer c) :
    ∃ b, (root.setFile (n :: root.base) c).bytesOf input = b ∧ b.length = input.size ∧
      if name = n then b = c else root.tree.node (name :: root.base) = some (.file b) := by
  obtain ⟨hpath, hfile⟩ := hin
  have hnode := h.node_setFile c name
  rw [← hpath] at hnode
  split
  · rename_i hname
    rw [if_pos hname] at hfile hnode
    obtain ⟨c', hc', hsize⟩ := hfile hQ
    obtain rfl := hc'.unique (hc hname)
    exact ⟨c', by rw [SubTreeFileSystem.bytesOf_of_file hnode, hsize, List.take_length], hsize.symm, rfl⟩
  · rename_i hname
    rw [if_neg hname] at hfile hnode
    obtain ⟨b, hb, hsize⟩ := hfile
    rw [hpath, hb] at hnode
    rw [← hpath] at hnode
    exact ⟨b, by rw [SubTreeFileSystem.bytesOf_of_file hnode, hsize, List.take_length], hsize.symm, hb⟩

variable (port) in
/-- **The info a quiet reader makes of an open file** reports for `n` the one table or the other, and for any other name what
is stored there. -/
theorem InputAt.inspect_ok (h : Replacing pq root n old told u) {Q : Prop} {writer : Task Schema Row} {name x c : Bytes}
    {input : ReadableFile} (hin : InputAt pq root n old u Q writer name input) (hQ : Q)
    (hc : name = n → Settled pq old u writer c)
    (hx : name ≠ n → root.tree.node (name :: root.base) = some (.file x) ∧ (pq.openFile x).isSome) :
    ∃ f, inspect pq port (.ofNode name (some (.file x))) input ((root.setFile (n :: root.base) c).bytesOf input) = .ok f ∧
      Reports pq port root n told.table u.reader.table name f := by
  obtain ⟨b, hb, hlen, hfile⟩ := hin.bytes h hQ hc
  rw [hb, inspect_ofNode, openFile_of_length pq hlen, DatasetServer.openParquet]
  by_cases hname : name = n
  · rw [if_pos hname] at hfile
    subst hname hfile
    obtain ⟨md, t, hmd, -, hschema, hrows, ht⟩ := (hc rfl).opens h.valid
    rw [hmd, Posix.baseName_of_valid h.validName]
    refine ⟨_, rfl, ?_⟩
    rw [Reports, if_pos rfl]
    rcases ht with rfl | rfl
    · exact .inl ⟨md, x.length, hschema, hrows, rfl⟩
    · exact .inr ⟨md, x.length, hschema, hrows, rfl⟩
  · rw [if_neg hname] at hfile
    obtain ⟨hnode, hopens⟩ := hx hname
    obtain rfl : x = b := by
      rw [hnode] at hfile
      exact Node.file.inj (Option.some.inj hfile)
    obtain ⟨md, hmd⟩ := Option.isSome_iff_exists.1 hopens
    rw [hmd, Posix.baseName_of_valid (FileTree.validName_of_node hnode)]
    refine ⟨_, rfl, ?_⟩
    rw [Reports, if_neg hname]
    exact ⟨x, md, hnode, hmd, rfl⟩

theorem Replacing.listed (h : Replacing pq root n old told u) (c : Bytes) (readdir : Enumeration (Bytes × Node)) :
    ∃ infos, (root.setFile (n :: root.base) c).getFileInfoRoot readdir = .ok infos ∧
      (∀ fileInfo ∈ infos, Listed root n fileInfo) ∧
      (((infos.filter isDataset).map FileInfo.path : List Bytes) : Multiset Bytes) = datasetNames root := by
  let fs := root.setFile (n :: root.base) c
  refine ⟨_, rfl, ?_, ?_⟩
  · intro fileInfo hf
    obtain ⟨⟨name, x⟩, he, rfl⟩ := List.mem_map.1 hf
    have hx : fs.tree.node (name :: fs.base) = some x := FileTree.mem_children.1 ((Enumeration.mem_list _).1 he)
    refine ⟨name, x, rfl, ?_⟩
    rw [SubTreeFileSystem.setFile_tree, SubTreeFileSystem.setFile_base,
      FileTree.node_setFile (FileTree.canHoldFile_of_file h.held)] at hx
    split
    · rename_i hname
      rw [if_pos (by rw [hname])] at hx
      exact ⟨c, (Option.some.inj hx).symm⟩
    · rename_i hname
      rwa [if_neg (by simpa using hname)] at hx
  · rw [← datasetNames_setFile h.held c]
    exact names_of_listing fs readdir

/-- **What a listing opens next** is there under the name of the entry. -/
theorem Replacing.opens_listed (h : Replacing pq root n old told u) (c : Bytes) {fileInfo : FileInfo}
    (hlisted : Listed root n fileInfo) (hd : isDataset fileInfo) : ∃ b,
    (root.setFile (n :: root.base) c).openReadableInfo fileInfo = .ok ⟨fileInfo.path :: root.base, b.length⟩ ∧
      if fileInfo.path = n then b = c else root.tree.node (fileInfo.path :: root.base) = some (.file b) := by
  obtain ⟨name, x, rfl, hx⟩ := hlisted
  cases x with
  | dir => cases hd
  | file x =>
    rw [FileInfo.ofNode_path]
    have hnode := h.node_setFile c name
    by_cases hname : name = n
    · rw [if_pos hname] at hnode
      exact ⟨c, SubTreeFileSystem.openReadable_of_node hnode, by rw [if_pos hname]⟩
    · rw [if_neg hname] at hnode hx
      exact ⟨x, SubTreeFileSystem.openReadable_of_node (hnode.trans hx), by rwa [if_neg hname]⟩

variable (pq) in
theorem Listed.file {fileInfo : FileInfo} (hlisted : Listed root n fileInfo) (hd : isDataset fileInfo) : ∃ x,
    fileInfo = .ofNode fileInfo.path (some (.file x)) ∧ (fileInfo.path ≠ n → Readable pq root →
      root.tree.node (fileInfo.path :: root.base) = some (.file x) ∧ (pq.openFile x).isSome) := by
  obtain ⟨name, x, rfl, hx⟩ := hlisted
  rw [FileInfo.ofNode_path]
  cases x with
  | dir => cases hd
  | file x =>
    refine ⟨x, rfl, fun hname hr => ?_⟩
    rw [if_neg hname] at hx
    exact ⟨hx, hr name x hx hd⟩

/-- **A step of a reader leaves the store alone**, and where it reads one of the two tables it goes on with that table. -/
theorem ReaderAt.step (h : Replacing pq root n old told u) {Q : Prop} {writer t : Task Schema Row} {c : Bytes}
    (hsettled : Q → OpensInput n t ∨ HasOpen n t → Settled pq old u writer c)
    (ht : ReaderAt pq port root n old told u Q writer t) :
    (t.step pq port (root.setFile (n :: root.base) c)).1 = root.setFile (n :: root.base) c ∧
      ReaderAt pq port root n old told u Q writer (t.step pq port (root.setFile (n :: root.base) c)).2 := by
  have hn : (root.setFile (n :: root.base) c).tree.node (n :: root.base) = some (.file c) := by
    rw [h.node_setFile, if_pos rfl]
  cases t with
  | getFlightInfo d =>
    obtain rfl := ht
    have hf := DatasetServer.fileInfoFromDescriptor_of_name (root.setFile (n :: root.base) c)
      (DatasetServer.nameOf_ofPath n)
    rw [Posix.removeLeadingSlash_of_valid h.validName, h.nodeAt_setFile] at hf
    simp only [Task.step, hf]
    exact ⟨trivial, c, rfl⟩
  | inspecting fileInfo =>
    obtain ⟨x, rfl⟩ := ht
    have ho : (root.setFile (n :: root.base) c).openReadableInfo (.ofNode n (some (.file x))) = .ok ⟨n :: root.base, c.length⟩ :=
      SubTreeFileSystem.openReadable_of_node hn
    simp only [Task.step, ho]
    refine ⟨trivial, ⟨x, rfl⟩, rfl, ?_⟩
    rw [if_pos rfl]
    exact fun hQ => ⟨c, hsettled hQ (.inl trivial), rfl⟩
  | inspectingFile fileInfo input =>
    obtain ⟨⟨x, rfl⟩, hin⟩ := ht
    exact ⟨rfl, fun hQ => hin.inspect_ok port h hQ (fun _ => hsettled hQ (.inr trivial)) fun hne => absurd rfl hne⟩
  | info r => exact ⟨rfl, ht⟩
  | doGet request =>
    obtain rfl := ht
    simp only [Task.step, SubTreeFileSystem.openReadable_of_node hn]
    refine ⟨trivial, rfl, ?_⟩
    rw [if_pos rfl]
    exact fun hQ => ⟨c, hsettled hQ (.inl trivial), rfl⟩
  | fetching input =>
    have hopens : Q → ∃ md, openFile pq input ((root.setFile (n :: root.base) c).bytesOf input) = .ok md ∧
        pq.openFile c = some md ∧ input.size = c.length := fun hQ => by
      have hc := hsettled hQ (.inr trivial)
      obtain ⟨b, hb, hlen, hbc⟩ := InputAt.bytes h ht hQ fun _ => hc
      rw [if_pos rfl] at hbc
      subst hbc
      obtain ⟨md, -, hmd, -⟩ := hc.opens h.valid
      exact ⟨md, by rw [hb, openFile_of_length pq hlen, DatasetServer.openParquet, hmd], hmd, hlen.symm⟩
    simp only [Task.step]
    cases ho : openFile pq input ((root.setFile (n :: root.base) c).bytesOf input) with
    | error e =>
      refine ⟨rfl, fun hQ => ?_⟩
      obtain ⟨md, hmd, -⟩ := hopens hQ
      cases ho.symm.trans hmd
    | ok md =>
      refine ⟨rfl, ht.1, fun hQ => ?_⟩
      obtain ⟨md', hmd', hc, hsize⟩ := hopens hQ
      obtain rfl : md = md' := Except.ok.inj (ho.symm.trans hmd')
      exact ⟨c, hsettled hQ (.inr trivial), hsize, hc⟩
  | reading input md =>
    obtain ⟨hpath, hread⟩ := ht
    refine ⟨rfl, fun hQ => ?_⟩
    obtain ⟨c', hc', hsize, hmd⟩ := hread hQ
    obtain rfl := hc'.unique (hsettled hQ (.inr trivial))
    obtain ⟨md', t, hmd', hrows, hschema, -, ht⟩ := hc'.opens h.valid
    obtain rfl : md = md' := Option.some.inj (hmd.symm.trans hmd')
    have hbytes : (root.setFile (n :: root.base) c').bytesOf input = c' := by
      rw [SubTreeFileSystem.bytesOf_of_file (c := c') (by rw [hpath]; exact hn), hsize, List.take_length]
    refine ⟨⟨md.schema, Table.toRecordBatches ⟨md.schema, t.rows⟩⟩, ?_, ?_⟩
    · simp only [hbytes, DatasetServer.readTable, hrows, Except.bind]
    · rw [FlightDataStream.readAll, flatten_toRecordBatches, hschema]
      exact ht
  | stream r => exact ⟨rfl, ht⟩
  | listFlights readdir =>
    obtain ⟨infos, hinfos, hlisted, hnames⟩ := h.listed c readdir
    simp only [Task.step, hinfos]
    exact ⟨trivial, hlisted, fun _ _ => ⟨[], by simpa using hnames, .nil⟩⟩
  | listing rest found =>
    cases rest with
    | nil =>
      refine ⟨rfl, fun hQ hr => ?_⟩
      obtain ⟨names, hnames, hall⟩ := ht.2 hQ hr
      exact ⟨found, names, rfl, by simpa using hnames, hall⟩
    | cons fileInfo rest =>
      rw [Task.step_listing]
      by_cases hd : isDataset fileInfo = true
      · obtain ⟨b, ho, hb⟩ := h.opens_listed c (ht.1 fileInfo List.mem_cons_self) hd
        rw [if_pos hd, ho]
        refine ⟨rfl, hd, ⟨rfl, ?_⟩, ht⟩
        split
        · rename_i hname
          rw [if_pos hname] at hb
          subst hb
          exact fun hQ => ⟨b, hsettled hQ (.inl ⟨hname, hd⟩), rfl⟩
        · rename_i hname
          rw [if_neg hname] at hb
          exact ⟨b, hb, rfl⟩
      · rw [if_neg hd]
        refine ⟨rfl, fun info hi => ht.1 info (List.mem_cons_of_mem _ hi), fun hQ hr => ?_⟩
        obtain ⟨names, hnames, hall⟩ := ht.2 hQ hr
        rw [List.filter_cons_of_neg hd] at hnames
        exact ⟨names, hnames, hall⟩
  | listingFile fileInfo input rest found =>
    obtain ⟨hd, hin, hlisted, hfound⟩ := ht
    have hmade : Q → Readable pq root → ∃ f,
        inspect pq port fileInfo input ((root.setFile (n :: root.base) c).bytesOf input) = .ok f ∧
          Reports pq port root n told.table u.reader.table fileInfo.path f := fun hQ hr => by
      obtain ⟨x, hx, hother⟩ := (hlisted fileInfo List.mem_cons_self).file pq hd
      have := hin.inspect_ok port h hQ (fun hname => hsettled hQ (.inr hname)) fun hname => hother hname hr
      rwa [← hx] at this
    simp only [Task.step, true_and]
    cases hi : inspect pq port fileInfo input ((root.setFile (n :: root.base) c).bytesOf input) with
    | error e =>
      intro hQ hr
      obtain ⟨f, hf, -⟩ := hmade hQ hr
      cases hi.symm.trans hf
    | ok f =>
      refine ⟨fun info hi => hlisted info (List.mem_cons_of_mem _ hi), fun hQ hr => ?_⟩
      obtain ⟨f', hf', hrep⟩ := hmade hQ hr
      obtain rfl : f = f' := Except.ok.inj (hi.symm.trans hf')
      obtain ⟨names, hnames, hall⟩ := hfound hQ hr
      refine ⟨names ++ [fileInfo.path], ?_, List.rel_append hall (.cons hrep .nil)⟩
      rw [← hnames, List.filter_cons_of_pos hd]
      simp
  | flights r => exact ⟨rfl, ht⟩
  | doPut _ _ => exact ht.elim
  | opening _ _ _ => exact ht.elim
  | receiving _ _ _ _ => exact ht.elim
  | writing _ _ _ => exact ht.elim
  | closing _ => exact ht.elim
  | put _ => exact ht.elim

/-! ## All threads -/

/-- The store is as it was but for the file, and every reader is where it can be, if it has been quiet so far or not. -/
structure Running (pq : Parquet Schema Row) (port : Nat) (root : SubTreeFileSystem) (n old : Bytes)
    (told : ParquetFile Schema Row) (u : Upload Schema Row) (w : ι) (Q : ι → Prop)
    (c : Pool ι SubTreeFileSystem (Task Schema Row)) : Prop where
  stored : Stored pq root n old u w c
  readers : ∀ i, i ≠ w → ReaderAt pq port root n old told u (Q i) (c.task w) (c.task i)

theorem start_task_of_ne {cut : Chunking} {reader : ι → Reader} {i : ι} (hi : i ≠ w) :
    (start root n w u cut reader).task i = (reader i).task n := if_neg hi

theorem running_start (h : Replacing pq root n old told u) (Q : ι → Prop) (cut : Chunking) (reader : ι → Reader) :
    Running pq port root n old told u w Q (start root n w u cut reader) where
  stored := by
    have hw : (start root n w u cut reader).task w = .doPut u cut := if_pos rfl
    have hself : root.setFile (n :: root.base) old = root :=
      SubTreeFileSystem.ext_tree (by rw [SubTreeFileSystem.setFile_tree]; exact FileTree.setFile_self h.held) rfl
    refine ⟨?_, by rw [hw]; rfl⟩
    rw [hw]
    exact hself.symm
  readers i hi := by
    rw [start_task_of_ne hi]
    cases reader i with
    | getFlightInfo => rfl
    | doGet => rfl
    | listFlights readdir => trivial

/-- **A step of any thread.** -/
theorem Running.step (h : Replacing pq root n old told u) {Q : ι → Prop} {c : Pool ι SubTreeFileSystem (Task Schema Row)}
    (hc : Running pq port root n old told u w Q c) {j : ι} (hquiet : ∀ i, i ≠ w → Q i → Quiet n w i c j) :
    Running pq port root n old told u w Q (c.step (Task.step pq port) j) := by
  obtain ⟨hstored, hreaders⟩ := hc
  by_cases hj : j = w
  · subst hj
    have hdirs : root.SameDirs c.shared := by
      rw [hstored.shared]
      exact (SubTreeFileSystem.SameDirs.refl root).setFile _ _
    have hput := (hstored.upload.step port h.name hdirs).2
    refine ⟨hstored.step_upload h, fun i hi => ?_⟩
    rw [Pool.step_task_of_ne _ _ hi, Pool.step_task_self]
    exact (hreaders i hi).mono (by simp [h.outputPath]) hput fun hQ => (hquiet i hi hQ).2 rfl
  · have hread := (hreaders j hj).step h (c := content pq old u (c.task w)) fun hQ hr =>
      hstored.settled h ((hquiet j hj hQ).1 rfl hr)
    rw [← hstored.shared] at hread
    have hw : (c.step (Task.step pq port) j).task w = c.task w := Pool.step_task_of_ne _ _ (Ne.symm hj)
    refine ⟨⟨?_, by rw [hw]; exact hstored.upload⟩, fun i hi => ?_⟩
    · rw [Pool.step_shared, hread.1, hw]
      exact hstored.shared
    · rw [hw]
      exact Pool.forall_task_step
        (Q := fun i t => i ≠ w → ReaderAt pq port root n old told u (Q i) (c.task w) t) _ c
        (fun i _ hi => hreaders i hi) (fun _ => hread.2) i hi

theorem ReaderAt.answered {Q : Prop} {writer t : Task Schema Row} {k : Nat}
    (ht : ReaderAt pq port root n old told u Q writer t) (hk : t.remaining k = 0) : Answered t := by
  cases t with
  | info => trivial
  | stream => trivial
  | flights => trivial
  | getFlightInfo => cases hk
  | inspecting => cases hk
  | inspectingFile => cases hk
  | doGet => cases hk
  | fetching => cases hk
  | reading => cases hk
  | listFlights => cases hk
  | listing => cases hk
  | listingFile => cases hk
  | _ => exact ht.elim

/-! ## Inside the window -/

theorem failed_step {t : Task Schema Row} (ht : Failed t) (fs : SubTreeFileSystem) : (t.step pq port fs).2 = t := by
  cases t with
  | info => rfl
  | stream => rfl
  | flights => rfl
  | _ => exact ht.elim

/-- The file `n` that the task has open to read its footer. -/
def footerOf (n : Bytes) : Task Schema Row → Option ReadableFile
  | .inspectingFile _ input => some input
  | .fetching input => some input
  | .listingFile fileInfo input _ _ => if fileInfo.path = n then some input else none
  | _ => none

theorem footerOf_of_readsFooter {t : Task Schema Row} (h : ReadsFooter n t) : ∃ input, footerOf n t = some input := by
  cases t with
  | inspectingFile fileInfo input => exact ⟨input, rfl⟩
  | fetching input => exact ⟨input, rfl⟩
  | listingFile fileInfo input rest found => exact ⟨input, if_pos h⟩
  | _ => exact h.elim

/-- **The footer of a file that has not all of the new table's bytes**, or had less when it was opened, is not found. -/
theorem ReaderAt.failed (h : Replacing pq root n old told u) (hpq : pq.RejectsPartial) {Q : Prop} {writer t : Task Schema Row}
    {k : Nat} {input : ReadableFile} (ht : ReaderAt pq port root n old told u Q writer t) (hr : footerOf n t = some input)
    (hk : k < (pq.encode u.reader.table).length ∨ input.size < (pq.encode u.reader.table).length) :
    Failed (t.step pq port (root.setFile (n :: root.base) ((pq.encode u.reader.table).take k))).2 := by
  have hcut : input.path = n :: root.base →
      openFile pq input ((root.setFile (n :: root.base) ((pq.encode u.reader.table).take k)).bytesOf input) =
        .error (.IOError .parquet) := fun hpath => by
    rw [SubTreeFileSystem.bytesOf_of_file (c := (pq.encode u.reader.table).take k), openFile_of_cut hpq hk]
    rw [hpath, h.node_setFile, if_pos rfl]
  cases t with
  | inspectingFile fileInfo input' =>
    obtain rfl : input' = input := Option.some.inj hr
    obtain ⟨⟨x, rfl⟩, hin⟩ := ht
    simp only [Task.step, inspect_ofNode, hcut hin.1, Failed]
  | fetching input' =>
    obtain rfl : input' = input := Option.some.inj hr
    simp only [Task.step, hcut ht.1, Failed]
  | listingFile fileInfo input' rest found =>
    by_cases hname : fileInfo.path = n
    · obtain rfl : input' = input := by simpa [footerOf, hname] using hr
      obtain ⟨hd, hin, hlisted, -⟩ := ht
      obtain ⟨x, hx, -⟩ := (hlisted fileInfo List.mem_cons_self).file pq hd
      rw [hx]
      simp only [Task.step, inspect_ofNode, hcut (hname ▸ hin.1), Task.listed, Failed]
    · simp [footerOf, hname] at hr
  | _ => cases hr

/-- **Whoever opens the file while it is being written has it open at less than the size it will have.** -/
theorem ReaderAt.opens_short (h : Replacing pq root n old told u) {Q : Prop} {writer t : Task Schema Row} {c : Bytes}
    (ht : ReaderAt pq port root n old told u Q writer t) (hr : OpensInput n t) :
    footerOf n (t.step pq port (root.setFile (n :: root.base) c)).2 = some ⟨n :: root.base, c.length⟩ := by
  have hn : (root.setFile (n :: root.base) c).tree.node (n :: root.base) = some (.file c) := by
    rw [h.node_setFile, if_pos rfl]
  cases t with
  | inspecting fileInfo =>
    obtain ⟨x, rfl⟩ := ht
    have ho : (root.setFile (n :: root.base) c).openReadableInfo (.ofNode n (some (.file x))) = .ok ⟨n :: root.base, c.length⟩ :=
      SubTreeFileSystem.openReadable_of_node hn
    simp only [Task.step, ho, footerOf]
  | doGet request =>
    obtain rfl := ht
    simp only [Task.step, SubTreeFileSystem.openReadable_of_node hn, footerOf, SubTreeFileSystem.setFile_base]
  | listing rest found =>
    cases rest with
    | nil => exact hr.elim
    | cons fileInfo rest =>
      obtain ⟨hname, hd⟩ := hr
      obtain ⟨b, ho, hb⟩ := h.opens_listed c (ht.1 fileInfo List.mem_cons_self) hd
      rw [if_pos hname] at hb
      subst hb
      rw [Task.step_listing, if_pos hd, ho]
      simp only [footerOf, hname, if_true]
  | _ => exact hr.elim

/-- The reader has failed, or has the file open at less than the size it will have. -/
def Doomed (pq : Parquet Schema Row) (n : Bytes) (u : Upload Schema Row) (w i : ι)
    (c : Pool ι SubTreeFileSystem (Task Schema Row)) : Prop :=
  Failed (c.task i) ∨ (c.task w).Opened ∧ ∃ input, footerOf n (c.task i) = some input ∧
    input.size < (pq.encode u.reader.table).length

theorem Running.failed_step (h : Replacing pq root n old told u) (hpq : pq.RejectsPartial) {Q : ι → Prop}
    {c : Pool ι SubTreeFileSystem (Task Schema Row)} (hc : Running pq port root n old told u w Q c) {i : ι} (hi : i ≠ w)
    {input : ReadableFile} (hr : footerOf n (c.task i) = some input) (ho : (c.task w).Opened)
    (hcut : (c.task w).written (pq.encode u.reader.table) < (pq.encode u.reader.table).length ∨
      input.size < (pq.encode u.reader.table).length) : Failed ((c.step (Task.step pq port) i).task i) := by
  rw [Pool.step_task_self, hc.stored.shared, content_of_opened ho, h.bytes]
  exact (hc.readers i hi).failed h hpq hr hcut

theorem Doomed.step (h : Replacing pq root n old told u) (hpq : pq.RejectsPartial) {Q : ι → Prop}
    {c : Pool ι SubTreeFileSystem (Task Schema Row)} (hc : Running pq port root n old told u w Q c) {i : ι} (hi : i ≠ w)
    (hd : Doomed pq n u w i c) (j : ι) : Doomed pq n u w i (c.step (Task.step pq port) j) := by
  by_cases hij : i = j
  · subst hij
    rcases hd with hf | ⟨ho, input, hr, hsize⟩
    · refine .inl ?_
      rw [Pool.step_task_self, ReadDuringPut.failed_step hf]
      exact hf
    · exact .inl (hc.failed_step h hpq hi hr ho (.inr hsize))
  · unfold Doomed
    rw [Pool.step_task_of_ne _ _ hij]
    refine hd.imp id fun ⟨ho, hr⟩ => ⟨?_, hr⟩
    by_cases hj : j = w
    · subst hj
      have hdirs : root.SameDirs c.shared := by
        rw [hc.stored.shared]
        exact (SubTreeFileSystem.SameDirs.refl root).setFile _ _
      have hput := (hc.stored.upload.step port h.name hdirs).2
      rw [Pool.step_task_self]
      generalize Task.step pq port c.shared (c.task j) = r at hput
      cases hput with
      | idle _ _ hopened => exact hopened ho
      | opens _ _ hopened => exact hopened
      | writes _ _ _ hopened => exact hopened
    · rwa [Pool.step_task_of_ne _ _ (Ne.symm hj)]

omit [DecidableEq ι] in
/-- **A doomed reader that has been answered has failed**, as a file that is open is no answer. -/
theorem Doomed.failed {i : ι} {c : Pool ι SubTreeFileSystem (Task Schema Row)} (hd : Doomed pq n u w i c)
    (ha : Answered (c.task i)) : Failed (c.task i) := by
  obtain hf | ⟨-, input, hin, -⟩ := hd
  · exact hf
  · generalize c.task i = t at hin ha
    cases t with
    | info => cases hin
    | stream => cases hin
    | flights => cases hin
    | _ => exact ha.elim

variable (pq port) in
theorem failed_run {i : ι} {c : Pool ι SubTreeFileSystem (Task Schema Row)} (hf : Failed (c.task i)) (sched : List ι) :
    Failed ((c.run (Task.step pq port) sched).task i) := by
  refine Pool.run_invariant (I := fun c => Failed (c.task i)) (fun c j hc => ?_) sched hf
  by_cases hij : i = j
  · subst hij
    rw [Pool.step_task_self, failed_step hc]
    exact hc
  · rwa [Pool.step_task_of_ne _ _ hij]

/-! ## Whole runs -/

section Run

variable (h : Replacing pq root n old told u) (cut : Chunking) (reader : ι → Reader) (sched : List ι) {i : ι}

include h

theorem running_step (c : Pool ι SubTreeFileSystem (Task Schema Row)) (j : ι)
    (hc : Running pq port root n old told u w (fun _ => False) c) :
    Running pq port root n old told u w (fun _ => False) (c.step (Task.step pq port) j) := hc.step h fun _ _ hQ => hQ.elim

variable (port w) in
theorem running_run : Running pq port root n old told u w (fun _ => False) (run pq port root n w u cut reader sched) :=
  Pool.run_invariant (running_step h) sched (running_start h _ cut reader)

/-- **A reader is answered that has taken its steps.** -/
theorem answered_run (hi : i ≠ w) (hcount : 2 * (root.tree.children root.base).card + 2 ≤ sched.count i) :
    Answered ((run pq port root n w u cut reader sched).task i) := by
  have hstart : Running pq port root n old told u w (fun _ => False) (start root n w u cut reader) := running_start h _ cut reader
  have hk := Pool.run_countdown (running_step h) (m := Task.remaining (root.tree.children root.base).card)
    (i := i) (fun c hc => Task.remaining_step pq port (hc.stored.card_children h).le _) sched hstart
  have hcard : 0 < (root.tree.children root.base).card := Multiset.card_pos_iff_exists_mem.2 ⟨_, FileTree.mem_children.2 h.held⟩
  have hfirst : ((start root n w u cut reader).task i).remaining (root.tree.children root.base).card ≤
      2 * (root.tree.children root.base).card + 2 := by
    rw [start_task_of_ne hi]
    cases reader i <;> simp only [Reader.task, Task.remaining] <;> omega
  have hzero : ((run pq port root n w u cut reader sched).task i).remaining (root.tree.children root.base).card = 0 :=
    Nat.le_zero.1 (hk.trans (by omega))
  exact ((running_run port w h cut reader sched).readers i hi).answered hzero

/-- **A reader that stays out of the window is answered well**, if it is answered. -/
theorem answersWell_run (hi : i ≠ w)
    (hquiet : Pool.AllSteps (Task.step pq port) (Quiet n w i) (start root n w u cut reader) sched) :
    AnswersWell pq port root n told.table u.reader.table ((run pq port root n w u cut reader sched).task i) := by
  have hrun : Running pq port root n old told u w (· = i) (run pq port root n w u cut reader sched) :=
    Pool.run_invariant_of_allSteps (fun c j hc hj => hc.step h fun k _ hk => hk ▸ hj) sched hquiet
      (running_start h _ cut reader)
  have hat := hrun.readers i hi
  generalize (run pq port root n w u cut reader sched).task i = t at hat
  cases t with
  | info => exact hat rfl
  | stream => exact hat rfl
  | flights => exact hat rfl
  | _ => trivial

variable (hpq : pq.RejectsPartial) {c : Pool ι SubTreeFileSystem (Task Schema Row)}
  (hc : Running pq port root n old told u w (fun _ => False) c) (hun : (c.task w).Unwritten)

include hpq hc hun

/-- **A reader that reads the footer inside the window fails** at that step. -/
theorem failed_of_readsFooter (hi : i ≠ w) (hr : ReadsFooter n (c.task i)) :
    Failed ((c.step (Task.step pq port) i).task i) := by
  obtain ⟨input, hin⟩ := footerOf_of_readsFooter hr
  exact hc.failed_step h hpq hi hin (opened_of_unwritten hun) (.inl (hc.stored.written_lt h hpq hun))

theorem doomed_of_opensInput (hi : i ≠ w) (hr : OpensInput n (c.task i)) :
    Doomed pq n u w i (c.step (Task.step pq port) i) := by
  have ho := opened_of_unwritten hun
  have hopens := (hc.readers i hi).opens_short h (c := content pq old u (c.task w)) hr
  rw [← hc.stored.shared, content_of_opened ho, h.bytes, List.length_take] at hopens
  refine .inr ⟨by rwa [Pool.step_task_of_ne _ _ (Ne.symm hi)], _, by rw [Pool.step_task_self]; exact hopens, ?_⟩
  exact (min_le_left _ _).trans_lt (hc.stored.written_lt h hpq hun)

/-- **A reader that opens the file inside the window has failed when it is answered.** -/
theorem failed_of_opensInput (hi : i ≠ w) (hr : OpensInput n (c.task i)) (post : List ι)
    (ha : Answered (((c.step (Task.step pq port) i).run (Task.step pq port) post).task i)) :
    Failed (((c.step (Task.step pq port) i).run (Task.step pq port) post).task i) :=
  (Pool.run_invariant (I := fun c => Running pq port root n old told u w (fun _ => False) c ∧ Doomed pq n u w i c)
    (fun c j hc => ⟨running_step h c j hc.1, hc.2.step h hpq hc.1 hi j⟩) post
    ⟨running_step h c i hc, doomed_of_opensInput h hpq hc hun hi hr⟩).2.failed ha

end Run
end Invariant

/-- **Every reader is answered, a listing after at most two steps for each entry, and two more.  A reader that stays out of
the window, and has the file not open when the upload opens it, answers OK with the table there was or the one there is**, a
listing with every other dataset besides; **one that reads the footer inside the window fails, and one that opens the file
inside the window fails when it is answered.** -/
theorem reader_answers (root : SubTreeFileSystem) (n old : Bytes) (told : ParquetFile Schema Row) (u : Upload Schema Row)
    (h : Replacing pq root n old told u) (hpq : pq.RejectsPartial) (w : ι) (cut : Chunking) (reader : ι → Reader)
    (sched : List ι) (i : ι) (hi : i ≠ w) :
    (2 * (root.tree.children root.base).card + 2 ≤ sched.count i →
      Answered ((run pq port root n w u cut reader sched).task i)) ∧
    (Pool.AllSteps (Task.step pq port) (Quiet n w i) (start root n w u cut reader) sched →
      AnswersWell pq port root n told.table u.reader.table ((run pq port root n w u cut reader sched).task i)) ∧
    ∀ pre post, sched = pre ++ i :: post → ((run pq port root n w u cut reader pre).task w).Unwritten →
      (ReadsFooter n ((run pq port root n w u cut reader pre).task i) →
        Failed ((run pq port root n w u cut reader sched).task i)) ∧
      (OpensInput n ((run pq port root n w u cut reader pre).task i) →
        Answered ((run pq port root n w u cut reader sched).task i) →
          Failed ((run pq port root n w u cut reader sched).task i)) := by
  refine ⟨answered_run h cut reader sched hi, answersWell_run h cut reader sched hi, ?_⟩
  rintro pre post rfl hun
  have hpre := running_run port w h cut reader pre
  have hend : run pq port root n w u cut reader (pre ++ i :: post) =
      ((run pq port root n w u cut reader pre).step (Task.step pq port) i).run (Task.step pq port) post := by
    unfold run
    rw [Pool.run_append, Pool.run_cons]
  rw [hend]
  constructor
  · exact fun hr => failed_run pq port (failed_of_readsFooter h hpq hpre hun hi hr) post
  · exact fun hr hanswered => failed_of_opensInput h hpq hpre hun hi hr post hanswered

/-! ## A dataset of one row is replaced by one of two -/

/-- Whatever the interleaving with an upload that is answered OK, the readers are answered well. -/
def AlwaysAnswers (root : SubTreeFileSystem) (n : Bytes) (told : Table Schema Row) (u : Upload Schema Row) (w : ι)
    (cut : Chunking) (reader : ι → Reader) : Prop :=
  ∀ sched, (run pq port root n w u cut reader sched).task w = .put (.ok ()) →
    ∀ i, i ≠ w → AnswersWell pq port root n told u.reader.table ((run pq port root n w u cut reader sched).task i)

def oneRow : SubTreeFileSystem := SubTreeFileSystem.bare.setFile [utf8 "a.parquet"] (tinyParquet.encode ⟨(), [7]⟩)

def twoRows : Upload Unit UInt8 := .ofTable (.ofPath [utf8 "a.parquet"]) ⟨(), [8, 9]⟩

theorem replacing_oneRow : Replacing tinyParquet oneRow (utf8 "a.parquet") (tinyParquet.encode ⟨(), [7]⟩)
    (writeTable 65536 ⟨(), [7]⟩) twoRows where
  held := by decide +kernel
  valid := tinyParquet.holds_serialize _
  name := by decide +kernel
  completes := ⟨rfl, rfl⟩

/-- The info is looked up before the upload opens the file, and opened and read when it has been written. -/
def aroundPut : List Bool := [false, true, true, true, true, true, true, true, false, false]

theorem reader_answers_aroundPut :
    AnswersWell tinyParquet 5000 oneRow (utf8 "a.parquet") (writeTable 65536 ⟨(), [7]⟩).table ⟨(), [8, 9]⟩
      ((run tinyParquet 5000 oneRow (utf8 "a.parquet") true twoRows .whole (fun _ => .getFlightInfo) aroundPut).task false) :=
  (reader_answers tinyParquet 5000 oneRow (utf8 "a.parquet") _ _ twoRows replacing_oneRow tinyParquet_rejectsPartial true
    .whole (fun _ => .getFlightInfo) aroundPut false (by decide)).2.1
    (by
      have hput : ∀ c : Pool Bool SubTreeFileSystem (Task Unit UInt8), ¬ HasOpen (utf8 "a.parquet") (c.task false) →
          Quiet (utf8 "a.parquet") true false c true := fun c hc => ⟨fun h => (by cases h), fun _ _ => hc⟩
      have hread : ∀ c : Pool Bool SubTreeFileSystem (Task Unit UInt8), ¬ (c.task true).Unwritten →
          Quiet (utf8 "a.parquet") true false c false := fun c hc => ⟨fun _ _ => hc, fun h => by cases h⟩
      exact ⟨hread _ id, hput _ id, hput _ id, hput _ id, hput _ id, hput _ id, hput _ id, hput _ id, hread _ id, hread _ id,
        trivial⟩)

/-- The file is opened and read when the upload has emptied it. -/
def duringPut : List Bool := [false, true, true, false, false, true, true, true, true, true]

/-- The file is opened before the upload, and read after it. -/
def openAcrossPut : List Bool := [false, false, true, true, true, true, true, true, true, false]

/-- An info fails that is read when the upload has emptied the file, and so does a fetch of the rows under a footer read
before the upload; the upload is answered OK. -/
theorem readers_fail_duringPut :
    ¬ AlwaysAnswers tinyParquet 5000 oneRow (utf8 "a.parquet") ⟨(), [7]⟩ twoRows true .whole (fun _ => .getFlightInfo) ∧
      ¬ AlwaysAnswers tinyParquet 5000 oneRow (utf8 "a.parquet") ⟨(), [7]⟩ twoRows true .whole (fun _ => .doGet) := by
  refine ⟨fun h => ?_, fun h => ?_⟩
  · have hread := h duringPut rfl false (by decide)
    have hfail : (run tinyParquet 5000 oneRow (utf8 "a.parquet") true twoRows .whole (fun _ => .getFlightInfo) duringPut).task
        false = .info (.error (.IOError .parquet)) := rfl
    rw [hfail] at hread
    obtain ⟨f, hf, -⟩ := hread
    cases hf
  · have hread := h openAcrossPut rfl false (by decide)
    have hfail : (run tinyParquet 5000 oneRow (utf8 "a.parquet") true twoRows .whole (fun _ => .doGet) openAcrossPut).task
        false = .stream (.error (.IOError .parquet)) := rfl
    rw [hfail] at hread
    obtain ⟨s, hs, -⟩ := hread
    cases hs

-- an info fails as well whose file was opened before the upload
example : (run tinyParquet 5000 oneRow (utf8 "a.parquet") true twoRows .whole (fun _ => .getFlightInfo) openAcrossPut).task
    false = .info (.error (.IOError .parquet)) := rfl

end ReadDuringPut
