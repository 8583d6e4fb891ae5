import Mathlib.Data.Fintype.Card
import FlightPlayground.StorageServiceClient
import FlightPlayground.ReadDuringPut
/-!
# SimulatedClients — any number of simulated clients of one server

Each of them stores a table under a UUID of its own and reads it back, in between two listings.  However the server
interleaves their calls, a client whose upload completes gets its own table back, and one whose upload breaks off raises
that; the listings show what was there before them, and nothing a client stores.
-/
namespace SimulatedClients

open Posix (Bytes Node NodePath FileTree utf8)
open Unordered (Enumeration)
open Arrow
open Flight
open Calls
open Tracing
open FlightStressTestServer
open StorageServiceClient
open DatasetServer (isDataset mintedInfo)
open ReadDuringPut (Readable datasetNames)

variable {Schema Row ι : Type} (pq : Parquet Schema Row) (port : Nat)

/-- A simulated client: the table and the UUID it draws, and what becomes of its calls. -/
structure Client (Schema Row : Type) where
  data : Table Schema Row
  uuid : UUID
  world : Conditions

namespace Client

def upload (c : Client Schema Row) : Upload Schema Row := uploadOf c.data c.uuid.str c.world

/-- The file the client stores its table in. -/
def file (c : Client Schema Row) (root : SubTreeFileSystem) : NodePath := c.uuid.str :: root.base

end Client

/-- The server, as its clients' calls see it. -/
def server : Server SubTreeFileSystem (Request Schema Row) Answer (Task Schema Row) where
  accept := Request.task
  step := Task.step pq port
  answer r t :=
    match r, t with
    | .doPut _ _, .put result => some result
    | .getFlightInfo _, .info result => some result
    | .doGet _, .stream result => some result
    | .listFlights _, .flights result => some result
    | _, _ => none

/-- Datasets that can be read, and clients with a UUID each, under which there is no directory. -/
structure Traffic (root : SubTreeFileSystem) (client : ι → Client Schema Row) : Prop where
  readable : Readable pq root
  distinct : Function.Injective fun i => (client i).uuid
  fresh : ∀ i, root.tree.node ((client i).file root) ≠ some .dir

/-- A listing shows the datasets of the directory. -/
def Lists (root : SubTreeFileSystem) (paths : List (List Bytes)) : Prop :=
  (paths : Multiset (List Bytes)) = (datasetNames root).map ([·])

/-! ## The store -/

/-- The clients' files aside, the store is as it was. -/
structure Kept (root : SubTreeFileSystem) (client : ι → Client Schema Row) (s : SubTreeFileSystem) : Prop where
  dirs : root.SameDirs s
  node : ∀ p, (∀ i, p ≠ (client i).file root) → s.tree.node p = root.tree.node p

section Kept

variable {pq port} {root s : SubTreeFileSystem} {client : ι → Client Schema Row}

theorem Kept.refl : Kept root client root := ⟨.refl root, fun _ _ => rfl⟩

/-- **A step that writes at most one client's file** keeps the store. -/
theorem Kept.step (h : Kept root client s) {i : ι} {t : Task Schema Row}
    (ht : ∀ p, t.WritesTo s p → p = (client i).file root) : Kept root client (t.step pq port s).1 where
  dirs := Task.sameDirs_step h.dirs t
  node p hp := (Task.node_step fun hw => hp i (ht p hw)).trans (h.node p hp)

theorem not_isDataset_uuid (uuid : UUID) (x : Option Node) : isDataset (.ofNode uuid.str x) = false := by
  have hext : (FileInfo.ofNode uuid.str x).extension ≠ utf8 "parquet" := by
    rw [FileInfo.extension, FileInfo.ofNode_path, uuid.extension_str]
    decide
  simp [isDataset, hext]

theorem Kept.node_dataset (h : Kept root client s) {name : Bytes} {x : Option Node}
    (hd : isDataset (.ofNode name x) = true) : s.tree.node (name :: root.base) = root.tree.node (name :: root.base) := by
  refine h.node _ fun i hi => ?_
  obtain rfl := List.head_eq_of_cons_eq hi
  rw [not_isDataset_uuid] at hd
  cases hd

/-- **A store that is kept has the same datasets.** -/
theorem Kept.datasetNames_eq (h : Kept root client s) : datasetNames s = datasetNames root := by
  refine (Multiset.Nodup.ext (ReadDuringPut.nodup_datasetNames _) (ReadDuringPut.nodup_datasetNames _)).2 fun name => ?_
  rw [ReadDuringPut.mem_datasetNames, ReadDuringPut.mem_datasetNames, h.dirs.base]
  refine exists_congr fun x => and_congr_left fun hd => ?_
  rw [h.node_dataset hd]

/-- **Its directory has one more entry for each client, at most.** -/
theorem Kept.card_children [Fintype ι] (h : Kept root client s) :
    (s.tree.children s.base).card ≤ (root.tree.children root.base).card + Fintype.card ι := by
  have hsub : (s.tree.children s.base).map Prod.fst ⊆
      (root.tree.children root.base).map Prod.fst + Finset.univ.val.map fun i => (client i).uuid.str := fun name hname => by
    rw [FileTree.mem_names, h.dirs.base] at hname
    rw [Multiset.mem_add, FileTree.mem_names]
    by_cases hp : ∀ i, name :: root.base ≠ (client i).file root
    · rw [h.node _ hp] at hname
      exact .inl hname
    · push Not at hp
      obtain ⟨i, hi⟩ := hp
      exact .inr (Multiset.mem_map.2 ⟨i, Finset.mem_univ_val i, (List.head_eq_of_cons_eq hi).symm⟩)
  have hle := Multiset.card_le_card ((Multiset.le_iff_subset (FileTree.nodup_children _ _)).2 hsub)
  simpa using hle

end Kept

/-! ## Where a call stands -/

/-- Where the upload of a client can stand, and what its file holds by then. -/
def UploadsAt (pq : Parquet Schema Row) (root : SubTreeFileSystem) (c : Client Schema Row) (held : Option Node)
    (t : Task Schema Row) : Prop :=
  ∃ before, UploadAt pq c.uuid.str (c.file root) c.upload before held t

/-- A listing has found some datasets, and those it has still to read are there to be read. -/
def ListsSoFar (root : SubTreeFileSystem) (rest : List FileInfo) (found : List (FlightInfo Schema)) : Prop :=
  (∀ info ∈ rest, isDataset info → ∃ name c, info = .ofNode name (some (.file c)) ∧
    root.tree.node (name :: root.base) = some (.file c)) ∧
  ∃ names : List Bytes, ((names ++ (rest.filter isDataset).map FileInfo.path : List Bytes) : Multiset Bytes) =
      datasetNames root ∧ (found.map fun info => info.descriptor.path) = names.map ([·])

/-- Where a listing can stand. -/
def ListsAt (root : SubTreeFileSystem) : Task Schema Row → Prop
  | .listFlights _ => True
  | .listing rest found => ListsSoFar root rest found
  | .listingFile info input rest found => ListsSoFar root (info :: rest) found ∧ isDataset info ∧
      ∃ c, root.tree.node (info.path :: root.base) = some (.file c) ∧ input = ⟨info.path :: root.base, c.length⟩
  | .flights result => ∃ flights, result = .ok flights ∧ Lists root (flights.map fun info => info.descriptor.path)
  | _ => False

/-- Where the client's lookup of its stored table can stand. -/
def InspectsAt (pq : Parquet Schema Row) (port : Nat) (root : SubTreeFileSystem) (c : Client Schema Row) :
    Task Schema Row → Prop
  | .getFlightInfo descriptor => descriptor = .ofPath [c.uuid.str]
  | .inspecting fileInfo => ∃ x, fileInfo = .ofNode c.uuid.str (some (.file x))
  | .inspectingFile fileInfo input => (∃ x, fileInfo = .ofNode c.uuid.str (some (.file x))) ∧
      input = ⟨c.file root, (pq.encode c.data).length⟩
  | .info result => ∃ size, result = .ok (mintedInfo port c.uuid.str (pq.encodedMetaData c.data) size)
  | _ => False

/-- Where the client's fetch of its stored table can stand. -/
def FetchesAt (pq : Parquet Schema Row) (root : SubTreeFileSystem) (c : Client Schema Row) : Task Schema Row → Prop
  | .doGet request => request = ⟨c.uuid.str⟩
  | .fetching input => input = ⟨c.file root, (pq.encode c.data).length⟩
  | .reading input reader => input = ⟨c.file root, (pq.encode c.data).length⟩ ∧ reader = pq.encodedMetaData c.data
  | .stream result => ∃ stream, result = .ok stream ∧ stream.readAll = c.data
  | _ => False

section Steps

variable {pq port} {root s : SubTreeFileSystem} {client : ι → Client Schema Row} {c : Client Schema Row}
  {t : Task Schema Row}

theorem leaves_upload (h : c.upload.Completes) : leaves pq c.upload = pq.encode c.data := by
  rw [leaves_of_completes h]
  congr 1
  exact congrArg (Table.mk c.data.schema) (flatten_toRecordBatches c.data)

/-- **A step of a client's upload**: it writes the client's file at most, and leaves the upload where it can stand. -/
theorem UploadsAt.step (hs : root.SameDirs s) (hfresh : root.tree.node (c.file root) ≠ some .dir)
    (h : UploadsAt pq root c (s.tree.node (c.file root)) t) :
    UploadsAt pq root c ((t.step pq port s).1.tree.node (c.file root)) (t.step pq port s).2 := by
  obtain ⟨before, h⟩ := h
  have hslash := Posix.removeLeadingSlash_of_valid c.uuid.validName_str
  have hp : root.outputPath (Posix.removeLeadingSlash c.uuid.str) = some (c.file root) := by
    rw [hslash]
    exact SubTreeFileSystem.outputPath_of_valid c.uuid.validName_str hfresh
  have hstep := UploadAt.step port (s := c.uuid.str) (u := c.upload) rfl hs hp (by rwa [hslash])
  rw [hslash] at hstep
  exact ⟨before, hstep⟩

theorem UploadsAt.writesTo {held : Option Node} (hs : root.SameDirs s) (h : UploadsAt pq root c held t) {p : NodePath}
    (hw : t.WritesTo s p) : p = c.file root :=
  h.choose_spec.writesTo hs (SubTreeFileSystem.resolve_of_valid c.uuid.validName_str) hw

theorem openReadable_of_node (hs : root.SameDirs s) {n b : Bytes} (hn : s.tree.node (n :: root.base) = some (.file b)) :
    s.openReadable n = .ok ⟨n :: root.base, b.length⟩ := by
  rw [← hs.base] at hn ⊢
  exact SubTreeFileSystem.openReadable_of_node hn

/-- **A step of a listing.** -/
theorem ListsAt.step (hread : Readable pq root) (hs : Kept root client s) (h : ListsAt root t) :
    ListsAt root (t.step pq port s).2 := by
  cases t with
  | listFlights readdir =>
    refine ⟨fun info hinfo hd => ?_, [], ?_, rfl⟩
    · obtain ⟨⟨name, x⟩, he, rfl⟩ := List.mem_map.1 hinfo
      have hx : s.tree.node (name :: s.base) = some x := FileTree.mem_children.1 ((Enumeration.mem_list _).1 he)
      rw [hs.dirs.base, hs.node_dataset hd] at hx
      cases x with
      | dir => cases hd
      | file c => exact ⟨name, c, rfl, hx⟩
    · rw [← hs.datasetNames_eq]
      exact ReadDuringPut.names_of_listing s readdir
  | listing rest found =>
    obtain ⟨hrest, names, hnames, hfound⟩ := h
    cases rest with
    | nil =>
      refine ⟨found, rfl, ?_⟩
      rw [Lists, hfound, ← hnames]
      simp
    | cons info rest =>
      have hrest' := fun info' hi => hrest info' (List.mem_cons_of_mem info hi)
      rw [Task.step_listing]
      by_cases hd : isDataset info = true
      · obtain ⟨name, c, rfl, hc⟩ := hrest info List.mem_cons_self hd
        have ho : s.openReadableInfo (.ofNode name (some (.file c))) = .ok ⟨name :: root.base, c.length⟩ :=
          openReadable_of_node hs.dirs ((hs.node_dataset hd).trans hc)
        rw [if_pos hd, ho]
        exact ⟨⟨hrest, names, hnames, hfound⟩, hd, c, hc, rfl⟩
      · rw [if_neg hd]
        rw [List.filter_cons_of_neg hd] at hnames
        exact ⟨fun info' hi => hrest info' (List.mem_cons_of_mem info hi), names, hnames, hfound⟩
  | listingFile info input rest found =>
    obtain ⟨⟨hrest, names, hnames, hfound⟩, hd, c, hc, rfl⟩ := h
    obtain ⟨name, c', rfl, hc'⟩ := hrest info List.mem_cons_self hd
    rw [FileInfo.ofNode_path] at hc
    obtain rfl : c' = c := Node.file.inj (Option.some.inj (hc'.symm.trans hc))
    obtain ⟨md, hmd⟩ := Option.isSome_iff_exists.1 (hread name c' hc hd)
    have hbytes := SubTreeFileSystem.bytesOf_whole ((hs.node_dataset hd).trans hc)
    simp only [Task.step, FileInfo.ofNode_path, hbytes, inspect_whole (FileTree.validName_of_node hc) hmd, Task.listed]
    refine ⟨fun info' hi => hrest info' (List.mem_cons_of_mem _ hi), names ++ [name], ?_,
      by simp [hfound, mintedInfo, FlightDescriptor.ofPath]⟩
    rw [← hnames, List.filter_cons_of_pos hd]
    simp
  | flights result => exact h
  | _ => exact h.elim

/-- **A step of a lookup of the stored table.** -/
theorem InspectsAt.step (hs : root.SameDirs s) (hheld : s.tree.node (c.file root) = some (.file (pq.encode c.data)))
    (h : InspectsAt pq port root c t) : InspectsAt pq port root c (t.step pq port s).2 := by
  cases t with
  | getFlightInfo descriptor =>
    obtain rfl := h
    have hf := DatasetServer.fileInfoFromDescriptor_of_name s (DatasetServer.nameOf_ofPath c.uuid.str)
    rw [Posix.removeLeadingSlash_of_valid c.uuid.validName_str, SubTreeFileSystem.nodeAt_of_valid c.uuid.validName_str,
      hs.base] at hf
    simp only [Task.step, hf]
    exact ⟨_, congrArg _ hheld⟩
  | inspecting fileInfo =>
    obtain ⟨x, rfl⟩ := h
    have ho : s.openReadableInfo (.ofNode c.uuid.str (some (.file x))) = .ok ⟨c.file root, (pq.encode c.data).length⟩ :=
      openReadable_of_node hs hheld
    simp only [Task.step, ho]
    exact ⟨⟨x, rfl⟩, rfl⟩
  | inspectingFile fileInfo input =>
    obtain ⟨⟨x, rfl⟩, rfl⟩ := h
    refine ⟨x.length, ?_⟩
    rw [SubTreeFileSystem.bytesOf_whole hheld]
    exact inspect_whole c.uuid.validName_str (pq.openFile_encode c.data) x _
  | info result => exact h
  | _ => exact h.elim

/-- **A step of a fetch of the stored table.** -/
theorem FetchesAt.step (hs : root.SameDirs s) (hheld : s.tree.node (c.file root) = some (.file (pq.encode c.data)))
    (h : FetchesAt pq root c t) : FetchesAt pq root c (t.step pq port s).2 := by
  have hbytes := SubTreeFileSystem.bytesOf_whole hheld
  cases t with
  | doGet request =>
    obtain rfl := h
    simp only [Task.step, openReadable_of_node hs hheld]
    rfl
  | fetching input =>
    obtain rfl := h
    have ho : openFile pq ⟨c.file root, (pq.encode c.data).length⟩ (pq.encode c.data) = .ok (pq.encodedMetaData c.data) := by
      rw [openFile_of_length pq rfl, DatasetServer.openParquet, pq.openFile_encode]
    simp only [Task.step, hbytes, ho]
    exact ⟨rfl, rfl⟩
  | reading input reader =>
    obtain ⟨rfl, rfl⟩ := h
    simp only [Task.step, hbytes, Except.bind, DatasetServer.readTable, pq.readTable_encode]
    exact ⟨_, rfl, by simp [FlightDataStream.readAll]⟩
  | stream result => exact h
  | _ => exact h.elim

theorem ListsAt.not_writesTo (h : ListsAt root t) {p : NodePath} : ¬ t.WritesTo s p := by
  cases t with
  | opening => exact h.elim
  | writing => exact h.elim
  | _ => exact id

theorem InspectsAt.not_writesTo (h : InspectsAt pq port root c t) {p : NodePath} : ¬ t.WritesTo s p := by
  cases t with
  | opening => exact h.elim
  | writing => exact h.elim
  | _ => exact id

theorem FetchesAt.not_writesTo (h : FetchesAt pq root c t) {p : NodePath} : ¬ t.WritesTo s p := by
  cases t with
  | opening => exact h.elim
  | writing => exact h.elim
  | _ => exact id

end Steps

/-! ## What a client can count on -/

inductive Stage
  | fresh
  | stored
  deriving DecidableEq

/-- A client lists when it likes, uploads its table once, and then reads it back. -/
def protocol (root : SubTreeFileSystem) (k : Nat) (c : Client Schema Row) : Protocol Stage (Request Schema Row) Answer where
  allowed g
    | .listFlights _ => True
    | .doPut u cut => g = .fresh ∧ u = c.upload ∧ cut = c.world.cut
    | .getFlightInfo descriptor => g = .stored ∧ descriptor = .ofPath [c.uuid.str]
    | .doGet request => g = .stored ∧ request = ⟨c.uuid.str⟩
  answers g
    | .listFlights _, result, g' => g' = g ∧ ∃ flights, result = .ok flights ∧
        Lists root (flights.map fun info => info.descriptor.path)
    | .doPut _ _, result, g' => result = c.upload.status ∧ (result = .ok () → g' = .stored)
    | .getFlightInfo _, result, g' => g' = g ∧
        ∃ size, result = .ok (mintedInfo port c.uuid.str (pq.encodedMetaData c.data) size)
    | .doGet _, result, g' => g' = g ∧ ∃ stream, result = .ok stream ∧ stream.readAll = c.data
  cost r := r.task.steps pq k

/-- What the client's file holds once its table is stored. -/
def Holds (root : SubTreeFileSystem) (c : Client Schema Row) (g : Stage) (s : SubTreeFileSystem) : Prop :=
  g = .stored → s.tree.node (c.file root) = some (.file (pq.encode c.data))

/-- Where a call of the client can stand. -/
def CallAt (root : SubTreeFileSystem) (c : Client Schema Row) (g : Stage) (r : Request Schema Row) (s : SubTreeFileSystem)
    (t : Task Schema Row) : Prop :=
  match r with
  | .listFlights _ => Holds pq root c g s ∧ ListsAt root t
  | .doPut _ _ => UploadsAt pq root c (s.tree.node (c.file root)) t
  | .getFlightInfo _ => g = .stored ∧ Holds pq root c g s ∧ InspectsAt pq port root c t
  | .doGet _ => g = .stored ∧ Holds pq root c g s ∧ FetchesAt pq root c t

section Contract

variable {pq port} {root s : SubTreeFileSystem} {client : ι → Client Schema Row} {c : Client Schema Row} {g : Stage}
  {r : Request Schema Row} {t : Task Schema Row}

theorem Traffic.file_ne (h : Traffic pq root client) {i j : ι} (hij : i ≠ j) :
    (client i).file root ≠ (client j).file root := fun heq =>
  hij (h.distinct (UUID.str_injective (List.head_eq_of_cons_eq heq)))

theorem CallAt.writesTo (hs : root.SameDirs s) (h : CallAt pq port root c g r s t) {p : NodePath} (hw : t.WritesTo s p) :
    p = c.file root := by
  cases r with
  | listFlights readdir => exact absurd hw h.2.not_writesTo
  | doPut u cut => exact UploadsAt.writesTo hs h hw
  | getFlightInfo descriptor => exact absurd hw h.2.2.not_writesTo
  | doGet request => exact absurd hw h.2.2.not_writesTo

theorem CallAt.of_allowed {k : Nat} (hg : Holds pq root c g s) (hr : (protocol pq port root k c).allowed g r) :
    CallAt pq port root c g r s r.task := by
  cases r with
  | listFlights readdir => exact ⟨hg, trivial⟩
  | doPut u cut => exact ⟨_, hr.2.1, rfl⟩
  | getFlightInfo descriptor => exact ⟨hr.1, hg, hr.2⟩
  | doGet request => exact ⟨hr.1, hg, hr.2⟩

theorem CallAt.not_answered (h : CallAt pq port root c g r s t) (ha : (server pq port).answer r t = none) : ¬ t.Answered := by
  intro hans
  cases r with
  | listFlights readdir =>
    cases t with
    | flights result => cases ha
    | put => exact h.2.elim
    | info => exact h.2.elim
    | stream => exact h.2.elim
    | _ => exact hans
  | doPut u cut =>
    obtain ⟨before, h⟩ := h
    cases t with
    | put result => cases ha
    | flights => exact h.elim
    | info => exact h.elim
    | stream => exact h.elim
    | _ => exact hans
  | getFlightInfo descriptor =>
    cases t with
    | info result => cases ha
    | flights => exact h.2.2.elim
    | put => exact h.2.2.elim
    | stream => exact h.2.2.elim
    | _ => exact hans
  | doGet request =>
    cases t with
    | stream result => cases ha
    | flights => exact h.2.2.elim
    | put => exact h.2.2.elim
    | info => exact h.2.2.elim
    | _ => exact hans

theorem CallAt.step (hread : Readable pq root) (hfresh : root.tree.node (c.file root) ≠ some .dir)
    (hs : Kept root client s) (h : CallAt pq port root c g r s t) :
    CallAt pq port root c g r (t.step pq port s).1 (t.step pq port s).2 := by
  have hreader : (∀ p, ¬ t.WritesTo s p) → Holds pq root c g s → Holds pq root c g (t.step pq port s).1 := fun hw hg hst => by
    rw [Task.node_step (hw _)]
    exact hg hst
  cases r with
  | listFlights readdir => exact ⟨hreader (fun _ => h.2.not_writesTo) h.1, h.2.step hread hs⟩
  | doPut u cut => exact UploadsAt.step hs.dirs hfresh h
  | getFlightInfo descriptor =>
    obtain ⟨hg, hheld, hat⟩ := h
    exact ⟨hg, hreader (fun _ => hat.not_writesTo) hheld, hat.step hs.dirs (hheld hg)⟩
  | doGet request =>
    obtain ⟨hg, hheld, hat⟩ := h
    exact ⟨hg, hreader (fun _ => hat.not_writesTo) hheld, hat.step hs.dirs (hheld hg)⟩

theorem CallAt.answers {k : Nat} (h : CallAt pq port root c g r s t) {a : Answer r} (ha : (server pq port).answer r t = some a) :
    ∃ g', (protocol pq port root k c).answers g r a g' ∧ Holds pq root c g' s := by
  cases r with
  | listFlights readdir =>
    cases t with
    | flights result =>
      obtain rfl := Option.some.inj ha
      exact ⟨g, ⟨rfl, h.2⟩, h.1⟩
    | _ => cases ha
  | doPut u cut =>
    cases t with
    | put result =>
      obtain rfl := Option.some.inj ha
      obtain ⟨before, hresult, hheld⟩ := h
      by_cases hc : c.upload.Completes
      · exact ⟨.stored, ⟨hresult, fun _ => rfl⟩, fun _ => by rw [hheld, leaves_upload hc]⟩
      · exact ⟨.fresh, ⟨hresult, fun hok => absurd (Upload.completes_of_status (hresult.symm.trans hok)) hc⟩, fun h => by cases h⟩
    | _ => cases ha
  | getFlightInfo descriptor =>
    cases t with
    | info result =>
      obtain rfl := Option.some.inj ha
      exact ⟨g, ⟨rfl, h.2.2⟩, h.2.1⟩
    | _ => cases ha
  | doGet request =>
    cases t with
    | stream result =>
      obtain rfl := Option.some.inj ha
      exact ⟨g, ⟨rfl, h.2.2⟩, h.2.1⟩
    | _ => cases ha

/-- A step that leaves the client's file alone leaves its calls where they stand. -/
theorem CallAt.frame {s' : SubTreeFileSystem} (heq : s'.tree.node (c.file root) = s.tree.node (c.file root))
    (h : CallAt pq port root c g r s t) : CallAt pq port root c g r s' t := by
  cases r with
  | listFlights readdir => exact ⟨fun hg => heq.trans (h.1 hg), h.2⟩
  | doPut u cut =>
    show UploadsAt pq root c (s'.tree.node (c.file root)) t
    rw [heq]
    exact h
  | getFlightInfo descriptor => exact ⟨h.1, fun hg => heq.trans (h.2.1 hg), h.2.2⟩
  | doGet request => exact ⟨h.1, fun hg => heq.trans (h.2.1 hg), h.2.2⟩

variable (port) in
/-- **The server keeps to the protocol with every client.** -/
def contract [Fintype ι] (h : Traffic pq root client) : Contract (server pq port) fun i =>
    protocol pq port root ((root.tree.children root.base).card + Fintype.card ι) (client i) where
  Idle i g s := Kept root client s ∧ Holds pq root (client i) g s
  At i g r s t := Kept root client s ∧ CallAt pq port root (client i) g r s t
  remaining := Task.steps pq ((root.tree.children root.base).card + Fintype.card ι)
  accept hidle hr := ⟨⟨hidle.1, .of_allowed hidle.2 hr⟩, Nat.le_refl _⟩
  step {i g r s t} hat ha := ⟨⟨hat.1.step fun _ => hat.2.writesTo hat.1.dirs, hat.2.step h.readable (h.fresh i) hat.1⟩,
    Task.steps_step port (fun _ _ => hat.1.card_children) (hat.2.not_answered ha)⟩
  answer hat ha := by
    obtain ⟨g', hg', hheld⟩ := hat.2.answers ha
    exact ⟨g', hg', hat.1, hheld⟩
  idle_frame {i j g g' r s t} hij hidle hat := by
    refine ⟨hidle.1.step fun _ => hat.2.writesTo hat.1.dirs, fun hg => ?_⟩
    have hnode : (t.step pq port s).1.tree.node ((client i).file root) = s.tree.node ((client i).file root) :=
      Task.node_step fun hw => h.file_ne hij (hat.2.writesTo hat.1.dirs hw)
    exact hnode.trans (hidle.2 hg)
  at_frame {i j g g' r r' s t t'} hij hat hat' := by
    have hnode : (t'.step pq port s).1.tree.node ((client i).file root) = s.tree.node ((client i).file root) :=
      Task.node_step fun hw => h.file_ne hij (hat'.2.writesTo hat'.1.dirs hw)
    exact ⟨hat.1.step fun _ => hat'.2.writesTo hat'.1.dirs, hat.2.frame hnode⟩

end Contract

/-! ## What a client does -/

section Client

variable {pq port} {root : SubTreeFileSystem} {k : Nat} {c : Client Schema Row} {g : Stage}

theorem keeps_listDatasets (readdir : Enumeration (Bytes × Node)) :
    Keeps (protocol pq port root k c) (2 * k + 3) g (listDatasets readdir) fun x g' =>
      g' = g ∧ ∃ paths, x = .ok paths ∧ Lists root paths := by
  refine .startAsCurrentSpan fun span => .bind (n := 2 * k + 3) (m := 0) (.rpc trivial (Nat.lt_succ_self _) ?_)
  rintro _ _ ⟨rfl, flights, rfl, hlists⟩
  exact .bind (n := 0) (m := 0) (.setAttribute (.pure ⟨rfl, _, rfl, hlists⟩))

theorem keeps_uploadDataset :
    Keeps (protocol pq port root k c) ((Request.doPut c.upload c.world.cut).task.steps pq k + 1) .fresh
      (uploadDataset c.data c.uuid.str c.world) fun x g' =>
        x = c.upload.status.mapError .arrowException ∧ (c.upload.status = .ok () → g' = .stored) := by
  refine .startAsCurrentSpan fun span => .mono (Nat.le_of_eq (Nat.zero_add _)) (.bind (n := 0) (.setAttribute ?_))
  refine .mono (Nat.le_of_eq (Nat.zero_add _)) (.bind (n := 0) (.setAttribute ?_))
  refine .rpc ⟨rfl, rfl, rfl⟩ (Nat.lt_succ_self _) ?_
  rintro _ g' ⟨rfl, hg'⟩
  exact ⟨rfl, hg'⟩

theorem keeps_getDataset :
    Keeps (protocol pq port root k c) 8 .stored (getDataset c.uuid.str) fun x g' => g' = .stored ∧ x = .ok c.data := by
  refine .startAsCurrentSpan fun span => .bind (n := 0) (m := 8) (.setAttribute ?_)
  refine .bind (n := 4) (m := 4) (.rpc ⟨rfl, rfl⟩ (Nat.lt_succ_self _) ?_)
  rintro _ _ ⟨rfl, size, rfl⟩
  refine .bind (n := 4) (m := 0) (.rpc ⟨rfl, rfl⟩ (Nat.lt_succ_self _) ?_)
  rintro _ _ ⟨rfl, stream, rfl, hread⟩
  exact .bind (n := 0) (m := 0) (.setAttribute (.pure ⟨rfl, congrArg Except.ok hread⟩))

/-- How many steps of its calls it takes a client to end, at most, in a directory of `k` entries. -/
def patience (pq : Parquet Schema Row) (k : Nat) (c : Client Schema Row) : Nat :=
  2 * (2 * k + 3) + ((Request.doPut c.upload c.world.cut).task.steps pq k + 1) + 8

/-- A client whose upload completes prints the datasets twice and has stored its table; one whose upload breaks off raises
what that broke off with. -/
def EndsWell (pq : Parquet Schema Row) (root s : SubTreeFileSystem) (c : Client Schema Row)
    (result : Except Raised (List (List Bytes) × List (List Bytes))) : Prop :=
  match c.upload.status with
  | .ok _ => ∃ before after, result = .ok (before, after) ∧ Lists root before ∧ Lists root after ∧
      s.tree.node (c.file root) = some (.file (pq.encode c.data))
  | .error e => result = .error (.arrowException e)

/-- The same, by what the client knows in the end. -/
def Ends (root : SubTreeFileSystem) (c : Client Schema Row) (result : Except Raised (List (List Bytes) × List (List Bytes)))
    (g : Stage) : Prop :=
  match c.upload.status with
  | .ok _ => g = .stored ∧ ∃ before after, result = .ok (before, after) ∧ Lists root before ∧ Lists root after
  | .error e => result = .error (.arrowException e)

variable [DecidableEq Schema] [DecidableEq Row]

/-- **A simulated client ends so**, whatever it is answered by the protocol. -/
theorem keeps_simulateClient :
    Keeps (protocol pq port root k c) (patience pq k c) .fresh (simulateClient c.data c.uuid c.world) (Ends root c) := by
  have hsum : 2 * k + 3 + ((Request.doPut c.upload c.world.cut).task.steps pq k + 1 + (2 * k + 3 + (8 + 0))) = patience pq k c := by
    unfold patience
    omega
  rw [← hsum]
  refine .startAsCurrentSpan fun _ => .bind ((keeps_listDatasets _).imp ?_)
  rintro _ _ ⟨rfl, before, rfl, hbefore⟩
  refine .bind (keeps_uploadDataset.imp ?_)
  rintro _ g' ⟨rfl, hg'⟩
  unfold Ends
  cases hst : c.upload.status with
  | error e => rfl
  | ok _ =>
    obtain rfl := hg' hst
    refine .bind ((keeps_listDatasets _).imp ?_)
    rintro _ _ ⟨rfl, after, rfl, hafter⟩
    refine .bind (keeps_getDataset.imp ?_)
    rintro _ _ ⟨rfl, rfl⟩
    show Keeps _ 0 _ (if c.data = c.data then _ else _) _
    rw [if_pos rfl]
    exact .pure ⟨rfl, before, after, rfl, hbefore, hafter⟩

end Client

/-! ## All clients -/

section Run

variable [DecidableEq Schema] [DecidableEq Row] [DecidableEq ι]

/-- Every client at its first call. -/
def start (root : SubTreeFileSystem) (client : ι → Client Schema Row) :
    Interleave.Pool ι SubTreeFileSystem (Thread (Sent (Request Schema Row)) (Sent.Answer Answer) (SpanEvent Raised)
      (Task Schema Row) (Except Raised (List (List Bytes) × List (List Bytes)) × Tracer)) :=
  ⟨root, fun i => .ofProgram (sentServer (server pq port))
    (simulateClient (client i).data (client i).uuid (client i).world ⟨0, none⟩)⟩

def run (root : SubTreeFileSystem) (client : ι → Client Schema Row) (sched : List ι) :=
  (start pq port root client).run (Thread.step (sentServer (server pq port))) sched

variable {pq} in
omit [DecidableEq ι] in
theorem good_start [Fintype ι] {root : SubTreeFileSystem} {client : ι → Client Schema Row} (h : Traffic pq root client)
    (i : ι) : (sentContract (contract port h)).Good (fun i x => Ends root (client i) x.1)
      (patience pq ((root.tree.children root.base).card + Fintype.card ι) (client i)) i (start pq port root client).shared
      ((start pq port root client).task i) :=
  Contract.good_ofProgram (C := sentContract (contract port h)) ⟨Kept.refl, fun hg => by cases hg⟩ (keeps_simulateClient ⟨0, none⟩)

/-- **However the calls of simulated clients are interleaved**, a client that ends, ends well, every client ends once it has
taken its steps, and the clients' own files aside, the store is as it was. -/
theorem simulated_clients_return [Fintype ι] (root : SubTreeFileSystem) (client : ι → Client Schema Row)
    (h : Traffic pq root client) (sched : List ι) (i : ι) :
    (∀ result tracer, (run pq port root client sched).task i = .returned (result, tracer) →
      EndsWell pq root (run pq port root client sched).shared (client i) result) ∧
    (patience pq ((root.tree.children root.base).card + Fintype.card ι) (client i) ≤ sched.count i →
      ∃ b, (run pq port root client sched).task i = .returned b) ∧
    ∀ p, (∀ j, p ≠ (client j).file root) → (run pq port root client sched).shared.tree.node p = root.tree.node p := by
  have hreturns := Contract.run_returns (good_start port h) sched i
  refine ⟨fun result tracer hb => ?_, hreturns.2, ?_⟩
  · obtain ⟨g, ⟨-, hheld⟩, hends⟩ := hreturns.1 _ hb
    unfold EndsWell
    unfold Ends at hends
    split at hends
    · obtain ⟨hg, before, after, hresult, hbefore, hafter⟩ := hends
      exact ⟨before, after, hresult, hbefore, hafter, hheld hg⟩
    · exact hends
  · have hgood := Contract.run_good sched (good_start port h) i
    unfold run
    generalize ((start pq port root client).run _ sched).task i = t at hgood
    cases t with
    | returned b =>
      obtain ⟨g, ⟨hkept, -⟩, -⟩ := hgood
      exact hkept.node
    | waiting r t next =>
      obtain ⟨g, m, ⟨hkept, -⟩, -⟩ := hgood
      exact hkept.node

end Run

/-! ## Two clients of a directory of one dataset -/

def twoClients (readdir : Enumeration (Bytes × Node)) (b : Bool) : Client Unit UInt8 :=
  ⟨⟨(), [8, 9]⟩, ⟨if b then 1 else 0, by cases b <;> decide⟩, ⟨readdir, readdir, none, none, .whole⟩⟩

theorem traffic_twoClients (readdir : Enumeration (Bytes × Node)) :
    Traffic tinyParquet ReadDuringPut.oneRow (twoClients readdir) where
  readable name c hn _ := by
    have hhold : SubTreeFileSystem.bare.tree.CanHoldFile [utf8 "a.parquet"] := by decide +kernel
    rw [ReadDuringPut.oneRow, SubTreeFileSystem.setFile_tree, FileTree.node_setFile hhold] at hn
    split at hn
    · cases hn
      rw [tinyParquet.openFile_encode]
      rfl
    · cases hn
  distinct b b' h := by
    have hint := congrArg UUID.int h
    cases b <;> cases b' <;> simp_all [twoClients]
  fresh b hd := by
    rw [ReadDuringPut.oneRow, SubTreeFileSystem.setFile_tree, FileTree.dir_setFile] at hd
    cases hd

/-- As many turns as either client takes steps at most. -/
def inTurns (readdir : Enumeration (Bytes × Node)) : List Bool :=
  Interleave.turns (patience tinyParquet ((ReadDuringPut.oneRow.tree.children ReadDuringPut.oneRow.base).card +
    Fintype.card Bool) (twoClients readdir true))

theorem simulated_clients_return_two : ∃ b,
    (run tinyParquet 5000 ReadDuringPut.oneRow (twoClients (.chosen _)) (inTurns (.chosen _))).task true = .returned b :=
  (simulated_clients_return tinyParquet 5000 ReadDuringPut.oneRow (twoClients (.chosen _)) (traffic_twoClients _)
    (inTurns (.chosen _)) true).2.1 (by rw [inTurns, Interleave.count_turns])

end SimulatedClients
