import FlightPlayground.PythonServer
import FlightPlayground.ListingAgreement
/-!
# TwoListings — the C++ and the Python listing of `headers_call_options`

The C++ server passes over what is no file with the extension and reports the file's size.  The Python server reports
every entry, and the size of the footer.
-/
namespace TwoListings

open Posix (Bytes Node FileTree utf8)
open Unordered (Enumeration)
open Pathlib (Disk)
open Arrow
open Flight
open ListingAgreement (AllValid Describes)

variable {Schema Row : Type} (pq : PyArrow Schema Row)

namespace BasicDoPutFlightServer

/-- `ListFlights` of `headers_call_options/server.cc`, the same as of `basic_doput/server.cc`. -/
abbrev listFlights := DatasetServer.listFlights pq.toParquet 61234

end BasicDoPutFlightServer

/-- What a listing reports of a flight, but for its locations. -/
def reported (f : FlightInfo Schema) : List Bytes × List Ticket × Schema × Int × Int :=
  (f.descriptor.path, f.endpoints.map FlightEndpoint.ticket, f.schema, f.totalRecords, f.totalBytes)

/-- Both listings of the directory succeed and report the same set of flights. -/
def Agree (server : FlightServer) (root : SubTreeFileSystem) (disk : Disk) (readdir listdir : Enumeration (Bytes × Node)) :
    Prop :=
  ∃ fs gs, BasicDoPutFlightServer.listFlights pq root readdir = .ok fs ∧ server.listFlights pq disk listdir = .ok gs ∧
    ∀ x, x ∈ fs.map reported ↔ x ∈ gs.map reported

variable {pq} {server : FlightServer} {root : SubTreeFileSystem} {disk : Disk}

/-- **A Python listing that succeeds has an info for every entry.** -/
theorem listFlights_reports_entry {base : Posix.NodePath} (hrepo : disk.lookup server.repo = .ok base)
    (hd : disk.tree.node base = some .dir) {listdir : Enumeration (Bytes × Node)} {gs : List (FlightInfo Schema)}
    (h : server.listFlights pq disk listdir = .ok gs) {n : Bytes} {x : Node} (hx : disk.tree.node (n :: base) = some x) :
    ∃ c md, x = .file c ∧ pq.openFile c = some md ∧ FlightServer.mintedInfo pq server n md ∈ gs := by
  unfold FlightServer.listFlights at h
  rw [FlightServer.iterdir_of_dir hrepo hd] at h
  have hall := Unordered.mapM_eq_ok_iff.1 h
  have hn : n ∈ (listdir.list (disk.tree.children base)).map Prod.fst := by
    rw [List.mem_map]
    exact ⟨(n, x), by rwa [Enumeration.mem_list, FileTree.mem_children], rfl⟩
  obtain ⟨g, hg, hinfo⟩ := Unordered.exists_of_mem_forall₂ hall.flip hn
  cases hp : disk.lookup (server.repo.join n) with
  | error e =>
    rw [FlightServer.makeFlightInfo_of_lookup_error hp] at hinfo
    cases hinfo
  | ok p =>
    have hp' := Disk.lookup_join_eq_ok hrepo hd (FileTree.validName_of_node hx) hp
    rw [FlightServer.makeFlightInfo_of_lookup hp, hp', hx] at hinfo
    obtain ⟨c, md, hc, hmd, rfl⟩ := FlightServer.infoAt_eq_ok hinfo
    exact ⟨c, md, Option.some.inj hc, hmd, hg⟩

/-- **No C++ info says of a file what the Python info says**: one has the file's size, the other the footer's. -/
theorem reported_ne {n : Bytes} {f : FlightInfo Schema} (hf : Describes pq.toParquet 61234 root n f) {n' c : Bytes}
    {md : FileMetaData Schema} (hc : root.tree.node (n' :: root.base) = some (.file c)) (hmd : pq.openFile c = some md) :
    reported f ≠ reported (FlightServer.mintedInfo pq server n' md) := by
  obtain ⟨-, c', md', hc', hmd', rfl⟩ := hf
  intro heq
  simp only [reported, DatasetServer.mintedInfo, FlightServer.mintedInfo, FlightDescriptor.ofPath, Prod.mk.injEq,
    List.cons.injEq, and_true] at heq
  obtain ⟨rfl, -, -, -, hbytes⟩ := heq
  obtain rfl : c' = c := by rw [hc] at hc'; exact (Node.file.inj (Option.some.inj hc')).symm
  obtain rfl : md' = md := Option.some.inj (hmd'.symm.trans hmd)
  have := pq.serializedSize_lt c' md' hmd
  omega

/-- **Listings of valid datasets that agree list a directory without entries.** -/
theorem Agree.no_entries (htree : disk.tree = root.tree) (hrepo : disk.lookup server.repo = .ok root.base)
    (hall : AllValid pq.toParquet root) {readdir listdir : Enumeration (Bytes × Node)}
    (h : Agree pq server root disk readdir listdir) (n : Bytes) : root.tree.node (n :: root.base) = none := by
  have hd : disk.tree.node root.base = some .dir := by rw [htree, root.base_dir]
  obtain ⟨fs', names, hfs', -, hdesc⟩ := ListingAgreement.listFlights_describes 61234 hall.readable readdir
  obtain ⟨fs, gs, hfs, hgs, hsame⟩ := h
  obtain rfl : fs = fs' := Except.ok.inj (hfs.symm.trans hfs')
  cases hx : root.tree.node (n :: root.base) with
  | none => rfl
  | some x =>
    obtain ⟨c, md, rfl, hmd, hmem⟩ := listFlights_reports_entry hrepo hd hgs (by rw [htree, hx])
    obtain ⟨f, hf, heq⟩ := List.mem_map.1 ((hsame _).2 (List.mem_map_of_mem hmem))
    obtain ⟨n', -, hn'⟩ := Unordered.exists_of_mem_forall₂ hdesc hf
    exact absurd heq (reported_ne hn' hx hmd)

theorem agree_of_no_entries (htree : disk.tree = root.tree) (hrepo : disk.lookup server.repo = .ok root.base)
    (hall : AllValid pq.toParquet root) (readdir listdir : Enumeration (Bytes × Node))
    (h : ∀ n, root.tree.node (n :: root.base) = none) : Agree pq server root disk readdir listdir := by
  have hd : disk.tree.node root.base = some .dir := by rw [htree, root.base_dir]
  obtain ⟨fs, names, hfs, -, hdesc⟩ := ListingAgreement.listFlights_describes 61234 hall.readable readdir
  have hfs0 : fs = [] := by
    rw [List.eq_nil_iff_forall_not_mem]
    intro f hf
    obtain ⟨n, -, -, c, -, hc, -⟩ := Unordered.exists_of_mem_forall₂ hdesc hf
    rw [h n] at hc
    cases hc
  have hchildren : disk.tree.children root.base = 0 := by rwa [htree, FileTree.children_eq_zero_iff]
  refine ⟨[], [], by rw [← hfs0]; exact hfs, ?_, fun x => Iff.rfl⟩
  unfold FlightServer.listFlights
  rw [FlightServer.iterdir_of_dir hrepo hd, hchildren, Enumeration.list_zero]
  rfl

variable (pq server)

/-- **The two listings of a directory of valid datasets agree if and only if it has no entries.** -/
theorem listings_agree_iff (root : SubTreeFileSystem) (disk : Disk) (htree : disk.tree = root.tree)
    (hrepo : disk.lookup server.repo = .ok root.base) (hall : AllValid pq.toParquet root)
    (readdir listdir : Enumeration (Bytes × Node)) :
    Agree pq server root disk readdir listdir ↔ ∀ n, root.tree.node (n :: root.base) = none :=
  ⟨Agree.no_entries htree hrepo hall, agree_of_no_entries htree hrepo hall readdir listdir⟩

/-! ## One dataset -/

/-- The directory `datasets` as the C++ server has it, and the disk it is on. -/
def datasets (tree : FileTree) (h : tree.node [utf8 "datasets"] = some .dir) : SubTreeFileSystem × Disk :=
  (⟨tree, [utf8 "datasets"], h⟩, ⟨tree, [], FileTree.node_nil _⟩)

def noDatasets : SubTreeFileSystem × Disk := datasets (FileTree.bare.mkdir (utf8 "datasets") []) (by decide +kernel)

def oneDataset : SubTreeFileSystem × Disk :=
  datasets ((FileTree.bare.mkdir (utf8 "datasets") []).setFile [utf8 "a.parquet", utf8 "datasets"]
    (tinyParquet.encode ⟨(), [7]⟩)) (by decide +kernel)

theorem allValid_oneDataset : AllValid tinyParquet oneDataset.1 := by
  have hchildren : oneDataset.1.tree.children oneDataset.1.base =
      {(utf8 "a.parquet", .file (tinyParquet.encode ⟨(), [7]⟩))} := by decide +kernel
  intro n c hc _
  rw [← FileTree.mem_children, hchildren, Multiset.mem_singleton, Prod.mk.injEq, Node.file.injEq] at hc
  rw [hc.2]
  exact tinyParquet.valid_encode _

/-- Of no dataset the listings agree, and of one they do not. -/
theorem listings_agree_iff_upToOne :
    Agree tinyPyArrow FlightServer.main noDatasets.1 noDatasets.2 (Enumeration.chosen _) (Enumeration.chosen _) ∧
    ¬ Agree tinyPyArrow FlightServer.main oneDataset.1 oneDataset.2 (Enumeration.chosen _) (Enumeration.chosen _) := by
  have hnone : ∀ n, noDatasets.1.tree.node (n :: noDatasets.1.base) = none := by
    rw [← FileTree.children_eq_zero_iff]
    decide +kernel
  constructor
  · refine (listings_agree_iff tinyPyArrow FlightServer.main noDatasets.1 noDatasets.2 rfl (by decide +kernel) ?_ _ _).2
      hnone
    intro n c hc
    rw [hnone n] at hc
    cases hc
  · intro h
    have hentry := (listings_agree_iff tinyPyArrow FlightServer.main oneDataset.1 oneDataset.2 rfl (by decide +kernel)
      allValid_oneDataset _ _).1 h (utf8 "a.parquet")
    revert hentry
    decide +kernel

/-- Of the one dataset `a.parquet` the listings report different sizes. -/
theorem sizes_differ : AllValid tinyParquet oneDataset.1 ∧
    ¬ Agree tinyPyArrow FlightServer.main oneDataset.1 oneDataset.2 (Enumeration.chosen _) (Enumeration.chosen _) := by
  refine ⟨allValid_oneDataset, fun h => ?_⟩
  have hnone := Agree.no_entries rfl (by decide +kernel) allValid_oneDataset h (utf8 "a.parquet")
  revert hnone
  decide +kernel

end TwoListings
