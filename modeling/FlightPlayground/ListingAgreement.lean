import FlightPlayground.ReadDuringPut
/-!
# ListingAgreement — that a listing, an info and a fetch agree on every dataset

`ListFlights` goes by the directory, `GetFlightInfo` by a descriptor and `DoGet` by a ticket.  The base name is what
they share, and in the root directory it is the whole path.
-/
namespace ListingAgreement

open Posix (Bytes Node FileTree ValidName utf8)
open Unordered (Enumeration map_eq_map_of_forall₂ exists_of_mem_forall₂)
open Arrow
open Flight
open DatasetServer (isDataset mintedInfo)
open ReadDuringPut (datasetNames Readable)

/-- The two servers that answer all three requests. -/
inductive Server
  | FlightStressTestServer
  | DistributedFlightDataServer
  deriving DecidableEq

variable {Schema Row : Type} (pq : Parquet Schema Row) (port : Nat)

def Server.listFlights : Server → SubTreeFileSystem → Enumeration (Bytes × Node) → Result (List (FlightInfo Schema))
  | .FlightStressTestServer => FlightStressTestServer.listFlights pq port
  | .DistributedFlightDataServer => DistributedFlightDataServer.listFlights pq port

def Server.getFlightInfo : Server → SubTreeFileSystem → FlightDescriptor → Result (FlightInfo Schema)
  | .FlightStressTestServer => FlightStressTestServer.getFlightInfo pq port
  | .DistributedFlightDataServer => DistributedFlightDataServer.getFlightInfo pq port

def Server.doGet : Server → SubTreeFileSystem → Ticket → Result (FlightDataStream Schema Row)
  | .FlightStressTestServer => FlightStressTestServer.doGet pq
  | .DistributedFlightDataServer => DistributedFlightDataServer.doGet pq

/-- Every file of the root directory that has the extension is a valid Parquet file. -/
def AllValid (root : SubTreeFileSystem) : Prop :=
  ∀ name c, root.tree.node (name :: root.base) = some (.file c) → DatasetMap.hasExtension name → pq.Valid c

/-- The listing reports every dataset once and nothing else, and what it reports of each is what is got by its descriptor
and fetched by its ticket. -/
structure Agrees (server : Server) (root : SubTreeFileSystem) (fs : List (FlightInfo Schema)) : Prop where
  reported : (fs.map FlightInfo.descriptor : Multiset FlightDescriptor) = (datasetNames root).map fun n => .ofPath [n]
  descriptors : (fs.map FlightInfo.descriptor).Nodup
  tickets : (fs.map fun f => f.endpoints.map FlightEndpoint.ticket).Nodup
  got : ∀ f ∈ fs, server.getFlightInfo pq port root f.descriptor = .ok f
  fetched : ∀ f ∈ fs, ∃ endpoint stream, f.endpoints[0]? = some endpoint ∧
    server.doGet pq root endpoint.ticket = .ok stream ∧ stream.readAll.schema = f.schema ∧
    (stream.readAll.rows.length : Int) = f.totalRecords

variable {pq port} {root : SubTreeFileSystem}

theorem AllValid.readable (h : AllValid pq root) : Readable pq root := fun name c hc hext => by
  obtain ⟨md, -, hmd, -⟩ := (h name c hc hext).readFile
  rw [hmd]
  rfl

/-- The info of the file that the root directory has under the name. -/
def Describes (pq : Parquet Schema Row) (port : Nat) (root : SubTreeFileSystem) (name : Bytes) (f : FlightInfo Schema) :
    Prop :=
  DatasetMap.hasExtension name = true ∧ ∃ c md, root.tree.node (name :: root.base) = some (.file c) ∧
    pq.openFile c = some md ∧ f = mintedInfo port name md c.length

variable (port) in
/-- **A listing of a directory whose datasets all open describes each of them.** -/
theorem listFlights_describes (h : Readable pq root) (readdir : Enumeration (Bytes × Node)) :
    ∃ fs names, DatasetServer.listFlights pq port root readdir = .ok fs ∧
      ((names : List Bytes) : Multiset Bytes) = datasetNames root ∧ List.Forall₂ (Describes pq port root) names fs := by
  obtain ⟨fs, hfs, hR⟩ := DatasetServer.listLoop_forall₂ pq port root
    (fun e : Bytes × Node => .ofNode e.1 (some e.2)) (R := fun e => Describes pq port root e.1)
    (readdir.list (root.tree.children root.base)) [] fun e he hd => by
      obtain ⟨name, x⟩ := e
      rw [Enumeration.mem_list, FileTree.mem_children] at he
      cases x with
      | dir => cases hd
      | file c =>
        obtain ⟨md, hmd⟩ := Option.isSome_iff_exists.1 (h name c he hd)
        have hv := FileTree.validName_of_node he
        have hnode : root.nodeAt name = some (.file c) := by rw [SubTreeFileSystem.nodeAt_of_valid hv, he]
        refine ⟨mintedInfo port name md c.length, ?_, hd, c, md, he, hmd, rfl⟩
        rw [DatasetServer.makeFlightInfo_of_file hnode, hmd, Posix.baseName_of_valid hv]
  refine ⟨fs,
    ((readdir.list (root.tree.children root.base)).filter fun e => isDataset (.ofNode e.1 (some e.2))).map Prod.fst,
    hfs, ?_, ?_⟩
  · rw [← ReadDuringPut.names_of_listing root readdir, List.filter_map, List.map_map]
    simp [Function.comp_def]
  · rw [List.forall₂_map_left_iff]
    exact hR

theorem Describes.got {name : Bytes} {f : FlightInfo Schema} (h : Describes pq port root name f) :
    DatasetServer.getFlightInfo pq port root f.descriptor = .ok f := by
  obtain ⟨-, c, md, hc, hmd, rfl⟩ := h
  have hv := FileTree.validName_of_node hc
  refine (DatasetServer.getFlightInfo_ok_iff (DatasetServer.nameOf_ofPath name)).2 ⟨c, md, ?_, hmd, ?_⟩
  · rw [SubTreeFileSystem.nodeAt_of_valid hv, hc]
  · rw [Posix.removeLeadingSlash_of_valid hv, Posix.baseName_of_valid hv]

theorem Describes.fetched {name : Bytes} {f : FlightInfo Schema} (h : Describes pq port root name f)
    (hall : AllValid pq root) : ∃ endpoint stream, f.endpoints[0]? = some endpoint ∧
      DatasetServer.doGet pq root endpoint.ticket = .ok stream ∧ stream.readAll.schema = f.schema ∧
      (stream.readAll.rows.length : Int) = f.totalRecords := by
  obtain ⟨hext, c, md, hc, hmd, rfl⟩ := h
  have hv := FileTree.validName_of_node hc
  obtain ⟨md', t, hmd', ht, hschema, hrows⟩ := (hall name c hc hext).readFile
  obtain rfl : md = md' := by rw [hmd] at hmd'; exact Option.some.inj hmd'
  have hnode : root.nodeAt name = some (.file c) := by rw [SubTreeFileSystem.nodeAt_of_valid hv, hc]
  have hget := DatasetServer.doGet_of_file pq hnode
  rw [ht] at hget
  cases hres : DatasetServer.doGet pq root ⟨name⟩ with
  | error e => rw [hres] at hget; cases hget
  | ok stream =>
    rw [hres] at hget
    obtain rfl : stream.readAll = t := Option.some.inj hget
    exact ⟨⟨⟨name⟩, [⟨utf8 "localhost", port⟩]⟩, stream, rfl, hres, hschema, congrArg _ hrows⟩

variable (pq port)

/-- **In every directory whose datasets are valid a listing succeeds, reports each of them once and nothing else, and
agrees with what is got and fetched of each.** -/
theorem listing_agrees (server : Server) (root : SubTreeFileSystem) (readdir : Enumeration (Bytes × Node))
    (h : AllValid pq root) :
    ∃ fs, server.listFlights pq port root readdir = .ok fs ∧ Agrees pq port server root fs := by
  obtain ⟨fs, names, hfs, hnames, hR⟩ := listFlights_describes port h.readable readdir
  have hnd : names.Nodup := by
    rw [← Multiset.coe_nodup, hnames]
    exact ReadDuringPut.nodup_datasetNames root
  have hdesc : (names.map fun n => FlightDescriptor.ofPath [n]) = fs.map FlightInfo.descriptor :=
    map_eq_map_of_forall₂ hR fun n f hf => by obtain ⟨-, c, md, -, -, rfl⟩ := hf; rfl
  have htick : (names.map fun n => [(⟨n⟩ : Ticket)]) = fs.map fun f => f.endpoints.map FlightEndpoint.ticket :=
    map_eq_map_of_forall₂ hR fun n f hf => by obtain ⟨-, c, md, -, -, rfl⟩ := hf; rfl
  have hagrees : Agrees pq port .FlightStressTestServer root fs := by
    constructor
    · rw [← hdesc, ← hnames]
      rfl
    · rw [← hdesc]
      exact hnd.map fun a b hab => by simpa [FlightDescriptor.ofPath] using hab
    · rw [← htick]
      exact hnd.map fun a b hab => by simpa using hab
    · intro f hf
      obtain ⟨n, -, hn⟩ := exists_of_mem_forall₂ hR hf
      exact hn.got
    · intro f hf
      obtain ⟨n, -, hn⟩ := exists_of_mem_forall₂ hR hf
      exact hn.fetched h
  cases server with
  | FlightStressTestServer => exact ⟨fs, hfs, hagrees⟩
  | DistributedFlightDataServer =>
    exact ⟨fs, hfs, ⟨hagrees.reported, hagrees.descriptors, hagrees.tickets, hagrees.got, hagrees.fetched⟩⟩

/-! ## A directory with all there can be -/

/-- A dataset, a file that is none, and a directory with the extension of a dataset. -/
def mixed : SubTreeFileSystem :=
  ((⟨FileTree.bare.mkdir (utf8 "b.parquet") [], [], FileTree.node_nil _⟩ : SubTreeFileSystem).setFile
    [utf8 "a.parquet"] (tinyParquet.encode ⟨(), [7]⟩)).setFile [utf8 "c.txt"] []

theorem children_mixed : mixed.tree.children mixed.base = {(utf8 "c.txt", .file []),
    (utf8 "a.parquet", .file (tinyParquet.encode ⟨(), [7]⟩)), (utf8 "b.parquet", .dir)} := by decide +kernel

theorem allValid_mixed : AllValid tinyParquet mixed := by
  intro name c hc hext
  rw [← FileTree.mem_children, children_mixed] at hc
  simp only [Multiset.insert_eq_cons, Multiset.mem_cons, Multiset.mem_singleton, Prod.mk.injEq, Node.file.injEq] at hc
  rcases hc with ⟨rfl, -⟩ | ⟨-, rfl⟩ | ⟨-, hdir⟩
  · exact absurd hext (by decide)
  · exact tinyParquet.valid_encode _
  · cases hdir

theorem listing_agrees_mixed :
    ∃ fs, Server.FlightStressTestServer.listFlights tinyParquet 5000 mixed (Enumeration.chosen _) = .ok fs ∧
      Agrees tinyParquet 5000 .FlightStressTestServer mixed fs :=
  listing_agrees tinyParquet 5000 .FlightStressTestServer mixed (Enumeration.chosen _) allValid_mixed

end ListingAgreement
