import FlightPlayground.PythonServer
import FlightPlayground.DatasetMap
/-!
# PythonMap — the Python server as a finite map from names to tables

The abstract server is a map as it is for the stress server, and what is seen of it is the same.  A listing has no
filter: it never raises, since every entry of a represented repository is a stored table under a name that encodes.
-/
namespace PythonMap

open Posix (Bytes Node NodePath FileTree ValidName utf8)
open Unordered (Enumeration)
open Pathlib (IsUtf8 Disk nul)
open Arrow
open Flight
open DatasetMap (TableMap Observation describe seen)
open FlightServer (Request Response nameOf handle)

variable {Schema Row : Type}

/-! ## The abstract server -/

def spec (m : TableMap Schema Row) : Request Schema Row → Observation Schema Row × TableMap Schema Row
  | .doPut reader _ =>
    match nameOf reader.descriptor, reader.failure with
    | some n, none => (.done, m.insert n reader.table)
    | _, _ => (.failed, m)
  | .getFlightInfo d =>
    match (nameOf d).bind fun n => (m.lookup n).map (describe n) with
    | some (schema, count, descriptor, tickets) => (.info schema count descriptor tickets, m)
    | none => (.failed, m)
  | .doGet t =>
    match m.lookup t.ticket with
    | some table => (.table table, m)
    | none => (.failed, m)
  | .doAction a =>
    if a.type = utf8 "drop_dataset" ∧ a.body ∈ m then (.done, m.erase a.body) else (.failed, m)
  | .listFlights _ => (.flights (m.entries.map fun e => describe e.1 e.2), m)
  | .listActions => (.actions FlightServer.listActions, m)

def writes : Request Schema Row → Option Bytes
  | .doPut reader _ => nameOf reader.descriptor
  | .doAction a => some a.body
  | _ => none

/-- **A request that raises leaves the map as it was.** -/
theorem spec_failed (m : TableMap Schema Row) (r : Request Schema Row) (h : (spec m r).1 = .failed) : (spec m r).2 = m := by
  cases r with
  | doPut reader failure =>
    simp only [spec] at h ⊢
    split at h
    · cases h
    · rfl
  | doAction a =>
    simp only [spec] at h ⊢
    split at h
    · cases h
    · rename_i hn
      rw [if_neg hn]
  | getFlightInfo d =>
    simp only [spec]
    split <;> rfl
  | doGet t =>
    simp only [spec]
    split <;> rfl
  | listFlights listdir => rfl
  | listActions => rfl

/-- **A request changes the entry of no other name.** -/
theorem spec_frame (m : TableMap Schema Row) (r : Request Schema Row) (n : Bytes) (h : writes r ≠ some n) :
    (spec m r).2.lookup n = m.lookup n := by
  cases r with
  | doPut reader failure =>
    simp only [spec]
    split
    · rename_i n' hn _
      rw [Finmap.lookup_insert_of_ne]
      rintro rfl
      exact h hn
    · rfl
  | doAction a =>
    simp only [spec]
    split
    · rw [Finmap.lookup_erase_ne]
      rintro rfl
      exact h rfl
    · rfl
  | getFlightInfo d =>
    simp only [spec]
    split <;> rfl
  | doGet t =>
    simp only [spec]
    split <;> rfl
  | listFlights listdir => rfl
  | listActions => rfl

/-! ## The server seen as the map -/

def observe : Response Schema Row → Observation Schema Row
  | .flights (.ok fs) => .flights (fs.map seen : List _)
  | .info (.ok f) => .info f.schema f.totalRecords f.descriptor (f.endpoints.map FlightEndpoint.ticket)
  | .done (.ok ()) => .done
  | .stream (.ok s) => .table s.readAll
  | .actions types => .actions types
  | _ => .failed

/-- A name that decodes is one path component without a NUL. -/
def NameOk (n : Bytes) : Prop := IsUtf8 n → ValidName n ∧ nul ∉ n

/-- The requests of well-behaved clients; the stream of an upload may break, and a table that was read is stored. -/
def Admissible : Request Schema Row → Prop
  | .doPut reader failure => failure = none ∧ ∀ n ∈ nameOf reader.descriptor, NameOk n
  | .getFlightInfo d => ∀ n ∈ nameOf d, NameOk n
  | .doGet t => NameOk t.ticket
  | .doAction a => a.type = utf8 "drop_dataset" → NameOk a.body
  | .listFlights _ => True
  | .listActions => True

variable (pq : PyArrow Schema Row) (server : FlightServer)

/-- The repository is a directory that holds exactly the map's tables, each in the file of its name. -/
structure Represents (base : NodePath) (disk : Disk) (m : TableMap Schema Row) : Prop where
  repo : disk.lookup server.repo = .ok base
  repo_dir : disk.tree.node base = some .dir
  holds : FileTree.HoldsMap pq.writeTable disk.tree base m
  name : ∀ n ∈ m, IsUtf8 n ∧ nul ∉ n

/-- The repository is an empty directory. -/
def IsEmpty (base : NodePath) (disk : Disk) : Prop :=
  disk.lookup server.repo = .ok base ∧ disk.tree.node base = some .dir ∧ ∀ n, disk.tree.node (n :: base) = none

variable {pq server} {base : NodePath} {disk : Disk} {m : TableMap Schema Row}

theorem represents_empty (h : IsEmpty server base disk) : Represents pq server base disk (∅ : TableMap Schema Row) :=
  ⟨h.1, h.2.1, FileTree.holdsMap_empty h.2.2, fun _ hn => absurd hn Finmap.notMem_empty⟩

namespace Represents

variable (h : Represents pq server base disk m)

include h

/-- **A name leads to the file of that name in the repository.** -/
theorem lookup_join {n : Bytes} (hn : ValidName n) (hnul : nul ∉ n) :
    disk.lookup (server.repo.join n) = .ok (n :: base) := Disk.lookup_join_of_valid h.repo h.repo_dir hn hnul

theorem makeFlightInfo_eq {n : Bytes} (hn : ValidName n) (hnul : nul ∉ n) :
    FlightServer.makeFlightInfo pq server disk n =
      FlightServer.infoAt pq server n ((m.lookup n).map fun t => .file (pq.writeTable t)) := by
  rw [FlightServer.makeFlightInfo_of_lookup (h.lookup_join hn hnul), h.holds n]

end Represents

variable (pq server) in
/-- **The info of a stored table is what the map says of it.** -/
theorem infoAt_writeTable {n : Bytes} (hu : IsUtf8 n) (t : Table Schema Row) :
    ∃ f, FlightServer.infoAt pq server n (some (.file (pq.writeTable t))) = .ok f ∧ seen f = describe n t := by
  obtain ⟨md, hmd, hschema, hrows⟩ := pq.openFile_writeTable t
  refine ⟨FlightServer.mintedInfo pq server n md, FlightServer.infoAt_of_open hmd hu, ?_⟩
  simp [seen, FlightServer.mintedInfo, describe, hschema, hrows]

theorem observe_info {f : FlightInfo Schema} {n : Bytes} {t : Table Schema Row} (h : seen f = describe n t) :
    observe (.info (.ok f)) = (.info t.schema t.rows.length (.ofPath [n]) [⟨n⟩] : Observation Schema Row) := by
  simp only [seen, describe, Prod.mk.injEq] at h
  simp only [observe, h]

/-- **A listing of a represented repository raises nothing and has one info for each name.** -/
theorem Represents.listFlights_eq (h : Represents pq server base disk m) (listdir : Enumeration (Bytes × Node)) :
    ∃ fs, server.listFlights pq disk listdir = .ok fs ∧
      (fs.map seen : Multiset _) = m.entries.map fun e => describe e.1 e.2 := by
  obtain ⟨l, hl, hlist⟩ := listdir.exists_list_map (fun e => (e.1, Node.file (pq.writeTable e.2))) m.entries
  have hinfo : ∀ e ∈ l, ∃ f, FlightServer.makeFlightInfo pq server disk e.1 = .ok f ∧ seen f = describe e.1 e.2 := by
    intro e he
    have he : m.lookup e.1 = some e.2 := Finmap.lookup_eq_some_iff.2 (by rw [← hl]; exact he)
    have hm : e.1 ∈ m := Finmap.mem_iff.2 ⟨e.2, he⟩
    obtain ⟨hu, hnul⟩ := h.name e.1 hm
    rw [h.makeFlightInfo_eq (h.holds.validName hm) hnul, he]
    exact infoAt_writeTable pq server hu e.2
  obtain ⟨fs, hfs⟩ := Unordered.exists_forall₂ hinfo
  refine ⟨fs, ?_, ?_⟩
  · unfold FlightServer.listFlights
    rw [FlightServer.iterdir_of_dir h.repo h.repo_dir, h.holds.children_eq, hlist, List.map_map]
    apply Unordered.mapM_eq_ok_iff.2
    rw [List.forall₂_map_left_iff]
    exact hfs.imp fun e f hf => hf.1
  · rw [← hl, Multiset.map_coe, Unordered.map_eq_map_of_forall₂ hfs fun e f hf => hf.2.symm]

namespace Represents

variable (h : Represents pq server base disk m)

include h

/-- **Whatever is done to a file of the repository, the repository stays.** -/
theorem of_holds {disk' : Disk} {m' : TableMap Schema Row} (hcwd : disk'.cwd = disk.cwd)
    (hdirs : ∀ p, disk.tree.node p = some .dir → disk'.tree.node p = some .dir)
    (hholds : FileTree.HoldsMap pq.writeTable disk'.tree base m') (hname : ∀ n ∈ m', IsUtf8 n ∧ nul ∉ n) :
    Represents pq server base disk' m' :=
  ⟨Disk.lookup_of_same_dirs hcwd hdirs h.repo, hdirs _ h.repo_dir, hholds, hname⟩

theorem insert {n : Bytes} (hu : IsUtf8 n) (hn : ValidName n) (hnul : nul ∉ n) (t : Table Schema Row) :
    Represents pq server base (disk.setFile (n :: base) (pq.writeTable t)) (m.insert n t) := by
  refine h.of_holds rfl (fun _ hp => (FileTree.dir_setFile ..).2 hp) (h.holds.insert h.repo_dir hn t) fun n' hn' => ?_
  rcases Finmap.mem_insert.1 hn' with rfl | hn'
  · exact ⟨hu, hnul⟩
  · exact h.name n' hn'

theorem erase (n : Bytes) : Represents pq server base (disk.unlink (n :: base)) (m.erase n) :=
  h.of_holds rfl (fun _ hp => (FileTree.dir_unlink ..).2 hp) (h.holds.erase n) fun n' hn' =>
    h.name n' (Finmap.mem_erase.1 hn').2

end Represents

/-- **One request is answered as the map answers it, and keeps the repository and the map together.** -/
theorem handle_represents (h : Represents pq server base disk m) (r : Request Schema Row) (hr : Admissible r) :
    observe (handle pq server disk r).1 = (spec m r).1 ∧
      Represents pq server base (handle pq server disk r).2 (spec m r).2 := by
  cases r with
  | listFlights listdir =>
    obtain ⟨fs, hfs, heq⟩ := h.listFlights_eq listdir
    refine ⟨?_, h⟩
    simp only [handle, hfs, observe, spec, heq]
  | listActions => exact ⟨rfl, h⟩
  | getFlightInfo d =>
    refine ⟨?_, by simp only [handle, spec]; split <;> exact h⟩
    simp only [handle, spec]
    cases hn : nameOf d with
    | none =>
      obtain ⟨e, he⟩ := FlightServer.getFlightInfo_of_none pq server hn
      rw [he]
      rfl
    | some n =>
      have hu := FlightServer.isUtf8_of_name hn
      obtain ⟨hv, hnul⟩ := hr n hn hu
      rw [FlightServer.getFlightInfo_of_name hn, h.makeFlightInfo_eq hv hnul, Option.bind_some]
      cases ht : m.lookup n with
      | none => rfl
      | some t =>
        obtain ⟨f, hf, hseen⟩ := infoAt_writeTable pq server hu t
        rw [Option.map_some, hf, observe_info hseen]
        rfl
  | doPut reader failure =>
    obtain ⟨rfl, hname⟩ := hr
    simp only [handle, spec]
    cases hn : nameOf reader.descriptor with
    | none =>
      obtain ⟨e, he⟩ := FlightServer.doPut_of_none pq server hn none
      rw [he]
      exact ⟨rfl, h⟩
    | some n =>
      have hu := FlightServer.isUtf8_of_name hn
      obtain ⟨hv, hnul⟩ := hname n hn hu
      rw [FlightServer.doPut_of_name hn]
      cases hf : reader.failure with
      | some e => exact ⟨rfl, h⟩
      | none =>
        simp only
        rw [FlightServer.writeTable_of_lookup (h.lookup_join hv hnul) (h.holds.not_dir n)]
        exact ⟨rfl, h.insert hu hv hnul reader.table⟩
  | doGet t =>
    refine ⟨?_, by simp only [handle, spec]; split <;> exact h⟩
    obtain ⟨n⟩ := t
    simp only [handle, spec]
    by_cases hu : IsUtf8 n
    · obtain ⟨hv, hnul⟩ := hr hu
      rw [FlightServer.doGet_of_lookup hu (h.lookup_join hv hnul) (h.holds.not_dir n), h.holds n]
      cases ht : m.lookup n with
      | none => rfl
      | some t =>
        rw [Option.map_some, FlightServer.streamAt_of_read (pq.readFile_writeTable t)]
        simp [observe, FlightDataStream.readAll]
    · have hm : m.lookup n = none := Finmap.lookup_eq_none.2 fun hm => hu (h.name n hm).1
      rw [FlightServer.doGet_of_not_utf8 hu, hm]
      rfl
  | doAction a =>
    simp only [handle, spec]
    obtain ⟨ha, hu, p, c, hp, hc, hres⟩ | ⟨hno, e, hres⟩ := FlightServer.doAction_cases server disk a
    · obtain ⟨hv, hnul⟩ := hr ha hu
      obtain rfl : a.body :: base = p := Except.ok.inj ((h.lookup_join hv hnul).symm.trans hp)
      rw [hres, if_pos ⟨ha, h.holds.mem_of_node hc⟩]
      exact ⟨rfl, h.erase a.body⟩
    · have hm : ¬ (a.type = utf8 "drop_dataset" ∧ a.body ∈ m) := by
        rintro ⟨ha, hm⟩
        obtain ⟨hu, hnul⟩ := h.name a.body hm
        obtain ⟨t, ht⟩ := Finmap.mem_iff.1 hm
        exact hno ha hu _ _ (h.lookup_join (h.holds.validName hm) hnul) (h.holds.node_of_lookup ht)
      rw [hres, if_neg hm]
      exact ⟨rfl, h⟩

/-- **The ticket in the info of a name fetches the table stored under it.** -/
theorem Represents.fetched (h : Represents pq server base disk m) {d : FlightDescriptor} {n : Bytes}
    {t : Table Schema Row} (hd : nameOf d = some n) (ht : m.lookup n = some t) :
    ∃ f endpoint stream, server.getFlightInfo pq disk d = .ok f ∧ f.endpoints[0]? = some endpoint ∧
      server.doGet pq disk endpoint.ticket = .ok stream ∧ stream.readAll = t := by
  have hm : n ∈ m := Finmap.mem_iff.2 ⟨t, ht⟩
  obtain ⟨hu, hnul⟩ := h.name n hm
  have hv := h.holds.validName hm
  obtain ⟨f, hf, hseen⟩ := infoAt_writeTable pq server hu t
  have htickets : f.endpoints.map FlightEndpoint.ticket = [⟨n⟩] := by
    simp only [seen, describe, Prod.mk.injEq] at hseen
    exact hseen.2.2.2
  obtain ⟨endpoint, hendpoint, hticket⟩ := List.map_eq_singleton_iff.1 htickets
  refine ⟨f, endpoint, ⟨t.schema, t.toRecordBatches⟩, ?_, by rw [hendpoint]; rfl, ?_, ?_⟩
  · rw [FlightServer.getFlightInfo_of_name hd, h.makeFlightInfo_eq hv hnul, ht]
    exact hf
  · rw [hticket, FlightServer.doGet_of_lookup hu (h.lookup_join hv hnul) (h.holds.not_dir n), h.holds n, ht]
    exact FlightServer.streamAt_of_read (pq.readFile_writeTable t)
  · simp [FlightDataStream.readAll]

/-! ## Whole runs -/

variable (pq server)

/-- **From an empty repository on, the server is a finite map from names to tables**: every response shows what the map
answers, the repository holds the map's tables, what an info's ticket fetches is what was stored last, and the map's
requests change one entry, or none when they raise. -/
theorem served_as_map (disk : Disk) (hdisk : IsEmpty server base disk) (rs : List (Request Schema Row))
    (hrs : ∀ r ∈ rs, Admissible r) :
    (Sequential.run (handle pq server) disk rs).1.map observe = (Sequential.run spec ∅ rs).1 ∧
    Represents pq server base (Sequential.run (handle pq server) disk rs).2 (Sequential.run spec ∅ rs).2 ∧
    (∀ d n t, nameOf d = some n → (Sequential.run spec ∅ rs).2.lookup n = some t →
      ∃ f endpoint stream, server.getFlightInfo pq (Sequential.run (handle pq server) disk rs).2 d = .ok f ∧
        f.endpoints[0]? = some endpoint ∧
        server.doGet pq (Sequential.run (handle pq server) disk rs).2 endpoint.ticket = .ok stream ∧ stream.readAll = t) ∧
    (∀ (m : TableMap Schema Row) (r : Request Schema Row), (spec m r).1 = .failed → (spec m r).2 = m) ∧
    (∀ (m : TableMap Schema Row) (r : Request Schema Row) (n : Bytes), writes r ≠ some n →
      (spec m r).2.lookup n = m.lookup n) :=
  have ⟨hobs, hrep⟩ := Sequential.run_refines (R := Represents pq server base)
    (fun _ _ r h hr => handle_represents h r hr) rs (represents_empty hdisk) hrs
  ⟨hobs, hrep, fun _ _ _ hd ht => hrep.fetched hd ht, spec_failed, spec_frame⟩

/-- The disk that the server starts with. -/
def fresh : Disk := ⟨FileTree.bare.mkdir (utf8 "datasets") [], [], FileTree.node_nil _⟩

theorem isEmpty_fresh : IsEmpty FlightServer.main [utf8 "datasets"] fresh := by
  refine ⟨by decide +kernel, by decide +kernel, ?_⟩
  rw [← FileTree.children_eq_zero_iff]
  decide +kernel

/-- An upload under the name `a`, what is said and fetched of it, and a request of each kind that raises. -/
def requests : List (Request Unit UInt8) :=
  [.doPut ⟨.ofPath [utf8 "a"], (), [[7], [8]], none⟩ none, .getFlightInfo (.ofPath [utf8 "a", utf8 "b"]),
    .doGet ⟨utf8 "a"⟩, .doPut ⟨.ofPath [utf8 "a"], (), [[9]], some (.IOError .parquet)⟩ none,
    .doGet ⟨[255]⟩, .getFlightInfo (.ofPath []), .doAction ⟨utf8 "rename", utf8 "a"⟩,
    .doAction ⟨utf8 "drop_dataset", utf8 "a"⟩, .doGet ⟨utf8 "a"⟩]

theorem served_as_map_requests :
    (Sequential.run (handle tinyPyArrow FlightServer.main) fresh requests).1.map observe =
      [.done, .info () 2 (.ofPath [utf8 "a"]) [⟨utf8 "a"⟩], .table ⟨(), [7, 8]⟩, .failed, .failed, .failed, .failed, .done,
        .failed] := by
  have ha : NameOk (utf8 "a") := fun _ => by decide
  refine (served_as_map tinyPyArrow FlightServer.main fresh isEmpty_fresh requests fun r hr => ?_).1.trans
    (by decide +kernel)
  simp only [requests, List.mem_cons, List.not_mem_nil, or_false] at hr
  rcases hr with rfl | rfl | rfl | rfl | rfl | rfl | rfl | rfl | rfl
  · exact ⟨rfl, fun n hn => by cases hn; exact ha⟩
  · exact fun n hn => by cases hn; exact ha
  · exact ha
  · exact ⟨rfl, fun n hn => by cases hn; exact ha⟩
  · exact fun hu => absurd hu (by decide)
  · exact fun n hn => by cases hn
  · exact fun _ => ha
  · exact fun _ => ha
  · exact ha

end PythonMap
