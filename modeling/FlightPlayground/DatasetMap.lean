import FlightPlayground.StressServer
import FlightPlayground.DirectoryMap
/-!
# DatasetMap — the stress server as a finite map from names to tables

The abstract server holds a table under each name and says nothing of files.  `Represents` ties the served directory
to the map, every request keeps it, and what a client observes of the two is the same.
-/
namespace DatasetMap

open Posix (Bytes Node NodePath FileTree ValidName utf8)
open Unordered (Enumeration)
open Arrow
open Flight
open StressServer
open DatasetServer (nameOf isDataset mintedInfo)

/-! ## The abstract server -/

abbrev TableMap (Schema Row : Type) := Finmap fun _ : Bytes => Table Schema Row

/-- What a client sees of a response. -/
inductive Observation (Schema Row : Type)
  | failed
  | done
  | info (schema : Schema) (totalRecords : Int) (descriptor : FlightDescriptor) (tickets : List Ticket)
  | table (t : Table Schema Row)
  | flights (infos : Multiset (Schema × Int × FlightDescriptor × List Ticket))
  | actions (types : List ActionType)
  deriving DecidableEq

variable {Schema Row : Type}

def describe (n : Bytes) (t : Table Schema Row) : Schema × Int × FlightDescriptor × List Ticket :=
  (t.schema, t.rows.length, .ofPath [n], [⟨n⟩])

def hasExtension (n : Bytes) : Bool := Posix.extension n = utf8 "parquet"

def spec (m : TableMap Schema Row) : Request Schema Row → Observation Schema Row × TableMap Schema Row
  | .doPut u =>
    match nameOf u.reader.descriptor with
    | some n => (.done, m.insert n u.reader.table)
    | none => (.failed, m)
  | .getFlightInfo d =>
    match (nameOf d).bind fun n => (m.lookup n).map (describe n) with
    | some (schema, count, descriptor, tickets) => (.info schema count descriptor tickets, m)
    | none => (.failed, m)
  | .doGet t =>
    match m.lookup t.ticket with
    | some table => (.table table, m)
    | none => (.failed, m)
  | .doAction a =>
    if a.type = utf8 "drop_dataset" ∧ a.body ∈ m then (.done, m.erase a.body) else (.failed, m)
  | .listFlights _ => (.flights ((m.entries.filter fun e => hasExtension e.1).map fun e => describe e.1 e.2), m)
  | .listActions => (.actions [⟨utf8 "drop_dataset", utf8 "Delete a dataset."⟩], m)

def specRun : TableMap Schema Row → List (Request Schema Row) → List (Observation Schema Row) × TableMap Schema Row :=
  Sequential.run spec

def writes : Request Schema Row → Option Bytes
  | .doPut u => nameOf u.reader.descriptor
  | .doAction a => some a.body
  | _ => none

/-- **A request that fails leaves the map as it was.** -/
theorem spec_failed (m : TableMap Schema Row) (r : Request Schema Row) (h : (spec m r).1 = .failed) : (spec m r).2 = m := by
  cases r with
  | doPut u =>
    simp only [spec] at h ⊢
    split at h
    · cases h
    · rfl
  | doAction a =>
    simp only [spec] at h ⊢
    split at h
    · cases h
    · rename_i hn
      rw [if_neg hn]
  | getFlightInfo d =>
    simp only [spec]
    split <;> rfl
  | doGet t =>
    simp only [spec]
    split <;> rfl
  | listFlights readdir => rfl
  | listActions => rfl

/-- **A request changes the entry of no other name.** -/
theorem spec_frame (m : TableMap Schema Row) (r : Request Schema Row) (n : Bytes) (h : writes r ≠ some n) :
    (spec m r).2.lookup n = m.lookup n := by
  cases r with
  | doPut u =>
    simp only [spec]
    split
    · rename_i n' hn
      rw [Finmap.lookup_insert_of_ne]
      rintro rfl
      exact h hn
    · rfl
  | doAction a =>
    simp only [spec]
    split
    · rw [Finmap.lookup_erase_ne]
      rintro rfl
      exact h rfl
    · rfl
  | getFlightInfo d =>
    simp only [spec]
    split <;> rfl
  | doGet t =>
    simp only [spec]
    split <;> rfl
  | listFlights readdir => rfl
  | listActions => rfl

/-! ## The server seen as the map -/

def seen (f : FlightInfo Schema) : Schema × Int × FlightDescriptor × List Ticket :=
  (f.schema, f.totalRecords, f.descriptor, f.endpoints.map FlightEndpoint.ticket)

def observe : Response Schema Row → Observation Schema Row
  | .flights (.ok fs) => .flights (fs.map seen : List _)
  | .info (.ok f) => .info f.schema f.totalRecords f.descriptor (f.endpoints.map FlightEndpoint.ticket)
  | .status (.ok ()) => .done
  | .stream (.ok s) => .table s.readAll
  | .actions types => .actions types
  | _ => .failed

/-- The requests of well-behaved clients: every name is one path component, and uploads complete. -/
def Admissible : Request Schema Row → Prop
  | .doPut u => u.Completes ∧ ∀ n ∈ nameOf u.reader.descriptor, ValidName n
  | .getFlightInfo d => ∀ n ∈ nameOf d, ValidName n
  | .doGet t => ValidName t.ticket
  | .doAction a => a.type = utf8 "drop_dataset" → ValidName a.body
  | .listFlights _ => True
  | .listActions => True

variable (pq : Parquet Schema Row) (port : Nat)

/-- The served directory holds exactly the map's tables, each in the file of its name. -/
def Represents (root : SubTreeFileSystem) (m : TableMap Schema Row) : Prop :=
  ∀ n, root.tree.node (n :: root.base) = (m.lookup n).map fun t => .file (pq.encode t)

variable {pq port} {root : SubTreeFileSystem} {m : TableMap Schema Row}

theorem represents_empty (h : IsEmpty root) : Represents pq root (∅ : TableMap Schema Row) := FileTree.holdsMap_empty h

namespace Represents

variable (h : Represents pq root m)

include h

theorem holdsMap : FileTree.HoldsMap pq.encode root.tree root.base m := h

theorem validName {n : Bytes} {t : Table Schema Row} (hn : m.lookup n = some t) : ValidName n :=
  h.holdsMap.validName (Finmap.mem_iff.2 ⟨t, hn⟩)

theorem not_dir (n : Bytes) : root.tree.node (n :: root.base) ≠ some .dir := h.holdsMap.not_dir n

theorem insert {n : Bytes} (hn : ValidName n) (t : Table Schema Row) :
    Represents pq (root.setFile (n :: root.base) (pq.encode t)) (m.insert n t) :=
  h.holdsMap.insert root.base_dir hn t

theorem erase (n : Bytes) : Represents pq (root.unlink (n :: root.base)) (m.erase n) := h.holdsMap.erase n

theorem children_eq : root.tree.children root.base = m.entries.map fun e => (e.1, Node.file (pq.encode e.2)) :=
  h.holdsMap.children_eq

theorem makeFlightInfo_eq {n : Bytes} {t : Table Schema Row} (hn : m.lookup n = some t) :
    DatasetServer.makeFlightInfo pq port root (.ofNode n (some (.file (pq.encode t)))) =
      .ok (mintedInfo port n (pq.encodedMetaData t) (pq.encode t).length) := by
  have hv := h.validName hn
  have hnode : root.nodeAt n = some (.file (pq.encode t)) := by
    rw [SubTreeFileSystem.nodeAt_of_valid hv, h n, hn]
    rfl
  rw [DatasetServer.makeFlightInfo_of_file hnode, pq.openFile_encode, Posix.baseName_of_valid hv]

variable (port) in
/-- **A listing of a represented directory succeeds and describes the map's tables that have the extension.** -/
theorem listFlights_eq (readdir : Enumeration (Bytes × Node)) :
    ∃ fs, DatasetServer.listFlights pq port root readdir = .ok fs ∧
      (fs.map seen : Multiset _) = (m.entries.filter fun e => hasExtension e.1).map fun e => describe e.1 e.2 := by
  obtain ⟨l, hl, hlist⟩ := readdir.exists_list_map (fun e => (e.1, Node.file (pq.encode e.2))) m.entries
  have hmake : ∀ e ∈ l, isDataset (.ofNode e.1 (some (.file (pq.encode e.2)))) →
      DatasetServer.makeFlightInfo pq port root (.ofNode e.1 (some (.file (pq.encode e.2)))) =
        .ok (mintedInfo port e.1 (pq.encodedMetaData e.2) (pq.encode e.2).length) := fun e he _ => by
    refine h.makeFlightInfo_eq (Finmap.lookup_eq_some_iff.2 ?_)
    rw [← hl]
    exact he
  refine ⟨(l.filter fun e => isDataset (.ofNode e.1 (some (.file (pq.encode e.2))))).map fun e =>
    mintedInfo port e.1 (pq.encodedMetaData e.2) (pq.encode e.2).length, ?_, ?_⟩
  · have := DatasetServer.listLoop_map_of_ok l [] hmake
    rw [List.nil_append] at this
    rw [← this, DatasetServer.listFlights, SubTreeFileSystem.getFileInfoRoot, h.children_eq, hlist, List.map_map]
    rfl
  · rw [← hl, Multiset.filter_coe, Multiset.map_coe, List.map_map]
    have hd : ∀ e : (_ : Bytes) × Table Schema Row,
        isDataset (.ofNode e.1 (some (.file (pq.encode e.2)))) = hasExtension e.1 := fun _ => rfl
    have hs : ∀ e : (_ : Bytes) × Table Schema Row,
        seen (mintedInfo port e.1 (pq.encodedMetaData e.2) (pq.encode e.2).length) = describe e.1 e.2 := fun e => by
      simp [seen, describe, mintedInfo]
    simp only [hd, Bool.decide_eq_true, Function.comp_def, hs]

end Represents

variable (port) in
/-- **One request is answered as the map answers it, and keeps the directory and the map together.** -/
theorem handle_represents (h : Represents pq root m) (r : Request Schema Row) (hr : Admissible r) :
    observe (handle pq port root r).1 = (spec m r).1 ∧ Represents pq (handle pq port root r).2 (spec m r).2 := by
  cases r with
  | listFlights readdir =>
    obtain ⟨fs, hfs, heq⟩ := h.listFlights_eq port readdir
    refine ⟨?_, h⟩
    simp only [handle, FlightStressTestServer.listFlights, hfs, observe, spec, heq]
  | listActions => exact ⟨rfl, h⟩
  | getFlightInfo d =>
    refine ⟨?_, by simp only [handle, spec]; split <;> exact h⟩
    simp only [handle, FlightStressTestServer.getFlightInfo, spec]
    cases hn : nameOf d with
    | none =>
      obtain ⟨e, he⟩ := DatasetServer.getFlightInfo_of_none pq port root hn
      rw [he]
      rfl
    | some n =>
      have hv := hr n hn
      rw [DatasetServer.getFlightInfo_of_name hn, Posix.removeLeadingSlash_of_valid hv,
        SubTreeFileSystem.nodeAt_of_valid hv, h n, Option.bind_some]
      cases ht : m.lookup n with
      | none => rfl
      | some t =>
        rw [Option.map_some, h.makeFlightInfo_eq ht]
        simp [observe, mintedInfo, describe]
  | doPut u =>
    simp only [handle, FlightStressTestServer.doPut, spec]
    cases hn : nameOf u.reader.descriptor with
    | none =>
      have hs : DatasetServer.sinkPath root u.reader.descriptor = none := by rw [DatasetServer.sinkPath, hn]; rfl
      obtain ⟨e, he⟩ := DatasetServer.doPut_of_sinkPath_none pq hs
      rw [he]
      exact ⟨rfl, h⟩
    | some n =>
      have hv := hr.2 n hn
      have hs := DatasetServer.sinkPath_of_valid hn hv (h.not_dir n)
      obtain ⟨-, he⟩ | ⟨b, e, hb, -⟩ := DatasetServer.doPut_of_sinkPath pq hs
      · rw [he]
        exact ⟨rfl, h.insert hv _⟩
      · rw [DatasetServer.leftover_eq_none.2 hr.1] at hb
        cases hb
  | doGet t =>
    refine ⟨?_, by simp only [handle, spec]; split <;> exact h⟩
    simp only [handle, FlightStressTestServer.doGet, spec]
    have hnode : root.nodeAt t.ticket = (m.lookup t.ticket).map fun t => .file (pq.encode t) := by
      rw [SubTreeFileSystem.nodeAt_of_valid hr, h t.ticket]
    cases ht : m.lookup t.ticket with
    | none =>
      have hfile : ∀ c, root.nodeAt t.ticket ≠ some (.file c) := by simp [hnode, ht]
      obtain ⟨e, he⟩ := DatasetServer.doGet_of_not_file pq hfile
      rw [show t = ⟨t.ticket⟩ from rfl, he]
      rfl
    | some table =>
      rw [ht] at hnode
      have hget := DatasetServer.doGet_of_file pq hnode
      rw [pq.readFile_encode] at hget
      cases hres : DatasetServer.doGet pq root t with
      | error e => rw [hres] at hget; cases hget
      | ok s =>
        rw [hres] at hget
        simpa [observe, Except.toOption] using hget
  | doAction a =>
    simp only [handle, FlightStressTestServer.doAction, spec]
    by_cases ha : a.type = utf8 "drop_dataset"
    · have hv := hr ha
      rw [DatasetServer.doAction_of_drop ha]
      obtain ⟨p, c, hp, hc, hres⟩ | ⟨hno, e, hres⟩ := DatasetServer.doActionDropDataset_cases root a.body
      · rw [SubTreeFileSystem.resolve_of_valid hv] at hp
        cases hp
        have hm : a.body ∈ m := h.holdsMap.mem_of_node hc
        rw [hres, if_pos ⟨ha, hm⟩]
        exact ⟨rfl, h.erase a.body⟩
      · have hm : a.body ∉ m := by
          intro hm
          obtain ⟨t, ht⟩ := Finmap.mem_iff.1 hm
          exact hno (pq.encode t) (by rw [SubTreeFileSystem.nodeAt_of_valid hv, h a.body, ht]; rfl)
        rw [hres, if_neg fun hc => hm hc.2]
        exact ⟨rfl, h⟩
    · rw [DatasetServer.doAction_of_unknown ha, if_neg fun hc => ha hc.1]
      exact ⟨rfl, h⟩

/-! ## Whole runs -/

theorem run_represents (rs : List (Request Schema Row)) {root : SubTreeFileSystem} {m : TableMap Schema Row}
    (h : Represents pq root m) (hrs : ∀ r ∈ rs, Admissible r) :
    (run pq port root rs).1.map observe = (specRun m rs).1 ∧ Represents pq (run pq port root rs).2 (specRun m rs).2 :=
  Sequential.run_refines (R := Represents pq) (fun _ _ r h hr => handle_represents port h r hr) rs h hrs

variable (pq port)

/-- **From an empty directory on, the server is a finite map from names to tables**: every response shows what the map
answers, the directory holds the map's tables, and the map's requests change one entry, or none when they fail. -/
theorem run_observed_as_map (root : SubTreeFileSystem) (hroot : IsEmpty root) (rs : List (Request Schema Row))
    (hrs : ∀ r ∈ rs, Admissible r) :
    (run pq port root rs).1.map observe = (specRun ∅ rs).1 ∧
    Represents pq (run pq port root rs).2 (specRun ∅ rs).2 ∧
    (∀ (m : TableMap Schema Row) (r : Request Schema Row), (spec m r).1 = .failed → (spec m r).2 = m) ∧
    (∀ (m : TableMap Schema Row) (r : Request Schema Row) (n : Bytes), writes r ≠ some n →
      (spec m r).2.lookup n = m.lookup n) :=
  have ⟨hobs, hrep⟩ := run_represents rs (represents_empty hroot) hrs
  ⟨hobs, hrep, spec_failed, spec_frame⟩

theorem run_observed_as_map_put_drop :
    (run tinyParquet 5000 .bare
      [.doPut (.ofTable (.ofPath [utf8 "a"]) ⟨(), [7, 8]⟩), .doGet ⟨utf8 "a"⟩, .doAction ⟨utf8 "drop_dataset", utf8 "a"⟩,
        .getFlightInfo (.ofPath [utf8 "a"])]).1.map observe = [.done, .table ⟨(), [7, 8]⟩, .done, .failed] := by
  refine (run_observed_as_map tinyParquet 5000 .bare isEmpty_bare _ fun r hr => ?_).1.trans (by decide +kernel)
  have ha : ValidName (utf8 "a") := by decide
  simp only [List.mem_cons, List.not_mem_nil, or_false] at hr
  rcases hr with rfl | rfl | rfl | rfl
  · exact ⟨Upload.completes_ofTable _ _, fun n hn => by cases hn; exact ha⟩
  · exact ha
  · exact fun _ => ha
  · exact fun n hn => by cases hn; exact ha

end DatasetMap
