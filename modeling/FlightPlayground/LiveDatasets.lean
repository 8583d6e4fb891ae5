import FlightPlayground.DatasetMap
/-!
# LiveDatasets — which uploads a listing reports

`DoPut` takes any name; `ListFlights` passes over what has not the extension `parquet`.  Of the names uploaded and not
dropped since, a listing reports exactly those with the extension, each once.
-/
namespace LiveDatasets

open Posix (Bytes Node NodePath FileTree ValidName utf8)
open Unordered (Enumeration)
open Arrow
open Flight
open StressServer
open DatasetServer (nameOf)
open DatasetMap

variable {Schema Row : Type} (pq : Parquet Schema Row) (port : Nat)

def PutOrDrop : Request Schema Row → Prop
  | .doPut u => ∃ n, nameOf u.reader.descriptor = some n ∧ ValidName n
  | .doAction a => a.type = utf8 "drop_dataset" ∧ ValidName a.body
  | _ => False

/-- The names uploaded and not dropped since, from those there were. -/
def live (names : Finset Bytes) : List (Request Schema Row) → Finset Bytes
  | [] => names
  | .doPut u :: rs => live (match nameOf u.reader.descriptor with | some n => insert n names | none => names) rs
  | .doAction a :: rs => live (if a.type = utf8 "drop_dataset" then names.erase a.body else names) rs
  | _ :: rs => live names rs

/-- Every listing of the directory succeeds with one info for each of the names, and no other. -/
def ReportsExactly (root : SubTreeFileSystem) (names : Finset Bytes) : Prop :=
  ∀ readdir, ∃ fs, FlightStressTestServer.listFlights pq port root readdir = .ok fs ∧
    (fs.map fun f => f.descriptor.path : Multiset (List Bytes)) = names.val.map fun n => [n]

variable {pq port}

theorem admissible_of_ok {root : SubTreeFileSystem} {m : TableMap Schema Row} (h : Represents pq root m)
    {r : Request Schema Row} (hr : PutOrDrop r) (hok : (handle pq port root r).1 = .status (.ok ())) : Admissible r := by
  cases r with
  | doPut u =>
    obtain ⟨n, hn, hv⟩ := hr
    refine ⟨?_, fun n' hn' => by rw [hn] at hn'; cases hn'; exact hv⟩
    obtain ⟨hl, -⟩ | ⟨b, e, -, he⟩ :=
      DatasetServer.doPut_of_sinkPath pq (DatasetServer.sinkPath_of_valid hn hv (h.not_dir n))
    · exact DatasetServer.leftover_eq_none.1 hl
    · simp only [handle, FlightStressTestServer.doPut, he] at hok
      cases hok
  | doAction a => exact fun _ => hr.2
  | listFlights _ => exact trivial
  | getFlightInfo _ => exact hr.elim
  | doGet _ => exact hr.elim
  | listActions => exact trivial

theorem keys_spec {m : TableMap Schema Row} {r : Request Schema Row} (hr : PutOrDrop r) (rs : List (Request Schema Row)) :
    live m.keys (r :: rs) = live (spec m r).2.keys rs := by
  cases r with
  | doPut u =>
    obtain ⟨n, hn, -⟩ := hr
    simp only [live, spec, hn]
    congr 1
    ext n'
    simp [Finmap.mem_keys]
  | doAction a =>
    simp only [live, spec, hr.1, true_and, if_true]
    congr 1
    split
    · rw [Finmap.keys_erase]
    · rename_i ha
      rw [Finset.erase_eq_of_notMem (by simpa [Finmap.mem_keys] using ha)]
  | listFlights _ => exact hr.elim
  | getFlightInfo _ => exact hr.elim
  | doGet _ => exact hr.elim
  | listActions => exact hr.elim

variable (pq port) in
/-- **A run of answered uploads and drops ends at a map of the live names.** -/
theorem run_live : ∀ (rs : List (Request Schema Row)) {root : SubTreeFileSystem} {m : TableMap Schema Row},
    Represents pq root m → (∀ r ∈ rs, PutOrDrop r) →
    (∀ resp ∈ (run pq port root rs).1, resp = .status (.ok ())) →
    ∃ m' : TableMap Schema Row, Represents pq (run pq port root rs).2 m' ∧ m'.keys = live m.keys rs
  | [], _, m, h, _, _ => ⟨m, h, rfl⟩
  | r :: rs, root, m, h, hrs, hok => by
    simp only [run, Sequential.run, List.mem_cons, forall_eq_or_imp] at hok
    have hr := hrs r List.mem_cons_self
    have hrep := (handle_represents port h r (admissible_of_ok h hr hok.1)).2
    obtain ⟨m', hm', hk⟩ := run_live rs hrep (fun r' hr' => hrs r' (List.mem_cons_of_mem _ hr')) hok.2
    exact ⟨m', hm', hk.trans (keys_spec hr rs).symm⟩

variable (port) in
theorem reports_of_represents {root : SubTreeFileSystem} {m : TableMap Schema Row} (h : Represents pq root m) :
    ReportsExactly pq port root (m.keys.filter fun n => hasExtension n) := fun readdir => by
  obtain ⟨fs, hfs, hseen⟩ := h.listFlights_eq port readdir
  refine ⟨fs, hfs, ?_⟩
  have hpath := congrArg (Multiset.map fun x => x.2.2.1.path) hseen
  rw [Multiset.map_coe, List.map_map, Multiset.map_map] at hpath
  have hk : m.keys.val = m.entries.map Sigma.fst := rfl
  rw [Finset.filter_val, hk, Multiset.filter_map, Multiset.map_map]
  exact hpath

variable (pq port)

/-- **After any run of answered uploads and drops, a listing reports exactly the live names with the extension.** -/
theorem listFlights_reports_live (root : SubTreeFileSystem) (hroot : IsEmpty root) (rs : List (Request Schema Row))
    (hrs : ∀ r ∈ rs, PutOrDrop r) (hok : ∀ resp ∈ (run pq port root rs).1, resp = .status (.ok ())) :
    ReportsExactly pq port (run pq port root rs).2 ((live ∅ rs).filter fun n => hasExtension n) := by
  obtain ⟨m, hm, hk⟩ := run_live pq port rs (represents_empty hroot) hrs hok
  rw [Finmap.keys_empty] at hk
  rw [← hk]
  exact reports_of_represents port hm

def putPutDrop : List (Request Unit UInt8) :=
  [.doPut (.ofTable (.ofPath [utf8 "a.parquet"]) ⟨(), [7]⟩), .doPut (.ofTable (.ofPath [utf8 "b.parquet"]) ⟨(), [8]⟩),
    .doAction ⟨utf8 "drop_dataset", utf8 "b.parquet"⟩]

theorem listFlights_reports_live_put :
    ReportsExactly tinyParquet 5000 (run tinyParquet 5000 .bare putPutDrop).2 {utf8 "a.parquet"} := by
  have hlive : ((live ∅ putPutDrop).filter fun n => hasExtension n) = {utf8 "a.parquet"} := by decide +kernel
  rw [← hlive]
  have ha : ValidName (utf8 "a.parquet") := by decide
  have hb : ValidName (utf8 "b.parquet") := by decide
  refine listFlights_reports_live tinyParquet 5000 .bare isEmpty_bare putPutDrop (fun r hr => ?_) fun resp hresp => ?_
  · simp only [putPutDrop, List.mem_cons, List.not_mem_nil, or_false] at hr
    rcases hr with rfl | rfl | rfl
    · exact ⟨_, rfl, ha⟩
    · exact ⟨_, rfl, hb⟩
    · exact ⟨rfl, hb⟩
  · revert resp
    decide +kernel

/-- An upload under the name `a` is answered OK and no listing reports it. -/
theorem listFlights_misses_upload :
    ¬ ReportsExactly tinyParquet 5000
      (run tinyParquet 5000 .bare [.doPut (.ofTable (.ofPath [utf8 "a"]) ⟨(), [7]⟩)]).2
      (live ∅ [.doPut (.ofTable (.ofPath [utf8 "a"]) (⟨(), [7]⟩ : Table Unit UInt8))]) := by
  intro h
  have ha : ValidName (utf8 "a") := by decide
  obtain ⟨m, hm, hk⟩ := run_live tinyParquet 5000 [.doPut (.ofTable (.ofPath [utf8 "a"]) ⟨(), [7]⟩)]
    (represents_empty isEmpty_bare)
    (by simpa [PutOrDrop, Upload.ofTable] using ha) (by decide +kernel)
  obtain ⟨fs, hfs, hall⟩ := h (Enumeration.chosen _)
  obtain ⟨fs', hfs', hext⟩ := reports_of_represents 5000 hm (Enumeration.chosen _)
  obtain rfl : fs = fs' := Except.ok.inj (hfs.symm.trans hfs')
  rw [hall, hk] at hext
  revert hext
  decide +kernel

end LiveDatasets
