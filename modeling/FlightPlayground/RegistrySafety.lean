import FlightPlayground.MetadataRequests
import FlightPlayground.PutFailure
/-!
# RegistrySafety — what a `say_hello` can do to the metadata server

The entries of `available_datasets` are read without a test for a null pointer or an empty path.  What data servers
list keeps these reads in bounds, however requests interleave; a listing that fails takes the whole server down.
-/
namespace RegistrySafety

open Posix (Bytes Node utf8)
open Unordered (Enumeration)
open Arrow
open Flight
open Interleave
open DistributedFlightMetadataServer

variable {α ι Schema Row : Type} [DecidableEq ι]

/-! ## Requests -/

/-- What a call of `ListFlights` on a data server delivers: the flights it lists, or the first of them and an error. -/
inductive Delivers (pq : Parquet Schema Row) : FlightListing Schema → Prop
  | whole {port : Nat} {root : SubTreeFileSystem} {readdir : Enumeration (Bytes × Node)} {fs : List (FlightInfo Schema)}
      (h : DistributedFlightDataServer.listFlights pq port root readdir = .ok fs) : Delivers pq (fs.map .ok)
  | broken {port : Nat} {root : SubTreeFileSystem} {readdir : Enumeration (Bytes × Node)} {fs : List (FlightInfo Schema)}
      (h : DistributedFlightDataServer.listFlights pq port root readdir = .ok fs) (k : Nat) (e : Status) :
      Delivers pq ((fs.take k).map .ok ++ [.error e])

inductive Request (α Schema : Type)
  | listFlights (order : Enumeration (Entry Schema))
  | doAction (action : Action) (network : α → Result (FlightListing Schema))

def Request.task : Request α Schema → Task α Schema
  | .listFlights order => .listFlights order
  | .doAction action network => .doAction action network

/-- Whoever is called while the request is served is a data server. -/
def Request.AsksDataServers (pq : Parquet Schema Row) : Request α Schema → Prop
  | .listFlights _ => True
  | .doAction _ network => ∀ a listing, network a = .ok listing → Delivers pq listing

def start (request : ι → Request α Schema) : Pool ι (Fate (Registry Schema)) (Task α Schema) :=
  ⟨.alive ∅, fun i => (request i).task⟩

def run (client : α) (request : ι → Request α Schema) (sched : List ι) :
    Pool ι (Fate (Registry Schema)) (Task α Schema) :=
  (start request).run (Task.step client) sched

/-! ## The reads -/

variable {pq : Parquet Schema Row}

theorem Delivers.minted {listing : FlightListing Schema} (h : Delivers pq listing) :
    ∀ f, .ok f ∈ listing → Minted f := by
  intro f hf
  cases h with
  | whole h =>
    obtain ⟨g, hg, hgf⟩ := List.mem_map.1 hf
    cases hgf
    exact DatasetServer.listFlights_minted h f hg
  | broken h k e =>
    rcases List.mem_append.1 hf with hf | hf
    · obtain ⟨g, hg, hgf⟩ := List.mem_map.1 hf
      cases hgf
      exact DatasetServer.listFlights_minted h f (List.mem_of_mem_take hg)
    · cases List.mem_singleton.1 hf

omit [DecidableEq ι] in
theorem start_safe {request : ι → Request α Schema} (h : ∀ i, (request i).AsksDataServers pq) : Safe (start request) := by
  refine ⟨fun i => ?_, .inr ⟨∅, rfl, wellFormed_empty⟩⟩
  have hi := h i
  unfold start
  cases hr : request i with
  | listFlights order => simp [hr, Request.task, Task.ReadsMinted]
  | doAction action network =>
    rw [hr] at hi
    simp only [hr, Request.task, Task.ReadsMinted]
    intro a listing hn
    exact (hi a listing hn).minted

variable (pq) in
/-- **Whatever requests a metadata server is sent and however they interleave, no read of its registry goes wrong**: as
long as it lives every entry holds a flight, and its path has exactly one component. -/
theorem run_in_bounds (client : α) (request : ι → Request α Schema) (h : ∀ i, (request i).AsksDataServers pq)
    (sched : List ι) :
    (run client request sched).shared ≠ .undefined ∧
    ∀ reg, (run client request sched).shared = .alive reg → ∀ key p, reg.lookup key = some p →
      ∃ f, p = some f ∧ ∃ n, f.descriptor.path = [n] := by
  have hsafe : Safe (run client request sched) := run_safe sched (start_safe h)
  rcases hsafe.2 with ha | ⟨reg, ha, hreg⟩
  · rw [ha]
    exact ⟨by simp, fun reg hr => by cases hr⟩
  · rw [ha]
    refine ⟨by simp, fun reg' hr => ?_⟩
    cases hr
    exact hreg

/-! ### A data server with one dataset -/

def oneDataset : SubTreeFileSystem := PutFailure.oneFile (utf8 "a.parquet") (tinyParquet.encode ⟨(), [7]⟩)

def oneFlight : FlightInfo Unit :=
  DatasetServer.mintedInfo 5000 (utf8 "a.parquet") (tinyParquet.encodedMetaData ⟨(), [7]⟩) (tinyParquet.encode ⟨(), [7]⟩).length

/-- A `say_hello`, and a listing that is taken while it is served. -/
def helloAndList (order : Enumeration (Entry Unit)) : Bool → Request Unit Unit
  | true => .doAction DistributedFlightDataServer.sayHelloAction fun _ => .ok ([oneFlight].map .ok)
  | false => .listFlights order

theorem listFlights_oneDataset : DistributedFlightDataServer.listFlights tinyParquet 5000 oneDataset (Enumeration.chosen _) =
    .ok [oneFlight] := by
  rw [DistributedFlightDataServer.listFlights, DatasetServer.listFlights, SubTreeFileSystem.getFileInfoRoot, oneDataset,
    PutFailure.children_oneFile (by decide), Enumeration.list_singleton]
  decide +kernel

theorem run_in_bounds_helloAndList :
    (run () (helloAndList (Enumeration.chosen _)) [true, true, false, true]).shared ≠ .undefined ∧
    ∀ reg, (run () (helloAndList (Enumeration.chosen _)) [true, true, false, true]).shared = .alive reg →
      ∀ key p, reg.lookup key = some p → ∃ f, p = some f ∧ ∃ n, f.descriptor.path = [n] := by
  refine run_in_bounds tinyParquet () (helloAndList (Enumeration.chosen _)) (fun i => ?_) [true, true, false, true]
  cases i with
  | false => exact trivial
  | true =>
    intro a listing hl
    cases hl
    exact .whole listFlights_oneDataset

/-! ## A listing that fails -/

/-- How a call of `ListFlights` fails: it does not start, or its stream yields some flights and then an error. -/
inductive Failure (Schema : Type)
  | notStarted (e : Status)
  | broken (flights : List (FlightInfo Schema)) (e : Status)

def Failure.listingResult : Failure Schema → Result (FlightListing Schema)
  | .notStarted e => .error e
  | .broken flights e => .ok (flights.map .ok ++ [.error e])

/-- The action fails with a status, and the server goes on with the registry it had. -/
def ReportsFailure (reg : Registry Schema) (message : Bytes) (failure : Failure Schema) : Prop :=
  ∃ e, doAction reg ⟨kActionSayHello.type, message⟩ failure.listingResult = .alive (.error e, reg)

theorem sayHelloLoop_broken (message : Bytes) (e : Status) : ∀ (flights : List (FlightInfo Schema)) (reg : Registry Schema),
    sayHelloLoop message reg (flights.map .ok ++ [.error e]) = .aborted
  | [], _ => rfl
  | f :: flights, reg => by
    rw [List.map_cons, List.cons_append, sayHelloLoop, sayHelloBody_ok]
    exact sayHelloLoop_broken message e flights _

/-- **However the listing fails, and whatever was stored before, the metadata server aborts**; it never reports the
failure. -/
theorem doAction_aborts (reg : Registry Schema) (message : Bytes) (failure : Failure Schema) :
    doAction reg ⟨kActionSayHello.type, message⟩ failure.listingResult = .aborted ∧
      ¬ ReportsFailure reg message failure := by
  have haborts : doAction reg ⟨kActionSayHello.type, message⟩ failure.listingResult = .aborted := by
    unfold doAction
    rw [if_pos rfl]
    cases failure with
    | notStarted e => rfl
    | broken flights e =>
      simp only [Failure.listingResult, doActionSayHello, sayHelloLoop_broken]
      rfl
  refine ⟨haborts, ?_⟩
  rintro ⟨e, he⟩
  rw [haborts] at he
  cases he

/-- A data server with one dataset that is no Parquet file: asking it for its listing aborts the metadata server. -/
theorem failed_listing_not_reported :
    DistributedFlightDataServer.listFlights tinyParquet 5000 (PutFailure.oneFile (utf8 "a.parquet") [])
      (Enumeration.chosen _) = .error (.IOError .parquet) ∧
    ¬ ReportsFailure (∅ : Registry Unit) DistributedFlightDataServer.sayHelloAction.body
      (.notStarted (.IOError .parquet)) := by
  constructor
  · rw [DistributedFlightDataServer.listFlights, DatasetServer.listFlights, SubTreeFileSystem.getFileInfoRoot,
      PutFailure.children_oneFile (by decide), Enumeration.list_singleton]
    decide +kernel
  · rintro ⟨e, he⟩
    cases he

end RegistrySafety
