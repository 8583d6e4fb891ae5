import FlightPlayground.RegistrySafety
import FlightPlayground.Registration
import FlightPlayground.Locations
import FlightPlayground.Tracing
/-!
# ListAndGetAllFlights — the Python client of the metadata server and the data servers

`main` lists the flights of the metadata server and gets each of them, one after another, from the first location of its
first endpoint.  A flight that has none, or cannot be got, ends it.
-/
namespace ListAndGetAllFlights

open Arrow
open Flight
open Tracing

variable {Schema Row : Type}

inductive Call
  | listFlights
  | doGet (location : Location) (ticket : Ticket)
  deriving DecidableEq

/-- What a call is answered. -/
abbrev Answer (Schema Row : Type) : Call → Type
  | .listFlights => Result (List (FlightInfo Schema))
  | .doGet _ _ => Result (FlightDataStream Schema Row)

inductive Raised
  | arrowException (status : Status)
  | indexError
  deriving DecidableEq

def Call.method : Call → FlightMethod
  | .listFlights => .LIST_FLIGHTS
  | .doGet _ _ => .DO_GET

/-- `ClientTracingMiddlewareFactory` and its `ClientTracingMiddleware`. -/
def clientTracingMiddleware : Middleware Call Raised where
  spanName call := "client." ++ call.method.str
  callCompleted span
    | some e => [.exception span e, .status span .ERROR, .ended span]
    | none => [.status span .OK, .ended span]
  ends span e := by
    cases e with
    | none => exact ⟨[.status span .OK], rfl, by simp [SpanEvent.On]⟩
    | some e => exact ⟨[.exception span e, .status span .ERROR], rfl, by simp [SpanEvent.On]⟩
  records span e := by cases e <;> rfl

theorem plain_clientTracingMiddleware : clientTracingMiddleware.Plain (α := Answer Schema Row) := fun span e => by
  cases e <;> rfl

/-- `xs[0]`. -/
def first {β : Type} : List β → Traced Call (Answer Schema Row) Raised β
  | [] => .raise .indexError
  | x :: _ => return x

def connectTempClient (flightInfo : FlightInfo Schema) : Traced Call (Answer Schema Row) Raised Location :=
  .startAsCurrentSpan "connect_temp_client" fun _ => do
    let endpoint ← first flightInfo.endpoints
    first endpoint.locations

def doGet (tempClient : Location) (flightInfo : FlightInfo Schema) : Traced Call (Answer Schema Row) Raised Unit :=
  .startAsCurrentSpan "do_get" fun doGetSpan => do
    let endpoint ← first flightInfo.endpoints
    let reader ← Traced.rpc clientTracingMiddleware (.doGet tempClient endpoint.ticket) (·.mapError .arrowException)
    Traced.setAttribute doGetSpan "num_rows" (.int reader.readAll.rows.length)

def getSingleFlight (flightInfo : FlightInfo Schema) : Traced Call (Answer Schema Row) Raised Unit :=
  .startAsCurrentSpan "get_single_flight" fun _ => do
    let tempClient ← connectTempClient flightInfo
    doGet tempClient flightInfo

/-- The loop of `main`. -/
def getAllFlights : List (FlightInfo Schema) → Nat → Traced Call (Answer Schema Row) Raised Nat
  | [], nFlights => return nFlights
  | flightInfo :: rest, nFlights => do
    getSingleFlight flightInfo
    getAllFlights rest (nFlights + 1)

def main : Traced Call (Answer Schema Row) Raised Unit :=
  .startAsCurrentSpan "list_and_get_all_flights" fun listAllFlightsSpan => do
    let flights ← Traced.rpc clientTracingMiddleware .listFlights (·.mapError .arrowException)
    let nFlights ← getAllFlights flights 0
    Traced.setAttribute listAllFlightsSpan "num_flights" (.int nFlights)

/-! ## Its trace -/

section Trace

variable {p : Option Nat}

theorem wellTraced_first {β : Type} (xs : List β) :
    WellTraced clientTracingMiddleware p (first xs : Traced Call (Answer Schema Row) Raised β) := by
  cases xs with
  | nil => exact .raise _
  | cons x _ => exact .pure x

theorem wellTraced_getSingleFlight (flightInfo : FlightInfo Schema) :
    WellTraced clientTracingMiddleware p (getSingleFlight flightInfo : Traced Call (Answer Schema Row) Raised Unit) :=
  .startAsCurrentSpan fun _ => .bind (.startAsCurrentSpan fun _ => .bind (wellTraced_first _) fun _ => wellTraced_first _)
    fun _ => .startAsCurrentSpan fun span => .bind (wellTraced_first _) fun _ => .bind (.rpc _ _) fun _ =>
      .setAttribute span _ _

theorem wellTraced_getAllFlights : ∀ (flights : List (FlightInfo Schema)) (nFlights : Nat),
    WellTraced clientTracingMiddleware p (getAllFlights flights nFlights : Traced Call (Answer Schema Row) Raised Nat)
  | [], nFlights => .pure nFlights
  | _ :: rest, nFlights => .bind (wellTraced_getSingleFlight _) fun _ => wellTraced_getAllFlights rest (nFlights + 1)

theorem wellTraced_main : WellTraced clientTracingMiddleware none (main : Traced Call (Answer Schema Row) Raised Unit) :=
  .startAsCurrentSpan fun span => .bind (.rpc _ _) fun _ => .bind (wellTraced_getAllFlights _ _) fun _ =>
    .setAttribute span _ _

/-- **`main` accounts for all that it does**, whatever its calls are answered. -/
theorem main_accounted {es : List (Step (Answer Schema Row) Raised)} {result : Except Raised Unit} {tracer : Tracer}
    (h : (main ⟨0, none⟩).Runs es (result, tracer)) : Accounted clientTracingMiddleware es (error? result) :=
  wellTraced_main.accounted h

end Trace

/-! ## Its calls -/

/-- Where `main` gets the flight from, and with which ticket. -/
def fetchOf (flightInfo : FlightInfo Schema) : Option (Location × Ticket) :=
  flightInfo.endpoints.head?.bind fun endpoint => endpoint.locations.head?.map fun location => (location, endpoint.ticket)

/-- A flight is got and its rows counted, or it is refused, or it has no location. -/
inductive GetsOne (flightInfo : FlightInfo Schema) :
    List ((call : Call) × Answer Schema Row call) → List (String × Value) → Except Raised Unit → Prop
  | got {location ticket stream} : fetchOf flightInfo = some (location, ticket) →
      GetsOne flightInfo [⟨.doGet location ticket, .ok stream⟩] [("num_rows", .int stream.readAll.rows.length)] (.ok ())
  | refused {location ticket status} : fetchOf flightInfo = some (location, ticket) →
      GetsOne flightInfo [⟨.doGet location ticket, .error status⟩] [] (.error (.arrowException status))
  | lacking : fetchOf flightInfo = none → GetsOne flightInfo [] [] (.error .indexError)

/-- The flights are got one after another, up to the first that is not. -/
inductive Gets : List (FlightInfo Schema) → List ((call : Call) × Answer Schema Row call) → List (String × Value) →
    Except Raised Unit → Prop
  | done : Gets [] [] [] (.ok ())
  | got {flightInfo rest cs as cs' as' x} : GetsOne flightInfo cs as (.ok ()) → Gets rest cs' as' x →
      Gets (flightInfo :: rest) (cs ++ cs') (as ++ as') x
  | ended {flightInfo rest cs as e} : GetsOne flightInfo cs as (.error e) → Gets (flightInfo :: rest) cs as (.error e)

section Calls

theorem does_first {β : Type} {Q : List ((call : Call) × Answer Schema Row call) → List (String × Value) → Except Raised β → Prop}
    {xs : List β} (hnil : xs.head? = none → Q [] [] (.error .indexError)) (hcons : ∀ x, xs.head? = some x → Q [] [] (.ok x)) :
    Does (first xs) Q := by
  cases xs with
  | nil => exact .raise (hnil rfl)
  | cons x _ => exact .pure (hcons x rfl)

theorem does_getSingleFlight (flightInfo : FlightInfo Schema) :
    Does (getSingleFlight flightInfo : Traced Call (Answer Schema Row) Raised Unit) (GetsOne flightInfo) := by
  refine .startAsCurrentSpan fun _ => .bind (.startAsCurrentSpan fun _ => .bind (does_first (fun he => ?_) fun endpoint he =>
    does_first (fun hl => ?_) fun location hl => .startAsCurrentSpan fun span => .bind (does_first (fun he' => ?_)
      fun endpoint' he' => ?_)))
  · exact .lacking (by rw [fetchOf, he]; rfl)
  · exact .lacking (by rw [fetchOf, he, Option.bind_some, hl]; rfl)
  · rw [he] at he'
    cases he'
  · obtain rfl : endpoint = endpoint' := Option.some.inj (he.symm.trans he')
    have hfetch : fetchOf flightInfo = some (location, endpoint.ticket) := by rw [fetchOf, he, Option.bind_some, hl]; rfl
    refine .bind (.rpc plain_clientTracingMiddleware fun a => ?_)
    cases a with
    | error status => exact .refused hfetch
    | ok stream => exact .setAttribute (.got hfetch)

theorem does_getAllFlights : ∀ (flights : List (FlightInfo Schema)) (nFlights : Nat),
    Does (getAllFlights flights nFlights : Traced Call (Answer Schema Row) Raised Nat) fun cs as x =>
      Gets flights cs as (x.map fun _ => ()) ∧ ∀ n, x = .ok n → n = nFlights + flights.length
  | [], nFlights => .pure ⟨.done, fun n hn => (Except.ok.inj hn).symm⟩
  | flightInfo :: rest, nFlights => by
    refine .bind ((does_getSingleFlight flightInfo).imp fun cs as x hx => ?_)
    cases x with
    | error e => exact ⟨.ended hx, fun n hn => by cases hn⟩
    | ok u =>
      refine (does_getAllFlights rest (nFlights + 1)).imp fun cs' as' y hy => ⟨.got hx hy.1, fun n hn => ?_⟩
      rw [hy.2 n hn, List.length_cons, Nat.add_assoc, Nat.add_comm 1]

theorem gets_nil {cs : List ((call : Call) × Answer Schema Row call)} {as : List (String × Value)} {x : Except Raised Unit}
    (h : Gets [] cs as x) : cs = [] ∧ as = [] ∧ x = .ok () := by
  cases h with
  | done => exact ⟨rfl, rfl, rfl⟩

theorem gets_singleton {flightInfo : FlightInfo Schema} {location : Location} {ticket : Ticket}
    (hfetch : fetchOf flightInfo = some (location, ticket)) {cs : List ((call : Call) × Answer Schema Row call)}
    {as : List (String × Value)} {x : Except Raised Unit} (h : Gets [flightInfo] cs as x) :
    (∃ stream, cs = [⟨.doGet location ticket, .ok stream⟩] ∧ as = [("num_rows", .int stream.readAll.rows.length)] ∧
        x = .ok ()) ∨
      ∃ status, cs = [⟨.doGet location ticket, .error status⟩] ∧ x = .error (.arrowException status) := by
  cases h with
  | got hone hrest =>
    obtain ⟨rfl, rfl, rfl⟩ := gets_nil hrest
    cases hone with
    | @got _ _ stream hfetch' =>
      cases hfetch.symm.trans hfetch'
      exact .inl ⟨stream, rfl, rfl, rfl⟩
  | ended hone =>
    cases hone with
    | @refused _ _ status hfetch' =>
      cases hfetch.symm.trans hfetch'
      exact .inr ⟨status, rfl, rfl⟩
    | lacking hnone => cases hfetch.symm.trans hnone

/-- The listing is refused, or the flights of it are got, and in the end their number is recorded. -/
theorem does_main : Does (main : Traced Call (Answer Schema Row) Raised Unit) fun cs as x =>
    (∃ status, cs = [⟨.listFlights, .error status⟩] ∧ x = .error (.arrowException status)) ∨
      ∃ flights cs' as', cs = ⟨.listFlights, .ok flights⟩ :: cs' ∧ Gets flights cs' as' x ∧
        (x = .ok () → as = as' ++ [("num_flights", .int flights.length)]) := by
  refine .startAsCurrentSpan fun span => .bind (.rpc plain_clientTracingMiddleware fun a => ?_)
  cases a with
  | error status => exact .inl ⟨status, rfl, rfl⟩
  | ok flights =>
    refine .bind ((does_getAllFlights flights 0).imp fun cs as x hx => ?_)
    cases x with
    | error e => exact .inr ⟨flights, cs, as, rfl, hx.1, fun h => by cases h⟩
    | ok n =>
      refine .setAttribute (.inr ⟨flights, cs, as, by simp, hx.1, fun _ => ?_⟩)
      rw [hx.2 n rfl, Nat.zero_add]
      rfl

end Calls

/-! ## All the flights -/

open Posix (Bytes Node utf8)
open Unordered (Enumeration)
open Locations (Deployment Answers)
open DistributedFlightMetadataServer (Registry)
open Registration (Listing registerAll)

variable {ι κ Host : Type}

/-- The answers `main` gets on the host of the client `k`: a listing is what the metadata server knows, and a flight is got
from the data server its location leads to from there, if there is one. -/
def AnsweredBy (pq : Parquet Schema Row) (d : Deployment ι κ Host) (k : κ) (reg : Registry Schema) :
    (call : Call) → Answer Schema Row call → Prop
  | .listFlights, a => ∃ order flights, DistributedFlightMetadataServer.listFlights order reg = .alive flights ∧ a = .ok flights
  | .doGet location ticket, a =>
    (∃ i, Answers d (d.client k) location i ∧ a = DistributedFlightDataServer.doGet pq (d.root i) ticket) ∨
      (∀ i, ¬ Answers d (d.client k) location i) ∧ ∃ status, a = .error status

/-- What a client gets that looks for the ticket on its own host, at the port of the data server `i`. -/
def GotThere (pq : Parquet Schema Row) (d : Deployment ι κ Host) (k : κ) (i : ι) (ticket : Ticket)
    (stream : FlightDataStream Schema Row) : Prop :=
  ∃ j, d.host j = d.client k ∧ d.port j = d.port i ∧ DistributedFlightDataServer.doGet pq (d.root j) ticket = .ok stream

variable {pq : Parquet Schema Row} {d : Deployment ι κ Host} {k : κ} {reg : Registry Schema} {i : ι}

theorem fetchOf_listed {port : Nat} {root : SubTreeFileSystem} {readdir : Enumeration (Bytes × Node)}
    {fs : List (FlightInfo Schema)} (h : DistributedFlightDataServer.listFlights pq port root readdir = .ok fs) :
    ∀ f ∈ fs, ∃ name, f.descriptor = .ofPath [name] ∧ fetchOf f = some (⟨utf8 "localhost", port⟩, ⟨name⟩) := by
  refine DatasetServer.listFlights_forall (fun fileInfo f hf => ?_) h
  obtain ⟨c, md, -, -, rfl⟩ := DatasetServer.makeFlightInfo_ok hf
  exact ⟨_, rfl, rfl⟩

theorem answered_localhost {ticket : Ticket} {a : Result (FlightDataStream Schema Row)}
    (h : AnsweredBy pq d k reg (.doGet ⟨utf8 "localhost", d.port i⟩ ticket) a) :
    ∀ stream, a = .ok stream ↔ GotThere pq d k i ticket stream := by
  intro stream
  rcases h with ⟨j, hj, rfl⟩ | ⟨hnone, status, rfl⟩
  · obtain ⟨hhost, hport⟩ := Locations.answers_localhost.1 hj
    constructor
    · exact fun h => ⟨j, hhost.symm, hport, h⟩
    · rintro ⟨j', hhost', hport', h⟩
      obtain rfl := d.distinct j j' (hhost.symm.trans hhost'.symm) (hport.trans hport'.symm)
      exact h
  · constructor
    · rintro ⟨⟩
    · rintro ⟨j, hhost, hport, -⟩
      exact absurd (Locations.answers_localhost.2 ⟨hhost.symm, hport⟩) (hnone j)

/-- What `main` does when the data server `i` alone has registered: it gets the last flight that was ever listed, if there
is one, from the data server on its own host that has the port of `i`, and counts its rows; otherwise it gets none. -/
structure GetsLast (pq : Parquet Schema Row) (d : Deployment ι κ Host) (k : κ) (i : ι) (listed : List (FlightInfo Schema))
    (es : List (Step (Answer Schema Row) Raised)) (result : Except Raised Unit) : Prop where
  none : listed = [] → calls es = [⟨.listFlights, .ok []⟩] ∧ result = .ok () ∧ attributes es = [("num_flights", .int 0)]
  last : ∀ f, listed.getLast? = some f → ∃ name a, f.descriptor = .ofPath [name] ∧
    calls es = [⟨.listFlights, .ok [f]⟩, ⟨.doGet ⟨utf8 "localhost", d.port i⟩ ⟨name⟩, a⟩] ∧
    (result = .ok () ↔ ∃ stream, GotThere pq d k i ⟨name⟩ stream) ∧
    ∀ stream, GotThere pq d k i ⟨name⟩ stream →
      a = .ok stream ∧ attributes es = [("num_rows", .int stream.readAll.rows.length), ("num_flights", .int 1)]

/-- **Whatever a data server has listed, `main` gets the last of it**, and that from its own host. -/
theorem main_gets_last {ls : List (Listing Schema)}
    (hls : ∀ l ∈ ls, ∃ root readdir, DistributedFlightDataServer.listFlights pq (d.port i) root readdir = .ok l.flights)
    (hreg : registerAll ∅ ls = .alive reg) {es : List (Step (Answer Schema Row) Raised)} {result : Except Raised Unit}
    {tracer : Tracer} (hrun : (main ⟨0, none⟩).Runs es (result, tracer))
    (hes : ∀ c ∈ calls es, AnsweredBy pq d k reg c.1 c.2) :
    GetsLast pq d k i (ls.flatMap Listing.flights) es result := by
  have hlist : ∀ a, AnsweredBy pq d k reg .listFlights a → a = .ok (ls.flatMap Listing.flights).getLast?.toList := by
    rintro a ⟨order, flights, hflights, rfl⟩
    rw [Registration.registerAll_eq] at hreg
    cases hreg
    rw [Registration.listFlights_storeAll _ _ (Registration.minted_flatMap ls)] at hflights
    cases hflights
    rfl
  have hfetch : ∀ f ∈ ls.flatMap Listing.flights, ∃ name, f.descriptor = .ofPath [name] ∧
      fetchOf f = some (⟨utf8 "localhost", d.port i⟩, ⟨name⟩) := fun f hf => by
    obtain ⟨l, hl, hfl⟩ := List.mem_flatMap.1 hf
    obtain ⟨root, readdir, h⟩ := hls l hl
    exact fetchOf_listed h f hfl
  rcases does_main _ _ _ _ hrun with ⟨status, hcalls, -⟩ | ⟨flights, cs, as, hcalls, hgets, has⟩
  · have := hlist _ (hes ⟨.listFlights, .error status⟩ (by rw [hcalls]; exact List.mem_cons_self))
    cases this
  · have hflights := hlist _ (hes ⟨.listFlights, .ok flights⟩ (by rw [hcalls]; exact List.mem_cons_self))
    obtain rfl := Except.ok.inj hflights
    constructor
    · intro hnone
      rw [hnone] at hcalls hgets has
      obtain ⟨rfl, rfl, rfl⟩ := gets_nil hgets
      exact ⟨hcalls, rfl, has rfl⟩
    · intro f hf
      rw [hf] at hcalls hgets has
      obtain ⟨name, hname, hfetchOf⟩ := hfetch f (List.mem_of_getLast? hf)
      rcases gets_singleton hfetchOf hgets with ⟨stream, rfl, rfl, rfl⟩ | ⟨status, rfl, rfl⟩
      · have hstream := answered_localhost
          (hes ⟨.doGet ⟨utf8 "localhost", d.port i⟩ ⟨name⟩, .ok stream⟩ (by rw [hcalls]; simp))
        refine ⟨name, .ok stream, hname, hcalls, iff_of_true rfl ⟨stream, (hstream stream).1 rfl⟩, fun stream' hgot => ?_⟩
        have heq := (hstream stream').2 hgot
        cases heq
        exact ⟨rfl, has rfl⟩
      · have hstatus := answered_localhost
          (hes ⟨.doGet ⟨utf8 "localhost", d.port i⟩ ⟨name⟩, .error status⟩ (by rw [hcalls]; simp))
        have hno : ∀ stream, ¬ GotThere pq d k i ⟨name⟩ stream := fun stream hgot => by
          have := (hstatus stream).2 hgot
          cases this
        exact ⟨name, .error status, hname, hcalls, iff_of_false (fun h => by cases h) fun ⟨stream, h⟩ => hno stream h,
          fun stream h => absurd h (hno stream)⟩

/-! ## A data server that has registered twice -/

open RegistrySafety (oneDataset oneFlight listFlights_oneDataset)

/-- What the data server had when it registered first. -/
def otherDataset : SubTreeFileSystem := PutFailure.oneFile (utf8 "b.parquet") (tinyParquet.encode ⟨(), [8, 9]⟩)

def otherFlight : FlightInfo Unit :=
  DatasetServer.mintedInfo 5000 (utf8 "b.parquet") (tinyParquet.encodedMetaData ⟨(), [8, 9]⟩)
    (tinyParquet.encode ⟨(), [8, 9]⟩).length

theorem listFlights_otherDataset : DistributedFlightDataServer.listFlights tinyParquet 5000 otherDataset
    (Enumeration.chosen _) = .ok [otherFlight] := by
  rw [DistributedFlightDataServer.listFlights, DatasetServer.listFlights, SubTreeFileSystem.getFileInfoRoot, otherDataset,
    PutFailure.children_oneFile (by decide), Enumeration.list_singleton]
  decide +kernel

/-- A data server and a client on one host. -/
def oneHost : Deployment Unit Unit Unit where
  host _ := ()
  port _ := 5000
  distinct _ _ _ _ := rfl
  root _ := oneDataset
  client _ := ()
  resolve h name := if name = utf8 "localhost" then some h else none
  resolve_localhost _ := if_pos rfl

def oneStream : FlightDataStream Unit UInt8 := ⟨(), [[7]]⟩

theorem doGet_oneDataset : DistributedFlightDataServer.doGet tinyParquet oneDataset ⟨utf8 "a.parquet"⟩ = .ok oneStream := by
  decide +kernel

/-- What `main` does then. -/
def oneFlightGot : List (Step (Answer Unit UInt8) Raised) :=
  [.note (.started 0 none "list_and_get_all_flights"),
   .note (.started 1 (some 0) "client.FlightMethod.LIST_FLIGHTS"),
   .call ⟨1, .listFlights⟩ (.ok [oneFlight]), .note (.status 1 .OK), .note (.ended 1),
   .note (.started 2 (some 0) "get_single_flight"),
   .note (.started 3 (some 2) "connect_temp_client"), .note (.ended 3),
   .note (.started 4 (some 2) "do_get"),
   .note (.started 5 (some 4) "client.FlightMethod.DO_GET"),
   .call ⟨5, .doGet ⟨utf8 "localhost", 5000⟩ ⟨utf8 "a.parquet"⟩⟩ (.ok oneStream), .note (.status 5 .OK), .note (.ended 5),
   .note (.attributeSet 4 "num_rows" (.int 1)), .note (.ended 4), .note (.ended 2),
   .note (.attributeSet 0 "num_flights" (.int 1)), .note (.ended 0)]

theorem main_gets_last_registeredTwice :
    GetsLast tinyParquet oneHost () () [otherFlight, oneFlight] oneFlightGot (.ok ()) := by
  have hrun : (main ⟨0, none⟩).Runs oneFlightGot (.ok (), ⟨6, none⟩) :=
    .note (.note (.call (.note (.note (.note (.note (.note (.note (.note (.call (.note (.note (.note (.note (.note (.note
      (.note (.pure _))))))))))))))))))
  have hminted : ∀ f ∈ [otherFlight, oneFlight], DistributedFlightMetadataServer.Minted f :=
    Registration.minted_flatMap [.ofDataServer listFlights_otherDataset, .ofDataServer listFlights_oneDataset]
  have hreg : registerAll ∅ [.ofDataServer listFlights_otherDataset, .ofDataServer listFlights_oneDataset] = .alive _ :=
    Registration.registerAll_eq _ _
  refine main_gets_last ?_ hreg hrun ?_
  · intro l hl
    rcases List.mem_pair.1 hl with rfl | rfl
    · exact ⟨_, _, listFlights_otherDataset⟩
    · exact ⟨_, _, listFlights_oneDataset⟩
  · intro c hc
    rcases List.mem_pair.1 hc with rfl | rfl
    · exact ⟨.chosen _, _, Registration.listFlights_storeAll _ _ hminted, rfl⟩
    · exact .inl ⟨(), Locations.answers_localhost.2 ⟨rfl, rfl⟩, doGet_oneDataset.symm⟩

end ListAndGetAllFlights
