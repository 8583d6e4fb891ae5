import FlightPlayground.StoreRequests
import FlightPlayground.StressServer
import FlightPlayground.Tracing
/-!
# StorageServiceClient — the Python client of `FlightStressTestServer`, and its simulated traffic

Every method works in a span of its own, and every call it makes is given a span by the middleware.  A simulated client
stores a table under a fresh UUID, in between two listings, and reads it back.
-/
namespace StorageServiceClient

open Posix (Bytes Node ValidName utf8 slash dot)
open Unordered (Enumeration)
open Arrow
open Flight
open FlightStressTestServer (Chunking Request)
open StressServer (Response)
open Tracing

/-! ## Names -/

def hexDigit (n : Nat) : UInt8 := UInt8.ofNat (if n < 10 then 48 + n else 87 + n)

/-- `'%0wx' % n`, for an `n` that needs no more digits. -/
def hex : Nat → Nat → Bytes
  | 0, _ => []
  | w + 1, n => hex w (n / 16) ++ [hexDigit (n % 16)]

structure UUID where
  int : Nat
  lt : int < 2 ^ 128

def dash : UInt8 := 45

/-- Eight, four, four, four and twelve digits. -/
def grouped (digits : Bytes) : Bytes :=
  digits.take 8 ++ dash :: ((digits.drop 8).take 4 ++ dash :: ((digits.drop 12).take 4 ++
    dash :: ((digits.drop 16).take 4 ++ dash :: digits.drop 20)))

/-- `str(uuid)`. -/
def UUID.str (uuid : UUID) : Bytes := grouped (hex 32 uuid.int)

theorem hexDigit_injective {m n : Nat} (hm : m < 16) (hn : n < 16) (h : hexDigit m = hexDigit n) : m = n := by
  have hall : ∀ m < 16, ∀ n < 16, hexDigit m = hexDigit n → m = n := by decide
  exact hall m hm n hn h

theorem hexDigit_ne {n : Nat} (hn : n < 16) : hexDigit n ≠ slash ∧ hexDigit n ≠ dot := by
  have hall : ∀ n < 16, hexDigit n ≠ slash ∧ hexDigit n ≠ dot := by decide
  exact hall n hn

@[simp] theorem length_hex : ∀ w n, (hex w n).length = w
  | 0, _ => rfl
  | w + 1, n => by rw [hex, List.length_append, length_hex w]; rfl

theorem hex_injective : ∀ {w m n : Nat}, m < 16 ^ w → n < 16 ^ w → hex w m = hex w n → m = n
  | 0, m, n, hm, hn, _ => by
    rw [Nat.pow_zero] at hm hn
    omega
  | w + 1, m, n, hm, hn, h => by
    rw [Nat.pow_succ] at hm hn
    obtain ⟨hinit, hlast⟩ := List.append_inj h (by simp)
    have hdiv := hex_injective (by omega) (by omega) hinit
    have hmod := hexDigit_injective (Nat.mod_lt m (by decide)) (Nat.mod_lt n (by decide)) (List.head_eq_of_cons_eq hlast)
    omega

theorem hex_ne : ∀ {w n : Nat} {b : UInt8}, b ∈ hex w n → b ≠ slash ∧ b ≠ dot
  | 0, _, _, h => by cases h
  | w + 1, n, b, h => by
    rcases List.mem_append.1 h with h | h
    · exact hex_ne h
    · rw [List.mem_singleton.1 h]
      exact hexDigit_ne (Nat.mod_lt n (by decide))

theorem mem_grouped {digits : Bytes} {b : UInt8} (h : b ∈ grouped digits) : b = dash ∨ b ∈ digits := by
  have hsub : ∀ k l : Nat, b ∈ (digits.drop k).take l → b ∈ digits := fun k l hb =>
    List.mem_of_mem_drop (List.mem_of_mem_take hb)
  simp only [grouped, List.mem_append, List.mem_cons] at h
  rcases h with h | h | h | h | h | h | h | h | h
  · exact .inr (List.mem_of_mem_take h)
  · exact .inl h
  · exact .inr (hsub 8 4 h)
  · exact .inl h
  · exact .inr (hsub 12 4 h)
  · exact .inl h
  · exact .inr (hsub 16 4 h)
  · exact .inl h
  · exact .inr (List.mem_of_mem_drop h)

theorem length_grouped {digits : Bytes} (h : digits.length = 32) : (grouped digits).length = 36 := by
  simp [grouped, h]

theorem grouped_injective {l l' : Bytes} (hl : l.length = 32) (hl' : l'.length = 32) (h : grouped l = grouped l') : l = l' := by
  have hgroup : ∀ k, k + 4 ≤ 32 → ((l.drop k).take 4).length = ((l'.drop k).take 4).length := fun k hk => by
    simp [hl, hl']
  obtain ⟨h0, h⟩ := List.append_inj h (by simp [hl, hl'])
  obtain ⟨h8, h⟩ := List.append_inj (List.tail_eq_of_cons_eq h) (hgroup 8 (by decide))
  obtain ⟨h12, h⟩ := List.append_inj (List.tail_eq_of_cons_eq h) (hgroup 12 (by decide))
  obtain ⟨h16, h⟩ := List.append_inj (List.tail_eq_of_cons_eq h) (hgroup 16 (by decide))
  have h20 := List.tail_eq_of_cons_eq h
  have hjoin : ∀ (k : Nat) (x : Bytes), (x.drop k).take 4 ++ x.drop (k + 4) = x.drop k := fun k x => by
    rw [← List.drop_drop, List.take_append_drop]
  have h16' : l.drop 16 = l'.drop 16 := by rw [← hjoin 16 l, ← hjoin 16 l', h16, h20]
  have h12' : l.drop 12 = l'.drop 12 := by rw [← hjoin 12 l, ← hjoin 12 l', h12, h16']
  have h8' : l.drop 8 = l'.drop 8 := by rw [← hjoin 8 l, ← hjoin 8 l', h8, h12']
  rw [← List.take_append_drop 8 l, ← List.take_append_drop 8 l', h0, h8']

namespace UUID

theorem notMem_str (uuid : UUID) : slash ∉ uuid.str ∧ dot ∉ uuid.str := by
  have hne : ∀ b ∈ uuid.str, b ≠ slash ∧ b ≠ dot := fun b hb => by
    rcases mem_grouped hb with rfl | hb
    · decide
    · exact hex_ne hb
  exact ⟨fun h => (hne _ h).1 rfl, fun h => (hne _ h).2 rfl⟩

theorem length_str (uuid : UUID) : uuid.str.length = 36 := length_grouped (length_hex 32 uuid.int)

/-- **A UUID is a name a dataset can have**, and one that no listing reports. -/
theorem validName_str (uuid : UUID) : ValidName uuid.str := by
  have hlen : ∀ s : Bytes, s.length < 36 → uuid.str ≠ s := by
    rintro s hs rfl
    exact absurd uuid.length_str (Nat.ne_of_lt hs)
  exact ⟨hlen _ (by decide), hlen _ (by decide), hlen _ (by decide), (notMem_str uuid).1⟩

theorem extension_str (uuid : UUID) : Posix.extension uuid.str = [] := by
  have hdot : dot ∉ Posix.baseName uuid.str := by
    rw [Posix.baseName_of_valid uuid.validName_str]
    exact (notMem_str uuid).2
  exact if_neg hdot

/-- **Different UUIDs are written differently.** -/
theorem str_injective {u v : UUID} (h : u.str = v.str) : u = v := by
  obtain ⟨m, hm⟩ := u
  obtain ⟨n, hn⟩ := v
  have hdigits := grouped_injective (length_hex 32 m) (length_hex 32 n) h
  have hpow : 2 ^ 128 = 16 ^ 32 := by decide
  rw [hpow] at hm hn
  obtain rfl := hex_injective hm hn hdigits
  rfl

attribute [irreducible] UUID.str

end UUID

/-! ## The client -/

variable {Schema Row : Type}

/-- What a call of the client is answered. -/
abbrev Answer : Request Schema Row → Type
  | .doPut _ _ => Result Unit
  | .getFlightInfo _ => Result (FlightInfo Schema)
  | .doGet _ => Result (FlightDataStream Schema Row)
  | .listFlights _ => Result (List (FlightInfo Schema))

inductive Raised
  | arrowException (status : Status)
  | indexError
  | assertionError
  deriving DecidableEq

def method : Request Schema Row → FlightMethod
  | .doPut _ _ => .DO_PUT
  | .getFlightInfo _ => .GET_FLIGHT_INFO
  | .doGet _ => .DO_GET
  | .listFlights _ => .LIST_FLIGHTS

/-- `ClientTracingMiddlewareFactory` and its `ClientTracingMiddleware`. -/
def clientTracingMiddleware : Middleware (Request Schema Row) Raised where
  spanName r := (method r).str
  callCompleted span
    | none => [.ended span]
    | some e => [.exception span e, .ended span]
  ends span e := by
    cases e with
    | none => exact ⟨[], rfl, by simp⟩
    | some e => exact ⟨[.exception span e], rfl, by simp [SpanEvent.On]⟩
  records span e := by cases e <;> rfl

/-- What becomes of the calls of a simulated client: the orders its two listings are read in, and how its upload is
received and written. -/
structure Conditions where
  before : Enumeration (Bytes × Node)
  after : Enumeration (Bytes × Node)
  streamFailure : Option Status
  writeFailure : Option WriteFailure
  cut : Chunking

/-- The upload of the table, as it is received. -/
def uploadOf (data : Table Schema Row) (path : Bytes) (world : Conditions) : Upload Schema Row :=
  ⟨⟨.ofPath [path], data.schema, data.toRecordBatches, world.streamFailure⟩, world.writeFailure⟩

def listDatasets (readdir : Enumeration (Bytes × Node)) : Traced (Request Schema Row) Answer Raised (List (List Bytes)) :=
  .startAsCurrentSpan "StorageServiceClient.list_datasets" fun currentSpan => do
    let flights ← Traced.rpc clientTracingMiddleware (.listFlights readdir) (·.mapError .arrowException)
    Traced.setAttribute currentSpan "num_flights" (.int flights.length)
    return flights.map fun info => info.descriptor.path

def uploadDataset (data : Table Schema Row) (path : Bytes) (world : Conditions) :
    Traced (Request Schema Row) Answer Raised Unit :=
  .startAsCurrentSpan "StorageServiceClient.upload_dataset" fun currentSpan => do
    Traced.setAttribute currentSpan "path" (.str path)
    Traced.setAttribute currentSpan "num_rows" (.int data.rows.length)
    Traced.rpc clientTracingMiddleware (.doPut (uploadOf data path world) world.cut) (·.mapError .arrowException)

def getDataset (path : Bytes) : Traced (Request Schema Row) Answer Raised (Table Schema Row) :=
  .startAsCurrentSpan "StorageServiceClient.get_dataset" fun currentSpan => do
    Traced.setAttribute currentSpan "path" (.str path)
    let info ← Traced.rpc clientTracingMiddleware (.getFlightInfo (.ofPath [path])) (·.mapError .arrowException)
    match info.endpoints with
    | [] => Traced.raise .indexError
    | endpoint :: _ =>
      let stream ← Traced.rpc clientTracingMiddleware (.doGet endpoint.ticket) (·.mapError .arrowException)
      Traced.setAttribute currentSpan "num_rows" (.int stream.readAll.rows.length)
      return stream.readAll

variable [DecidableEq Schema] [DecidableEq Row]

/-- `simulate_client`, with the sample data and the UUID it draws; it returns the two lists it prints. -/
def simulateClient (data : Table Schema Row) (uuid : UUID) (world : Conditions) :
    Traced (Request Schema Row) Answer Raised (List (List Bytes) × List (List Bytes)) :=
  .startAsCurrentSpan "simulated_client" fun _ => do
    let before ← listDatasets world.before
    uploadDataset data uuid.str world
    let after ← listDatasets world.after
    let outData ← getDataset uuid.str
    if data = outData then return (before, after)
    else Traced.raise .assertionError

/-! ## Its trace -/

section Trace

variable {p : Option Nat}

omit [DecidableEq Schema] [DecidableEq Row]

theorem wellTraced_listDatasets (readdir : Enumeration (Bytes × Node)) :
    WellTraced clientTracingMiddleware p (listDatasets readdir : Traced (Request Schema Row) Answer Raised _) :=
  .startAsCurrentSpan fun span => .bind (.rpc _ _) fun _ => .bind (.setAttribute span _ _) fun _ => .pure _

theorem wellTraced_uploadDataset (data : Table Schema Row) (path : Bytes) (world : Conditions) :
    WellTraced clientTracingMiddleware p (uploadDataset data path world) :=
  .startAsCurrentSpan fun span => .bind (.setAttribute span _ _) fun _ => .bind (.setAttribute span _ _) fun _ => .rpc _ _

theorem wellTraced_getDataset (path : Bytes) :
    WellTraced clientTracingMiddleware p (getDataset path : Traced (Request Schema Row) Answer Raised _) := by
  refine .startAsCurrentSpan fun span => .bind (.setAttribute span _ _) fun _ => .bind (.rpc _ _) fun info => ?_
  cases info.endpoints with
  | nil => exact .raise _
  | cons endpoint _ => exact .bind (.rpc _ _) fun _ => .bind (.setAttribute span _ _) fun _ => .pure _

end Trace

theorem wellTraced_simulateClient (data : Table Schema Row) (uuid : UUID) (world : Conditions) :
    WellTraced clientTracingMiddleware none (simulateClient data uuid world) := by
  refine .startAsCurrentSpan fun span => .bind (wellTraced_listDatasets _) fun _ =>
    .bind (wellTraced_uploadDataset _ _ _) fun _ => .bind (wellTraced_listDatasets _) fun _ =>
      .bind (wellTraced_getDataset _) fun outData => ?_
  by_cases h : data = outData
  · rw [if_pos h]
    exact .pure _
  · rw [if_neg h]
    exact .raise _

/-- **A simulated client accounts for all that it does**, whatever its calls are answered. -/
theorem simulateClient_accounted (data : Table Schema Row) (uuid : UUID) (world : Conditions)
    {es : List (Step Answer Raised)} {result : Except Raised (List (List Bytes) × List (List Bytes))} {tracer : Tracer}
    (h : (simulateClient data uuid world ⟨0, none⟩).Runs es (result, tracer)) :
    Accounted clientTracingMiddleware es (error? result) := (wellTraced_simulateClient data uuid world).accounted h

/-! ## A server that cannot be reached -/

def refused : Raised := .arrowException (.IOError .unavailable)

/-- What a simulated client does whose first listing is refused. -/
def firstListingRefused (readdir : Enumeration (Bytes × Node)) : List (Step (@Answer Unit UInt8) Raised) :=
  [.note (.started 0 none "simulated_client"),
   .note (.started 1 (some 0) "StorageServiceClient.list_datasets"),
   .note (.started 2 (some 1) "FlightMethod.LIST_FLIGHTS"),
   .call ⟨2, .listFlights readdir⟩ (.error (.IOError .unavailable)),
   .note (.exception 2 refused), .note (.ended 2),
   .note (.exception 1 refused), .note (.status 1 .ERROR), .note (.ended 1),
   .note (.exception 0 refused), .note (.status 0 .ERROR), .note (.ended 0)]

theorem simulateClient_accounted_refused :
    Accounted clientTracingMiddleware (firstListingRefused (.chosen _)) (some refused) := by
  have hrun : (simulateClient (⟨(), [7]⟩ : Table Unit UInt8) ⟨0, by decide⟩ ⟨.chosen _, .chosen _, none, none, .whole⟩
      ⟨0, none⟩).Runs (firstListingRefused (.chosen _)) (.error refused, ⟨3, none⟩) :=
    .note (.note (.note (.call (.note (.note (.note (.note (.note (.note (.note (.note (.pure _))))))))))))
  exact simulateClient_accounted _ _ _ hrun

end StorageServiceClient
