import FlightPlayground.MetadataServer
/-!
# Registration — what a metadata server knows of a data server that registers

Every registration of a data server carries the same text, and what it stores it stores under that text: of all the
flights it has listed, in all its registrations, the last one stays.
-/
namespace Registration

open Posix (Bytes utf8)
open Unordered (Enumeration)
open Arrow
open Flight
open DistributedFlightMetadataServer

variable {Schema Row : Type}

structure Listing (Schema : Type) where
  flights : List (FlightInfo Schema)
  minted : ∀ f ∈ flights, Minted f

def Listing.ofDataServer {pq : Parquet Schema Row} {port : Nat} {root : SubTreeFileSystem}
    {readdir : Enumeration (Bytes × Posix.Node)} {fs : List (FlightInfo Schema)}
    (h : DistributedFlightDataServer.listFlights pq port root readdir = .ok fs) : Listing Schema :=
  ⟨fs, DatasetServer.listFlights_minted h⟩

def register (reg : Registry Schema) (l : Listing Schema) : Fate (Result Unit × Registry Schema) :=
  doAction reg DistributedFlightDataServer.sayHelloAction (.ok (l.flights.map .ok))

def registerAll : Registry Schema → List (Listing Schema) → Fate (Registry Schema)
  | reg, [] => .alive reg
  | reg, l :: ls => (register reg l).bind fun r => registerAll r.2 ls

/-- `ListFlights` answers with these flights, each once, and no other. -/
def ShowsExactly (reg : Registry Schema) (flights : List (FlightInfo Schema)) : Prop :=
  ∀ order, ∃ fs, listFlights order reg = .alive fs ∧ fs.Nodup ∧ ∀ f, f ∈ fs ↔ f ∈ flights

/-- After each registration that is answered OK, `ListFlights` answers with exactly the flights listed in it. -/
def EachShows (ls : List (Listing Schema)) : Prop :=
  ∀ pre l post, ls = pre ++ l :: post → ∀ before, registerAll ∅ pre = .alive before →
    ∀ after, register before l = .alive (.ok (), after) → ShowsExactly after l.flights

/-- No listing has two different flights, and none is empty after one that is not. -/
def OneFlightEach (ls : List (Listing Schema)) : Prop :=
  ∀ pre l post, ls = pre ++ l :: post →
    (∀ f ∈ l.flights, ∀ g ∈ l.flights, f = g) ∧ (l.flights = [] → ∀ l' ∈ pre, l'.flights = [])

abbrev hello : Bytes := DistributedFlightDataServer.sayHelloAction.body

theorem register_eq (reg : Registry Schema) (l : Listing Schema) :
    register reg l = .alive (.ok (), storeAll hello reg l.flights) := doAction_sayHello rfl reg l.flights

/-- **Registrations store all their flights under one key.** -/
theorem registerAll_eq : ∀ (ls : List (Listing Schema)) (reg : Registry Schema),
    registerAll reg ls = .alive (storeAll hello reg (ls.flatMap Listing.flights))
  | [], _ => rfl
  | l :: ls, reg => by
    rw [registerAll, register_eq, Fate.bind, registerAll_eq ls, List.flatMap_cons, storeAll_append]

/-- **Of the flights stored under one key, a listing shows the last.** -/
theorem listFlights_storeAll (order : Enumeration (Entry Schema)) (message : Bytes) {flights : List (FlightInfo Schema)}
    (h : ∀ f ∈ flights, Minted f) : listFlights order (storeAll message ∅ flights) = .alive flights.getLast?.toList := by
  rw [(wellFormed_empty.storeAll message h).listFlights_eq]
  cases flights using List.reverseRecOn with
  | nil => simp [storeAll, show (∅ : Registry Schema).entries = 0 from rfl]
  | append_singleton flights f =>
    have he : (storeAll message ∅ (flights ++ [f])).entries = {⟨message, some f⟩} := by
      rw [storeAll_concat, Unordered.entries_insert, Unordered.erase_of_notMem Finmap.notMem_empty]
      rfl
    rw [he, Enumeration.list_singleton]
    simp

theorem minted_flatMap (ls : List (Listing Schema)) : ∀ f ∈ ls.flatMap Listing.flights, Minted f := fun f hf =>
  have ⟨l, _, hl⟩ := List.mem_flatMap.1 hf
  l.minted f hl

theorem showsExactly_iff (pre : List (Listing Schema)) (l : Listing Schema) :
    ShowsExactly (storeAll hello ∅ ((pre ++ [l]).flatMap Listing.flights)) l.flights ↔
      ∀ f, f ∈ ((pre ++ [l]).flatMap Listing.flights).getLast? ↔ f ∈ l.flights := by
  have hlist := fun order => listFlights_storeAll order hello (minted_flatMap (pre ++ [l]))
  have hnd : ((pre ++ [l]).flatMap Listing.flights).getLast?.toList.Nodup := by
    cases ((pre ++ [l]).flatMap Listing.flights).getLast? <;> simp
  constructor
  · intro h f
    obtain ⟨fs, hfs, -, hmem⟩ := h (Enumeration.chosen _)
    rw [hlist] at hfs
    cases hfs
    rw [← hmem f, Option.mem_toList]
    rfl
  · exact fun h order => ⟨_, hlist order, hnd, fun f => Option.mem_toList.trans (h f)⟩

theorem getLast_mem_iff (pre : List (Listing Schema)) (l : Listing Schema) :
    (∀ f, f ∈ ((pre ++ [l]).flatMap Listing.flights).getLast? ↔ f ∈ l.flights) ↔
      (∀ f ∈ l.flights, ∀ g ∈ l.flights, f = g) ∧ (l.flights = [] → ∀ l' ∈ pre, l'.flights = []) := by
  have hsplit : (pre ++ [l]).flatMap Listing.flights = pre.flatMap Listing.flights ++ l.flights := by simp
  rw [hsplit]
  cases hl : l.flights using List.reverseRecOn with
  | nil =>
    simp only [List.append_nil, List.not_mem_nil, iff_false, false_imp_iff, implies_true, true_and, forall_const]
    rw [← List.flatMap_eq_nil_iff, ← List.getLast?_eq_none_iff, Option.eq_none_iff_forall_not_mem]
  | append_singleton fs f =>
    rw [← List.append_assoc, List.getLast?_concat]
    simp only [Option.mem_def, Option.some.injEq, List.append_eq_nil_iff, List.cons_ne_nil, and_false, false_imp_iff, and_true]
    constructor
    · intro h g hg g' hg'
      exact ((h g).2 hg).symm.trans ((h g').2 hg')
    · intro h g
      exact ⟨fun hg => by simp [← hg], fun hg => h f (by simp) g hg⟩

/-- **A metadata server shows exactly the latest listing of a data server, registration after registration, if and only
if the listings have one flight each**, or none as long as none has one. -/
theorem eachShows_iff (ls : List (Listing Schema)) : EachShows ls ↔ OneFlightEach ls := by
  unfold EachShows OneFlightEach
  refine forall_congr' fun pre => forall_congr' fun l => forall_congr' fun post => imp_congr_right fun _ => ?_
  rw [← getLast_mem_iff, ← showsExactly_iff, registerAll_eq]
  have hafter : storeAll hello (storeAll hello ∅ (pre.flatMap Listing.flights)) l.flights =
      storeAll hello ∅ ((pre ++ [l]).flatMap Listing.flights) := by simp [storeAll_append]
  constructor
  · intro h
    exact hafter ▸ h _ rfl _ (register_eq _ l)
  · rintro h before ⟨⟩ after hreg
    rw [register_eq] at hreg
    cases hreg
    exact hafter ▸ h

/-! ## A data server with two datasets -/

def flightA : FlightInfo Unit := DatasetServer.mintedInfo 8889 (utf8 "a.parquet") (tinyParquet.encodedMetaData ⟨(), [7]⟩) 4
def flightB : FlightInfo Unit := DatasetServer.mintedInfo 8889 (utf8 "b.parquet") (tinyParquet.encodedMetaData ⟨(), [8]⟩) 4

def twoDatasets : Listing Unit :=
  ⟨[flightA, flightB], by simp [Minted, flightA, flightB, DatasetServer.mintedInfo, FlightDescriptor.ofPath]⟩

/-- Of two datasets listed in one registration, the metadata server shows one. -/
theorem register_loses_first : ¬ EachShows [twoDatasets] := by
  intro h
  have hshow := h [] twoDatasets [] rfl ∅ rfl _ (register_eq ∅ twoDatasets)
  obtain ⟨fs, hfs, -, hmem⟩ := hshow (Enumeration.chosen _)
  rw [listFlights_storeAll _ _ twoDatasets.minted] at hfs
  cases hfs
  have ha : flightA ∈ [flightB] := (hmem flightA).2 (by decide)
  revert ha
  decide

end Registration
