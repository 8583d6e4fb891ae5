import FlightPlayground.PutFailure
/-!
# Locations — whether the location a data server mints leads to it

`MakeFlightInfo` mints `localhost` and the server's port, and whoever reads the location looks that name up where it
runs.  So the location leads to the data server from its own host and from no other, and two data servers on one port
mint the same one.
-/
namespace Locations

open Posix (Bytes Node utf8)
open Unordered (Enumeration)
open Arrow
open Flight

/-- Data servers on hosts, no two at one address, each with the directory it serves, and clients on hosts.
`resolve h name` is the host that a process on `h` reaches under `name`. -/
structure Deployment (ι κ Host : Type) where
  host : ι → Host
  port : ι → Nat
  distinct : ∀ i j, host i = host j → port i = port j → i = j
  root : ι → SubTreeFileSystem
  client : κ → Host
  resolve : Host → Bytes → Option Host
  resolve_localhost : ∀ h, resolve h (utf8 "localhost") = some h

variable {ι κ Host Schema Row : Type} (pq : Parquet Schema Row) (d : Deployment ι κ Host)

/-- The infos the data server `i` mints, in a listing or for a descriptor. -/
inductive Mints (i : ι) : FlightInfo Schema → Prop
  | listed {readdir : Enumeration (Bytes × Node)} {fs : List (FlightInfo Schema)} {f : FlightInfo Schema}
      (h : DistributedFlightDataServer.listFlights pq (d.port i) (d.root i) readdir = .ok fs) (hf : f ∈ fs) : Mints i f
  | got {descriptor : FlightDescriptor} {f : FlightInfo Schema}
      (h : DistributedFlightDataServer.getFlightInfo pq (d.port i) (d.root i) descriptor = .ok f) : Mints i f

/-- `f.endpoints[0].locations[0]`. -/
def locationOf (f : FlightInfo Schema) : Option Location := f.endpoints[0]?.bind fun endpoint => endpoint.locations[0]?

/-- The data server `i` is who answers a process on `h` that connects to the location. -/
def Answers (h : Host) (location : Location) (i : ι) : Prop :=
  d.resolve h location.host = some (d.host i) ∧ d.port i = location.port

/-- From every client the location of what a data server mints leads to that data server, and no other mints it. -/
structure LocationsLead : Prop where
  answers : ∀ i f, Mints pq d i f → ∀ k, ∃ location, locationOf f = some location ∧ Answers d (d.client k) location i
  distinct : ∀ i j f g, i ≠ j → Mints pq d i f → Mints pq d j g → locationOf f ≠ locationOf g

/-- Some path leads to a Parquet file: what an info can be minted for. -/
def HasDataset (root : SubTreeFileSystem) : Prop := ∃ s c, root.nodeAt s = some (.file c) ∧ (pq.openFile c).isSome

variable {pq d}

theorem Answers.unique {h : Host} {location : Location} {i j : ι} (hi : Answers d h location i)
    (hj : Answers d h location j) : i = j := by
  apply d.distinct
  · exact Option.some.inj (hi.1.symm.trans hj.1)
  · exact hi.2.trans hj.2.symm

/-- **Whatever a data server mints, the location is `localhost` and its port**, and it has a dataset. -/
theorem Mints.location {i : ι} {f : FlightInfo Schema} (h : Mints pq d i f) :
    locationOf f = some ⟨utf8 "localhost", d.port i⟩ ∧ HasDataset pq (d.root i) := by
  have hmake : ∀ fileInfo f, DatasetServer.makeFlightInfo pq (d.port i) (d.root i) fileInfo = .ok f →
      locationOf f = some ⟨utf8 "localhost", d.port i⟩ ∧ HasDataset pq (d.root i) := fun fileInfo f hf => by
    obtain ⟨c, md, hc, hmd, rfl⟩ := DatasetServer.makeFlightInfo_ok hf
    exact ⟨rfl, _, c, hc, by rw [hmd]; rfl⟩
  cases h with
  | listed h hf => exact DatasetServer.listFlights_forall hmake h f hf
  | @got descriptor _ h =>
    cases hn : DatasetServer.nameOf descriptor with
    | none =>
      obtain ⟨e, he⟩ := DatasetServer.getFlightInfo_of_none pq (d.port i) (d.root i) hn
      unfold DistributedFlightDataServer.getFlightInfo at h
      rw [he] at h
      cases h
    | some s =>
      unfold DistributedFlightDataServer.getFlightInfo at h
      rw [DatasetServer.getFlightInfo_of_name hn] at h
      exact hmake _ f h

theorem exists_mints {i : ι} (h : HasDataset pq (d.root i)) : ∃ f, Mints pq d i f := by
  obtain ⟨s, c, hs, hc⟩ := h
  obtain ⟨md, hmd⟩ := Option.isSome_iff_exists.1 hc
  exact ⟨_, .got ((DatasetServer.getFlightInfo_ok_iff (DatasetServer.nameOf_ofPath s)).2 ⟨c, md, hs, hmd, rfl⟩)⟩

/-- **`localhost` and a port lead to the data server that has that port on one's own host.** -/
theorem answers_localhost {h : Host} {port : Nat} {i : ι} :
    Answers d h ⟨utf8 "localhost", port⟩ i ↔ h = d.host i ∧ d.port i = port := by
  unfold Answers
  rw [d.resolve_localhost, Option.some.injEq]

variable (pq d)

/-- **The minted locations lead to the data servers that mint them, from all clients and to one each, exactly when every
client is on the host of every data server that has a dataset, and these have different ports.** -/
theorem locationsLead_iff : LocationsLead pq d ↔
    (∀ i, HasDataset pq (d.root i) → ∀ k, d.client k = d.host i) ∧
    (∀ i j, i ≠ j → HasDataset pq (d.root i) → HasDataset pq (d.root j) → d.port i ≠ d.port j) := by
  constructor
  · intro h
    constructor
    · intro i hi k
      obtain ⟨f, hf⟩ := exists_mints hi
      obtain ⟨location, hl, ha⟩ := h.answers i f hf k
      rw [hf.location.1] at hl
      obtain rfl := Option.some.inj hl
      exact (answers_localhost.1 ha).1
    · intro i j hij hi hj hport
      obtain ⟨f, hf⟩ := exists_mints hi
      obtain ⟨g, hg⟩ := exists_mints hj
      apply h.distinct i j f g hij hf hg
      rw [hf.location.1, hg.location.1, hport]
  · rintro ⟨hhost, hport⟩
    constructor
    · intro i f hf k
      obtain ⟨hl, hi⟩ := hf.location
      exact ⟨_, hl, answers_localhost.2 ⟨hhost i hi k, rfl⟩⟩
    · intro i j f g hij hf hg heq
      obtain ⟨hl, hi⟩ := hf.location
      obtain ⟨hl', hj⟩ := hg.location
      rw [hl, hl', Option.some.injEq, Location.mk.injEq] at heq
      exact hport i j hij hi hj heq.2

/-! ## Two hosts -/

/-- A data server on one host, under the name `data_server`, and a client on another. -/
def twoHosts : Deployment Unit Unit Bool where
  host _ := true
  port _ := 8889
  distinct _ _ _ _ := rfl
  root _ := PutFailure.oneFile (utf8 "a.parquet") (tinyParquet.encode ⟨(), [7]⟩)
  client _ := false
  resolve h name := if name = utf8 "localhost" then some h else if name = utf8 "data_server" then some true else none
  resolve_localhost _ := if_pos rfl

/-- The client looks for the data server on its own host, where it is not. -/
theorem location_misleads : ¬ LocationsLead tinyParquet twoHosts := by
  intro h
  have hd : HasDataset tinyParquet (twoHosts.root ()) :=
    ⟨utf8 "a.parquet", tinyParquet.encode ⟨(), [7]⟩, by decide +kernel, by simp⟩
  obtain ⟨f, hf⟩ := exists_mints (d := twoHosts) hd
  obtain ⟨location, hl, ha⟩ := h.answers () f hf ()
  rw [hf.location.1] at hl
  obtain rfl := Option.some.inj hl
  have := (answers_localhost.1 ha).1
  cases this

end Locations
