import FlightPlayground.ListingSnapshots
/-!
# HorizontalScaling — any number of data servers that register at one metadata server

Every data server sends the same text, and whoever sends it, the metadata server asks the one address it is connected
to.  So all is well with one data server at most, at that address, that lists one flight at most; and in no other
deployment.
-/
namespace HorizontalScaling

open Posix (Bytes utf8)
open Unordered (Enumeration)
open Arrow
open Flight
open Interleave
open DistributedFlightMetadataServer
open ListingSnapshots (helloAmongReaders between_run)
open Registration (hello flightA flightB listFlights_storeAll)

/-- Data servers at distinct addresses, and a metadata server connected to one address.  `network i a` is what a call of
`ListFlights` at the address `a` returns while `i` registers; at the address of `i` that is what `i` lists itself. -/
structure Deployment (ι α Schema : Type) where
  addr : ι ↪ α
  client : α
  own : ι → List (FlightInfo Schema)
  network : ι → α → Result (FlightListing Schema)
  network_addr : ∀ i, network i (addr i) = .ok ((own i).map .ok)
  minted : ∀ i a listing, network i a = .ok listing → ∀ f, .ok f ∈ listing → Minted f

variable {ι α Schema : Type} [DecidableEq ι] (d : Deployment ι α Schema)

def start : Pool ι (Fate (Registry Schema)) (Task α Schema) :=
  ⟨.alive ∅, fun i => .doAction DistributedFlightDataServer.sayHelloAction (d.network i)⟩

def run (sched : List ι) : Pool ι (Fate (Registry Schema)) (Task α Schema) :=
  (start d).run (Task.step d.client) sched

def Shows (s : Fate (Registry Schema)) (f : FlightInfo Schema) : Prop :=
  ∃ reg, s = .alive reg ∧ ∀ order, ∃ fs, listFlights order reg = .alive fs ∧ f ∈ fs

/-- What registration is for: all that was listed is shown, no step for one data server takes away what is shown of
another, and each data server is asked for its own listing. -/
structure KeepsAll (sched : List ι) : Prop where
  lists : ∀ i, ∀ f ∈ d.own i, Shows (run d sched).shared f
  keeps : Pool.AllSteps (Task.step d.client) (fun c i => ∀ j, j ≠ i → ∀ f ∈ d.own j, Shows c.shared f →
    Shows (c.step (Task.step d.client) i).shared f) (start d) sched
  asksItself : ∀ i a status, (run d sched).task i = .answered (some a) status → a = d.addr i

variable {d}

omit [DecidableEq ι] in
theorem own_minted (i : ι) : ∀ f ∈ d.own i, Minted f := fun f hf =>
  d.minted i (d.addr i) _ (d.network_addr i) f (List.mem_map_of_mem hf)

/-- **Whoever registers, the metadata server asks the address it is connected to.** -/
theorem run_asks (sched : List ι) (i : ι) : (run d sched).task i = (start d).task i ∨
    (∃ message listing, (run d sched).task i = .looping d.client message listing) ∨
    (run d sched).task i = .answered (some d.client) (.ok ()) := by
  refine Pool.run_invariant (I := fun c => ∀ i, c.task i = (start d).task i ∨
    (∃ message listing, c.task i = .looping d.client message listing) ∨
    c.task i = .answered (some d.client) (.ok ())) (fun c i h => ?_) sched (fun _ => .inl rfl) i
  refine Pool.forall_task_step (Q := fun j t => t = (start d).task j ∨
    (∃ message listing, t = .looping d.client message listing) ∨ t = .answered (some d.client) (.ok ())) _ c
    (fun j _ => h j) ?_
  have ht := h i
  cases hs : c.shared with
  | aborted => exact ht
  | undefined => exact ht
  | alive reg =>
    rcases ht with ht | ⟨message, listing, ht⟩ | ht
    · rw [ht]
      cases hn : d.network i d.client with
      | error e =>
        left
        unfold start
        rw [Task.step_aborted (Task.advance_sayHello_error rfl hn reg)]
      | ok listing =>
        right; left
        exact ⟨hello, listing, by rw [start, Task.step_alive (Task.advance_sayHello rfl hn reg)]⟩
    · rw [ht]
      cases listing with
      | nil => exact .inr (.inr rfl)
      | cons item listing =>
        cases hb : sayHelloBody message reg item with
        | alive reg' => exact .inr (.inl ⟨message, listing, by simp [Task.step, Task.advance, hb, Fate.bind]⟩)
        | aborted => exact .inr (.inl ⟨message, item :: listing, by simp [Task.step, Task.advance, hb, Fate.bind]⟩)
        | undefined => exact .inr (.inl ⟨message, item :: listing, by simp [Task.step, Task.advance, hb, Fate.bind]⟩)
    · rw [ht]
      exact .inr (.inr rfl)

/-- **A data server alone, at that address, leaves its flights stored one after another.** -/
theorem run_alone (hc : ∀ i, d.addr i = d.client) (sched : List ι) (i : ι)
    (hi : (run d sched).task i = .answered (some d.client) (.ok ())) :
    (run d sched).shared = .alive (storeAll hello ∅ (d.own i)) := by
  have hone : ∀ j, j = i := fun j => d.addr.injective ((hc j).trans (hc i).symm)
  let order : ι → Enumeration (Entry Schema) := fun _ => Enumeration.chosen _
  have hstart : start d = helloAmongReaders ∅ i DistributedFlightDataServer.sayHelloAction (d.network i) order := by
    unfold start helloAmongReaders
    congr 1
    funext j
    rw [if_pos (hone j), hone j]
  have hn : d.network i d.client = .ok ((d.own i).map .ok) := by rw [← hc i, d.network_addr]
  obtain ⟨got, rest, hb⟩ := between_run d.client ∅ i DistributedFlightDataServer.sayHelloAction
    (d.network i) order (d.own i) rfl hn sched
  rw [← hstart] at hb
  have hrest : rest = [] := by
    have ht := hb.hello
    rw [show ((start d).run (Task.step d.client) sched).task i = _ from hi] at ht
    rcases ht with ⟨ht, -⟩ | ht | ⟨-, ht⟩
    · cases ht
    · cases ht
    · exact ht
  obtain rfl : d.own i = got := by simpa [hrest] using hb.split
  have hsafe : Safe (run d sched) := run_safe sched ⟨fun j => d.minted j, .inr ⟨∅, rfl, wellFormed_empty⟩⟩
  rcases hb.shared with hs | hs
  · exact hs
  · rcases hsafe.2 with ha | ⟨reg, ha, -⟩
    · cases hs.symm.trans ha
    · cases hs.symm.trans ha

theorem shows_storeAll {flights : List (FlightInfo Schema)} (h : ∀ f ∈ flights, Minted f) (f : FlightInfo Schema) :
    Shows (.alive (storeAll hello ∅ flights)) f ↔ f ∈ flights.getLast? := by
  constructor
  · rintro ⟨_, ⟨⟩, hf⟩
    obtain ⟨fs, hfs, hmem⟩ := hf (Enumeration.chosen _)
    rw [listFlights_storeAll _ _ h] at hfs
    cases hfs
    exact Option.mem_toList.1 hmem
  · exact fun hf => ⟨_, rfl, fun order => ⟨_, listFlights_storeAll order hello h, Option.mem_toList.2 hf⟩⟩

variable (d)

/-- **When all have registered, registration has done what it is for if and only if every data server is at the address
the metadata server is connected to**, so that there is one at most, **and it lists one flight at most.** -/
theorem keepsAll_iff (sched : List ι) (hall : ∀ i, ∃ a, (run d sched).task i = .answered a (.ok ())) :
    KeepsAll d sched ↔ (∀ i, d.addr i = d.client) ∧ ∀ i, ∀ f ∈ d.own i, ∀ g ∈ d.own i, f = g := by
  have hasked : ∀ i, (run d sched).task i = .answered (some d.client) (.ok ()) := fun i => by
    obtain ⟨a, ha⟩ := hall i
    rcases run_asks sched i with ht | ⟨message, listing, ht⟩ | ht
    · cases ha.symm.trans ht
    · cases ha.symm.trans ht
    · exact ht
  constructor
  · intro h
    have hc : ∀ i, d.addr i = d.client := fun i => (h.asksItself i _ _ (hasked i)).symm
    refine ⟨hc, fun i f hf g hg => ?_⟩
    have hshown : ∀ f ∈ d.own i, f ∈ (d.own i).getLast? := fun f hf => by
      rw [← shows_storeAll (own_minted i), ← run_alone hc sched i (hasked i)]
      exact h.lists i f hf
    exact Option.mem_unique (hshown f hf) (hshown g hg)
  · rintro ⟨hc, hone⟩
    refine ⟨fun i f hf => ?_, ?_, fun i a status ha => ?_⟩
    · rw [run_alone hc sched i (hasked i), shows_storeAll (own_minted i)]
      obtain ⟨g, hg⟩ := List.getLast?_isSome.2 (List.ne_nil_of_mem hf) |> Option.isSome_iff_exists.1
      rw [hone i f hf g (List.mem_of_getLast? hg)]
      exact hg
    · rw [Pool.allSteps_iff]
      intro pre i post _ j hj
      exact absurd (d.addr.injective ((hc j).trans (hc i).symm)) hj
    · cases (hasked i).symm.trans ha
      exact (hc i).symm

/-! ## Deployments of one and of two -/

def oneFlightEach {ι : Type} (client : ι) (flight : ι → FlightInfo Unit) (h : ∀ i, Minted (flight i)) :
    Deployment ι ι Unit where
  addr := .refl ι
  client := client
  own i := [flight i]
  network _ a := .ok [.ok (flight a)]
  network_addr _ := rfl
  minted _ a listing hl f hf := by
    cases hl
    simp only [List.mem_singleton, Except.ok.injEq] at hf
    exact hf ▸ h a

theorem minted_flightA : Minted flightA := ⟨utf8 "a.parquet", rfl⟩

theorem minted_flightB : Minted flightB := ⟨utf8 "b.parquet", rfl⟩

theorem keepsAll_alone : KeepsAll (oneFlightEach () (fun _ => flightA) fun _ => minted_flightA) [(), (), ()] :=
  (keepsAll_iff (oneFlightEach () (fun _ => flightA) fun _ => minted_flightA) [(), (), ()] fun _ => ⟨some (), rfl⟩).2
    ⟨fun _ => rfl, fun _ _ hf _ hg => (List.mem_singleton.1 hf).trans (List.mem_singleton.1 hg).symm⟩

def twoServers : Deployment Bool Bool Unit :=
  oneFlightEach true (fun b => if b then flightA else flightB) fun b => by
    cases b
    · exact minted_flightB
    · exact minted_flightA

/-- Of two data servers that have both registered, the one the metadata server is not connected to is not shown. -/
theorem twoServers_loses_one :
    (∀ i, ∃ a, (run twoServers [true, true, true, false, false, false]).task i = .answered a (.ok ())) ∧
      ¬ KeepsAll twoServers [true, true, true, false, false, false] := by
  refine ⟨fun i => ⟨some true, by cases i <;> rfl⟩, fun h => ?_⟩
  have hreg : (run twoServers [true, true, true, false, false, false]).shared =
      .alive (storeAll hello ∅ [flightA, flightA]) := rfl
  have hshown := h.lists false flightB (by decide)
  rw [hreg, shows_storeAll (by simpa using minted_flightA)] at hshown
  revert hshown
  decide

end HorizontalScaling
