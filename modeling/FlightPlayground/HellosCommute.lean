import FlightPlayground.Registration
import FlightPlayground.MetadataRequests
/-!
# HellosCommute — two `say_hello` actions at once

Two registrations under different messages write different entries of `available_datasets`.  Their loops may take
turns in any way: what each has stored depends on how many messages it has received, and not on when.
-/
namespace HellosCommute

open Posix (Bytes utf8)
open Arrow
open Flight
open Interleave
open DistributedFlightMetadataServer

variable {α Schema ι : Type} [DecidableEq ι]

/-! ## One registration among others -/

/-- Where a `say_hello` can stand whose listing has no errors. -/
def Hello (client : α) (action : Action) (network : α → Result (FlightListing Schema)) (t : Task α Schema) : Prop :=
  t = .doAction action network ∨ (∃ rest : List (FlightInfo Schema), t = .looping client action.body (rest.map .ok)) ∨
    t = .answered (some client) (.ok ())

section Step

variable {client : α} {action : Action} {network : α → Result (FlightListing Schema)} {flights : List (FlightInfo Schema)}

/-- **A step of a `say_hello` stores the same flights under its message whatever the registry holds.** -/
theorem Hello.step (ha : action.type = kActionSayHello.type) (hn : network client = .ok (flights.map .ok))
    {t : Task α Schema} (ht : Hello client action network t) : ∃ stored t', Hello client action network t' ∧
      ∀ reg, Task.step client (.alive reg) t = (.alive (storeAll action.body reg stored), t') := by
  rcases ht with rfl | ⟨rest, rfl⟩ | rfl
  · refine ⟨[], .looping client action.body (flights.map .ok), .inr (.inl ⟨flights, rfl⟩), fun reg => ?_⟩
    exact Task.step_alive (Task.advance_sayHello ha hn reg)
  · cases rest with
    | nil => exact ⟨[], .answered (some client) (.ok ()), .inr (.inr rfl), fun reg => rfl⟩
    | cons f rest =>
      refine ⟨[f], .looping client action.body (rest.map .ok), .inr (.inl ⟨rest, rfl⟩), fun reg => ?_⟩
      apply Task.step_alive
      simp [Task.advance, Fate.bind, storeAll]
  · exact ⟨[], .answered (some client) (.ok ()), .inr (.inr rfl), fun reg => rfl⟩

end Step

/-! ## Registrations taking turns -/

/-- A `say_hello` at every thread. -/
def hellos (reg : Registry Schema) (action : ι → Action) (network : ι → α → Result (FlightListing Schema)) :
    Pool ι (Fate (Registry Schema)) (Task α Schema) :=
  ⟨.alive reg, fun i => .doAction (action i) (network i)⟩

/-- The server is up, and every thread is at its `say_hello`. -/
structure AllHellos (client : α) (action : ι → Action) (network : ι → α → Result (FlightListing Schema))
    (c : Pool ι (Fate (Registry Schema)) (Task α Schema)) : Prop where
  alive : ∃ reg, c.shared = .alive reg
  task : ∀ i, Hello client (action i) (network i) (c.task i)

section Run

variable {client : α} {action : ι → Action} {network : ι → α → Result (FlightListing Schema)}
  {flights : ι → List (FlightInfo Schema)} {c : Pool ι (Fate (Registry Schema)) (Task α Schema)}

omit [DecidableEq ι] in
theorem allHellos_start (client : α) (reg : Registry Schema) (action : ι → Action)
    (network : ι → α → Result (FlightListing Schema)) : AllHellos client action network (hellos reg action network) :=
  ⟨⟨reg, rfl⟩, fun _ => .inl rfl⟩

variable (ha : ∀ i, (action i).type = kActionSayHello.type) (hn : ∀ i, network i client = .ok ((flights i).map .ok))

include ha hn

theorem AllHellos.step (h : AllHellos client action network c) (i : ι) :
    AllHellos client action network (c.step (Task.step client) i) := by
  obtain ⟨reg, hs⟩ := h.alive
  obtain ⟨stored, t', ht', hstep⟩ := (h.task i).step (ha i) (hn i)
  have hnext : Task.step client c.shared (c.task i) = (.alive (storeAll (action i).body reg stored), t') := by
    rw [hs, hstep]
  exact ⟨⟨_, congrArg Prod.fst hnext⟩, Pool.forall_task_step _ c (fun j _ => h.task j) (by rwa [hnext])⟩

/-- **Two steps under different messages may be taken in either order.** -/
theorem AllHellos.step_comm (hne : ∀ i j, i ≠ j → (action i).body ≠ (action j).body)
    (h : AllHellos client action network c) {i j : ι} (hij : i ≠ j) :
    (c.step (Task.step client) i).step (Task.step client) j = (c.step (Task.step client) j).step (Task.step client) i := by
  obtain ⟨reg, hs⟩ := h.alive
  obtain ⟨stored, t', -, hstep⟩ := (h.task i).step (ha i) (hn i)
  obtain ⟨stored', t'', -, hstep'⟩ := (h.task j).step (ha j) (hn j)
  apply Pool.step_comm hij
  · rw [hs, hstep, hstep', hstep', hstep, storeAll_comm (hne i j hij)]
  · rw [hs, hstep, hstep', hstep]
  · rw [hs, hstep, hstep', hstep']

end Run

/-! ## One registration on its own -/

section Solo

variable (client : α)

/-- Where a loop over `flights` stands after `n` steps. -/
def loopAfter (message : Bytes) (flights : List (FlightInfo Schema)) (n : Nat) : Task α Schema :=
  if n ≤ flights.length then .looping client message ((flights.drop n).map .ok) else .answered (some client) (.ok ())

theorem solo_loop (message : Bytes) : ∀ (n : Nat) (flights : List (FlightInfo Schema)) (reg : Registry Schema),
    Pool.solo (Task.step client) n (.alive reg) (.looping client message (flights.map .ok)) =
      (.alive (storeAll message reg (flights.take n)), loopAfter client message flights n)
  | 0, flights, reg => by simp [Pool.solo, storeAll, loopAfter]
  | n + 1, [], reg => by
    rw [Pool.solo_succ]
    exact Pool.solo_fixed (f := Task.step client) rfl n
  | n + 1, f :: flights, reg => by
    have hstep : Task.step client (.alive reg) (.looping client message ((f :: flights).map .ok)) =
        (.alive (reg.insert message (some f)), .looping client message (flights.map .ok)) :=
      Task.step_alive (by simp [Task.advance, Fate.bind])
    rw [Pool.solo_succ, hstep, solo_loop message n flights]
    simp [storeAll, loopAfter]

variable {client}

theorem solo_hello {action : Action} {network : α → Result (FlightListing Schema)} {flights : List (FlightInfo Schema)}
    (ha : action.type = kActionSayHello.type) (hn : network client = .ok (flights.map .ok)) (n : Nat)
    (reg : Registry Schema) :
    Pool.solo (Task.step client) n (.alive reg) (.doAction action network) =
      (.alive (storeAll action.body reg (flights.take (n - 1))),
        if n = 0 then .doAction action network else loopAfter client action.body flights (n - 1)) := by
  cases n with
  | zero => rfl
  | succ n =>
    rw [Pool.solo_succ, Task.step_alive (Task.advance_sayHello ha hn reg), solo_loop]
    rfl

end Solo

/-! ## Two registrations -/

/-- The action of `first`, and the other one after it. -/
def oneAfterOther (client : α) (reg : Registry Schema) (action : Bool → Action)
    (network : Bool → α → Result (FlightListing Schema)) (first : Bool) : Fate (Result Unit × Registry Schema) :=
  (doAction reg (action first) (network first client)).bind fun r => doAction r.2 (action !first) (network (!first) client)

section Pair

variable {client : α} {action : Bool → Action} {network : Bool → α → Result (FlightListing Schema)}
  {flights : Bool → List (FlightInfo Schema)}

theorem oneAfterOther_eq (ha : ∀ b, (action b).type = kActionSayHello.type)
    (hn : ∀ b, network b client = .ok ((flights b).map .ok)) (hne : (action true).body ≠ (action false).body)
    (reg : Registry Schema) (first : Bool) : oneAfterOther client reg action network first =
      .alive (.ok (), storeAll (action false).body (storeAll (action true).body reg (flights true)) (flights false)) := by
  unfold oneAfterOther
  rw [hn, hn, doAction_sayHello (ha first), Fate.bind, doAction_sayHello (ha _)]
  cases first with
  | true => rfl
  | false => rw [Bool.not_false, storeAll_comm hne]

/-- **Whatever turns two registrations take**, each has stored what it has received so far. -/
theorem run_hellos (ha : ∀ b, (action b).type = kActionSayHello.type)
    (hn : ∀ b, network b client = .ok ((flights b).map .ok)) (hne : (action true).body ≠ (action false).body)
    (reg : Registry Schema) (sched : List Bool) :
    let c := (hellos reg action network).run (Task.step client) sched
    let received := fun b => (flights b).take (sched.count b - 1)
    c.shared = .alive (storeAll (action false).body (storeAll (action true).body reg (received true)) (received false)) ∧
      ∀ b, c.task b = if sched.count b = 0 then .doAction (action b) (network b)
        else loopAfter client (action b).body (flights b) (sched.count b - 1) := by
  intro c received
  have hpair : ∀ i j, i ≠ j → (action i).body ≠ (action j).body := by
    rintro (_ | _) (_ | _) hij
    · exact absurd rfl hij
    · exact hne.symm
    · exact hne
    · exact absurd rfl hij
  have hsorted : sched.Perm (List.replicate (sched.count true) true ++ List.replicate (sched.count false) false) :=
    (List.perm_replicate_append_replicate (by decide)).2 ⟨rfl, rfl, fun b _ => by cases b <;> simp⟩
  have hc : c = (hellos reg action network).run (Task.step client)
      (List.replicate (sched.count true) true ++ List.replicate (sched.count false) false) :=
    Pool.run_perm (I := AllHellos client action network) (fun _ i h => h.step ha hn i)
      (fun _ _ _ h hij => h.step_comm ha hn hpair hij) hsorted (allHellos_start client reg action network)
  rw [Pool.run_append, Pool.run_replicate, Pool.run_replicate] at hc
  simp only [hellos, solo_hello (ha _) (hn _), Function.update_of_ne (show false ≠ true by decide)] at hc
  rw [hc]
  refine ⟨rfl, fun b => ?_⟩
  dsimp only
  cases b with
  | true => rw [Function.update_of_ne (by decide), Function.update_self]
  | false => rw [Function.update_self]

/-- **Two registrations under different messages commute.**  However their loops interleave, no third entry changes;
and when both have ended, which takes the steps of its loop of each, the registry is the one they leave one after the
other, in either order. -/
theorem say_hellos_commute (client : α) (reg : Registry Schema) (action : Bool → Action)
    (network : Bool → α → Result (FlightListing Schema)) (flights : Bool → List (FlightInfo Schema))
    (ha : ∀ b, (action b).type = kActionSayHello.type) (hn : ∀ b, network b client = .ok ((flights b).map .ok))
    (hne : (action true).body ≠ (action false).body) (sched : List Bool) :
    let c := (hellos reg action network).run (Task.step client) sched
    ∃ reg', c.shared = .alive reg' ∧
      (∀ key, key ≠ (action true).body → key ≠ (action false).body → reg'.lookup key = reg.lookup key) ∧
      ((∀ b, c.task b = .answered (some client) (.ok ())) ↔ ∀ b, (flights b).length + 2 ≤ sched.count b) ∧
      ((∀ b, c.task b = .answered (some client) (.ok ())) →
        ∀ first, oneAfterOther client reg action network first = .alive (.ok (), reg')) := by
  intro c
  obtain ⟨hs, ht⟩ := run_hellos ha hn hne reg sched
  have hend : (∀ b, c.task b = .answered (some client) (.ok ())) ↔ ∀ b, (flights b).length + 2 ≤ sched.count b := by
    apply forall_congr'
    intro b
    rw [ht b]
    unfold loopAfter
    split
    · constructor
      · intro h
        cases h
      · intro h
        omega
    · split
      · constructor
        · intro h
          cases h
        · intro h
          omega
      · exact ⟨fun _ => by omega, fun _ => rfl⟩
  refine ⟨_, hs, fun key htrue hfalse => ?_, hend, fun hall first => ?_⟩
  · rw [lookup_storeAll_of_ne hfalse, lookup_storeAll_of_ne htrue]
  · have hcount := hend.1 hall
    have hreceived : ∀ b, (flights b).take (sched.count b - 1) = flights b := fun b => by
      apply List.take_of_length_le
      have := hcount b
      omega
    dsimp only
    rw [oneAfterOther_eq ha hn hne, hreceived, hreceived]

end Pair

open Registration (flightA flightB)

def greeting (b : Bool) : Action := ⟨kActionSayHello.type, utf8 (if b then "Hello!" else "Hi!")⟩

def listed (b : Bool) : List (FlightInfo Unit) := if b then [flightA, flightB] else [flightB]

def listing (b : Bool) (_ : Unit) : Result (FlightListing Unit) := .ok ((listed b).map .ok)

theorem greetings_commute : ∃ reg',
    ((hellos ∅ greeting listing).run (Task.step ()) [true, false, true, false, false, true, true]).shared = .alive reg' ∧
      ∀ first, oneAfterOther () ∅ greeting listing first = .alive (.ok (), reg') := by
  obtain ⟨reg', hs, -, hend, hseq⟩ := say_hellos_commute () ∅ greeting listing listed (fun _ => rfl) (fun _ => rfl)
    (by decide) [true, false, true, false, false, true, true]
  exact ⟨reg', hs, hseq (hend.2 (by decide))⟩

end HellosCommute
