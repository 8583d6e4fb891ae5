import FlightPlayground.Registration
import FlightPlayground.MetadataRequests
/-!
# StartUp — the two kinds of server starting, in any order

A data server says hello while it starts, and dies if nobody answers; the metadata server, asked, calls back and dies
if nobody answers it.  Neither waits for the other, and neither tries again.
-/
namespace StartUp

open Posix (Bytes utf8)
open Arrow
open Flight
open Interleave
open DistributedFlightMetadataServer

inductive MetadataPhase
  | starting
  | connected
  | initialized
  | accepting
  deriving DecidableEq

/-- `serve` of a data server; `Init` has it accept requests, and `SayHello` returns when its action is answered.  `asked` is
the address, if any, whose listing the metadata server asked for when it served the action. -/
inductive DataPhase (α Schema : Type)
  | starting
  | connected
  | initialized
  | saidHello
  | handled (request : Task α Schema)
  | serving (asked : Option α)
  | aborted

inductive Process (α Schema : Type)
  | metadataServer (phase : MetadataPhase)
  | dataServer (addr : α) (own : Result (FlightListing Schema)) (phase : DataPhase α Schema)

/-- What the processes share: whether the metadata server accepts requests, its registry, and what a call of `ListFlights`
at an address returns if a server accepts requests there. -/
structure World (α Schema : Type) where
  accepting : Bool
  metadata : Fate (Registry Schema)
  listening : α → Option (Result (FlightListing Schema))

variable {α Schema : Type} [DecidableEq α]

def World.network (w : World α Schema) (a : α) : Result (FlightListing Schema) :=
  (w.listening a).getD (.error (.IOError .unavailable))

/-- `ValueOrDie` on an error: the process at the address is gone. -/
def World.abort (w : World α Schema) (addr : α) : World α Schema × DataPhase α Schema :=
  ({ w with listening := Function.update w.listening addr none }, .aborted)

def World.serve (client : α) (w : World α Schema) (request : Task α Schema) : World α Schema × DataPhase α Schema :=
  match Task.step client w.metadata request with
  | (metadata, request) => ({ w with metadata := metadata }, .handled request)

def DataPhase.step (client addr : α) (own : Result (FlightListing Schema)) (w : World α Schema) :
    DataPhase α Schema → World α Schema × DataPhase α Schema
  | .starting => (w, .connected)
  | .connected => ({ w with listening := Function.update w.listening addr (some own) }, .initialized)
  | .initialized =>
    match w.accepting, w.metadata with
    | true, .alive _ => (w, .saidHello)
    | _, _ => w.abort addr
  | .saidHello => w.serve client (.doAction DistributedFlightDataServer.sayHelloAction w.network)
  | .handled (.answered asked (.ok ())) => (w, .serving asked)
  | .handled (.answered _ (.error _)) => w.abort addr
  | .handled request =>
    match w.metadata with
    | .alive _ => w.serve client request
    | _ => w.abort addr
  | .serving asked => (w, .serving asked)
  | .aborted => (w, .aborted)

def Process.step (client : α) (w : World α Schema) : Process α Schema → World α Schema × Process α Schema
  | .metadataServer .starting => (w, .metadataServer .connected)
  | .metadataServer .connected => (w, .metadataServer .initialized)
  | .metadataServer .initialized => ({ w with accepting := true }, .metadataServer .accepting)
  | .metadataServer .accepting => (w, .metadataServer .accepting)
  | .dataServer addr own phase => ((phase.step client addr own w).1, .dataServer addr own (phase.step client addr own w).2)

def Delivered (r : Result (FlightListing Schema)) : Prop := ∃ flights : List (FlightInfo Schema), r = .ok (flights.map .ok)

/-- Data servers at distinct addresses with what each lists, and the address the metadata server is connected to. -/
structure Servers (ι α Schema : Type) where
  addr : ι ↪ α
  own : ι → Result (FlightListing Schema)
  client : α

variable {ι : Type} [DecidableEq ι] (s : Servers ι α Schema)

def start : Pool (Option ι) (World α Schema) (Process α Schema) :=
  ⟨⟨false, .alive ∅, fun _ => none⟩, fun
    | none => .metadataServer .starting
    | some i => .dataServer (s.addr i) (s.own i) .starting⟩

def run (sched : List (Option ι)) : Pool (Option ι) (World α Schema) (Process α Schema) :=
  (start s).run (Process.step s.client) sched

/-- The data server has not aborted, and if it serves, the metadata server has asked for its listing when it said hello. -/
structure StartsWell (c : Pool (Option ι) (World α Schema) (Process α Schema)) (i : ι) : Prop where
  not_aborted : c.task (some i) ≠ .dataServer (s.addr i) (s.own i) .aborted
  queried : ∀ asked, c.task (some i) = .dataServer (s.addr i) (s.own i) (.serving asked) → asked = some (s.addr i)

/-- A data server that is about to say hello finds the metadata server accepting requests, and unless it is itself at
the address the metadata server calls, it finds a data server accepting requests there. -/
def InOrder (c : Pool (Option ι) (World α Schema) (Process α Schema)) (j : Option ι) : Prop :=
  match c.task j with
  | .dataServer addr _ .initialized => c.shared.accepting = true ∧ (addr ≠ s.client → (c.shared.listening s.client).isSome)
  | _ => True

/-! ## Servers that start in order -/

section InOrder

variable {s}

structure World.Sound (s : Servers ι α Schema) (w : World α Schema) : Prop where
  alive : ∃ reg, w.metadata = .alive reg
  listening : ∀ a r, w.listening a = some r → ∃ i, s.addr i = a ∧ s.own i = r

def DataPhase.Relies (s : Servers ι α Schema) (w : World α Schema) (i : ι) : DataPhase α Schema → Prop
  | .starting => True
  | .connected => True
  | .initialized => (w.listening (s.addr i)).isSome
  | .saidHello => (w.listening s.client).isSome
  | .handled request =>
    (∃ message, ∃ flights : List (FlightInfo Schema), request = .looping s.client message (flights.map .ok)) ∨
      request = .answered (some s.client) (.ok ())
  | .serving asked => asked = some s.client
  | .aborted => False

/-- Who accepts requests still does. -/
def World.Grows (w w' : World α Schema) : Prop := ∀ a, (w.listening a).isSome → (w'.listening a).isSome

omit [DecidableEq α] in
theorem World.Grows.refl (w : World α Schema) : w.Grows w := fun _ => id

omit [DecidableEq α] [DecidableEq ι] in
theorem DataPhase.Relies.mono {w w' : World α Schema} (h : w.Grows w') {i : ι} {phase : DataPhase α Schema}
    (hp : phase.Relies s w i) : phase.Relies s w' i := by
  cases phase with
  | starting => trivial
  | connected => trivial
  | initialized => exact h _ hp
  | saidHello => exact h _ hp
  | handled request => exact hp
  | serving asked => exact hp
  | aborted => exact hp.elim

omit [DecidableEq α] [DecidableEq ι] in
theorem World.serve_relies {w : World α Schema} (hw : w.Sound s) {request t' : Task α Schema} {i : ι}
    (hadv : ∀ reg, w.metadata = .alive reg → ∃ reg', request.advance s.client reg = .alive (reg', t'))
    (ht : (∃ message, ∃ flights : List (FlightInfo Schema), t' = .looping s.client message (flights.map .ok)) ∨
      t' = .answered (some s.client) (.ok ())) :
    (w.serve s.client request).1.Sound s ∧ w.Grows (w.serve s.client request).1 ∧
      (w.serve s.client request).2.Relies s (w.serve s.client request).1 i := by
  obtain ⟨reg, hreg⟩ := hw.alive
  obtain ⟨reg', hadv⟩ := hadv reg hreg
  have hserve : w.serve s.client request = ({ w with metadata := .alive reg' }, .handled t') := by
    unfold World.serve
    rw [hreg, Task.step_alive hadv]
  rw [hserve]
  exact ⟨⟨⟨reg', rfl⟩, hw.listening⟩, fun _ => id, ht⟩

omit [DecidableEq ι] in
/-- **A step in order leaves the world sound and the data server with what it relies on.** -/
theorem DataPhase.step_relies (hown : ∀ i, s.addr i = s.client → Delivered (s.own i))
    {w : World α Schema} (hw : w.Sound s) {i : ι} {phase : DataPhase α Schema} (hp : phase.Relies s w i)
    (horder : phase = .initialized →
      w.accepting = true ∧ (s.addr i ≠ s.client → (w.listening s.client).isSome)) :
    (phase.step s.client (s.addr i) (s.own i) w).1.Sound s ∧ w.Grows (phase.step s.client (s.addr i) (s.own i) w).1 ∧
      (phase.step s.client (s.addr i) (s.own i) w).2.Relies s (phase.step s.client (s.addr i) (s.own i) w).1 i := by
  cases phase with
  | starting => exact ⟨hw, .refl w, trivial⟩
  | connected =>
    refine ⟨⟨hw.alive, fun a r hr => ?_⟩, fun a ha => ?_, ?_⟩
    · by_cases ha : a = s.addr i
      · subst ha
        exact ⟨i, rfl, by simpa [DataPhase.step] using hr⟩
      · exact hw.listening a r (by simpa [DataPhase.step, ha] using hr)
    · by_cases hai : a = s.addr i
      · simp [DataPhase.step, hai]
      · simpa [DataPhase.step, hai] using ha
    · simp [DataPhase.step, DataPhase.Relies]
  | initialized =>
    obtain ⟨reg, hreg⟩ := hw.alive
    obtain ⟨hacc, hother⟩ := horder rfl
    have hstep : DataPhase.step s.client (s.addr i) (s.own i) w .initialized = (w, .saidHello) := by
      simp [DataPhase.step, hacc, hreg]
    rw [hstep]
    refine ⟨hw, .refl w, ?_⟩
    by_cases hc : s.addr i = s.client
    · show (w.listening s.client).isSome
      rw [← hc]
      exact hp
    · exact hother hc
  | saidHello =>
    obtain ⟨r, hr⟩ := Option.isSome_iff_exists.1 hp
    obtain ⟨j, hj, rfl⟩ := hw.listening _ _ hr
    obtain ⟨flights, hflights⟩ := hown j hj
    have hn : w.network s.client = .ok (flights.map .ok) := by simp [World.network, hr, hflights]
    have hadv : ∀ reg, (Task.doAction DistributedFlightDataServer.sayHelloAction w.network).advance s.client reg =
        .alive (reg, .looping s.client DistributedFlightDataServer.sayHelloAction.body (flights.map .ok)) :=
      Task.advance_sayHello rfl hn
    exact World.serve_relies hw (fun reg _ => ⟨reg, hadv reg⟩) (.inl ⟨_, flights, rfl⟩)
  | handled request =>
    obtain ⟨message, flights, rfl⟩ | rfl := hp
    · obtain ⟨reg, hreg⟩ := hw.alive
      have hstep : DataPhase.step s.client (s.addr i) (s.own i) w (.handled (.looping s.client message (flights.map .ok))) =
          w.serve s.client (.looping s.client message (flights.map .ok)) := by simp [DataPhase.step, hreg]
      rw [hstep]
      cases flights with
      | nil => exact World.serve_relies hw (fun reg _ => ⟨reg, rfl⟩) (.inr rfl)
      | cons f flights =>
        exact World.serve_relies hw (fun reg _ => ⟨reg.insert message (some f), by simp [Task.advance, Fate.bind]⟩)
          (.inl ⟨message, flights, rfl⟩)
    · exact ⟨hw, .refl w, rfl⟩
  | serving asked => exact ⟨hw, .refl w, hp⟩
  | aborted => exact hp.elim

structure InOrderSoFar (s : Servers ι α Schema) (c : Pool (Option ι) (World α Schema) (Process α Schema)) : Prop where
  sound : c.shared.Sound s
  metadataServer : ∃ phase, c.task none = .metadataServer phase
  dataServer : ∀ i, ∃ phase, c.task (some i) = .dataServer (s.addr i) (s.own i) phase ∧ phase.Relies s c.shared i

omit [DecidableEq α] [DecidableEq ι] in
theorem inOrderSoFar_start : InOrderSoFar s (start s) where
  sound := ⟨⟨∅, rfl⟩, fun _ _ h => by cases h⟩
  metadataServer := ⟨_, rfl⟩
  dataServer _ := ⟨.starting, rfl, trivial⟩

theorem InOrderSoFar.step (hown : ∀ i, s.addr i = s.client → Delivered (s.own i))
    {c : Pool (Option ι) (World α Schema) (Process α Schema)} (h : InOrderSoFar s c) {j : Option ι} (hj : InOrder s c j) :
    InOrderSoFar s (c.step (Process.step s.client) j) := by
  obtain ⟨hsound, ⟨mphase, hm⟩, hd⟩ := h
  cases j with
  | none =>
    have hstep : ∃ mphase', (Process.step s.client c.shared (c.task none)).2 = .metadataServer mphase' ∧
        (Process.step s.client c.shared (c.task none)).1.Sound s ∧
        c.shared.Grows (Process.step s.client c.shared (c.task none)).1 := by
      rw [hm]
      cases mphase with
      | starting => exact ⟨_, rfl, hsound, .refl _⟩
      | connected => exact ⟨_, rfl, hsound, .refl _⟩
      | initialized => exact ⟨_, rfl, ⟨hsound.alive, hsound.listening⟩, fun _ => id⟩
      | accepting => exact ⟨_, rfl, hsound, .refl _⟩
    obtain ⟨mphase', htask, hsound', hgrows⟩ := hstep
    refine ⟨hsound', ⟨mphase', by rw [Pool.step_task_self, htask]⟩, fun i => ?_⟩
    obtain ⟨phase, hphase, hrel⟩ := hd i
    exact ⟨phase, by rw [Pool.step_task_of_ne _ _ (by simp), hphase], hrel.mono hgrows⟩
  | some j =>
    obtain ⟨phase, hphase, hrel⟩ := hd j
    obtain ⟨hsound', hgrows, hrel'⟩ := phase.step_relies hown hsound hrel
      fun hi => by simpa [InOrder, hphase, hi] using hj
    have hshared : (c.step (Process.step s.client) (some j)).shared =
        (phase.step s.client (s.addr j) (s.own j) c.shared).1 := by rw [Pool.step_shared, hphase]; rfl
    refine ⟨by rwa [hshared], ⟨mphase, by rw [Pool.step_task_of_ne _ _ (by simp), hm]⟩, fun i => ?_⟩
    by_cases hij : i = j
    · subst hij
      exact ⟨_, by rw [Pool.step_task_self, hphase]; rfl, by rwa [hshared]⟩
    · obtain ⟨phase', hphase', hrel''⟩ := hd i
      exact ⟨phase', by rw [Pool.step_task_of_ne _ _ (by simpa using hij), hphase'], by rw [hshared]; exact hrel''.mono hgrows⟩

end InOrder

/-- **In every run in which the servers start in order, no server aborts**, and a data server that serves, at the address
the metadata server calls, has had its listing asked for when it said hello. -/
theorem startsWell_of_inOrder (hown : ∀ i, s.addr i = s.client → Delivered (s.own i))
    (sched : List (Option ι)) (horder : Pool.AllSteps (Process.step s.client) (InOrder s) (start s) sched) :
    (∃ reg, (run s sched).shared.metadata = .alive reg) ∧
    ∀ i, (run s sched).task (some i) ≠ .dataServer (s.addr i) (s.own i) .aborted ∧
      (s.addr i = s.client → StartsWell s (run s sched) i) := by
  have h : InOrderSoFar s (run s sched) :=
    Pool.run_invariant_of_allSteps (fun c j hc hj => hc.step hown hj) sched horder inOrderSoFar_start
  have hna : ∀ i, (run s sched).task (some i) ≠ .dataServer (s.addr i) (s.own i) .aborted := fun i ha => by
    obtain ⟨phase, hphase, hrel⟩ := h.dataServer i
    cases ha.symm.trans hphase
    exact hrel
  refine ⟨h.sound.alive, fun i => ⟨hna i, fun hc => ⟨hna i, fun asked hs => ?_⟩⟩⟩
  obtain ⟨phase, hphase, hrel⟩ := h.dataServer i
  cases hs.symm.trans hphase
  rw [hc]
  exact hrel

/-! ## One data server -/

/-- A data server with two datasets, where the metadata server calls it. -/
def oneServer : Servers Unit Unit Unit := ⟨.refl Unit, fun _ => .ok (Registration.twoDatasets.flights.map .ok), ()⟩

def metadataFirst : List (Option Unit) :=
  [none, none, none, some (), some (), some (), some (), some (), some (), some (), some ()]

theorem startsWell_metadataFirst : (∃ reg, (run oneServer metadataFirst).shared.metadata = .alive reg) ∧
    ∀ i, (run oneServer metadataFirst).task (some i) ≠ .dataServer (oneServer.addr i) (oneServer.own i) .aborted ∧
      (oneServer.addr i = oneServer.client → StartsWell oneServer (run oneServer metadataFirst) i) := by
  refine startsWell_of_inOrder oneServer (fun _ _ => ⟨_, rfl⟩) metadataFirst ?_
  have hello : InOrder oneServer (run oneServer (metadataFirst.take 5)) (some ()) := ⟨rfl, fun h => absurd rfl h⟩
  exact ⟨trivial, trivial, trivial, trivial, trivial, hello, trivial, trivial, trivial, trivial, trivial, trivial⟩

def failingServer : Servers Unit Unit Unit := ⟨.refl Unit, fun _ => .error (.IOError .parquet), ()⟩

/-- A data server at another address than the metadata server calls, where nobody is. -/
def elsewhere : Servers Unit Bool Unit :=
  ⟨⟨fun _ => false, fun _ _ _ => rfl⟩, fun _ => .ok (Registration.twoDatasets.flights.map .ok), true⟩

/-- A data server aborts that says hello before the metadata server accepts requests; and after that too, if its listing
fails, or nobody is there where the metadata server calls. -/
theorem dataServer_can_abort :
    ¬ StartsWell oneServer (run oneServer [some (), some (), some ()]) () ∧
      ¬ StartsWell failingServer (run failingServer metadataFirst) () ∧
      ¬ StartsWell elsewhere (run elsewhere metadataFirst) () :=
  ⟨fun h => h.not_aborted rfl, fun h => h.not_aborted rfl, fun h => h.not_aborted rfl⟩

end StartUp
