import FlightPlayground.Interleave
import FlightPlayground.MetadataServer
/-!
# MetadataRequests — requests to the metadata server, step by step

A `say_hello` reads its listing message by message, and other requests are served in between: a step is one message
received and stored, or one `ListFlights`.  A request whose steps are taken one after another is the handler.
-/
namespace DistributedFlightMetadataServer

open Unordered (Enumeration)
open Arrow
open Flight
open Interleave

/-- Where a request stands.  `network` is what a call of `ListFlights` returns, address by address, while the request
is served; `asked` is the address that was called. -/
inductive Task (α Schema : Type)
  | listFlights (order : Enumeration (Entry Schema))
  | listed (flights : List (FlightInfo Schema))
  | doAction (action : Action) (network : α → Result (FlightListing Schema))
  | looping (asked : α) (message : Posix.Bytes) (listing : FlightListing Schema)
  | answered (asked : Option α) (status : Result Unit)

variable {α Schema : Type}

def Task.advance (client : α) (reg : Registry Schema) : Task α Schema → Fate (Registry Schema × Task α Schema)
  | .listFlights order =>
    (DistributedFlightMetadataServer.listFlights order reg).bind fun flights => .alive (reg, .listed flights)
  | .listed flights => .alive (reg, .listed flights)
  | .doAction action network =>
    if action.type = kActionSayHello.type then
      match network client with
      | .error _ => .aborted
      | .ok listing => .alive (reg, .looping client action.body listing)
    else .alive (reg, .answered none (.error (DatasetServer.unknownAction action)))
  | .looping asked _ [] => .alive (reg, .answered (some asked) (.ok ()))
  | .looping asked message (item :: listing) =>
    (sayHelloBody message reg item).bind fun reg => .alive (reg, .looping asked message listing)
  | .answered asked status => .alive (reg, .answered asked status)

theorem Task.advance_sayHello {client : α} {action : Action} (ha : action.type = kActionSayHello.type)
    {network : α → Result (FlightListing Schema)} {listing : FlightListing Schema} (hn : network client = .ok listing)
    (reg : Registry Schema) :
    (Task.doAction action network).advance client reg = .alive (reg, .looping client action.body listing) := by
  simp [Task.advance, ha, hn]

theorem Task.advance_sayHello_error {client : α} {action : Action} (ha : action.type = kActionSayHello.type)
    {network : α → Result (FlightListing Schema)} {e : Status} (hn : network client = .error e) (reg : Registry Schema) :
    (Task.doAction action network).advance client reg = .aborted := by
  simp [Task.advance, ha, hn]

def Task.step (client : α) (s : Fate (Registry Schema)) (t : Task α Schema) : Fate (Registry Schema) × Task α Schema :=
  match s with
  | .alive reg =>
    match t.advance client reg with
    | .alive (reg, t) => (.alive reg, t)
    | .aborted => (.aborted, t)
    | .undefined => (.undefined, t)
  | .aborted => (.aborted, t)
  | .undefined => (.undefined, t)

/-! ## One request on its own -/

section Solo

variable {client : α}

theorem Task.step_alive {reg reg' : Registry Schema} {t t' : Task α Schema} (h : t.advance client reg = .alive (reg', t')) :
    Task.step client (.alive reg) t = (.alive reg', t') := by simp [Task.step, h]

theorem Task.step_aborted {reg : Registry Schema} {t : Task α Schema} (h : t.advance client reg = .aborted) :
    Task.step client (.alive reg) t = (.aborted, t) := by simp [Task.step, h]

theorem Task.step_dead {s : Fate (Registry Schema)} (h : ∀ reg, s ≠ .alive reg) (t : Task α Schema) :
    Task.step client s t = (s, t) := by
  cases s with
  | alive reg => exact absurd rfl (h reg)
  | aborted => rfl
  | undefined => rfl

variable (client) in
/-- **A loop whose passes are taken one after another is `DoActionSayHello`'s loop.** -/
theorem solo_looping (asked : α) (message : Posix.Bytes) : ∀ (listing : FlightListing Schema) (reg : Registry Schema),
    (Pool.solo (Task.step client) (listing.length + 1) (.alive reg) (.looping asked message listing)).1 =
      sayHelloLoop message reg listing ∧
    ∀ reg', sayHelloLoop message reg listing = .alive reg' →
      (Pool.solo (Task.step client) (listing.length + 1) (.alive reg) (.looping asked message listing)).2 =
        .answered (some asked) (.ok ())
  | [], reg => ⟨rfl, fun _ _ => rfl⟩
  | item :: listing, reg => by
    rw [List.length_cons, Pool.solo_succ, sayHelloLoop]
    cases hb : sayHelloBody message reg item with
    | alive reg' =>
      rw [Task.step_alive (show Task.advance client reg (.looping asked message (item :: listing)) =
        .alive (reg', .looping asked message listing) by simp [Task.advance, hb, Fate.bind])]
      exact solo_looping asked message listing reg'
    | aborted =>
      have hstep : Task.step client (.alive reg) (.looping asked message (item :: listing)) =
          (.aborted, .looping asked message (item :: listing)) := by simp [Task.step, Task.advance, hb, Fate.bind]
      rw [hstep, Pool.solo_fixed (Task.step_dead (by simp) _)]
      exact ⟨rfl, by simp [Fate.bind]⟩
    | undefined =>
      have hstep : Task.step client (.alive reg) (.looping asked message (item :: listing)) =
          (.undefined, .looping asked message (item :: listing)) := by simp [Task.step, Task.advance, hb, Fate.bind]
      rw [hstep, Pool.solo_fixed (Task.step_dead (by simp) _)]
      exact ⟨rfl, by simp [Fate.bind]⟩

/-- **An action served without interruption is `DoAction`.** -/
theorem solo_doAction (reg : Registry Schema) (action : Action) (network : α → Result (FlightListing Schema)) : ∃ n,
    (Pool.solo (Task.step client) n (.alive reg) (.doAction action network)).1 =
      (doAction reg action (network client)).bind (fun r => .alive r.2) ∧
    ∀ status reg', doAction reg action (network client) = .alive (status, reg') → ∃ asked,
      (Pool.solo (Task.step client) n (.alive reg) (.doAction action network)).2 = .answered asked status := by
  by_cases ha : action.type = kActionSayHello.type
  · cases hn : network client with
    | error e =>
      refine ⟨1, ?_, fun status reg' h => ?_⟩
      · simp [Pool.solo, Task.step, Task.advance, ha, hn, doAction, doActionSayHello, Fate.bind]
      · simp [doAction, ha, doActionSayHello] at h
    | ok listing =>
      obtain ⟨hreg, hdone⟩ := solo_looping client client action.body listing reg
      have hstep : Task.step client (.alive reg) (.doAction action network) =
          (.alive reg, .looping client action.body listing) :=
        Task.step_alive (by simp [Task.advance, ha, hn])
      refine ⟨listing.length + 1 + 1, ?_, fun status reg' h => ⟨some client, ?_⟩⟩
      · rw [Pool.solo_succ, hstep, hreg]
        simp only [doAction, ha, if_true, doActionSayHello]
        cases sayHelloLoop action.body reg listing <;> rfl
      · simp only [doAction, ha, if_true, doActionSayHello] at h
        rw [Pool.solo_succ, hstep]
        cases hl : sayHelloLoop action.body reg listing with
        | alive reg₁ =>
          rw [hl] at h
          cases h
          exact hdone _ hl
        | aborted => simp [hl, Fate.bind] at h
        | undefined => simp [hl, Fate.bind] at h
  · refine ⟨1, ?_, fun status reg' h => ⟨none, ?_⟩⟩
    · simp [Pool.solo, Task.step, Task.advance, ha, doAction, Fate.bind]
    · simp only [doAction, ha, if_false, Fate.alive.injEq, Prod.mk.injEq] at h
      simp [Pool.solo, Task.step, Task.advance, ha, h.1]

end Solo

/-! ## What holds across any interleaving -/

def Task.ReadsMinted : Task α Schema → Prop
  | .doAction _ network => ∀ a listing, network a = .ok listing → ∀ f, .ok f ∈ listing → Minted f
  | .looping _ _ listing => ∀ f, .ok f ∈ listing → Minted f
  | _ => True

/-- The process has aborted, or its registry is well formed and stays so. -/
def Safe {ι : Type} (c : Pool ι (Fate (Registry Schema)) (Task α Schema)) : Prop :=
  (∀ i, (c.task i).ReadsMinted) ∧ (c.shared = .aborted ∨ ∃ reg, c.shared = .alive reg ∧ WellFormed reg)

theorem Task.advance_wellFormed (client : α) {reg : Registry Schema} {t : Task α Schema} (hreg : WellFormed reg)
    (ht : t.ReadsMinted) : t.advance client reg = .aborted ∨
      ∃ reg' t', t.advance client reg = .alive (reg', t') ∧ WellFormed reg' ∧ t'.ReadsMinted := by
  cases t with
  | listFlights order => exact .inr ⟨reg, .listed _, by rw [Task.advance, hreg.listFlights_eq]; rfl, hreg, trivial⟩
  | listed flights => exact .inr ⟨reg, _, rfl, hreg, trivial⟩
  | answered asked status => exact .inr ⟨reg, _, rfl, hreg, trivial⟩
  | doAction action network =>
    by_cases ha : action.type = kActionSayHello.type
    · cases hn : network client with
      | error e => exact .inl (by simp [Task.advance, ha, hn])
      | ok listing =>
        exact .inr ⟨reg, .looping client action.body listing, by simp [Task.advance, ha, hn], hreg, ht client listing hn⟩
    · exact .inr ⟨reg, .answered none (.error (DatasetServer.unknownAction action)), by simp [Task.advance, ha], hreg, trivial⟩
  | looping asked message listing =>
    cases listing with
    | nil => exact .inr ⟨reg, _, rfl, hreg, trivial⟩
    | cons item listing =>
      cases item with
      | error e => exact .inl rfl
      | ok f =>
        refine .inr ⟨reg.insert message (some f), .looping asked message listing, ?_, hreg.insert message (ht f List.mem_cons_self),
          fun g hg => ht g (List.mem_cons_of_mem _ hg)⟩
        simp [Task.advance, Fate.bind]

variable {ι : Type} [DecidableEq ι] {client : α}

theorem step_safe (c : Pool ι (Fate (Registry Schema)) (Task α Schema)) (i : ι) (h : Safe c) :
    Safe (c.step (Task.step client) i) := by
  obtain ⟨ht, hs⟩ := h
  have hothers : ∀ {s' t'}, Task.step client c.shared (c.task i) = (s', t') → t'.ReadsMinted →
      ∀ j, ((c.step (Task.step client) i).task j).ReadsMinted := fun hstep ht' =>
    Pool.forall_task_step _ c (fun j _ => ht j) (by rwa [hstep])
  rcases hs with hs | ⟨reg, hs, hreg⟩
  · have hstep : Task.step client c.shared (c.task i) = (.aborted, c.task i) := by rw [hs]; rfl
    exact ⟨hothers hstep (ht i), .inl (congrArg Prod.fst hstep)⟩
  · rcases Task.advance_wellFormed client hreg (ht i) with ha | ⟨reg', t', ha, hreg', ht'⟩
    · have hstep : Task.step client c.shared (c.task i) = (.aborted, c.task i) := by simp [Task.step, hs, ha]
      exact ⟨hothers hstep (ht i), .inl (congrArg Prod.fst hstep)⟩
    · have hstep : Task.step client c.shared (c.task i) = (.alive reg', t') := by simp [Task.step, hs, ha]
      exact ⟨hothers hstep ht', .inr ⟨reg', congrArg Prod.fst hstep, hreg'⟩⟩

/-- **No read of `ListFlights` or `DoActionSayHello` goes wrong**, however requests interleave. -/
theorem run_safe (sched : List ι) {c : Pool ι (Fate (Registry Schema)) (Task α Schema)} (h : Safe c) :
    Safe (c.run (Task.step client) sched) := Pool.run_invariant (fun c i => step_safe c i) sched h

end DistributedFlightMetadataServer
