import FlightPlayground.Registration
import FlightPlayground.MetadataRequests
/-!
# ListingSnapshots — what `ListFlights` sees of a `say_hello` in progress

Nothing keeps a `ListFlights` from reading the registry between two messages of a `DoActionSayHello`.  What it reads
is the registry the messages received so far have made: the one before if there were none, the one after if all were.
-/
namespace ListingSnapshots

open Posix (Bytes utf8)
open Unordered (Enumeration)
open Arrow
open Flight
open Interleave
open DistributedFlightMetadataServer

variable {α Schema ι : Type} [DecidableEq ι]

/-- A `say_hello` at the thread `h`, and a `ListFlights` at every other. -/
def helloAmongReaders (reg : Registry Schema) (h : ι) (action : Action) (network : α → Result (FlightListing Schema))
    (order : ι → Enumeration (Entry Schema)) : Pool ι (Fate (Registry Schema)) (Task α Schema) :=
  ⟨.alive reg, fun i => if i = h then .doAction action network else .listFlights (order i)⟩

def received (flights : List (FlightInfo Schema)) : Task α Schema → Nat
  | .looping _ _ listing => flights.length - listing.length
  | .answered _ _ => flights.length
  | _ => 0

section Run

variable (client : α) (reg : Registry Schema) (h : ι) (action : Action) (network : α → Result (FlightListing Schema))
  (order : ι → Enumeration (Entry Schema)) (flights : List (FlightInfo Schema))

def HelloAt (got rest : List (FlightInfo Schema)) (t : Task α Schema) : Prop :=
  (t = .doAction action network ∧ got = []) ∨ t = .looping client action.body (rest.map .ok) ∨
    (t = .answered (some client) (.ok ()) ∧ rest = [])

def ReaderAt (i : ι) (t : Task α Schema) : Prop := t = .listFlights (order i) ∨ ∃ fs, t = .listed fs

/-- The registry is the one that the messages received so far make, or a reader has read a bad entry. -/
structure Between (got rest : List (FlightInfo Schema)) (c : Pool ι (Fate (Registry Schema)) (Task α Schema)) : Prop where
  split : flights = got ++ rest
  shared : c.shared = .alive (storeAll action.body reg got) ∨ c.shared = .undefined
  hello : HelloAt client action network got rest (c.task h)
  readers : ∀ i, i ≠ h → ReaderAt order i (c.task i)

variable {client reg h action network order flights}

theorem between_start : Between client reg h action network order flights [] flights
    (helloAmongReaders reg h action network order) where
  split := rfl
  shared := .inl rfl
  hello := .inl ⟨if_pos rfl, rfl⟩
  readers _ hi := .inl (if_neg hi)

variable (reg) in
theorem HelloAt.advance (ha : action.type = kActionSayHello.type) (hn : network client = .ok (flights.map .ok))
    {got rest : List (FlightInfo Schema)} (hsplit : flights = got ++ rest) {t : Task α Schema}
    (ht : HelloAt client action network got rest t) : ∃ got' rest' t', flights = got' ++ rest' ∧ got.length ≤ got'.length ∧
      t.advance client (storeAll action.body reg got) = .alive (storeAll action.body reg got', t') ∧
      HelloAt client action network got' rest' t' := by
  rcases ht with ⟨rfl, rfl⟩ | rfl | ⟨rfl, rfl⟩
  · refine ⟨[], rest, .looping client action.body (rest.map .ok), hsplit, le_rfl, ?_, .inr (.inl rfl)⟩
    obtain rfl : flights = rest := hsplit
    simp [Task.advance, ha, hn]
  · cases rest with
    | nil => exact ⟨got, [], _, hsplit, le_rfl, rfl, .inr (.inr ⟨rfl, rfl⟩)⟩
    | cons f rest =>
      refine ⟨got ++ [f], rest, .looping client action.body (rest.map .ok), by simp [hsplit], by simp, ?_, .inr (.inl rfl)⟩
      simp [Task.advance, Fate.bind, insert_storeAll]
  · exact ⟨got, [], _, hsplit, le_rfl, rfl, .inr (.inr ⟨rfl, rfl⟩)⟩

omit [DecidableEq ι] in
theorem HelloAt.length_got {got rest : List (FlightInfo Schema)} {t : Task α Schema} (hsplit : flights = got ++ rest)
    (ht : HelloAt client action network got rest t) : got.length = received flights t := by
  have hlen := congrArg List.length hsplit
  rw [List.length_append] at hlen
  rcases ht with ⟨rfl, rfl⟩ | rfl | ⟨rfl, rfl⟩
  · rfl
  · rw [received, List.length_map]
    omega
  · simpa [received] using hlen.symm

variable (client) in
omit [DecidableEq ι] in
/-- **A reader that has not answered yet lists the registry as it is.** -/
theorem ReaderAt.step {r : Registry Schema} {i : ι} {t : Task α Schema} (ht : ReaderAt order i t) : ∃ s' t',
    Task.step client (.alive r) t = (s', t') ∧ (s' = .alive r ∨ s' = .undefined) ∧ ReaderAt order i t' ∧
      ∀ fs, t' = .listed fs → t = .listed fs ∨ t = .listFlights (order i) ∧ listFlights (order i) r = .alive fs := by
  rcases ht with rfl | ⟨fs, rfl⟩
  · cases hl : listFlights (order i) r with
    | alive fs =>
      refine ⟨_, .listed fs, Task.step_alive (by simp [Task.advance, hl, Fate.bind]), .inl rfl, .inr ⟨fs, rfl⟩, ?_⟩
      rintro fs' ⟨⟩
      exact .inr ⟨rfl, rfl⟩
    | aborted => exact absurd hl (listLoop_ne_aborted _ _)
    | undefined =>
      refine ⟨.undefined, _, by simp [Task.step, Task.advance, hl, Fate.bind], .inr rfl, .inl rfl, fun _ h => ?_⟩
      cases h
  · exact ⟨_, .listed fs, rfl, .inl rfl, .inr ⟨fs, rfl⟩, fun _ h => .inl h⟩

/-- **A step leaves the registry between the two listings**, and takes no message back. -/
theorem Between.step (ha : action.type = kActionSayHello.type) (hn : network client = .ok (flights.map .ok))
    {got rest : List (FlightInfo Schema)} {c : Pool ι (Fate (Registry Schema)) (Task α Schema)}
    (hb : Between client reg h action network order flights got rest c) (i : ι) : ∃ got' rest', got.length ≤ got'.length ∧
      Between client reg h action network order flights got' rest' (c.step (Task.step client) i) := by
  obtain ⟨hsplit, hs | hs, hh, hr⟩ := hb
  · by_cases hi : i = h
    · subst hi
      obtain ⟨got', rest', t', hsplit', hle, hadv, hh'⟩ := hh.advance reg ha hn hsplit
      have hstep : Task.step client c.shared (c.task i) = (.alive (storeAll action.body reg got'), t') := by
        rw [hs]
        exact Task.step_alive hadv
      refine ⟨got', rest', hle, hsplit', .inl (congrArg Prod.fst hstep), ?_, fun j hj => ?_⟩
      · rw [Pool.step_task_self, hstep]
        exact hh'
      · rw [Pool.step_task_of_ne _ _ hj]
        exact hr j hj
    · obtain ⟨s', t', hstep, hs', ht', -⟩ := (hr i hi).step client (r := storeAll action.body reg got)
      rw [← hs] at hstep hs'
      refine ⟨got, rest, le_rfl, hsplit, ?_, ?_, ?_⟩
      · rw [Pool.step_shared, hstep, ← hs]
        exact hs'
      · rwa [Pool.step_task_of_ne _ _ (Ne.symm hi)]
      · exact Pool.forall_task_step (Q := fun j t => j ≠ h → ReaderAt order j t) _ c (fun j _ hj => hr j hj) fun _ => by
          rwa [hstep]
  · -- the process has ended, and nothing moves
    have hstep : Task.step client c.shared (c.task i) = (.undefined, c.task i) := by rw [hs]; rfl
    have hsame : (c.step (Task.step client) i).task = c.task := by
      rw [Pool.step, hstep]
      exact Function.update_eq_self i c.task
    exact ⟨got, rest, le_rfl, hsplit, .inr (congrArg Prod.fst hstep), by rwa [hsame], by rwa [hsame]⟩

variable (client reg h action network order flights) in
theorem between_run (ha : action.type = kActionSayHello.type) (hn : network client = .ok (flights.map .ok)) (sched : List ι) :
    ∃ got rest, Between client reg h action network order flights got rest
      ((helloAmongReaders reg h action network order).run (Task.step client) sched) :=
  Pool.run_invariant (I := fun c => ∃ got rest, Between client reg h action network order flights got rest c)
    (fun _ i ⟨_, _, hb⟩ =>
      have ⟨got, rest, _, hb'⟩ := hb.step ha hn i
      ⟨got, rest, hb'⟩) sched ⟨[], flights, between_start⟩

variable (client reg h action network order flights) in
/-- **A listing was answered at one step of its own**, of the registry there was then; messages may have come since. -/
theorem listed_at (ha : action.type = kActionSayHello.type) (hn : network client = .ok (flights.map .ok)) {i : ι}
    (hi : i ≠ h) {fs : List (FlightInfo Schema)} (sched : List ι)
    (hlisted : ((helloAmongReaders reg h action network order).run (Task.step client) sched).task i = .listed fs) :
    ∃ pre post got rest got' rest', sched = pre ++ i :: post ∧ got.length ≤ got'.length ∧
      Between client reg h action network order flights got rest
        ((helloAmongReaders reg h action network order).run (Task.step client) pre) ∧
      ((helloAmongReaders reg h action network order).run (Task.step client) pre).task i = .listFlights (order i) ∧
      listFlights (order i) (storeAll action.body reg got) = .alive fs ∧
      Between client reg h action network order flights got' rest'
        ((helloAmongReaders reg h action network order).run (Task.step client) sched) := by
  induction sched using List.reverseRecOn with
  | nil =>
    have hstart : (helloAmongReaders reg h action network order).task i = .listFlights (order i) := if_neg hi
    cases hstart.symm.trans hlisted
  | append_singleton sched j ih =>
    rw [Pool.run_concat] at hlisted ⊢
    by_cases hbefore : ((helloAmongReaders reg h action network order).run (Task.step client) sched).task i = .listed fs
    · obtain ⟨pre, post, got, rest, got₁, rest₁, rfl, hle, hb, hasked, hl, hb₁⟩ := ih hbefore
      obtain ⟨got', rest', hle', hb'⟩ := hb₁.step ha hn j
      exact ⟨pre, post ++ [j], got, rest, got', rest', by simp, hle.trans hle', hb, hasked, hl, hb'⟩
    · obtain ⟨got, rest, hb⟩ := between_run client reg h action network order flights ha hn sched
      obtain ⟨got', rest', hle', hb'⟩ := hb.step ha hn j
      have hij : i = j := by
        by_contra hij
        rw [Pool.step_task_of_ne _ _ hij] at hlisted
        exact hbefore hlisted
      subst hij
      rw [Pool.step_task_self] at hlisted
      rcases hb.shared with hs | hs
      · obtain ⟨s', t', hstep, -, -, hanswer⟩ := (hb.readers i hi).step client (r := storeAll action.body reg got)
        rw [hs, hstep] at hlisted
        obtain ⟨hasked, hl⟩ := (hanswer fs hlisted).resolve_left hbefore
        exact ⟨sched, [], got, rest, got', rest', rfl, hle', hb, hasked, hl, hb'⟩
      · rw [hs] at hlisted
        exact absurd hlisted hbefore

end Run

/-- **Whatever `ListFlights` answers while a `say_hello` receives its messages is the listing of the registry that the
messages received at its own step have made.** -/
theorem listed_between (client : α) (reg : Registry Schema) (h : ι) (message : Bytes) (flights : List (FlightInfo Schema))
    (order : ι → Enumeration (Entry Schema)) (sched : List ι) (i : ι) (fs : List (FlightInfo Schema)) :
    let run := (helloAmongReaders reg h ⟨kActionSayHello.type, message⟩ (fun _ => .ok (flights.map .ok)) order).run
      (Task.step client)
    (run sched).task i = .listed fs →
      ∃ pre post, sched = pre ++ i :: post ∧ (run pre).task i = .listFlights (order i) ∧
        received flights ((run pre).task h) ≤ received flights ((run sched).task h) ∧
        listFlights (order i) (storeAll message reg (flights.take (received flights ((run pre).task h)))) = .alive fs := by
  intro run hlisted
  have hi : i ≠ h := by
    rintro rfl
    obtain ⟨got, rest, hb⟩ := between_run client reg i ⟨kActionSayHello.type, message⟩
      (fun _ => .ok (flights.map .ok)) order flights rfl rfl sched
    have hhello := hb.hello
    rw [hlisted] at hhello
    rcases hhello with ⟨ht, -⟩ | ht | ⟨ht, -⟩ <;> cases ht
  obtain ⟨pre, post, got, rest, got', rest', hsched, hle, hb, hasked, hl, hb'⟩ := listed_at client reg h
    ⟨kActionSayHello.type, message⟩ (fun _ => .ok (flights.map .ok)) order flights rfl rfl hi sched hlisted
  refine ⟨pre, post, hsched, hasked, ?_, ?_⟩
  · rwa [← hb.hello.length_got hb.split, ← hb'.hello.length_got hb'.split]
  · have htake : flights.take got.length = got := by simp [hb.split]
    rw [← hb.hello.length_got hb.split, htake]
    exact hl

/-! ## A reader between two messages -/

/-- Every answer of `ListFlights` is the listing before the `say_hello` or the one after it. -/
def Atomic (client : α) (reg : Registry Schema) (message : Bytes) (flights : List (FlightInfo Schema)) : Prop :=
  ∀ (order : Bool → Enumeration (Entry Schema)) (sched : List Bool) (fs : List (FlightInfo Schema)),
    ((helloAmongReaders reg true ⟨kActionSayHello.type, message⟩ (fun _ => .ok (flights.map .ok)) order).run
      (Task.step client) sched).task false = .listed fs →
    listFlights (order false) reg = .alive fs ∨ listFlights (order false) (storeAll message reg flights) = .alive fs ∨
      fs.Perm flights

open Registration (flightA flightB twoDatasets listFlights_storeAll)

theorem listed_between_messages (order : Bool → Enumeration (Entry Unit)) :
    ((helloAmongReaders ∅ true ⟨kActionSayHello.type, utf8 "Hello!"⟩ (fun _ => .ok ([flightA, flightB].map .ok)) order).run
      (Task.step ()) [true, true, false]).task false = .listed [flightA] := by
  have hminted : ∀ f ∈ [flightA], Minted f := fun f hf => twoDatasets.minted f (List.mem_cons.2 (.inl (by simpa using hf)))
  have hl : listFlights (order false) (Finmap.insert (utf8 "Hello!") (some flightA) ∅) = .alive [flightA] :=
    listFlights_storeAll (order false) (utf8 "Hello!") hminted
  simp [helloAmongReaders, Pool.step, Task.step, Task.advance, Fate.bind, hl]

/-- A reader sees the first of two flights, which is the listing neither before nor after. -/
theorem listed_not_atomic : ¬ Atomic () ∅ (utf8 "Hello!") [flightA, flightB] := by
  intro h
  let order : Bool → Enumeration (Entry Unit) := fun _ => Enumeration.chosen _
  have hall := fun fs (hfs : ∀ f ∈ fs, f ∈ twoDatasets.flights) =>
    listFlights_storeAll (order false) (utf8 "Hello!") fun f hf => twoDatasets.minted f (hfs f hf)
  rcases h order _ _ (listed_between_messages order) with h0 | h2 | hp
  · have := (hall [] (by simp)).symm.trans h0
    revert this
    decide
  · have := (hall [flightA, flightB] (by simp [twoDatasets])).symm.trans h2
    revert this
    decide
  · have := hp.length_eq
    revert this
    decide

theorem listed_between_first :
    let run := (helloAmongReaders ∅ true ⟨kActionSayHello.type, utf8 "Hello!"⟩ (fun _ => .ok ([flightA, flightB].map .ok))
      fun _ => Enumeration.chosen _).run (Task.step ())
    ∃ pre post, [true, true, false] = pre ++ false :: post ∧
      (run pre).task false = .listFlights (Enumeration.chosen _) ∧
      received [flightA, flightB] ((run pre).task true) ≤ received [flightA, flightB] ((run [true, true, false]).task true) ∧
      listFlights (Enumeration.chosen _) (storeAll (utf8 "Hello!") ∅
        ([flightA, flightB].take (received [flightA, flightB] ((run pre).task true)))) = .alive [flightA] :=
  listed_between () ∅ true (utf8 "Hello!") [flightA, flightB] (fun _ => Enumeration.chosen _) [true, true, false] false
    [flightA] (listed_between_messages _)

end ListingSnapshots
