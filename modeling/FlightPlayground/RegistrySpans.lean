import FlightPlayground.RegistrySafety
import FlightPlayground.Tracing
/-!
# RegistrySpans — the sizes that a `say_hello` notes

`DoActionSayHello` sets on its span how many entries `available_datasets` has before a data server is asked, and how many
after.  Others register meanwhile: the sizes are those of the map at two moments of the run, and differ by what all the
actions have registered in between.
-/
namespace RegistrySpans

open Posix (Bytes)
open Arrow
open Flight
open Interleave
open DistributedFlightMetadataServer
open RegistrySafety (Request start run)
open Tracing (Value)

variable {α Schema ι : Type}

/-- What `DoAction` and `DoActionSayHello` set on their spans before they ask a data server. -/
def notedBefore (action : Action) (reg : Registry Schema) : List (String × Value) :=
  ("action.type", .str action.type) ::
    if action.type = kActionSayHello.type then [("message", .str action.body), ("size before", .int reg.keys.card)] else []

/-- The attributes that a task sets in its next step on the spans of its request. -/
def sets : Fate (Registry Schema) → Task α Schema → List (String × Value)
  | .alive reg, .doAction action _ => notedBefore action reg
  | .alive reg, .looping _ _ [] => [("size after", .int reg.keys.card)]
  | _, _ => []

/-! ## What is registered -/

/-- The request is a `say_hello` with this message. -/
def Registers (key : Bytes) : Request α Schema → Prop
  | .doAction action _ => action.type = kActionSayHello.type ∧ action.body = key
  | .listFlights _ => False

/-- What the registry has before it has after, and what it has after the threads have registered that it has not before. -/
structure Grows (request : ι → Request α Schema) (threads : List ι) (before after : Registry Schema) : Prop where
  kept : before.keys ⊆ after.keys
  registered : ∀ key ∈ after.keys, key ∈ before.keys ∨ ∃ i ∈ threads, Registers key (request i)

section Growth

variable {request : ι → Request α Schema} {reg reg' reg'' : Registry Schema}

theorem Grows.refl (threads : List ι) : Grows request threads reg reg := ⟨fun _ h => h, fun _ h => .inl h⟩

theorem Grows.trans {l l' : List ι} (h : Grows request l reg reg') (h' : Grows request l' reg' reg'') :
    Grows request (l ++ l') reg reg'' where
  kept := h.kept.trans h'.kept
  registered key hkey := by
    rcases h'.registered key hkey with hkey | ⟨i, hi, hr⟩
    · rcases h.registered key hkey with hkey | ⟨i, hi, hr⟩
      · exact .inl hkey
      · exact .inr ⟨i, List.mem_append_left _ hi, hr⟩
    · exact .inr ⟨i, List.mem_append_right _ hi, hr⟩

theorem mem_keys_insert {message key : Bytes} {p : Option (FlightInfo Schema)} :
    key ∈ (reg.insert message p).keys ↔ key = message ∨ key ∈ reg.keys := by
  rw [Finmap.mem_keys, Finmap.mem_keys, Finmap.mem_insert]

theorem grows_insert {message : Bytes} {i : ι} (h : Registers message (request i)) (p : Option (FlightInfo Schema)) :
    Grows request [i] reg (reg.insert message p) where
  kept key hkey := mem_keys_insert.2 (.inr hkey)
  registered key hkey := by
    rcases mem_keys_insert.1 hkey with rfl | hkey
    · exact .inr ⟨i, List.mem_singleton_self i, h⟩
    · exact .inl hkey

/-- Where a request can stand: a loop stores under the message of its request. -/
def Stands (r : Request α Schema) : Task α Schema → Prop
  | .doAction action network => r = .doAction action network
  | .looping _ message _ => Registers message r
  | _ => True

/-- **A step either leaves the process alive, with what its task goes on to, or leaves a process that is not.** -/
theorem step_cases (client : α) (s : Fate (Registry Schema)) (t : Task α Schema) :
    (∃ reg reg' t', s = .alive reg ∧ t.advance client reg = .alive (reg', t') ∧
      Task.step client s t = (.alive reg', t')) ∨
    (Task.step client s t).2 = t ∧ ∀ reg, (Task.step client s t).1 ≠ .alive reg := by
  cases s with
  | alive reg =>
    cases ht : t.advance client reg with
    | alive next => exact .inl ⟨reg, next.1, next.2, rfl, ht, Task.step_alive ht⟩
    | aborted => exact .inr (by simp [Task.step, ht])
    | undefined => exact .inr (by simp [Task.step, ht])
  | aborted => exact .inr (by simp [Task.step])
  | undefined => exact .inr (by simp [Task.step])

/-- **A request that goes on registers its message at most.** -/
theorem Stands.advance {r : Request α Schema} {t t' : Task α Schema} (h : Stands r t) {client : α}
    (ht : t.advance client reg = .alive (reg', t')) :
    Stands r t' ∧ (reg' = reg ∨ ∃ message info, Registers message r ∧ reg' = reg.insert message (some info)) := by
  cases t with
  | listFlights order =>
    cases hl : DistributedFlightMetadataServer.listFlights order reg with
    | alive flights =>
      simp only [Task.advance, hl, Fate.bind] at ht
      cases ht
      exact ⟨trivial, .inl rfl⟩
    | aborted => simp [Task.advance, hl, Fate.bind] at ht
    | undefined => simp [Task.advance, hl, Fate.bind] at ht
  | listed flights =>
    cases ht
    exact ⟨trivial, .inl rfl⟩
  | answered asked status =>
    cases ht
    exact ⟨trivial, .inl rfl⟩
  | doAction action network =>
    obtain rfl := h
    by_cases ha : action.type = kActionSayHello.type
    · cases hn : network client with
      | error e => simp [Task.advance, ha, hn] at ht
      | ok listing =>
        rw [Task.advance_sayHello ha hn] at ht
        cases ht
        exact ⟨⟨ha, rfl⟩, .inl rfl⟩
    · simp only [Task.advance, ha, if_false] at ht
      cases ht
      exact ⟨trivial, .inl rfl⟩
  | looping asked message listing =>
    cases listing with
    | nil =>
      cases ht
      exact ⟨trivial, .inl rfl⟩
    | cons item listing =>
      cases item with
      | error e => cases ht
      | ok info =>
        simp only [Task.advance, sayHelloBody_ok, Fate.bind] at ht
        cases ht
        exact ⟨h, .inr ⟨message, info, h, rfl⟩⟩

theorem Stands.step {r : Request α Schema} {t : Task α Schema} (h : Stands r t) (client : α) (s : Fate (Registry Schema)) :
    Stands r (Task.step client s t).2 := by
  rcases step_cases client s t with ⟨reg, reg', t', -, ht, hstep⟩ | ⟨hstep, -⟩
  · rw [hstep]
    exact (h.advance ht).1
  · rwa [hstep]

theorem grows_step {i : ι} {t : Task α Schema} (h : Stands (request i) t) {client : α} {s : Fate (Registry Schema)}
    (hs : (Task.step client s t).1 = .alive reg') : ∃ reg, s = .alive reg ∧ Grows request [i] reg reg' := by
  rcases step_cases client s t with ⟨reg, reg₁, t', rfl, ht, hstep⟩ | ⟨-, hdead⟩
  · rw [hstep] at hs
    obtain rfl := Fate.alive.inj hs
    refine ⟨reg, rfl, ?_⟩
    rcases (h.advance ht).2 with rfl | ⟨message, info, hr, rfl⟩
    · exact .refl _
    · exact grows_insert hr _
  · exact absurd hs (hdead reg')

end Growth

/-! ## Runs -/

section Run

variable [DecidableEq ι] (client : α) (request : ι → Request α Schema)

/-- The attributes that a request has set by the end of the schedule. -/
def noted (sched : List ι) (i : ι) : List (String × Value) := Pool.output (Task.step client) sets i (start request) sched

variable {client request}

theorem stands_run (sched : List ι) (i : ι) : Stands (request i) ((run client request sched).task i) := by
  refine Pool.run_invariant (f := Task.step client) (I := fun c => ∀ j, Stands (request j) (c.task j))
    (fun c j h => Pool.forall_task_step _ c (fun k _ => h k) ((h j).step client c.shared)) sched (fun j => ?_) i
  show Stands (request j) (request j).task
  cases request j with
  | listFlights order => trivial
  | doAction action network => rfl

theorem run_concat_shared (sched : List ι) (i : ι) : (run client request (sched ++ [i])).shared =
    (Task.step client (run client request sched).shared ((run client request sched).task i)).1 :=
  congrArg Pool.shared (Pool.run_concat _ _ sched i)

/-- **Over a part of a run the registry grows by what is registered in it.** -/
theorem grows_run (s₁ s₂ : List ι) {reg' : Registry Schema} (h : (run client request (s₁ ++ s₂)).shared = .alive reg') :
    ∃ reg, (run client request s₁).shared = .alive reg ∧ Grows request s₂ reg reg' := by
  induction s₂ using List.reverseRecOn generalizing reg' with
  | nil => exact ⟨reg', by rwa [List.append_nil] at h, .refl _⟩
  | append_singleton s₂ j ih =>
    rw [← List.append_assoc, run_concat_shared] at h
    obtain ⟨reg₁, hreg₁, hlast⟩ := grows_step (stands_run _ j) h
    obtain ⟨reg, hreg, hfirst⟩ := ih hreg₁
    exact ⟨reg, hreg, hfirst.trans hlast⟩

/-! ## One `say_hello` -/

variable (client request) in
/-- Where the `say_hello` of a thread can stand that has set the attributes. -/
def HelloAt (i : ι) (action : Action) (network : α → Result (FlightListing Schema)) (sched : List ι)
    (attributes : List (String × Value)) : Task α Schema → Prop
  | .doAction action' network' => action' = action ∧ network' = network ∧
      ((∃ reg, (run client request sched).shared = .alive reg) → attributes = [])
  | .looping _ message listing => message = action.body ∧ ∃ pre mid before done, sched = pre ++ i :: mid ∧
      (run client request pre).shared = .alive before ∧ attributes = notedBefore action before ∧
      network client = .ok (done ++ listing) ∧
      (done ≠ [] → ∀ reg, (run client request sched).shared = .alive reg → action.body ∈ reg.keys)
  | .answered _ _ => ∃ pre mid post before after, sched = pre ++ i :: (mid ++ i :: post) ∧
      (run client request pre).shared = .alive before ∧ (run client request (pre ++ i :: mid)).shared = .alive after ∧
      attributes = notedBefore action before ++ [("size after", .int after.keys.card)] ∧
      (network client ≠ .ok [] → action.body ∈ after.keys)
  | _ => False

section Hello

variable {i : ι} {action : Action} {network : α → Result (FlightListing Schema)} {sched : List ι}
  {attributes : List (String × Value)} {t : Task α Schema}

/-- **A step that is not its own** leaves a `say_hello` where it stands. -/
theorem HelloAt.other (h : HelloAt client request i action network sched attributes t) (j : ι) :
    HelloAt client request i action network (sched ++ [j]) attributes t := by
  cases t with
  | doAction action' network' =>
    obtain ⟨rfl, rfl, hnone⟩ := h
    refine ⟨rfl, rfl, fun ⟨reg', hreg'⟩ => hnone ?_⟩
    obtain ⟨reg, hreg, -⟩ := grows_run sched [j] hreg'
    exact ⟨reg, hreg⟩
  | looping asked message listing =>
    obtain ⟨rfl, pre, mid, before, done, rfl, hbefore, hset, hn, hdone⟩ := h
    refine ⟨rfl, pre, mid ++ [j], before, done, by simp, hbefore, hset, hn, fun hne reg' hreg' => ?_⟩
    obtain ⟨reg, hreg, hgrows⟩ := grows_run _ [j] hreg'
    exact hgrows.kept (hdone hne reg hreg)
  | answered asked status =>
    obtain ⟨pre, mid, post, before, after, rfl, hrest⟩ := h
    exact ⟨pre, mid, post ++ [j], before, after, by simp, hrest⟩
  | _ => exact h.elim

/-- **A step of a `say_hello`**: it sets the sizes of the registry as it finds it. -/
theorem HelloAt.step (ha : action.type = kActionSayHello.type) (ht : t = (run client request sched).task i)
    (h : HelloAt client request i action network sched attributes t) :
    HelloAt client request i action network (sched ++ [i]) (attributes ++ sets (run client request sched).shared t)
      (Task.step client (run client request sched).shared t).2 := by
  have hshared : (run client request (sched ++ [i])).shared =
      (Task.step client (run client request sched).shared ((run client request sched).task i)).1 := run_concat_shared sched i
  rw [← ht] at hshared
  cases hs : (run client request sched).shared with
  | alive reg =>
    rw [hs] at hshared
    cases t with
    | doAction action' network' =>
      obtain ⟨rfl, rfl, hnone⟩ := h
      obtain rfl := hnone ⟨reg, hs⟩
      cases hn : network' client with
      | error e =>
        -- `ValueOrDie` ends the process, so that no size is noted after the one before
        have hstep := Task.step_aborted (Task.advance_sayHello_error ha hn reg)
        rw [hstep] at hshared ⊢
        refine ⟨rfl, rfl, fun ⟨reg', hreg'⟩ => ?_⟩
        cases hshared.symm.trans hreg'
      | ok listing =>
        rw [Task.step_alive (Task.advance_sayHello ha hn reg)]
        exact ⟨rfl, sched, [], reg, [], rfl, hs, rfl, hn, fun hne => absurd rfl hne⟩
    | looping asked message listing =>
      cases listing with
      | nil =>
        -- the loop has seen the end of the listing: this is the later of the two moments
        obtain ⟨rfl, pre, mid, before, done, rfl, hbefore, rfl, hn, hdone⟩ := h
        refine ⟨pre, mid, [], before, reg, by simp, hbefore, hs, rfl, fun hne => hdone ?_ reg hs⟩
        rintro rfl
        exact hne hn
      | cons item listing =>
        have hsets : sets (.alive reg) (.looping asked message (item :: listing) : Task α Schema) = [] := rfl
        rw [hsets, List.append_nil]
        cases item with
        | error e => exact h.other i
        | ok info =>
          obtain ⟨rfl, pre, mid, before, done, rfl, hbefore, hset, hn, hdone⟩ := h
          have hstep : Task.step client (.alive reg) (.looping asked action.body (.ok info :: listing)) =
              (.alive (reg.insert action.body (some info)), .looping asked action.body listing) :=
            Task.step_alive (by simp [Task.advance, Fate.bind])
          rw [hstep] at hshared ⊢
          refine ⟨rfl, pre, mid ++ [i], before, done ++ [.ok info], by simp, hbefore, hset, by simp [hn], fun _ reg' hreg' => ?_⟩
          obtain rfl := Fate.alive.inj (hshared.symm.trans hreg')
          exact mem_keys_insert.2 (.inl rfl)
    | answered asked status =>
      have hsets : sets (.alive reg) (.answered asked status : Task α Schema) = [] := rfl
      rw [hsets, List.append_nil]
      exact h.other i
    | _ => exact h.elim
  | aborted =>
    have hsets : sets .aborted t = [] := by cases t <;> rfl
    rw [hsets, List.append_nil]
    exact h.other i
  | undefined =>
    have hsets : sets .undefined t = [] := by cases t <;> rfl
    rw [hsets, List.append_nil]
    exact h.other i

end Hello

/-- **The sizes that a `say_hello` notes are those of the registry at two moments**, one before it asks the data server and
one after it has stored what that lists: in between nothing is lost, and what is new was registered by the actions that took
steps in between, its own message with them if anything was listed. -/
theorem hello_sizes (request : ι → Request α Schema) (sched : List ι) {i : ι} {action : Action}
    {network : α → Result (FlightListing Schema)} (hi : request i = .doAction action network)
    (ha : action.type = kActionSayHello.type) {asked : Option α} {status : Result Unit}
    (h : (run client request sched).task i = .answered asked status) : ∃ pre mid post before after,
      sched = pre ++ i :: (mid ++ i :: post) ∧ (run client request pre).shared = .alive before ∧
      (run client request (pre ++ i :: mid)).shared = .alive after ∧
      noted client request sched i = [("action.type", .str action.type), ("message", .str action.body),
        ("size before", .int before.keys.card), ("size after", .int after.keys.card)] ∧
      Grows request (i :: mid) before after ∧ (network client ≠ .ok [] → action.body ∈ after.keys) := by
  have hat : HelloAt client request i action network sched (noted client request sched i)
      ((run client request sched).task i) := by
    refine Pool.output_induction sets (P := HelloAt client request i action network) ?_ (fun _ _ hat => hat.step ha rfl)
      (fun _ _ _ j _ hat => hat.other j) sched
    show HelloAt client request i action network [] [] (request i).task
    rw [hi]
    exact ⟨rfl, rfl, fun _ => rfl⟩
  rw [h] at hat
  obtain ⟨pre, mid, post, before, after, hsched, hbefore, hafter, hset, hmem⟩ := hat
  obtain ⟨before', hbefore', hgrows⟩ := grows_run pre (i :: mid) hafter
  obtain rfl := Fate.alive.inj (hbefore.symm.trans hbefore')
  refine ⟨pre, mid, post, before, after, hsched, hbefore, hafter, ?_, hgrows, hmem⟩
  rw [hset, notedBefore, if_pos ha]
  rfl

end Run

/-! ## Two data servers at once -/

/-- Two actions that register under a message each. -/
def twoHellos (b : Bool) : Request Unit Unit :=
  .doAction ⟨kActionSayHello.type, if b then Posix.utf8 "a" else Posix.utf8 "b"⟩ fun _ => .ok [.ok RegistrySafety.oneFlight]

theorem hello_sizes_twoHellos : ∃ pre mid post before after,
    [true, false, false, true, true] = pre ++ true :: (mid ++ true :: post) ∧
    (run () twoHellos pre).shared = .alive before ∧ (run () twoHellos (pre ++ true :: mid)).shared = .alive after ∧
    noted () twoHellos [true, false, false, true, true] true = [("action.type", .str kActionSayHello.type),
      ("message", .str (Posix.utf8 "a")), ("size before", .int before.keys.card), ("size after", .int after.keys.card)] ∧
    Grows twoHellos (true :: mid) before after ∧
    ((fun _ => .ok [.ok RegistrySafety.oneFlight] : Unit → Result (FlightListing Unit)) () ≠ .ok [] →
      Posix.utf8 "a" ∈ after.keys) :=
  hello_sizes twoHellos [true, false, false, true, true] rfl rfl rfl

end RegistrySpans
