import FlightPlayground.Unordered
import Mathlib.Data.Finset.Lattice.Fold
import Mathlib.Order.Bounds.Basic
/-!
# StressClients — what the stress tests report of their clients

A client makes its requests one after another and returns the longest time one took; a test gathers what its clients
return in the order they complete.  A client of `test_get_flight_info` returns `None` for an exception, and the test
counts these; `test_do_put` counts them too, but its clients raise.
-/
namespace StressClients

/-- How long a request takes, and the text of the exception it ends in, if it does. -/
structure Outcome (T : Type) where
  duration : T
  raised : Option String

/-- What a test ends in that returns no statistics. -/
inductive Raised
  | exception (text : String)
  | valueError (text : String)
  | ofClient (text : String)
  | systemExit
  deriving DecidableEq

structure Stats (T : Type) where
  nClients : Nat
  nRequests : Nat
  clientsInError : Nat
  minOfMaxes : T
  maxOfMaxes : T
  deriving DecidableEq

/-- The order in which `as_completed` yields the futures of a test. -/
structure CompletionOrder (nClients : Nat) where
  list : List Nat
  perm : list.Perm (List.range nClients)

variable {T : Type} [LinearOrder T]

/-- The loop of `do_put`, from the `max_time` so far. -/
def doPutLoop : List (Outcome T) → T → Except String T
  | [], maxTime => .ok maxTime
  | request :: requests, maxTime =>
    match request.raised with
    | some e => .error e
    | none => doPutLoop requests (max maxTime request.duration)

def ignored (e : String) : Prop := "Path does not exist".toList <:+: e.toList

instance (e : String) : Decidable (ignored e) := inferInstanceAs (Decidable (_ <:+: _))

/-- The loop of `get_flight_info`, which returns `None` at an exception. -/
def getFlightInfoLoop : List (Outcome T) → T → Option T
  | [], maxTime => some maxTime
  | request :: requests, maxTime =>
    match request.raised with
    | some e => if ignored e then getFlightInfoLoop requests (max maxTime request.duration) else none
    | none => getFlightInfoLoop requests (max maxTime request.duration)

/-- The statistics of the values the clients return. -/
def collectStats (nClients nRequests : Nat) (values : List (Option T)) : Except Raised (Stats T) :=
  match values.filterMap id with
  | [] => .error .systemExit
  | t :: ts => .ok {
      nClients := nClients
      nRequests := nRequests
      clientsInError := values.countP Option.isNone
      minOfMaxes := ts.foldl min t
      maxOfMaxes := ts.foldl max t }

/-- What `test_do_put` and `test_get_flight_info` share; `result()` raises what the client raised. -/
def runTest (client : Nat → Except String (Option T)) (method : String) (nWorkers : Int) (nClients nRequests : Nat)
    (completed : CompletionOrder nClients) : Except Raised (Stats T) :=
  if method = "process" ∨ method = "thread" then
    if nWorkers ≤ 0 then .error (.valueError "max_workers must be greater than 0")
    else do
      let values ← completed.list.mapM fun i => (client i).mapError .ofClient
      collectStats nClients nRequests values
  else .error (.exception ("Method " ++ method ++ " not supported. Choose one of [process, thread]"))

section Tests

variable [OrderBot T]

/-- `max_time` starts at `0`, below which no request takes. -/
def doPut (nRequests : Nat) (request : Nat → Outcome T) : Except String T :=
  doPutLoop ((List.range nRequests).map request) ⊥

def getFlightInfo (nRequests : Nat) (request : Nat → Outcome T) : Option T :=
  getFlightInfoLoop ((List.range nRequests).map request) ⊥

/-- `requests` are the outcomes of each client's requests. -/
def testDoPut (method : String) (nWorkers : Int) (nClients nRequests : Nat) (requests : Nat → Nat → Outcome T)
    (completed : CompletionOrder nClients) : Except Raised (Stats T) :=
  runTest (fun i => (doPut nRequests (requests i)).map some) method nWorkers nClients nRequests completed

def testGetFlightInfo (method : String) (nWorkers : Int) (nClients nRequests : Nat) (requests : Nat → Nat → Outcome T)
    (completed : CompletionOrder nClients) : Except Raised (Stats T) :=
  runTest (fun i => .ok (getFlightInfo nRequests (requests i))) method nWorkers nClients nRequests completed

end Tests

/-! ## What a client returns -/

/-- **The loops keep the longest of the times they have measured.** -/
theorem foldl_max_le_iff : ∀ (requests : List (Outcome T)) (maxTime u : T),
    requests.foldl (fun m request => max m request.duration) maxTime ≤ u ↔ maxTime ≤ u ∧ ∀ r ∈ requests, r.duration ≤ u
  | [], maxTime, u => by simp
  | r :: requests, maxTime, u => by
    rw [List.foldl_cons, foldl_max_le_iff requests, max_le_iff, List.forall_mem_cons, and_assoc]

def Failed (nRequests : Nat) (request : Nat → Outcome T) : Prop := ∃ r < nRequests, (request r).raised ≠ none

/-- A request of `get_flight_info` fails at any exception but the one for a missing file. -/
def FailedInfo (nRequests : Nat) (request : Nat → Outcome T) : Prop :=
  ∃ r < nRequests, ∃ e, (request r).raised = some e ∧ ¬ ignored e

instance (nRequests : Nat) (request : Nat → Outcome T) : Decidable (Failed nRequests request) :=
  inferInstanceAs (Decidable (∃ r < nRequests, (request r).raised ≠ none))

instance (nRequests : Nat) (request : Nat → Outcome T) : Decidable (FailedInfo nRequests request) :=
  decidable_of_iff (∃ r < nRequests, (request r).raised.any fun e => ¬ ignored e) (by simp [FailedInfo, Option.any_eq_true])

theorem doPutLoop_ok : ∀ (requests : List (Outcome T)) (maxTime : T), (∀ r ∈ requests, r.raised = none) →
    doPutLoop requests maxTime = .ok (requests.foldl (fun m r => max m r.duration) maxTime)
  | [], _, _ => rfl
  | r :: requests, maxTime, h => by
    obtain ⟨hr, hrs⟩ := List.forall_mem_cons.1 h
    simp only [doPutLoop, hr]
    exact doPutLoop_ok requests _ hrs

theorem doPutLoop_error : ∀ (requests : List (Outcome T)) (maxTime : T), (∃ r ∈ requests, r.raised ≠ none) →
    ∃ e, doPutLoop requests maxTime = .error e
  | [], _, h => by simp at h
  | r :: requests, maxTime, h => by
    unfold doPutLoop
    split
    · rename_i e _
      exact ⟨e, rfl⟩
    · rename_i hr
      apply doPutLoop_error requests
      simpa [hr] using h

theorem getFlightInfoLoop_some : ∀ (requests : List (Outcome T)) (maxTime : T),
    (∀ r ∈ requests, ∀ e, r.raised = some e → ignored e) →
      getFlightInfoLoop requests maxTime = some (requests.foldl (fun m r => max m r.duration) maxTime)
  | [], _, _ => rfl
  | r :: requests, maxTime, h => by
    obtain ⟨hr, hrs⟩ := List.forall_mem_cons.1 h
    unfold getFlightInfoLoop
    split
    · rename_i e he
      rw [if_pos (hr e he)]
      exact getFlightInfoLoop_some requests _ hrs
    · exact getFlightInfoLoop_some requests _ hrs

theorem getFlightInfoLoop_none : ∀ (requests : List (Outcome T)) (maxTime : T),
    (∃ r ∈ requests, ∃ e, r.raised = some e ∧ ¬ ignored e) → getFlightInfoLoop requests maxTime = none
  | [], _, h => by simp at h
  | r :: requests, maxTime, h => by
    have hrest : (∀ e, r.raised = some e → ignored e) → ∃ r ∈ requests, ∃ e, r.raised = some e ∧ ¬ ignored e := by
      intro hr
      obtain ⟨r', hr', e, he, hne⟩ := h
      rcases List.mem_cons.1 hr' with rfl | hr'
      · exact absurd (hr e he) hne
      · exact ⟨r', hr', e, he, hne⟩
    unfold getFlightInfoLoop
    split
    · rename_i e he
      split
      · rename_i hi
        exact getFlightInfoLoop_none requests _ (hrest fun e' he' => Option.some.inj (he.symm.trans he') ▸ hi)
      · rfl
    · rename_i hr
      exact getFlightInfoLoop_none requests _ (hrest fun e' he' => by rw [hr] at he'; cases he')

section Clients

variable [OrderBot T]

/-- The time of a client's longest request; `0` if it makes none. -/
def longest (nRequests : Nat) (request : Nat → Outcome T) : T :=
  (Finset.range nRequests).sup fun r => (request r).duration

theorem foldl_max_eq_longest (nRequests : Nat) (request : Nat → Outcome T) :
    ((List.range nRequests).map request).foldl (fun m r => max m r.duration) ⊥ = longest nRequests request := by
  apply eq_of_forall_ge_iff
  intro u
  rw [foldl_max_le_iff, longest, Finset.sup_le_iff]
  simp

/-- **A client of `test_do_put` returns the time of its longest request**, or raises. -/
theorem doPut_of_not_failed {nRequests : Nat} {request : Nat → Outcome T} (h : ¬ Failed nRequests request) :
    doPut nRequests request = .ok (longest nRequests request) := by
  unfold doPut
  rw [doPutLoop_ok, foldl_max_eq_longest]
  simpa [Failed] using h

theorem doPut_of_failed {nRequests : Nat} {request : Nat → Outcome T} (h : Failed nRequests request) :
    ∃ e, doPut nRequests request = .error e := by
  apply doPutLoop_error
  simpa [Failed] using h

/-- **A client of `test_get_flight_info` returns the time of its longest request**, or `None`. -/
theorem getFlightInfo_eq (nRequests : Nat) (request : Nat → Outcome T) :
    getFlightInfo nRequests request = if FailedInfo nRequests request then none else some (longest nRequests request) := by
  unfold getFlightInfo
  split
  · rename_i h
    apply getFlightInfoLoop_none
    simpa [FailedInfo] using h
  · rename_i h
    rw [getFlightInfoLoop_some, foldl_max_eq_longest]
    simpa [FailedInfo] using h

end Clients

/-! ## What a test reports -/

/-- If some client finishes, the test returns the statistics of the clients, whatever the order they complete in. -/
def Reports {nClients : Nat} (test : CompletionOrder nClients → Except Raised (Stats T)) (failed : Nat → Prop)
    [DecidablePred failed] (time : Nat → T) : Prop :=
  (∃ i < nClients, ¬ failed i) → ∃ stats, (∀ completed, test completed = .ok stats) ∧
    stats.clientsInError = (List.range nClients).countP (fun i => failed i) ∧
    IsLeast {t | ∃ i < nClients, ¬ failed i ∧ time i = t} stats.minOfMaxes ∧
    IsGreatest {t | ∃ i < nClients, ¬ failed i ∧ time i = t} stats.maxOfMaxes

/-- The statistics of the values, as their keys say. -/
structure Summarizes (nClients nRequests : Nat) (values : List (Option T)) (stats : Stats T) : Prop where
  nClients : stats.nClients = nClients
  nRequests : stats.nRequests = nRequests
  clientsInError : stats.clientsInError = values.countP Option.isNone
  minOfMaxes : IsLeast {t | some t ∈ values} stats.minOfMaxes
  maxOfMaxes : IsGreatest {t | some t ∈ values} stats.maxOfMaxes

section Summary

variable {nClients nRequests : Nat} {values : List (Option T)}

theorem Summarizes.unique {stats stats' : Stats T} (h : Summarizes nClients nRequests values stats)
    (h' : Summarizes nClients nRequests values stats') : stats = stats' := by
  obtain ⟨hc, hr, he, hmin, hmax⟩ := h
  obtain ⟨hc', hr', he', hmin', hmax'⟩ := h'
  have hlo := hmin.unique hmin'
  have hhi := hmax.unique hmax'
  cases stats
  cases stats'
  simp_all only

/-- **What values are summarised in does not depend on their order.** -/
theorem Summarizes.perm {l : List (Option T)} (h : values.Perm l) {stats : Stats T}
    (hs : Summarizes nClients nRequests values stats) : Summarizes nClients nRequests l stats := by
  have hset : {t | some t ∈ values} = {t | some t ∈ l} := Set.ext fun t => h.mem_iff
  obtain ⟨hc, hr, he, hmin, hmax⟩ := hs
  exact ⟨hc, hr, he.trans (h.countP_eq _), hset ▸ hmin, hset ▸ hmax⟩

/-- **A test sums its values up** if one of them is a time. -/
theorem collectStats_of_some (nClients nRequests : Nat) (h : ∃ t, some t ∈ values) : ∃ stats,
    collectStats nClients nRequests values = .ok stats ∧ Summarizes nClients nRequests values stats := by
  have hmem : ∀ t, t ∈ values.filterMap id ↔ some t ∈ values := fun t => by simp
  unfold collectStats
  cases hv : values.filterMap id with
  | nil =>
    obtain ⟨t, ht⟩ := h
    rw [← hmem t, hv] at ht
    cases ht
  | cons t ts =>
    rw [hv] at hmem
    obtain ⟨hmin, hmin'⟩ := List.min?_eq_some_iff.1 (show (t :: ts).min? = some (ts.foldl min t) from rfl)
    obtain ⟨hmax, hmax'⟩ := List.max?_eq_some_iff.1 (show (t :: ts).max? = some (ts.foldl max t) from rfl)
    refine ⟨_, rfl, rfl, rfl, rfl, ⟨(hmem _).1 hmin, fun u hu => ?_⟩, (hmem _).1 hmax, fun u hu => ?_⟩
    · exact hmin' u ((hmem u).2 hu)
    · exact hmax' u ((hmem u).2 hu)

theorem collectStats_of_summarizes {stats : Stats T} (h : Summarizes nClients nRequests values stats) :
    collectStats nClients nRequests values = .ok stats := by
  obtain ⟨stats', hs', h'⟩ := collectStats_of_some nClients nRequests ⟨_, h.minOfMaxes.1⟩
  rw [hs', h.unique h']

end Summary

section Report

variable {client : Nat → Except String (Option T)} {method : String} {nWorkers : Int} {nClients nRequests : Nat}

/-- **A test that returns has had a value from every client.** -/
theorem runTest_ok {completed : CompletionOrder nClients} {stats : Stats T}
    (h : runTest client method nWorkers nClients nRequests completed = .ok stats) :
    (method = "process" ∨ method = "thread") ∧ 0 < nWorkers ∧ ∀ i < nClients, ∃ value, client i = .ok value := by
  unfold runTest at h
  split at h
  · rename_i hm
    split at h
    · cases h
    · rename_i hw
      refine ⟨hm, not_le.1 hw, fun i hi => ?_⟩
      cases hv : completed.list.mapM fun i => (client i).mapError Raised.ofClient with
      | error e =>
        rw [hv] at h
        cases h
      | ok values =>
        have hi' : i ∈ completed.list := completed.perm.mem_iff.2 (List.mem_range.2 hi)
        obtain ⟨value, -, hvalue⟩ := Unordered.exists_of_mem_forall₂ (Unordered.mapM_eq_ok_iff.1 hv).flip hi'
        cases hc : client i with
        | error e =>
          rw [hc] at hvalue
          cases hvalue
        | ok value => exact ⟨value, rfl⟩
  · cases h

/-- **A test whose clients return, `None` or a time, reports on them.** -/
theorem runTest_reports {failed : Nat → Prop} [DecidablePred failed] {time : Nat → T}
    (hm : method = "process" ∨ method = "thread") (hw : 0 < nWorkers)
    (hclient : ∀ i < nClients, client i = .ok (if failed i then none else some (time i))) :
    Reports (runTest client method nWorkers nClients nRequests) failed time := by
  rintro ⟨i, hi, hfin⟩
  let value := fun i => if failed i then none else some (time i)
  have hmem : ∀ t, some t ∈ (List.range nClients).map value ↔ ∃ i < nClients, ¬ failed i ∧ time i = t := fun t => by
    simp only [List.mem_map, List.mem_range, value]
    refine exists_congr fun i => and_congr_right fun _ => ?_
    split <;> simp [*]
  obtain ⟨stats, -, hs⟩ := collectStats_of_some nClients nRequests ⟨time i, (hmem _).2 ⟨i, hi, hfin, rfl⟩⟩
  refine ⟨stats, fun completed => ?_, ?_, ?_, ?_⟩
  · have hvalues : completed.list.mapM (fun i => (client i).mapError Raised.ofClient) = .ok (completed.list.map value) := by
      rw [Unordered.mapM_eq_ok_iff, List.forall₂_map_right_iff, List.forall₂_same]
      intro j hj
      rw [hclient j (List.mem_range.1 (completed.perm.mem_iff.1 hj))]
      rfl
    unfold runTest
    rw [if_pos hm, if_neg (not_le.2 hw), hvalues]
    exact collectStats_of_summarizes (hs.perm (completed.perm.map value).symm)
  · rw [hs.clientsInError, List.countP_map]
    apply List.countP_congr
    intro j _
    simp only [Function.comp_apply, value]
    split <;> simp [*]
  · simpa only [hmem] using hs.minOfMaxes
  · simpa only [hmem] using hs.maxOfMaxes

end Report

/-! ## The two tests -/

section Accounting

variable [OrderBot T]

/-- **`test_get_flight_info` reports on its clients** whichever of them fail. -/
theorem testGetFlightInfo_reports {method : String} {nWorkers : Int} (nClients nRequests : Nat)
    (requests : Nat → Nat → Outcome T) (hm : method = "process" ∨ method = "thread") (hw : 0 < nWorkers) :
    Reports (testGetFlightInfo method nWorkers nClients nRequests requests)
      (fun i => FailedInfo nRequests (requests i)) (fun i => longest nRequests (requests i)) :=
  runTest_reports hm hw fun i _ => congrArg Except.ok (getFlightInfo_eq nRequests (requests i))

/-- **`test_do_put` reports on its clients only when none of them fails.**  If one finishes and another fails, it
raises the exception of a client that failed. -/
theorem testDoPut_reports_iff (method : String) (nWorkers : Int) (nClients nRequests : Nat)
    (requests : Nat → Nat → Outcome T) :
    Reports (testDoPut method nWorkers nClients nRequests requests) (fun i => Failed nRequests (requests i))
        (fun i => longest nRequests (requests i)) ↔
      (∀ i < nClients, Failed nRequests (requests i)) ∨
        ((method = "process" ∨ method = "thread") ∧ 0 < nWorkers ∧ ∀ i < nClients, ¬ Failed nRequests (requests i)) := by
  constructor
  · intro h
    by_cases hall : ∀ i < nClients, Failed nRequests (requests i)
    · exact .inl hall
    · push Not at hall
      obtain ⟨stats, htest, -⟩ := h hall
      obtain ⟨hm, hw, hclient⟩ := runTest_ok (htest ⟨List.range nClients, .refl _⟩)
      refine .inr ⟨hm, hw, fun i hi hfail => ?_⟩
      obtain ⟨e, he⟩ := doPut_of_failed hfail
      obtain ⟨value, hvalue⟩ := hclient i hi
      rw [he] at hvalue
      cases hvalue
  · rintro (hall | ⟨hm, hw, hnone⟩)
    · rintro ⟨i, hi, hfin⟩
      exact absurd (hall i hi) hfin
    · apply runTest_reports hm hw
      intro i hi
      rw [if_neg (hnone i hi), doPut_of_not_failed (hnone i hi)]
      rfl

end Accounting

/-- Two clients with a request each, the second of which is refused. -/
def oneRefused (i _ : Nat) : Outcome Nat := ⟨3, if i = 0 then none else some "failed to connect to all addresses"⟩

theorem testDoPut_raises : ¬ Reports (testDoPut "process" 10 2 1 oneRefused) (fun i => Failed 1 (oneRefused i))
    (fun i => longest 1 (oneRefused i)) := by
  intro h
  obtain ⟨stats, htest, -⟩ := h ⟨0, by decide, by decide⟩
  have hraise : testDoPut "process" 10 2 1 oneRefused ⟨[0, 1], .refl _⟩ =
      .error (.ofClient "failed to connect to all addresses") := by decide +kernel
  rw [htest] at hraise
  cases hraise

end StressClients
