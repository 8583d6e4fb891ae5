import Mathlib.Logic.Function.Iterate
import Mathlib.Data.List.Induction
import FlightPlayground.Sequential
/-!
# Interleave — threads taking turns on one shared state

A pool is a shared state and, for every thread, where that thread stands.  A schedule is the list of the threads that
take a step, in order; one step function serves all threads, as what a thread does next is in its own position.
-/
namespace Interleave

structure Pool (ι σ τ : Type*) where
  shared : σ
  task : ι → τ

variable {ι σ τ : Type*} [DecidableEq ι]

def Pool.step (f : σ → τ → σ × τ) (c : Pool ι σ τ) (i : ι) : Pool ι σ τ :=
  ⟨(f c.shared (c.task i)).1, Function.update c.task i (f c.shared (c.task i)).2⟩

def Pool.run (f : σ → τ → σ × τ) (c : Pool ι σ τ) (sched : List ι) : Pool ι σ τ :=
  sched.foldl (Pool.step f) c

/-- Every step of the schedule, taken where the run has got to by then, meets `P`. -/
def Pool.AllSteps (f : σ → τ → σ × τ) (P : Pool ι σ τ → ι → Prop) : Pool ι σ τ → List ι → Prop
  | _, [] => True
  | c, i :: sched => P c i ∧ AllSteps f P (c.step f i) sched

namespace Pool

variable (f : σ → τ → σ × τ) (c : Pool ι σ τ)

@[simp] theorem step_shared (i : ι) : (c.step f i).shared = (f c.shared (c.task i)).1 := rfl

@[simp] theorem step_task_self (i : ι) : (c.step f i).task i = (f c.shared (c.task i)).2 :=
  Function.update_self i _ c.task

@[simp] theorem step_task_of_ne {i j : ι} (h : j ≠ i) : (c.step f i).task j = c.task j :=
  Function.update_of_ne h _ c.task

theorem forall_task_step {Q : ι → τ → Prop} {i : ι} (h : ∀ j, j ≠ i → Q j (c.task j)) (hi : Q i (f c.shared (c.task i)).2) :
    ∀ j, Q j ((c.step f i).task j) := fun j => by
  by_cases hj : j = i
  · subst hj
    rwa [step_task_self]
  · rw [step_task_of_ne f c hj]
    exact h j hj

@[simp] theorem run_nil : c.run f [] = c := rfl

@[simp] theorem run_cons (i : ι) (sched : List ι) : c.run f (i :: sched) = (c.step f i).run f sched := rfl

theorem run_append (s₁ s₂ : List ι) : c.run f (s₁ ++ s₂) = (c.run f s₁).run f s₂ :=
  List.foldl_append

theorem run_concat (sched : List ι) (i : ι) : c.run f (sched ++ [i]) = (c.run f sched).step f i := by
  rw [run_append]
  rfl

theorem run_task_of_notMem {i : ι} : ∀ {sched : List ι} (c : Pool ι σ τ), i ∉ sched → (c.run f sched).task i = c.task i
  | [], _, _ => rfl
  | j :: sched, c, h => by
    obtain ⟨hj, hs⟩ := List.ne_and_not_mem_of_not_mem_cons h
    rw [run_cons, run_task_of_notMem _ hs, step_task_of_ne f c hj]

variable {f}

/-- **What every step preserves, every run preserves.** -/
theorem run_invariant {I : Pool ι σ τ → Prop} (hstep : ∀ c i, I c → I (c.step f i)) :
    ∀ (sched : List ι) {c : Pool ι σ τ}, I c → I (c.run f sched)
  | [], _, h => h
  | i :: sched, c, h => run_invariant hstep sched (hstep c i h)

/-- **What every step that meets `P` preserves, every run of such steps preserves.** -/
theorem run_invariant_of_allSteps {I : Pool ι σ τ → Prop} {P : Pool ι σ τ → ι → Prop}
    (hstep : ∀ c i, I c → P c i → I (c.step f i)) :
    ∀ (sched : List ι) {c : Pool ι σ τ}, AllSteps f P c sched → I c → I (c.run f sched)
  | [], _, _, h => h
  | i :: sched, c, ⟨hp, hps⟩, h => run_invariant_of_allSteps hstep sched hps (hstep c i h hp)

/-- **A thread every step of which counts down has counted as far as it has taken steps.** -/
theorem run_countdown {I : Pool ι σ τ → Prop} (hI : ∀ c j, I c → I (c.step f j)) {m : τ → Nat} {i : ι}
    (hm : ∀ c, I c → m (f c.shared (c.task i)).2 ≤ m (c.task i) - 1) :
    ∀ (sched : List ι) {c : Pool ι σ τ}, I c → m ((c.run f sched).task i) ≤ m (c.task i) - sched.count i
  | [], c, _ => Nat.le_refl _
  | j :: sched, c, h => by
    have ih := run_countdown hI hm sched (hI c j h)
    rw [run_cons]
    by_cases hj : j = i
    · subst hj
      have := hm c h
      rw [step_task_self] at ih
      rw [List.count_cons_self]
      omega
    · rwa [step_task_of_ne f c (Ne.symm hj), ← List.count_cons_of_ne hj] at ih

theorem allSteps_iff {P : Pool ι σ τ → ι → Prop} : ∀ {sched : List ι} {c : Pool ι σ τ},
    AllSteps f P c sched ↔ ∀ pre i post, sched = pre ++ i :: post → P (c.run f pre) i
  | [], c => by simp [AllSteps]
  | i :: sched, c => by
    rw [AllSteps, allSteps_iff]
    constructor
    · rintro ⟨h, hs⟩ pre j post hcut
      cases pre with
      | nil =>
        obtain ⟨rfl, rfl⟩ := List.cons.inj hcut
        exact h
      | cons k pre =>
        obtain ⟨rfl, rfl⟩ := List.cons.inj hcut
        exact hs pre j post rfl
    · intro h
      exact ⟨h [] i sched rfl, fun pre j post hcut => h (i :: pre) j post (by rw [hcut]; rfl)⟩

theorem allSteps_append {P : Pool ι σ τ → ι → Prop} : ∀ {s₁ s₂ : List ι} {c : Pool ι σ τ},
    AllSteps f P c (s₁ ++ s₂) ↔ AllSteps f P c s₁ ∧ AllSteps f P (c.run f s₁) s₂
  | [], s₂, c => by simp [AllSteps]
  | i :: s₁, s₂, c => by
    rw [List.cons_append, AllSteps, AllSteps, run_cons, allSteps_append, and_assoc]

theorem AllSteps.imp {P Q : Pool ι σ τ → ι → Prop} (h : ∀ c i, P c i → Q c i) :
    ∀ {sched : List ι} {c : Pool ι σ τ}, AllSteps f P c sched → AllSteps f Q c sched
  | [], _, _ => trivial
  | _ :: _, _, ⟨hp, hps⟩ => ⟨h _ _ hp, hps.imp h⟩

theorem allSteps_of_threads {Q : ι → Prop} : ∀ {sched : List ι} {c : Pool ι σ τ}, (∀ i ∈ sched, Q i) →
    AllSteps f (fun _ i => Q i) c sched
  | [], _, _ => trivial
  | i :: _, _, h => ⟨h i List.mem_cons_self, allSteps_of_threads fun j hj => h j (List.mem_cons_of_mem _ hj)⟩

/-- **What a step brings about and no step takes back** is there after a run exactly when it was before, or one of the
run's steps has brought it about. -/
theorem run_iff_of_step {I L : Pool ι σ τ → Prop} {P : Pool ι σ τ → ι → Prop} (hI : ∀ c i, I c → I (c.step f i))
    (hL : ∀ c i, I c → (L (c.step f i) ↔ L c ∨ P c i)) :
    ∀ (sched : List ι) {c : Pool ι σ τ}, I c →
      (L (c.run f sched) ↔ L c ∨ ¬ AllSteps f (fun c i => ¬ P c i) c sched)
  | [], c, _ => by simp [AllSteps]
  | i :: sched, c, h => by
    rw [run_cons, run_iff_of_step hI hL sched (hI c i h), hL c i h, AllSteps]
    tauto

/-- **A schedule that takes a step of a kind has a last one.** -/
theorem exists_last_step {P : Pool ι σ τ → ι → Prop} (sched : List ι) (h : ¬ AllSteps f (fun c i => ¬ P c i) c sched) :
    ∃ pre i post, sched = pre ++ i :: post ∧ P (c.run f pre) i ∧
      AllSteps f (fun c i => ¬ P c i) ((c.run f pre).step f i) post := by
  induction sched using List.reverseRecOn with
  | nil => exact absurd trivial h
  | append_singleton sched i ih =>
    by_cases hi : P (c.run f sched) i
    · exact ⟨sched, i, [], rfl, hi, trivial⟩
    · rw [allSteps_append] at h
      obtain ⟨pre, j, post, rfl, hj, hpost⟩ := ih fun hs => h ⟨hs, hi, trivial⟩
      refine ⟨pre, j, post ++ [i], by simp, hj, allSteps_append.2 ⟨hpost, ?_, trivial⟩⟩
      rwa [run_append, run_cons] at hi

/-! ## Steps in either order -/

/-- **Two threads whose steps do the same whichever of them comes first** leave the pool the same. -/
theorem step_comm {c : Pool ι σ τ} {i j : ι} (hij : i ≠ j)
    (hs : (f (f c.shared (c.task i)).1 (c.task j)).1 = (f (f c.shared (c.task j)).1 (c.task i)).1)
    (hi : (f (f c.shared (c.task j)).1 (c.task i)).2 = (f c.shared (c.task i)).2)
    (hj : (f (f c.shared (c.task i)).1 (c.task j)).2 = (f c.shared (c.task j)).2) :
    (c.step f i).step f j = (c.step f j).step f i := by
  unfold step
  dsimp only
  rw [Function.update_of_ne hij.symm, Function.update_of_ne hij, hs, hi, hj, Function.update_comm hij]

/-- **Where the steps of different threads commute, only how often each thread has stepped matters.** -/
theorem run_perm {I : Pool ι σ τ → Prop} (hI : ∀ c i, I c → I (c.step f i))
    (hcomm : ∀ c i j, I c → i ≠ j → (c.step f i).step f j = (c.step f j).step f i) {s₁ s₂ : List ι} (h : s₁.Perm s₂) :
    ∀ {c : Pool ι σ τ}, I c → c.run f s₁ = c.run f s₂ := by
  induction h with
  | nil =>
    intro c _
    rfl
  | cons i _ ih =>
    intro c hc
    rw [run_cons, run_cons]
    exact ih (hI c i hc)
  | swap i j s =>
    intro c hc
    rw [run_cons, run_cons, run_cons, run_cons]
    by_cases hij : j = i
    · rw [hij]
    · rw [hcomm c j i hc hij]
  | trans _ _ ih₁ ih₂ =>
    intro c hc
    exact (ih₁ hc).trans (ih₂ hc)

/-! ## One thread on its own -/

def solo (f : σ → τ → σ × τ) (n : Nat) (s : σ) (t : τ) : σ × τ := (fun x => f x.1 x.2)^[n] (s, t)

theorem solo_succ (n : Nat) (s : σ) (t : τ) : solo f (n + 1) s t = solo f n (f s t).1 (f s t).2 := rfl

theorem solo_add (m n : Nat) (s : σ) (t : τ) : solo f (n + m) s t = solo f n (solo f m s t).1 (solo f m s t).2 :=
  Function.iterate_add_apply _ n m (s, t)

theorem solo_fixed {s : σ} {t : τ} (h : f s t = (s, t)) (n : Nat) : solo f n s t = (s, t) :=
  Function.iterate_fixed (f := fun x => f x.1 x.2) h n

/-- **A schedule of one thread is that thread alone**; the others stay where they were. -/
theorem run_replicate (i : ι) : ∀ (n : Nat) (c : Pool ι σ τ),
    c.run f (List.replicate n i) =
      ⟨(solo f n c.shared (c.task i)).1, Function.update c.task i (solo f n c.shared (c.task i)).2⟩
  | 0, c => by simp [solo]
  | n + 1, c => by
    rw [List.replicate_succ, run_cons, run_replicate i n, solo_succ]
    simp [step]

/-- Two threads' ends that no step leaves are one, if the thread is the same. -/
theorem solo_end {s s₁ s₂ : σ} {t t₁ t₂ : τ} {m n : Nat} (h₁ : solo f m s t = (s₁, t₁)) (h₂ : solo f n s t = (s₂, t₂))
    (he₁ : f s₁ t₁ = (s₁, t₁)) (he₂ : f s₂ t₂ = (s₂, t₂)) : (s₁, t₁) = (s₂, t₂) := by
  calc (s₁, t₁) = solo f n s₁ t₁ := (solo_fixed he₁ n).symm
    _ = solo f (n + m) s t := by rw [solo_add, h₁]
    _ = solo f m s₂ t₂ := by rw [Nat.add_comm, solo_add, h₂]
    _ = (s₂, t₂) := solo_fixed he₂ m

/-! ## Threads that do not see each other -/

section View

variable {V : Type*} (view : σ → V) (G : ι → Prop)

/-- The pools are alike in the part of the state that is viewed, and in where the threads of the group stand. -/
structure AgreeOn (c d : Pool ι σ τ) : Prop where
  view_eq : view c.shared = view d.shared
  task_eq : ∀ i, G i → c.task i = d.task i

omit [DecidableEq ι] in
theorem AgreeOn.refl (c : Pool ι σ τ) : AgreeOn view G c c := ⟨rfl, fun _ _ => rfl⟩

variable {G}

/-- **Threads that read and change one part of the state, which no other thread changes**, do the same when only they
take steps. -/
theorem run_filter [DecidablePred G] {I : Pool ι σ τ → Prop} (hI : ∀ c i, I c → I (c.step f i))
    (hin : ∀ c d i, I c → I d → G i → view c.shared = view d.shared → c.task i = d.task i →
      view (f c.shared (c.task i)).1 = view (f d.shared (d.task i)).1 ∧
        (f c.shared (c.task i)).2 = (f d.shared (d.task i)).2)
    (hout : ∀ c i, I c → ¬ G i → view (f c.shared (c.task i)).1 = view c.shared) :
    ∀ (sched : List ι) {c d : Pool ι σ τ}, I c → I d → AgreeOn view G c d →
      AgreeOn view G (c.run f sched) (d.run f (sched.filter G))
  | [], _, _, _, _, h => h
  | i :: sched, c, d, hc, hd, h => by
    rw [run_cons]
    by_cases hi : G i
    · rw [List.filter_cons_of_pos (by simpa using hi), run_cons]
      obtain ⟨hview, htask⟩ := hin c d i hc hd hi h.view_eq (h.task_eq i hi)
      refine run_filter hI hin hout sched (hI c i hc) (hI d i hd) ⟨hview, fun j hj => ?_⟩
      by_cases hji : j = i
      · subst hji
        rw [step_task_self, step_task_self, htask]
      · rw [step_task_of_ne f c hji, step_task_of_ne f d hji, h.task_eq j hj]
    · rw [List.filter_cons_of_neg (by simpa using hi)]
      refine run_filter hI hin hout sched (hI c i hc) hd ⟨(hout c i hc hi).trans h.view_eq, fun j hj => ?_⟩
      rw [step_task_of_ne f c (by rintro rfl; exact hi hj), h.task_eq j hj]

/-- **A thread whose part of the state no other thread changes** stands after a run where it would stand on its own. -/
theorem run_alone {I : Pool ι σ τ → Prop} (hI : ∀ c i, I c → I (c.step f i)) {i : ι}
    (hin : ∀ c d, I c → I d → view c.shared = view d.shared → c.task i = d.task i →
      view (f c.shared (c.task i)).1 = view (f d.shared (d.task i)).1 ∧
        (f c.shared (c.task i)).2 = (f d.shared (d.task i)).2)
    (hout : ∀ c j, I c → j ≠ i → view (f c.shared (c.task j)).1 = view c.shared) (sched : List ι) {c : Pool ι σ τ} (hc : I c) :
    view (c.run f sched).shared = view (solo f (sched.count i) c.shared (c.task i)).1 ∧
      (c.run f sched).task i = (solo f (sched.count i) c.shared (c.task i)).2 := by
  have h := run_filter view (G := (· = i)) hI (fun c d j hc hd hj => by subst hj; exact hin c d hc hd) hout sched hc hc
    (AgreeOn.refl _ _ c)
  rw [List.filter_eq, run_replicate] at h
  exact ⟨h.view_eq, (h.task_eq i rfl).trans (Function.update_self i _ c.task)⟩

/-- **Such a thread ends as it ends in any other run of the pool.** -/
theorem run_end {I : Pool ι σ τ → Prop} (hI : ∀ c i, I c → I (c.step f i)) {i : ι}
    (hin : ∀ c d, I c → I d → view c.shared = view d.shared → c.task i = d.task i →
      view (f c.shared (c.task i)).1 = view (f d.shared (d.task i)).1 ∧
        (f c.shared (c.task i)).2 = (f d.shared (d.task i)).2)
    (hout : ∀ c j, I c → j ≠ i → view (f c.shared (c.task j)).1 = view c.shared) {c : Pool ι σ τ} (hc : I c) {s₁ s₂ : List ι}
    (h₁ : ∀ s, f s ((c.run f s₁).task i) = (s, (c.run f s₁).task i))
    (h₂ : ∀ s, f s ((c.run f s₂).task i) = (s, (c.run f s₂).task i)) :
    view (c.run f s₁).shared = view (c.run f s₂).shared ∧ (c.run f s₁).task i = (c.run f s₂).task i := by
  obtain ⟨hv₁, ht₁⟩ := run_alone view hI hin hout s₁ hc
  obtain ⟨hv₂, ht₂⟩ := run_alone view hI hin hout s₂ hc
  rw [ht₁] at h₁
  rw [ht₂] at h₂
  have hend := solo_end (f := f) (s := c.shared) (t := c.task i) (m := s₁.count i) (n := s₂.count i) rfl rfl (h₁ _) (h₂ _)
  rw [hv₁, hv₂, ht₁, ht₂]
  exact ⟨congrArg (fun x => view x.1) hend, congrArg Prod.snd hend⟩

end View

/-! ## What a thread puts out -/

section Output

variable {ω : Type*} (out : σ → τ → List ω)

variable (f) in
/-- What the steps of one thread put out in a run, in their order. -/
def output (i : ι) : Pool ι σ τ → List ι → List ω
  | _, [] => []
  | c, j :: sched => (if j = i then out c.shared (c.task j) else []) ++ output i (c.step f j) sched

theorem output_append (i : ι) : ∀ (s₁ s₂ : List ι) (c : Pool ι σ τ),
    output f out i c (s₁ ++ s₂) = output f out i c s₁ ++ output f out i (c.run f s₁) s₂
  | [], _, _ => rfl
  | j :: s₁, s₂, c => by
    rw [List.cons_append, output, output, output_append i s₁ s₂, run_cons, List.append_assoc]

theorem output_concat_self (i : ι) (sched : List ι) (c : Pool ι σ τ) :
    output f out i c (sched ++ [i]) = output f out i c sched ++ out (c.run f sched).shared ((c.run f sched).task i) := by
  rw [output_append, output, if_pos rfl, output, List.append_nil]

theorem output_concat_of_ne {i j : ι} (h : j ≠ i) (sched : List ι) (c : Pool ι σ τ) :
    output f out i c (sched ++ [j]) = output f out i c sched := by
  rw [output_append, output, if_neg h, output, List.append_nil, List.append_nil]

/-- **What holds of where a thread stands and of what it has put out**, after every run, if it does at first, and after a
step of the thread and a step of another. -/
theorem output_induction {P : List ι → List ω → τ → Prop} {i : ι} {c : Pool ι σ τ} (hnil : P [] [] (c.task i))
    (hself : ∀ sched l, P sched l ((c.run f sched).task i) → P (sched ++ [i])
      (l ++ out (c.run f sched).shared ((c.run f sched).task i)) (f (c.run f sched).shared ((c.run f sched).task i)).2)
    (hother : ∀ sched l t j, j ≠ i → P sched l t → P (sched ++ [j]) l t) (sched : List ι) :
    P sched (output f out i c sched) ((c.run f sched).task i) := by
  induction sched using List.reverseRecOn with
  | nil => exact hnil
  | append_singleton sched j ih =>
    rw [run_concat]
    by_cases hj : j = i
    · subst hj
      rw [output_concat_self, step_task_self]
      exact hself _ _ ih
    · rw [output_concat_of_ne out hj, step_task_of_ne f _ (Ne.symm hj)]
      exact hother _ _ _ j hj ih

end Output

/-! ## One after another -/

/-- **To let every thread run to its end before the next one begins is a schedule**, whose outcome is that of a machine
which serves them in that order; `abs` is what the machine has for a state. -/
theorem exists_in_turn {β : Type*} (abs : σ → β) (serve : β → ι → τ × β) : ∀ {l : List ι} (_ : l.Nodup) {c : Pool ι σ τ},
    (∀ s, ∀ i ∈ l, ∃ n, (solo f n s (c.task i)).2 = (serve (abs s) i).1 ∧
      abs (solo f n s (c.task i)).1 = (serve (abs s) i).2) →
    ∃ sched, (l.map (c.run f sched).task, abs (c.run f sched).shared) = Sequential.run serve (abs c.shared) l ∧
      ∀ i ∉ l, (c.run f sched).task i = c.task i
  | [], _, c, _ => ⟨[], rfl, fun _ _ => rfl⟩
  | i :: l, hl, c, hserve => by
    obtain ⟨hi, hl⟩ := List.nodup_cons.1 hl
    obtain ⟨n, htask, habs⟩ := hserve c.shared i List.mem_cons_self
    have hfirst := run_replicate (f := f) i n c
    have hother : ∀ j, j ≠ i → (c.run f (List.replicate n i)).task j = c.task j := fun j hj => by
      rw [hfirst]
      exact Function.update_of_ne hj _ _
    obtain ⟨sched, heq, hkept⟩ := exists_in_turn abs serve hl (c := c.run f (List.replicate n i)) fun s j hj => by
      rw [hother j (by rintro rfl; exact hi hj)]
      exact hserve s j (List.mem_cons_of_mem _ hj)
    refine ⟨List.replicate n i ++ sched, ?_, fun j hj => ?_⟩
    · have htask' : (c.run f (List.replicate n i)).task i = (serve (abs c.shared) i).1 := by
        rw [hfirst, ← htask]
        exact Function.update_self i _ c.task
      have habs' : abs (c.run f (List.replicate n i)).shared = (serve (abs c.shared) i).2 := by rw [hfirst, ← habs]
      rw [run_append, Sequential.run, List.map_cons, hkept i hi, htask', ← habs', ← heq]
    · obtain ⟨hji, hjl⟩ := List.ne_and_not_mem_of_not_mem_cons hj
      rw [run_append, hkept j hjl, hother j hji]

end Pool

/-- Two threads taking turns. -/
def turns (n : Nat) : List Bool := (List.replicate n [true, false]).flatten

theorem count_turns (b : Bool) : ∀ n : Nat, (turns n).count b = n
  | 0 => rfl
  | n + 1 => by
    have hcons : turns (n + 1) = true :: false :: turns n := rfl
    rw [hcons]
    cases b
    · rw [List.count_cons_of_ne (by decide), List.count_cons_self, count_turns false n]
    · rw [List.count_cons_self, List.count_cons_of_ne (by decide), count_turns true n]

end Interleave
