import Mathlib.Data.List.Basic
/-!
# Sequential — a machine that answers one request after another

A step takes the state and a request, and gives the answer and the next state.  A machine refines another when one step
of each, from related states, answers alike and leaves them related; so do whole runs.
-/
namespace Sequential

variable {σ τ ρ α β : Type*}

/-- The answers to a sequence of requests, and the state it leaves. -/
def run (step : σ → ρ → α × σ) : σ → List ρ → List α × σ
  | s, [] => ([], s)
  | s, r :: rs => ((step s r).1 :: (run step (step s r).2 rs).1, (run step (step s r).2 rs).2)

variable {step : σ → ρ → α × σ} {spec : τ → ρ → β × τ} {obs : α → β} {R : σ → τ → Prop} {A : ρ → Prop}

/-- **A step that answers as the abstract step and keeps the relation makes runs that do.** -/
theorem run_refines (hstep : ∀ s t r, R s t → A r → obs (step s r).1 = (spec t r).1 ∧ R (step s r).2 (spec t r).2) :
    ∀ (rs : List ρ) {s : σ} {t : τ}, R s t → (∀ r ∈ rs, A r) →
      (run step s rs).1.map obs = (run spec t rs).1 ∧ R (run step s rs).2 (run spec t rs).2
  | [], _, _, hR, _ => ⟨rfl, hR⟩
  | r :: rs, s, t, hR, hA => by
    obtain ⟨hobs, hR'⟩ := hstep s t r hR (hA r List.mem_cons_self)
    obtain ⟨hobs', hR''⟩ := run_refines hstep rs hR' fun r' hr' => hA r' (List.mem_cons_of_mem _ hr')
    refine ⟨?_, hR''⟩
    rw [run, run, List.map_cons, hobs, hobs']

/-- **What every step preserves, every run preserves.** -/
theorem run_invariant {I : σ → Prop} (hI : ∀ s r, I s → I (step s r).2) : ∀ (rs : List ρ) {s : σ}, I s → I (run step s rs).2
  | [], _, h => h
  | r :: rs, s, h => run_invariant hI rs (hI s r h)

theorem forall_mem_run {P : α → Prop} : ∀ {rs : List ρ} (s : σ), (∀ s, ∀ r ∈ rs, P (step s r).1) → ∀ a ∈ (run step s rs).1, P a
  | [], _, _, _, h => absurd h List.not_mem_nil
  | r :: rs, s, hP, a, h => by
    rcases List.mem_cons.1 h with rfl | h
    · exact hP s r List.mem_cons_self
    · exact forall_mem_run _ (fun s r' hr' => hP s r' (List.mem_cons_of_mem _ hr')) a h

end Sequential
