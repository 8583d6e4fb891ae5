import FlightPlayground.Interleave
/-!
# Calls — programs that call a server and wait for its answers

A program calls, is answered and goes on with the answer; on the way it may note something, which no server sees.  What
it does is told twice: as the runs it has whatever the answers are, and as a thread of a server that serves its clients'
calls in steps, in any interleaving.
-/
namespace Calls

/-- `α r` is what a call `r` can be answered. -/
inductive Program (ρ : Type) (α : ρ → Type) (ω β : Type)
  | pure (b : β)
  | note (e : ω) (next : Program ρ α ω β)
  | call (r : ρ) (next : α r → Program ρ α ω β)

inductive Event (ρ : Type) (α : ρ → Type) (ω : Type)
  | note (e : ω)
  | call (r : ρ) (a : α r)

variable {ρ : Type} {α : ρ → Type} {ω β γ δ σ τ ι : Type}

namespace Program

def bind : Program ρ α ω β → (β → Program ρ α ω δ) → Program ρ α ω δ
  | pure b, f => f b
  | note e p, f => note e (p.bind f)
  | call r next, f => call r fun a => (next a).bind f

/-- What is noted one after another. -/
def notes (es : List ω) (p : Program ρ α ω β) : Program ρ α ω β := es.foldr note p

@[simp] theorem pure_bind (b : β) (f : β → Program ρ α ω δ) : (pure b).bind f = f b := rfl

@[simp] theorem note_bind (e : ω) (p : Program ρ α ω β) (f : β → Program ρ α ω δ) :
    (note e p).bind f = note e (p.bind f) := rfl

@[simp] theorem call_bind (r : ρ) (next : α r → Program ρ α ω β) (f : β → Program ρ α ω δ) :
    (call r next).bind f = call r fun a => (next a).bind f := rfl

/-! ## Runs -/

/-- The program can run so, answered as the events say. -/
inductive Runs : Program ρ α ω β → List (Event ρ α ω) → β → Prop
  | pure (b : β) : Runs (.pure b) [] b
  | note {e p es b} : Runs p es b → Runs (.note e p) (.note e :: es) b
  | call {r next a es b} : Runs (next a) es b → Runs (.call r next) (.call r a :: es) b

@[simp] theorem runs_pure {b c : β} {es : List (Event ρ α ω)} : Runs (pure b) es c ↔ es = [] ∧ b = c := by
  constructor
  · rintro ⟨⟩
    exact ⟨rfl, rfl⟩
  · rintro ⟨rfl, rfl⟩
    exact .pure b

@[simp] theorem runs_note {e : ω} {p : Program ρ α ω β} {es : List (Event ρ α ω)} {b : β} :
    Runs (note e p) es b ↔ ∃ es', es = .note e :: es' ∧ Runs p es' b := by
  constructor
  · rintro ⟨⟩
    exact ⟨_, rfl, ‹_›⟩
  · rintro ⟨es', rfl, h⟩
    exact .note h

@[simp] theorem runs_call {r : ρ} {next : α r → Program ρ α ω β} {es : List (Event ρ α ω)} {b : β} :
    Runs (call r next) es b ↔ ∃ a es', es = .call r a :: es' ∧ Runs (next a) es' b := by
  constructor
  · rintro ⟨⟩
    exact ⟨_, _, rfl, ‹_›⟩
  · rintro ⟨a, es', rfl, h⟩
    exact .call h

theorem runs_notes {p : Program ρ α ω β} {b : β} : ∀ {noted : List ω} {es : List (Event ρ α ω)},
    Runs (notes noted p) es b ↔ ∃ es', es = noted.map .note ++ es' ∧ Runs p es' b
  | [], es => by simp [notes]
  | e :: noted, es => by
    rw [notes, List.foldr_cons, runs_note]
    constructor
    · rintro ⟨es', rfl, h⟩
      obtain ⟨es'', rfl, h'⟩ := runs_notes.1 h
      exact ⟨es'', rfl, h'⟩
    · rintro ⟨es', rfl, h⟩
      exact ⟨noted.map .note ++ es', rfl, runs_notes.2 ⟨es', rfl, h⟩⟩

/-- **A program that goes on runs as the one and then as the other.** -/
theorem runs_bind {f : β → Program ρ α ω δ} {c : δ} : ∀ {p : Program ρ α ω β} {es : List (Event ρ α ω)},
    Runs (p.bind f) es c ↔ ∃ es₁ b es₂, es = es₁ ++ es₂ ∧ Runs p es₁ b ∧ Runs (f b) es₂ c
  | pure b, es => by
    constructor
    · exact fun h => ⟨[], b, es, rfl, .pure b, h⟩
    · rintro ⟨es₁, b', es₂, rfl, h₁, h₂⟩
      obtain ⟨rfl, rfl⟩ := runs_pure.1 h₁
      exact h₂
  | note e p, es => by
    rw [note_bind, runs_note]
    constructor
    · rintro ⟨es', rfl, h⟩
      obtain ⟨es₁, b, es₂, rfl, h₁, h₂⟩ := runs_bind.1 h
      exact ⟨.note e :: es₁, b, es₂, rfl, .note h₁, h₂⟩
    · rintro ⟨es₁, b, es₂, rfl, h₁, h₂⟩
      obtain ⟨es', rfl, hp⟩ := runs_note.1 h₁
      exact ⟨es' ++ es₂, rfl, runs_bind.2 ⟨es', b, es₂, rfl, hp, h₂⟩⟩
  | call r next, es => by
    rw [call_bind, runs_call]
    constructor
    · rintro ⟨a, es', rfl, h⟩
      obtain ⟨es₁, b, es₂, rfl, h₁, h₂⟩ := runs_bind.1 h
      exact ⟨.call r a :: es₁, b, es₂, rfl, .call h₁, h₂⟩
    · rintro ⟨es₁, b, es₂, rfl, h₁, h₂⟩
      obtain ⟨a, es', rfl, hnext⟩ := runs_call.1 h₁
      exact ⟨a, es' ++ es₂, rfl, runs_bind.2 ⟨es', b, es₂, rfl, hnext, h₂⟩⟩

end Program

/-! ## What a client can count on -/

/-- What a client may ask and be answered, by what it knows so far, and in how many steps at most. -/
structure Protocol (γ ρ : Type) (α : ρ → Type) where
  allowed : γ → ρ → Prop
  answers : γ → (r : ρ) → α r → γ → Prop
  cost : ρ → Nat

/-- The program keeps to the protocol, and if it is answered by it, ends in `post` within `n` steps. -/
def Safe (P : Protocol γ ρ α) (post : β → γ → Prop) : Program ρ α ω β → Nat → γ → Prop
  | .pure b, _, g => post b g
  | .note _ p, n, g => Safe P post p n g
  | .call r next, n, g =>
    P.allowed g r ∧ ∃ m, m + P.cost r < n ∧ ∀ a g', P.answers g r a g' → Safe P post (next a) m g'

section Safe

variable {P : Protocol γ ρ α} {m n : Nat}

theorem safe_notes {post : β → γ → Prop} {g : γ} {p : Program ρ α ω β} (noted : List ω) :
    Safe P post (.notes noted p) n g ↔ Safe P post p n g := by
  induction noted with
  | nil => rfl
  | cons e noted ih => exact ih

theorem Safe.mono {post : β → γ → Prop} {p : Program ρ α ω β} {g : γ} (hmn : m ≤ n) (h : Safe P post p m g) :
    Safe P post p n g := by
  induction p generalizing g with
  | pure b => exact h
  | note e p ih => exact ih h
  | call r next =>
    obtain ⟨hr, k, hk, hnext⟩ := h
    exact ⟨hr, k, by omega, hnext⟩

/-- **A program that goes on is safe when it goes on safely.** -/
theorem safe_bind {post : δ → γ → Prop} {f : β → Program ρ α ω δ} {p : Program ρ α ω β} {g : γ}
    (h : Safe P (fun b g' => Safe P post (f b) m g') p n g) : Safe P post (p.bind f) (n + m) g := by
  induction p generalizing g n with
  | pure b => exact Safe.mono (Nat.le_add_left m n) h
  | note e p ih => exact ih h
  | call r next ih =>
    obtain ⟨hr, k, hk, hnext⟩ := h
    exact ⟨hr, k + m, by omega, fun a g' hg' => ih a (hnext a g' hg')⟩

theorem Safe.imp {post post' : β → γ → Prop} (hpost : ∀ b g, post b g → post' b g) {p : Program ρ α ω β} {g : γ}
    (h : Safe P post p n g) : Safe P post' p n g := by
  induction p generalizing g n with
  | pure b => exact hpost b g h
  | note e p ih => exact ih h
  | call r next ih =>
    obtain ⟨hr, k, hk, hnext⟩ := h
    exact ⟨hr, k, hk, fun a g' hg' => ih a (hnext a g' hg')⟩

end Safe

/-! ## Clients of one server -/

/-- A server: what it makes of a call, how it serves it step by step, and when it has answered. -/
structure Server (σ ρ : Type) (α : ρ → Type) (τ : Type) where
  accept : ρ → τ
  step : σ → τ → σ × τ
  answer : (r : ρ) → τ → Option (α r)

inductive Thread (ρ : Type) (α : ρ → Type) (ω τ β : Type)
  | returned (b : β)
  | waiting (r : ρ) (t : τ) (next : α r → Program ρ α ω β)

namespace Thread

variable (server : Server σ ρ α τ)

/-- What the server makes of the call the thread waits for. -/
def serving : Thread ρ α ω τ β → Option τ
  | returned _ => none
  | waiting _ t _ => some t

/-- The thread at its next call, or at its end. -/
def ofProgram : Program ρ α ω β → Thread ρ α ω τ β
  | .pure b => returned b
  | .note _ p => ofProgram p
  | .call r next => waiting r (server.accept r) next

/-- The server takes a step of the call, or the client takes the answer. -/
def step (s : σ) : Thread ρ α ω τ β → σ × Thread ρ α ω τ β
  | returned b => (s, returned b)
  | waiting r t next =>
    match server.answer r t with
    | some a => (s, ofProgram server (next a))
    | none => ((server.step s t).1, waiting r (server.step s t).2 next)

theorem step_of_answer {s : σ} {r : ρ} {t : τ} {next : α r → Program ρ α ω β} {a : α r} (h : server.answer r t = some a) :
    step server s (waiting r t next) = (s, ofProgram server (next a)) := by
  rw [step, h]

theorem step_of_none {s : σ} {r : ρ} {t : τ} {next : α r → Program ρ α ω β} (h : server.answer r t = none) :
    step server s (waiting r t next) = ((server.step s t).1, waiting r (server.step s t).2 next) := by
  rw [step, h]

end Thread

/-- A server keeps to the protocol with each of its clients: `At` says where a call of a client may stand, and `Idle` what
holds between its calls.  The steps of one client's call leave both as they are for every other, and are less to take
with every one that is taken. -/
structure Contract (server : Server σ ρ α τ) (P : ι → Protocol γ ρ α) where
  Idle : ι → γ → σ → Prop
  At : ι → γ → ρ → σ → τ → Prop
  remaining : τ → Nat
  accept {i g r s} : Idle i g s → (P i).allowed g r →
    At i g r s (server.accept r) ∧ remaining (server.accept r) ≤ (P i).cost r
  step {i g r s t} : At i g r s t → server.answer r t = none →
    At i g r (server.step s t).1 (server.step s t).2 ∧ remaining (server.step s t).2 < remaining t
  answer {i g r s t a} : At i g r s t → server.answer r t = some a → ∃ g', (P i).answers g r a g' ∧ Idle i g' s
  idle_frame {i j g g' r s t} : i ≠ j → Idle i g s → At j g' r s t → Idle i g (server.step s t).1
  at_frame {i j g g' r r' s t t'} : i ≠ j → At i g r s t → At j g' r' s t' → At i g r (server.step s t').1 t

namespace Contract

variable {server : Server σ ρ α τ} {P : ι → Protocol γ ρ α} (C : Contract server P) (post : ι → β → γ → Prop)

/-- The client has ended well; or its call stands where it may, and the client will end well, in `n` steps from here. -/
def Good (n : Nat) (i : ι) (s : σ) : Thread ρ α ω τ β → Prop
  | .returned b => ∃ g, C.Idle i g s ∧ post i b g
  | .waiting r t next => ∃ g m, C.At i g r s t ∧ m + C.remaining t < n ∧
      ∀ a g', (P i).answers g r a g' → Safe (P i) (post i) (next a) m g'

variable {C post} {n : Nat} {i j : ι} {s : σ}

theorem Good.mono {m : Nat} (hmn : m ≤ n) {t : Thread ρ α ω τ β} (h : C.Good post m i s t) : C.Good post n i s t := by
  cases t with
  | returned b => exact h
  | waiting r t next =>
    obtain ⟨g, k, hat, hk, hnext⟩ := h
    exact ⟨g, k, hat, by omega, hnext⟩

theorem good_ofProgram {g : γ} (hidle : C.Idle i g s) {p : Program ρ α ω β} (h : Safe (P i) (post i) p n g) :
    C.Good post n i s (.ofProgram server p) := by
  induction p with
  | pure b => exact ⟨g, hidle, h⟩
  | note e p ih => exact ih h
  | call r next =>
    obtain ⟨hr, k, hk, hnext⟩ := h
    obtain ⟨hat, hcost⟩ := C.accept hidle hr
    exact ⟨g, k, hat, by omega, hnext⟩

/-- **A client that takes a step has one less to take.** -/
theorem Good.step {t : Thread ρ α ω τ β} (h : C.Good post n i s t) :
    C.Good post (n - 1) i (t.step server s).1 (t.step server s).2 := by
  cases t with
  | returned b => exact h
  | waiting r t next =>
    obtain ⟨g, k, hat, hk, hnext⟩ := h
    cases ha : server.answer r t with
    | some a =>
      rw [Thread.step_of_answer server ha]
      obtain ⟨g', hg', hidle⟩ := C.answer hat ha
      exact (good_ofProgram hidle (hnext a g' hg')).mono (by omega)
    | none =>
      rw [Thread.step_of_none server ha]
      obtain ⟨hat', hless⟩ := C.step hat ha
      exact ⟨g, k, hat', by omega, hnext⟩

theorem Good.frame {m : Nat} (hij : i ≠ j) {t t' : Thread ρ α ω τ β} (h : C.Good post n i s t)
    (h' : C.Good post m j s t') : C.Good post n i (t'.step server s).1 t := by
  cases t' with
  | returned b => exact h
  | waiting r' t' next' =>
    obtain ⟨g', -, hat', -⟩ := h'
    cases ha : server.answer r' t' with
    | some a => rwa [Thread.step_of_answer server ha]
    | none =>
      rw [Thread.step_of_none server ha]
      cases t with
      | returned b =>
        obtain ⟨g, hidle, hb⟩ := h
        exact ⟨g, C.idle_frame hij hidle hat', hb⟩
      | waiting r t next =>
        obtain ⟨g, k, hat, hk, hnext⟩ := h
        exact ⟨g, k, C.at_frame hij hat hat', hk, hnext⟩

variable [DecidableEq ι]

theorem step_good {c : Interleave.Pool ι σ (Thread ρ α ω τ β)} {n : ι → Nat} (h : ∀ i, C.Good post (n i) i c.shared (c.task i))
    (j i : ι) : C.Good post (n i - [j].count i) i (c.step (Thread.step server) j).shared
      ((c.step (Thread.step server) j).task i) := by
  by_cases hij : i = j
  · subst hij
    rw [Interleave.Pool.step_task_self, List.count_singleton_self]
    exact (h i).step
  · rw [Interleave.Pool.step_task_of_ne _ _ hij, List.count_singleton, if_neg (by simpa using Ne.symm hij)]
    exact (h i).frame hij (h j)

theorem run_good : ∀ (sched : List ι) {c : Interleave.Pool ι σ (Thread ρ α ω τ β)} {n : ι → Nat},
    (∀ i, C.Good post (n i) i c.shared (c.task i)) → ∀ i, C.Good post (n i - sched.count i) i
      (c.run (Thread.step server) sched).shared ((c.run (Thread.step server) sched).task i)
  | [], _, _, h, i => h i
  | j :: sched, c, n, h, i => by
    have hrun := run_good sched (step_good h j) i
    rwa [Nat.sub_sub, ← List.count_append] at hrun

/-- **What the steps of clients that keep to their protocols preserve, every run of theirs preserves.** -/
theorem run_invariant {I : Interleave.Pool ι σ (Thread ρ α ω τ β) → Prop} {n : ι → Nat}
    (hstep : ∀ c j, (∀ i, C.Good post (n i) i c.shared (c.task i)) → I c → I (c.step (Thread.step server) j))
    (sched : List ι) {c : Interleave.Pool ι σ (Thread ρ α ω τ β)} (h : ∀ i, C.Good post (n i) i c.shared (c.task i))
    (hI : I c) : I (c.run (Thread.step server) sched) := by
  refine (Interleave.Pool.run_invariant (I := fun c => (∀ i, C.Good post (n i) i c.shared (c.task i)) ∧ I c)
    (fun c j hc => ⟨fun i => (step_good hc.1 j i).mono (Nat.sub_le _ _), hstep c j hc.1 hc.2⟩) sched ⟨h, hI⟩).2

/-- **Clients that keep to their protocols end as they should**, in whatever interleaving a server that keeps to them
serves their calls: each of them has, once it has taken as many steps as its program takes at most. -/
theorem run_returns {c : Interleave.Pool ι σ (Thread ρ α ω τ β)} {n : ι → Nat}
    (h : ∀ i, C.Good post (n i) i c.shared (c.task i)) (sched : List ι) (i : ι) :
    (∀ b, (c.run (Thread.step server) sched).task i = .returned b →
        ∃ g, C.Idle i g (c.run (Thread.step server) sched).shared ∧ post i b g) ∧
      (n i ≤ sched.count i → ∃ b, (c.run (Thread.step server) sched).task i = .returned b) := by
  have hgood := run_good sched h i
  refine ⟨fun b hb => ?_, fun hn => ?_⟩
  · rwa [hb] at hgood
  · rw [Nat.sub_eq_zero_of_le hn] at hgood
    generalize (c.run (Thread.step server) sched).task i = t at hgood
    cases t with
    | returned b => exact ⟨b, rfl⟩
    | waiting r t next =>
      obtain ⟨-, k, -, hk, -⟩ := hgood
      exact absurd hk (Nat.not_lt_zero _)

end Contract
end Calls
