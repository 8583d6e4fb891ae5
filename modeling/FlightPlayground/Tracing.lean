import FlightPlayground.Calls
/-!
# Tracing — the spans of a program that calls servers

A span is started under the current span, is noted on and ended; a call has a span of its own, which its headers carry
to the server.  `Traces` is what a program of such blocks leaves behind, whatever it is answered, and `replay` reads it
with a stack of the spans that are open.
-/
namespace Tracing

open Calls

inductive StatusCode
  | OK
  | ERROR
  deriving DecidableEq

inductive Value
  | int (n : Int)
  | str (s : List UInt8)
  deriving DecidableEq

inductive SpanEvent (ε : Type)
  | started (span : Nat) (parent : Option Nat) (name : String)
  | attributeSet (span : Nat) (key : String) (value : Value)
  | exception (span : Nat) (e : ε)
  | status (span : Nat) (code : StatusCode)
  | ended (span : Nat)

/-- The event is a note on the span, which it neither starts nor ends. -/
def SpanEvent.On {ε : Type} (span : Nat) : SpanEvent ε → Prop
  | attributeSet s _ _ => s = span
  | exception s _ => s = span
  | status s _ => s = span
  | _ => False

/-- The exceptions that are recorded, and on which spans. -/
def recorded {ε : Type} (es : List (SpanEvent ε)) : List (Nat × ε) :=
  es.filterMap fun
    | .exception span e => some (span, e)
    | _ => none

/-- A call as it is sent: its headers carry a span. -/
structure Sent (ρ : Type) where
  span : Nat
  request : ρ

abbrev Sent.Answer {ρ : Type} (α : ρ → Type) (sent : Sent ρ) : Type := α sent.request

structure Tracer where
  next : Nat
  current : Option Nat

/-- What is done to a call: its span has a name, and is noted on and ended when the call is completed. -/
structure Middleware (ρ ε : Type) where
  spanName : ρ → String
  callCompleted : Nat → Option ε → List (SpanEvent ε)
  ends : ∀ span e, ∃ noted, callCompleted span e = noted ++ [.ended span] ∧ ∀ x ∈ noted, x.On span
  records : ∀ span e, recorded (callCompleted span e) = e.toList.map (span, ·)

variable {ρ : Type} {α : ρ → Type} {ε β γ δ : Type}

/-- What a traced program does: it notes something on a span, or calls. -/
abbrev Step (α : ρ → Type) (ε : Type) : Type := Event (Sent ρ) (Sent.Answer α) (SpanEvent ε)

/-- A program that raises or returns, and has the tracer with it. -/
def Traced (ρ : Type) (α : ρ → Type) (ε β : Type) : Type :=
  Tracer → Program (Sent ρ) (Sent.Answer α) (SpanEvent ε) (Except ε β × Tracer)

namespace Traced

def ret (b : β) : Traced ρ α ε β := fun tracer => .pure (.ok b, tracer)

def bind (m : Traced ρ α ε β) (f : β → Traced ρ α ε δ) : Traced ρ α ε δ := fun tracer =>
  (m tracer).bind fun x =>
    match x with
    | (.ok b, tracer) => f b tracer
    | (.error e, tracer) => .pure (.error e, tracer)

instance : Monad (Traced ρ α ε) where
  pure := ret
  bind := bind

def raise (e : ε) : Traced ρ α ε β := fun tracer => .pure (.error e, tracer)

/-- `span.set_attribute(key, value)`. -/
def setAttribute (span : Nat) (key : String) (value : Value) : Traced ρ α ε Unit := fun tracer =>
  .note (.attributeSet span key value) (.pure (.ok (), tracer))

/-- `with tracer.start_as_current_span(name) as span`: the span is ended in any case, after the context is what it was;
an exception that leaves it is recorded and goes on. -/
def startAsCurrentSpan (name : String) (body : Nat → Traced ρ α ε β) : Traced ρ α ε β := fun tracer =>
  .note (.started tracer.next tracer.current name) <|
    (body tracer.next ⟨tracer.next + 1, some tracer.next⟩).bind fun x =>
      match x with
      | (.ok b, after) => .note (.ended tracer.next) (.pure (.ok b, ⟨after.next, tracer.current⟩))
      | (.error e, after) =>
        .notes [.exception tracer.next e, .status tracer.next .ERROR, .ended tracer.next]
          (.pure (.error e, ⟨after.next, tracer.current⟩))

/-- A call: the middleware starts its span, puts it into the headers, and ends it when the call is completed. -/
def rpc (mw : Middleware ρ ε) (r : ρ) (outcome : α r → Except ε β) : Traced ρ α ε β := fun tracer =>
  .note (.started tracer.next tracer.current (mw.spanName r)) <|
    .call ⟨tracer.next, r⟩ fun a =>
      match outcome a with
      | .ok b => .notes (mw.callCompleted tracer.next none) (.pure (.ok b, ⟨tracer.next + 1, tracer.current⟩))
      | .error e => .notes (mw.callCompleted tracer.next (some e)) (.pure (.error e, ⟨tracer.next + 1, tracer.current⟩))

end Traced

/-! ## What a traced program leaves behind -/

/-- Under the span `p`, from the first fresh span `n`, the events leave `m` as the first fresh one and an exception, if
one is raised: after it nothing is done but to record it on the spans it leaves, and to end them. -/
inductive Traces (mw : Middleware ρ ε) :
    Option Nat → Nat → List (Step α ε) → Nat → Option ε → Prop
  | done {p n} : Traces mw p n [] n none
  | raised {p n e} : Traces mw p n [] n (some e)
  | noted {span n key value es m o} : Traces mw (some span) n es m o →
      Traces mw (some span) n (.note (.attributeSet span key value) :: es) m o
  | span {p n name body m es k o} : Traces mw (some n) (n + 1) body m none → Traces mw p m es k o →
      Traces mw p n (.note (.started n p name) :: (body ++ .note (.ended n) :: es)) k o
  | spanRaised {p n name body m e} : Traces mw (some n) (n + 1) body m (some e) →
      Traces mw p n (.note (.started n p name) ::
        (body ++ [.note (.exception n e), .note (.status n .ERROR), .note (.ended n)])) m (some e)
  | call {p n r a es k o} : Traces mw p (n + 1) es k o →
      Traces mw p n (.note (.started n p (mw.spanName r)) :: .call ⟨n, r⟩ a ::
        ((mw.callCompleted n none).map .note ++ es)) k o
  | callRaised {p n r a e} :
      Traces mw p n (.note (.started n p (mw.spanName r)) :: .call ⟨n, r⟩ a ::
        (mw.callCompleted n (some e)).map .note) (n + 1) (some e)

section Traces

variable {mw : Middleware ρ ε} {p : Option Nat} {n m k : Nat} {es es' : List (Step α ε)}
  {o : Option ε}

theorem Traces.append (h : Traces mw p n es m none) (h' : Traces mw p m es' k o) : Traces mw p n (es ++ es') k o := by
  generalize ho : (none : Option ε) = o' at h
  induction h with
  | done => exact h'
  | raised => cases ho
  | noted _ ih => exact .noted (ih h' ho)
  | span hbody _ _ ih =>
    rw [List.cons_append, List.append_assoc, List.cons_append]
    exact .span hbody (ih h' ho)
  | spanRaised => cases ho
  | call _ ih =>
    rw [List.cons_append, List.cons_append, List.append_assoc]
    exact .call (ih h' ho)
  | callRaised => cases ho

/-! ## Programs -/

def error? : Except ε β → Option ε
  | .ok _ => none
  | .error e => some e

/-- What is noted on a block's span when it is left. -/
def left (span : Nat) : Option ε → List (SpanEvent ε)
  | none => [.ended span]
  | some e => [.exception span e, .status span .ERROR, .ended span]

namespace Traced

variable {tracer tracer' : Tracer}

theorem runs_ret {x result : Except ε β}
    (h : (Program.pure (x, tracer) : Program (Sent ρ) (Sent.Answer α) (SpanEvent ε) _).Runs es (result, tracer')) :
    es = [] ∧ x = result ∧ tracer = tracer' := by
  obtain ⟨rfl, heq⟩ := Program.runs_pure.1 h
  exact ⟨rfl, Prod.mk.inj heq⟩

/-- **A program that goes on raises at once, or runs and then goes on.** -/
theorem runs_bind {m : Traced ρ α ε β} {f : β → Traced ρ α ε δ} {result : Except ε δ}
    (h : ((m >>= f) tracer).Runs es (result, tracer')) :
    (∃ e, result = .error e ∧ (m tracer).Runs es (.error e, tracer')) ∨
      ∃ es₁ b tracer₁ es₂, es = es₁ ++ es₂ ∧ (m tracer).Runs es₁ (.ok b, tracer₁) ∧
        (f b tracer₁).Runs es₂ (result, tracer') := by
  obtain ⟨es₁, ⟨result₁, tracer₁⟩, es₂, rfl, h₁, h₂⟩ := Program.runs_bind.1 h
  cases result₁ with
  | error e =>
    obtain ⟨rfl, rfl, rfl⟩ := runs_ret h₂
    rw [List.append_nil]
    exact .inl ⟨e, rfl, h₁⟩
  | ok b => exact .inr ⟨es₁, b, tracer₁, es₂, rfl, h₁, h₂⟩

theorem runs_setAttribute {span : Nat} {key : String} {value : Value} {result : Except ε Unit}
    (h : ((setAttribute span key value : Traced ρ α ε Unit) tracer).Runs es (result, tracer')) :
    es = [.note (.attributeSet span key value)] ∧ .ok () = result ∧ tracer = tracer' := by
  obtain ⟨es', rfl, hdone⟩ := Program.runs_note.1 h
  obtain ⟨rfl, hrest⟩ := runs_ret hdone
  exact ⟨rfl, hrest⟩

/-- **A block starts its span, runs under it, and notes on it how it is left.** -/
theorem runs_startAsCurrentSpan {name : String} {body : Nat → Traced ρ α ε β} {result : Except ε β}
    (h : (startAsCurrentSpan name body tracer).Runs es (result, tracer')) : ∃ es₁ after,
      (body tracer.next ⟨tracer.next + 1, some tracer.next⟩).Runs es₁ (result, after) ∧
      tracer' = ⟨after.next, tracer.current⟩ ∧
      es = .note (.started tracer.next tracer.current name) :: (es₁ ++ (left tracer.next (error? result)).map .note) := by
  obtain ⟨es', rfl, hbody⟩ := Program.runs_note.1 h
  obtain ⟨es₁, ⟨result₁, after⟩, es₂, rfl, h₁, h₂⟩ := Program.runs_bind.1 hbody
  cases result₁ with
  | error e =>
    obtain ⟨es₃, rfl, h₃⟩ := Program.runs_notes.1 h₂
    obtain ⟨rfl, rfl, rfl⟩ := runs_ret h₃
    exact ⟨es₁, after, h₁, rfl, rfl⟩
  | ok b =>
    obtain ⟨es₃, rfl, h₃⟩ := Program.runs_note.1 h₂
    obtain ⟨rfl, rfl, rfl⟩ := runs_ret h₃
    exact ⟨es₁, after, h₁, rfl, rfl⟩

/-- **A call starts its span, is sent with it, and has it completed** as it is answered. -/
theorem runs_rpc {mw : Middleware ρ ε} {r : ρ} {outcome : α r → Except ε β} {result : Except ε β}
    (h : (rpc mw r outcome tracer).Runs es (result, tracer')) : ∃ a, outcome a = result ∧
      tracer' = ⟨tracer.next + 1, tracer.current⟩ ∧
      es = .note (.started tracer.next tracer.current (mw.spanName r)) :: .call ⟨tracer.next, r⟩ a ::
        (mw.callCompleted tracer.next (error? result)).map .note := by
  obtain ⟨es₁, rfl, h₁⟩ := Program.runs_note.1 h
  obtain ⟨a, es₂, rfl, h₂⟩ := Program.runs_call.1 h₁
  refine ⟨a, ?_⟩
  cases ha : outcome a with
  | error e =>
    rw [ha] at h₂
    obtain ⟨es₃, rfl, h₃⟩ := Program.runs_notes.1 h₂
    obtain ⟨rfl, rfl, rfl⟩ := runs_ret h₃
    exact ⟨rfl, rfl, by rw [List.append_nil]; rfl⟩
  | ok b =>
    rw [ha] at h₂
    obtain ⟨es₃, rfl, h₃⟩ := Program.runs_notes.1 h₂
    obtain ⟨rfl, rfl, rfl⟩ := runs_ret h₃
    exact ⟨rfl, rfl, by rw [List.append_nil]; rfl⟩

end Traced

/-- Whatever it is answered, the program restores the context and leaves such a trace behind. -/
def WellTraced (mw : Middleware ρ ε) (p : Option Nat) (prog : Traced ρ α ε β) : Prop :=
  ∀ n es result tracer, (prog ⟨n, p⟩).Runs es (result, tracer) →
    tracer.current = p ∧ Traces mw p n es tracer.next (error? result)

namespace WellTraced

theorem pure (b : β) : WellTraced mw p (Pure.pure b : Traced ρ α ε β) := by
  intro n es result tracer h
  obtain ⟨rfl, rfl, rfl⟩ := Traced.runs_ret h
  exact ⟨rfl, .done⟩

theorem raise (e : ε) : WellTraced mw p (.raise e : Traced ρ α ε β) := by
  intro n es result tracer h
  obtain ⟨rfl, rfl, rfl⟩ := Traced.runs_ret h
  exact ⟨rfl, .raised⟩

/-- **What is well traced goes on well traced.** -/
theorem bind {prog : Traced ρ α ε β} {f : β → Traced ρ α ε δ} (h : WellTraced mw p prog) (hf : ∀ b, WellTraced mw p (f b)) :
    WellTraced mw p (prog >>= f) := by
  intro n es result tracer hrun
  obtain ⟨e, rfl, h₁⟩ | ⟨es₁, b, ⟨next, current⟩, es₂, rfl, h₁, h₂⟩ := Traced.runs_bind hrun
  · exact h n es (.error e) tracer h₁
  · obtain ⟨hcurrent, htraces⟩ := h n es₁ (.ok b) ⟨next, current⟩ h₁
    obtain rfl : current = p := hcurrent
    obtain ⟨hcurrent', htraces'⟩ := hf b next es₂ result tracer h₂
    exact ⟨hcurrent', htraces.append htraces'⟩

theorem setAttribute (span : Nat) (key : String) (value : Value) :
    WellTraced mw (some span) (.setAttribute span key value : Traced ρ α ε Unit) := by
  intro n es result tracer hrun
  obtain ⟨rfl, rfl, rfl⟩ := Traced.runs_setAttribute hrun
  exact ⟨rfl, .noted .done⟩

theorem startAsCurrentSpan {name : String} {body : Nat → Traced ρ α ε β}
    (h : ∀ span, WellTraced mw (some span) (body span)) : WellTraced mw p (.startAsCurrentSpan name body) := by
  intro n es result tracer hrun
  obtain ⟨es₁, after, hbody, rfl, rfl⟩ := Traced.runs_startAsCurrentSpan hrun
  obtain ⟨-, htraces⟩ := h n (n + 1) es₁ result after hbody
  cases result with
  | error e => exact ⟨rfl, .spanRaised htraces⟩
  | ok b => exact ⟨rfl, .span htraces .done⟩

theorem rpc (r : ρ) (outcome : α r → Except ε β) : WellTraced mw p (.rpc mw r outcome) := by
  intro n es result tracer hrun
  obtain ⟨a, -, rfl, rfl⟩ := Traced.runs_rpc hrun
  cases result with
  | error e => exact ⟨rfl, .callRaised⟩
  | ok b =>
    have hdone : Traces mw p n (.note (.started n p (mw.spanName r)) :: .call ⟨n, r⟩ a ::
        ((mw.callCompleted n none).map .note ++ [])) (n + 1) none := .call .done
    rw [List.append_nil] at hdone
    exact ⟨rfl, hdone⟩

end WellTraced

/-! ## Reading a trace -/

/-- The spans that are open, innermost first, after an event: a span starts under the innermost, and only that one is
noted on, ended, or sent with a call, whose name it has. -/
def replay (mw : Middleware ρ ε) (opened : List (Nat × String)) :
    Step α ε → Option (List (Nat × String))
  | .note (.started span parent name) => if parent = opened.head?.map Prod.fst then some ((span, name) :: opened) else none
  | .note (.ended span) => if opened.head?.map Prod.fst = some span then some opened.tail else none
  | .note (.attributeSet span _ _) => if opened.head?.map Prod.fst = some span then some opened else none
  | .note (.exception span _) => if opened.head?.map Prod.fst = some span then some opened else none
  | .note (.status span _) => if opened.head?.map Prod.fst = some span then some opened else none
  | .call sent _ => if opened.head? = some (sent.span, mw.spanName sent.request) then some opened else none

section Replay

variable {opened : List (Nat × String)} {span : Nat} {name : String}

theorem replay_started (h : opened.head?.map Prod.fst = p) :
    replay mw opened (.note (.started span p name) : Step α ε) = some ((span, name) :: opened) := if_pos h.symm

theorem replay_attributeSet (h : opened.head?.map Prod.fst = some span) (key : String) (value : Value) :
    replay mw opened (.note (.attributeSet span key value) : Step α ε) = some opened := if_pos h

theorem replay_exception (e : ε) :
    replay mw ((span, name) :: opened) (.note (.exception span e) : Step α ε) = some ((span, name) :: opened) :=
  if_pos rfl

theorem replay_status (code : StatusCode) :
    replay mw ((span, name) :: opened) (.note (.status span code) : Step α ε) = some ((span, name) :: opened) :=
  if_pos rfl

theorem replay_ended : replay mw ((span, name) :: opened) (.note (.ended span) : Step α ε) = some opened :=
  if_pos rfl

theorem replay_call (r : ρ) (a : α r) :
    replay mw ((span, mw.spanName r) :: opened) (.call ⟨span, r⟩ a) = some ((span, mw.spanName r) :: opened) := if_pos rfl

theorem foldlM_of_some {event : Step α ε} {opened' : List (Nat × String)}
    (h : replay mw opened event = some opened') : (event :: es).foldlM (replay mw) opened = es.foldlM (replay mw) opened' := by
  rw [List.foldlM_cons, h]
  rfl

theorem foldlM_append_of_some {opened' : List (Nat × String)} (h : es.foldlM (replay mw) opened = some opened') :
    (es ++ es').foldlM (replay mw) opened = es'.foldlM (replay mw) opened' := by
  rw [List.foldlM_append, h]
  rfl

end Replay

def started (es : List (Step α ε)) : List Nat :=
  es.filterMap fun
    | .note (.started span _ _) => some span
    | _ => none

/-- The exceptions that are recorded in the events. -/
def raisedOn (es : List (Step α ε)) : List (Nat × ε) :=
  recorded (es.filterMap fun
    | .note e => some e
    | .call _ _ => none)

section Reading

variable (span : Nat) (parent : Option Nat) (name key : String) (value : Value) (e : ε) (code : StatusCode)
  (sent : Sent ρ) (a : sent.Answer α)

@[simp] theorem started_started : started (.note (.started span parent name) :: es) = span :: started es := rfl
@[simp] theorem started_attributeSet : started (.note (.attributeSet span key value) :: es) = started es := rfl
@[simp] theorem started_exception : started (.note (.exception span e) :: es) = started es := rfl
@[simp] theorem started_status : started (.note (.status span code) :: es) = started es := rfl
@[simp] theorem started_ended : started (.note (.ended span) :: es) = started es := rfl
@[simp] theorem started_call : started (.call sent a :: es) = started es := rfl

@[simp] theorem raisedOn_started : raisedOn (.note (.started span parent name) :: es) = raisedOn es := rfl
@[simp] theorem raisedOn_attributeSet : raisedOn (.note (.attributeSet span key value) :: es) = raisedOn es := rfl
@[simp] theorem raisedOn_exception : raisedOn (.note (.exception span e) :: es) = (span, e) :: raisedOn es := rfl
@[simp] theorem raisedOn_status : raisedOn (.note (.status span code) :: es) = raisedOn es := rfl
@[simp] theorem raisedOn_ended : raisedOn (.note (.ended span) :: es) = raisedOn es := rfl
@[simp] theorem raisedOn_call : raisedOn (.call sent a :: es) = raisedOn es := rfl

end Reading

@[simp] theorem started_nil : started ([] : List (Step α ε)) = [] := rfl
@[simp] theorem raisedOn_nil : raisedOn ([] : List (Step α ε)) = [] := rfl

@[simp] theorem started_append : started (es ++ es') = started es ++ started es' := List.filterMap_append

@[simp] theorem raisedOn_append : raisedOn (es ++ es') = raisedOn es ++ raisedOn es' := by
  unfold raisedOn recorded
  rw [List.filterMap_append, List.filterMap_append]

@[simp] theorem raisedOn_notes (noted : List (SpanEvent ε)) :
    raisedOn (noted.map .note : List (Step α ε)) = recorded noted := by
  unfold raisedOn
  rw [List.filterMap_map]
  exact congrArg recorded List.filterMap_some

theorem replay_notes {span : Nat} {name : String} {opened : List (Nat × String)} : ∀ {noted : List (SpanEvent ε)},
    (∀ x ∈ noted, x.On span) →
      (noted.map .note : List (Step α ε)).foldlM (replay mw) ((span, name) :: opened) =
        some ((span, name) :: opened)
  | [], _ => rfl
  | e :: noted, h => by
    have hrest : (noted.map .note : List (Step α ε)).foldlM (replay mw) ((span, name) :: opened) =
        some ((span, name) :: opened) := replay_notes fun x hx => h x (List.mem_cons_of_mem e hx)
    have he := h e List.mem_cons_self
    rw [List.map_cons]
    cases e with
    | started => exact he.elim
    | ended => exact he.elim
    | attributeSet s key value =>
      obtain rfl : s = span := he
      rwa [foldlM_of_some (replay_attributeSet rfl key value)]
    | exception s x =>
      obtain rfl : s = span := he
      rwa [foldlM_of_some (replay_exception x)]
    | status s code =>
      obtain rfl : s = span := he
      rwa [foldlM_of_some (replay_status code)]

/-- **A completed call has ended its span**, and no other. -/
theorem replay_callCompleted (span : Nat) (name : String) (opened : List (Nat × String)) (e : Option ε) :
    ((mw.callCompleted span e).map .note : List (Step α ε)).foldlM (replay mw)
      ((span, name) :: opened) = some opened := by
  obtain ⟨noted, heq, hon⟩ := mw.ends span e
  rw [heq, List.map_append, foldlM_append_of_some (replay_notes hon)]
  exact foldlM_of_some replay_ended

theorem started_notes {span : Nat} {noted : List (SpanEvent ε)} (h : ∀ x ∈ noted, x.On span) :
    started (noted.map .note : List (Step α ε)) = [] := by
  unfold started
  rw [List.filterMap_map, List.filterMap_eq_nil_iff]
  intro x hx
  cases x with
  | started => exact (h _ hx).elim
  | _ => rfl

@[simp] theorem started_callCompleted (span : Nat) (e : Option ε) :
    started ((mw.callCompleted span e).map .note : List (Step α ε)) = [] := by
  obtain ⟨noted, heq, hon⟩ := mw.ends span e
  rw [heq, List.map_append, started_append, started_notes hon]
  rfl

namespace Traces

theorem le (h : Traces mw p n es m o) : n ≤ m := by
  induction h with
  | done => exact Nat.le_refl _
  | raised => exact Nat.le_refl _
  | noted _ ih => exact ih
  | span _ _ ih₁ ih₂ => omega
  | spanRaised _ ih => omega
  | call _ ih => omega
  | callRaised => omega

theorem range'_cut {n m k : Nat} (hnm : n ≤ m) (hmk : m ≤ k) :
    List.range' n (k - n) = List.range' n (m - n) ++ List.range' m (k - m) := by
  have hcut : k - n = (m - n) + (k - m) := by omega
  have hm : n + (m - n) = m := by omega
  rw [hcut, ← List.range'_append_1, hm]

theorem range'_succ_cut {n k : Nat} (h : n + 1 ≤ k) : List.range' n (k - n) = n :: List.range' (n + 1) (k - (n + 1)) := by
  have hcut : k - n = k - (n + 1) + 1 := by omega
  rw [hcut, List.range'_succ]

/-- **Every span is started once**, in the order of the spans. -/
theorem started_eq (h : Traces mw p n es m o) : started es = List.range' n (m - n) := by
  induction h with
  | done => simp
  | raised => simp
  | noted _ ih => exact ih
  | span hbody hes ih₁ ih₂ =>
    rw [range'_succ_cut (Nat.le_trans hbody.le hes.le), range'_cut hbody.le hes.le, ← ih₁, ← ih₂]
    simp
  | spanRaised hbody ih =>
    rw [range'_succ_cut hbody.le, ← ih]
    simp
  | call hes ih =>
    rw [range'_succ_cut hes.le, ← ih]
    simp
  | callRaised => simp

/-- **The spans are nested**: each is ended when all those under it are, and in the end just those are open that were. -/
theorem replay_eq (h : Traces mw p n es m o) {opened : List (Nat × String)} (hp : opened.head?.map Prod.fst = p) :
    es.foldlM (replay mw) opened = some opened := by
  induction h generalizing opened with
  | done => rfl
  | raised => rfl
  | noted _ ih =>
    rw [foldlM_of_some (replay_attributeSet hp _ _)]
    exact ih hp
  | span _ _ ih₁ ih₂ =>
    rw [foldlM_of_some (replay_started hp), foldlM_append_of_some (ih₁ rfl), foldlM_of_some replay_ended]
    exact ih₂ hp
  | spanRaised _ ih =>
    rw [foldlM_of_some (replay_started hp), foldlM_append_of_some (ih rfl), foldlM_of_some (replay_exception _),
      foldlM_of_some (replay_status _), foldlM_of_some replay_ended]
    rfl
  | call _ ih =>
    rw [foldlM_of_some (replay_started hp), foldlM_of_some (replay_call _ _),
      foldlM_append_of_some (replay_callCompleted _ _ _ _)]
    exact ih hp
  | callRaised =>
    rw [foldlM_of_some (replay_started hp), foldlM_of_some (replay_call _ _)]
    exact replay_callCompleted _ _ _ _

theorem raisedOn_eq_nil (h : Traces mw p n es m none) : raisedOn es = [] := by
  generalize ho : (none : Option ε) = o at h
  induction h with
  | done => rfl
  | raised => cases ho
  | noted _ ih => exact ih ho
  | span _ _ ih₁ ih₂ => simp [ih₁ rfl, ih₂ ho]
  | spanRaised => cases ho
  | call _ ih => simp [ih ho, mw.records]
  | callRaised => cases ho

/-- **An exception is recorded on the spans that are open when it is raised**, from the innermost out, and on no other;
no span is started after it. -/
theorem unwinds {e : ε} (h : Traces mw p n es m (some e)) (outer : List (Nat × String))
    (hp : outer.head?.map Prod.fst = p) : ∃ pre post opened, es = pre ++ post ∧
      pre.foldlM (replay mw) outer = some (opened ++ outer) ∧ raisedOn pre = [] ∧
      raisedOn post = opened.map (fun s => (s.1, e)) ∧ started post = [] := by
  -- `pre` ends where the exception is raised; a block that it leaves adds its own span at the outer end of `opened`
  generalize ho : some e = o at h
  induction h generalizing outer with
  | done => cases ho
  | raised => exact ⟨[], [], [], rfl, rfl, rfl, rfl, rfl⟩
  | @noted span n key value es m o _ ih =>
    obtain ⟨pre, post, opened, rfl, hpre, hnone, hpost, hstarted⟩ := ih outer hp ho
    refine ⟨.note (.attributeSet span key value) :: pre, post, opened, rfl, ?_, by simpa using hnone, hpost, hstarted⟩
    rwa [foldlM_of_some (replay_attributeSet hp key value)]
  | @span p n name body m es k o hbody hes _ ih =>
    obtain ⟨pre, post, opened, rfl, hpre, hnone, hpost, hstarted⟩ := ih outer hp ho
    refine ⟨.note (.started n p name) :: (body ++ .note (.ended n) :: pre), post, opened, by simp, ?_,
      by simp [hbody.raisedOn_eq_nil, hnone], hpost, hstarted⟩
    rwa [foldlM_of_some (replay_started hp), foldlM_append_of_some (hbody.replay_eq rfl), foldlM_of_some replay_ended]
  | @spanRaised p n name body m e' hbody ih =>
    obtain rfl := Option.some.inj ho
    obtain ⟨pre, post, opened, rfl, hpre, hnone, hpost, hstarted⟩ := ih ((n, name) :: outer) rfl rfl
    refine ⟨.note (.started n p name) :: pre, post ++ [.note (.exception n e), .note (.status n .ERROR), .note (.ended n)],
      opened ++ [(n, name)], by simp, ?_, by simpa using hnone, by simp [hpost], by simp [hstarted]⟩
    rw [foldlM_of_some (replay_started hp), List.append_assoc]
    exact hpre
  | @call p n r a es k o hes ih =>
    obtain ⟨pre, post, opened, rfl, hpre, hnone, hpost, hstarted⟩ := ih outer hp ho
    refine ⟨.note (.started n p (mw.spanName r)) :: .call ⟨n, r⟩ a :: ((mw.callCompleted n none).map .note ++ pre), post,
      opened, by simp, ?_, by simp [hnone, mw.records], hpost, hstarted⟩
    rwa [foldlM_of_some (replay_started hp), foldlM_of_some (replay_call r a),
      foldlM_append_of_some (replay_callCompleted n _ outer none)]
  | @callRaised p n r a e' =>
    obtain rfl := Option.some.inj ho
    refine ⟨[.note (.started n p (mw.spanName r)), .call ⟨n, r⟩ a], (mw.callCompleted n (some e)).map .note,
      [(n, mw.spanName r)], rfl, ?_, rfl, by simp [mw.records], by simp⟩
    rw [foldlM_of_some (replay_started hp), foldlM_of_some (replay_call r a)]
    rfl

end Traces

/-! ## What the trace of a program accounts for -/

/-- Every span is started once and ended, none before those under it, and every call carries a span of its own.  The
exception that ends the program, and no other, is recorded on the spans that are open when it is raised, and only on
these. -/
structure Accounted (mw : Middleware ρ ε) (es : List (Step α ε)) (raised : Option ε) : Prop where
  started : ∃ m, started es = List.range m
  nested : es.foldlM (replay mw) [] = some []
  quiet : raised = none → raisedOn es = []
  unwound : ∀ e, raised = some e → ∃ pre post opened, es = pre ++ post ∧ pre.foldlM (replay mw) [] = some opened ∧
    raisedOn pre = [] ∧ raisedOn post = opened.map (fun s => (s.1, e)) ∧ Tracing.started post = []

/-- **A program that is well traced accounts for all that it does**, whatever it is answered. -/
theorem WellTraced.accounted {prog : Traced ρ α ε β} (h : WellTraced mw none prog) {result : Except ε β} {tracer : Tracer}
    (hrun : (prog ⟨0, none⟩).Runs es (result, tracer)) : Accounted mw es (error? result) := by
  obtain ⟨-, htraces⟩ := h 0 es result tracer hrun
  refine ⟨⟨tracer.next, ?_⟩, htraces.replay_eq rfl, fun hnone => ?_, fun e he => ?_⟩
  · rw [htraces.started_eq, List.range_eq_range', Nat.sub_zero]
  · rw [hnone] at htraces
    exact htraces.raisedOn_eq_nil
  · rw [he] at htraces
    obtain ⟨pre, post, opened, hcut, hpre, hrest⟩ := htraces.unwinds [] rfl
    rw [List.append_nil] at hpre
    exact ⟨pre, post, opened, hcut, hpre, hrest⟩

end Traces

/-! ## What a traced program calls and records -/

/-- The calls, with their answers. -/
def calls (es : List (Step α ε)) : List ((r : ρ) × α r) :=
  es.filterMap fun
    | .call sent a => some ⟨sent.request, a⟩
    | .note _ => none

def attributes (es : List (Step α ε)) : List (String × Value) :=
  es.filterMap fun
    | .note (.attributeSet _ key value) => some (key, value)
    | _ => none

@[simp] theorem calls_append : calls (es ++ es') = calls es ++ calls es' := List.filterMap_append

@[simp] theorem attributes_append : attributes (es ++ es') = attributes es ++ attributes es' := List.filterMap_append

@[simp] theorem calls_notes (noted : List (SpanEvent ε)) : calls (noted.map .note : List (Step α ε)) = [] := by
  unfold calls
  rw [List.filterMap_map, List.filterMap_eq_nil_iff]
  intro x hx
  rfl

theorem calls_rpc (span : Nat) (parent : Option Nat) (name : String) {r : ρ} (a : α r) (noted : List (SpanEvent ε)) :
    calls (.note (.started span parent name) :: .call ⟨span, r⟩ a :: noted.map .note) = [⟨r, a⟩] :=
  congrArg (List.cons _) (calls_notes noted)

/-- Whatever it is answered, the program calls and records so. -/
def Does (prog : Traced ρ α ε β) (Q : List ((r : ρ) × α r) → List (String × Value) → Except ε β → Prop) : Prop :=
  ∀ tracer es result tracer', (prog tracer).Runs es (result, tracer') → Q (calls es) (attributes es) result

/-- The middleware sets no attributes. -/
def Middleware.Plain (mw : Middleware ρ ε) : Prop :=
  ∀ span e, attributes ((mw.callCompleted span e).map .note : List (Step α ε)) = []

namespace Does

variable {Q : List ((r : ρ) × α r) → List (String × Value) → Except ε β → Prop}

theorem pure {b : β} (h : Q [] [] (.ok b)) : Does (Pure.pure b : Traced ρ α ε β) Q := by
  intro tracer es result tracer' hrun
  obtain ⟨rfl, rfl, rfl⟩ := Traced.runs_ret hrun
  exact h

theorem raise {e : ε} (h : Q [] [] (.error e)) : Does (.raise e : Traced ρ α ε β) Q := by
  intro tracer es result tracer' hrun
  obtain ⟨rfl, rfl, rfl⟩ := Traced.runs_ret hrun
  exact h

theorem imp {prog : Traced ρ α ε β} {Q' : List ((r : ρ) × α r) → List (String × Value) → Except ε β → Prop}
    (h : Does prog Q) (hQ : ∀ cs as x, Q cs as x → Q' cs as x) : Does prog Q' :=
  fun tracer es result tracer' hrun => hQ _ _ _ (h tracer es result tracer' hrun)

/-- **A program that goes on calls and records what the one does, and then what the other does.** -/
theorem bind {prog : Traced ρ α ε β} {f : β → Traced ρ α ε δ}
    {Q' : List ((r : ρ) × α r) → List (String × Value) → Except ε δ → Prop}
    (h : Does prog fun cs as x =>
      match x with
      | .ok b => Does (f b) fun cs' as' y => Q' (cs ++ cs') (as ++ as') y
      | .error e => Q' cs as (.error e)) : Does (prog >>= f) Q' := by
  intro tracer es result tracer' hrun
  obtain ⟨e, rfl, h₁⟩ | ⟨es₁, b, tracer₁, es₂, rfl, h₁, h₂⟩ := Traced.runs_bind hrun
  · exact h tracer es (.error e) tracer' h₁
  · have hfirst := h tracer es₁ (.ok b) tracer₁ h₁
    rw [calls_append, attributes_append]
    exact hfirst tracer₁ es₂ result tracer' h₂

theorem setAttribute {span : Nat} {key : String} {value : Value}
    {Q : List ((r : ρ) × α r) → List (String × Value) → Except ε Unit → Prop} (h : Q [] [(key, value)] (.ok ())) :
    Does (.setAttribute span key value : Traced ρ α ε Unit) Q := by
  intro tracer es result tracer' hrun
  obtain ⟨rfl, rfl, rfl⟩ := Traced.runs_setAttribute hrun
  exact h

theorem startAsCurrentSpan {name : String} {body : Nat → Traced ρ α ε β} (h : ∀ span, Does (body span) Q) :
    Does (.startAsCurrentSpan name body) Q := by
  intro tracer es result tracer' hrun
  obtain ⟨es₁, after, hbody, rfl, rfl⟩ := Traced.runs_startAsCurrentSpan hrun
  have hdone := h tracer.next _ es₁ result after hbody
  -- neither the start of the span nor what is noted when it is left is a call or sets an attribute
  cases result with
  | error e => simpa [left, error?, calls, attributes] using hdone
  | ok b => simpa [left, error?, calls, attributes] using hdone

theorem rpc {mw : Middleware ρ ε} (hmw : mw.Plain (α := α)) {r : ρ} {outcome : α r → Except ε β}
    (h : ∀ a, Q [⟨r, a⟩] [] (outcome a)) : Does (.rpc mw r outcome) Q := by
  intro tracer es result tracer' hrun
  obtain ⟨a, rfl, -, rfl⟩ := Traced.runs_rpc hrun
  rw [calls_rpc]
  exact (hmw tracer.next (error? (outcome a))).symm ▸ h a

end Does

/-! ## Clients that are traced -/

section Clients

variable {σ τ ι : Type}

/-- A call may be sent whatever span its headers carry. -/
def sentProtocol (P : Protocol γ ρ α) : Protocol γ (Sent ρ) (Sent.Answer α) where
  allowed g sent := P.allowed g sent.request
  answers g sent a g' := P.answers g sent.request a g'
  cost sent := P.cost sent.request

/-- A server that serves a call whatever span its headers carry. -/
def sentServer (server : Server σ ρ α τ) : Server σ (Sent ρ) (Sent.Answer α) τ where
  accept sent := server.accept sent.request
  step := server.step
  answer sent := server.answer sent.request

def sentContract {server : Server σ ρ α τ} {P : ι → Protocol γ ρ α} (C : Contract server P) :
    Contract (sentServer server) fun i => sentProtocol (P i) where
  Idle := C.Idle
  At i g sent := C.At i g sent.request
  remaining := C.remaining
  accept := C.accept
  step := C.step
  answer := C.answer
  idle_frame := C.idle_frame
  at_frame := C.at_frame

/-- The traced program keeps to the protocol, and ends in `post` within `n` steps. -/
def Keeps (P : Protocol γ ρ α) (n : Nat) (g : γ) (prog : Traced ρ α ε β) (post : Except ε β → γ → Prop) : Prop :=
  ∀ tracer, Safe (sentProtocol P) (fun x g' => post x.1 g') (prog tracer) n g

namespace Keeps

variable {P : Protocol γ ρ α} {n m : Nat} {g : γ}

theorem pure {b : β} {post : Except ε β → γ → Prop} (h : post (.ok b) g) : Keeps P n g (Pure.pure b) post := fun _ => h

theorem raise {e : ε} {post : Except ε β → γ → Prop} (h : post (.error e) g) : Keeps P n g (.raise e) post := fun _ => h

theorem setAttribute {span : Nat} {key : String} {value : Value} {post : Except ε Unit → γ → Prop} (h : post (.ok ()) g) :
    Keeps P n g (.setAttribute span key value) post := fun _ => h

theorem mono {prog : Traced ρ α ε β} {post : Except ε β → γ → Prop} (hmn : m ≤ n) (h : Keeps P m g prog post) :
    Keeps P n g prog post := fun tracer => (h tracer).mono hmn

theorem imp {prog : Traced ρ α ε β} {post post' : Except ε β → γ → Prop} (hpost : ∀ x g', post x g' → post' x g')
    (h : Keeps P n g prog post) : Keeps P n g prog post' := fun tracer =>
  (h tracer).imp fun (x : Except ε β × Tracer) => hpost x.1

/-- **A program that goes on keeps to the protocol when what it goes on with does.** -/
theorem bind {prog : Traced ρ α ε β} {f : β → Traced ρ α ε δ} {post : Except ε δ → γ → Prop}
    (h : Keeps P n g prog fun x g' =>
      match x with
      | .ok b => Keeps P m g' (f b) post
      | .error e => post (.error e) g') : Keeps P (n + m) g (prog >>= f) post := fun tracer => by
  refine safe_bind ((h tracer).imp fun x g' hx => ?_)
  obtain ⟨result, tracer'⟩ := x
  cases result with
  | ok b => exact hx tracer'
  | error e => exact hx

theorem startAsCurrentSpan {name : String} {body : Nat → Traced ρ α ε β} {post : Except ε β → γ → Prop}
    (h : ∀ span, Keeps P n g (body span) post) : Keeps P n g (.startAsCurrentSpan name body) post := fun tracer => by
  refine safe_bind (m := 0) ((h tracer.next ⟨tracer.next + 1, some tracer.next⟩).imp fun x g' hx => ?_)
  obtain ⟨result, after⟩ := x
  cases result with
  | ok b => exact hx
  | error e => exact hx

theorem rpc {mw : Middleware ρ ε} {r : ρ} {outcome : α r → Except ε β} {post : Except ε β → γ → Prop}
    (hallowed : P.allowed g r) (hcost : P.cost r < n) (h : ∀ a g', P.answers g r a g' → post (outcome a) g') :
    Keeps P n g (.rpc mw r outcome) post := fun tracer => by
  have hless : 0 + P.cost r < n := by rwa [Nat.zero_add]
  refine ⟨hallowed, 0, hless, fun a g' hg' => ?_⟩
  have hpost := h a g' hg'
  cases ha : outcome a with
  | ok b =>
    rw [ha] at hpost
    simp only [ha]
    exact (safe_notes _).2 hpost
  | error e =>
    rw [ha] at hpost
    simp only [ha]
    exact (safe_notes _).2 hpost

end Keeps

end Clients
end Tracing
