import FlightPlayground.DatasetServer
/-!
# MetadataServer — the server that remembers what data servers list

`say_hello` has the metadata server read the listing of the data server it is connected to, message by message, and
keep what it reads in `available_datasets` under the text of the action.  `ListFlights` reads the whole map back.
-/
namespace DistributedFlightMetadataServer

open Posix (Bytes utf8)
open Unordered (Enumeration)
open Arrow
open Flight

/-- What becomes of a process that goes on to compute an `α`: a `ValueOrDie` on an error aborts it, and what it does
after a read through a null pointer or past the end of a vector is not defined. -/
inductive Fate (α : Type)
  | alive (a : α)
  | aborted
  | undefined
  deriving DecidableEq

def Fate.bind {α β : Type} : Fate α → (α → Fate β) → Fate β
  | .alive a, k => k a
  | .aborted, _ => .aborted
  | .undefined, _ => .undefined

variable {Schema : Type}

/-- `available_datasets`; an entry may hold a null pointer. -/
abbrev Registry (Schema : Type) := Finmap fun _ : Bytes => Option (FlightInfo Schema)

abbrev Entry (Schema : Type) := (_ : Bytes) × Option (FlightInfo Schema)

/-- A listing as its client reads it: what `Next()` returns time after time, and a null pointer from then on. -/
abbrev FlightListing (Schema : Type) := List (Result (FlightInfo Schema))

def kActionSayHello : ActionType := ⟨utf8 "say_hello", utf8 "Say hello."⟩

def listActions : List ActionType := [kActionSayHello]

/-- `available_datasets[key]` creates the entry, with a null pointer, if it is not there. -/
def subscript (reg : Registry Schema) (key : Bytes) : Option (FlightInfo Schema) × Registry Schema :=
  match reg.lookup key with
  | some p => (p, reg)
  | none => (none, reg.insert key none)

/-- The loop of `ListFlights`, which prints the first component of every path. -/
def listLoop : List (Entry Schema) → List (FlightInfo Schema) → Fate (List (FlightInfo Schema))
  | [], flights => .alive flights
  | info :: entries, flights =>
    match info.2 with
    | none => .undefined
    | some p => if p.descriptor.path = [] then .undefined else listLoop entries (flights ++ [p])

/-- `ListFlights`, in the order the hash map has its entries; its status is OK. -/
def listFlights (order : Enumeration (Entry Schema)) (reg : Registry Schema) : Fate (List (FlightInfo Schema)) :=
  listLoop (order.list reg.entries) []

/-- The body of the loop of `DoActionSayHello` after its test for the end: the item is taken out of its result before
the entry is looked up, and the entry is looked up again to be printed. -/
def sayHelloBody (message : Bytes) (reg : Registry Schema) : Result (FlightInfo Schema) → Fate (Registry Schema)
  | .error _ => .aborted
  | .ok info =>
    let reg := (subscript reg message).2.insert message (some info)
    match subscript reg message with
    | (none, _) => .undefined
    | (some _, reg) => .alive reg

def sayHelloLoop (message : Bytes) : Registry Schema → FlightListing Schema → Fate (Registry Schema)
  | reg, [] => .alive reg
  | reg, item :: listing => (sayHelloBody message reg item).bind fun reg => sayHelloLoop message reg listing

/-- `DoActionSayHello(message)`, given what its call of `ListFlights` on the other server returns. -/
def doActionSayHello (message : Bytes) (reg : Registry Schema) (listingResult : Result (FlightListing Schema)) :
    Fate (Result Unit × Registry Schema) :=
  match listingResult with
  | .error _ => .aborted
  | .ok listing => (sayHelloLoop message reg listing).bind fun reg => .alive (.ok (), reg)

def doAction (reg : Registry Schema) (action : Action) (listingResult : Result (FlightListing Schema)) :
    Fate (Result Unit × Registry Schema) :=
  if action.type = kActionSayHello.type then doActionSayHello action.body reg listingResult
  else .alive (.error (DatasetServer.unknownAction action), reg)

/-! ## What a registration stores -/

def storeAll (message : Bytes) (reg : Registry Schema) (flights : List (FlightInfo Schema)) : Registry Schema :=
  flights.foldl (fun reg info => reg.insert message (some info)) reg

@[simp] theorem sayHelloBody_ok (message : Bytes) (reg : Registry Schema) (info : FlightInfo Schema) :
    sayHelloBody message reg (.ok info) = .alive (reg.insert message (some info)) := by
  have hover : (subscript reg message).2.insert message (some info) = reg.insert message (some info) := by
    cases hl : reg.lookup message with
    | some p => simp [subscript, hl]
    | none => simp [subscript, hl, Finmap.insert_insert]
  simp only [sayHelloBody, hover]
  simp [subscript]

theorem storeAll_append (message : Bytes) (reg : Registry Schema) (l₁ l₂ : List (FlightInfo Schema)) :
    storeAll message reg (l₁ ++ l₂) = storeAll message (storeAll message reg l₁) l₂ := List.foldl_append

theorem insert_storeAll (message : Bytes) (p : Option (FlightInfo Schema)) : ∀ (l : List (FlightInfo Schema))
    (reg : Registry Schema), (storeAll message reg l).insert message p = reg.insert message p
  | [], _ => rfl
  | f :: l, reg => by
    rw [storeAll, List.foldl_cons, ← storeAll, insert_storeAll message p l, Finmap.insert_insert]

/-- **The last flight stored is the one that stays.** -/
@[simp] theorem storeAll_concat (message : Bytes) (reg : Registry Schema) (l : List (FlightInfo Schema))
    (f : FlightInfo Schema) : storeAll message reg (l ++ [f]) = reg.insert message (some f) := by
  rw [storeAll_append, storeAll, List.foldl_cons, List.foldl_nil, insert_storeAll]

/-- **Flights stored under different messages do not meet.** -/
theorem storeAll_comm {m₁ m₂ : Bytes} (h : m₁ ≠ m₂) (reg : Registry Schema) (l₁ l₂ : List (FlightInfo Schema)) :
    storeAll m₁ (storeAll m₂ reg l₂) l₁ = storeAll m₂ (storeAll m₁ reg l₁) l₂ := by
  cases l₁ using List.reverseRecOn with
  | nil => rfl
  | append_singleton l₁ f₁ =>
    cases l₂ using List.reverseRecOn with
    | nil => rfl
    | append_singleton l₂ f₂ =>
      rw [storeAll_concat, storeAll_concat, storeAll_concat, storeAll_concat]
      exact Finmap.insert_insert_of_ne reg h.symm

theorem lookup_storeAll_of_ne {key message : Bytes} (h : key ≠ message) (reg : Registry Schema)
    (l : List (FlightInfo Schema)) : (storeAll message reg l).lookup key = reg.lookup key := by
  cases l using List.reverseRecOn with
  | nil => rfl
  | append_singleton l f => rw [storeAll_concat, Finmap.lookup_insert_of_ne _ h]

/-- **A loop over a listing without errors stores its flights one after another.** -/
theorem sayHelloLoop_ok (message : Bytes) : ∀ (flights : List (FlightInfo Schema)) (reg : Registry Schema),
    sayHelloLoop message reg (flights.map .ok) = .alive (storeAll message reg flights)
  | [], _ => rfl
  | f :: flights, reg => by
    rw [List.map_cons, sayHelloLoop, sayHelloBody_ok]
    exact sayHelloLoop_ok message flights _

theorem doAction_sayHello {action : Action} (h : action.type = utf8 "say_hello") (reg : Registry Schema)
    (flights : List (FlightInfo Schema)) :
    doAction reg action (.ok (flights.map .ok)) = .alive (.ok (), storeAll action.body reg flights) := by
  unfold doAction
  rw [if_pos (by exact h)]
  simp only [doActionSayHello, sayHelloLoop_ok]
  rfl

/-! ## What is read back -/

def Readable (e : Entry Schema) : Prop := ∃ f, e.2 = some f ∧ f.descriptor.path ≠ []

theorem listLoop_of_readable : ∀ (entries : List (Entry Schema)) (flights : List (FlightInfo Schema)),
    (∀ e ∈ entries, Readable e) → listLoop entries flights = .alive (flights ++ entries.filterMap Sigma.snd)
  | [], flights, _ => by simp [listLoop]
  | e :: entries, flights, h => by
    obtain ⟨f, hf, hpath⟩ := h e List.mem_cons_self
    simp only [listLoop, hf, if_neg hpath]
    rw [listLoop_of_readable entries _ fun e' he' => h e' (List.mem_cons_of_mem _ he'),
      List.filterMap_cons_some (by exact hf)]
    simp

theorem listLoop_ne_aborted : ∀ (entries : List (Entry Schema)) (flights : List (FlightInfo Schema)),
    listLoop entries flights ≠ .aborted
  | [], flights => by simp [listLoop]
  | e :: entries, flights => by
    rw [listLoop]
    split
    · simp
    · split
      · simp
      · exact listLoop_ne_aborted entries _

/-- A path of one component, as in the infos a data server mints. -/
def Minted (f : FlightInfo Schema) : Prop := ∃ n, f.descriptor.path = [n]

def WellFormed (reg : Registry Schema) : Prop := ∀ key p, reg.lookup key = some p → ∃ f, p = some f ∧ Minted f

theorem wellFormed_empty : WellFormed (∅ : Registry Schema) := fun key p h => by simp at h

theorem WellFormed.insert {reg : Registry Schema} (h : WellFormed reg) (message : Bytes) {f : FlightInfo Schema}
    (hf : Minted f) : WellFormed (reg.insert message (some f)) := fun key p hp => by
  by_cases hk : key = message
  · subst hk
    rw [Finmap.lookup_insert] at hp
    exact ⟨f, (Option.some.inj hp).symm, hf⟩
  · rw [Finmap.lookup_insert_of_ne _ hk] at hp
    exact h key p hp

theorem WellFormed.storeAll {reg : Registry Schema} (h : WellFormed reg) (message : Bytes) {l : List (FlightInfo Schema)}
    (hl : ∀ f ∈ l, Minted f) : WellFormed (storeAll message reg l) := by
  cases l using List.reverseRecOn with
  | nil => exact h
  | append_singleton l f =>
    rw [storeAll_concat]
    exact h.insert message (hl f (by simp))

/-- **A listing of a well-formed registry reports the flight of every entry.** -/
theorem WellFormed.listFlights_eq {reg : Registry Schema} (h : WellFormed reg) (order : Enumeration (Entry Schema)) :
    listFlights order reg = .alive ((order.list reg.entries).filterMap Sigma.snd) := by
  unfold listFlights
  rw [listLoop_of_readable _ _ fun e he => ?_, List.nil_append]
  obtain ⟨f, hf, n, hn⟩ := h e.1 e.2 (Finmap.lookup_eq_some_iff.2 (by simpa using he))
  exact ⟨f, hf, by rw [hn]; simp⟩

end DistributedFlightMetadataServer

/-! ## What a data server lists -/

namespace DatasetServer

open Arrow Flight

variable {Schema Row : Type} {pq : Parquet Schema Row} {port : Nat} {root : SubTreeFileSystem}

/-- **Every flight a data server lists has a path of one component.** -/
theorem listFlights_minted {readdir : Unordered.Enumeration (Posix.Bytes × Posix.Node)} {fs : List (FlightInfo Schema)}
    (h : listFlights pq port root readdir = .ok fs) : ∀ f ∈ fs, DistributedFlightMetadataServer.Minted f :=
  listFlights_forall (fun fileInfo f hf => by
    obtain ⟨c, md, -, -, rfl⟩ := makeFlightInfo_ok hf
    exact ⟨fileInfo.baseName, rfl⟩) h

end DatasetServer
