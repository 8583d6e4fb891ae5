import FlightPlayground.Posix
/-!
# Confinement — what a program does to the files outside one directory

A program that serves a directory is confined to it when it makes no change to a file outside and nothing it answers
depends on what such a file holds.  A change is a call on one file, whether or not it leaves other bytes than were
there.  Two trees that differ in the contents of outside files only look the same to a confined program; a program that
opens an outside file is found out by what it answers.
-/
namespace Posix
namespace FileTree

/-- The node is the directory `base`, or somewhere in it. -/
def Inside (base p : NodePath) : Prop := base <:+ p

instance (base p : NodePath) : Decidable (Inside base p) := inferInstanceAs (Decidable (base <:+ p))

def KeepsOutside (base : NodePath) (t t' : FileTree) : Prop := ∀ p, ¬ Inside base p → t'.node p = t.node p

/-- The trees are the same, but for the contents of files that are not among the kept ones. -/
structure SameFiles (kept : NodePath → Prop) (t t' : FileTree) : Prop where
  kept : ∀ p, kept p → t'.node p = t.node p
  others : ∀ p, t'.node p = t.node p ∨ ∃ c c', t.node p = some (.file c) ∧ t'.node p = some (.file c')

/-- The trees are the same, but for the contents of files outside `base`. -/
abbrev SameInside (base : NodePath) : FileTree → FileTree → Prop := SameFiles (Inside base)

/-- A call that changes a file: it is created, or cut to nothing if it is there; it is written; it is deleted. -/
inductive Change
  | create (p : NodePath)
  | write (p : NodePath) (pos : Nat) (chunk : Bytes)
  | delete (p : NodePath)
  deriving DecidableEq

def Change.file : Change → NodePath
  | create p => p
  | write p _ _ => p
  | delete p => p

@[simp] theorem Change.file_create (p : NodePath) : (create p).file = p := rfl
@[simp] theorem Change.file_write (p : NodePath) (pos : Nat) (chunk : Bytes) : (write p pos chunk).file = p := rfl
@[simp] theorem Change.file_delete (p : NodePath) : (delete p).file = p := rfl

def apply (t : FileTree) : Change → FileTree
  | .create p => t.setFile p []
  | .write p pos chunk =>
    match t.node p with
    | some (.file c) => t.setFile p (overlay c pos chunk)
    | _ => t
  | .delete p => t.unlink p

def replay (t : FileTree) (cs : List Change) : FileTree := cs.foldl apply t

variable {base : NodePath} {kept : NodePath → Prop} {t t' : FileTree}

theorem inside_child (base : NodePath) (n : Bytes) : Inside base (n :: base) := List.suffix_cons n base

/-! ## What is kept -/

theorem KeepsOutside.refl (base : NodePath) (t : FileTree) : KeepsOutside base t t := fun _ _ => rfl

theorem KeepsOutside.trans {t'' : FileTree} (h : KeepsOutside base t t') (h' : KeepsOutside base t' t'') :
    KeepsOutside base t t'' := fun p hp => (h' p hp).trans (h p hp)

theorem node_apply_of_ne {c : Change} {q : NodePath} (h : q ≠ c.file) : (t.apply c).node q = t.node q := by
  cases c with
  | create p => exact node_setFile_of_ne h []
  | write p pos chunk =>
    rcases hp : t.node p with _ | _ | b
    · simp only [apply, hp]
    · simp only [apply, hp]
    · simp only [apply, hp]
      exact node_setFile_of_ne h _
  | delete p => exact node_unlink_of_ne h

/-- **A program that makes its changes inside keeps what is outside.** -/
theorem keepsOutside_replay : ∀ (cs : List Change) (t : FileTree), (∀ c ∈ cs, Inside base c.file) →
    KeepsOutside base t (t.replay cs)
  | [], t, _ => .refl base t
  | c :: cs, t, h => by
    have hc : KeepsOutside base t (t.apply c) := fun q hq => node_apply_of_ne fun hqc => hq (hqc ▸ h c (by simp))
    exact hc.trans (keepsOutside_replay cs (t.apply c) fun c' hc' => h c' (by simp [hc']))

/-- A file that is created and written once holds what was written. -/
theorem replay_create_write {p : NodePath} (h : t.CanHoldFile p) (c : Bytes) :
    t.replay [.create p, .write p 0 c] = t.setFile p c := by
  have hp : (t.setFile p []).node p = some (.file []) := by rw [node_setFile h, if_pos rfl]
  simp only [replay, List.foldl_cons, List.foldl_nil, apply, hp, setFile_setFile]
  exact congrArg _ (overlay_at_end [] c)

theorem replay_create_delete {p : NodePath} (h : t.CanHoldFile p) : t.replay [.create p, .delete p] = t.unlink p :=
  unlink_setFile h []

/-! ## What is seen -/

namespace SameFiles

theorem refl (kept : NodePath → Prop) (t : FileTree) : SameFiles kept t t := ⟨fun _ _ => rfl, fun _ => .inl rfl⟩

theorem mono {kept' : NodePath → Prop} (h : SameFiles kept t t') (hk : ∀ p, kept' p → kept p) : SameFiles kept' t t' :=
  ⟨fun p hp => h.kept p (hk p hp), h.others⟩

theorem setFile {p : NodePath} {c : Bytes} (hp : ¬ kept p) (h : t.node p = some (.file c)) (c' : Bytes) :
    SameFiles kept t (t.setFile p c') := by
  have hc := canHoldFile_of_file h
  constructor
  · intro q hq
    apply node_setFile_of_ne
    rintro rfl
    exact hp hq
  · intro q
    by_cases hq : q = p
    · subst hq
      exact .inr ⟨c, c', h, by rw [node_setFile hc, if_pos rfl]⟩
    · exact .inl (node_setFile_of_ne hq c')

variable (h : SameFiles kept t t')

include h

theorem dir_iff (p : NodePath) : t'.node p = some .dir ↔ t.node p = some .dir := by
  rcases h.others p with hp | ⟨c, c', hp, hp'⟩
  · rw [hp]
  · simp [hp, hp']

theorem node_eq {p : NodePath} (hp : ∀ c, t.node p = some (.file c) → kept p) : t'.node p = t.node p := by
  rcases h.others p with ho | ⟨c, -, ho, -⟩
  · exact ho
  · exact h.kept p (hp c ho)

/-- **A lookup goes through the same nodes in both, and ends or fails alike.** -/
theorem walk_eq : ∀ (cs : List Bytes) (p : NodePath), t'.walk p cs = t.walk p cs
  | [], _ => rfl
  | c :: cs, p => by
    unfold walk
    rcases h.others p with hp | ⟨b, b', hp, hp'⟩
    · rw [hp]
      split
      · simp only [walk_eq cs]
      · rfl
      · rfl
    · rw [hp, hp']

theorem resolve_eq (d : NodePath) (s : Bytes) : t'.resolve d s = t.resolve d s := h.walk_eq _ d

theorem children_eq {d : NodePath} (hd : ∀ n c, t.node (n :: d) = some (.file c) → kept (n :: d)) :
    t'.children d = t.children d := by
  refine (Multiset.Nodup.ext (.of_map Prod.fst (nodup_children _ _)) (.of_map Prod.fst (nodup_children _ _))).2 ?_
  rintro ⟨n, x⟩
  rw [mem_children, mem_children, h.node_eq (hd n)]

end SameFiles

/-- **An answer about one node gives an outside file away, whenever there is one and the answer depends on what a file
holds.** -/
theorem sees_iff {ρ : Type*} {p : NodePath} {look : Option Node → ρ}
    (hlook : ∀ c, ∃ c', look (some (.file c')) ≠ look (some (.file c))) :
    (∀ t', SameInside base t t' → look (t'.node p) = look (t.node p)) ↔
      ∀ c, t.node p = some (.file c) → Inside base p := by
  constructor
  · intro hsame c hc
    by_contra hp
    obtain ⟨c', hne⟩ := hlook c
    apply hne
    have := hsame _ (.setFile hp hc c')
    rwa [node_setFile (canHoldFile_of_file hc), if_pos rfl, hc] at this
  · intro hin t' h
    rw [h.node_eq hin]

end FileTree
end Posix
