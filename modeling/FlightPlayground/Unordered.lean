import Mathlib.Data.Finmap
/-!
# Unordered — reading out a container whose order is unspecified

A hash table or a directory hands out its elements in some order, each once; which order is nobody's promise.
`Enumeration` is one such order, and what is proved of every enumeration holds of the container.
-/
namespace Unordered

/-- One order in which the elements of any finite container come out. -/
structure Enumeration (α : Type*) where
  list : Multiset α → List α
  coe_list : ∀ s, (list s : Multiset α) = s

namespace Enumeration

variable {α β : Type*} (e : Enumeration α)

@[simp] theorem mem_list {a : α} {s : Multiset α} : a ∈ e.list s ↔ a ∈ s := by
  rw [← Multiset.mem_coe, e.coe_list]

@[simp] theorem list_zero : e.list 0 = [] := by
  rw [← Multiset.coe_eq_zero, e.coe_list]

@[simp] theorem list_singleton (a : α) : e.list {a} = [a] :=
  Multiset.coe_eq_singleton.1 (e.coe_list {a})

/-- **The elements of an image come out as the image of an order of the elements.** -/
theorem exists_list_map (e' : Enumeration β) (f : α → β) (s : Multiset α) :
    ∃ l : List α, (l : Multiset α) = s ∧ e'.list (s.map f) = l.map f := by
  have key : ∀ (l' : List β) (s : Multiset α), (l' : Multiset β) = s.map f →
      ∃ l : List α, (l : Multiset α) = s ∧ l' = l.map f := by
    classical
    intro l'
    induction l' with
    | nil =>
      intro s hs
      exact ⟨[], (Multiset.map_eq_zero.1 hs.symm).symm, rfl⟩
    | cons b l' ih =>
      intro s hs
      obtain ⟨a, ha, rfl, hs'⟩ := (Multiset.map_eq_cons f s l' b).2 (by rw [← hs]; rfl)
      obtain ⟨l, hl, rfl⟩ := ih (s.erase a) hs'.symm
      refine ⟨a :: l, ?_, rfl⟩
      rw [← Multiset.cons_coe, hl, Multiset.cons_erase ha]
  exact key _ s (e'.coe_list _)

noncomputable def chosen (α : Type*) : Enumeration α := ⟨Multiset.toList, Multiset.coe_toList⟩

end Enumeration

/-! ## Two lists side by side -/

section Forall₂

variable {α β γ : Type*} {R : α → β → Prop}

theorem map_eq_map_of_forall₂ {f : α → γ} {g : β → γ} {l : List α} {l' : List β} (h : List.Forall₂ R l l')
    (hR : ∀ a b, R a b → f a = g b) : l.map f = l'.map g := by
  induction h with
  | nil => rfl
  | cons hab _ ih => rw [List.map_cons, List.map_cons, hR _ _ hab, ih]

theorem exists_of_mem_forall₂ {l : List α} {l' : List β} (h : List.Forall₂ R l l') {b : β} (hb : b ∈ l') :
    ∃ a ∈ l, R a b := by
  induction h with
  | nil => cases hb
  | cons hab _ ih =>
    rcases List.mem_cons.1 hb with rfl | hb
    · exact ⟨_, List.mem_cons_self, hab⟩
    · obtain ⟨a, ha, hR⟩ := ih hb
      exact ⟨a, List.mem_cons_of_mem _ ha, hR⟩

theorem exists_forall₂ : ∀ {l : List α}, (∀ a ∈ l, ∃ b, R a b) → ∃ l', List.Forall₂ R l l'
  | [], _ => ⟨[], .nil⟩
  | a :: _, h => by
    obtain ⟨b, hb⟩ := h a List.mem_cons_self
    obtain ⟨l', hl'⟩ := exists_forall₂ fun a ha => h a (List.mem_cons_of_mem _ ha)
    exact ⟨b :: l', .cons hb hl'⟩

/-- **A loop that may fail gives a result for each element, in order.** -/
theorem mapM_eq_ok_iff {ε : Type*} {f : α → Except ε β} :
    ∀ {l : List α} {l' : List β}, l.mapM f = .ok l' ↔ List.Forall₂ (fun a b => f a = .ok b) l l'
  | [], l' => by
    rw [List.mapM_nil, List.forall₂_nil_left_iff]
    exact ⟨fun h => (Except.ok.inj h).symm, fun h => by rw [h]; rfl⟩
  | a :: l, l' => by
    have ih : ∀ l'', l.mapM f = .ok l'' ↔ List.Forall₂ (fun a b => f a = .ok b) l l'' := fun _ => mapM_eq_ok_iff
    rw [List.mapM_cons, List.forall₂_cons_left_iff]
    cases ha : f a with
    | error e => simp [bind, Except.bind]
    | ok b =>
      cases hl : l.mapM f with
      | error e => simp [bind, Except.bind, ← ih, hl]
      | ok bs => simp [bind, Except.bind, pure, Except.pure, ← ih, hl, eq_comm]

theorem mapM_congr {ε : Type*} {f g : α → Except ε β} : ∀ {l : List α}, (∀ a ∈ l, f a = g a) → l.mapM f = l.mapM g
  | [], _ => rfl
  | a :: _, h => by
    rw [List.mapM_cons, List.mapM_cons, h a List.mem_cons_self, mapM_congr fun b hb => h b (List.mem_cons_of_mem _ hb)]

end Forall₂

/-! ## Finite maps entry by entry -/

section Finmap

variable {κ : Type*} {β : κ → Type*} [DecidableEq κ]

theorem insert_erase (k : κ) (v : β k) (m : Finmap β) : (m.erase k).insert k v = m.insert k v := by
  refine Finmap.ext_lookup fun j => ?_
  by_cases hj : j = k
  · subst hj
    rw [Finmap.lookup_insert, Finmap.lookup_insert]
  · rw [Finmap.lookup_insert_of_ne _ hj, Finmap.lookup_insert_of_ne _ hj, Finmap.lookup_erase_ne hj]

theorem entries_insert (k : κ) (v : β k) (m : Finmap β) : (m.insert k v).entries = ⟨k, v⟩ ::ₘ (m.erase k).entries := by
  rw [← insert_erase, Finmap.entries_insert_of_notMem Finmap.notMem_erase_self]

theorem erase_of_notMem {k : κ} {m : Finmap β} (h : k ∉ m) : m.erase k = m := by
  refine Finmap.ext_lookup fun j => ?_
  by_cases hj : j = k
  · subst hj
    rw [Finmap.lookup_erase, Finmap.lookup_eq_none.2 h]
  · rw [Finmap.lookup_erase_ne hj]

end Finmap
end Unordered
