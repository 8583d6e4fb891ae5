import FlightPlayground.Posix
/-!
# DirectoryMap — a directory that holds a finite map

Each value of the map is encoded in the file of its key, and there is nothing else in the directory.  To write a file is
to insert, to unlink it is to erase, and the directory's listing is the map's entries.
-/
namespace Posix
namespace FileTree

variable {α : Type} (encode : α → Bytes)

def HoldsMap (t : FileTree) (base : NodePath) (m : Finmap fun _ : Bytes => α) : Prop :=
  ∀ n, t.node (n :: base) = (m.lookup n).map fun a => .file (encode a)

variable {encode} {t : FileTree} {base : NodePath} {m : Finmap fun _ : Bytes => α}

theorem holdsMap_empty (h : ∀ n, t.node (n :: base) = none) : HoldsMap encode t base ∅ := fun n => by
  rw [h n]
  rfl

namespace HoldsMap

variable (h : HoldsMap encode t base m)

include h

theorem node_of_lookup {n : Bytes} {a : α} (hn : m.lookup n = some a) : t.node (n :: base) = some (.file (encode a)) := by
  rw [h n, hn]
  rfl

theorem mem_of_node {n : Bytes} {x : Node} (hx : t.node (n :: base) = some x) : n ∈ m := by
  rw [h n] at hx
  rw [← Finmap.lookup_isSome]
  cases hn : m.lookup n with
  | none => simp [hn] at hx
  | some a => rfl

theorem validName {n : Bytes} (hn : n ∈ m) : ValidName n := by
  obtain ⟨a, ha⟩ := Finmap.mem_iff.1 hn
  exact validName_of_node (h.node_of_lookup ha)

theorem not_dir (n : Bytes) : t.node (n :: base) ≠ some .dir := by
  rw [h n]
  cases m.lookup n <;> simp

theorem insert (hb : t.node base = some .dir) {n : Bytes} (hn : ValidName n) (a : α) :
    HoldsMap encode (t.setFile (n :: base) (encode a)) base (m.insert n a) := fun n' => by
  have hc : t.CanHoldFile (n :: base) := ⟨hn, hb, h.not_dir n⟩
  rw [node_setFile hc]
  by_cases hne : n' = n
  · subst hne
    simp
  · rw [if_neg (by simpa using hne), h n', Finmap.lookup_insert_of_ne _ hne]

theorem erase (n : Bytes) : HoldsMap encode (t.unlink (n :: base)) base (m.erase n) := fun n' => by
  rw [node_unlink (h.not_dir n)]
  by_cases hne : n' = n
  · subst hne
    simp
  · rw [if_neg (by simpa using hne), h n', Finmap.lookup_erase_ne hne]

/-- **The listing of the directory is the map's entries.** -/
theorem children_eq : t.children base = m.entries.map fun e => (e.1, Node.file (encode e.2)) := by
  have hnd : (m.entries.map fun e => (e.1, Node.file (encode e.2))).Nodup := by
    apply Multiset.Nodup.of_map Prod.fst
    rw [Multiset.map_map]
    exact m.nodupKeys.nodup_keys
  rw [Multiset.Nodup.ext (.of_map Prod.fst (nodup_children t base)) hnd]
  rintro ⟨n, x⟩
  rw [mem_children, h n, Multiset.mem_map]
  constructor
  · intro hx
    cases ha : m.lookup n with
    | none => simp [ha] at hx
    | some a => exact ⟨⟨n, a⟩, Finmap.lookup_eq_some_iff.1 ha, by simpa [ha] using hx⟩
  · rintro ⟨⟨n', a⟩, ha, heq⟩
    obtain ⟨rfl, rfl⟩ := Prod.mk.inj heq
    rw [Finmap.lookup_eq_some_iff.2 ha]
    rfl

end HoldsMap
end FileTree
end Posix
