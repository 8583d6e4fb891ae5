import FlightPlayground.Unordered
/-!
# Posix — path strings and a tree of files

A path string is bytes; its components are what stands between the separators.  A node's place in the tree is its
canonical path, innermost name first, and `walk` is the operating system's lookup: every component is looked up in a
directory, an empty component and `.` stay there, `..` goes to the parent.  A tree has no links.
-/
namespace Posix

abbrev Bytes := List UInt8

def utf8 (s : String) : Bytes := s.toByteArray.data.toList

def slash : UInt8 := 47
def dot : UInt8 := 46

/-! ## Path strings -/

def components (s : Bytes) : List Bytes := s.splitOn slash

def baseName (s : Bytes) : Bytes := (components s).getLast (List.splitOn_ne_nil _ _)

/-- The part of the base name after its last dot, empty when it has none. -/
def extension (s : Bytes) : Bytes :=
  if dot ∈ baseName s then ((baseName s).splitOn dot).getLast (List.splitOn_ne_nil _ _) else []

def removeLeadingSlash (s : Bytes) : Bytes := s.dropWhile (· == slash)

/-- A name a directory entry can have: one path component that no lookup reads in its own way. -/
def ValidName (n : Bytes) : Prop := n ≠ [] ∧ n ≠ [dot] ∧ n ≠ [dot, dot] ∧ slash ∉ n

instance (n : Bytes) : Decidable (ValidName n) :=
  inferInstanceAs (Decidable (n ≠ [] ∧ n ≠ [dot] ∧ n ≠ [dot, dot] ∧ slash ∉ n))

theorem components_of_notMem {n : Bytes} (h : slash ∉ n) : components n = [n] := List.splitOn_eq_singleton h

theorem ValidName.components_eq {n : Bytes} (h : ValidName n) : components n = [n] := components_of_notMem h.2.2.2

@[simp] theorem baseName_of_valid {n : Bytes} (h : ValidName n) : baseName n = n := by
  simp [baseName, h.components_eq]

@[simp] theorem removeLeadingSlash_of_valid {n : Bytes} (h : ValidName n) : removeLeadingSlash n = n := by
  cases n with
  | nil => rfl
  | cons b n =>
    have hb : b ≠ slash := fun hb => h.2.2.2 (by simp [hb])
    simp [removeLeadingSlash, hb]

theorem notMem_of_mem_components {s c : Bytes} (h : c ∈ components s) : slash ∉ c := by
  unfold components at h
  induction s generalizing c with
  | nil => simp_all
  | cons b s ih =>
    rw [List.splitOn_cons_eq_if_modifyHead] at h
    split at h
    · rcases List.mem_cons.1 h with rfl | h
      · simp
      · exact ih h
    · rename_i hb
      obtain ⟨hd, tl, hs⟩ := List.exists_cons_of_ne_nil (List.splitOn_ne_nil slash s)
      rw [hs] at h ih
      rw [List.modifyHead_cons, List.mem_cons] at h
      rcases h with rfl | h
      · have hhd : slash ∉ hd := ih (by simp)
        have : b ≠ slash := by simpa using hb
        simp [hhd, this.symm]
      · exact ih (by simp [h])

/-! ## Writing at an offset -/

/-- The bytes of a file after `chunk` is written at offset `off`: a gap before it reads as zeros, what lies beyond it
stays.  Writing nothing changes nothing. -/
def overlay (old : Bytes) (off : Nat) (chunk : Bytes) : Bytes :=
  if chunk = [] then old
  else old.take off ++ List.replicate (off - old.length) 0 ++ chunk ++ old.drop (off + chunk.length)

theorem overlay_at_end (old chunk : Bytes) : overlay old old.length chunk = old ++ chunk := by
  unfold overlay
  split
  · rename_i h
    simp [h]
  · simp

theorem length_overlay_le {old chunk : Bytes} {off k : Nat} (hc : old.length ≤ k) (h : off + chunk.length ≤ k) :
    (overlay old off chunk).length ≤ k := by
  unfold overlay
  split
  · exact hc
  · simp only [List.length_append, List.length_take, List.length_replicate, List.length_drop]
    omega

/-- **A written chunk reads back**, and the bytes before its end that were there already stay as they were. -/
theorem getElem?_overlay {old chunk : Bytes} {off i : Nat} (hi : i < off → i < old.length) :
    (overlay old off chunk)[i]? = if off ≤ i ∧ i < off + chunk.length then chunk[i - off]? else old[i]? := by
  unfold overlay
  split
  · rename_i h
    subst h
    rw [if_neg (by simp only [List.length_nil]; omega)]
  · rcases Nat.lt_or_ge i off with h | h
    · have := hi h
      rw [if_neg (by omega), List.append_assoc, List.append_assoc, List.getElem?_append_left (by simp; omega),
        List.getElem?_take_of_lt h]
    · have hl : (old.take off ++ List.replicate (off - old.length) (0 : UInt8)).length = off := by simp; omega
      rw [List.append_assoc, List.getElem?_append_right (by omega), hl]
      rcases Nat.lt_or_ge i (off + chunk.length) with h2 | h2
      · rw [if_pos ⟨h, h2⟩, List.getElem?_append_left (by omega)]
      · rw [if_neg (by omega), List.getElem?_append_right (by omega), List.getElem?_drop]
        congr 1
        omega

/-- **Two writers of the same bytes agree**: where `old` already reads as `b` up to `k`, it still does after a piece of
`b` is written at its own place. -/
theorem overlay_agree {b old : Bytes} {k off len : Nat} (hk : ∀ i < k, old[i]? = b[i]?) (hkb : k ≤ b.length)
    (hlen : off + len ≤ b.length) :
    ∀ i < k, (overlay old off ((b.drop off).take len))[i]? = b[i]? := by
  intro i hi
  have hic : i < old.length := by
    have h := hk i hi
    rw [List.getElem?_eq_getElem (show i < b.length by omega)] at h
    exact (List.getElem?_eq_some_iff.1 h).1
  have hl : ((b.drop off).take len).length = len := by simp; omega
  rw [getElem?_overlay (fun _ => hic), hl]
  split
  · rw [List.getElem?_take_of_lt (by omega), List.getElem?_drop]
    congr 1
    omega
  · exact hk i hi

theorem overlay_extend {b old : Bytes} {off len : Nat} (hk : ∀ i < off, old[i]? = b[i]?) (hlen : off + len ≤ b.length) :
    ∀ i < off + len, (overlay old off ((b.drop off).take len))[i]? = b[i]? := by
  intro i hi
  have hl : ((b.drop off).take len).length = len := by simp; omega
  rcases Nat.lt_or_ge i off with h | h
  · exact overlay_agree hk (by omega) hlen i h
  · rw [getElem?_overlay (by omega), hl, if_pos ⟨h, hi⟩, List.getElem?_take_of_lt (by omega), List.getElem?_drop]
    congr 1
    omega

/-! ## The tree -/

inductive Node
  | dir
  | file (content : Bytes)
  deriving DecidableEq

/-- The place of a node: the names from the node up to the root. -/
abbrev NodePath := List Bytes

inductive Errno
  | ENOENT
  | ENOTDIR
  | EISDIR
  deriving DecidableEq

/-- A tree of files: the root is a directory, and every other node is named in one. -/
structure FileTree where
  nodes : Finmap fun _ : NodePath => Node
  root_dir : nodes.lookup [] = some .dir
  valid_name : ∀ n d, (n :: d) ∈ nodes → ValidName n
  parent_dir : ∀ n d, (n :: d) ∈ nodes → nodes.lookup d = some .dir

namespace FileTree

def node (t : FileTree) (p : NodePath) : Option Node := t.nodes.lookup p

theorem ext_node {t t' : FileTree} (h : ∀ p, t.node p = t'.node p) : t = t' := by
  obtain ⟨m, _, _, _⟩ := t
  obtain ⟨m', _, _, _⟩ := t'
  obtain rfl : m = m' := Finmap.ext_lookup h
  rfl

@[simp] theorem node_nil (t : FileTree) : t.node [] = some .dir := t.root_dir

theorem validName_of_node {t : FileTree} {n : Bytes} {d : NodePath} {x : Node} (h : t.node (n :: d) = some x) :
    ValidName n :=
  t.valid_name n d (Finmap.mem_of_lookup_eq_some h)

theorem node_parent {t : FileTree} {n : Bytes} {d : NodePath} {x : Node} (h : t.node (n :: d) = some x) :
    t.node d = some .dir :=
  t.parent_dir n d (Finmap.mem_of_lookup_eq_some h)

theorem node_tail {t : FileTree} {p : NodePath} (h : t.node p = some .dir) : t.node p.tail = some .dir := by
  cases p with
  | nil => exact h
  | cons n d => exact node_parent h

/-- **Whatever has a node below it is a directory.** -/
theorem dir_of_suffix {t : FileTree} {p : NodePath} {x : Node} : ∀ {q : NodePath}, t.node q = some x → p <:+ q → p ≠ q →
    t.node p = some .dir
  | [], _, hs, hne => absurd (List.suffix_nil.1 hs) hne
  | n :: q, hq, hs, hne => by
    rcases List.suffix_cons_iff.1 hs with rfl | hs
    · exact absurd rfl hne
    · by_cases hpq : p = q
      · subst hpq
        exact node_parent hq
      · exact dir_of_suffix (node_parent hq) hs hpq

theorem node_of_suffix {t : FileTree} {p q : NodePath} {x : Node} (hq : t.node q = some x) (hpq : p <:+ q) :
    t.node p ≠ none := by
  by_cases hne : p = q
  · simp [hne, hq]
  · simp [dir_of_suffix hq hpq hne]

def bare : FileTree where
  nodes := Finmap.singleton [] .dir
  root_dir := Finmap.lookup_singleton_eq
  valid_name n d h := by simp at h
  parent_dir n d h := by simp at h

@[simp] theorem node_bare (n : Bytes) (d : NodePath) : bare.node (n :: d) = none :=
  Finmap.lookup_eq_none.2 fun h => by simp [bare] at h

/-- A file may stand at `p`: `p` is a name in a directory, and no directory is there itself. -/
def CanHoldFile (t : FileTree) : NodePath → Prop
  | [] => False
  | n :: d => ValidName n ∧ t.node d = some .dir ∧ t.node (n :: d) ≠ some .dir

instance (t : FileTree) : ∀ p, Decidable (t.CanHoldFile p)
  | [] => inferInstanceAs (Decidable False)
  | n :: d => inferInstanceAs (Decidable (ValidName n ∧ t.node d = some .dir ∧ t.node (n :: d) ≠ some .dir))

theorem canHoldFile_of_file {t : FileTree} {p : NodePath} {c : Bytes} (h : t.node p = some (.file c)) :
    t.CanHoldFile p := by
  cases p with
  | nil => simp at h
  | cons n d => exact ⟨validName_of_node h, node_parent h, by simp [h]⟩

def setFile (t : FileTree) (p : NodePath) (c : Bytes) : FileTree :=
  if h : t.CanHoldFile p then
    { nodes := t.nodes.insert p (.file c)
      root_dir := by
        have hp : ([] : NodePath) ≠ p := by rintro rfl; exact h
        rw [Finmap.lookup_insert_of_ne _ hp, t.root_dir]
      valid_name := fun n d hm => by
        rcases Finmap.mem_insert.1 hm with hp | hm
        · rw [← hp] at h
          exact h.1
        · exact t.valid_name n d hm
      parent_dir := fun n d hm => by
        have hd : t.node d = some .dir := by
          rcases Finmap.mem_insert.1 hm with hp | hm
          · rw [← hp] at h
            exact h.2.1
          · exact t.parent_dir n d hm
        have hp : d ≠ p := by
          rintro rfl
          cases d with
          | nil => exact h
          | cons _ _ => exact h.2.2 hd
        rw [Finmap.lookup_insert_of_ne _ hp]
        exact hd }
  else t

theorem node_setFile {t : FileTree} {p : NodePath} (h : t.CanHoldFile p) (c : Bytes) (q : NodePath) :
    (t.setFile p c).node q = if q = p then some (.file c) else t.node q := by
  unfold setFile
  rw [dif_pos h]
  unfold node
  by_cases hq : q = p
  · subst hq
    rw [Finmap.lookup_insert, if_pos rfl]
  · rw [Finmap.lookup_insert_of_ne _ hq, if_neg hq]

@[simp] theorem node_setFile_of_ne {t : FileTree} {p q : NodePath} (h : q ≠ p) (c : Bytes) :
    (t.setFile p c).node q = t.node q := by
  by_cases hp : t.CanHoldFile p
  · rw [node_setFile hp, if_neg h]
  · unfold setFile
    rw [dif_neg hp]

theorem not_dir_of_canHoldFile {t : FileTree} {p : NodePath} (h : t.CanHoldFile p) : t.node p ≠ some .dir := by
  cases p with
  | nil => exact h.elim
  | cons n d => exact h.2.2

/-- **Writing a file leaves the directories as they were.** -/
@[simp] theorem dir_setFile (t : FileTree) (p q : NodePath) (c : Bytes) :
    (t.setFile p c).node q = some .dir ↔ t.node q = some .dir := by
  by_cases hp : t.CanHoldFile p
  · rw [node_setFile hp]
    split
    · rename_i hq
      subst hq
      simp [not_dir_of_canHoldFile hp]
    · rfl
  · unfold setFile
    rw [dif_neg hp]

@[simp] theorem canHoldFile_setFile (t : FileTree) (p q : NodePath) (c : Bytes) :
    (t.setFile p c).CanHoldFile q ↔ t.CanHoldFile q := by
  cases q with
  | nil => rfl
  | cons n d => simp [CanHoldFile]

theorem setFile_setFile (t : FileTree) (p : NodePath) (c c' : Bytes) :
    (t.setFile p c).setFile p c' = t.setFile p c' := by
  by_cases hp : t.CanHoldFile p
  · have hp' : (t.setFile p c).CanHoldFile p := by simpa using hp
    refine ext_node fun q => ?_
    rw [node_setFile hp', node_setFile hp, node_setFile hp]
    split <;> rfl
  · rw [setFile.eq_1 t, dif_neg hp]

theorem setFile_self {t : FileTree} {p : NodePath} {c : Bytes} (h : t.node p = some (.file c)) :
    t.setFile p c = t := by
  refine ext_node fun q => ?_
  rw [node_setFile (canHoldFile_of_file h)]
  split
  · rename_i hq
    rw [hq, h]
  · rfl

def mkdir (t : FileTree) (n : Bytes) (d : NodePath) : FileTree :=
  if h : ValidName n ∧ t.node d = some .dir ∧ t.node (n :: d) = none then
    { nodes := t.nodes.insert (n :: d) .dir
      root_dir := by
        rw [Finmap.lookup_insert_of_ne _ (by simp), t.root_dir]
      valid_name := fun n' d' hm => by
        rcases Finmap.mem_insert.1 hm with hp | hm
        · obtain ⟨rfl, rfl⟩ := List.cons.inj hp
          exact h.1
        · exact t.valid_name n' d' hm
      parent_dir := fun n' d' hm => by
        have hd : t.node d' = some .dir := by
          rcases Finmap.mem_insert.1 hm with hp | hm
          · obtain ⟨rfl, rfl⟩ := List.cons.inj hp
            exact h.2.1
          · exact t.parent_dir n' d' hm
        have hp : d' ≠ n :: d := by
          rintro rfl
          rw [h.2.2] at hd
          cases hd
        rw [Finmap.lookup_insert_of_ne _ hp]
        exact hd }
  else t

/-- The tree without the file at `p`; a directory stays. -/
def unlink (t : FileTree) (p : NodePath) : FileTree :=
  if h : t.node p ≠ some .dir then
    { nodes := t.nodes.erase p
      root_dir := by
        have hp : ([] : NodePath) ≠ p := by rintro rfl; exact h t.root_dir
        rw [Finmap.lookup_erase_ne hp, t.root_dir]
      valid_name := fun n d hm => t.valid_name n d (Finmap.mem_erase.1 hm).2
      parent_dir := fun n d hm => by
        have hd := t.parent_dir n d (Finmap.mem_erase.1 hm).2
        have hp : d ≠ p := by rintro rfl; exact h hd
        rw [Finmap.lookup_erase_ne hp, hd] }
  else t

theorem node_unlink {t : FileTree} {p : NodePath} (h : t.node p ≠ some .dir) (q : NodePath) :
    (t.unlink p).node q = if q = p then none else t.node q := by
  unfold unlink
  rw [dif_pos h]
  unfold node
  by_cases hq : q = p
  · subst hq
    rw [Finmap.lookup_erase, if_pos rfl]
  · rw [Finmap.lookup_erase_ne hq, if_neg hq]

theorem unlink_setFile {t : FileTree} {p : NodePath} (h : t.CanHoldFile p) (c : Bytes) :
    (t.setFile p c).unlink p = t.unlink p := by
  have hd := not_dir_of_canHoldFile h
  have hd' : (t.setFile p c).node p ≠ some .dir := fun h' => hd ((dir_setFile ..).1 h')
  refine ext_node fun q => ?_
  rw [node_unlink hd', node_unlink hd]
  split
  · rfl
  · rename_i hq
    exact node_setFile_of_ne hq c

theorem node_unlink_of_ne {t : FileTree} {p q : NodePath} (h : q ≠ p) : (t.unlink p).node q = t.node q := by
  by_cases hp : t.node p = some .dir
  · unfold unlink
    rw [dif_neg (by simpa using hp)]
  · rw [node_unlink hp, if_neg h]

@[simp] theorem dir_unlink (t : FileTree) (p q : NodePath) :
    (t.unlink p).node q = some .dir ↔ t.node q = some .dir := by
  by_cases hp : t.node p = some .dir
  · unfold unlink
    rw [dif_neg (by simpa using hp)]
  · rw [node_unlink hp]
    split
    · rename_i hq
      subst hq
      simp [hp]
    · rfl

/-! ## Lookup -/

def walk (t : FileTree) : NodePath → List Bytes → Except Errno NodePath
  | p, [] => .ok p
  | p, c :: cs =>
    match t.node p with
    | some .dir =>
      if c = [] ∨ c = [dot] then walk t p cs
      else if c = [dot, dot] then walk t p.tail cs
      else walk t (c :: p) cs
    | some (.file _) => .error .ENOTDIR
    | none => .error .ENOENT

theorem walk_cons_ok {t : FileTree} {p q : NodePath} {c : Bytes} {cs : List Bytes}
    (h : t.walk p (c :: cs) = .ok q) :
    t.node p = some .dir ∧
      t.walk (if c = [] ∨ c = [dot] then p else if c = [dot, dot] then p.tail else c :: p) cs = .ok q := by
  rw [walk] at h
  split at h
  · rename_i hp
    refine ⟨hp, ?_⟩
    split at h
    · rename_i h1; rw [if_pos h1]; exact h
    · rename_i h1
      split at h
      · rename_i h2; rw [if_neg h1, if_pos h2]; exact h
      · rename_i h2; rw [if_neg h1, if_neg h2]; exact h
  · cases h
  · cases h

theorem walk_append (t : FileTree) : ∀ (cs ds : List Bytes) (p : NodePath),
    t.walk p (cs ++ ds) = (t.walk p cs).bind fun q => t.walk q ds
  | [], _, _ => rfl
  | c :: cs, ds, p => by
    rw [List.cons_append, walk, walk]
    split
    · split
      · exact walk_append t cs ds p
      · split
        · exact walk_append t cs ds p.tail
        · exact walk_append t cs ds (c :: p)
    · rfl
    · rfl

theorem walk_valid {t : FileTree} {d : NodePath} {n : Bytes} (hd : t.node d = some .dir) (hn : ValidName n) :
    t.walk d [n] = .ok (n :: d) := by
  obtain ⟨h1, h2, h3, -⟩ := hn
  simp [walk, hd, h1, h2, h3]

/-- **A lookup goes through directories only**, so trees with the same directories look up the same. -/
theorem walk_of_same_dirs {t t' : FileTree} (h : ∀ p, t.node p = some .dir → t'.node p = some .dir) :
    ∀ (cs : List Bytes) {p q : NodePath}, t.walk p cs = .ok q → t'.walk p cs = .ok q
  | [], _, _, hw => hw
  | c :: cs, p, q, hw => by
    obtain ⟨hp, hw⟩ := walk_cons_ok hw
    have := walk_of_same_dirs h cs hw
    rw [walk, h p hp]
    split at this
    · rename_i h1; simpa [h1] using this
    · rename_i h1
      split at this
      · rename_i h2; simpa [h1, h2] using this
      · rename_i h2; simpa [h1, h2] using this

/-- **What a lookup ends at that is no directory is named by the last component.** -/
theorem walk_last {t : FileTree} : ∀ {cs : List Bytes} {p q : NodePath}, t.node p = some .dir →
    (∀ c ∈ cs, slash ∉ c) → t.walk p cs = .ok q → t.node q ≠ some .dir →
    ∃ (hne : cs ≠ []) (d : NodePath), q = cs.getLast hne :: d ∧ ValidName (cs.getLast hne) ∧ t.node d = some .dir
  | [], p, q, hp, _, hw, hq => absurd hp (by cases hw; exact hq)
  | c :: cs, p, q, hp, hcs, hw, hq => by
    obtain ⟨-, hw⟩ := walk_cons_ok hw
    generalize hp' : (if c = [] ∨ c = [dot] then p else if c = [dot, dot] then p.tail else c :: p) = p' at hw
    cases cs with
    | nil =>
      obtain rfl : p' = q := by cases hw; rfl
      have h1 : ¬(c = [] ∨ c = [dot]) := fun h1 => hq (by rw [← hp', if_pos h1]; exact hp)
      have h2 : c ≠ [dot, dot] := fun h2 => hq (by rw [← hp', if_neg h1, if_pos h2]; exact node_tail hp)
      rw [if_neg h1, if_neg h2] at hp'
      rw [not_or] at h1
      exact ⟨by simp, p, by simp [hp'], ⟨h1.1, h1.2, h2, hcs c (by simp)⟩, hp⟩
    | cons c' cs =>
      have hp'd : t.node p' = some .dir := (walk_cons_ok hw).1
      obtain ⟨hne, d, h1, h2, h3⟩ := walk_last hp'd (fun x hx => hcs x (List.mem_cons_of_mem _ hx)) hw hq
      exact ⟨by simp, d, by simpa using h1, by simpa using h2, h3⟩

def resolve (t : FileTree) (d : NodePath) (s : Bytes) : Except Errno NodePath := t.walk d (components s)

theorem resolve_of_valid {t : FileTree} {d : NodePath} {n : Bytes} (hd : t.node d = some .dir) (hn : ValidName n) :
    t.resolve d n = .ok (n :: d) := by
  unfold resolve
  rw [hn.components_eq]
  exact walk_valid hd hn

theorem resolve_of_same_dirs {t t' : FileTree} (h : ∀ p, t.node p = some .dir → t'.node p = some .dir)
    {d q : NodePath} {s : Bytes} (hr : t.resolve d s = .ok q) : t'.resolve d s = .ok q :=
  walk_of_same_dirs h _ hr

/-- **A path to anything but a directory ends in its base name**, a name in some directory. -/
theorem resolve_baseName {t : FileTree} {d q : NodePath} {s : Bytes} (hd : t.node d = some .dir)
    (hr : t.resolve d s = .ok q) (hq : t.node q ≠ some .dir) :
    ∃ d', q = baseName s :: d' ∧ ValidName (baseName s) ∧ t.node d' = some .dir := by
  obtain ⟨_, d', h⟩ := walk_last hd (fun _ hc => notMem_of_mem_components hc) hr hq
  exact ⟨d', h⟩

theorem canHoldFile_of_resolve {t : FileTree} {d q : NodePath} {s : Bytes} (hd : t.node d = some .dir)
    (hr : t.resolve d s = .ok q) (hq : t.node q ≠ some .dir) : t.CanHoldFile q := by
  obtain ⟨d', rfl, hn, hd'⟩ := resolve_baseName hd hr hq
  exact ⟨hn, hd', hq⟩

/-! ## Directory listings -/

def children (t : FileTree) (d : NodePath) : Multiset (Bytes × Node) :=
  t.nodes.entries.filterMap fun e =>
    match e.1 with
    | [] => none
    | n :: d' => if d' = d then some (n, e.2) else none

theorem mem_children {t : FileTree} {d : NodePath} {n : Bytes} {x : Node} :
    (n, x) ∈ t.children d ↔ t.node (n :: d) = some x := by
  unfold children node
  rw [Multiset.mem_filterMap, Finmap.lookup_eq_some_iff]
  constructor
  · rintro ⟨⟨p, y⟩, hm, h⟩
    cases p with
    | nil => cases h
    | cons n' d' =>
      by_cases hd : d' = d
      · simp only [hd, if_true, Option.some.injEq, Prod.mk.injEq] at h
        obtain ⟨rfl, rfl⟩ := h
        rwa [← hd]
      · simp [hd] at h
  · intro hm
    exact ⟨⟨n :: d, x⟩, hm, by simp⟩

theorem children_eq_zero_iff {t : FileTree} {d : NodePath} : t.children d = 0 ↔ ∀ n, t.node (n :: d) = none := by
  rw [Multiset.eq_zero_iff_forall_notMem]
  constructor
  · intro h n
    cases hx : t.node (n :: d) with
    | none => rfl
    | some x => exact absurd (mem_children.2 hx) (h (n, x))
  · rintro h ⟨n, x⟩ hx
    rw [mem_children, h n] at hx
    cases hx

/-- **A directory lists each name once.** -/
theorem nodup_children (t : FileTree) (d : NodePath) : ((t.children d).map Prod.fst).Nodup := by
  have hnd : (t.children d).Nodup := by
    refine Multiset.Nodup.filterMap _ ?_ t.nodes.nodup_entries
    rintro ⟨p, x⟩ ⟨q, y⟩ ⟨n, z⟩ hp hq
    cases p with
    | nil => cases hp
    | cons n₁ d₁ => cases q with
      | nil => cases hq
      | cons n₂ d₂ =>
        by_cases h1 : d₁ = d <;> by_cases h2 : d₂ = d <;> simp [h1, h2] at hp hq
        obtain ⟨rfl, rfl⟩ := hp
        obtain ⟨rfl, rfl⟩ := hq
        rw [h1, h2]
  refine (Multiset.nodup_map_iff_of_inj_on ?_).2 hnd
  rintro ⟨n, x⟩ hx ⟨n', y⟩ hy (rfl : n = n')
  rw [mem_children] at hx hy
  rw [hx] at hy
  cases hy
  rfl

theorem mem_names {t : FileTree} {d : NodePath} {n : Bytes} :
    n ∈ (t.children d).map Prod.fst ↔ (t.node (n :: d)).isSome := by
  rw [Multiset.mem_map, Option.isSome_iff_exists]
  constructor
  · rintro ⟨⟨n, x⟩, hx, rfl⟩
    exact ⟨x, mem_children.1 hx⟩
  · rintro ⟨x, hx⟩
    exact ⟨(n, x), mem_children.2 hx, rfl⟩

theorem card_children_setFile {t : FileTree} {p : NodePath} {c : Bytes} (h : t.node p = some (.file c)) (c' : Bytes)
    (d : NodePath) : ((t.setFile p c').children d).card = (t.children d).card := by
  have hnames : ((t.setFile p c').children d).map Prod.fst = (t.children d).map Prod.fst := by
    refine (Multiset.Nodup.ext (nodup_children _ _) (nodup_children _ _)).2 fun n => ?_
    rw [mem_names, mem_names, node_setFile (canHoldFile_of_file h)]
    split
    · rename_i hn
      simp [hn, h]
    · rfl
  rw [← Multiset.card_map Prod.fst, hnames, Multiset.card_map]

theorem children_mono {t t' : FileTree} {d : NodePath} (h : ∀ n x, t'.node (n :: d) = some x → t.node (n :: d) = some x) :
    t'.children d ≤ t.children d := by
  rw [Multiset.le_iff_subset (.of_map Prod.fst (nodup_children _ d))]
  rintro ⟨n, x⟩ hx
  rw [mem_children] at hx ⊢
  exact h n x hx

end FileTree
end Posix
