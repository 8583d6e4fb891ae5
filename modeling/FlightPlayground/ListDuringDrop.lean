import FlightPlayground.ListingAgreement
import FlightPlayground.PutFailure
/-!
# ListDuringDrop — a listing while datasets are dropped

`ListFlights` takes the directory's entries and then opens each dataset in turn, and reads it; `drop_dataset` removes a file
at any time in between.  A dataset that is gone by the time it is opened fails the whole listing; one that is open by then is
read as it was.
-/
namespace ListDuringDrop

open Posix (Bytes Node NodePath FileTree ValidName utf8)
open Unordered (Enumeration)
open Arrow
open Flight
open Interleave
open FlightStressTestServer (Task inspect)
open DatasetServer (isDataset mintedInfo)
open ReadDuringPut (datasetNames Readable)
open ListingAgreement (Describes)

variable {Schema Row ι : Type} [DecidableEq ι] (pq : Parquet Schema Row) (port : Nat)

/-! ## Requests -/

/-- The directory, and what was in the files that have been removed from it, for whoever has them open. -/
structure Store where
  root : SubTreeFileSystem
  unlinked : NodePath → Option Bytes

namespace Store

def bytesOf (store : Store) (input : ReadableFile) : Bytes :=
  match store.root.tree.node input.path with
  | some (.file c) => c.take input.size
  | _ => ((store.unlinked input.path).getD []).take input.size

/-- The directory becomes `root'`; what was in the files that are gone is kept. -/
def setRoot (store : Store) (root' : SubTreeFileSystem) : Store :=
  ⟨root', fun p =>
    match store.root.tree.node p, root'.tree.node p with
    | some (.file c), none => some c
    | _, _ => store.unlinked p⟩

@[simp] theorem setRoot_root (store : Store) (root' : SubTreeFileSystem) : (store.setRoot root').root = root' := rfl

end Store

/-- Where a request stands: a listing is somewhere between its steps, and an action is one step. -/
inductive Request (Schema Row : Type)
  | listing (t : Task Schema Row)
  | doAction (action : Action)
  | acted (result : Result Unit)

def Request.step (store : Store) : Request Schema Row → Store × Request Schema Row
  | .listing (.listingFile fileInfo input rest found) =>
    (store, .listing (.listed rest found (inspect pq port fileInfo input (store.bytesOf input))))
  | .listing t => ({ store with root := (t.step pq port store.root).1 }, .listing (t.step pq port store.root).2)
  | .doAction action =>
    (store.setRoot (FlightStressTestServer.doAction store.root action).2,
      .acted (FlightStressTestServer.doAction store.root action).1)
  | .acted result => (store, .acted result)

/-- A listing on the thread `w` and an action on every other. -/
def start (root : SubTreeFileSystem) (w : ι) (readdir : Enumeration (Bytes × Node)) (action : ι → Action) :
    Pool ι Store (Request Schema Row) :=
  ⟨⟨root, fun _ => none⟩, fun i => if i = w then .listing (.listFlights readdir) else .doAction (action i)⟩

def run (root : SubTreeFileSystem) (w : ι) (readdir : Enumeration (Bytes × Node)) (action : ι → Action) (sched : List ι) :
    Pool ι Store (Request Schema Row) :=
  (start root w readdir action).run (Request.step pq port) sched

/-- The dataset is in the listing and has not been opened yet. -/
def Request.Pending : Request Schema Row → Bytes → Prop
  | .listing (.listing rest _), name => ∃ fileInfo ∈ rest, isDataset fileInfo ∧ fileInfo.path = name
  | .listing (.listingFile _ _ rest _), name => ∃ fileInfo ∈ rest, isDataset fileInfo ∧ fileInfo.path = name
  | _, _ => False

def Request.Failed : Request Schema Row → Prop
  | .listing (.flights (.error _)) => True
  | _ => False

/-- The listing has failed, or will at a dataset that is gone. -/
def Request.Lost (root : SubTreeFileSystem) (t : Request Schema Row) : Prop :=
  t.Failed ∨ ∃ name, t.Pending name ∧ name ∉ datasetNames root

/-- The step of `i` removes a dataset that the listing has still to open. -/
def Loses (w : ι) (c : Pool ι Store (Request Schema Row)) (i : ι) : Prop :=
  ∃ name, (c.task w).Pending name ∧ name ∈ datasetNames c.shared.root ∧
    name ∉ datasetNames (c.step (Request.step pq port) i).shared.root

/-! ## A store that only loses files -/

structure Shrinks (root root' : SubTreeFileSystem) : Prop where
  base : root'.base = root.base
  node : ∀ q x, root'.tree.node q = some x → root.tree.node q = some x

section Store

variable {pq} {root root' root'' : SubTreeFileSystem}

theorem Shrinks.refl (root : SubTreeFileSystem) : Shrinks root root := ⟨rfl, fun _ _ => id⟩

theorem Shrinks.trans (h : Shrinks root root') (h' : Shrinks root' root'') : Shrinks root root'' :=
  ⟨h'.base.trans h.base, fun q x hx => h.node q x (h'.node q x hx)⟩

theorem Shrinks.entry (h : Shrinks root root') {name : Bytes} {x : Node}
    (hx : root'.tree.node (name :: root'.base) = some x) : root.tree.node (name :: root.base) = some x := by
  rw [h.base] at hx
  exact h.node _ x hx

theorem Shrinks.card_le (h : Shrinks root root') :
    (root'.tree.children root'.base).card ≤ (root.tree.children root.base).card := by
  rw [h.base]
  exact Multiset.card_le_card (FileTree.children_mono fun n x => h.node _ x)

/-- **An action removes a file or nothing.** -/
theorem doAction_shrinks (root : SubTreeFileSystem) (action : Action) :
    Shrinks root (FlightStressTestServer.doAction root action).2 := by
  by_cases ha : action.type = utf8 "drop_dataset"
  · unfold FlightStressTestServer.doAction
    rw [DatasetServer.doAction_of_drop ha]
    obtain ⟨p, c, -, hp, hres⟩ | ⟨-, e, hres⟩ := DatasetServer.doActionDropDataset_cases root action.body
    · rw [hres]
      refine ⟨rfl, fun q x hx => ?_⟩
      rw [SubTreeFileSystem.unlink_tree, FileTree.node_unlink (by simp [hp])] at hx
      split at hx
      · cases hx
      · exact hx
    · rw [hres]
      exact .refl root
  · unfold FlightStressTestServer.doAction
    rw [DatasetServer.doAction_of_unknown ha]
    exact .refl root

theorem Shrinks.mem_datasetNames (h : Shrinks root root') {name : Bytes} (hn : name ∈ datasetNames root') :
    name ∈ datasetNames root := by
  obtain ⟨x, hx, hd⟩ := ReadDuringPut.mem_datasetNames.1 hn
  exact ReadDuringPut.mem_datasetNames.2 ⟨x, h.entry hx, hd⟩

theorem Shrinks.readable (h : Shrinks root root') (hr : Readable pq root) : Readable pq root' := fun name c hc hext =>
  hr name c (h.entry hc) hext

/-- What has been removed of the files of `root` is kept as it was. -/
def Keeps (root : SubTreeFileSystem) (store : Store) : Prop :=
  ∀ q c, root.tree.node q = some (.file c) → store.root.tree.node q = none → store.unlinked q = some c

theorem keeps_refl (store : Store) : Keeps store.root store := fun q c hq hnone => by cases hq.symm.trans hnone

theorem Keeps.setRoot {store : Store} (h : Keeps root store) (hs : Shrinks root store.root) (root' : SubTreeFileSystem) :
    Keeps root (store.setRoot root') := by
  intro q c hq hnone
  rw [Store.setRoot_root] at hnone
  unfold Store.setRoot
  rcases hx : store.root.tree.node q with _ | x
  · simpa [hx] using h q c hq hx
  · obtain rfl : x = .file c := Option.some.inj ((hs.node q x hx).symm.trans hq)
    simp [hx, hnone]

/-- **A file of `root` that is open reads as it did**, also when it is gone. -/
theorem Keeps.bytesOf {store : Store} (h : Keeps root store) (hs : Shrinks root store.root) {q : NodePath} {c : Bytes}
    (hq : root.tree.node q = some (.file c)) : store.bytesOf ⟨q, c.length⟩ = c := by
  unfold Store.bytesOf
  rcases hx : store.root.tree.node q with _ | x
  · simp [h q c hq hx]
  · obtain rfl : x = .file c := Option.some.inj ((hs.node q x hx).symm.trans hq)
    simp

end Store

def Request.remaining (k : Nat) : Request Schema Row → Nat
  | .listing t => t.remaining k
  | _ => 0

/-! ## The listing -/

section Listing

variable {pq port} {root root' : SubTreeFileSystem}

/-- What a listing that has taken the entries of `root` has still to report, and what it has found. -/
def ListedSoFar (pq : Parquet Schema Row) (port : Nat) (root : SubTreeFileSystem) (rest : List FileInfo)
    (found : List (FlightInfo Schema)) : Prop :=
  (∀ fileInfo ∈ rest, ∃ name x, fileInfo = .ofNode name (some x) ∧ root.tree.node (name :: root.base) = some x) ∧
    ∃ names : List Bytes,
      ((names ++ (rest.filter isDataset).map FileInfo.path : List Bytes) : Multiset Bytes) = datasetNames root ∧
        List.Forall₂ (Describes pq port root) names found

/-- Where a listing can stand that has taken the entries of `root`. -/
def ListingAt (pq : Parquet Schema Row) (port : Nat) (root : SubTreeFileSystem) : Request Schema Row → Prop
  | .listing (.listing rest found) => ListedSoFar pq port root rest found
  | .listing (.listingFile fileInfo input rest found) => ListedSoFar pq port root (fileInfo :: rest) found ∧
      isDataset fileInfo ∧ ∃ c, root.tree.node (fileInfo.path :: root.base) = some (.file c) ∧
        input = ⟨fileInfo.path :: root.base, c.length⟩
  | .listing (.flights r) => ∀ fs, r = .ok fs → ∃ names : List Bytes, (names : Multiset Bytes) = datasetNames root ∧
      List.Forall₂ (Describes pq port root) names fs
  | _ => False

theorem ListingAt.cases {t : Request Schema Row} (h : ListingAt pq port root t) :
    (∃ rest found, t = .listing (.listing rest found)) ∨
      (∃ fileInfo input rest found, t = .listing (.listingFile fileInfo input rest found)) ∨ ∃ r, t = .listing (.flights r) := by
  unfold ListingAt at h
  split at h
  · exact .inl ⟨_, _, rfl⟩
  · exact .inr (.inl ⟨_, _, _, _, rfl⟩)
  · exact .inr (.inr ⟨_, rfl⟩)
  · exact h.elim

/-- **A dataset of the listing is opened with the size it was listed with if it is still there, and not at all if it is
gone.** -/
theorem openReadable_of_listed (hs : Shrinks root root') {name : Bytes} {x : Node}
    (hx : root.tree.node (name :: root.base) = some x) (hd : isDataset (.ofNode name (some x))) :
    (name ∈ datasetNames root' ∧ ∃ c, x = .file c ∧
      root'.openReadableInfo (.ofNode name (some x)) = .ok ⟨name :: root.base, c.length⟩) ∨
    (name ∉ datasetNames root' ∧ ∃ e, root'.openReadableInfo (.ofNode name (some x)) = .error e) := by
  cases x with
  | dir => cases hd
  | file c =>
    by_cases hn : name ∈ datasetNames root'
    · left
      obtain ⟨y, hy, -⟩ := ReadDuringPut.mem_datasetNames.1 hn
      obtain rfl : y = .file c := Option.some.inj ((hs.entry hy).symm.trans hx)
      rw [← hs.base]
      exact ⟨hn, c, rfl, SubTreeFileSystem.openReadable_of_node hy⟩
    · right
      refine ⟨hn, ?_⟩
      cases ho : root'.openReadableInfo (.ofNode name (some (.file c))) with
      | error e => exact ⟨e, rfl⟩
      | ok input =>
        have hopen : root'.openReadable name = .ok input := ho
        obtain ⟨hr, c', hc', -⟩ := SubTreeFileSystem.file_of_openReadable hopen
        rw [SubTreeFileSystem.resolve_of_valid (FileTree.validName_of_node hx), Except.ok.injEq] at hr
        rw [← hr] at hc'
        exact absurd (ReadDuringPut.mem_datasetNames.2 ⟨_, hc', hd⟩) hn

variable (port) in
/-- **The info of a dataset that is open describes it as it was listed.** -/
theorem inspect_of_listed (hr : Readable pq root) {name c : Bytes} (hx : root.tree.node (name :: root.base) = some (.file c))
    (hd : isDataset (.ofNode name (some (.file c)))) : ∃ f,
    inspect pq port (.ofNode name (some (.file c))) ⟨name :: root.base, c.length⟩ c = .ok f ∧
      Describes pq port root name f := by
  obtain ⟨md, hmd⟩ := Option.isSome_iff_exists.1 (hr name c hx hd)
  exact ⟨mintedInfo port name md c.length, FlightStressTestServer.inspect_whole (FileTree.validName_of_node hx) hmd c _, hd, c,
    md, hx, hmd, rfl⟩

theorem pending_cons (fileInfo : FileInfo) (rest : List FileInfo) (found : List (FlightInfo Schema)) (name : Bytes) :
    (Request.listing (.listing (fileInfo :: rest) found) : Request Schema Row).Pending name ↔
      (isDataset fileInfo ∧ fileInfo.path = name) ∨
        (Request.listing (.listing rest found) : Request Schema Row).Pending name := by
  simp [Request.Pending]

theorem Request.step_listing (store : Store) (fileInfo : FileInfo) (rest : List FileInfo)
    (found : List (FlightInfo Schema)) :
    (Request.listing (.listing (fileInfo :: rest) found) : Request Schema Row).step pq port store =
      if isDataset fileInfo then
        match store.root.openReadableInfo fileInfo with
        | .error e => (store, .listing (.flights (.error e)))
        | .ok input => (store, .listing (.listingFile fileInfo input rest found))
      else (store, .listing (.listing rest found)) := by
  rw [Request.step, Task.step_listing]
  · split
    · cases store.root.openReadableInfo fileInfo <;> rfl
    · rfl
  · exact fun _ _ _ _ h => by cases h

/-- **A step of the listing leaves the store alone**, and neither loses nor finds a dataset. -/
theorem ListingAt.step {store : Store} (hs : Shrinks root store.root) (hk : Keeps root store) (hr : Readable pq root)
    {t : Request Schema Row} (ht : ListingAt pq port root t) :
    (t.step pq port store).1 = store ∧ ListingAt pq port root (t.step pq port store).2 ∧
      ((t.step pq port store).2.Lost store.root ↔ t.Lost store.root) := by
  rcases ht.cases with ⟨rest, found, rfl⟩ | ⟨fileInfo, input, rest, found, rfl⟩ | ⟨r, rfl⟩
  · obtain ⟨hlisted, names, hnames, hall⟩ := ht
    cases rest with
    | nil =>
      refine ⟨rfl, fun fs hfs => ⟨names, by simpa using hnames, by cases hfs; exact hall⟩, ?_⟩
      simp [Request.Lost, Request.step, Task.step, Request.Failed, Request.Pending]
    | cons fileInfo rest =>
      rw [Request.step_listing]
      by_cases hd : isDataset fileInfo = true
      · obtain ⟨name, x, rfl, hx⟩ := hlisted fileInfo List.mem_cons_self
        rw [if_pos hd]
        rcases openReadable_of_listed hs hx hd with ⟨hn, c, rfl, ho⟩ | ⟨hn, e, he⟩
        · simp only [ho, true_and]
          refine ⟨⟨⟨hlisted, names, hnames, hall⟩, hd, c, hx, rfl⟩, ?_⟩
          simp only [Request.Lost, pending_cons, FileInfo.ofNode_path, hd, true_and, Request.Failed, false_or]
          constructor
          · rintro ⟨name', hp, hn'⟩
            exact ⟨name', .inr hp, hn'⟩
          · rintro ⟨name', rfl | hp, hn'⟩
            · exact absurd hn hn'
            · exact ⟨name', hp, hn'⟩
        · simp only [he, true_and]
          constructor
          · intro fs hfs
            cases hfs
          · have hlost : Request.Lost store.root
                (.listing (.listing (.ofNode name (some x) :: rest) found) : Request Schema Row) :=
              .inr ⟨name, (pending_cons _ _ _ _).2 (.inl ⟨hd, FileInfo.ofNode_path _ _⟩), hn⟩
            exact ⟨fun _ => hlost, fun _ => .inl trivial⟩
      · rw [if_neg hd]
        rw [List.filter_cons_of_neg hd] at hnames
        refine ⟨rfl, ⟨fun info hi => hlisted info (List.mem_cons_of_mem _ hi), names, hnames, hall⟩, ?_⟩
        simp only [Request.Lost, pending_cons, hd, Request.Failed]
        simp [Request.Pending]
  · obtain ⟨⟨hlisted, names, hnames, hall⟩, hd, c, hc, rfl⟩ := ht
    obtain ⟨name, x, rfl, hx⟩ := hlisted fileInfo List.mem_cons_self
    rw [FileInfo.ofNode_path] at hc
    obtain rfl : x = .file c := Option.some.inj (hx.symm.trans hc)
    obtain ⟨f, hf, hdesc⟩ := inspect_of_listed port hr hx hd
    simp only [Request.step, FileInfo.ofNode_path, hk.bytesOf hs hx, hf, Task.listed, true_and]
    refine ⟨⟨fun info hi => hlisted info (List.mem_cons_of_mem _ hi), names ++ [name], ?_,
      List.rel_append hall (.cons hdesc .nil)⟩, Iff.rfl⟩
    rw [← hnames, List.filter_cons_of_pos hd]
    simp
  · exact ⟨rfl, ht, Iff.rfl⟩

theorem ListingAt.answered {t : Request Schema Row} (ht : ListingAt pq port root t) {k : Nat} (h : t.remaining k = 0) :
    ∃ r, t = .listing (.flights r) := by
  rcases ht.cases with ⟨rest, found, rfl⟩ | ⟨fileInfo, input, rest, found, rfl⟩ | hr
  · exact absurd h (Nat.succ_ne_zero _)
  · exact absurd h (Nat.succ_ne_zero _)
  · exact hr

variable (pq port) in
theorem Request.remaining_step {store : Store} {k : Nat} (hk : (store.root.tree.children store.root.base).card ≤ k)
    (t : Request Schema Row) : (t.step pq port store).2.remaining k ≤ t.remaining k - 1 := by
  cases t with
  | listing t =>
    unfold Request.step
    split
    · rename_i fileInfo input rest found ht
      obtain rfl := Request.listing.inj ht
      simp only [Request.remaining, Task.remaining]
      cases inspect pq port fileInfo input (store.bytesOf input) <;> simp [Task.listed]
    · rename_i t' _ ht
      obtain rfl := Request.listing.inj ht
      exact Task.remaining_step pq port hk t
    · rename_i ht
      cases ht
    · rename_i ht
      cases ht
  | doAction action => exact Nat.zero_le _
  | acted result => exact Nat.zero_le _

variable (pq port) in
theorem listingAt_start (root : SubTreeFileSystem) (readdir : Enumeration (Bytes × Node)) :
    ∃ infos, (Task.step pq port root (.listFlights readdir : Task Schema Row)) = (root, .listing infos []) ∧
      ListingAt pq port root (.listing (.listing infos []) : Request Schema Row) ∧
      ¬ (Request.listing (.listing infos []) : Request Schema Row).Lost root := by
  have hnames := ReadDuringPut.names_of_listing root readdir
  refine ⟨_, rfl, ⟨fun fileInfo hf => ?_, [], by simpa using hnames, .nil⟩, ?_⟩
  · obtain ⟨⟨name, x⟩, he, rfl⟩ := List.mem_map.1 hf
    exact ⟨name, x, rfl, FileTree.mem_children.1 ((Enumeration.mem_list _).1 he)⟩
  · rintro (hfailed | ⟨name, ⟨fileInfo, hf, hd, rfl⟩, hgone⟩)
    · exact hfailed
    · rw [← hnames, Multiset.mem_coe] at hgone
      exact hgone (List.mem_map_of_mem (List.mem_filter.2 ⟨hf, hd⟩))

end Listing

/-! ## All threads -/

section Runs

variable {pq port} {root : SubTreeFileSystem} {w : ι}

/-- The listing has taken the entries of `root`, and no other thread is a listing. -/
structure During (pq : Parquet Schema Row) (port : Nat) (root : SubTreeFileSystem) (w : ι)
    (c : Pool ι Store (Request Schema Row)) : Prop where
  shrinks : Shrinks root c.shared.root
  keeps : Keeps root c.shared
  lister : ListingAt pq port root (c.task w)
  others : ∀ i, i ≠ w → ∀ t, c.task i ≠ .listing t

variable (pq port) in
theorem Request.step_other (store : Store) {t : Request Schema Row} (ht : ∀ t', t ≠ .listing t') :
    Shrinks store.root (t.step pq port store).1.root ∧
      (∀ {root}, Shrinks root store.root → Keeps root store → Keeps root (t.step pq port store).1) ∧
      ∀ t', (t.step pq port store).2 ≠ .listing t' := by
  cases t with
  | listing t => exact absurd rfl (ht t)
  | doAction action =>
    exact ⟨doAction_shrinks store.root action, fun hs hk => hk.setRoot hs _, fun t' h => by cases h⟩
  | acted result => exact ⟨.refl store.root, fun _ hk => hk, fun t' h => by cases h⟩

theorem During.step (hr : Readable pq root) (c : Pool ι Store (Request Schema Row)) (i : ι)
    (h : During pq port root w c) : During pq port root w (c.step (Request.step pq port) i) := by
  by_cases hi : i = w
  · subst hi
    obtain ⟨hstore, hlister, -⟩ := h.lister.step h.shrinks h.keeps hr
    refine ⟨?_, ?_, ?_, fun j hj => ?_⟩
    · rw [Pool.step_shared, hstore]
      exact h.shrinks
    · rw [Pool.step_shared, hstore]
      exact h.keeps
    · rwa [Pool.step_task_self]
    · rw [Pool.step_task_of_ne _ _ hj]
      exact h.others j hj
  · obtain ⟨hstore, hkeeps, hother⟩ := Request.step_other pq port c.shared (h.others i hi)
    refine ⟨h.shrinks.trans hstore, hkeeps h.shrinks h.keeps, ?_, ?_⟩
    · rw [Pool.step_task_of_ne _ _ (Ne.symm hi)]
      exact h.lister
    · exact Pool.forall_task_step (Q := fun j t => j ≠ w → ∀ t', t ≠ .listing t') _ c (fun j _ => h.others j) fun _ => hother

/-- **A dataset is lost when it is dropped before it is opened**, and at no other step. -/
theorem During.step_lost_iff (hr : Readable pq root) (c : Pool ι Store (Request Schema Row)) (i : ι)
    (h : During pq port root w c) :
    ((c.step (Request.step pq port) i).task w).Lost (c.step (Request.step pq port) i).shared.root ↔
      (c.task w).Lost c.shared.root ∨ Loses pq port w c i := by
  by_cases hi : i = w
  · subst hi
    obtain ⟨hstore, -, hlost⟩ := h.lister.step h.shrinks h.keeps hr
    rw [Pool.step_task_self, Pool.step_shared, hstore, hlost]
    constructor
    · exact .inl
    · rintro (hl | ⟨name, -, hn, hn'⟩)
      · exact hl
      · rw [Pool.step_shared, hstore] at hn'
        exact absurd hn hn'
  · have hstore : Shrinks c.shared.root (c.step (Request.step pq port) i).shared.root :=
      (Request.step_other pq port c.shared (h.others i hi)).1
    rw [Pool.step_task_of_ne _ _ (Ne.symm hi)]
    constructor
    · rintro (hf | ⟨name, hp, hn⟩)
      · exact .inl (.inl hf)
      · by_cases hbefore : name ∈ datasetNames c.shared.root
        · exact .inr ⟨name, hp, hbefore, hn⟩
        · exact .inl (.inr ⟨name, hp, hbefore⟩)
    · rintro ((hf | ⟨name, hp, hn⟩) | ⟨name, hp, -, hn⟩)
      · exact .inl hf
      · exact .inr ⟨name, hp, fun hn' => hn (hstore.mem_datasetNames hn')⟩
      · exact .inr ⟨name, hp, hn⟩

/-- The listing has not begun, and no other thread is a listing. -/
structure Before (root : SubTreeFileSystem) (w : ι) (readdir : Enumeration (Bytes × Node))
    (c : Pool ι Store (Request Schema Row)) : Prop where
  shrinks : Shrinks root c.shared.root
  lister : c.task w = .listing (.listFlights readdir)
  others : ∀ i, i ≠ w → ∀ t, c.task i ≠ .listing t

variable (pq port) in
theorem run_before (root : SubTreeFileSystem) (readdir : Enumeration (Bytes × Node)) (action : ι → Action) {pre : List ι}
    (hw : w ∉ pre) : Before root w readdir (run pq port root w readdir action pre) := by
  refine Pool.run_invariant_of_allSteps (P := fun _ i => i ≠ w) (fun c i h hi => ?_) pre ?_ ?_
  · obtain ⟨hstore, -, hother⟩ := Request.step_other pq port c.shared (h.others i hi)
    refine ⟨h.shrinks.trans hstore, ?_, ?_⟩
    · rw [Pool.step_task_of_ne _ _ (Ne.symm hi), h.lister]
    · exact Pool.forall_task_step (Q := fun j t => j ≠ w → ∀ t', t ≠ .listing t') _ c (fun j _ => h.others j) fun _ => hother
  · exact Pool.allSteps_of_threads fun i hi hiw => hw (hiw ▸ hi)
  · refine ⟨.refl root, if_pos rfl, fun i hi t ht => ?_⟩
    simp only [start, if_neg hi] at ht
    cases ht

theorem Before.not_loses {readdir : Enumeration (Bytes × Node)} {c : Pool ι Store (Request Schema Row)}
    (h : Before root w readdir c) (i : ι) : ¬ Loses pq port w c i := by
  rintro ⟨name, hp, -⟩
  rw [h.lister] at hp
  exact hp

variable (pq port) in
theorem Before.step {readdir : Enumeration (Bytes × Node)} {c : Pool ι Store (Request Schema Row)}
    (h : Before root w readdir c) :
    During pq port c.shared.root w (c.step (Request.step pq port) w) ∧
    ¬ ((c.step (Request.step pq port) w).task w).Lost (c.step (Request.step pq port) w).shared.root := by
  obtain ⟨infos, hstep, hat, hlost⟩ := listingAt_start pq port c.shared.root readdir
  have hstep' : Request.step pq port c.shared (c.task w) = (c.shared, .listing (.listing infos [])) := by
    rw [h.lister]
    exact congrArg (fun r => ({ c.shared with root := r.1 }, Request.listing r.2)) hstep
  refine ⟨⟨?_, ?_, ?_, fun i hi => ?_⟩, ?_⟩
  · rw [Pool.step_shared, hstep']
    exact .refl _
  · rw [Pool.step_shared, hstep']
    exact keeps_refl _
  · rwa [Pool.step_task_self, hstep']
  · rw [Pool.step_task_of_ne _ _ hi]
    exact h.others i hi
  · rwa [Pool.step_task_self, Pool.step_shared, hstep']

end Runs

/-! ## Whole runs -/

variable {pq port} {root : SubTreeFileSystem} {w : ι} in
theorem run_append_cons (readdir : Enumeration (Bytes × Node)) (action : ι → Action) (pre post : List ι) :
    run pq port root w readdir action (pre ++ w :: post) =
      ((run pq port root w readdir action pre).step (Request.step pq port) w).run (Request.step pq port) post := by
  unfold run
  rw [Pool.run_append]
  rfl

section Whole

variable {pq} {root : SubTreeFileSystem} {w : ι} (hr : Readable pq root) (readdir : Enumeration (Bytes × Node))
  (action : ι → Action) {pre : List ι} (hw : w ∉ pre) (post : List ι)

include hr hw

theorem run_during : During pq port (run pq port root w readdir action pre).shared.root w
    (run pq port root w readdir action (pre ++ w :: post)) := by
  have hbefore := run_before pq port root readdir action hw
  rw [run_append_cons]
  exact Pool.run_invariant (During.step (hbefore.shrinks.readable hr)) post (hbefore.step pq port).1

/-- **From its first step on a listing has lost what some step has lost.** -/
theorem run_lost_iff : ((run pq port root w readdir action (pre ++ w :: post)).task w).Lost
      (run pq port root w readdir action (pre ++ w :: post)).shared.root ↔
    ¬ Pool.AllSteps (Request.step pq port) (fun c i => ¬ Loses pq port w c i) (start root w readdir action)
      (pre ++ w :: post) := by
  have hbefore := run_before pq port root readdir action hw
  have hr' := hbefore.shrinks.readable hr
  obtain ⟨hduring, hlost⟩ := hbefore.step pq port
  have hpre : Pool.AllSteps (Request.step pq port) (fun c i => ¬ Loses pq port w c i) (start root w readdir action) pre := by
    refine Pool.allSteps_iff.2 fun before i after hcut => ?_
    exact (run_before pq port root readdir action (by rw [hcut] at hw; simp_all)).not_loses i
  have hfirst : ¬ Loses pq port w ((start root w readdir action).run (Request.step pq port) pre) w := hbefore.not_loses w
  rw [run_append_cons, Pool.run_iff_of_step (L := fun c => (c.task w).Lost c.shared.root) (During.step hr')
    (During.step_lost_iff hr') post hduring, Pool.allSteps_append, Pool.AllSteps]
  constructor
  · rintro (hl | hl)
    · exact absurd hl hlost
    · exact fun hall => hl hall.2.2
  · exact fun hall => .inr fun hpost => hall ⟨hpre, hfirst, hpost⟩

theorem run_answered (hcount : 2 * (root.tree.children root.base).card + 2 ≤ (pre ++ w :: post).count w) :
    ∃ r, (run pq port root w readdir action (pre ++ w :: post)).task w = .listing (.flights r) := by
  have hbefore := run_before pq port root readdir action hw
  have hr' := hbefore.shrinks.readable hr
  have hk := hbefore.shrinks.card_le
  have hfirst := Request.remaining_step pq port hk ((run pq port root w readdir action pre).task w)
  have hrest := Pool.run_countdown (During.step hr') (m := Request.remaining (root.tree.children root.base).card)
    (fun c hc => Request.remaining_step pq port (hc.shrinks.card_le.trans hk) (c.task w)) post
    (hbefore.step pq port).1
  rw [← run_append_cons, Pool.step_task_self] at hrest
  have hbegun : ((run pq port root w readdir action pre).task w).remaining (root.tree.children root.base).card =
      2 * (root.tree.children root.base).card + 2 := by
    rw [hbefore.lister]
    rfl
  rw [List.count_append, List.count_eq_zero_of_not_mem hw, List.count_cons_self] at hcount
  exact (run_during port hr readdir action hw post).lister.answered (k := (root.tree.children root.base).card) (by omega)

end Whole

/-- What a listing reports that takes the entries of the store at some time of the run: each dataset there is then. -/
structure ReportsOf (root : SubTreeFileSystem) (w : ι) (readdir : Enumeration (Bytes × Node)) (action : ι → Action)
    (sched : List ι) (names : List Bytes) (fs : List (FlightInfo Schema)) : Prop where
  described : List.Forall₂ (Describes pq port root) names fs
  once : names.Nodup
  listed : ∃ pre post, sched = pre ++ w :: post ∧ w ∉ pre ∧
    (names : Multiset Bytes) = datasetNames (run pq port root w readdir action pre).shared.root
  kept : ∀ name ∈ datasetNames (run pq port root w readdir action sched).shared.root, name ∈ names
  there : ∀ name ∈ names, name ∈ datasetNames root

/-- **A listing amid any drops is answered; its answer is OK exactly when no dataset it has listed is dropped before it is
opened; and then it reports the datasets there were when it took the entries**: all that are still there in the end, and
none that was not there to begin with. -/
theorem listing_during_drops (root : SubTreeFileSystem) (w : ι) (readdir : Enumeration (Bytes × Node)) (action : ι → Action)
    (h : ListingAgreement.AllValid pq root) (sched : List ι) :
    (2 * (root.tree.children root.base).card + 2 ≤ sched.count w →
      ∃ r, (run pq port root w readdir action sched).task w = .listing (.flights r)) ∧
    ∀ r, (run pq port root w readdir action sched).task w = .listing (.flights r) →
      ((∃ fs, r = .ok fs) ↔ Pool.AllSteps (Request.step pq port) (fun c i => ¬ Loses pq port w c i)
        (start root w readdir action) sched) ∧
      ∀ fs, r = .ok fs → ∃ names, ReportsOf pq port root w readdir action sched names fs := by
  by_cases hw : w ∈ sched
  · obtain ⟨pre, post, rfl, hpre⟩ := List.eq_append_cons_of_mem hw
    have hduring := run_during port h.readable readdir action hpre post
    have hlost := run_lost_iff port h.readable readdir action hpre post
    refine ⟨run_answered port h.readable readdir action hpre post, fun r hr => ⟨?_, ?_⟩⟩
    · rw [hr] at hlost
      rw [← not_iff_not, ← hlost]
      cases r with
      | ok fs => simp [Request.Lost, Request.Failed, Request.Pending]
      | error e => simp [Request.Lost, Request.Failed]
    · rintro fs rfl
      have hat := hduring.lister
      rw [hr] at hat
      obtain ⟨names, hnames, hall⟩ := hat fs rfl
      have hshrinks := (run_before pq port root readdir action hpre).shrinks
      refine ⟨names, ?_, ?_, ⟨pre, post, rfl, hpre, hnames⟩, ?_, ?_⟩
      · refine hall.imp fun name f hf => ?_
        obtain ⟨hext, c, md, hc, hmd, rfl⟩ := hf
        exact ⟨hext, c, md, hshrinks.entry hc, hmd, rfl⟩
      · rw [← Multiset.coe_nodup, hnames]
        exact ReadDuringPut.nodup_datasetNames _
      · intro name hn
        rw [← Multiset.mem_coe, hnames]
        exact hduring.shrinks.mem_datasetNames hn
      · intro name hn
        rw [← Multiset.mem_coe, hnames] at hn
        exact hshrinks.mem_datasetNames hn
  · have hbefore := run_before pq port root readdir action hw
    constructor
    · intro hcount
      rw [List.count_eq_zero_of_not_mem hw] at hcount
      omega
    · intro r hr
      rw [hbefore.lister] at hr
      cases hr

/-! ## One dataset and one drop -/

def oneDataset : SubTreeFileSystem := PutFailure.oneFile (utf8 "a.parquet") (tinyParquet.encode ⟨(), [7]⟩)

def drop (_ : Bool) : Action := ⟨utf8 "drop_dataset", utf8 "a.parquet"⟩

theorem children_oneDataset : oneDataset.tree.children oneDataset.base =
    {(utf8 "a.parquet", .file (tinyParquet.encode ⟨(), [7]⟩))} := PutFailure.children_oneFile (by decide) _

theorem allValid_oneDataset : ListingAgreement.AllValid tinyParquet oneDataset := by
  intro name c hc _
  rw [← FileTree.mem_children, children_oneDataset, Multiset.mem_singleton, Prod.mk.injEq, Node.file.injEq] at hc
  rw [hc.2]
  exact tinyParquet.valid_encode _

/-- The dataset is dropped when the listing has opened it. -/
def dropAtOpen : List Bool := [true, true, false, true, true]

theorem listing_before_drop :
    ∃ r, (run tinyParquet 5000 oneDataset true (Enumeration.chosen _) drop dropAtOpen).task true = .listing (.flights r) ∧
      ((∃ fs, r = .ok fs) ↔ Pool.AllSteps (Request.step tinyParquet 5000) (fun c i => ¬ Loses tinyParquet 5000 true c i)
        (start oneDataset true (Enumeration.chosen _) drop) dropAtOpen) :=
  have h := listing_during_drops tinyParquet 5000 oneDataset true (Enumeration.chosen _) drop allValid_oneDataset dropAtOpen
  have ⟨r, hr⟩ := h.1 (by rw [children_oneDataset]; decide)
  ⟨r, hr, (h.2 r hr).1⟩

/-- The dataset is valid, and gone by the time the listing opens it. -/
theorem drop_fails_listing : ListingAgreement.AllValid tinyParquet oneDataset ∧
    (run tinyParquet 5000 oneDataset true (Enumeration.chosen _) drop [true, false, true]).task true =
      .listing (.flights (.error (.IOError (.pathNotFound (utf8 "a.parquet"))))) := by
  refine ⟨allValid_oneDataset, ?_⟩
  have hlisted : (start oneDataset true (Enumeration.chosen _) drop).step (Request.step tinyParquet 5000) true =
      ⟨⟨oneDataset, fun _ => none⟩, Function.update (start oneDataset true (Enumeration.chosen _) drop).task true (.listing
        (.listing [.ofNode (utf8 "a.parquet") (some (.file (tinyParquet.encode ⟨(), [7]⟩)))] []))⟩ := by
    have hstep : Request.step tinyParquet 5000 ⟨oneDataset, fun _ => none⟩ (.listing (.listFlights (Enumeration.chosen _))) =
        (⟨oneDataset, fun _ => none⟩,
          .listing (.listing [.ofNode (utf8 "a.parquet") (some (.file (tinyParquet.encode ⟨(), [7]⟩)))] [])) := by
      simp [Request.step, Task.step, SubTreeFileSystem.getFileInfoRoot, children_oneDataset]
    rw [Pool.step]
    exact congrArg (fun r => (⟨r.1, Function.update (start oneDataset true (Enumeration.chosen _) drop).task true r.2⟩ :
      Pool Bool Store (Request Unit UInt8))) hstep
  unfold run
  rw [Pool.run_cons, hlisted]
  rfl

end ListDuringDrop
