import FlightPlayground.StoreRequests
import FlightPlayground.StressServer
/-!
# RequestsApart — requests to different files of `FlightStressTestServer`

What a request answers and leaves behind depends on the file its path leads to, and on no other.  Requests for one file
do not notice those for others, and requests of which no two are for one file may be served in any interleaving.
-/
namespace RequestsApart

open Posix (Bytes Node NodePath FileTree utf8)
open Unordered (Enumeration)
open Arrow
open Flight
open Interleave
open FlightStressTestServer
open DatasetServer (nameOf)

variable {Schema Row ι : Type} (pq : Parquet Schema Row) (port : Nat)

variable {pq port}

/-! ## What a step reads and writes -/

/-- The task is part of a request whose path leads to `p`. -/
def IsFor (root : SubTreeFileSystem) (p : NodePath) : Task Schema Row → Prop
  | .doPut u _ => ∃ s, nameOf u.reader.descriptor = some s ∧ root.resolve s = .ok p
  | .opening fileInfo _ _ => root.resolve fileInfo.path = .ok p
  | .receiving sink _ _ _ => sink.path = p
  | .writing sink _ _ => sink.path = p
  | .getFlightInfo descriptor => ∃ s, nameOf descriptor = some s ∧ root.resolve s = .ok p
  | .inspecting fileInfo => root.resolve fileInfo.path = .ok p
  | .inspectingFile _ input => input.path = p
  | .doGet request => root.resolve request.ticket = .ok p
  | .fetching input => input.path = p
  | .reading input _ => input.path = p
  | .listFlights _ => False
  | .listing _ _ => False
  | .listingFile _ _ _ _ => False
  | _ => True

/-- The task is no part of an upload to `p`. -/
def Spares (root : SubTreeFileSystem) (p : NodePath) : Task Schema Row → Prop
  | .doPut u _ => ∀ s, nameOf u.reader.descriptor = some s → root.resolve s ≠ .ok p
  | .opening fileInfo _ _ => root.resolve fileInfo.path ≠ .ok p
  | .receiving sink _ _ _ => sink.path ≠ p
  | .writing sink _ _ => sink.path ≠ p
  | _ => True

section Step

variable {root fs fs' : SubTreeFileSystem} {p : NodePath}

theorem Spares.not_writesTo (hfs : root.SameDirs fs) {t : Task Schema Row} (h : Spares root p t) : ¬ t.WritesTo fs p := by
  cases t with
  | opening fileInfo u cut => exact fun hw => h (hfs.resolve_ok.1 hw)
  | writing sink pieces result =>
    cases pieces with
    | nil => exact id
    | cons piece pieces => exact h
  | _ => exact id

theorem nodeAt_of_resolve (hfs : root.SameDirs fs) {s : Bytes} (h : root.resolve s = .ok p) : fs.nodeAt s = fs.tree.node p := by
  rw [SubTreeFileSystem.nodeAt, hfs.resolve_ok.2 h]
  rfl

theorem path_of_openReadable (hfs : root.SameDirs fs) {s : Bytes} (h : root.resolve s = .ok p) {input : ReadableFile}
    (ho : fs.openReadable s = .ok input) : input.path = p :=
  Except.ok.inj ((SubTreeFileSystem.file_of_openReadable ho).1.symm.trans (hfs.resolve_ok.2 h))

theorem Spares.step (hfs : root.SameDirs fs) {t : Task Schema Row} (h : Spares root p t) :
    Spares root p (t.step pq port fs).2 := by
  cases t with
  | doPut u cut =>
    cases hn : nameOf u.reader.descriptor with
    | none =>
      obtain ⟨m, hm⟩ := DatasetServer.fileInfoFromDescriptor_of_none fs hn
      simp only [Task.step, hm, Spares]
    | some s =>
      simp only [Task.step, DatasetServer.fileInfoFromDescriptor_of_name fs hn, Spares, FileInfo.ofNode_path,
        SubTreeFileSystem.resolve_removeLeadingSlash]
      exact h s hn
  | opening fileInfo u cut =>
    cases hq : fs.outputPath fileInfo.path with
    | none =>
      obtain ⟨e, he⟩ := SubTreeFileSystem.openOutputStream_of_none hq
      simp only [Task.step, he, Spares]
    | some q =>
      simp only [Task.step, SubTreeFileSystem.openOutputStream_of_some hq, Spares]
      rintro rfl
      exact h (hfs.resolve_ok.1 (SubTreeFileSystem.outputPath_eq_some.1 hq).2.1)
  | receiving sink batches u cut =>
    cases batches with
    | nil =>
      simp only [Task.step]
      split
      · trivial
      · unfold Task.ofTable
        split <;> exact h
    | cons => exact h
  | writing sink pieces result =>
    cases pieces with
    | nil => trivial
    | cons piece pieces => exact h
  | getFlightInfo d =>
    simp only [Task.step]
    split <;> trivial
  | inspecting fileInfo =>
    simp only [Task.step]
    split <;> trivial
  | doGet request =>
    simp only [Task.step]
    split <;> trivial
  | fetching input =>
    simp only [Task.step]
    split <;> trivial
  | listing rest found =>
    cases rest with
    | nil => trivial
    | cons fileInfo rest =>
      simp only [Task.step]
      split
      · trivial
      · split <;> trivial
  | listingFile fileInfo input rest found =>
    simp only [Task.step]
    unfold Task.listed
    split <;> trivial
  | _ => trivial

/-- **What is part of a request for a file stays part of one.** -/
theorem IsFor.step (hfs : root.SameDirs fs) {t : Task Schema Row} (h : IsFor root p t) :
    IsFor root p (t.step pq port fs).2 := by
  cases t with
  | doPut u cut =>
    obtain ⟨s, hn, hs⟩ := h
    simpa only [Task.step, DatasetServer.fileInfoFromDescriptor_of_name fs hn, IsFor, FileInfo.ofNode_path,
      SubTreeFileSystem.resolve_removeLeadingSlash] using hs
  | opening fileInfo u cut =>
    cases hq : fs.outputPath fileInfo.path with
    | none =>
      obtain ⟨e, he⟩ := SubTreeFileSystem.openOutputStream_of_none hq
      simp only [Task.step, he, IsFor]
    | some q =>
      simp only [Task.step, SubTreeFileSystem.openOutputStream_of_some hq, IsFor]
      have hr := (SubTreeFileSystem.outputPath_eq_some.1 hq).2.1
      exact Except.ok.inj (hr.symm.trans (hfs.resolve_ok.2 h))
  | receiving sink batches u cut =>
    cases batches with
    | nil =>
      simp only [Task.step]
      split
      · trivial
      · unfold Task.ofTable
        split <;> exact h
    | cons => exact h
  | writing sink pieces result =>
    cases pieces with
    | nil => trivial
    | cons piece pieces => exact h
  | getFlightInfo d =>
    obtain ⟨s, hn, hs⟩ := h
    simpa only [Task.step, DatasetServer.fileInfoFromDescriptor_of_name fs hn, IsFor, FileInfo.ofNode_path,
      SubTreeFileSystem.resolve_removeLeadingSlash] using hs
  | inspecting fileInfo =>
    simp only [Task.step]
    split
    · trivial
    · rename_i input ho
      exact path_of_openReadable hfs h (SubTreeFileSystem.openReadable_of_openReadableInfo ho)
  | doGet request =>
    simp only [Task.step]
    split
    · trivial
    · rename_i input ho
      exact path_of_openReadable hfs h ho
  | fetching input =>
    simp only [Task.step]
    split
    · trivial
    · exact h
  | listFlights => exact h.elim
  | listing => exact h.elim
  | listingFile => exact h.elim
  | _ => trivial

theorem node_setFile_congr (hfs : root.SameDirs fs) (hfs' : root.SameDirs fs') (hp : fs.tree.node p = fs'.tree.node p)
    (c : Bytes) : (fs.tree.setFile p c).node p = (fs'.tree.setFile p c).node p := by
  have hiff : fs.tree.CanHoldFile p ↔ fs'.tree.CanHoldFile p := by
    cases p with
    | nil => rfl
    | cons n d => simp only [FileTree.CanHoldFile, ne_eq, hfs.dir, hfs'.dir]
  by_cases h : fs.tree.CanHoldFile p
  · rw [FileTree.node_setFile h, FileTree.node_setFile (hiff.1 h), if_pos rfl, if_pos rfl]
  · unfold FileTree.setFile
    rw [dif_neg h, dif_neg fun h' => h (hiff.2 h')]
    exact hp

theorem openOutputStream_congr (hfs : root.SameDirs fs) (hfs' : root.SameDirs fs') {s : Bytes} (hs : root.resolve s = .ok p)
    (hp : fs.tree.node p = fs'.tree.node p) :
    (∃ e, fs.openOutputStream s = .error e ∧ fs'.openOutputStream s = .error e) ∨
      fs.openOutputStream s = .ok (⟨p, 0⟩, fs.setFile p []) ∧ fs'.openOutputStream s = .ok (⟨p, 0⟩, fs'.setFile p []) := by
  unfold SubTreeFileSystem.openOutputStream
  rw [hfs.resolve_ok.2 hs, hfs'.resolve_ok.2 hs]
  by_cases hnil : s = []
  · exact .inl ⟨_, if_pos hnil, if_pos hnil⟩
  · by_cases hd : fs.tree.node p = some .dir
    · refine .inl ⟨.IOError (.notAFile s), ?_, ?_⟩
      · simp [hnil, hd]
      · simp [hnil, ← hp, hd]
    · refine .inr ⟨?_, ?_⟩
      · simp [hnil, hd]
      · simp [hnil, ← hp, hd]

/-- **A step of a request for a file reads and writes that file only.** -/
theorem IsFor.step_congr (hfs : root.SameDirs fs) (hfs' : root.SameDirs fs') (hp : fs.tree.node p = fs'.tree.node p)
    {t : Task Schema Row} (h : IsFor root p t) :
    (t.step pq port fs).1.tree.node p = (t.step pq port fs').1.tree.node p ∧ (t.step pq port fs).2 = (t.step pq port fs').2 := by
  cases t with
  | doPut u cut =>
    obtain ⟨s, hn, hs⟩ := h
    simp only [Task.step, DatasetServer.fileInfoFromDescriptor_of_name _ hn, nodeAt_of_resolve hfs hs,
      nodeAt_of_resolve hfs' hs, hp, and_self]
  | opening fileInfo u cut =>
    rcases openOutputStream_congr hfs hfs' h hp with ⟨e, he, he'⟩ | ⟨ho, ho'⟩
    · simp only [Task.step, he, he', hp, and_self]
    · simp only [Task.step, ho, ho', and_true]
      exact node_setFile_congr hfs hfs' hp []
  | receiving sink batches u cut =>
    cases batches with
    | nil =>
      simp only [Task.step]
      split <;> exact ⟨hp, rfl⟩
    | cons => exact ⟨hp, rfl⟩
  | writing sink pieces result =>
    obtain ⟨q, pos⟩ := sink
    obtain rfl : q = p := h
    cases pieces with
    | nil => exact ⟨hp, rfl⟩
    | cons piece pieces =>
      simp only [Task.step, SubTreeFileSystem.write, and_true]
      rw [← hp]
      split
      · exact node_setFile_congr hfs hfs' hp _
      · exact hp
  | getFlightInfo d =>
    obtain ⟨s, hn, hs⟩ := h
    simp only [Task.step, DatasetServer.fileInfoFromDescriptor_of_name _ hn, nodeAt_of_resolve hfs hs,
      nodeAt_of_resolve hfs' hs, hp, and_self]
  | inspecting fileInfo =>
    have hopen : fs.openReadableInfo fileInfo = fs'.openReadableInfo fileInfo := by
      unfold SubTreeFileSystem.openReadableInfo
      rw [SubTreeFileSystem.openReadable_congr (hfs.resolve_ok.2 h) (hfs'.resolve_ok.2 h) hp]
    simp only [Task.step, hopen]
    split <;> exact ⟨hp, rfl⟩
  | inspectingFile fileInfo input =>
    obtain rfl := h
    simp only [Task.step, SubTreeFileSystem.bytesOf_congr hp, hp, and_self]
  | doGet request =>
    simp only [Task.step, SubTreeFileSystem.openReadable_congr (hfs.resolve_ok.2 h) (hfs'.resolve_ok.2 h) hp]
    split <;> exact ⟨hp, rfl⟩
  | fetching input =>
    obtain rfl := h
    simp only [Task.step, SubTreeFileSystem.bytesOf_congr hp]
    split <;> exact ⟨hp, rfl⟩
  | reading input reader =>
    obtain rfl := h
    simp only [Task.step, SubTreeFileSystem.bytesOf_congr hp, hp, and_self]
  | listFlights => exact h.elim
  | listing => exact h.elim
  | listingFile => exact h.elim
  | _ => exact ⟨hp, rfl⟩

end Step

/-! ## Runs -/

section Run

variable [DecidableEq ι]

def start (root : SubTreeFileSystem) (request : ι → Request Schema Row) : Pool ι SubTreeFileSystem (Task Schema Row) :=
  ⟨root, fun i => (request i).task⟩

variable (pq port) in
def run (root : SubTreeFileSystem) (request : ι → Request Schema Row) (sched : List ι) :
    Pool ι SubTreeFileSystem (Task Schema Row) := (start root request).run (Task.step pq port) sched

/-- Only the threads of the group are part of requests for the file at `p` that write it. -/
structure Serving (root : SubTreeFileSystem) (p : NodePath) (G : ι → Prop) (c : Pool ι SubTreeFileSystem (Task Schema Row)) :
    Prop where
  dirs : root.SameDirs c.shared
  isFor : ∀ i, G i → IsFor root p (c.task i)
  spares : ∀ i, ¬ G i → Spares root p (c.task i)

variable {root : SubTreeFileSystem} {p : NodePath} {G : ι → Prop}

theorem Serving.step (c : Pool ι SubTreeFileSystem (Task Schema Row)) (i : ι) (h : Serving root p G c) :
    Serving root p G (c.step (Task.step pq port) i) where
  dirs := Task.sameDirs_step h.dirs (c.task i)
  isFor := Pool.forall_task_step (Q := fun j t => G j → IsFor root p t) _ c (fun j _ => h.isFor j)
    fun hi => (h.isFor i hi).step h.dirs
  spares := Pool.forall_task_step (Q := fun j t => ¬ G j → Spares root p t) _ c (fun j _ => h.spares j)
    fun hi => (h.spares i hi).step h.dirs

omit [DecidableEq ι] in
theorem Serving.step_congr {c d : Pool ι SubTreeFileSystem (Task Schema Row)} (hc : Serving root p G c)
    (hd : Serving root p G d) {i : ι} (hi : G i) (hp : c.shared.tree.node p = d.shared.tree.node p)
    (ht : c.task i = d.task i) :
    ((c.task i).step pq port c.shared).1.tree.node p = ((d.task i).step pq port d.shared).1.tree.node p ∧
      ((c.task i).step pq port c.shared).2 = ((d.task i).step pq port d.shared).2 := by
  rw [← ht]
  exact (hc.isFor i hi).step_congr hc.dirs hd.dirs hp

omit [DecidableEq ι] in
theorem Serving.node_step {c : Pool ι SubTreeFileSystem (Task Schema Row)} (h : Serving root p G c) {i : ι} (hi : ¬ G i) :
    ((c.task i).step pq port c.shared).1.tree.node p = c.shared.tree.node p :=
  Task.node_step ((h.spares i hi).not_writesTo h.dirs)

theorem resolve_of_target {r : Request Schema Row} (h : r.target root = some p) :
    ∃ s, r.path = some s ∧ root.resolve s = .ok p := by
  obtain ⟨s, hs, hp⟩ := Option.bind_eq_some_iff.1 h
  refine ⟨s, hs, ?_⟩
  cases hr : root.resolve s with
  | error e => simp [hr, Except.toOption] at hp
  | ok q => simpa [hr, Except.toOption] using hp

theorem target_of_resolve {r : Request Schema Row} {s : Bytes} (hs : r.path = some s) (hp : root.resolve s = .ok p) :
    r.target root = some p := by
  simp [Request.target, hs, hp, Except.toOption]

theorem isFor_task {r : Request Schema Row} (h : r.target root = some p) : IsFor root p r.task := by
  obtain ⟨s, hs, hp⟩ := resolve_of_target h
  cases r with
  | doPut u cut => exact ⟨s, hs, hp⟩
  | getFlightInfo d => exact ⟨s, hs, hp⟩
  | doGet t =>
    obtain rfl := Option.some.inj hs
    exact hp
  | listFlights => cases hs

theorem spares_task {r : Request Schema Row} (h : r.IsUpload → r.target root ≠ some p) : Spares root p r.task := by
  cases r with
  | doPut u cut => exact fun s hs hp => h trivial (target_of_resolve hs hp)
  | _ => trivial

omit [DecidableEq ι] in
theorem serving_start (request : ι → Request Schema Row) (hG : ∀ i, G i → (request i).target root = some p)
    (hother : ∀ i, ¬ G i → (request i).IsUpload → (request i).target root ≠ some p) :
    Serving root p G (start root request) where
  dirs := .refl root
  isFor i hi := isFor_task (hG i hi)
  spares i hi := spares_task (hother i hi)

variable (pq port root)

/-- **Requests for one file are served as if there were no others**: what becomes of the file, and where its requests get
to, is what comes of their steps alone. -/
theorem served_apart (request : ι → Request Schema Row) (p : NodePath) (sched : List ι) :
    (run pq port root request sched).shared.tree.node p =
        (run pq port root request (sched.filter fun i => (request i).target root = some p)).shared.tree.node p ∧
      ∀ i, (request i).target root = some p → (run pq port root request sched).task i =
        (run pq port root request (sched.filter fun i => (request i).target root = some p)).task i := by
  have h := Pool.run_filter (f := Task.step pq port) (fun fs : SubTreeFileSystem => fs.tree.node p)
    (G := fun i => (request i).target root = some p) (I := Serving root p fun i => (request i).target root = some p)
    Serving.step (fun c d i hc hd hi hp ht => hc.step_congr hd hi hp ht) (fun c i hc hi => hc.node_step hi) sched
    (serving_start request (fun _ hi => hi) fun _ hi _ => hi) (serving_start request (fun _ hi => hi) fun _ hi _ => hi)
    (.refl _ _ _)
  exact ⟨h.view_eq, h.task_eq⟩

/-- No request is for a file that another request uploads to. -/
def Apart (request : ι → Request Schema Row) : Prop :=
  ∀ i j p, i ≠ j → (request j).IsUpload → (request j).target root = some p → (request i).target root ≠ some p

variable {pq port root}

/-- **A request that is for a file of its own ends alike in any two runs**, and so does the file. -/
theorem run_end {request : ι → Request Schema Row} (h : Apart root request) {i : ι} {p : NodePath}
    (hi : (request i).target root = some p) {s₁ s₂ : List ι} (h₁ : ((run pq port root request s₁).task i).Answered)
    (h₂ : ((run pq port root request s₂).task i).Answered) :
    (run pq port root request s₁).shared.tree.node p = (run pq port root request s₂).shared.tree.node p ∧
      (run pq port root request s₁).task i = (run pq port root request s₂).task i :=
  Pool.run_end (f := Task.step pq port) (fun fs : SubTreeFileSystem => fs.tree.node p)
    (I := Serving root p (· = i)) Serving.step (fun c d hc hd hp ht => hc.step_congr hd rfl hp ht)
    (fun c j hc hj => hc.node_step hj)
    (serving_start request (fun j hj => by subst hj; exact hi) fun j hj hup htarget => h i j p (Ne.symm hj) hup htarget hi)
    h₁.step_eq h₂.step_eq

/-- **A file that no request uploads to stays as it was.** -/
theorem run_node_of_no_upload {request : ι → Request Schema Row}
    (h : ∀ i, (request i).IsUpload → (request i).target root ≠ some p) (sched : List ι) :
    (run pq port root request sched).shared.tree.node p = root.tree.node p :=
  (Pool.run_invariant (f := Task.step pq port)
    (I := fun c => Serving root p (fun _ => False) c ∧ c.shared.tree.node p = root.tree.node p)
    (fun c i hc => ⟨hc.1.step c i, (hc.1.node_step id).trans hc.2⟩) sched
    ⟨serving_start request (fun _ hi => hi.elim) fun i _ => h i, rfl⟩).2

theorem sameDirs_run (request : ι → Request Schema Row) (sched : List ι) :
    root.SameDirs (run pq port root request sched).shared :=
  Pool.run_invariant (f := Task.step pq port) (I := fun c => root.SameDirs c.shared)
    (fun c i hc => Task.sameDirs_step hc (c.task i)) sched (.refl root)

variable (pq port) in
theorem answered_serve (fs : SubTreeFileSystem) (r : Request Schema Row) : (r.serve pq port fs).1.Answered := by
  cases r <;> trivial

variable (pq port root)

theorem exists_turns (request : ι → Request Schema Row) {l : List ι} (hl : l.Nodup) : ∃ turns,
    (l.map (run pq port root request turns).task, (run pq port root request turns).shared) =
      Sequential.run (fun fs i => (request i).serve pq port fs) root l :=
  have ⟨turns, h, _⟩ := Pool.exists_in_turn (f := Task.step pq port) (c := start root request) id
    (fun fs i => (request i).serve pq port fs) hl fun fs i _ =>
      have ⟨n, hn⟩ := (request i).solo_task pq port fs
      ⟨n, congrArg Prod.snd hn, congrArg Prod.fst hn⟩
  ⟨turns, h⟩

/-- **Requests of which none is for a file that another uploads to are served as if one after another**, in whatever
order: the answers and the store are those of the handlers. -/
theorem served_as_in_turn (request : ι → Request Schema Row) (h : Apart root request) {l : List ι} (hl : l.Nodup)
    (hmem : ∀ i, i ∈ l ↔ ((request i).target root).isSome) (sched : List ι)
    (hdone : ∀ i ∈ l, ((run pq port root request sched).task i).Answered) :
    (l.map (run pq port root request sched).task, (run pq port root request sched).shared) =
      Sequential.run (fun fs i => (request i).serve pq port fs) root l := by
  obtain ⟨turns, hturns⟩ := exists_turns pq port root request hl
  have hdone' : ∀ i ∈ l, ((run pq port root request turns).task i).Answered := fun i hi => by
    refine Sequential.forall_mem_run root (fun fs i (_ : i ∈ l) => answered_serve pq port fs (request i)) _ ?_
    rw [← hturns]
    exact List.mem_map_of_mem hi
  have hend : ∀ i ∈ l, ∃ p, (request i).target root = some p ∧
      (run pq port root request sched).shared.tree.node p = (run pq port root request turns).shared.tree.node p ∧
      (run pq port root request sched).task i = (run pq port root request turns).task i := fun i hi => by
    obtain ⟨p, hp⟩ := Option.isSome_iff_exists.1 ((hmem i).1 hi)
    exact ⟨p, hp, run_end h hp (hdone i hi) (hdone' i hi)⟩
  rw [← hturns]
  refine Prod.ext (List.map_congr_left fun i hi => ?_) (SubTreeFileSystem.ext_tree (FileTree.ext_node fun p => ?_) ?_)
  · obtain ⟨-, -, -, ht⟩ := hend i hi
    exact ht
  · -- what holds a file is left by the one request that uploads to it, or was there
    by_cases hup : ∃ i, (request i).IsUpload ∧ (request i).target root = some p
    · obtain ⟨i, -, hp⟩ := hup
      obtain ⟨q, hq, hnode, -⟩ := hend i ((hmem i).2 (by rw [hp]; rfl))
      obtain rfl : p = q := Option.some.inj (hp.symm.trans hq)
      exact hnode
    · have hno : ∀ i, (request i).IsUpload → (request i).target root ≠ some p := fun i hi hp => hup ⟨i, hi, hp⟩
      exact (run_node_of_no_upload hno sched).trans (run_node_of_no_upload hno turns).symm
  · exact (sameDirs_run request sched).base.trans (sameDirs_run request turns).base.symm

end Run

/-! ## Two uploads step by step -/

def twoUploads : Bool → Request Unit UInt8
  | false => .doPut (.ofTable (.ofPath [utf8 "a.parquet"]) ⟨(), [7]⟩) .whole
  | true => .doPut (.ofTable (.ofPath [utf8 "b"]) ⟨(), [8, 9]⟩) .whole

theorem apart_twoUploads : Apart .bare twoUploads := by
  intro i j p hij _ hj hi
  have hne : (twoUploads i).target .bare ≠ (twoUploads j).target .bare := by
    cases i <;> cases j <;> first | exact absurd rfl hij | decide
  exact hne (hi.trans hj.symm)

theorem served_as_in_turn_twoUploads :
    ([true, false].map (run tinyParquet 5000 .bare twoUploads ((List.replicate 7 [false, true]).flatten)).task,
        (run tinyParquet 5000 .bare twoUploads ((List.replicate 7 [false, true]).flatten)).shared) =
      Sequential.run (fun fs i => (twoUploads i).serve tinyParquet 5000 fs) .bare [true, false] :=
  served_as_in_turn tinyParquet 5000 .bare twoUploads apart_twoUploads (by decide)
    (fun i => by cases i <;> decide) _ fun i _ => by cases i <;> trivial

end RequestsApart
