import FlightPlayground.PythonMap
import FlightPlayground.PythonRequests
/-!
# PythonApart — requests to different files of the Python server

An upload or a drop reads and changes the file its path leads to, and no other; a removed file lives on for the upload
that has it open, and for no other.  Requests for one file do not notice those for others.
-/
namespace PythonApart

open Posix (Bytes Node NodePath FileTree utf8)
open Unordered (Enumeration)
open Pathlib (Path Disk)
open Arrow hiding writeTable
open Flight hiding Upload
open Interleave
open Python
open PythonRequests
open FlightServer (nameOf statusOf)

variable {Schema Row ι : Type} (pq : PyArrow Schema Row) (server : FlightServer)

inductive Request (Schema Row : Type)
  | doPut (u : Upload Schema Row)
  | doAction (action : Action)
  | listFlights (listdir : Enumeration (Bytes × Node))

namespace Request

def task : Request Schema Row → Task Schema Row
  | doPut u => .doPut u
  | doAction action => .doAction action
  | listFlights listdir => .listFlights listdir

/-- The request served without interruption: its answer, and the disk it leaves. -/
def serve (disk : Disk) : Request Schema Row → Task Schema Row × Disk
  | doPut u => (.put (server.doPut pq disk u.reader u.failure).1, (server.doPut pq disk u.reader u.failure).2)
  | doAction action => (.acted (server.doAction disk action).1, (server.doAction disk action).2)
  | listFlights listdir =>
    match server.listFlights pq disk listdir with
    | .ok infos => (.finished infos, disk)
    | .error e => (.raised [] e, disk)

/-- The path a request opens or removes. -/
def path : Request Schema Row → Option Path
  | doPut u => (nameOf u.reader.descriptor).map server.repo.join
  | doAction action => some (server.repo.join action.body)
  | listFlights _ => none

/-- The file a request is for: where its path leads. -/
def target (disk : Disk) (r : Request Schema Row) : Option NodePath :=
  (r.path server).bind fun path => (disk.lookup path).toOption

end Request

/-- A request that has been answered takes no more steps. -/
def Answered : Task Schema Row → Prop
  | .put _ => True
  | .acted _ => True
  | _ => False

variable {pq server}

theorem Answered.step_eq {t : Task Schema Row} (h : Answered t) (store : Store) : t.step pq server store = (store, t) := by
  cases t with
  | put => rfl
  | acted => rfl
  | _ => exact h.elim

/-! ## What a step reads and writes -/

/-- The disks differ in their files only. -/
structure SameDirs (disk disk' : Disk) : Prop where
  cwd : disk'.cwd = disk.cwd
  dir : ∀ q, disk'.tree.node q = some .dir ↔ disk.tree.node q = some .dir

theorem SameDirs.refl (disk : Disk) : SameDirs disk disk := ⟨rfl, fun _ => Iff.rfl⟩

theorem SameDirs.lookup_ok {disk disk' : Disk} (h : SameDirs disk disk') {path : Path} {p : NodePath} :
    disk'.lookup path = .ok p ↔ disk.lookup path = .ok p :=
  ⟨Disk.lookup_of_same_dirs h.cwd.symm fun q => (h.dir q).1, Disk.lookup_of_same_dirs h.cwd fun q => (h.dir q).2⟩

theorem SameDirs.step {disk : Disk} {store : Store} (h : SameDirs disk store.disk) (t : Task Schema Row) :
    SameDirs disk (t.step pq server store).1.disk := by
  obtain ⟨hcwd, hdir⟩ := Task.step_dirs pq server store t
  exact ⟨hcwd.trans h.cwd, fun q => (hdir q).trans (h.dir q)⟩

/-- What a request for the file at `p` goes by: the file, and how many there have been. -/
def fileAt (p : NodePath) (store : Store) : Option Node × Nat := (store.disk.tree.node p, store.removed p)

theorem fileAt_become_of_node {store : Store} {disk : Disk} {p : NodePath} (h : disk.tree.node p = store.disk.tree.node p) :
    fileAt p (store.become disk) = fileAt p store :=
  Prod.ext h (if_neg fun ⟨h₁, h₂⟩ => h₁ (h.symm.trans h₂))

/-- **Nothing happens to a file that a step does not touch.** -/
theorem fileAt_step {store : Store} {t : Task Schema Row} {p : NodePath} (h : ¬ t.Touches server store.disk p) :
    fileAt p (t.step pq server store).1 = fileAt p store := by
  have hnode : (t.step pq server store).1.disk.tree.node p = store.disk.tree.node p := Task.step_node h
  have hkept : (t.step pq server store).1.removed p = store.removed p → fileAt p (t.step pq server store).1 = fileAt p store :=
    fun hr => Prod.ext hnode hr
  cases t with
  | listFlights listdir =>
    refine hkept ?_
    simp only [Task.step]
    split <;> rfl
  | iterating rest yielded =>
    cases rest with
    | nil => rfl
    | cons dataset rest =>
      refine hkept ?_
      simp only [Task.step]
      split <;> rfl
  | doPut u =>
    refine hkept ?_
    simp only [Task.step]
    split
    · rfl
    · split <;> rfl
  | opening path table u =>
    refine hkept ?_
    cases hp : store.disk.lookup path with
    | error e => simp only [Task.step, Store.openOutputStream_of_lookup_error hp]
    | ok q =>
      by_cases hd : store.disk.tree.node q = some .dir
      · simp only [Task.step, Store.openOutputStream_of_dir hp hd]
      · simp only [Task.step, Store.openOutputStream_of_lookup hp hd]
  | writing handle pieces path failure =>
    cases pieces with
    | nil =>
      rcases failure with _ | ⟨status, _ | left⟩
      · rfl
      · exact fileAt_become_of_node hnode
      · rfl
    | cons piece pieces =>
      refine hkept ?_
      simp only [Task.step, Store.write]
      split
      · split <;> rfl
      · rfl
  | doAction action => exact fileAt_become_of_node hnode
  | _ => rfl

/-- The task is part of a request whose path leads to `p`. -/
def IsFor (server : FlightServer) (disk : Disk) (p : NodePath) : Task Schema Row → Prop
  | .doPut u => ∃ name, nameOf u.reader.descriptor = some name ∧ disk.lookup (server.repo.join name) = .ok p
  | .opening path _ _ => disk.lookup path = .ok p
  | .writing handle _ path _ => handle.path = p ∧ disk.lookup path = .ok p
  | .put _ => True
  | .doAction action => disk.lookup (server.repo.join action.body) = .ok p
  | .acted _ => True
  | _ => False

/-- The task is no part of a request whose path leads to `p`. -/
def Spares (server : FlightServer) (disk : Disk) (p : NodePath) : Task Schema Row → Prop
  | .doPut u => ∀ name, nameOf u.reader.descriptor = some name → disk.lookup (server.repo.join name) ≠ .ok p
  | .opening path _ _ => disk.lookup path ≠ .ok p
  | .writing handle _ path _ => handle.path ≠ p ∧ disk.lookup path ≠ .ok p
  | .doAction action => disk.lookup (server.repo.join action.body) ≠ .ok p
  | _ => True

section Step

variable {disk : Disk} {store store' : Store} {p : NodePath}

theorem Spares.not_touches (hdirs : SameDirs disk store.disk) {t : Task Schema Row} (h : Spares server disk p t) :
    ¬ t.Touches server store.disk p := by
  cases t with
  | opening path table u => exact fun ht => h (hdirs.lookup_ok.1 ht)
  | writing handle pieces path failure =>
    cases pieces with
    | nil =>
      rcases failure with _ | ⟨status, _ | left⟩
      · exact id
      · exact fun ht => h.2 (hdirs.lookup_ok.1 ht)
      · exact id
    | cons piece pieces => exact h.1
  | doAction action => exact fun ht => h (hdirs.lookup_ok.1 ht)
  | _ => exact id

/-- What an upload does first: it fails, or it goes on to its file with a table it has read. -/
theorem step_doPut_cases (pq : PyArrow Schema Row) (server : FlightServer) (u : Upload Schema Row) :
    (∃ e, ∀ store, Task.step pq server store (.doPut u) = (store, .put (.error e))) ∨
    ∃ name, nameOf u.reader.descriptor = some name ∧ ∀ store, Task.step pq server store (.doPut u) =
      (store, .opening (server.repo.join name) u.reader.table u) := by
  cases hn : path0 u.reader.descriptor >>= decode with
  | error e => exact .inl ⟨e, fun store => by simp only [Task.step, hn]⟩
  | ok name =>
    cases hf : u.reader.failure with
    | some e => exact .inl ⟨.ArrowException e, fun store => by simp only [Task.step, hn, FlightMessageReader.toTable, hf]⟩
    | none =>
      refine .inr ⟨name, ?_, fun store => by simp only [Task.step, hn, FlightMessageReader.toTable, hf]⟩
      simp only [nameOf, hn, Except.toOption]

/-- What an upload does next: it fails, or it has opened the file its path leads to. -/
theorem step_opening_cases (pq : PyArrow Schema Row) (server : FlightServer) (store : Store) (path : Path)
    (table : Table Schema Row) (u : Upload Schema Row) :
    (∃ e, Task.step pq server store (.opening path table u) = (store, .put (.error e))) ∨
    ∃ q, store.disk.lookup path = .ok q ∧ Task.step pq server store (.opening path table u) =
      (⟨store.disk.setFile q [], store.removed⟩,
        .writing ⟨q, store.removed q, 0⟩ (u.cut.pieces (u.bytes pq table)) path u.failure) := by
  cases hp : store.disk.lookup path with
  | error e => exact .inl ⟨.OSError e, by simp only [Task.step, Store.openOutputStream_of_lookup_error hp]⟩
  | ok q =>
    by_cases hd : store.disk.tree.node q = some .dir
    · exact .inl ⟨errno .EISDIR, by simp only [Task.step, Store.openOutputStream_of_dir hp hd]⟩
    · exact .inr ⟨q, rfl, by simp only [Task.step, Store.openOutputStream_of_lookup hp hd]⟩

theorem Spares.step (hdirs : SameDirs disk store.disk) {t : Task Schema Row} (h : Spares server disk p t) :
    Spares server disk p (t.step pq server store).2 := by
  cases t with
  | listFlights listdir =>
    simp only [Task.step]
    split <;> trivial
  | iterating rest yielded =>
    cases rest with
    | nil => trivial
    | cons dataset rest =>
      simp only [Task.step]
      split <;> trivial
  | doPut u =>
    obtain ⟨e, he⟩ | ⟨name, hn, hopen⟩ := step_doPut_cases pq server u
    · rw [he]
      trivial
    · rw [hopen]
      exact h name hn
  | opening path table u =>
    obtain ⟨e, he⟩ | ⟨q, hq, hopen⟩ := step_opening_cases pq server store path table u
    · rw [he]
      trivial
    · rw [hopen]
      refine ⟨?_, h⟩
      rintro rfl
      exact h (hdirs.lookup_ok.1 hq)
  | writing handle pieces path failure =>
    cases pieces with
    | nil => trivial
    | cons piece pieces => exact h
  | _ => trivial

/-- **What is part of a request for a file stays part of one.** -/
theorem IsFor.step (hdirs : SameDirs disk store.disk) {t : Task Schema Row} (h : IsFor server disk p t) :
    IsFor server disk p (t.step pq server store).2 := by
  cases t with
  | doPut u =>
    obtain ⟨e, he⟩ | ⟨name, hn, hopen⟩ := step_doPut_cases pq server u
    · rw [he]
      trivial
    · obtain ⟨name', hn', hp⟩ := h
      obtain rfl := Option.some.inj (hn.symm.trans hn')
      rw [hopen]
      exact hp
  | opening path table u =>
    obtain ⟨e, he⟩ | ⟨q, hq, hopen⟩ := step_opening_cases pq server store path table u
    · rw [he]
      trivial
    · rw [hopen]
      exact ⟨Except.ok.inj (hq.symm.trans (hdirs.lookup_ok.2 h)), h⟩
  | writing handle pieces path failure =>
    cases pieces with
    | nil => trivial
    | cons piece pieces => exact h
  | put => trivial
  | doAction action => trivial
  | acted => trivial
  | _ => exact h.elim

theorem unlink_congr {disk' : Disk} {path : Path} (hp : disk.lookup path = .ok p) (hp' : disk'.lookup path = .ok p)
    (hnode : disk.tree.node p = disk'.tree.node p) :
    (unlink disk path).1 = (unlink disk' path).1 ∧ (unlink disk path).2.tree.node p = (unlink disk' path).2.tree.node p := by
  unfold unlink lookup
  rw [hp, hp']
  simp only
  rw [← hnode]
  rcases hx : disk.tree.node p with _ | _ | c
  · exact ⟨rfl, hnode⟩
  · exact ⟨rfl, hnode⟩
  · refine ⟨rfl, ?_⟩
    rw [Disk.unlink_tree, Disk.unlink_tree, FileTree.node_unlink (by simp [hx]), FileTree.node_unlink (by simp [← hnode, hx]),
      if_pos rfl, if_pos rfl]

theorem doAction_congr {disk' : Disk} {action : Action} (hp : disk.lookup (server.repo.join action.body) = .ok p)
    (hp' : disk'.lookup (server.repo.join action.body) = .ok p) (hnode : disk.tree.node p = disk'.tree.node p) :
    (server.doAction disk action).1 = (server.doAction disk' action).1 ∧
      (server.doAction disk action).2.tree.node p = (server.doAction disk' action).2.tree.node p := by
  unfold FlightServer.doAction
  split
  · cases hb : decode action.body with
    | error e => exact ⟨rfl, hnode⟩
    | ok dataset =>
      obtain rfl : dataset = action.body := by
        unfold decode at hb
        split at hb
        · exact (Except.ok.inj hb).symm
        · cases hb
      exact unlink_congr hp hp' hnode
  · exact ⟨rfl, hnode⟩

theorem fileAt_become_congr {d d' : Disk} (h : fileAt p store = fileAt p store') (hd : d.tree.node p = d'.tree.node p) :
    fileAt p (store.become d) = fileAt p (store'.become d') := by
  obtain ⟨hnode, hremoved⟩ := Prod.ext_iff.1 h
  simp only [fileAt] at hnode hremoved
  refine Prod.ext hd ?_
  simp only [fileAt, Store.become]
  rw [hnode, hremoved, hd]

theorem fileAt_setFile {store : Store} (h : store.disk.tree.CanHoldFile p) (c : Bytes) :
    fileAt p ⟨store.disk.setFile p c, store.removed⟩ = (some (.file c), store.removed p) :=
  Prod.ext ((FileTree.node_setFile h c p).trans (if_pos rfl)) rfl

/-- **A step of a request for a file goes by that file only.** -/
theorem IsFor.step_congr (hdirs : SameDirs disk store.disk) (hdirs' : SameDirs disk store'.disk)
    (hat : fileAt p store = fileAt p store') {t : Task Schema Row} (h : IsFor server disk p t) :
    fileAt p (t.step pq server store).1 = fileAt p (t.step pq server store').1 ∧
      (t.step pq server store).2 = (t.step pq server store').2 := by
  obtain ⟨hnode, hremoved⟩ : store.disk.tree.node p = store'.disk.tree.node p ∧ store.removed p = store'.removed p :=
    Prod.ext_iff.1 hat
  cases t with
  | doPut u =>
    obtain ⟨e, he⟩ | ⟨name, -, hopen⟩ := step_doPut_cases pq server u
    · rw [he, he]
      exact ⟨hat, rfl⟩
    · rw [hopen, hopen]
      exact ⟨hat, rfl⟩
  | opening path table u =>
    have hp := hdirs.lookup_ok.2 h
    have hp' := hdirs'.lookup_ok.2 h
    -- a new handle is of the generation at the path, which `fileAt` shows with the node
    by_cases hd : store.disk.tree.node p = some .dir
    · simp only [Task.step, Store.openOutputStream_of_dir hp hd, Store.openOutputStream_of_dir hp' (hnode.symm.trans hd)]
      exact ⟨hat, trivial⟩
    · have hd' : store'.disk.tree.node p ≠ some .dir := fun h' => hd (hnode.trans h')
      simp only [Task.step, Store.openOutputStream_of_lookup hp hd, Store.openOutputStream_of_lookup hp' hd', hremoved, and_true]
      rw [fileAt_setFile (Disk.canHoldFile_of_lookup hp hd), fileAt_setFile (Disk.canHoldFile_of_lookup hp' hd'), hremoved]
  | writing handle pieces path failure =>
    obtain ⟨q, generation, pos⟩ := handle
    obtain ⟨hq, hpath⟩ := h
    obtain rfl : q = p := hq
    cases pieces with
    | nil =>
      refine ⟨?_, rfl⟩
      rcases failure with _ | ⟨status, _ | left⟩
      · exact hat
      · exact fileAt_become_congr hat (unlink_congr (hdirs.lookup_ok.2 hpath) (hdirs'.lookup_ok.2 hpath) hnode).2
      · exact hat
    | cons piece pieces =>
      refine ⟨?_, rfl⟩
      by_cases hg : generation = store.removed q
      · have hg' : generation = store'.removed q := hg.trans hremoved
        rcases hx : store.disk.tree.node q with _ | _ | c
        · simpa only [Task.step, Store.write, if_pos hg, if_pos hg', hx, ← hnode] using hat
        · simpa only [Task.step, Store.write, if_pos hg, if_pos hg', hx, ← hnode] using hat
        · have hx' : store'.disk.tree.node q = some (.file c) := hnode.symm.trans hx
          simp only [Task.step, Store.write_eq store ⟨q, generation, pos⟩ hg hx,
            Store.write_eq store' ⟨q, generation, pos⟩ hg' hx']
          rw [fileAt_setFile (FileTree.canHoldFile_of_file hx), fileAt_setFile (FileTree.canHoldFile_of_file hx'), hremoved]
      · -- the path was unlinked under the writer: what it writes is in no directory
        have hg' : ¬ generation = store'.removed q := fun h' => hg (h'.trans hremoved.symm)
        simpa only [Task.step, Store.write, if_neg hg, if_neg hg'] using hat
  | put => exact ⟨hat, rfl⟩
  | doAction action =>
    obtain ⟨hres, hleft⟩ := doAction_congr (hdirs.lookup_ok.2 h) (hdirs'.lookup_ok.2 h) hnode
    exact ⟨fileAt_become_congr hat hleft, congrArg Task.acted hres⟩
  | acted => exact ⟨hat, rfl⟩
  | _ => exact h.elim

end Step

/-! ## Runs -/

section Run

variable [DecidableEq ι] (pq server)

def start (store : Store) (request : ι → Request Schema Row) : Pool ι Store (Task Schema Row) :=
  ⟨store, fun i => (request i).task⟩

def run (store : Store) (request : ι → Request Schema Row) (sched : List ι) : Pool ι Store (Task Schema Row) :=
  (start store request).run (Task.step pq server) sched

/-- Only the threads of the group are part of requests for the file at `p`. -/
structure Serving (server : FlightServer) (disk : Disk) (p : NodePath) (G : ι → Prop) (c : Pool ι Store (Task Schema Row)) :
    Prop where
  dirs : SameDirs disk c.shared.disk
  isFor : ∀ i, G i → IsFor server disk p (c.task i)
  spares : ∀ i, ¬ G i → Spares server disk p (c.task i)

variable {pq server} {disk : Disk} {store : Store} {p : NodePath} {G : ι → Prop}

theorem Serving.step (c : Pool ι Store (Task Schema Row)) (i : ι) (h : Serving server disk p G c) :
    Serving server disk p G (c.step (Task.step pq server) i) where
  dirs := h.dirs.step (c.task i)
  isFor := Pool.forall_task_step (Q := fun j t => G j → IsFor server disk p t) _ c (fun j _ => h.isFor j)
    fun hi => (h.isFor i hi).step h.dirs
  spares := Pool.forall_task_step (Q := fun j t => ¬ G j → Spares server disk p t) _ c (fun j _ => h.spares j)
    fun hi => (h.spares i hi).step h.dirs

omit [DecidableEq ι] in
theorem Serving.step_congr {c d : Pool ι Store (Task Schema Row)} (hc : Serving server disk p G c)
    (hd : Serving server disk p G d) {i : ι} (hi : G i) (hat : fileAt p c.shared = fileAt p d.shared)
    (ht : c.task i = d.task i) :
    fileAt p ((c.task i).step pq server c.shared).1 = fileAt p ((d.task i).step pq server d.shared).1 ∧
      ((c.task i).step pq server c.shared).2 = ((d.task i).step pq server d.shared).2 := by
  rw [← ht]
  exact (hc.isFor i hi).step_congr hc.dirs hd.dirs hat

omit [DecidableEq ι] in
theorem Serving.fileAt_step {c : Pool ι Store (Task Schema Row)} (h : Serving server disk p G c) {i : ι} (hi : ¬ G i) :
    fileAt p ((c.task i).step pq server c.shared).1 = fileAt p c.shared :=
  PythonApart.fileAt_step ((h.spares i hi).not_touches h.dirs)

theorem target_eq_some {r : Request Schema Row} :
    r.target server disk = some p ↔ ∃ path, r.path server = some path ∧ disk.lookup path = .ok p := by
  unfold Request.target
  rw [Option.bind_eq_some_iff]
  refine exists_congr fun path => and_congr_right fun _ => ?_
  cases disk.lookup path <;> simp [Except.toOption]

theorem isFor_task {r : Request Schema Row} (h : r.target server disk = some p) : IsFor server disk p r.task := by
  obtain ⟨path, hpath, hp⟩ := target_eq_some.1 h
  cases r with
  | doPut u =>
    obtain ⟨name, hn, rfl⟩ := Option.map_eq_some_iff.1 hpath
    exact ⟨name, hn, hp⟩
  | doAction action =>
    obtain rfl := Option.some.inj hpath
    exact hp
  | listFlights => cases hpath

theorem spares_task {r : Request Schema Row} (h : r.target server disk ≠ some p) : Spares server disk p r.task := by
  cases r with
  | doPut u =>
    intro name hn hp
    exact h (target_eq_some.2 ⟨_, by simp [Request.path, hn], hp⟩)
  | doAction action => exact fun hp => h (target_eq_some.2 ⟨_, rfl, hp⟩)
  | listFlights => trivial

omit [DecidableEq ι] in
theorem serving_start (request : ι → Request Schema Row) (hG : ∀ i, G i ↔ (request i).target server store.disk = some p) :
    Serving server store.disk p G (start store request) where
  dirs := .refl store.disk
  isFor i hi := isFor_task ((hG i).1 hi)
  spares i hi := spares_task fun h => hi ((hG i).2 h)

variable (pq server store)

/-- **Requests for one file are served as if there were no others**, uploads that are removed under their writer
included: what becomes of the file, and where its requests get to, is what comes of their steps alone. -/
theorem files_served_apart (request : ι → Request Schema Row) (p : NodePath) (sched : List ι) :
    fileAt p (run pq server store request sched).shared =
        fileAt p (run pq server store request
          (sched.filter fun i => (request i).target server store.disk = some p)).shared ∧
      ∀ i, (request i).target server store.disk = some p → (run pq server store request sched).task i =
        (run pq server store request (sched.filter fun i => (request i).target server store.disk = some p)).task i := by
  have hstart : Serving server store.disk p (fun i => (request i).target server store.disk = some p) (start store request) :=
    serving_start request fun _ => Iff.rfl
  have h := Pool.run_filter (f := Task.step pq server) (fileAt p) Serving.step
    (fun c d i hc hd hi hat ht => hc.step_congr hd hi hat ht) (fun c i hc hi => hc.fileAt_step hi) sched hstart hstart
    (.refl _ _ _)
  exact ⟨h.view_eq, h.task_eq⟩

/-- No two requests are for one file. -/
def Apart (server : FlightServer) (disk : Disk) (request : ι → Request Schema Row) : Prop :=
  ∀ i j p, i ≠ j → (request i).target server disk = some p → (request j).target server disk ≠ some p

variable {pq server store}

/-- **A request that is for a file of its own ends alike in any two runs**, and so does the file. -/
theorem run_end {request : ι → Request Schema Row} (h : Apart server store.disk request) {i : ι}
    (hi : (request i).target server store.disk = some p) {s₁ s₂ : List ι}
    (h₁ : Answered ((run pq server store request s₁).task i)) (h₂ : Answered ((run pq server store request s₂).task i)) :
    fileAt p (run pq server store request s₁).shared = fileAt p (run pq server store request s₂).shared ∧
      (run pq server store request s₁).task i = (run pq server store request s₂).task i := by
  have hstart : Serving server store.disk p (· = i) (start store request) :=
    serving_start request fun j => ⟨fun hj => by subst hj; exact hi, fun hj => by
      by_contra hji
      exact h j i p hji hj hi⟩
  exact Pool.run_end (f := Task.step pq server) (fileAt p) (I := Serving server store.disk p (· = i)) Serving.step
    (fun c d hc hd hat ht => hc.step_congr hd rfl hat ht) (fun c j hc hj => hc.fileAt_step hj) hstart h₁.step_eq h₂.step_eq

/-- **A file that no request is for stays as it was.** -/
theorem run_fileAt_of_no_request {request : ι → Request Schema Row}
    (h : ∀ i, (request i).target server store.disk ≠ some p) (sched : List ι) :
    fileAt p (run pq server store request sched).shared = fileAt p store :=
  (Pool.run_invariant (f := Task.step pq server)
    (I := fun c => Serving server store.disk p (fun _ => False) c ∧ fileAt p c.shared = fileAt p store)
    (fun c i hc => ⟨hc.1.step c i, (hc.1.fileAt_step id).trans hc.2⟩) sched
    ⟨serving_start request fun i => ⟨False.elim, h i⟩, rfl⟩).2

theorem sameDirs_run (request : ι → Request Schema Row) (sched : List ι) :
    SameDirs store.disk (run pq server store request sched).shared.disk :=
  Pool.run_invariant (f := Task.step pq server) (I := fun c => SameDirs store.disk c.shared.disk)
    (fun c i hc => hc.step (c.task i)) sched (.refl store.disk)

theorem solo_request {r : Request Schema Row} (h : (r.target server store.disk).isSome) (s : Store) : ∃ n,
    (Pool.solo (Task.step pq server) n s r.task).2 = (r.serve pq server s.disk).1 ∧
      (Pool.solo (Task.step pq server) n s r.task).1.disk = (r.serve pq server s.disk).2 := by
  cases r with
  | doPut u =>
    obtain ⟨n, removed, hs⟩ := solo_doPut pq server s u
    exact ⟨n, congrArg Prod.snd hs, congrArg (fun x => x.1.disk) hs⟩
  | doAction action =>
    obtain ⟨n, removed, hs⟩ := solo_doAction pq server s action
    exact ⟨n, congrArg Prod.snd hs, congrArg (fun x => x.1.disk) hs⟩
  | listFlights => cases h

variable (pq) in
theorem answered_serve {r : Request Schema Row} (h : (r.target server store.disk).isSome) (disk : Disk) :
    Answered (r.serve pq server disk).1 := by
  cases r with
  | listFlights => cases h
  | _ => trivial

variable (pq server store)

/-- **Uploads and drops of which no two are for one file are served as if one after another**, in whatever order: the
answers and the disk are those of the handlers. -/
theorem writes_as_in_turn (request : ι → Request Schema Row) (h : Apart server store.disk request) {l : List ι}
    (hl : l.Nodup) (hmem : ∀ i, i ∈ l ↔ ((request i).target server store.disk).isSome) (sched : List ι)
    (hdone : ∀ i ∈ l, Answered ((run pq server store request sched).task i)) :
    (l.map (run pq server store request sched).task, (run pq server store request sched).shared.disk) =
      Sequential.run (fun disk i => (request i).serve pq server disk) store.disk l := by
  obtain ⟨turns, hturns, -⟩ := Pool.exists_in_turn (f := Task.step pq server) (c := start store request) Store.disk
    (fun disk i => (request i).serve pq server disk) hl fun s i hi => solo_request ((hmem i).1 hi) s
  change (l.map (run pq server store request turns).task, (run pq server store request turns).shared.disk) =
    Sequential.run (fun disk i => (request i).serve pq server disk) store.disk l at hturns
  have hdone' : ∀ i ∈ l, Answered ((run pq server store request turns).task i) := fun i hi => by
    refine Sequential.forall_mem_run store.disk (fun disk j hj => answered_serve pq ((hmem j).1 hj) disk) _ ?_
    rw [← hturns]
    exact List.mem_map_of_mem hi
  have hend : ∀ i ∈ l, ∃ p, (request i).target server store.disk = some p ∧
      fileAt p (run pq server store request sched).shared = fileAt p (run pq server store request turns).shared ∧
      (run pq server store request sched).task i = (run pq server store request turns).task i := fun i hi => by
    obtain ⟨p, hp⟩ := Option.isSome_iff_exists.1 ((hmem i).1 hi)
    exact ⟨p, hp, run_end h hp (hdone i hi) (hdone' i hi)⟩
  rw [← hturns]
  refine Prod.ext (List.map_congr_left fun i hi => ?_) (Disk.ext_tree (FileTree.ext_node fun p => ?_) ?_)
  · obtain ⟨-, -, -, ht⟩ := hend i hi
    exact ht
  · have hat : fileAt p (run pq server store request sched).shared = fileAt p (run pq server store request turns).shared := by
      by_cases hfor : ∃ i, (request i).target server store.disk = some p
      · obtain ⟨i, hp⟩ := hfor
        obtain ⟨q, hq, hat, -⟩ := hend i ((hmem i).2 (by rw [hp]; rfl))
        obtain rfl : p = q := Option.some.inj (hp.symm.trans hq)
        exact hat
      · have hno : ∀ i, (request i).target server store.disk ≠ some p := fun i hi => hfor ⟨i, hi⟩
        exact (run_fileAt_of_no_request hno sched).trans (run_fileAt_of_no_request hno turns).symm
    exact congrArg Prod.fst hat
  · exact (sameDirs_run request sched).cwd.trans (sameDirs_run request turns).cwd.symm

end Run

/-! ## An upload around a drop -/

def freshStore : Store := ⟨PythonMap.fresh, fun _ => 0⟩

def uploadAndDrop : Bool → Request Unit UInt8
  | false => .doPut ⟨⟨.ofPath [utf8 "a"], (), [[7]], none⟩, none, .whole, []⟩
  | true => .doAction ⟨utf8 "drop_dataset", utf8 "b"⟩

theorem apart_uploadAndDrop : Apart FlightServer.main freshStore.disk uploadAndDrop := by
  intro i j p hij hi hj
  have hne : (uploadAndDrop i).target FlightServer.main freshStore.disk ≠
      (uploadAndDrop j).target FlightServer.main freshStore.disk := by
    cases i <;> cases j <;> first | exact absurd rfl hij | decide +kernel
  exact hne (hi.trans hj.symm)

theorem writes_as_in_turn_upload_drop :
    ([true, false].map (run tinyPyArrow FlightServer.main freshStore uploadAndDrop [false, false, true, false, false]).task,
        (run tinyPyArrow FlightServer.main freshStore uploadAndDrop [false, false, true, false, false]).shared.disk) =
      Sequential.run (fun disk i => (uploadAndDrop i).serve tinyPyArrow FlightServer.main disk) freshStore.disk [true, false] :=
  writes_as_in_turn tinyPyArrow FlightServer.main freshStore uploadAndDrop apart_uploadAndDrop (by decide)
    (fun i => by cases i <;> decide +kernel) _ fun i _ => by cases i <;> trivial

end PythonApart
