import FlightPlayground.PythonRequests
import FlightPlayground.PythonMap
/-!
# ListDuringWrites — a listing of the Python server amid uploads and drops

The generator of `list_flights` takes the names in the repository at its first step, and opens the file of one name at
every step after it.  A file that is gone by then, or not yet written, ends the listing: the rest is never yielded.
-/
namespace ListDuringWrites

open Posix (Bytes Node NodePath FileTree ValidName utf8)
open Unordered (Enumeration)
open Pathlib (IsUtf8 Disk nul)
open Arrow
open Flight hiding Upload
open Interleave
open Python (Raised errno)
open FlightServer (makeFlightInfo mintedInfo infoAt)
open PythonRequests

variable {Schema Row ι : Type} [DecidableEq ι] (pq : PyArrow Schema Row) (server : FlightServer)

/-! ## Requests -/

/-- The request of another client. -/
inductive Write (Schema Row : Type)
  | doPut (u : Upload Schema Row)
  | doAction (action : Action)

def Write.task : Write Schema Row → Task Schema Row
  | .doPut u => .doPut u
  | .doAction action => .doAction action

/-- A listing on the thread `w` and an upload or an action on every other. -/
def start (store : Store) (w : ι) (listdir : Enumeration (Bytes × Node)) (write : ι → Write Schema Row) :
    Pool ι Store (Task Schema Row) :=
  ⟨store, fun i => if i = w then .listFlights listdir else (write i).task⟩

def run (store : Store) (w : ι) (listdir : Enumeration (Bytes × Node)) (write : ι → Write Schema Row) (sched : List ι) :
    Pool ι Store (Task Schema Row) :=
  (start store w listdir write).run (Task.step pq server) sched

/-- The repository's path leads to a directory. -/
structure Repository (server : FlightServer) (base : NodePath) (disk : Disk) : Prop where
  repo : disk.lookup server.repo = .ok base
  repo_dir : disk.tree.node base = some .dir

/-- There is a Parquet file under the name, and the name encodes. -/
def Whole (pq : PyArrow Schema Row) (base : NodePath) (disk : Disk) (name : Bytes) : Prop :=
  IsUtf8 name ∧ nul ∉ name ∧
    ∃ content md, disk.tree.node (name :: base) = some (.file content) ∧ pq.openFile content = some md

def HasRaised (t : Task Schema Row) : Prop := ∃ infos e, t = .raised infos e

@[simp] theorem hasRaised_raised (infos : List (FlightInfo Schema)) (e : Raised) :
    HasRaised (.raised infos e : Task Schema Row) := ⟨infos, e, rfl⟩

@[simp] theorem not_hasRaised_iterating (rest : List Bytes) (infos : List (FlightInfo Schema)) :
    ¬ HasRaised (.iterating rest infos : Task Schema Row) := by simp [HasRaised]

@[simp] theorem not_hasRaised_finished (infos : List (FlightInfo Schema)) :
    ¬ HasRaised (.finished infos : Task Schema Row) := by simp [HasRaised]

def yielded : Task Schema Row → List (FlightInfo Schema)
  | .iterating _ infos => infos
  | .finished infos => infos
  | .raised infos _ => infos
  | _ => []

/-- The names whose files the listing has still to open. -/
def pending : Task Schema Row → List Bytes
  | .iterating rest _ => rest
  | _ => []

/-- How many steps the listing has still to take, once it has the names. -/
def remaining : Task Schema Row → Nat
  | .iterating rest _ => rest.length + 1
  | _ => 0

/-- The step of `i` is the listing's, at a name whose file is not whole. -/
def Breaks (pq : PyArrow Schema Row) (base : NodePath) (w : ι) (c : Pool ι Store (Task Schema Row)) (i : ι) : Prop :=
  i = w ∧ ∃ name rest, pending (c.task w) = name :: rest ∧ ¬ Whole pq base c.shared.disk name

/-- The step of `i` is another client's, on a file that the listing has still to open. -/
def Meddles (server : FlightServer) (base : NodePath) (w : ι) (c : Pool ι Store (Task Schema Row)) (i : ι) : Prop :=
  i ≠ w ∧ ∃ name ∈ pending (c.task w), (c.task i).Touches server c.shared.disk (name :: base)

/-! ## The repository -/

section Disk

variable {pq server} {base : NodePath}

theorem Repository.of_dirs {disk disk' : Disk} (h : Repository server base disk) (hcwd : disk'.cwd = disk.cwd)
    (hdirs : ∀ q, disk'.tree.node q = some .dir ↔ disk.tree.node q = some .dir) : Repository server base disk' :=
  ⟨Disk.lookup_of_same_dirs hcwd (fun q => (hdirs q).2) h.repo, (hdirs base).2 h.repo_dir⟩

theorem Repository.step {store : Store} (h : Repository server base store.disk) (t : Task Schema Row) :
    Repository server base (t.step pq server store).1.disk :=
  h.of_dirs (Task.step_dirs pq server store t).1 (Task.step_dirs pq server store t).2

variable (pq) in
/-- **An info is made of a whole file**, and of no other. -/
theorem makeFlightInfo_cases {disk : Disk} (h : Repository server base disk) {name : Bytes} (hn : ValidName name) :
    (Whole pq base disk name ∧ ∃ md, makeFlightInfo pq server disk name = .ok (mintedInfo pq server name md)) ∨
    (¬ Whole pq base disk name ∧ ∃ e, makeFlightInfo pq server disk name = .error e) := by
  by_cases hnul : nul ∈ name
  · have hlookup : ∃ e, disk.lookup (server.repo.join name) = .error e := by
      cases hl : disk.lookup (server.repo.join name) with
      | error e => exact ⟨e, rfl⟩
      | ok p =>
        have hno := (Disk.lookup_eq_ok.1 hl).1 name (by simp [(Pathlib.join_of_valid hn server.repo).2])
        exact absurd hnul hno
    obtain ⟨e, he⟩ := hlookup
    exact .inr ⟨fun hw => hw.2.1 hnul, _, FlightServer.makeFlightInfo_of_lookup_error he⟩
  · rw [FlightServer.makeFlightInfo_of_lookup (Disk.lookup_join_of_valid h.repo h.repo_dir hn hnul)]
    cases hi : infoAt pq server name (disk.tree.node (name :: base)) with
    | error e =>
      refine .inr ⟨?_, e, rfl⟩
      rintro ⟨hu, -, content, md, hc, hmd⟩
      rw [hc, FlightServer.infoAt_of_open hmd hu] at hi
      cases hi
    | ok info =>
      obtain ⟨content, md, hc, hmd, rfl⟩ := FlightServer.infoAt_eq_ok hi
      refine .inl ⟨⟨?_, hnul, content, md, hc, hmd⟩, md, rfl⟩
      by_contra hu
      rw [hc, FlightServer.infoAt_of_not_utf8 hmd hu] at hi
      cases hi

end Disk

/-! ## The generator -/

section Generator

variable {pq server} {base : NodePath} {names : List Bytes}

/-- Where a generator can stand that has taken `names`: the infos of the first of them are out. -/
def GeneratorAt (pq : PyArrow Schema Row) (server : FlightServer) (names : List Bytes) (t : Task Schema Row) : Prop :=
  ∃ opened rest infos, names = opened ++ rest ∧
    List.Forall₂ (fun name info => ∃ md, info = mintedInfo pq server name md) opened infos ∧
    (t = .iterating rest infos ∨ (t = .finished infos ∧ rest = []) ∨ ∃ e, t = .raised infos e)

/-- What a step of the generator does at `t`: it reads the disk only, and it raises if the file in turn is not whole. -/
structure GeneratorStep (pq : PyArrow Schema Row) (server : FlightServer) (base : NodePath) (names : List Bytes)
    (store : Store) (t : Task Schema Row) (next : Store × Task Schema Row) : Prop where
  same_store : next.1 = store
  generator : GeneratorAt pq server names next.2
  raised_iff : HasRaised next.2 ↔ HasRaised t ∨ ∃ name rest, pending t = name :: rest ∧ ¬ Whole pq base store.disk name
  pending_subset : pending next.2 ⊆ pending t
  remaining_le : remaining next.2 ≤ remaining t - 1

/-- **The generator goes on** where the file in turn is whole, and nowhere else. -/
theorem GeneratorAt.step (hvalid : ∀ name ∈ names, ValidName name) {store : Store}
    (hrepo : Repository server base store.disk) {t : Task Schema Row} (h : GeneratorAt pq server names t) :
    GeneratorStep pq server base names store t (t.step pq server store) := by
  obtain ⟨opened, rest, infos, rfl, hinfos, rfl | ⟨rfl, rfl⟩ | ⟨e, rfl⟩⟩ := h
  · cases rest with
    | nil =>
      have hat : GeneratorAt pq server (opened ++ []) (.finished infos) :=
        ⟨opened, [], infos, rfl, hinfos, .inr (.inl ⟨rfl, rfl⟩)⟩
      exact ⟨rfl, hat, by simp [Task.step, pending], by simp [Task.step, pending], by simp [Task.step, remaining]⟩
    | cons name rest =>
      rcases makeFlightInfo_cases pq hrepo (hvalid name (by simp)) with ⟨hw, md, hi⟩ | ⟨hw, e, hi⟩
      · have hstep : Task.step pq server store (.iterating (name :: rest) infos) =
            (store, .iterating rest (infos ++ [mintedInfo pq server name md])) := by simp only [Task.step, hi]
        have hat : GeneratorAt pq server (opened ++ name :: rest)
            (.iterating rest (infos ++ [mintedInfo pq server name md])) :=
          ⟨opened ++ [name], rest, _, by simp, List.rel_append hinfos (.cons ⟨md, rfl⟩ .nil), .inl rfl⟩
        rw [hstep]
        exact ⟨rfl, hat, by simp [pending, hw], by simp [pending], by simp [remaining]⟩
      · have hstep : Task.step pq server store (.iterating (name :: rest) infos) = (store, .raised infos e) := by
          simp only [Task.step, hi]
        have hat : GeneratorAt pq server (opened ++ name :: rest) (.raised infos e) :=
          ⟨opened, name :: rest, infos, rfl, hinfos, .inr (.inr ⟨e, rfl⟩)⟩
        rw [hstep]
        exact ⟨rfl, hat, by simp [pending, hw], by simp [pending], by simp [remaining]⟩
  · have hat : GeneratorAt pq server (opened ++ []) (.finished infos) :=
      ⟨opened, [], infos, rfl, hinfos, .inr (.inl ⟨rfl, rfl⟩)⟩
    exact ⟨rfl, hat, by simp [Task.step, pending], by simp [Task.step], by simp [Task.step, remaining]⟩
  · have hat : GeneratorAt pq server (opened ++ rest) (.raised infos e) :=
      ⟨opened, rest, infos, rfl, hinfos, .inr (.inr ⟨e, rfl⟩)⟩
    exact ⟨rfl, hat, by simp [Task.step, pending], by simp [Task.step], by simp [Task.step, remaining]⟩

theorem GeneratorAt.ended {t : Task Schema Row} (h : GeneratorAt pq server names t) (hr : remaining t = 0) :
    (∃ infos, t = .finished infos) ∨ HasRaised t := by
  obtain ⟨opened, rest, infos, -, -, rfl | ⟨rfl, -⟩ | ⟨e, rfl⟩⟩ := h
  · cases hr
  · exact .inl ⟨infos, rfl⟩
  · exact .inr ⟨infos, e, rfl⟩

/-- **A generator yields in the order of its names**, all of them if it finishes. -/
theorem GeneratorAt.yielded_eq {t : Task Schema Row} (h : GeneratorAt pq server names t) :
    (∃ k, (yielded t).map FlightInfo.descriptor = (names.take k).map fun name => .ofPath [name]) ∧
      ∀ infos, t = .finished infos → infos.map FlightInfo.descriptor = names.map fun name => .ofPath [name] := by
  obtain ⟨opened, rest, infos, rfl, hinfos, ht⟩ := h
  have hmap : infos.map FlightInfo.descriptor = opened.map fun name => .ofPath [name] :=
    (Unordered.map_eq_map_of_forall₂ hinfos fun name info ⟨md, h⟩ => by rw [h]; rfl).symm
  have hyielded : yielded t = infos := by
    rcases ht with rfl | ⟨rfl, -⟩ | ⟨e, rfl⟩ <;> rfl
  refine ⟨⟨opened.length, by rw [hyielded, hmap, List.take_left]⟩, fun infos' hf => ?_⟩
  rcases ht with rfl | ⟨rfl, rfl⟩ | ⟨e, rfl⟩
  · cases hf
  · obtain rfl : infos = infos' := by cases hf; rfl
    rw [hmap, List.append_nil]
  · cases hf

end Generator

/-! ## All threads -/

section Runs

variable {pq server} {base : NodePath} {names : List Bytes} {w : ι}

/-- The listing has taken `names`. -/
structure During (pq : PyArrow Schema Row) (server : FlightServer) (base : NodePath) (names : List Bytes) (w : ι)
    (c : Pool ι Store (Task Schema Row)) : Prop where
  repo : Repository server base c.shared.disk
  generator : GeneratorAt pq server names (c.task w)

variable (hvalid : ∀ name ∈ names, ValidName name)

include hvalid

theorem During.step (c : Pool ι Store (Task Schema Row)) (i : ι) (h : During pq server base names w c) :
    During pq server base names w (c.step (Task.step pq server) i) := by
  refine ⟨h.repo.step _, ?_⟩
  by_cases hi : i = w
  · subst hi
    rw [Pool.step_task_self]
    exact (h.generator.step hvalid h.repo).generator
  · rw [Pool.step_task_of_ne _ _ (Ne.symm hi)]
    exact h.generator

/-- **The generator raises at a step of its own**, where the file in turn is not whole. -/
theorem During.step_raised_iff (c : Pool ι Store (Task Schema Row)) (i : ι) (h : During pq server base names w c) :
    HasRaised ((c.step (Task.step pq server) i).task w) ↔ HasRaised (c.task w) ∨ Breaks pq base w c i := by
  by_cases hi : i = w
  · subst hi
    rw [Pool.step_task_self, (h.generator.step hvalid h.repo).raised_iff]
    exact or_congr_right ⟨fun hb => ⟨rfl, hb⟩, fun hb => hb.2⟩
  · rw [Pool.step_task_of_ne _ _ (Ne.symm hi)]
    exact ⟨.inl, fun hr => hr.elim id fun hb => absurd hb.1 hi⟩

omit hvalid in
/-- The files that the listing has still to open are whole. -/
structure Undisturbed (pq : PyArrow Schema Row) (server : FlightServer) (base : NodePath) (names : List Bytes) (w : ι)
    (c : Pool ι Store (Task Schema Row)) : Prop extends During pq server base names w c where
  whole : ∀ name ∈ pending (c.task w), Whole pq base c.shared.disk name
  not_raised : ¬ HasRaised (c.task w)

/-- **No file that is still to be opened is spoilt**, unless another client's step is on one. -/
theorem Undisturbed.step (c : Pool ι Store (Task Schema Row)) (i : ι) (h : Undisturbed pq server base names w c)
    (hm : ¬ Meddles server base w c i) : Undisturbed pq server base names w (c.step (Task.step pq server) i) := by
  refine ⟨h.toDuring.step hvalid c i, fun name hname => ?_, ?_⟩
  · by_cases hi : i = w
    · subst hi
      have hnext := h.generator.step hvalid h.repo
      rw [Pool.step_task_self] at hname
      rw [Pool.step_shared, hnext.same_store]
      exact h.whole name (hnext.pending_subset hname)
    · rw [Pool.step_task_of_ne _ _ (Ne.symm hi)] at hname
      obtain ⟨hu, hnul, content, md, hc, hmd⟩ := h.whole name hname
      refine ⟨hu, hnul, content, md, ?_, hmd⟩
      rw [Pool.step_shared, Task.step_node fun ht => hm ⟨hi, name, hname, ht⟩, hc]
  · rw [During.step_raised_iff hvalid c i h.toDuring]
    rintro (hr | ⟨-, name, rest, hp, hw⟩)
    · exact h.not_raised hr
    · exact hw (h.whole name (by simp [hp]))

omit hvalid

variable (pq server) in
theorem run_repository {store : Store} (h : Repository server base store.disk) (w : ι)
    (listdir : Enumeration (Bytes × Node)) (write : ι → Write Schema Row) (sched : List ι) :
    Repository server base (run pq server store w listdir write sched).shared.disk :=
  Pool.run_invariant (I := fun c : Pool ι Store (Task Schema Row) => Repository server base c.shared.disk)
    (fun _ _ h => h.step _) sched h

variable (pq server) in
theorem run_before (store : Store) (listdir : Enumeration (Bytes × Node)) (write : ι → Write Schema Row) {pre : List ι}
    (hw : w ∉ pre) : (run pq server store w listdir write pre).task w = .listFlights listdir := by
  unfold run
  rw [Pool.run_task_of_notMem _ _ hw]
  exact if_pos rfl

/-- The names a listing takes from `disk`. -/
def listed (base : NodePath) (disk : Disk) (listdir : Enumeration (Bytes × Node)) : List Bytes :=
  (listdir.list (disk.tree.children base)).map Prod.fst

theorem coe_listed (disk : Disk) (listdir : Enumeration (Bytes × Node)) :
    (listed base disk listdir : Multiset Bytes) = (disk.tree.children base).map Prod.fst := by
  rw [listed, ← Multiset.map_coe, listdir.coe_list]

theorem mem_listed {disk : Disk} {listdir : Enumeration (Bytes × Node)} {name : Bytes} :
    name ∈ listed base disk listdir ↔ (disk.tree.node (name :: base)).isSome := by
  rw [← FileTree.mem_names, ← coe_listed, Multiset.mem_coe]

theorem validName_of_listed {disk : Disk} {listdir : Enumeration (Bytes × Node)} :
    ∀ name ∈ listed base disk listdir, ValidName name := fun name hname => by
  obtain ⟨x, hx⟩ := Option.isSome_iff_exists.1 (mem_listed.1 hname)
  exact FileTree.validName_of_node hx

variable (pq) in
/-- **The first step of a listing takes the names** there are. -/
theorem step_listFlights {store : Store} (h : Repository server base store.disk) (listdir : Enumeration (Bytes × Node)) :
    Task.step pq server store (.listFlights listdir) = (store, .iterating (listed base store.disk listdir) []) := by
  simp only [Task.step, FlightServer.iterdir_of_dir h.repo h.repo_dir]
  rfl

end Runs

/-! ## Whole runs -/

/-- What comes of a listing on the thread `w` that takes `names` at its first step, at the pool `c`; `post` are the steps
that follow. -/
structure Listing (pq : PyArrow Schema Row) (server : FlightServer) (base : NodePath) (w : ι)
    (c : Pool ι Store (Task Schema Row)) (post : List ι) (names : List Bytes) : Prop where
  /-- The names are those in the repository, each once. -/
  listed : (names : Multiset Bytes) = (c.shared.disk.tree.children base).map Prod.fst
  once : names.Nodup
  /-- They are yielded in order, and none twice. -/
  in_order : ∃ k, (yielded ((c.run (Task.step pq server) (w :: post)).task w)).map FlightInfo.descriptor =
    (names.take k).map fun name => .ofPath [name]
  no_name_twice : ((yielded ((c.run (Task.step pq server) (w :: post)).task w)).map FlightInfo.descriptor).Nodup
  /-- With a step for each name, and one more, the generator finishes or raises. -/
  ends : names.length + 2 ≤ (w :: post).count w →
    (∃ infos, (c.run (Task.step pq server) (w :: post)).task w = .finished infos) ∨
      HasRaised ((c.run (Task.step pq server) (w :: post)).task w)
  /-- It raises exactly when the file of some name is not whole at the step that opens it. -/
  raises_iff : HasRaised ((c.run (Task.step pq server) (w :: post)).task w) ↔
    ¬ Pool.AllSteps (Task.step pq server) (fun c i => ¬ Breaks pq base w c i) c (w :: post)
  /-- It does not if every file is whole at first, and nobody is at a file that is still to be opened. -/
  undisturbed : (∀ name ∈ names, Whole pq base c.shared.disk name) →
    Pool.AllSteps (Task.step pq server) (fun c i => ¬ Meddles server base w c i) c (w :: post) →
    ¬ HasRaised ((c.run (Task.step pq server) (w :: post)).task w)
  /-- If it finishes, it has yielded an info for every name. -/
  complete : ∀ infos, (c.run (Task.step pq server) (w :: post)).task w = .finished infos →
    infos.map FlightInfo.descriptor = names.map fun name => .ofPath [name]
  live : ∀ name, (c.shared.disk.tree.node (name :: base)).isSome →
    ∀ infos, (c.run (Task.step pq server) (w :: post)).task w = .finished infos →
      ∃ info ∈ infos, info.descriptor = .ofPath [name]

section Whole

variable {pq server} {base : NodePath} {w : ι} {c : Pool ι Store (Task Schema Row)}
  {listdir : Enumeration (Bytes × Node)}

variable (pq) in
theorem first_step (h : Repository server base c.shared.disk) (ht : c.task w = .listFlights listdir) :
    During pq server base (listed base c.shared.disk listdir) w (c.step (Task.step pq server) w) ∧
      (c.step (Task.step pq server) w).shared = c.shared ∧
      (c.step (Task.step pq server) w).task w = .iterating (listed base c.shared.disk listdir) [] := by
  have hstep := step_listFlights pq h listdir
  rw [← ht] at hstep
  have htask : (c.step (Task.step pq server) w).task w = .iterating (listed base c.shared.disk listdir) [] := by
    rw [Pool.step_task_self, hstep]
  have hshared : (c.step (Task.step pq server) w).shared = c.shared := by rw [Pool.step_shared, hstep]
  refine ⟨⟨by rwa [hshared], ?_⟩, hshared, htask⟩
  rw [htask]
  exact ⟨[], _, [], rfl, .nil, .inl rfl⟩

section From

variable (h : Repository server base c.shared.disk) (ht : c.task w = .listFlights listdir) (post : List ι)

include h ht

variable (pq) in
theorem run_during : During pq server base (listed base c.shared.disk listdir) w (c.run (Task.step pq server) (w :: post)) :=
  Pool.run_invariant (During.step validName_of_listed) post (first_step pq h ht).1

/-- **Every step of the generator is one less to take.** -/
theorem run_ended (hcount : (listed base c.shared.disk listdir).length + 2 ≤ (w :: post).count w) :
    (∃ infos, (c.run (Task.step pq server) (w :: post)).task w = .finished infos) ∨
      HasRaised ((c.run (Task.step pq server) (w :: post)).task w) := by
  obtain ⟨hduring, -, htask⟩ := first_step pq h ht
  have hcountdown := Pool.run_countdown (During.step validName_of_listed) (m := remaining) (i := w)
    (fun c hc => (hc.generator.step validName_of_listed hc.repo).remaining_le) post hduring
  apply (run_during pq h ht post).generator.ended
  rw [htask, remaining] at hcountdown
  rw [List.count_cons_self] at hcount
  rw [Pool.run_cons]
  omega

/-- **The generator raises where a step of its own is at a file that is not whole**, and nowhere else. -/
theorem run_raised_iff : HasRaised ((c.run (Task.step pq server) (w :: post)).task w) ↔
    ¬ Pool.AllSteps (Task.step pq server) (fun c i => ¬ Breaks pq base w c i) c (w :: post) := by
  obtain ⟨hduring, -, htask⟩ := first_step pq h ht
  have hbefore : ¬ HasRaised ((c.step (Task.step pq server) w).task w) := by
    rw [htask]
    exact not_hasRaised_iterating _ _
  have hfirst : ¬ Breaks pq base w c w := by
    rintro ⟨-, name, rest, hp, -⟩
    rw [ht] at hp
    cases hp
  rw [Pool.run_cons, Pool.run_iff_of_step (L := fun c => HasRaised (c.task w)) (During.step validName_of_listed)
    (During.step_raised_iff validName_of_listed) post hduring, Pool.AllSteps, or_iff_right hbefore, and_iff_right hfirst]

theorem run_undisturbed (hwhole : ∀ name ∈ listed base c.shared.disk listdir, Whole pq base c.shared.disk name)
    (hm : Pool.AllSteps (Task.step pq server) (fun c i => ¬ Meddles server base w c i) c (w :: post)) :
    ¬ HasRaised ((c.run (Task.step pq server) (w :: post)).task w) := by
  obtain ⟨hduring, hshared, htask⟩ := first_step pq h ht
  have hstart : Undisturbed pq server base (listed base c.shared.disk listdir) w (c.step (Task.step pq server) w) := by
    refine ⟨hduring, fun name hname => ?_, ?_⟩
    · rw [htask] at hname
      rw [hshared]
      exact hwhole name hname
    · rw [htask]
      exact not_hasRaised_iterating _ _
  exact (Pool.run_invariant_of_allSteps (Undisturbed.step validName_of_listed) post hm.2 hstart).not_raised

/-- **What comes of a listing is settled from its first step on.** -/
theorem listing_from : Listing pq server base w c post (listed base c.shared.disk listdir) := by
  have hnodup : (listed base c.shared.disk listdir).Nodup := by
    rw [← Multiset.coe_nodup, coe_listed]
    exact FileTree.nodup_children _ _
  have hnames : ∀ l : List Bytes, l.Nodup → (l.map fun name => FlightDescriptor.ofPath [name]).Nodup := fun l hl =>
    hl.map fun a b hab => by simpa [FlightDescriptor.ofPath] using hab
  obtain ⟨⟨k, hk⟩, hall⟩ := (run_during pq h ht post).generator.yielded_eq
  refine ⟨coe_listed _ _, hnodup, ⟨k, hk⟩, ?_, run_ended h ht post, run_raised_iff h ht post, run_undisturbed h ht post,
    hall, fun name hname infos hf => ?_⟩
  · rw [hk]
    exact hnames _ (hnodup.sublist (List.take_sublist _ _))
  · have hmem : FlightDescriptor.ofPath [name] ∈ infos.map FlightInfo.descriptor := by
      rw [hall infos hf]
      exact List.mem_map_of_mem (mem_listed.2 hname)
    obtain ⟨info, hi, hd⟩ := List.mem_map.1 hmem
    exact ⟨info, hi, hd⟩

end From

variable (pq) in
/-- **A listing amid uploads and drops**: the generator raises exactly when it comes to a file that is not whole.  It
yields no name twice; and if it does not raise it yields an info for every name there was when it took them, so for every
dataset that is live all along. -/
theorem listing_during_writes {store : Store} (h : Repository server base store.disk) (w : ι)
    (listdir : Enumeration (Bytes × Node)) (write : ι → Write Schema Row) (pre post : List ι) (hw : w ∉ pre) :
    ∃ names, Listing pq server base w (run pq server store w listdir write pre) post names :=
  ⟨_, listing_from (run_repository pq server h w listdir write pre) (run_before pq server store listdir write hw) post⟩

end Whole

/-! ## Reachable repositories -/

section Reached

variable {pq server} {base : NodePath} {disk : Disk}

variable (pq) in
theorem solo_repository {store : Store} (h : Repository server base store.disk) (t : Task Schema Row) (n : Nat) :
    Repository server base (Pool.solo (Task.step pq server) n store t).1.disk := by
  induction n generalizing store t with
  | zero => exact h
  | succ n ih =>
    rw [Pool.solo_succ]
    exact ih (h.step t) _

theorem handle_repository (h : Repository server base disk) (r : FlightServer.Request Schema Row) :
    Repository server base (FlightServer.handle pq server disk r).2 := by
  have hsolo := solo_repository pq (show Repository server base (Store.disk ⟨disk, fun _ => 0⟩) from h)
  cases r with
  | doPut reader failure =>
    obtain ⟨n, removed, hs⟩ := solo_doPut pq server ⟨disk, fun _ => 0⟩ ⟨reader, failure, .whole, []⟩
    have := hsolo (.doPut ⟨reader, failure, .whole, []⟩) n
    rwa [hs] at this
  | doAction action =>
    obtain ⟨n, removed, hs⟩ := solo_doAction pq server ⟨disk, fun _ => 0⟩ action
    have := hsolo (.doAction action) n
    rwa [hs] at this
  | _ => exact h

/-- **Every repository that requests reach from an empty one** is one in which a listing takes names. -/
theorem repository_reached (h : PythonMap.IsEmpty server base disk) (rs : List (FlightServer.Request Schema Row)) :
    Repository server base (Sequential.run (FlightServer.handle pq server) disk rs).2 :=
  Sequential.run_invariant (I := Repository server base) (fun _ r h => handle_repository h r) rs ⟨h.1, h.2.1⟩

end Reached

/-! ## One dataset and one drop -/

/-- The repository after an upload under the name `a`. -/
def oneUpload : Store where
  disk := (Sequential.run (FlightServer.handle tinyPyArrow FlightServer.main) PythonMap.fresh
    [.doPut ⟨.ofPath [utf8 "a"], (), [[7]], none⟩ none]).2
  removed _ := 0

def drop (_ : Bool) : Write Unit UInt8 := .doAction ⟨utf8 "drop_dataset", utf8 "a"⟩

theorem repository_oneUpload : Repository FlightServer.main [utf8 "datasets"] oneUpload.disk :=
  repository_reached PythonMap.isEmpty_fresh _

theorem children_oneUpload : oneUpload.disk.tree.children [utf8 "datasets"] =
    {(utf8 "a", .file (tinyPyArrow.writeTable ⟨(), [7]⟩))} := by decide +kernel

theorem listing_takes_a (listdir : Enumeration (Bytes × Node)) :
    Task.step tinyPyArrow FlightServer.main oneUpload (.listFlights listdir) = (oneUpload, .iterating [utf8 "a"] []) := by
  rw [step_listFlights tinyPyArrow repository_oneUpload, listed, children_oneUpload, Enumeration.list_singleton]
  rfl

/-- An upload to another name. -/
def another (_ : Bool) : Write Unit UInt8 := .doPut ⟨⟨.ofPath [utf8 "b"], (), [[8], [9]], none⟩, none, .whole, []⟩

/-- The upload goes on before the listing, between its steps and after it. -/
theorem listing_of_oneUpload : ∃ names, Listing tinyPyArrow FlightServer.main [utf8 "datasets"] true
    (run tinyPyArrow FlightServer.main oneUpload true (Enumeration.chosen _) another [false, false])
    [false, false, true, false, false, true, false] names :=
  listing_during_writes tinyPyArrow repository_oneUpload true (Enumeration.chosen _) another [false, false]
    [false, false, true, false, false, true, false] (by decide)

/-- The generator has taken the name, and the file is gone when it opens it. -/
theorem drop_breaks_listing (listdir : Enumeration (Bytes × Node)) :
    (run tinyPyArrow FlightServer.main oneUpload true listdir drop [true, false, true]).task true =
      .raised [] (errno .ENOENT) := by
  have hfirst : (start oneUpload true listdir drop).step (Task.step tinyPyArrow FlightServer.main) true =
      ⟨oneUpload, Function.update (start oneUpload true listdir drop).task true (.iterating [utf8 "a"] [])⟩ := by
    rw [Pool.step]
    exact congrArg (fun r => (⟨r.1, Function.update (start oneUpload true listdir drop).task true r.2⟩ :
      Pool Bool Store (Task Unit UInt8))) (listing_takes_a listdir)
  unfold run
  rw [Pool.run_cons, hfirst]
  rfl

/-- No listing raises of a repository that requests reach from `disk`. -/
def NeverRaises (pq : PyArrow Schema Row) (server : FlightServer) (disk : Disk) : Prop :=
  ∀ rs listdir (write : Bool → Write Schema Row) sched,
    let reached : Store := ⟨(Sequential.run (FlightServer.handle pq server) disk rs).2, fun _ => 0⟩
    ¬ HasRaised ((run pq server reached true listdir write sched).task true)

theorem listing_can_raise : ¬ NeverRaises tinyPyArrow FlightServer.main PythonMap.fresh := fun h =>
  h _ (Enumeration.chosen _) drop [true, false, true] ⟨[], _, drop_breaks_listing _⟩

end ListDuringWrites
