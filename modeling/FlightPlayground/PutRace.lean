import FlightPlayground.StoreRequests
/-!
# PutRace — uploads to one name at the same time

Uploads to one name share its file, and each writes at its own offset.  The upload that opens the file last empties it;
if what the others have still to write is the same bytes, what is left in the end is its table.
-/
namespace PutRace

open Posix (Bytes Node NodePath FileTree utf8)
open Arrow
open Flight
open Interleave
open FlightStressTestServer

variable {Schema Row ι : Type} [DecidableEq ι] (pq : Parquet Schema Row) (port : Nat) (root : SubTreeFileSystem)
  (u : ι → Upload Schema Row) (cut : ι → Chunking)

def start : Pool ι SubTreeFileSystem (Task Schema Row) := ⟨root, fun i => .doPut (u i) (cut i)⟩

def run (sched : List ι) : Pool ι SubTreeFileSystem (Task Schema Row) := (start root u cut).run (Task.step pq port) sched

def Opens (c : Pool ι SubTreeFileSystem (Task Schema Row)) (i : ι) : Prop := (c.task i).Opens c.shared

structure Uploading (s : Bytes) (c : Pool ι SubTreeFileSystem (Task Schema Row)) : Prop where
  dirs : root.SameDirs c.shared
  tasks : ∀ i, PutAt pq root (Posix.removeLeadingSlash s) (u i) (c.task i)

variable {pq root u cut} {s : Bytes}

omit [DecidableEq ι] in
theorem Uploading.putStep (hname : ∀ i, DatasetServer.nameOf (u i).reader.descriptor = some s)
    {c : Pool ι SubTreeFileSystem (Task Schema Row)} (h : Uploading pq root u s c) (i : ι) :
    PutStep pq root c.shared (Posix.removeLeadingSlash s) (u i) (c.task i) (Task.step pq port c.shared (c.task i)) :=
  ((h.tasks i).step port (hname i) h.dirs).2

theorem Uploading.step (hname : ∀ i, DatasetServer.nameOf (u i).reader.descriptor = some s)
    {c : Pool ι SubTreeFileSystem (Task Schema Row)} (h : Uploading pq root u s c) (i : ι) :
    Uploading pq root u s (c.step (Task.step pq port) i) where
  dirs := (h.putStep port hname i).sameDirs h.dirs
  tasks := Pool.forall_task_step (Q := fun j t => PutAt pq root (Posix.removeLeadingSlash s) (u j) t) _ c
    (fun j _ => h.tasks j) ((h.tasks i).step port (hname i) h.dirs).1

variable (pq root u cut) in
theorem uploading_run (hname : ∀ i, DatasetServer.nameOf (u i).reader.descriptor = some s) (sched : List ι) :
    Uploading pq root u s (run pq port root u cut sched) :=
  Pool.run_invariant (fun _ i h => h.step port hname i) sched ⟨.refl root, fun _ => rfl⟩

/-- **An upload that is answered OK has opened the file.** -/
theorem exists_open (hname : ∀ i, DatasetServer.nameOf (u i).reader.descriptor = some s) {p : NodePath}
    (hp : root.outputPath (Posix.removeLeadingSlash s) = some p) (sched : List ι) {i : ι} {result : Result Unit}
    (hi : (run pq port root u cut sched).task i = .put result) :
    ¬ Pool.AllSteps (Task.step pq port) (fun c i => ¬ Opens c i) (start root u cut) sched := fun hall => by
  have hnone : Uploading pq root u s (run pq port root u cut sched) ∧
      ∀ j, ¬ ((run pq port root u cut sched).task j).Opened := by
    refine Pool.run_invariant_of_allSteps (I := fun c => Uploading pq root u s c ∧ ∀ j, ¬ (c.task j).Opened)
      (fun c j hc hj => ⟨hc.1.step port hname j, ?_⟩) sched hall ⟨⟨.refl root, fun _ => rfl⟩, fun _ h => h⟩
    refine Pool.forall_task_step (Q := fun _ t => ¬ t.Opened) _ c (fun k _ => hc.2 k) ?_
    have hstep := hc.1.putStep port hname j
    generalize Task.step pq port c.shared (c.task j) = r at hstep
    cases hstep with
    | idle _ _ _ hfirst => exact fun ho => (hfirst ho).elim (hc.2 j) fun h => by cases h.symm.trans hp
    | opens _ hopens => exact absurd hopens hj
    | writes _ _ hopened => exact absurd hopened (hc.2 j)
  exact hnone.2 i (by rw [hi]; trivial)

/-! ## After the last open -/

/-- The file holds what the upload `l` has written of its bytes, perhaps with more of these bytes after it, and whoever
has still to write writes the same bytes. -/
structure Fills (pq : Parquet Schema Row) (u : ι → Upload Schema Row) (l : ι) (p : NodePath)
    (c : Pool ι SubTreeFileSystem (Task Schema Row)) : Prop where
  opened : (c.task l).Opened
  content : ∃ b, c.shared.tree.node p = some (.file b) ∧ b.length ≤ (uploadBytes pq (u l)).length ∧
    ∀ k < (c.task l).written (uploadBytes pq (u l)), b[k]? = (uploadBytes pq (u l))[k]?
  others : ∀ i, (c.task i).Unwritten → uploadBytes pq (u i) = uploadBytes pq (u l)

/-- **A step that does not open the file fills it further.** -/
theorem Fills.step (hname : ∀ i, DatasetServer.nameOf (u i).reader.descriptor = some s) {p : NodePath}
    (hp : root.outputPath (Posix.removeLeadingSlash s) = some p) {l : ι} (hl : (u l).Completes)
    {c : Pool ι SubTreeFileSystem (Task Schema Row)} (hc : Uploading pq root u s c) (h : Fills pq u l p c) {j : ι}
    (hj : ¬ Opens c j) : Fills pq u l p (c.step (Task.step pq port) j) := by
  obtain ⟨hopened, ⟨b, hb, hlen, hagree⟩, hothers⟩ := h
  have hstep := hc.putStep port hname j
  have htask : ∀ {r}, Task.step pq port c.shared (c.task j) = r → (r.2.Unwritten → (c.task j).Unwritten) →
      ((c.task j).Opened → r.2.Opened) → ((c.step (Task.step pq port) j).task l).Opened ∧
        ∀ i, ((c.step (Task.step pq port) j).task i).Unwritten → uploadBytes pq (u i) = uploadBytes pq (u l) := by
    rintro r rfl hun ho
    refine ⟨?_, Pool.forall_task_step (Q := fun i t => t.Unwritten → uploadBytes pq (u i) = uploadBytes pq (u l)) _ c
      (fun i _ => hothers i) fun h => hothers j (hun h)⟩
    by_cases hlj : l = j
    · subst hlj
      rw [Pool.step_task_self]
      exact ho hopened
    · rw [Pool.step_task_of_ne _ _ hlj]
      exact hopened
  generalize hr : Task.step pq port c.shared (c.task j) = r at hstep
  cases hstep with
  | idle _ hun ho _ hwritten =>
    obtain ⟨ho', hothers'⟩ := htask hr hun ho
    refine ⟨ho', ⟨b, by rw [Pool.step_shared, hr]; exact hb, hlen, fun k hk => hagree k ?_⟩, hothers'⟩
    by_cases hlj : l = j
    · subst hlj
      rw [Pool.step_task_self, hr] at hk
      rwa [← hwritten hopened hl]
    · rwa [Pool.step_task_of_ne _ _ hlj] at hk
  | opens _ hopens => exact absurd hopens hj
  | @writes q pos piece t' hq _ _ ho hun hpiece hpos hwritten hlen' hdrop =>
    obtain rfl : p = q := Option.some.inj (hp.symm.trans hq)
    obtain ⟨ho', hothers'⟩ := htask hr hun fun _ => ho
    have hfile : (c.step (Task.step pq port) j).shared.tree.node p = some (.file (Posix.overlay b pos piece)) := by
      rw [Pool.step_shared, hr, SubTreeFileSystem.write_eq hb, SubTreeFileSystem.setFile_tree,
        FileTree.node_setFile (FileTree.canHoldFile_of_file hb), if_pos rfl]
    by_cases hnil : piece = []
    · -- an empty piece changes nothing
      subst hnil
      refine ⟨ho', ⟨b, by rw [hfile]; simp [Posix.overlay], hlen, fun k hk => hagree k ?_⟩, hothers'⟩
      by_cases hlj : l = j
      · subst hlj
        rw [Pool.step_task_self, hr, hwritten] at hk
        rwa [hpos]
      · rwa [Pool.step_task_of_ne _ _ hlj] at hk
    · have hB := hothers j (hpiece hnil)
      rw [hB] at hlen' hdrop
      refine ⟨ho', ⟨_, hfile, Posix.length_overlay_le hlen hlen', ?_⟩, hothers'⟩
      rw [hdrop]
      by_cases hlj : l = j
      · subst hlj
        rw [Pool.step_task_self, hr, hwritten]
        rw [hpos] at hagree
        exact Posix.overlay_extend hagree hlen'
      · rw [Pool.step_task_of_ne _ _ hlj]
        exact Posix.overlay_agree hagree (hc.tasks l).written_le hlen'

theorem fills_of_opens (hname : ∀ i, DatasetServer.nameOf (u i).reader.descriptor = some s) {p : NodePath}
    (hp : root.outputPath (Posix.removeLeadingSlash s) = some p) {c : Pool ι SubTreeFileSystem (Task Schema Row)}
    (hc : Uploading pq root u s c) {l : ι} (hopen : Opens c l)
    (hsame : ∀ i, i ≠ l → (c.task i).Unwritten → uploadBytes pq (u i) = uploadBytes pq (u l)) :
    Fills pq u l p (c.step (Task.step pq port) l) := by
  have hstep := hc.putStep port hname l
  generalize hr : Task.step pq port c.shared (c.task l) = r at hstep
  cases hstep with
  | idle hno => exact absurd hopen hno
  | writes _ hno => exact absurd hopen hno
  | @opens q t' hq _ ho hwritten =>
    obtain rfl : p = q := Option.some.inj (hp.symm.trans hq)
    have hhold := SubTreeFileSystem.canHoldFile_of_outputPath ((hc.dirs.outputPath _).trans hp)
    refine ⟨by rwa [Pool.step_task_self, hr], ⟨[], ?_, Nat.zero_le _, fun k hk => ?_⟩, ?_⟩
    · rw [Pool.step_shared, hr, SubTreeFileSystem.setFile_tree, FileTree.node_setFile hhold, if_pos rfl]
    · rw [Pool.step_task_self, hr, hwritten] at hk
      exact absurd hk (Nat.not_lt_zero k)
    · exact Pool.forall_task_step (Q := fun i t => t.Unwritten → uploadBytes pq (u i) = uploadBytes pq (u l)) _ c hsame
        fun _ => rfl

variable (pq root u cut)

/-- **The file ends up as the table of the upload that opened it last**, when the uploads that had still to write by then
are of the same table. -/
theorem last_open_stays [Nonempty ι] (hname : ∀ i, DatasetServer.nameOf (u i).reader.descriptor = some s) (sched : List ι)
    (hdone : ∀ i, (run pq port root u cut sched).task i = .put (.ok ())) :
    ∃ pre l post, sched = pre ++ l :: post ∧ Opens (run pq port root u cut pre) l ∧
      Pool.AllSteps (Task.step pq port) (fun c i => ¬ Opens c i) (run pq port root u cut (pre ++ [l])) post ∧
      ((∀ i, i ≠ l → ((run pq port root u cut pre).task i).Unwritten → (u i).reader.table = (u l).reader.table) →
        (run pq port root u cut sched).shared.nodeAt s = some (.file (pq.encode (u l).reader.table))) := by
  have hfinal := uploading_run pq port root u cut hname sched
  have hall : ∀ i, (u i).Completes ∧ (root.outputPath (Posix.removeLeadingSlash s)).isSome := fun i => by
    have ht := hfinal.tasks i
    rw [hdone i] at ht
    exact ht rfl
  have hbytes : ∀ i, uploadBytes pq (u i) = pq.encode (u i).reader.table := fun i => uploadBytes_of_completes (hall i).1
  obtain ⟨i₀⟩ := ‹Nonempty ι›
  obtain ⟨p, hp⟩ := Option.isSome_iff_exists.1 (hall i₀).2
  obtain ⟨pre, l, post, rfl, hopen, hpost⟩ := Pool.exists_last_step _ sched (exists_open port hname hp sched (hdone i₀))
  refine ⟨pre, l, post, rfl, hopen, by rwa [run, Pool.run_concat], fun hsame => ?_⟩
  have hpre := uploading_run pq port root u cut hname pre
  have hopened : Fills pq u l p ((run pq port root u cut pre).step (Task.step pq port) l) :=
    fills_of_opens port hname hp hpre hopen fun i hi hun => by rw [hbytes, hbytes, hsame i hi hun]
  have hend : Uploading pq root u s (run pq port root u cut (pre ++ l :: post)) ∧
      Fills pq u l p (run pq port root u cut (pre ++ l :: post)) := by
    unfold run
    rw [Pool.run_append, Pool.run_cons]
    exact Pool.run_invariant_of_allSteps (I := fun c => Uploading pq root u s c ∧ Fills pq u l p c)
      (fun c j hc hj => ⟨hc.1.step port hname j, hc.2.step port hname hp (hall l).1 hc.1 hj⟩) post hpost
      ⟨hpre.step port hname l, hopened⟩
  obtain ⟨b, hb, hlen, hagree⟩ := hend.2.content
  have hB : b = pq.encode (u l).reader.table := by
    rw [hdone l] at hagree
    rw [hbytes] at hlen hagree
    refine List.ext_getElem? fun k => ?_
    rcases Nat.lt_or_ge k (pq.encode (u l).reader.table).length with hk | hk
    · exact hagree k hk
    · rw [List.getElem?_eq_none (hlen.trans hk), List.getElem?_eq_none hk]
  obtain ⟨-, hr, -⟩ := SubTreeFileSystem.outputPath_eq_some.1 hp
  rw [← SubTreeFileSystem.nodeAt_removeLeadingSlash, SubTreeFileSystem.nodeAt_eq_file]
  exact ⟨p, hend.1.dirs.resolve_ok.2 hr, hB ▸ hb⟩

/-! ## Two uploads at the same time -/

/-- Whatever the interleaving, the file ends up as the table of one of the uploads. -/
def EndsAsOne (s : Bytes) : Prop :=
  ∀ sched : List ι, (∀ i, (run pq port root u cut sched).task i = .put (.ok ())) →
    ∃ i, (run pq port root u cut sched).shared.nodeAt s = some (.file (pq.encode (u i).reader.table))

def shortAndLong : Bool → Upload Unit UInt8
  | false => .ofTable (.ofPath [utf8 "a.parquet"]) ⟨(), [7]⟩
  | true => .ofTable (.ofPath [utf8 "a.parquet"]) ⟨(), [8, 9]⟩

/-- The short upload opens the file, the long one is put, and then the short one writes over its beginning. -/
def shortAroundLong : List Bool :=
  [false, false, true, true, true, true, true, true, true, false, false, false, false, false]

/-- What is left then is neither table, and no Parquet file. -/
theorem race_ends_as_none : ¬ EndsAsOne tinyParquet 5000 .bare shortAndLong (fun _ => .whole) (utf8 "a.parquet") := by
  intro h
  obtain ⟨i, hi⟩ := h shortAroundLong fun i => by cases i <;> rfl
  revert i
  decide +kernel

/-- Both uploads have begun when the short one opens the file; it is written when the long one opens it. -/
def shortThenLong : List Bool :=
  [false, true, false, false, false, false, true, false, true, true, true, false, true, true]

theorem last_open_stays_in_turn :
    ∃ pre l post, shortThenLong = pre ++ l :: post ∧
      Opens (run tinyParquet 5000 .bare shortAndLong (fun _ => .whole) pre) l ∧
      Pool.AllSteps (Task.step tinyParquet 5000) (fun c i => ¬ Opens c i)
        (run tinyParquet 5000 .bare shortAndLong (fun _ => .whole) (pre ++ [l])) post ∧
      ((∀ i, i ≠ l → ((run tinyParquet 5000 .bare shortAndLong (fun _ => .whole) pre).task i).Unwritten →
          (shortAndLong i).reader.table = (shortAndLong l).reader.table) →
        (run tinyParquet 5000 .bare shortAndLong (fun _ => .whole) shortThenLong).shared.nodeAt (utf8 "a.parquet") =
          some (.file (tinyParquet.encode (shortAndLong l).reader.table))) :=
  last_open_stays tinyParquet 5000 .bare shortAndLong (fun _ => .whole) (fun i => by cases i <;> rfl) shortThenLong
    fun i => by cases i <;> rfl

end PutRace
