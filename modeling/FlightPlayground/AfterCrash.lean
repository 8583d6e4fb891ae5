import FlightPlayground.PutFailure
import FlightPlayground.RequestsApart
import FlightPlayground.ListingAgreement
/-!
# AfterCrash — a server that is killed and started again

A server keeps nothing but its directory: what an upload has written by the time the server is killed is what the next
one finds.  An upload that was under way leaves a file that is no Parquet file, and no listing succeeds before it is
replaced.
-/
namespace AfterCrash

open Posix (Bytes Node NodePath FileTree utf8)
open Unordered (Enumeration)
open Arrow
open Flight
open Interleave
open FlightStressTestServer
open RequestsApart
open DatasetMap (hasExtension)
open DatasetServer (isDataset)
open ReadDuringPut (Readable)

variable {Schema Row ι : Type}

/-- `CreateDir(path)`: the directories on the path that are missing are made. -/
def createDir (t : FileTree) : NodePath → FileTree
  | [] => t
  | n :: d => (createDir t d).mkdir n d

/-- `serve` up to its requests: the directory of the datasets is made if it is missing, and is what is served. -/
def serve (t : FileTree) (flightDataDir : NodePath) : Result SubTreeFileSystem :=
  if h : (createDir t flightDataDir).node flightDataDir = some .dir then .ok ⟨createDir t flightDataDir, flightDataDir, h⟩
  else .error (.IOError (.errno .ENOTDIR))

/-- **A directory that is there is served as it is.** -/
theorem createDir_of_dir {t : FileTree} : ∀ {d : NodePath}, t.node d = some .dir → createDir t d = t
  | [], _ => rfl
  | n :: d, h => by
    rw [createDir, createDir_of_dir (FileTree.node_parent h), FileTree.mkdir, dif_neg]
    rintro ⟨-, -, hnone⟩
    cases h.symm.trans hnone

theorem serve_tree (fs : SubTreeFileSystem) : serve fs.tree fs.base = .ok fs := by
  have h := createDir_of_dir fs.base_dir
  unfold serve
  rw [dif_pos (by rw [h]; exact fs.base_dir)]
  exact congrArg Except.ok (SubTreeFileSystem.ext_tree h rfl)

/-! ## What a listing needs -/

section Listing

variable {pq : Parquet Schema Row} {port : Nat} {root : SubTreeFileSystem}

theorem listLoop_of_broken {info : FileInfo} {e : Status} (hd : isDataset info = true)
    (he : DatasetServer.makeFlightInfo pq port root info = .error e) :
    ∀ (listing : List FileInfo) (flights : List (FlightInfo Schema)), info ∈ listing →
      ∃ e', DatasetServer.listLoop pq port root listing flights = .error e'
  | other :: listing, flights, h => by
    rw [DatasetServer.listLoop_cons]
    rcases List.mem_cons.1 h with rfl | hrest
    · rw [if_pos hd, he]
      exact ⟨e, rfl⟩
    · split
      · cases DatasetServer.makeFlightInfo pq port root other with
        | error e' => exact ⟨e', rfl⟩
        | ok f => exact listLoop_of_broken hd he listing _ hrest
      · exact listLoop_of_broken hd he listing flights hrest

variable (port) in
theorem makeFlightInfo_of_broken {name c : Bytes} (hn : root.tree.node (name :: root.base) = some (.file c))
    (hc : pq.openFile c = none) (x : Bytes) :
    ∃ e, DatasetServer.makeFlightInfo pq port root (.ofNode name (some (.file x))) = .error e := by
  have hnode : root.nodeAt name = some (.file c) := by
    rw [SubTreeFileSystem.nodeAt_of_valid (FileTree.validName_of_node hn), hn]
  rw [DatasetServer.makeFlightInfo_of_file hnode, hc]
  exact ⟨_, rfl⟩

variable (pq port root) in
/-- **A listing succeeds exactly when every dataset opens.** -/
theorem listFlights_ok_iff (readdir : Enumeration (Bytes × Node)) :
    (∃ flights, FlightStressTestServer.listFlights pq port root readdir = .ok flights) ↔ Readable pq root := by
  constructor
  · rintro ⟨flights, h⟩ name c hn hext
    cases hc : pq.openFile c with
    | some md => rfl
    | none =>
      obtain ⟨e, he⟩ := makeFlightInfo_of_broken port hn hc c
      have hmem : FileInfo.ofNode name (some (.file c)) ∈
          (readdir.list (root.tree.children root.base)).map fun e => FileInfo.ofNode e.1 (some e.2) :=
        List.mem_map.2 ⟨(name, .file c), (Enumeration.mem_list _).2 (FileTree.mem_children.2 hn), rfl⟩
      have hd : isDataset (.ofNode name (some (.file c))) = true := hext
      obtain ⟨e', he'⟩ := listLoop_of_broken hd he _ [] hmem
      cases he'.symm.trans h
  · intro h
    obtain ⟨flights, -, hflights, -⟩ := ListingAgreement.listFlights_describes port h readdir
    exact ⟨flights, hflights⟩

end Listing

/-! ## What an upload leaves behind -/

/-- A write of the upload that fails has written a part of the table's bytes. -/
def FailsPartway (pq : Parquet Schema Row) (u : Upload Schema Row) : Prop :=
  ∀ f, u.writeFailure = some f → ∃ k < (pq.encode u.reader.table).length, f.written = (pq.encode u.reader.table).take k

section Upload

variable {pq : Parquet Schema Row} {u : Upload Schema Row}

/-- **Of what an upload writes, only the whole table opens.** -/
theorem openFile_part (hpq : pq.RejectsPartial) (hu : FailsPartway pq u) {done rest : Bytes}
    (h : done ++ rest = uploadBytes pq u) : (pq.openFile done).isSome ↔ rest = [] ∧ u.writeFailure = none := by
  have hpart : ∀ {k}, done = (pq.encode u.reader.table).take k → k < (pq.encode u.reader.table).length →
      pq.openFile done = none := fun hdone hk => by
    rw [hdone]
    exact hpq.2 _ _ hk
  cases hw : u.writeFailure with
  | none =>
    have h : done ++ rest = pq.encode u.reader.table := by rwa [uploadBytes, hw] at h
    by_cases hrest : rest = []
    · rw [hrest, List.append_nil] at h
      simp [h, hrest]
    · have hnone := hpart (k := done.length) (by rw [← h]; simp)
        (by rw [← h, List.length_append]; exact Nat.lt_add_of_pos_right (List.length_pos_iff.2 hrest))
      simp [hnone, hrest]
  | some f =>
    have h : done ++ rest = f.written := by rwa [uploadBytes, hw] at h
    obtain ⟨k, hk, hwritten⟩ := hu f hw
    have hlen : done.length ≤ k := by
      have := congrArg List.length (h.trans hwritten)
      rw [List.length_append, List.length_take] at this
      omega
    have hnone := hpart (k := done.length) (by
      have htake := congrArg (List.take done.length) (h.trans hwritten)
      rwa [List.take_left, List.take_take, Nat.min_eq_left hlen] at htake) (Nat.lt_of_le_of_lt hlen hk)
    simp [hnone]

/-- **The file of an upload that has opened it opens as Parquet exactly when the upload has written it whole.** -/
theorem UploadAt.readable_iff (hpq : pq.RejectsPartial) (hu : FailsPartway pq u) {s : Bytes} {p : NodePath}
    {before held : Option Node} {t : Task Schema Row} (h : UploadAt pq s p u before held t) (hopened : t.Opened) :
    (∀ c, held = some (.file c) → (pq.openFile c).isSome) ↔ ¬ t.Unwritten ∧ u.Completes := by
  have hheld : ∀ {b : Bytes}, held = some (.file b) →
      ((∀ c, held = some (.file c) → (pq.openFile c).isSome) ↔ (pq.openFile b).isSome) := by
    rintro b rfl
    exact ⟨fun h => h b rfl, fun h c hc => by cases hc; exact h⟩
  have hended : held = some (.file (leaves pq u)) →
      ((∀ c, held = some (.file c) → (pq.openFile c).isSome) ↔ u.Completes) := fun hleaves => by
    rw [hheld hleaves]
    cases hf : u.reader.failure with
    | some e => simp [leaves, Upload.leftover, hf, hpq.1, Upload.Completes]
    | none =>
      rw [leaves_of_received hf, openFile_part hpq hu (List.append_nil _)]
      simp [Upload.Completes, hf]
  cases t with
  | doPut => exact hopened.elim
  | opening => exact hopened.elim
  | receiving sink batches u' cut =>
    rw [hheld h.2.2, hpq.1]
    simp [Task.Unwritten]
  | writing sink pieces result =>
    obtain ⟨-, -, hf, done, hdone, -, hc⟩ := h
    rw [hheld hc, openFile_part hpq hu hdone]
    simp [Task.Unwritten, Upload.Completes, hf]
  | closing result => simpa [Task.Unwritten] using hended h.2
  | put result => simpa [Task.Unwritten] using hended h.2
  | _ => exact h.elim

theorem UploadAt.held_eq {s : Bytes} {p : NodePath} {before held : Option Node} {t : Task Schema Row}
    (h : UploadAt pq s p u before held t) (hopened : ¬ t.Opened) : held = before := by
  cases t with
  | doPut => exact h.2
  | opening => exact h.2.2
  | _ => exact absurd trivial hopened

end Upload

/-! ## What the next server finds -/

section Run

variable [DecidableEq ι] (pq : Parquet Schema Row) (port : Nat) (root : SubTreeFileSystem) (request : ι → Request Schema Row)

/-- No two requests upload to one file. -/
def OneUploadEach : Prop :=
  ∀ i j p, i ≠ j → (request i).IsUpload → (request j).IsUpload → (request i).target root = some p →
    (request j).target root ≠ some p

/-- The name is given for an upload that has opened its file only if it has written it whole, and for none that has only if
what was there opens. -/
def LeftWhole (c : Pool ι SubTreeFileSystem (Task Schema Row)) (name : Bytes) : Prop :=
  (∀ i u cut, request i = .doPut u cut → (request i).target root = some (name :: root.base) → (c.task i).Opened →
    ¬ (c.task i).Unwritten ∧ u.Completes) ∧
  ((∀ i, (request i).IsUpload → (request i).target root = some (name :: root.base) → ¬ (c.task i).Opened) →
    ∀ b, root.tree.node (name :: root.base) = some (.file b) → (pq.openFile b).isSome)

variable {pq port root request}

theorem outputPath_of_target {u : Upload Schema Row} {cut : Chunking} {p : NodePath}
    (h : (Request.doPut u cut).target root = some p) (hdir : root.tree.node p ≠ some .dir) : ∃ s,
      DatasetServer.nameOf u.reader.descriptor = some s ∧ root.outputPath (Posix.removeLeadingSlash s) = some p := by
  obtain ⟨s, hs, hp⟩ := resolve_of_target h
  refine ⟨s, hs, SubTreeFileSystem.outputPath_eq_some.2 ⟨fun hnil => hdir ?_, ?_, hdir⟩⟩
  · rw [← nodeAt_of_resolve (.refl root) hp, ← SubTreeFileSystem.nodeAt_removeLeadingSlash, hnil]
    exact SubTreeFileSystem.nodeAt_nil root
  · rwa [SubTreeFileSystem.resolve_removeLeadingSlash]

variable (pq port) in
/-- **What the server has by then of a file that one request uploads to.** -/
theorem uploadAt_run {i : ι} {u : Upload Schema Row} {cut : Chunking} (hi : request i = .doPut u cut) {p : NodePath}
    (htarget : (request i).target root = some p)
    (hone : ∀ j, j ≠ i → (request j).IsUpload → (request j).target root ≠ some p) (hdir : root.tree.node p ≠ some .dir)
    (sched : List ι) : ∃ s,
      UploadAt pq s p u (root.tree.node p) ((run pq port root request sched).shared.tree.node p)
        ((run pq port root request sched).task i) := by
  have htarget' := htarget
  rw [hi] at htarget'
  obtain ⟨s, hs, hp⟩ := outputPath_of_target htarget' hdir
  refine ⟨Posix.removeLeadingSlash s, (Pool.run_invariant (f := Task.step pq port)
    (I := fun c => Serving root p (· = i) c ∧
      UploadAt pq (Posix.removeLeadingSlash s) p u (root.tree.node p) (c.shared.tree.node p) (c.task i)) (fun c j hc => ?_) sched
    ⟨serving_start request ?_ ?_, ?_⟩).2⟩
  · refine ⟨hc.1.step c j, ?_⟩
    by_cases hj : i = j
    · subst hj
      rw [Pool.step_task_self, Pool.step_shared]
      exact hc.2.step port hs hc.1.dirs hp
    · rw [Pool.step_task_of_ne _ _ hj, Pool.step_shared, hc.1.node_step (Ne.symm hj)]
      exact hc.2
  · rintro _ rfl
    exact htarget
  · exact fun j hj hup => hone j hj hup
  · show UploadAt pq _ p u (root.tree.node p) (root.tree.node p) (request i).task
    rw [hi]
    exact ⟨rfl, rfl⟩

theorem leftWhole_iff (hpq : pq.RejectsPartial) (hone : OneUploadEach root request)
    (hpart : ∀ i u cut, request i = .doPut u cut → FailsPartway pq u) (sched : List ι) {name : Bytes}
    (hdir : root.tree.node (name :: root.base) ≠ some .dir) :
    (∀ b, (run pq port root request sched).shared.tree.node (name :: root.base) = some (.file b) → (pq.openFile b).isSome) ↔
      LeftWhole pq root request (run pq port root request sched) name := by
  by_cases hup : ∃ i, (request i).IsUpload ∧ (request i).target root = some (name :: root.base)
  · obtain ⟨i, hi, htarget⟩ := hup
    obtain ⟨u, cut, hdoPut⟩ : ∃ u cut, request i = .doPut u cut := by
      cases hr : request i with
      | doPut u cut => exact ⟨u, cut, rfl⟩
      | _ => rw [hr] at hi; exact hi.elim
    have huniq : ∀ j, (request j).IsUpload → (request j).target root = some (name :: root.base) → j = i := fun j hj ht =>
      Classical.byContradiction fun hne => hone j i _ hne hj hi ht htarget
    obtain ⟨s, hat⟩ := uploadAt_run pq port hdoPut htarget (fun j hj hup => hone i j _ (Ne.symm hj) hi hup htarget) hdir sched
    -- opening truncates, so that what was there counts only as long as the upload has not opened the file
    by_cases hopened : ((run pq port root request sched).task i).Opened
    · rw [UploadAt.readable_iff hpq (hpart i u cut hdoPut) hat hopened]
      constructor
      · refine fun h => ⟨fun j u' cut' hj ht _ => ?_, fun hnone => absurd hopened (hnone i hi htarget)⟩
        obtain rfl := huniq j (by rw [hj]; trivial) ht
        cases hdoPut.symm.trans hj
        exact h
      · exact fun h => h.1 i u cut hdoPut htarget hopened
    · rw [UploadAt.held_eq hat hopened]
      constructor
      · refine fun h => ⟨fun j u' cut' hj ht ho => ?_, fun _ => h⟩
        obtain rfl := huniq j (by rw [hj]; trivial) ht
        exact absurd ho hopened
      · refine fun h => h.2 fun j hj ht => ?_
        rwa [huniq j hj ht]
  · have hnone : ∀ i, (request i).IsUpload → (request i).target root ≠ some (name :: root.base) := fun i hi ht =>
      hup ⟨i, hi, ht⟩
    rw [run_node_of_no_upload hnone]
    constructor
    · exact fun h => ⟨fun i u cut hi ht _ => absurd ht (hnone i (by rw [hi]; trivial)), fun _ => h⟩
    · exact fun h => h.2 fun i hi ht => absurd ht (hnone i hi)

/-- **What a server that is started after a crash serves is what was there.** -/
theorem eq_of_serve {sched : List ι} {fs : SubTreeFileSystem}
    (hserve : serve (run pq port root request sched).shared.tree root.base = .ok fs) :
    (run pq port root request sched).shared = fs := by
  have hdirs : root.SameDirs (run pq port root request sched).shared := sameDirs_run request sched
  rw [← hdirs.base, serve_tree] at hserve
  exact Except.ok.inj hserve

/-- **The server that is started after a crash lists its datasets exactly when the crash came in the middle of no upload to
one**, and none has failed, and what was there before and has not been uploaded anew can be read. -/
theorem restart_lists_iff (hpq : pq.RejectsPartial) (hone : OneUploadEach root request)
    (hpart : ∀ i u cut, request i = .doPut u cut → FailsPartway pq u) (sched : List ι) {fs : SubTreeFileSystem}
    (hserve : serve (run pq port root request sched).shared.tree root.base = .ok fs) (nextPort : Nat)
    (readdir : Enumeration (Bytes × Node)) :
    (∃ flights, FlightStressTestServer.listFlights pq nextPort fs readdir = .ok flights) ↔
      ∀ name, hasExtension name → root.tree.node (name :: root.base) ≠ some .dir →
        LeftWhole pq root request (run pq port root request sched) name := by
  have hdirs : root.SameDirs (run pq port root request sched).shared := sameDirs_run request sched
  obtain rfl := eq_of_serve hserve
  rw [listFlights_ok_iff]
  unfold Readable
  rw [hdirs.base]
  constructor
  · exact fun h name hext hdir => (leftWhole_iff hpq hone hpart sched hdir).1 fun b hb => h name b hb hext
  · intro h name b hb hext
    have hdir : root.tree.node (name :: root.base) ≠ some .dir := fun hdir => by
      rw [(hdirs.dir _).2 hdir] at hb
      cases hb
    exact (leftWhole_iff hpq hone hpart sched hdir).2 (h name hext hdir) b hb

/-! ## Until it is replaced -/

/-- Where a listing can stand that is not to succeed: it has still to open the broken file `name`, or has it open, or has
failed. -/
def FailsAt (base : NodePath) (name b : Bytes) : Task Schema Row → Prop
  | .listFlights _ => True
  | .listing rest _ => .ofNode name (some (.file b)) ∈ rest
  | .listingFile fileInfo input rest _ =>
    fileInfo = .ofNode name (some (.file b)) ∧ input = ⟨name :: base, b.length⟩ ∨ .ofNode name (some (.file b)) ∈ rest
  | .flights result => ∃ e, result = .error e
  | _ => False

omit [DecidableEq ι] in
theorem FailsAt.step {fs : SubTreeFileSystem} {name b : Bytes} (hn : fs.tree.node (name :: fs.base) = some (.file b))
    (hext : hasExtension name) (hb : pq.openFile b = none) {t : Task Schema Row}
    (h : FailsAt fs.base name b t) : FailsAt fs.base name b (t.step pq port fs).2 := by
  cases t with
  | listFlights readdir =>
    exact List.mem_map.2 ⟨(name, .file b), (Enumeration.mem_list _).2 (FileTree.mem_children.2 hn), rfl⟩
  | listing rest found =>
    cases rest with
    | nil => cases h
    | cons info rest =>
      have hd : isDataset (.ofNode name (some (.file b))) = true := hext
      have ho : fs.openReadableInfo (.ofNode name (some (.file b))) = .ok ⟨name :: fs.base, b.length⟩ :=
        SubTreeFileSystem.openReadable_of_node hn
      rw [Task.step_listing]
      rcases List.mem_cons.1 h with rfl | hrest
      · rw [if_pos hd, ho]
        exact .inl ⟨rfl, rfl⟩
      · split
        · cases fs.openReadableInfo info with
          | error e => exact ⟨e, rfl⟩
          | ok input => exact .inr hrest
        · exact hrest
  | listingFile info input rest found =>
    rcases h with ⟨rfl, rfl⟩ | hrest
    · simp only [Task.step, SubTreeFileSystem.bytesOf_whole hn, FlightStressTestServer.inspect_ofNode]
      rw [FlightStressTestServer.openFile_of_length pq rfl, DatasetServer.openParquet, hb]
      exact ⟨_, rfl⟩
    · simp only [Task.step]
      cases FlightStressTestServer.inspect pq port info input (fs.bytesOf input) with
      | error e => exact ⟨e, rfl⟩
      | ok f => exact hrest
  | flights result => exact h
  | _ => exact h.elim

/-- **A broken file fails every listing until it is replaced**: whatever is uploaded to other files, looked up, fetched and
listed meanwhile, and however that is interleaved, no listing is answered that succeeds. -/
theorem broken_until_replaced {name b : Bytes} (hn : root.tree.node (name :: root.base) = some (.file b))
    (hext : hasExtension name) (hb : pq.openFile b = none)
    (hnone : ∀ i, (request i).IsUpload → (request i).target root ≠ some (name :: root.base)) (sched : List ι) {i : ι}
    {readdir : Enumeration (Bytes × Node)} (hi : request i = .listFlights readdir)
    {result : Result (List (FlightInfo Schema))} (h : (run pq port root request sched).task i = .flights result) :
    ∃ e, result = .error e := by
  have hfails : FailsAt root.base name b ((run pq port root request sched).task i) :=
    (Pool.run_invariant (f := Task.step pq port) (I := fun c => (Serving root (name :: root.base) (fun _ => False) c ∧
      c.shared.tree.node (name :: root.base) = some (.file b)) ∧ FailsAt root.base name b (c.task i))
      (c := start root request) (fun c j hc => ?_) sched
      ⟨⟨serving_start request (fun _ => False.elim) fun j _ => hnone j, hn⟩, ?_⟩).2
  · rw [h] at hfails
    exact hfails
  · obtain ⟨⟨hserving, hheld⟩, hfails⟩ := hc
    refine ⟨⟨hserving.step c j, (hserving.node_step id).trans hheld⟩, ?_⟩
    by_cases hj : i = j
    · subst hj
      rw [Pool.step_task_self]
      rw [← hserving.dirs.base] at hheld hfails ⊢
      exact hfails.step hheld hext hb
    · rwa [Pool.step_task_of_ne _ _ hj]
  · show FailsAt _ _ _ (request i).task
    rw [hi]
    trivial

end Run

/-! ## A crash in the middle of an upload -/

theorem oneUploadEach_twoUploads : OneUploadEach .bare twoUploads := fun i j p hij hi _ ht hj =>
  apart_twoUploads j i p (Ne.symm hij) hi ht hj

/-- The upload to `a.parquet` has opened its file when the server is killed. -/
theorem restart_lists_iff_midway : ¬ ∃ flights, FlightStressTestServer.listFlights tinyParquet 5001
    (run tinyParquet 5000 .bare twoUploads [false, false]).shared (.chosen _) = .ok flights := fun h => by
  have hpart : ∀ i u cut, twoUploads i = .doPut u cut → FailsPartway tinyParquet u := fun i u cut hi f hf => by
    cases i <;> cases hi <;> cases hf
  have hwhole := (restart_lists_iff tinyParquet_rejectsPartial oneUploadEach_twoUploads hpart [false, false]
    (serve_tree (run tinyParquet 5000 .bare twoUploads [false, false]).shared) 5001 (.chosen _)).1 h (utf8 "a.parquet")
    (by decide) (by decide +kernel)
  exact (hwhole.1 false _ _ rfl (by decide) trivial).1 trivial

/-- An empty file, which a killed server has left. -/
def emptied : SubTreeFileSystem := PutFailure.oneFile (utf8 "a.parquet") []

def listingOnly (readdir : Enumeration (Bytes × Node)) (_ : Unit) : Request Unit UInt8 := .listFlights readdir

theorem step_emptied : Task.step tinyParquet 5000 emptied (.listFlights (.chosen _)) =
    (emptied, (.listing [.ofNode (utf8 "a.parquet") (some (.file []))] [] : Task Unit UInt8)) := by
  rw [Task.step, SubTreeFileSystem.getFileInfoRoot, emptied, PutFailure.children_oneFile (by decide),
    Enumeration.list_singleton]
  rfl

theorem listing_emptied : (run tinyParquet 5000 emptied (listingOnly (.chosen _)) [(), (), ()]).task () =
    .flights (.error (.IOError .parquet)) := by
  have hrun : (run tinyParquet 5000 emptied (listingOnly (.chosen _)) [(), (), ()]).task () =
      (Pool.solo (Task.step tinyParquet 5000) 3 emptied (.listFlights (.chosen _))).2 := by
    show (Pool.run _ _ (List.replicate 3 ())).task () = _
    rw [Pool.run_replicate]
    rfl
  rw [hrun, Pool.solo_succ, step_emptied]
  rfl

theorem broken_until_replaced_emptied : ∃ e, (Except.error (.IOError .parquet) : Result (List (FlightInfo Unit))) = .error e := by
  have hn : emptied.tree.node (utf8 "a.parquet" :: emptied.base) = some (.file []) := by decide +kernel
  exact broken_until_replaced hn (by decide) tinyParquet_rejectsPartial.1
    (fun i (hup : (listingOnly (.chosen _) i).IsUpload) => (show False from hup).elim) [(), (), ()] rfl listing_emptied

end AfterCrash
