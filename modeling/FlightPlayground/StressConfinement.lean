import FlightPlayground.StressServer
import FlightPlayground.Confinement
/-!
# StressConfinement — which requests reach a file outside the served directory

`SubTreeFileSystem` appends the path it is given to its base, and the operating system takes `..` for the parent.  The
handlers check how many components a descriptor has and nothing else, so a name leads wherever its dots lead.
-/
namespace StressConfinement

open Posix (Bytes Node NodePath FileTree utf8)
open Posix.FileTree (Inside KeepsOutside SameInside Change)
open Unordered (Enumeration)
open Arrow
open Flight
open StressServer (Request Response handle)
open DatasetServer (nameOf sinkPath)

variable {Schema Row : Type} (pq : Parquet Schema Row) (port : Nat)

/-- The stores are the same, but for the contents of files outside the served directory. -/
structure SameDirectory (root root' : SubTreeFileSystem) : Prop where
  base : root'.base = root.base
  tree : SameInside root.base root.tree root'.tree

/-! ## The changes a request makes -/

/-- What `WriteTable` writes to an open sink, and how much of it when it fails. -/
def writeTableChanges (sink : Sink) (table : Table Schema Row) : Option WriteFailure → List Change
  | none => [.write sink.path sink.pos (pq.encode table)]
  | some f => [.write sink.path sink.pos f.written]

/-- The file is created, or cut to nothing, before the stream is read. -/
def doPutChanges (root : SubTreeFileSystem) (u : Upload Schema Row) : List Change :=
  match DatasetServer.fileInfoFromDescriptor root u.reader.descriptor with
  | .error _ => []
  | .ok fileInfo =>
    match root.openOutputStream fileInfo.path with
    | .error _ => []
    | .ok (sink, _) =>
      .create sink.path ::
        match u.reader.toTable with
        | .error _ => []
        | .ok table => writeTableChanges pq sink table u.writeFailure

def deleteFileChanges (root : SubTreeFileSystem) (s : Bytes) : List Change :=
  match root.resolve s with
  | .error _ => []
  | .ok p =>
    match root.tree.node p with
    | some (.file _) => [.delete p]
    | _ => []

def doActionChanges (root : SubTreeFileSystem) (a : Action) : List Change :=
  if a.type = DatasetServer.kActionDropDataset.type then deleteFileChanges root a.body else []

/-- The changes that a request makes to files, in the order in which it makes them. -/
def changes (root : SubTreeFileSystem) : Request Schema Row → List Change
  | .doPut u => doPutChanges pq root u
  | .doAction a => doActionChanges root a
  | _ => []

/-! ## Confinement -/

/-- The request creates, truncates, overwrites and deletes no file outside the served directory, all outside is as it
was, and the answer does not depend on what files there hold. -/
structure Confined (root : SubTreeFileSystem) (r : Request Schema Row) : Prop where
  changes : ∀ c ∈ changes pq root r, Inside root.base c.file
  keeps : KeepsOutside root.base root.tree (handle pq port root r).2.tree
  blind : ∀ root', SameDirectory root root' → (handle pq port root' r).1 = (handle pq port root r).1

/-- The path leads to no file outside the served directory. -/
def NamesNoFileOutside (root : SubTreeFileSystem) (s : Bytes) : Prop :=
  ∀ p c, root.resolve s = .ok p → root.tree.node p = some (.file c) → Inside root.base p

/-- The request names no file outside the served directory, and an upload none that it would create. -/
def StaysInside (root : SubTreeFileSystem) : Request Schema Row → Prop
  | .listFlights _ => True
  | .getFlightInfo d => ∀ s ∈ nameOf d, NamesNoFileOutside root s
  | .doPut u => ∀ p ∈ sinkPath root u.reader.descriptor, Inside root.base p
  | .doGet t => NamesNoFileOutside root t.ticket
  | .listActions => True
  | .doAction a => a.type = utf8 "drop_dataset" → NamesNoFileOutside root a.body

variable {pq port} {root root' : SubTreeFileSystem}

/-! ## Stores that look the same -/

section Same

variable (h : SameDirectory root root')

include h

theorem SameDirectory.resolve_eq (s : Bytes) : root'.resolve s = root.resolve s := by
  unfold SubTreeFileSystem.resolve
  rw [h.base, h.tree.resolve_eq]

theorem SameDirectory.outputPath_eq (s : Bytes) : root'.outputPath s = root.outputPath s := by
  ext p
  simp only [SubTreeFileSystem.outputPath_eq_some, h.resolve_eq, ne_eq, h.tree.dir_iff]

theorem SameDirectory.nodeAt_eq {s : Bytes} (hs : NamesNoFileOutside root s) : root'.nodeAt s = root.nodeAt s := by
  unfold SubTreeFileSystem.nodeAt
  rw [h.resolve_eq]
  cases hr : root.resolve s with
  | error e => rfl
  | ok p => exact h.tree.node_eq fun c hc => hs p c hr hc

end Same

/-- **An answer that depends on what a file holds gives away a file outside if and only if the path leads to one.** -/
theorem nodeAt_blind_iff {ρ : Type} {look : Option Node → ρ}
    (hlook : ∀ c, ∃ c', look (some (.file c')) ≠ look (some (.file c))) (s : Bytes) :
    (∀ root', SameDirectory root root' → look (root'.nodeAt s) = look (root.nodeAt s)) ↔ NamesNoFileOutside root s := by
  constructor
  · intro hblind p c hr hc
    refine (FileTree.sees_iff hlook).1 (fun t' ht' => ?_) c hc
    let root' : SubTreeFileSystem := ⟨t', root.base, (ht'.dir_iff _).2 root.base_dir⟩
    have hroot' : SameDirectory root root' := ⟨rfl, ht'⟩
    have hb := hblind root' hroot'
    unfold SubTreeFileSystem.nodeAt at hb
    rwa [hroot'.resolve_eq, hr] at hb
  · intro hs root' h
    rw [h.nodeAt_eq hs]

/-! ## Request by request -/

theorem fileInfoFromDescriptor_none {d : FlightDescriptor} (h : nameOf d = none) (root root' : SubTreeFileSystem) :
    DatasetServer.fileInfoFromDescriptor root' d = DatasetServer.fileInfoFromDescriptor root d := by
  obtain ⟨type, cmd, path⟩ := d
  by_cases ht : type = .PATH
  · subst ht
    match path with
    | [] => rfl
    | [s] => cases h
    | _ :: _ :: _ => rfl
  · simp [DatasetServer.fileInfoFromDescriptor, ht]

theorem namesNoFileOutside_of_valid {n : Bytes} (h : Posix.ValidName n) (root : SubTreeFileSystem) :
    NamesNoFileOutside root n := fun p c hr _ => by
  rw [SubTreeFileSystem.resolve_of_valid h] at hr
  cases hr
  exact FileTree.inside_child root.base n

/-- **A listing reads the served directory only.** -/
theorem listFlights_blind (h : SameDirectory root root') (readdir : Enumeration (Bytes × Node)) :
    DatasetServer.listFlights pq port root' readdir = DatasetServer.listFlights pq port root readdir := by
  have hlisting : root'.getFileInfoRoot readdir = root.getFileInfoRoot readdir := by
    unfold SubTreeFileSystem.getFileInfoRoot
    rw [h.base, h.tree.children_eq fun n _ _ => FileTree.inside_child root.base n]
  unfold DatasetServer.listFlights
  rw [hlisting]
  refine DatasetServer.listLoop_congr _ [] fun fileInfo hf => DatasetServer.makeFlightInfo_congr ?_
  obtain ⟨⟨n, x⟩, he, rfl⟩ := List.mem_map.1 hf
  rw [Enumeration.mem_list, FileTree.mem_children] at he
  rw [FileInfo.ofNode_path]
  exact h.nodeAt_eq (namesNoFileOutside_of_valid (FileTree.validName_of_node he) root)

/-- What `GetFlightInfo` answers of what stands at the path `s`. -/
def infoOf (pq : Parquet Schema Row) (port : Nat) (s : Bytes) : Option Node → Result (FlightInfo Schema)
  | some (.file c) =>
    match pq.openFile c with
    | some md => .ok (DatasetServer.mintedInfo port (Posix.baseName (Posix.removeLeadingSlash s)) md c.length)
    | none => .error (.IOError .parquet)
  | some .dir => .error (.IOError (.notAFile (Posix.removeLeadingSlash s)))
  | none => .error (.IOError (.pathNotFound (Posix.removeLeadingSlash s)))

variable (port root) in
theorem getFlightInfo_blind_iff (hpq : pq.RejectsPartial) (t₀ : Table Schema Row) {d : FlightDescriptor} {s : Bytes}
    (hn : nameOf d = some s) :
    (∀ root', SameDirectory root root' →
      DatasetServer.getFlightInfo pq port root' d = DatasetServer.getFlightInfo pq port root d) ↔
      NamesNoFileOutside root s := by
  have hinfo : ∀ fs, DatasetServer.getFlightInfo pq port fs d = infoOf pq port s (fs.nodeAt s) := fun fs => by
    rw [DatasetServer.getFlightInfo_of_name hn, DatasetServer.makeFlightInfo_ofNode]
    rfl
  simp only [hinfo]
  apply nodeAt_blind_iff
  intro c
  cases hc : pq.openFile c with
  | none => exact ⟨pq.encode t₀, by simp [infoOf, hc]⟩
  | some md => exact ⟨[], by simp [infoOf, hc, hpq.1]⟩

/-- What `DoGet` answers of what stands at the path `s`. -/
def streamOf (pq : Parquet Schema Row) (s : Bytes) : Option Node → Result (FlightDataStream Schema Row)
  | some (.file c) => do
    let reader ← DatasetServer.openParquet pq c
    let table ← DatasetServer.readTable pq reader c
    return ⟨table.schema, table.toRecordBatches⟩
  | some .dir => .error (.IOError (.notAFile s))
  | none => .error (.IOError (.pathNotFound s))

theorem streamOf_nil (hpq : pq.RejectsPartial) (s : Bytes) :
    streamOf pq s (some (.file [])) = .error (.IOError .parquet) := by
  simp [streamOf, DatasetServer.openParquet, hpq.1, bind, Except.bind]

theorem streamOf_encode (s : Bytes) (t : Table Schema Row) :
    streamOf pq s (some (.file (pq.encode t))) = .ok ⟨t.schema, t.toRecordBatches⟩ := by
  simp [streamOf, DatasetServer.openParquet, DatasetServer.readTable, bind, Except.bind, pure, Except.pure]

variable (root) in
theorem doGet_blind_iff (hpq : pq.RejectsPartial) (t₀ : Table Schema Row) (t : Ticket) :
    (∀ root', SameDirectory root root' → DatasetServer.doGet pq root' t = DatasetServer.doGet pq root t) ↔
      NamesNoFileOutside root t.ticket := by
  by_cases hs : t.ticket = []
  · have hnames : NamesNoFileOutside root t.ticket := fun p c hr hc => by
      have := SubTreeFileSystem.nodeAt_eq_file.2 ⟨p, hr, hc⟩
      rw [hs, SubTreeFileSystem.nodeAt_nil] at this
      cases this
    refine ⟨fun _ => hnames, fun _ root' _ => ?_⟩
    simp [DatasetServer.doGet, SubTreeFileSystem.openInputFile, hs, bind, Except.bind]
  · have hget : ∀ fs, DatasetServer.doGet pq fs t = streamOf pq t.ticket (fs.nodeAt t.ticket) := fun fs => by
      unfold DatasetServer.doGet
      rw [SubTreeFileSystem.openInputFile, if_neg hs]
      rcases fs.nodeAt t.ticket with _ | _ | c <;> rfl
    simp only [hget]
    apply nodeAt_blind_iff
    intro c
    cases hc : streamOf pq t.ticket (some (.file c)) with
    | error e => exact ⟨pq.encode t₀, by simp [streamOf_encode]⟩
    | ok s => exact ⟨[], by simp [streamOf_nil hpq]⟩

theorem SameDirectory.openOutputStream_error (h : SameDirectory root root') {s : Bytes} {e : Status}
    (he : root.openOutputStream s = .error e) : root'.openOutputStream s = .error e := by
  unfold SubTreeFileSystem.openOutputStream at he ⊢
  rw [h.resolve_eq]
  split
  · rwa [if_pos ‹_›] at he
  · rw [if_neg ‹_›] at he
    cases hr : root.resolve s with
    | error errno => simpa [hr] using he
    | ok p =>
      simp only [hr, h.tree.dir_iff] at he ⊢
      split
      · rwa [if_pos ‹_›] at he
      · rw [if_neg ‹_›] at he
        cases he

/-- **Whether an upload succeeds is no matter of what files hold.** -/
theorem doPut_blind (h : SameDirectory root root') (u : Upload Schema Row) :
    (DatasetServer.doPut pq root' u).1 = (DatasetServer.doPut pq root u).1 := by
  cases hs : sinkPath root u.reader.descriptor with
  | some p =>
    have hs' : sinkPath root' u.reader.descriptor = some p := by
      unfold sinkPath at hs ⊢
      simpa only [h.outputPath_eq] using hs
    rw [DatasetServer.doPut_eq_of_sinkPath pq hs, DatasetServer.doPut_eq_of_sinkPath pq hs']
  | none =>
    unfold DatasetServer.doPut
    cases hn : nameOf u.reader.descriptor with
    | none =>
      obtain ⟨m, hm⟩ := DatasetServer.fileInfoFromDescriptor_of_none root hn
      rw [fileInfoFromDescriptor_none hn root root', hm]
    | some s =>
      unfold sinkPath at hs
      rw [hn] at hs
      obtain ⟨e, he⟩ := SubTreeFileSystem.openOutputStream_of_none hs
      rw [DatasetServer.fileInfoFromDescriptor_of_name root hn, DatasetServer.fileInfoFromDescriptor_of_name root' hn]
      simp only [FileInfo.ofNode_path, he, h.openOutputStream_error he]

theorem doAction_blind (h : SameDirectory root root') (a : Action) :
    (DatasetServer.doAction root' a).1 = (DatasetServer.doAction root a).1 := by
  by_cases ha : a.type = utf8 "drop_dataset"
  · rw [DatasetServer.doAction_of_drop ha, DatasetServer.doAction_of_drop ha]
    unfold DatasetServer.doActionDropDataset SubTreeFileSystem.deleteFile
    rw [h.resolve_eq]
    by_cases hk : a.body = []
    · simp [hk]
    · simp only [hk, if_false]
      cases hr : root.resolve a.body with
      | error e => rfl
      | ok p =>
        rcases h.tree.others p with hp | ⟨c, c', hp, hp'⟩
        · simp only [hp]
          rcases root.tree.node p with _ | _ | c <;> rfl
        · simp only [hp, hp']
  · rw [DatasetServer.doAction_of_unknown ha, DatasetServer.doAction_of_unknown ha]

/-! ## The changes, replayed -/

theorem doPutChanges_of_none {u : Upload Schema Row} (h : sinkPath root u.reader.descriptor = none) :
    doPutChanges pq root u = [] := by
  unfold doPutChanges
  cases hn : nameOf u.reader.descriptor with
  | none =>
    obtain ⟨m, hm⟩ := DatasetServer.fileInfoFromDescriptor_of_none root hn
    rw [hm]
  | some s =>
    unfold sinkPath at h
    rw [hn] at h
    obtain ⟨e, he⟩ := SubTreeFileSystem.openOutputStream_of_none h
    rw [DatasetServer.fileInfoFromDescriptor_of_name root hn]
    simp only [FileInfo.ofNode_path, he]

variable (pq) in
/-- **An upload whose path opens creates the file there, and writes at most once to it.** -/
theorem doPutChanges_of_sinkPath {u : Upload Schema Row} {p : NodePath} (h : sinkPath root u.reader.descriptor = some p) :
    doPutChanges pq root u = [.create p] ∧ u.leftover = some [] ∨
      doPutChanges pq root u = [.create p, .write p 0 (u.leftover.getD (pq.encode u.reader.table))] := by
  unfold sinkPath at h
  obtain ⟨s, hn, hs⟩ := Option.bind_eq_some_iff.1 h
  unfold doPutChanges
  rw [DatasetServer.fileInfoFromDescriptor_of_name root hn]
  simp only [FileInfo.ofNode_path, SubTreeFileSystem.openOutputStream_of_some hs]
  obtain ⟨⟨d, schema, batches, failure⟩, writeFailure⟩ := u
  cases failure with
  | some e => exact .inl ⟨rfl, rfl⟩
  | none => cases writeFailure <;> exact .inr rfl

variable (pq root) in
/-- **An upload changes the file that its path opens**, whatever is sent and however the write ends. -/
theorem doPutChanges_inside_iff (u : Upload Schema Row) :
    (∀ c ∈ doPutChanges pq root u, Inside root.base c.file) ↔
      ∀ p ∈ sinkPath root u.reader.descriptor, Inside root.base p := by
  cases hs : sinkPath root u.reader.descriptor with
  | none => simp [doPutChanges_of_none hs]
  | some p =>
    obtain ⟨hch, -⟩ | hch := doPutChanges_of_sinkPath pq hs
    · simp [hch]
    · simp [hch]

theorem deleteFileChanges_of_file {s : Bytes} {p : NodePath} {c : Bytes} (hr : root.resolve s = .ok p)
    (hp : root.tree.node p = some (.file c)) : deleteFileChanges root s = [.delete p] := by
  simp only [deleteFileChanges, hr, hp]

theorem deleteFileChanges_of_no_file {s : Bytes} (h : ∀ c, root.nodeAt s ≠ some (.file c)) :
    deleteFileChanges root s = [] := by
  unfold deleteFileChanges
  unfold SubTreeFileSystem.nodeAt at h
  cases hr : root.resolve s with
  | error e => rfl
  | ok p =>
    rw [hr] at h
    rcases hp : root.tree.node p with _ | _ | c
    · simp only [hp]
    · simp only [hp]
    · exact absurd hp (h c)

theorem deleteFileChanges_inside_iff (s : Bytes) :
    (∀ c ∈ deleteFileChanges root s, Inside root.base c.file) ↔ NamesNoFileOutside root s := by
  by_cases h : ∃ c, root.nodeAt s = some (.file c)
  · obtain ⟨c, hc⟩ := h
    obtain ⟨p, hr, hp⟩ := SubTreeFileSystem.nodeAt_eq_file.1 hc
    rw [deleteFileChanges_of_file hr hp, List.forall_mem_singleton]
    constructor
    · intro hin q c' hq _
      rw [hr] at hq
      cases hq
      exact hin
    · exact fun hn => hn p c hr hp
  · have hno := not_exists.1 h
    rw [deleteFileChanges_of_no_file hno]
    refine ⟨fun _ p c hr hp => ?_, fun _ _ => nofun⟩
    exact absurd (SubTreeFileSystem.nodeAt_eq_file.2 ⟨p, hr, hp⟩) (hno c)

theorem doActionChanges_of_drop {a : Action} (h : a.type = utf8 "drop_dataset") :
    doActionChanges root a = deleteFileChanges root a.body := if_pos h

theorem doActionChanges_of_unknown {a : Action} (h : a.type ≠ utf8 "drop_dataset") : doActionChanges root a = [] := if_neg h

variable (root) in
/-- **An action changes the file that the key of a drop leads to.** -/
theorem doActionChanges_inside_iff (a : Action) :
    (∀ c ∈ doActionChanges root a, Inside root.base c.file) ↔
      (a.type = utf8 "drop_dataset" → NamesNoFileOutside root a.body) := by
  by_cases ha : a.type = utf8 "drop_dataset"
  · rw [doActionChanges_of_drop ha, deleteFileChanges_inside_iff]
    exact ⟨fun h _ => h, fun h => h ha⟩
  · rw [doActionChanges_of_unknown ha]
    exact ⟨fun _ h => absurd h ha, fun _ => nofun⟩

/-- **The changes of a request, replayed, lead to the store that its handler leaves.** -/
theorem replay_changes (r : Request Schema Row) :
    root.tree.replay (changes pq root r) = (handle pq port root r).2.tree := by
  cases r with
  | doPut u =>
    simp only [changes, handle, FlightStressTestServer.doPut]
    cases hs : sinkPath root u.reader.descriptor with
    | none =>
      obtain ⟨e, he⟩ := DatasetServer.doPut_of_sinkPath_none pq hs
      rw [doPutChanges_of_none hs, he]
      rfl
    | some p =>
      rw [DatasetServer.doPut_eq_of_sinkPath pq hs]
      obtain ⟨hch, hleft⟩ | hch := doPutChanges_of_sinkPath pq hs
      · rw [hch, hleft]
        rfl
      · rw [hch, FileTree.replay_create_write (DatasetServer.canHoldFile_of_sinkPath hs)]
        rfl
  | doAction a =>
    simp only [changes, handle, FlightStressTestServer.doAction]
    by_cases ha : a.type = utf8 "drop_dataset"
    · rw [DatasetServer.doAction_of_drop ha, doActionChanges_of_drop ha]
      obtain ⟨p, c, hr, hp, hres⟩ | ⟨hno, e, hres⟩ := DatasetServer.doActionDropDataset_cases root a.body
      · rw [deleteFileChanges_of_file hr hp, hres]
        rfl
      · rw [deleteFileChanges_of_no_file hno, hres]
        rfl
    · rw [DatasetServer.doAction_of_unknown ha, doActionChanges_of_unknown ha]
      rfl
  | _ => rfl

variable (port) in
theorem keepsOutside_of_changes {r : Request Schema Row} (h : ∀ c ∈ changes pq root r, Inside root.base c.file) :
    KeepsOutside root.base root.tree (handle pq port root r).2.tree := by
  rw [← replay_changes]
  exact FileTree.keepsOutside_replay _ _ h

theorem confined_of_changes {r : Request Schema Row} (h : ∀ c ∈ changes pq root r, Inside root.base c.file)
    (hblind : ∀ root', SameDirectory root root' → (handle pq port root' r).1 = (handle pq port root r).1) :
    Confined pq port root r := ⟨h, keepsOutside_of_changes port h, hblind⟩

/-! ## All requests -/

variable (pq port)

/-- **A request is confined to the served directory exactly when it names no file outside**, there or to be created.
`t₀` is any table. -/
theorem confined_iff (hpq : pq.RejectsPartial) (t₀ : Table Schema Row) (root : SubTreeFileSystem) (r : Request Schema Row) :
    Confined pq port root r ↔ StaysInside root r := by
  cases r with
  | listFlights readdir =>
    refine ⟨fun _ => trivial, fun _ => confined_of_changes nofun fun root' h => ?_⟩
    exact congrArg Response.flights (listFlights_blind h readdir)
  | listActions => exact ⟨fun _ => trivial, fun _ => confined_of_changes nofun fun _ _ => rfl⟩
  | getFlightInfo d =>
    cases hn : nameOf d with
    | none =>
      refine ⟨fun _ s hs => (by rw [hn] at hs; cases hs), fun _ => confined_of_changes nofun fun root' _ => ?_⟩
      refine congrArg Response.info ?_
      unfold FlightStressTestServer.getFlightInfo DatasetServer.getFlightInfo
      obtain ⟨m, hm⟩ := DatasetServer.fileInfoFromDescriptor_of_none root hn
      rw [fileInfoFromDescriptor_none hn root root', hm]
      rfl
    | some s =>
      have hiff := getFlightInfo_blind_iff port root hpq t₀ hn
      constructor
      · intro h s' hs'
        rw [hn] at hs'
        cases hs'
        exact hiff.1 fun root' hr => Response.info.inj (h.blind root' hr)
      · intro h
        exact confined_of_changes nofun fun root' hr => congrArg Response.info (hiff.2 (h s hn) root' hr)
  | doPut u =>
    have hiff := doPutChanges_inside_iff pq root u
    refine ⟨fun h => hiff.1 h.changes, fun h => confined_of_changes (hiff.2 h) fun root' hr => ?_⟩
    exact congrArg Response.status (doPut_blind hr u)
  | doGet t =>
    have hiff := doGet_blind_iff root hpq t₀ t
    constructor
    · exact fun h => hiff.1 fun root' hr => Response.stream.inj (h.blind root' hr)
    · exact fun h => confined_of_changes nofun fun root' hr => congrArg Response.stream (hiff.2 h root' hr)
  | doAction a =>
    have hiff := doActionChanges_inside_iff root a
    refine ⟨fun h => hiff.1 h.changes, fun h => confined_of_changes (hiff.2 h) fun root' hr => ?_⟩
    exact congrArg Response.status (doAction_blind hr a)

/-! ## A file beside the served directory -/

/-- The directory `data` is served, with a dataset in it and a file beside it. -/
def beside : SubTreeFileSystem :=
  ⟨((FileTree.bare.mkdir (utf8 "data") []).setFile [utf8 "a.parquet", utf8 "data"] (tinyParquet.encode ⟨(), [7]⟩)).setFile
    [utf8 "key"] [42], [utf8 "data"], by decide +kernel⟩

/-- Dots that lead back into the directory do no harm. -/
theorem confined_dots :
    Confined tinyParquet 5000 beside (.doAction ⟨utf8 "drop_dataset", utf8 "../data/a.parquet"⟩) := by
  refine (confined_iff tinyParquet 5000 tinyParquet_rejectsPartial ⟨(), [7]⟩ beside _).2 fun _ p c hr _ => ?_
  have hp : beside.resolve (utf8 "../data/a.parquet") = .ok [utf8 "a.parquet", utf8 "data"] := by decide +kernel
  cases hp.symm.trans hr
  decide

/-- A drop of `../key` deletes the file beside the directory. -/
theorem drop_escapes : ¬ Confined tinyParquet 5000 beside (.doAction ⟨utf8 "drop_dataset", utf8 "../key"⟩) := by
  intro h
  have hkept := h.keeps [utf8 "key"] (by decide)
  revert hkept
  decide +kernel

/-- An upload of the very bytes that the file holds cuts it to nothing, and writes it. -/
example :
    let table : Table Unit UInt8 := ⟨(), [7]⟩
    let u : Upload Unit UInt8 := .ofTable (.ofPath [utf8 "../key"]) table
    let root := beside.setFile [utf8 "key"] (tinyParquet.encode table)
    changes tinyParquet root (.doPut u) = [.create [utf8 "key"], .write [utf8 "key"] 0 (tinyParquet.encode table)] ∧
      (handle tinyParquet 5000 root (.doPut u)).2.tree.node [utf8 "key"] = root.tree.node [utf8 "key"] := by
  decide +kernel

end StressConfinement
