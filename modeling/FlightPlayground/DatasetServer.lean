import FlightPlayground.Flight
/-!
# DatasetServer — the servers of a directory of Parquet files

`test_flight_stress/server`, `distributed_with_opentelemetry/data_server` and `basic_doput/server` share their
handlers up to tracing and printing; each server's own definitions are at the end, under its name.  A handler that
changes the store returns the store it leaves, on an error as well.
-/
namespace DatasetServer

open Posix (Bytes Node NodePath FileTree utf8)
open Unordered (Enumeration)
open Arrow
open Flight

variable {Schema Row : Type} (pq : Parquet Schema Row) (port : Nat)

/-- `parquet::arrow::OpenFile`. -/
def openParquet (input : Bytes) : Result (FileMetaData Schema) :=
  match pq.openFile input with
  | some md => .ok md
  | none => .error (.IOError .parquet)

/-- `FileReader::ReadTable`. -/
def readTable (reader : FileMetaData Schema) (input : Bytes) : Result (Table Schema Row) :=
  match pq.readTable reader input with
  | some rows => .ok ⟨reader.schema, rows⟩
  | none => .error (.IOError .parquet)

def fileInfoFromDescriptor (root : SubTreeFileSystem) (descriptor : FlightDescriptor) : Result FileInfo :=
  if descriptor.type ≠ .PATH then .error (.Invalid (utf8 "Must provide PATH-type FlightDescriptor"))
  else
    match descriptor.path with
    | [path] => root.getFileInfo path
    | _ => .error (.Invalid (utf8 "Must provide PATH-type FlightDescriptor with one path component"))

def makeFlightInfo (root : SubTreeFileSystem) (fileInfo : FileInfo) : Result (FlightInfo Schema) := do
  let input ← root.openInputFileInfo fileInfo
  let reader ← openParquet pq input
  let descriptor := FlightDescriptor.ofPath [fileInfo.baseName]
  let endpoint : FlightEndpoint := ⟨⟨fileInfo.baseName⟩, [⟨utf8 "localhost", port⟩]⟩
  return ⟨reader.schema, descriptor, [endpoint], reader.numRows, fileInfo.size⟩

/-- The loop of `ListFlights`: what is no file with the extension is passed over, and the first error ends it. -/
def listLoop (root : SubTreeFileSystem) : List FileInfo → List (FlightInfo Schema) → Result (List (FlightInfo Schema))
  | [], flights => .ok flights
  | fileInfo :: listing, flights =>
    if !fileInfo.isFile || fileInfo.extension ≠ utf8 "parquet" then listLoop root listing flights
    else
      match makeFlightInfo pq port root fileInfo with
      | .error e => .error e
      | .ok info => listLoop root listing (flights ++ [info])

def listFlights (root : SubTreeFileSystem) (readdir : Enumeration (Bytes × Node)) : Result (List (FlightInfo Schema)) := do
  let listing ← root.getFileInfoRoot readdir
  listLoop pq port root listing []

def getFlightInfo (root : SubTreeFileSystem) (descriptor : FlightDescriptor) : Result (FlightInfo Schema) := do
  let fileInfo ← fileInfoFromDescriptor root descriptor
  makeFlightInfo pq port root fileInfo

def writeTable (root : SubTreeFileSystem) (sink : Sink) (table : Table Schema Row) (failure : Option WriteFailure) :
    Result Unit × SubTreeFileSystem :=
  match failure with
  | none => (.ok (), (root.write sink (pq.encode table)).2)
  | some f => (.error f.status, (root.write sink f.written).2)

def doPut (root : SubTreeFileSystem) (u : Upload Schema Row) : Result Unit × SubTreeFileSystem :=
  match fileInfoFromDescriptor root u.reader.descriptor with
  | .error e => (.error e, root)
  | .ok fileInfo =>
    match root.openOutputStream fileInfo.path with
    | .error e => (.error e, root)
    | .ok (sink, root) =>
      match u.reader.toTable with
      | .error e => (.error e, root)
      | .ok table => writeTable pq root sink table u.writeFailure

def doGet (root : SubTreeFileSystem) (request : Ticket) : Result (FlightDataStream Schema Row) := do
  let input ← root.openInputFile request.ticket
  let reader ← openParquet pq input
  let table ← readTable pq reader input
  return ⟨table.schema, table.toRecordBatches⟩

def kActionDropDataset : ActionType := ⟨utf8 "drop_dataset", utf8 "Delete a dataset."⟩

def doActionDropDataset (root : SubTreeFileSystem) (key : Bytes) : Result Unit × SubTreeFileSystem :=
  match root.deleteFile key with
  | .error e => (.error e, root)
  | .ok root => (.ok (), root)

def unknownAction (action : Action) : Status := .NotImplemented (utf8 "Unknown action type: " ++ action.type)

def doAction (root : SubTreeFileSystem) (action : Action) : Result Unit × SubTreeFileSystem :=
  if action.type = kActionDropDataset.type then doActionDropDataset root action.body
  else (.error (unknownAction action), root)

/-! ## What the handlers do, path by path -/

section Spec

variable {pq port} {root : SubTreeFileSystem}

/-- The name a descriptor stands for: its path, if it is a PATH of one component. -/
def nameOf (d : FlightDescriptor) : Option Bytes :=
  if d.type = .PATH then
    match d.path with
    | [s] => some s
    | _ => none
  else none

@[simp] theorem nameOf_ofPath (s : Bytes) : nameOf (.ofPath [s]) = some s := rfl

theorem nameOf_eq_some {d : FlightDescriptor} {s : Bytes} : nameOf d = some s ↔ d.type = .PATH ∧ d.path = [s] := by
  obtain ⟨type, cmd, path⟩ := d
  by_cases ht : type = .PATH
  · subst ht
    match path with
    | [] => simp [nameOf]
    | [s'] => simp [nameOf]
    | _ :: _ :: _ => simp [nameOf]
  · simp [nameOf, ht]

variable (root) in
/-- **A descriptor is accepted exactly when it is a PATH of one component.** -/
theorem fileInfoFromDescriptor_of_name {d : FlightDescriptor} {s : Bytes} (h : nameOf d = some s) :
    fileInfoFromDescriptor root d = .ok (.ofNode (Posix.removeLeadingSlash s) (root.nodeAt s)) := by
  obtain ⟨ht, hs⟩ := nameOf_eq_some.1 h
  unfold fileInfoFromDescriptor
  rw [if_neg (by simpa using ht), hs]
  rfl

variable (root) in
theorem fileInfoFromDescriptor_of_none {d : FlightDescriptor} (h : nameOf d = none) :
    ∃ m, fileInfoFromDescriptor root d = .error (.Invalid m) := by
  obtain ⟨type, cmd, path⟩ := d
  by_cases ht : type = .PATH
  · subst ht
    match path with
    | [] => exact ⟨_, rfl⟩
    | [s] => cases h
    | _ :: _ :: _ => exact ⟨_, rfl⟩
  · exact ⟨_, by rw [fileInfoFromDescriptor, if_pos ht]⟩

def mintedInfo (port : Nat) (name : Bytes) (md : FileMetaData Schema) (size : Nat) : FlightInfo Schema :=
  ⟨md.schema, .ofPath [name], [⟨⟨name⟩, [⟨utf8 "localhost", port⟩]⟩], md.numRows, size⟩

/-- An info made of a report on a file reads the file as it is by now, and keeps the size in the report. -/
theorem makeFlightInfo_of_file {s c x : Bytes} (h : root.nodeAt s = some (.file c)) :
    makeFlightInfo pq port root (.ofNode s (some (.file x))) =
      match pq.openFile c with
      | some md => .ok (mintedInfo port (Posix.baseName s) md x.length)
      | none => .error (.IOError .parquet) := by
  have hopen : root.openInputFileInfo (.ofNode s (some (.file x))) = .ok c := SubTreeFileSystem.openInputFile_of_file h
  unfold makeFlightInfo
  rw [hopen]
  cases hc : pq.openFile c with
  | none => simp [openParquet, hc, bind, Except.bind]
  | some md => simp [openParquet, hc, bind, Except.bind, mintedInfo, FileInfo.baseName, FileInfo.ofNode, pure, Except.pure]

/-- **The info of a path describes the file there, under the path's base name.** -/
theorem makeFlightInfo_ofNode (s : Bytes) :
    makeFlightInfo pq port root (.ofNode (Posix.removeLeadingSlash s) (root.nodeAt s)) =
      match root.nodeAt s with
      | some (.file c) =>
        match pq.openFile c with
        | some md => .ok (mintedInfo port (Posix.baseName (Posix.removeLeadingSlash s)) md c.length)
        | none => .error (.IOError .parquet)
      | some .dir => .error (.IOError (.notAFile (Posix.removeLeadingSlash s)))
      | none => .error (.IOError (.pathNotFound (Posix.removeLeadingSlash s))) := by
  rcases h : root.nodeAt s with _ | _ | c
  · rfl
  · rfl
  · exact makeFlightInfo_of_file (by rw [SubTreeFileSystem.nodeAt_removeLeadingSlash, h])

theorem makeFlightInfo_congr {root' : SubTreeFileSystem} {fileInfo : FileInfo}
    (h : root'.nodeAt fileInfo.path = root.nodeAt fileInfo.path) :
    makeFlightInfo pq port root' fileInfo = makeFlightInfo pq port root fileInfo := by
  unfold makeFlightInfo SubTreeFileSystem.openInputFileInfo SubTreeFileSystem.openInputFile
  rw [h]

/-- **Every info that is minted describes a Parquet file**, under the base name and with the size of the report on it. -/
theorem makeFlightInfo_ok {fileInfo : FileInfo} {f : FlightInfo Schema} (h : makeFlightInfo pq port root fileInfo = .ok f) :
    ∃ c md, root.nodeAt fileInfo.path = some (.file c) ∧ pq.openFile c = some md ∧
      f = ⟨md.schema, .ofPath [fileInfo.baseName], [⟨⟨fileInfo.baseName⟩, [⟨utf8 "localhost", port⟩]⟩], md.numRows,
        fileInfo.size⟩ := by
  unfold makeFlightInfo at h
  cases hi : root.openInputFileInfo fileInfo with
  | error e => simp [hi, bind, Except.bind] at h
  | ok c =>
    cases hc : pq.openFile c with
    | none => simp [hi, openParquet, hc, bind, Except.bind] at h
    | some md =>
      simp only [hi, openParquet, hc, bind, Except.bind, pure, Except.pure, Except.ok.injEq] at h
      exact ⟨c, md, SubTreeFileSystem.nodeAt_of_openInputFileInfo hi, hc, h.symm⟩

theorem getFlightInfo_of_name {d : FlightDescriptor} {s : Bytes} (h : nameOf d = some s) :
    getFlightInfo pq port root d =
      makeFlightInfo pq port root (.ofNode (Posix.removeLeadingSlash s) (root.nodeAt s)) := by
  unfold getFlightInfo
  rw [fileInfoFromDescriptor_of_name root h]
  rfl

variable (pq port root) in
theorem getFlightInfo_of_none {d : FlightDescriptor} (h : nameOf d = none) : ∃ e, getFlightInfo pq port root d = .error e := by
  obtain ⟨m, hm⟩ := fileInfoFromDescriptor_of_none root h
  exact ⟨_, by rw [getFlightInfo, hm]; rfl⟩

/-- **The info of a path comes from a file there that opens as Parquet**, and from nothing else. -/
theorem getFlightInfo_ok_iff {d : FlightDescriptor} {s : Bytes} {f : FlightInfo Schema} (h : nameOf d = some s) :
    getFlightInfo pq port root d = .ok f ↔
      ∃ c md, root.nodeAt s = some (.file c) ∧ pq.openFile c = some md ∧
        f = mintedInfo port (Posix.baseName (Posix.removeLeadingSlash s)) md c.length := by
  rw [getFlightInfo_of_name h, makeFlightInfo_ofNode]
  rcases h : root.nodeAt s with _ | _ | c
  · simp
  · simp
  · cases hc : pq.openFile c with
    | none => simp [hc]
    | some md => simp [hc, eq_comm]

def isDataset (fileInfo : FileInfo) : Bool := fileInfo.isFile && fileInfo.extension = utf8 "parquet"

theorem listLoop_cons (fileInfo : FileInfo) (listing : List FileInfo) (flights : List (FlightInfo Schema)) :
    listLoop pq port root (fileInfo :: listing) flights =
      if isDataset fileInfo then
        match makeFlightInfo pq port root fileInfo with
        | .error e => .error e
        | .ok info => listLoop pq port root listing (flights ++ [info])
      else listLoop pq port root listing flights := by
  rw [listLoop, isDataset]
  by_cases h1 : fileInfo.isFile = true <;> by_cases h2 : fileInfo.extension = utf8 "parquet" <;> simp [h1, h2]

/-- **What holds of every info that is minted holds of every flight that is listed.** -/
theorem listLoop_forall {P : FlightInfo Schema → Prop}
    (hP : ∀ fileInfo f, makeFlightInfo pq port root fileInfo = .ok f → P f) :
    ∀ (listing : List FileInfo) {flights fs : List (FlightInfo Schema)}, listLoop pq port root listing flights = .ok fs →
      (∀ f ∈ flights, P f) → ∀ f ∈ fs, P f
  | [], flights, fs, h, hfl => by
    cases h
    exact hfl
  | fileInfo :: listing, flights, fs, h, hfl => by
    rw [listLoop_cons] at h
    split at h
    · cases hi : makeFlightInfo pq port root fileInfo with
      | error e => simp [hi] at h
      | ok info =>
        rw [hi] at h
        refine listLoop_forall hP listing h fun f hf => ?_
        rcases List.mem_append.1 hf with hf | hf
        · exact hfl f hf
        · obtain rfl := List.mem_singleton.1 hf
          exact hP fileInfo f hi
    · exact listLoop_forall hP listing h hfl

theorem listFlights_forall {P : FlightInfo Schema → Prop}
    (hP : ∀ fileInfo f, makeFlightInfo pq port root fileInfo = .ok f → P f)
    {readdir : Enumeration (Bytes × Node)} {fs : List (FlightInfo Schema)} (h : listFlights pq port root readdir = .ok fs) :
    ∀ f ∈ fs, P f := listLoop_forall hP _ h (by simp)

theorem listLoop_congr {root' : SubTreeFileSystem} : ∀ (listing : List FileInfo) (flights : List (FlightInfo Schema)),
    (∀ fileInfo ∈ listing, makeFlightInfo pq port root' fileInfo = makeFlightInfo pq port root fileInfo) →
    listLoop pq port root' listing flights = listLoop pq port root listing flights
  | [], _, _ => rfl
  | fileInfo :: listing, flights, h => by
    have ih := fun flights => listLoop_congr listing flights fun i hi => h i (List.mem_cons_of_mem _ hi)
    rw [listLoop_cons, listLoop_cons, h fileInfo List.mem_cons_self]
    simp only [ih]

variable (pq port root) in
/-- **A listing whose datasets all have an info reports each**, in the listing's order. -/
theorem listLoop_forall₂ {α : Type} (fileInfo : α → FileInfo) {R : α → FlightInfo Schema → Prop} :
    ∀ (l : List α) (flights : List (FlightInfo Schema)),
      (∀ a ∈ l, isDataset (fileInfo a) → ∃ f, makeFlightInfo pq port root (fileInfo a) = .ok f ∧ R a f) →
      ∃ fs, listLoop pq port root (l.map fileInfo) flights = .ok (flights ++ fs) ∧
        List.Forall₂ R (l.filter fun a => isDataset (fileInfo a)) fs
  | [], flights, _ => ⟨[], by simp [listLoop], .nil⟩
  | a :: l, flights, h => by
    have hrest := fun b hb => h b (List.mem_cons_of_mem _ hb)
    rw [List.map_cons, listLoop_cons]
    by_cases hd : isDataset (fileInfo a) = true
    · obtain ⟨f, hf, hR⟩ := h a List.mem_cons_self hd
      obtain ⟨fs, hfs, hRs⟩ := listLoop_forall₂ fileInfo l (flights ++ [f]) hrest
      refine ⟨f :: fs, ?_, ?_⟩
      · simp only [hd, if_true, hf, hfs, List.append_assoc, List.singleton_append]
      · rw [List.filter_cons_of_pos (by exact hd)]
        exact .cons hR hRs
    · obtain ⟨fs, hfs, hRs⟩ := listLoop_forall₂ fileInfo l flights hrest
      refine ⟨fs, ?_, ?_⟩
      · rw [if_neg hd, hfs]
      · rwa [List.filter_cons_of_neg (by exact hd)]

theorem listLoop_map_of_ok {α : Type} {fileInfo : α → FileInfo} {g : α → FlightInfo Schema} (l : List α)
    (flights : List (FlightInfo Schema))
    (h : ∀ a ∈ l, isDataset (fileInfo a) → makeFlightInfo pq port root (fileInfo a) = .ok (g a)) :
    listLoop pq port root (l.map fileInfo) flights =
      .ok (flights ++ (l.filter fun a => isDataset (fileInfo a)).map g) := by
  obtain ⟨fs, hfs, hg⟩ := listLoop_forall₂ pq port root fileInfo (R := fun a f => g a = f) l flights fun a ha hd =>
    ⟨g a, h a ha hd, rfl⟩
  rw [← List.forall₂_map_left_iff (f := g), List.forall₂_eq_eq_eq] at hg
  rw [hfs, hg]

variable (pq) in
/-- **A fetch reads the file its ticket names.** -/
theorem doGet_of_file {s c : Bytes} (h : root.nodeAt s = some (.file c)) :
    (doGet pq root ⟨s⟩).toOption.map FlightDataStream.readAll = pq.readFile c := by
  unfold doGet
  rw [SubTreeFileSystem.openInputFile_of_file h]
  cases hmd : pq.openFile c with
  | none => simp [openParquet, hmd, bind, Except.bind, Parquet.readFile, Except.toOption]
  | some md =>
    cases hr : pq.readTable md c with
    | none => simp [openParquet, readTable, hmd, hr, bind, Except.bind, Parquet.readFile, Except.toOption]
    | some rows =>
      simp [openParquet, readTable, hmd, hr, bind, Except.bind, Parquet.readFile, Except.toOption, pure, Except.pure,
        FlightDataStream.readAll]

variable (pq) in
theorem doGet_of_not_file {s : Bytes} (h : ∀ c, root.nodeAt s ≠ some (.file c)) : ∃ e, doGet pq root ⟨s⟩ = .error e := by
  unfold doGet
  rw [SubTreeFileSystem.openInputFile]
  split
  · exact ⟨_, rfl⟩
  · rcases hs : root.nodeAt s with _ | _ | c
    · exact ⟨_, rfl⟩
    · exact ⟨_, rfl⟩
    · exact absurd hs (h c)

def sinkPath (root : SubTreeFileSystem) (d : FlightDescriptor) : Option NodePath :=
  (nameOf d).bind fun s => root.outputPath (Posix.removeLeadingSlash s)

theorem canHoldFile_of_sinkPath {d : FlightDescriptor} {p : NodePath} (h : sinkPath root d = some p) :
    root.tree.CanHoldFile p := by
  obtain ⟨s, -, hp⟩ := Option.bind_eq_some_iff.1 h
  exact SubTreeFileSystem.canHoldFile_of_outputPath hp

variable (pq) in
theorem doPut_of_sinkPath_none {u : Upload Schema Row} (h : sinkPath root u.reader.descriptor = none) :
    ∃ e, doPut pq root u = (.error e, root) := by
  cases hn : nameOf u.reader.descriptor with
  | none =>
    obtain ⟨m, hm⟩ := fileInfoFromDescriptor_of_none root hn
    exact ⟨_, by rw [doPut, hm]⟩
  | some s =>
    unfold sinkPath at h
    rw [hn] at h
    obtain ⟨e, he⟩ := SubTreeFileSystem.openOutputStream_of_none h
    exact ⟨e, by rw [doPut, fileInfoFromDescriptor_of_name root hn]; simp only [FileInfo.ofNode_path, he]⟩

variable (pq) in
/-- **What an upload that opens a file does to it**: the file holds the table if it completes, and what it left otherwise. -/
theorem doPut_eq_of_sinkPath {u : Upload Schema Row} {p : NodePath} (h : sinkPath root u.reader.descriptor = some p) :
    doPut pq root u = (u.status, root.setFile p (u.leftover.getD (pq.encode u.reader.table))) := by
  obtain ⟨s, hn, hp⟩ := Option.bind_eq_some_iff.1 h
  have hw := SubTreeFileSystem.write_after_open (SubTreeFileSystem.canHoldFile_of_outputPath hp)
  unfold doPut
  rw [fileInfoFromDescriptor_of_name root hn]
  simp only [FileInfo.ofNode_path, SubTreeFileSystem.openOutputStream_of_some hp, FlightMessageReader.toTable,
    Upload.leftover, Upload.status]
  rcases u.reader.failure with _ | e
  · rcases u.writeFailure with _ | f
    · simp [writeTable, hw]
    · simp [writeTable, hw]
  · simp

variable (pq) in
theorem doPut_of_sinkPath {u : Upload Schema Row} {p : NodePath} (h : sinkPath root u.reader.descriptor = some p) :
    (u.leftover = none ∧ doPut pq root u = (.ok (), root.setFile p (pq.encode u.reader.table))) ∨
    (∃ b e, u.leftover = some b ∧ doPut pq root u = (.error e, root.setFile p b)) := by
  rw [doPut_eq_of_sinkPath pq h]
  unfold Upload.leftover Upload.status
  rcases u.reader.failure with _ | e
  · rcases u.writeFailure with _ | f
    · exact .inl ⟨rfl, rfl⟩
    · exact .inr ⟨f.written, f.status, rfl, rfl⟩
  · exact .inr ⟨[], e, rfl, rfl⟩

theorem leftover_eq_none {u : Upload Schema Row} : u.leftover = none ↔ u.Completes := by
  unfold Upload.leftover Upload.Completes
  rcases u.reader.failure with _ | _ <;> simp

theorem sinkPath_of_valid {n : Bytes} {d : FlightDescriptor} (hn : nameOf d = some n) (hv : Posix.ValidName n)
    (hd : root.tree.node (n :: root.base) ≠ some .dir) : sinkPath root d = some (n :: root.base) := by
  unfold sinkPath
  rw [hn, Option.bind_some, Posix.removeLeadingSlash_of_valid hv]
  exact SubTreeFileSystem.outputPath_of_valid hv hd

theorem doAction_of_drop {a : Action} (h : a.type = utf8 "drop_dataset") :
    doAction root a = doActionDropDataset root a.body := if_pos h

theorem doAction_of_unknown {a : Action} (h : a.type ≠ utf8 "drop_dataset") :
    doAction root a = (.error (unknownAction a), root) := if_neg h

variable (root) in
/-- **A drop removes the file its key names**, or fails and changes nothing. -/
theorem doActionDropDataset_cases (key : Bytes) :
    (∃ p c, root.resolve key = .ok p ∧ root.tree.node p = some (.file c) ∧
      doActionDropDataset root key = (.ok (), root.unlink p)) ∨
    ((∀ c, root.nodeAt key ≠ some (.file c)) ∧ ∃ e, doActionDropDataset root key = (.error e, root)) := by
  unfold doActionDropDataset SubTreeFileSystem.deleteFile SubTreeFileSystem.nodeAt
  by_cases hk : key = []
  · subst hk
    refine .inr ⟨fun c hc => ?_, _, rfl⟩
    exact absurd (SubTreeFileSystem.nodeAt_nil root) (by rw [SubTreeFileSystem.nodeAt, hc]; simp)
  · rw [if_neg hk]
    cases hr : root.resolve key with
    | error e => exact .inr ⟨by simp [Except.toOption], _, rfl⟩
    | ok p =>
      rcases hp : root.tree.node p with _ | _ | c
      · exact .inr ⟨by simp [Except.toOption, hp], _, by simp only [hp]; rfl⟩
      · exact .inr ⟨by simp [Except.toOption, hp], _, by simp only [hp]; rfl⟩
      · exact .inl ⟨p, c, rfl, hp, by simp only [hp]⟩

end Spec
end DatasetServer

/-! ## The servers -/

namespace FlightStressTestServer

open Arrow Flight

variable {Schema Row : Type} (pq : Parquet Schema Row) (port : Nat)

abbrev listFlights := DatasetServer.listFlights pq port
abbrev getFlightInfo := DatasetServer.getFlightInfo pq port
abbrev doPut := DatasetServer.doPut pq
abbrev doGet := DatasetServer.doGet pq
abbrev doAction := DatasetServer.doAction
def listActions : List ActionType := [DatasetServer.kActionDropDataset]

end FlightStressTestServer

namespace DistributedFlightDataServer

open Arrow Flight

variable {Schema Row : Type} (pq : Parquet Schema Row) (port : Nat)

abbrev listFlights := DatasetServer.listFlights pq port
abbrev getFlightInfo := DatasetServer.getFlightInfo pq port
abbrev doPut := DatasetServer.doPut pq
abbrev doGet := DatasetServer.doGet pq

def kActionSayHello : ActionType := ⟨Posix.utf8 "say_hello", Posix.utf8 "Say Hello."⟩

/-- The action that `SayHello` sends. -/
def sayHelloAction : Action := ⟨kActionSayHello.type, Posix.utf8 "Hello!"⟩

/-- The data server knows no action: `say_hello` is one it sends. -/
def doAction (root : SubTreeFileSystem) (action : Action) : Result Unit × SubTreeFileSystem :=
  (.error (DatasetServer.unknownAction action), root)

def listActions : List ActionType := []

end DistributedFlightDataServer

namespace BasicDoPutFlightServer

open Arrow Flight

variable {Schema Row : Type} (pq : Parquet Schema Row)

/-- The port is the one the server is started with. -/
abbrev listFlights := DatasetServer.listFlights pq 61234
abbrev doPut := DatasetServer.doPut pq

end BasicDoPutFlightServer
