import FlightPlayground.Interleave
import FlightPlayground.DatasetServer
/-!
# StoreRequests — uploads and reads of `FlightStressTestServer`, step by step

Each request runs on a thread of its own over the one directory: an upload looks its file up, opens and so empties it,
receives its batches, writes its bytes piece by piece at its own offset, and closes; a reader looks up, opens files, with
the size each has by then, and reads footers and rows of what it has open.  A request whose steps are taken one after
another is the handler.  No request here drops a file, so what a reader has open is what is at its path.
-/
namespace FlightStressTestServer

open Posix (Bytes Node NodePath FileTree utf8)
open Unordered (Enumeration)
open Arrow
open Flight
open Interleave
open DatasetServer (fileInfoFromDescriptor openParquet readTable makeFlightInfo isDataset)

/-- How a writer cuts what it writes into pieces. -/
structure Chunking where
  pieces : Bytes → List Bytes
  flatten_pieces : ∀ b, (pieces b).flatten = b

def Chunking.whole : Chunking := ⟨fun b => [b], fun _ => by simp⟩

inductive Task (Schema Row : Type)
  | doPut (u : Upload Schema Row) (cut : Chunking)
  | opening (fileInfo : FileInfo) (u : Upload Schema Row) (cut : Chunking)
  | receiving (sink : Sink) (batches : List (List Row)) (u : Upload Schema Row) (cut : Chunking)
  | writing (sink : Sink) (pieces : List Bytes) (result : Result Unit)
  | closing (result : Result Unit)
  | put (result : Result Unit)
  | getFlightInfo (descriptor : FlightDescriptor)
  | inspecting (fileInfo : FileInfo)
  | inspectingFile (fileInfo : FileInfo) (input : ReadableFile)
  | info (result : Result (FlightInfo Schema))
  | doGet (request : Ticket)
  | fetching (input : ReadableFile)
  | reading (input : ReadableFile) (reader : FileMetaData Schema)
  | stream (result : Result (FlightDataStream Schema Row))
  | listFlights (readdir : Enumeration (Bytes × Node))
  | listing (rest : List FileInfo) (found : List (FlightInfo Schema))
  | listingFile (fileInfo : FileInfo) (input : ReadableFile) (rest : List FileInfo) (found : List (FlightInfo Schema))
  | flights (result : Result (List (FlightInfo Schema)))

variable {Schema Row : Type} (pq : Parquet Schema Row) (port : Nat)

/-- `parquet::arrow::OpenFile` on a file that is open: it looks for the footer at the end of the size the file had, and a
file that has become shorter ends before it. -/
def openFile (input : ReadableFile) (bytes : Bytes) : Result (FileMetaData Schema) :=
  if bytes.length < input.size then .error (.IOError .parquet) else openParquet pq bytes

/-- `MakeFlightInfo` from its open file on. -/
def inspect (fileInfo : FileInfo) (input : ReadableFile) (bytes : Bytes) : Result (FlightInfo Schema) := do
  let reader ← openFile pq input bytes
  let descriptor := FlightDescriptor.ofPath [fileInfo.baseName]
  let endpoint : FlightEndpoint := ⟨⟨fileInfo.baseName⟩, [⟨utf8 "localhost", port⟩]⟩
  return ⟨reader.schema, descriptor, [endpoint], reader.numRows, fileInfo.size⟩

/-- `ListFlights` goes on with an info, and ends at an error. -/
def Task.listed (rest : List FileInfo) (found : List (FlightInfo Schema)) : Result (FlightInfo Schema) → Task Schema Row
  | .error e => .flights (.error e)
  | .ok flight => .listing rest (found ++ [flight])

/-- What an upload writes, if its stream ends, and how its write ends. -/
def Task.ofTable (sink : Sink) (u : Upload Schema Row) (cut : Chunking) (table : Table Schema Row) : Task Schema Row :=
  match u.writeFailure with
  | none => .writing sink (cut.pieces (pq.encode table)) (.ok ())
  | some f => .writing sink (cut.pieces f.written) (.error f.status)

def Task.step (root : SubTreeFileSystem) : Task Schema Row → SubTreeFileSystem × Task Schema Row
  | .doPut u cut =>
    match fileInfoFromDescriptor root u.reader.descriptor with
    | .error e => (root, .put (.error e))
    | .ok fileInfo => (root, .opening fileInfo u cut)
  | .opening fileInfo u cut =>
    match root.openOutputStream fileInfo.path with
    | .error e => (root, .put (.error e))
    | .ok (sink, root) => (root, .receiving sink u.reader.batches u cut)
  | .receiving sink (_ :: batches) u cut => (root, .receiving sink batches u cut)
  | .receiving sink [] u cut =>
    match u.reader.toTable with
    | .error e => (root, .closing (.error e))
    | .ok table => (root, .ofTable pq sink u cut table)
  | .writing sink (piece :: pieces) result => ((root.write sink piece).2, .writing (root.write sink piece).1 pieces result)
  | .writing _ [] result => (root, .closing result)
  | .closing result => (root, .put result)
  | .getFlightInfo descriptor =>
    match fileInfoFromDescriptor root descriptor with
    | .error e => (root, .info (.error e))
    | .ok fileInfo => (root, .inspecting fileInfo)
  | .inspecting fileInfo =>
    match root.openReadableInfo fileInfo with
    | .error e => (root, .info (.error e))
    | .ok input => (root, .inspectingFile fileInfo input)
  | .inspectingFile fileInfo input => (root, .info (inspect pq port fileInfo input (root.bytesOf input)))
  | .doGet request =>
    match root.openReadable request.ticket with
    | .error e => (root, .stream (.error e))
    | .ok input => (root, .fetching input)
  | .fetching input =>
    match openFile pq input (root.bytesOf input) with
    | .error e => (root, .stream (.error e))
    | .ok reader => (root, .reading input reader)
  | .reading input reader =>
    (root, .stream ((readTable pq reader (root.bytesOf input)).bind fun table => .ok ⟨table.schema, table.toRecordBatches⟩))
  | .listFlights readdir =>
    match root.getFileInfoRoot readdir with
    | .error e => (root, .flights (.error e))
    | .ok infos => (root, .listing infos [])
  | .listing [] found => (root, .flights (.ok found))
  | .listing (fileInfo :: rest) found =>
    if !fileInfo.isFile || fileInfo.extension ≠ utf8 "parquet" then (root, .listing rest found)
    else
      match root.openReadableInfo fileInfo with
      | .error e => (root, .flights (.error e))
      | .ok input => (root, .listingFile fileInfo input rest found)
  | .listingFile fileInfo input rest found => (root, .listed rest found (inspect pq port fileInfo input (root.bytesOf input)))
  | .put result => (root, .put result)
  | .info result => (root, .info result)
  | .stream result => (root, .stream result)
  | .flights result => (root, .flights result)

variable {pq port} in
theorem Task.step_listing (root : SubTreeFileSystem) (fileInfo : FileInfo) (rest : List FileInfo)
    (found : List (FlightInfo Schema)) : Task.step pq port root (.listing (fileInfo :: rest) found : Task Schema Row) =
      if isDataset fileInfo then
        match root.openReadableInfo fileInfo with
        | .error e => (root, .flights (.error e))
        | .ok input => (root, .listingFile fileInfo input rest found)
      else (root, .listing rest found) := by
  rw [Task.step, isDataset]
  cases fileInfo.isFile <;> by_cases he : fileInfo.extension = utf8 "parquet" <;> simp [he]

/-- **A file whose size is that of what there is to read opens as its bytes do.** -/
theorem openFile_of_length {input : ReadableFile} {bytes : Bytes} (h : bytes.length = input.size) :
    openFile pq input bytes = openParquet pq bytes := if_neg (by omega)

variable {pq port} in
/-- What comes of an open file: an info of its footer under the entry's base name, with the size in the report on it. -/
theorem inspect_ofNode (s x : Bytes) (input : ReadableFile) (bytes : Bytes) :
    inspect pq port (.ofNode s (some (.file x))) input bytes =
      match openFile pq input bytes with
      | .ok md => .ok (DatasetServer.mintedInfo port (Posix.baseName s) md x.length)
      | .error e => .error e := by
  unfold inspect
  cases openFile pq input bytes <;> rfl

variable {pq port} in
/-- **The info of a file that is read whole** is that of its footer. -/
theorem inspect_whole {n b : Bytes} {md : FileMetaData Schema} (hv : Posix.ValidName n) (hmd : pq.openFile b = some md)
    (x : Bytes) (p : NodePath) :
    inspect pq port (.ofNode n (some (.file x))) ⟨p, b.length⟩ b = .ok (DatasetServer.mintedInfo port n md x.length) := by
  rw [inspect_ofNode, openFile_of_length pq rfl, openParquet, hmd, Posix.baseName_of_valid hv]

variable {pq port} in
theorem descriptor_of_inspect {fileInfo : FileInfo} {input : ReadableFile} {bytes : Bytes} {f : FlightInfo Schema}
    (h : inspect pq port fileInfo input bytes = .ok f) : f.descriptor = .ofPath [fileInfo.baseName] := by
  unfold inspect at h
  cases ho : openFile pq input bytes with
  | error e => simp [ho, bind, Except.bind] at h
  | ok md =>
    simp only [ho, bind, Except.bind, pure, Except.pure, Except.ok.injEq] at h
    rw [← h]

/-- **An info made at once is made of the open file.** -/
theorem makeFlightInfo_eq (root : SubTreeFileSystem) (fileInfo : FileInfo) : makeFlightInfo pq port root fileInfo =
    (root.openReadableInfo fileInfo).bind fun input => inspect pq port fileInfo input (root.bytesOf input) := by
  unfold makeFlightInfo
  rw [root.openInputFileInfo_eq]
  cases h : root.openReadableInfo fileInfo with
  | error e => rfl
  | ok input =>
    have hlen : (root.bytesOf input).length = input.size := SubTreeFileSystem.length_bytesOf_info h
    show (openParquet pq (root.bytesOf input)).bind _ = inspect pq port fileInfo input (root.bytesOf input)
    rw [inspect, openFile_of_length pq hlen]
    rfl

/-- How many steps a reader has still to take, at most, in a directory of `k` entries. -/
def Task.remaining (k : Nat) : Task Schema Row → Nat
  | .getFlightInfo _ => 3
  | .inspecting _ => 2
  | .inspectingFile _ _ => 1
  | .doGet _ => 3
  | .fetching _ => 2
  | .reading _ _ => 1
  | .listFlights _ => 2 * k + 2
  | .listing rest _ => 2 * rest.length + 1
  | .listingFile _ _ rest _ => 2 * rest.length + 2
  | _ => 0

/-- **Every step of a reader is one less to take.** -/
theorem Task.remaining_step {root : SubTreeFileSystem} {k : Nat} (hk : (root.tree.children root.base).card ≤ k)
    (t : Task Schema Row) : (t.step pq port root).2.remaining k ≤ t.remaining k - 1 := by
  cases t with
  | doPut u cut =>
    simp only [Task.step]
    split <;> exact Nat.le_refl 0
  | opening fileInfo u cut =>
    simp only [Task.step]
    split <;> exact Nat.le_refl 0
  | receiving sink batches u cut =>
    cases batches with
    | nil =>
      simp only [Task.step]
      split
      · exact Nat.le_refl 0
      · unfold Task.ofTable
        split <;> exact Nat.le_refl 0
    | cons => exact Nat.le_refl 0
  | writing sink pieces result =>
    cases pieces with
    | nil => exact Nat.le_refl 0
    | cons => exact Nat.le_refl 0
  | getFlightInfo d =>
    simp only [Task.step]
    split <;> simp [Task.remaining]
  | doGet request =>
    simp only [Task.step]
    split <;> simp [Task.remaining]
  | listFlights readdir =>
    have hlen : (readdir.list (root.tree.children root.base)).length ≤ k := by
      rwa [← Multiset.coe_card, readdir.coe_list]
    simp only [Task.step, SubTreeFileSystem.getFileInfoRoot, Task.remaining, List.length_map]
    omega
  | inspecting fileInfo =>
    simp only [Task.step]
    split <;> simp [Task.remaining]
  | fetching input =>
    simp only [Task.step]
    split <;> simp [Task.remaining]
  | listing rest found =>
    cases rest with
    | nil => exact Nat.zero_le _
    | cons fileInfo rest =>
      rw [Task.step_listing]
      split
      · split
        · exact Nat.zero_le _
        · simp only [Task.remaining, List.length_cons]
          omega
      · simp only [Task.remaining, List.length_cons]
        omega
  | listingFile fileInfo input rest found =>
    simp only [Task.step, Task.remaining]
    cases inspect pq port fileInfo input (root.bytesOf input) <;> simp [Task.listed]
  | _ => exact Nat.zero_le _

/-! ## One request on its own -/

section Solo

variable (root : SubTreeFileSystem)

variable {root} in
theorem solo_writing {p : NodePath} (hp : root.tree.CanHoldFile p) (result : Result Unit) : ∀ (pieces : List Bytes) (c : Bytes),
    Pool.solo (Task.step pq port) (pieces.length + 2) (root.setFile p c) (.writing ⟨p, c.length⟩ pieces result) =
      (root.setFile p (c ++ pieces.flatten), .put result)
  | [], c => by simp [Pool.solo, Task.step]
  | piece :: pieces, c => by
    have hn : (root.setFile p c).tree.node p = some (.file c) := by
      rw [SubTreeFileSystem.setFile_tree, FileTree.node_setFile hp, if_pos rfl]
    have hw : (root.setFile p c).write ⟨p, c.length⟩ piece =
        (⟨p, (c ++ piece).length⟩, root.setFile p (c ++ piece)) := by
      rw [SubTreeFileSystem.write_eq hn, SubTreeFileSystem.setFile_setFile, Posix.overlay_at_end, List.length_append]
    rw [List.length_cons, show pieces.length + 1 + 2 = pieces.length + 2 + 1 from rfl, Pool.solo_succ]
    simp only [Task.step, hw]
    rw [solo_writing hp result pieces (c ++ piece), List.flatten_cons, List.append_assoc]

theorem solo_receiving (sink : Sink) (u : Upload Schema Row) (cut : Chunking) : ∀ batches : List (List Row),
    Pool.solo (Task.step pq port) batches.length root (.receiving sink batches u cut) = (root, .receiving sink [] u cut)
  | [] => rfl
  | _ :: batches => by
    rw [List.length_cons, Pool.solo_succ]
    exact solo_receiving sink u cut batches

/-- **An upload served without interruption is `DoPut`**, in whatever pieces it writes. -/
theorem solo_doPut (u : Upload Schema Row) (cut : Chunking) : ∃ n,
    Pool.solo (Task.step pq port) n root (.doPut u cut) =
      ((FlightStressTestServer.doPut pq root u).2, .put (FlightStressTestServer.doPut pq root u).1) := by
  cases hf : fileInfoFromDescriptor root u.reader.descriptor with
  | error e => exact ⟨1, by simp [Pool.solo, Task.step, DatasetServer.doPut, hf]⟩
  | ok fileInfo =>
    cases ho : root.openOutputStream fileInfo.path with
    | error e => exact ⟨2, by simp [Pool.solo, Task.step, DatasetServer.doPut, hf, ho]⟩
    | ok opened =>
      cases hp : root.outputPath fileInfo.path with
      | none =>
        obtain ⟨e, he⟩ := SubTreeFileSystem.openOutputStream_of_none hp
        cases ho.symm.trans he
      | some p =>
        obtain rfl : opened = _ := Except.ok.inj (ho.symm.trans (SubTreeFileSystem.openOutputStream_of_some hp))
        have hhold := SubTreeFileSystem.canHoldFile_of_outputPath hp
        have hreceived : Pool.solo (Task.step pq port) (u.reader.batches.length + 2) root (.doPut u cut) =
            (root.setFile p [], .receiving ⟨p, 0⟩ [] u cut) := by
          rw [Pool.solo_add]
          have htwo : Pool.solo (Task.step pq port) 2 root (.doPut u cut) =
              (root.setFile p [], .receiving ⟨p, 0⟩ u.reader.batches u cut) := by
            simp [Pool.solo, Task.step, hf, ho]
          rw [htwo]
          exact solo_receiving pq port _ _ u cut _
        have hwrite : ∀ (b : Bytes) (result : Result Unit),
            Pool.solo (Task.step pq port) ((cut.pieces b).length + 2) (root.setFile p [])
                (.writing ⟨p, 0⟩ (cut.pieces b) result) =
              (root.setFile p b, .put result) := fun b result => by
          have := solo_writing pq port hhold result (cut.pieces b) []
          rwa [cut.flatten_pieces, List.nil_append] at this
        cases ht : u.reader.toTable with
        | error e =>
          refine ⟨2 + (u.reader.batches.length + 2), ?_⟩
          rw [Pool.solo_add, hreceived]
          simp [Pool.solo, Task.step, DatasetServer.doPut, hf, ho, ht]
        | ok table =>
          have hstep : Task.step pq port (root.setFile p []) (.receiving ⟨p, 0⟩ [] u cut) =
              (root.setFile p [], .ofTable pq ⟨p, 0⟩ u cut table) := by simp [Task.step, ht]
          cases hw : u.writeFailure with
          | none =>
            refine ⟨(cut.pieces (pq.encode table)).length + 2 + 1 + (u.reader.batches.length + 2), ?_⟩
            rw [Pool.solo_add, hreceived]
            rw [Pool.solo_succ, hstep, Task.ofTable, hw, hwrite]
            simp [DatasetServer.doPut, hf, ho, ht, hw, DatasetServer.writeTable, SubTreeFileSystem.write_after_open hhold]
          | some f =>
            refine ⟨(cut.pieces f.written).length + 2 + 1 + (u.reader.batches.length + 2), ?_⟩
            rw [Pool.solo_add, hreceived]
            rw [Pool.solo_succ, hstep, Task.ofTable, hw, hwrite]
            simp [DatasetServer.doPut, hf, ho, ht, hw, DatasetServer.writeTable, SubTreeFileSystem.write_after_open hhold]

theorem solo_inspecting (fileInfo : FileInfo) : ∃ n,
    Pool.solo (Task.step pq port) n root (.inspecting fileInfo) =
      (root, (.info (makeFlightInfo pq port root fileInfo) : Task Schema Row)) := by
  rw [makeFlightInfo_eq]
  cases ho : root.openReadableInfo fileInfo with
  | error e => exact ⟨1, by simp [Pool.solo, Task.step, ho, Except.bind]⟩
  | ok input => exact ⟨2, by simp [Pool.solo, Task.step, ho, Except.bind]⟩

theorem solo_getFlightInfo (d : FlightDescriptor) : ∃ n,
    Pool.solo (Task.step pq port) n root (.getFlightInfo d) =
      (root, .info (FlightStressTestServer.getFlightInfo pq port root d)) := by
  cases hf : fileInfoFromDescriptor root d with
  | error e => exact ⟨1, by simp [Pool.solo, Task.step, DatasetServer.getFlightInfo, hf, bind, Except.bind]⟩
  | ok fileInfo =>
    obtain ⟨n, hn⟩ := solo_inspecting pq port root fileInfo
    refine ⟨n + 1, ?_⟩
    rw [Pool.solo_succ]
    simp only [Task.step, hf, hn, DatasetServer.getFlightInfo, bind, Except.bind]

theorem solo_doGet (t : Ticket) : ∃ n,
    Pool.solo (Task.step pq port) n root (.doGet t) = (root, .stream (FlightStressTestServer.doGet pq root t)) := by
  have hinput := root.openInputFile_eq t.ticket
  cases hi : root.openReadable t.ticket with
  | error e =>
    rw [hi] at hinput
    exact ⟨1, by simp [Pool.solo, Task.step, DatasetServer.doGet, hi, hinput, Except.map, bind, Except.bind]⟩
  | ok input =>
    rw [hi] at hinput
    have hopen := openFile_of_length pq (SubTreeFileSystem.length_bytesOf hi)
    cases ho : openParquet pq (root.bytesOf input) with
    | error e =>
      exact ⟨2, by simp [Pool.solo, Task.step, DatasetServer.doGet, hi, hinput, hopen, ho, Except.map, bind, Except.bind]⟩
    | ok reader =>
      exact ⟨3, by
        simp [Pool.solo, Task.step, DatasetServer.doGet, hi, hinput, hopen, ho, Except.map, bind, Except.bind, pure,
          Except.pure]⟩

theorem solo_listing : ∀ (rest : List FileInfo) (flights : List (FlightInfo Schema)), ∃ n,
    Pool.solo (Task.step pq port) n root (.listing rest flights) =
      (root, (.flights (DatasetServer.listLoop pq port root rest flights) : Task Schema Row))
  | [], flights => ⟨1, rfl⟩
  | fileInfo :: rest, flights => by
    rw [DatasetServer.listLoop_cons, makeFlightInfo_eq]
    by_cases hd : isDataset fileInfo = true
    · have hstep : Task.step pq port root (.listing (fileInfo :: rest) flights : Task Schema Row) = _ :=
        Task.step_listing root fileInfo rest flights
      rw [if_pos hd] at hstep ⊢
      cases ho : root.openReadableInfo fileInfo with
      | error e =>
        rw [ho] at hstep
        exact ⟨1, hstep⟩
      | ok input =>
        rw [ho] at hstep
        have hread : Task.step pq port root (.listingFile fileInfo input rest flights : Task Schema Row) =
            (root, .listed rest flights (inspect pq port fileInfo input (root.bytesOf input))) := rfl
        rw [Except.bind]
        cases hi : inspect pq port fileInfo input (root.bytesOf input) with
        | error e =>
          rw [hi] at hread
          exact ⟨2, by rw [Pool.solo_succ, hstep, Pool.solo_succ, hread]; rfl⟩
        | ok info =>
          rw [hi] at hread
          obtain ⟨n, hn⟩ := solo_listing rest (flights ++ [info])
          exact ⟨n + 2, by rw [Pool.solo_succ, hstep, Pool.solo_succ, hread]; exact hn⟩
    · obtain ⟨n, hn⟩ := solo_listing rest flights
      refine ⟨n + 1, ?_⟩
      rw [Pool.solo_succ, Task.step_listing, if_neg hd, if_neg hd, hn]

theorem solo_listFlights (readdir : Enumeration (Bytes × Node)) : ∃ n,
    Pool.solo (Task.step pq port) n root (.listFlights readdir) =
      (root, .flights (FlightStressTestServer.listFlights pq port root readdir)) := by
  obtain ⟨infos, hinfos⟩ : ∃ infos, root.getFileInfoRoot readdir = .ok infos := ⟨_, rfl⟩
  obtain ⟨n, hn⟩ := solo_listing pq port root infos []
  refine ⟨n + 1, ?_⟩
  have hstep : Task.step pq port root (.listFlights readdir) = (root, .listing infos []) := by simp only [Task.step, hinfos]
  rw [Pool.solo_succ, hstep, hn]
  simp [DatasetServer.listFlights, hinfos, bind, Except.bind]

end Solo

/-! ## Requests -/

/-- The requests that are served in steps here: all but actions. -/
inductive Request (Schema Row : Type)
  | doPut (u : Upload Schema Row) (cut : Chunking)
  | getFlightInfo (descriptor : FlightDescriptor)
  | doGet (request : Ticket)
  | listFlights (readdir : Enumeration (Bytes × Node))

namespace Request

def task : Request Schema Row → Task Schema Row
  | doPut u cut => .doPut u cut
  | getFlightInfo descriptor => .getFlightInfo descriptor
  | doGet request => .doGet request
  | listFlights readdir => .listFlights readdir

/-- The request served without interruption: its answer, and the store it leaves. -/
def serve (root : SubTreeFileSystem) : Request Schema Row → Task Schema Row × SubTreeFileSystem
  | doPut u _ => (.put (FlightStressTestServer.doPut pq root u).1, (FlightStressTestServer.doPut pq root u).2)
  | getFlightInfo descriptor => (.info (FlightStressTestServer.getFlightInfo pq port root descriptor), root)
  | doGet request => (.stream (FlightStressTestServer.doGet pq root request), root)
  | listFlights readdir => (.flights (FlightStressTestServer.listFlights pq port root readdir), root)

/-- The path a request names. -/
def path : Request Schema Row → Option Bytes
  | doPut u _ => DatasetServer.nameOf u.reader.descriptor
  | getFlightInfo descriptor => DatasetServer.nameOf descriptor
  | doGet request => some request.ticket
  | listFlights _ => none

/-- The file a request is for: where its path leads. -/
def target (root : SubTreeFileSystem) (r : Request Schema Row) : Option NodePath :=
  r.path.bind fun s => (root.resolve s).toOption

def IsUpload : Request Schema Row → Prop
  | doPut .. => True
  | _ => False

theorem solo_task (root : SubTreeFileSystem) (r : Request Schema Row) :
    ∃ n, Pool.solo (Task.step pq port) n root r.task = ((r.serve pq port root).2, (r.serve pq port root).1) := by
  cases r with
  | doPut u cut => exact solo_doPut pq port root u cut
  | getFlightInfo d => exact solo_getFlightInfo pq port root d
  | doGet t => exact solo_doGet pq port root t
  | listFlights readdir => exact solo_listFlights pq port root readdir

end Request

/-- A request that has been answered takes no more steps. -/
def Task.Answered : Task Schema Row → Prop
  | .put _ => True
  | .info _ => True
  | .stream _ => True
  | .flights _ => True
  | _ => False

variable {pq port} in
theorem Task.Answered.step_eq {t : Task Schema Row} (h : t.Answered) (fs : SubTreeFileSystem) : t.step pq port fs = (fs, t) := by
  cases t with
  | put => rfl
  | info => rfl
  | stream => rfl
  | flights => rfl
  | _ => exact h.elim

/-! ## What a step writes -/

/-- The next step opens or writes the file at `p`. -/
def Task.WritesTo (root : SubTreeFileSystem) (p : NodePath) : Task Schema Row → Prop
  | .opening fileInfo _ _ => root.resolve fileInfo.path = .ok p
  | .writing sink (_ :: _) _ => sink.path = p
  | _ => False

/-- **A step leaves the store alone, or writes one file.** -/
theorem Task.step_store (fs : SubTreeFileSystem) (t : Task Schema Row) : (t.step pq port fs).1 = fs ∨
    ∃ p c, t.WritesTo fs p ∧ (t.step pq port fs).1 = fs.setFile p c := by
  cases t with
  | doPut u cut =>
    simp only [Task.step]
    split <;> exact .inl rfl
  | opening fileInfo u cut =>
    cases hp : fs.outputPath fileInfo.path with
    | none =>
      obtain ⟨e, he⟩ := SubTreeFileSystem.openOutputStream_of_none hp
      simp only [Task.step, he]
      exact .inl trivial
    | some p =>
      refine .inr ⟨p, [], (SubTreeFileSystem.outputPath_eq_some.1 hp).2.1, ?_⟩
      simp only [Task.step, SubTreeFileSystem.openOutputStream_of_some hp]
  | receiving sink batches u cut =>
    cases batches with
    | nil =>
      simp only [Task.step]
      split <;> exact .inl rfl
    | cons => exact .inl rfl
  | writing sink pieces result =>
    cases pieces with
    | nil => exact .inl rfl
    | cons piece pieces =>
      obtain ⟨p, pos⟩ := sink
      rcases hx : fs.tree.node p with _ | _ | c
      · exact .inl (by simp [Task.step, SubTreeFileSystem.write, hx])
      · exact .inl (by simp [Task.step, SubTreeFileSystem.write, hx])
      · exact .inr ⟨p, _, rfl, by rw [Task.step, SubTreeFileSystem.write_eq hx]⟩
  | getFlightInfo d =>
    simp only [Task.step]
    split <;> exact .inl rfl
  | inspecting fileInfo =>
    simp only [Task.step]
    split <;> exact .inl rfl
  | doGet request =>
    simp only [Task.step]
    split <;> exact .inl rfl
  | fetching input =>
    simp only [Task.step]
    split <;> exact .inl rfl
  | listFlights readdir => exact .inl rfl
  | listing rest found =>
    cases rest with
    | nil => exact .inl rfl
    | cons fileInfo rest =>
      simp only [Task.step]
      split
      · exact .inl rfl
      · split <;> exact .inl rfl
  | _ => exact .inl rfl

variable {pq port} in
theorem Task.sameDirs_step {root fs : SubTreeFileSystem} (h : root.SameDirs fs) (t : Task Schema Row) :
    root.SameDirs (t.step pq port fs).1 := by
  rcases Task.step_store pq port fs t with ht | ⟨p, c, -, ht⟩
  · rwa [ht]
  · rw [ht]
    exact h.setFile p c

variable {pq port} in
theorem Task.node_step {fs : SubTreeFileSystem} {p : NodePath} {t : Task Schema Row} (h : ¬ t.WritesTo fs p) :
    (t.step pq port fs).1.tree.node p = fs.tree.node p := by
  rcases Task.step_store pq port fs t with ht | ⟨q, c, hq, ht⟩
  · rw [ht]
  · rw [ht, SubTreeFileSystem.setFile_tree, FileTree.node_setFile_of_ne]
    rintro rfl
    exact h hq

/-! ## An upload among other requests -/

def uploadBytes (u : Upload Schema Row) : Bytes :=
  match u.writeFailure with
  | none => pq.encode u.reader.table
  | some f => f.written

/-- Where the upload `u` to the path `s` can stand, in a store with the directories of `root`: the file it has open is the
one the path opens, and what it has still to write is the rest of its bytes. -/
def PutAt (root : SubTreeFileSystem) (s : Bytes) (u : Upload Schema Row) : Task Schema Row → Prop
  | .doPut u' _ => u' = u
  | .opening fileInfo u' _ => u' = u ∧ fileInfo.path = s
  | .receiving sink _ u' _ => u' = u ∧ root.outputPath s = some sink.path ∧ sink.pos = 0
  | .writing sink pieces result => root.outputPath s = some sink.path ∧ sink.pos ≤ (uploadBytes pq u).length ∧
      pieces.flatten = (uploadBytes pq u).drop sink.pos ∧ u.reader.failure = none ∧ (result = .ok () → u.Completes)
  | .closing result => result = .ok () → u.Completes ∧ (root.outputPath s).isSome
  | .put result => result = .ok () → u.Completes ∧ (root.outputPath s).isSome
  | _ => False

def Task.Opened : Task Schema Row → Prop
  | .doPut .. => False
  | .opening .. => False
  | _ => True

/-- It has bytes to write. -/
def Task.Unwritten : Task Schema Row → Prop
  | .receiving .. => True
  | .writing _ pieces _ => pieces.flatten ≠ []
  | _ => False

def Task.written (bytes : Bytes) : Task Schema Row → Nat
  | .receiving .. => 0
  | .writing sink _ _ => sink.pos
  | _ => bytes.length

/-- Its next step opens, and so empties, its file. -/
def Task.Opens (root : SubTreeFileSystem) : Task Schema Row → Prop
  | .opening fileInfo _ _ => (root.outputPath fileInfo.path).isSome
  | _ => False

/-- What a step of an upload does to the store: nothing, or it opens its file, or it writes a piece of its bytes where
that piece belongs. -/
inductive PutStep (root fs : SubTreeFileSystem) (s : Bytes) (u : Upload Schema Row) (t : Task Schema Row) :
    SubTreeFileSystem × Task Schema Row → Prop
  | idle {t'} (hopens : ¬ t.Opens fs) (hunwritten : t'.Unwritten → t.Unwritten) (hopened : t.Opened → t'.Opened)
      (hfirst : t'.Opened → t.Opened ∨ root.outputPath s = none)
      (hwritten : t.Opened → u.Completes → t'.written (uploadBytes pq u) = t.written (uploadBytes pq u)) :
      PutStep root fs s u t (fs, t')
  | opens {p t'} (hp : root.outputPath s = some p) (hopens : t.Opens fs) (hopened : t'.Opened)
      (hwritten : t'.written (uploadBytes pq u) = 0) : PutStep root fs s u t (fs.setFile p [], t')
  | writes {p pos piece t'} (hp : root.outputPath s = some p) (hopens : ¬ t.Opens fs) (hopened : t.Opened) (hopened' : t'.Opened)
      (hunwritten : t'.Unwritten → t.Unwritten) (hpiece : piece ≠ [] → t.Unwritten)
      (hpos : t.written (uploadBytes pq u) = pos) (hwritten : t'.written (uploadBytes pq u) = pos + piece.length)
      (hlen : pos + piece.length ≤ (uploadBytes pq u).length)
      (hdrop : piece = ((uploadBytes pq u).drop pos).take piece.length) :
      PutStep root fs s u t ((fs.write ⟨p, pos⟩ piece).2, t')

variable {pq}

variable (pq) in
theorem ofTable_eq (sink : Sink) (u : Upload Schema Row) (cut : Chunking) : ∃ result,
    Task.ofTable pq sink u cut u.reader.table = .writing sink (cut.pieces (uploadBytes pq u)) result ∧
      (result = .ok () → u.writeFailure = none) := by
  unfold Task.ofTable uploadBytes
  cases u.writeFailure with
  | none => exact ⟨.ok (), rfl, fun _ => rfl⟩
  | some f => exact ⟨.error f.status, rfl, fun h => by cases h⟩

/-- **Every step of an upload is one of these, and leaves it where it can stand.** -/
theorem PutAt.step {root fs : SubTreeFileSystem} {s : Bytes} {u : Upload Schema Row}
    (hname : DatasetServer.nameOf u.reader.descriptor = some s) {t : Task Schema Row}
    (hfs : root.SameDirs fs) (ht : PutAt pq root (Posix.removeLeadingSlash s) u t) :
    PutAt pq root (Posix.removeLeadingSlash s) u (t.step pq port fs).2 ∧
      PutStep pq root fs (Posix.removeLeadingSlash s) u t (t.step pq port fs) := by
  cases t with
  | doPut u' cut =>
    obtain rfl := ht
    have hf := DatasetServer.fileInfoFromDescriptor_of_name fs hname
    simp only [Task.step, hf]
    exact ⟨⟨rfl, FileInfo.ofNode_path _ _⟩, .idle (by simp [Task.Opens]) id (by simp [Task.Opened]) (by simp [Task.Opened])
      (by simp [Task.Opened])⟩
  | opening fileInfo u' cut =>
    obtain ⟨rfl, hpath⟩ := ht
    cases hp : root.outputPath (Posix.removeLeadingSlash s) with
    | none =>
      obtain ⟨e, he⟩ := SubTreeFileSystem.openOutputStream_of_none ((hfs.outputPath _).trans hp)
      simp only [Task.step, hpath, he]
      refine ⟨by simp [PutAt], .idle ?_ (by simp [Task.Unwritten]) (by simp [Task.Opened]) (fun _ => .inr hp)
        (by simp [Task.Opened])⟩
      simp [Task.Opens, hpath, hfs.outputPath, hp]
    | some p =>
      have ho := SubTreeFileSystem.openOutputStream_of_some ((hfs.outputPath _).trans hp)
      simp only [Task.step, hpath, ho]
      refine ⟨⟨rfl, hp, rfl⟩, .opens hp ?_ trivial rfl⟩
      simp [Task.Opens, hpath, hfs.outputPath, hp]
  | receiving sink batches u' cut =>
    obtain ⟨rfl, hp, hpos⟩ := ht
    cases batches with
    | cons batch batches =>
      exact ⟨⟨rfl, hp, hpos⟩, .idle (by simp [Task.Opens]) id id .inl fun _ _ => rfl⟩
    | nil =>
      cases hf : u'.reader.failure with
      | some e =>
        have ht : u'.reader.toTable = .error e := by simp [FlightMessageReader.toTable, hf]
        simp only [Task.step, ht]
        refine ⟨by simp [PutAt], .idle (by simp [Task.Opens]) (by simp [Task.Unwritten]) id .inl fun _ hu => ?_⟩
        cases hf.symm.trans hu.1
      | none =>
        have ht : u'.reader.toTable = .ok u'.reader.table := by simp [FlightMessageReader.toTable, hf]
        obtain ⟨result, hres, hok⟩ := ofTable_eq pq sink u' cut
        simp only [Task.step, ht, hres]
        refine ⟨⟨hp, by simp [hpos], by rw [cut.flatten_pieces, hpos, List.drop_zero], hf, fun h => ⟨hf, hok h⟩⟩,
          .idle (by simp [Task.Opens]) (fun _ => trivial) id .inl fun _ _ => hpos⟩
  | writing sink pieces result =>
    obtain ⟨p, pos⟩ := sink
    obtain ⟨hp, hpos, hrest, hf, hok⟩ := ht
    simp only at hp hpos hrest
    cases pieces with
    | nil =>
      refine ⟨fun h => ⟨hok h, by simp [hp]⟩, .idle (by simp [Task.Opens]) (by simp [Task.Unwritten]) id .inl fun _ _ => ?_⟩
      have := List.drop_eq_nil_iff.1 hrest.symm
      exact Nat.le_antisymm this hpos
    | cons piece pieces =>
      rw [List.flatten_cons] at hrest
      have hlen : pos + piece.length ≤ (uploadBytes pq u).length := by
        have := congrArg List.length hrest
        simp only [List.length_append, List.length_drop] at this
        omega
      have hpiece : piece = ((uploadBytes pq u).drop pos).take piece.length := by rw [← hrest, List.take_left]
      have htail : pieces.flatten = (uploadBytes pq u).drop (pos + piece.length) := by
        rw [← List.drop_drop, ← hrest, List.drop_left]
      refine ⟨⟨hp, hlen, htail, hf, hok⟩, .writes hp (by simp [Task.Opens]) trivial trivial ?_ ?_ rfl rfl hlen hpiece⟩
      · intro h hnil
        exact h (List.append_eq_nil_iff.1 hnil).2
      · intro h hnil
        exact h (List.append_eq_nil_iff.1 hnil).1
  | closing result => exact ⟨ht, .idle (by simp [Task.Opens]) id id .inl fun _ _ => rfl⟩
  | put result => exact ⟨ht, .idle (by simp [Task.Opens]) id id .inl fun _ _ => rfl⟩
  | getFlightInfo _ => exact ht.elim
  | inspecting _ => exact ht.elim
  | inspectingFile _ _ => exact ht.elim
  | info _ => exact ht.elim
  | doGet _ => exact ht.elim
  | fetching _ => exact ht.elim
  | reading _ _ => exact ht.elim
  | stream _ => exact ht.elim
  | listFlights _ => exact ht.elim
  | listing _ _ => exact ht.elim
  | listingFile _ _ _ _ => exact ht.elim
  | flights _ => exact ht.elim

theorem PutStep.sameDirs {root fs : SubTreeFileSystem} {s : Bytes} {u : Upload Schema Row} {t : Task Schema Row}
    {r : SubTreeFileSystem × Task Schema Row} (h : PutStep pq root fs s u t r) (hfs : root.SameDirs fs) :
    root.SameDirs r.1 := by
  cases h with
  | idle => exact hfs
  | opens => exact hfs.setFile _ _
  | writes => exact hfs.write _ _

theorem PutAt.written_le {root : SubTreeFileSystem} {s : Bytes} {u : Upload Schema Row} {t : Task Schema Row}
    (h : PutAt pq root s u t) : t.written (uploadBytes pq u) ≤ (uploadBytes pq u).length := by
  cases t with
  | writing sink pieces result => exact h.2.1
  | receiving => exact Nat.zero_le _
  | _ => exact le_rfl

theorem PutAt.length_le_written {root : SubTreeFileSystem} {s : Bytes} {u : Upload Schema Row} {t : Task Schema Row}
    (h : PutAt pq root s u t) (hun : ¬ t.Unwritten) : (uploadBytes pq u).length ≤ t.written (uploadBytes pq u) := by
  cases t with
  | writing sink pieces result =>
    have hnil : pieces.flatten = [] := by simpa only [Task.Unwritten, not_not] using hun
    have hrest := h.2.2.1
    rw [hnil] at hrest
    exact List.drop_eq_nil_iff.1 hrest.symm
  | receiving => exact absurd trivial hun
  | _ => exact le_rfl

theorem PutAt.written_lt {root : SubTreeFileSystem} {s : Bytes} {u : Upload Schema Row} {t : Task Schema Row}
    (h : PutAt pq root s u t) (hun : t.Unwritten) (hne : uploadBytes pq u ≠ []) :
    t.written (uploadBytes pq u) < (uploadBytes pq u).length := by
  cases t with
  | writing sink pieces result =>
    refine Nat.lt_of_not_le fun hle => hun ?_
    rw [h.2.2.1]
    exact List.drop_eq_nil_iff.2 hle
  | receiving => exact List.length_pos_iff.2 hne
  | _ => exact hun.elim

theorem uploadBytes_of_completes {u : Upload Schema Row} (h : u.Completes) : uploadBytes pq u = pq.encode u.reader.table := by
  simp [uploadBytes, h.2]

variable (pq) in
/-- What an upload leaves in the file it has opened, when it ends. -/
def leaves (u : Upload Schema Row) : Bytes := u.leftover.getD (pq.encode u.reader.table)

theorem leaves_of_completes {u : Upload Schema Row} (h : u.Completes) : leaves pq u = pq.encode u.reader.table := by
  simp [leaves, Upload.leftover, h.1, h.2]

theorem leaves_of_received {u : Upload Schema Row} (h : u.reader.failure = none) : leaves pq u = uploadBytes pq u := by
  unfold leaves Upload.leftover uploadBytes
  rw [h]
  cases u.writeFailure <;> rfl

variable (pq) in
/-- Where the upload `u` to the path `s` can stand that alone writes its file `p`, and what the file holds by then: what it
held before until it is opened, and then what has been written. -/
def UploadAt (s : Bytes) (p : NodePath) (u : Upload Schema Row) (before held : Option Node) : Task Schema Row → Prop
  | .doPut u' _ => u' = u ∧ held = before
  | .opening fileInfo u' _ => u' = u ∧ fileInfo.path = s ∧ held = before
  | .receiving sink _ u' _ => u' = u ∧ sink = ⟨p, 0⟩ ∧ held = some (.file [])
  | .writing sink pieces result => sink.path = p ∧ result = u.status ∧ u.reader.failure = none ∧
      ∃ done, done ++ pieces.flatten = uploadBytes pq u ∧ sink.pos = done.length ∧ held = some (.file done)
  | .closing result => result = u.status ∧ held = some (.file (leaves pq u))
  | .put result => result = u.status ∧ held = some (.file (leaves pq u))
  | _ => False

/-- **A step of an upload that alone writes its file.** -/
theorem UploadAt.step {root fs : SubTreeFileSystem} {s : Bytes} {p : NodePath} {u : Upload Schema Row} {before : Option Node}
    (hname : DatasetServer.nameOf u.reader.descriptor = some s) (hfs : root.SameDirs fs)
    (hp : root.outputPath (Posix.removeLeadingSlash s) = some p) {t : Task Schema Row}
    (h : UploadAt pq (Posix.removeLeadingSlash s) p u before (fs.tree.node p) t) :
    UploadAt pq (Posix.removeLeadingSlash s) p u before ((t.step pq port fs).1.tree.node p) (t.step pq port fs).2 := by
  have hp' := (hfs.outputPath _).trans hp
  have hhold := SubTreeFileSystem.canHoldFile_of_outputPath hp'
  cases t with
  | doPut u' cut =>
    obtain ⟨rfl, hheld⟩ := h
    have hf := DatasetServer.fileInfoFromDescriptor_of_name fs hname
    simp only [Task.step, hf]
    exact ⟨rfl, FileInfo.ofNode_path _ _, hheld⟩
  | opening fileInfo u' cut =>
    obtain ⟨rfl, hpath, -⟩ := h
    simp only [Task.step, hpath, SubTreeFileSystem.openOutputStream_of_some hp', SubTreeFileSystem.setFile_tree]
    exact ⟨rfl, rfl, by rw [FileTree.node_setFile hhold, if_pos rfl]⟩
  | receiving sink batches u' cut =>
    obtain ⟨rfl, rfl, hheld⟩ := h
    cases batches with
    | cons batch batches => exact ⟨rfl, rfl, hheld⟩
    | nil =>
      cases hf : u'.reader.failure with
      | some e =>
        have ht : u'.reader.toTable = .error e := by simp [FlightMessageReader.toTable, hf]
        have hleaves : leaves pq u' = [] := by simp [leaves, Upload.leftover, hf]
        simp only [Task.step, ht]
        exact ⟨by simp [Upload.status, hf], by rw [hheld, hleaves]⟩
      | none =>
        have ht : u'.reader.toTable = .ok u'.reader.table := by simp [FlightMessageReader.toTable, hf]
        simp only [Task.step, ht, Task.ofTable]
        cases hw : u'.writeFailure with
        | none =>
          exact ⟨rfl, by simp [Upload.status, hf, hw], hf, [], by simp [uploadBytes, hw, cut.flatten_pieces], rfl, hheld⟩
        | some f =>
          exact ⟨rfl, by simp [Upload.status, hf, hw], hf, [], by simp [uploadBytes, hw, cut.flatten_pieces], rfl, hheld⟩
  | writing sink pieces result =>
    obtain ⟨q, pos⟩ := sink
    obtain ⟨hq, hresult, hf, done, hbytes, hpos, hheld⟩ := h
    simp only at hq hpos
    subst hq hpos
    cases pieces with
    | nil =>
      rw [List.flatten_nil, List.append_nil] at hbytes
      exact ⟨hresult, by rw [leaves_of_received hf, ← hbytes]; exact hheld⟩
    | cons piece pieces =>
      have hwrite := SubTreeFileSystem.write_eq hheld done.length piece
      rw [Posix.overlay_at_end] at hwrite
      simp only [Task.step, hwrite, SubTreeFileSystem.setFile_tree]
      refine ⟨rfl, hresult, hf, done ++ piece, by rw [← hbytes]; simp, by simp, ?_⟩
      rw [FileTree.node_setFile (FileTree.canHoldFile_of_file hheld), if_pos rfl]
  | closing result => exact h
  | put result => exact h
  | _ => exact h.elim

theorem UploadAt.writesTo {root fs : SubTreeFileSystem} {s : Bytes} {p : NodePath} {u : Upload Schema Row}
    {before held : Option Node} (hfs : root.SameDirs fs) (hp : root.resolve s = .ok p) {t : Task Schema Row}
    (h : UploadAt pq s p u before held t) {q : NodePath} (hw : t.WritesTo fs q) : q = p := by
  cases t with
  | opening fileInfo u' cut =>
    have hr : fs.resolve fileInfo.path = .ok q := hw
    rw [h.2.1, hfs.resolve_ok.2 hp] at hr
    exact (Except.ok.inj hr).symm
  | writing sink pieces result =>
    cases pieces with
    | nil => exact hw.elim
    | cons piece pieces => exact hw.symm.trans h.1
  | _ => exact hw.elim

variable (pq) in
/-- How many steps a request has still to take, at most, in a directory of `k` entries. -/
def Task.steps (k : Nat) : Task Schema Row → Nat
  | .doPut u cut => u.reader.batches.length + (cut.pieces (uploadBytes pq u)).length + 5
  | .opening _ u cut => u.reader.batches.length + (cut.pieces (uploadBytes pq u)).length + 4
  | .receiving _ batches u cut => batches.length + (cut.pieces (uploadBytes pq u)).length + 3
  | .writing _ pieces _ => pieces.length + 2
  | .closing _ => 1
  | t => t.remaining k

/-- **Every step of a request that is not answered yet is one less to take.** -/
theorem Task.steps_step {root : SubTreeFileSystem} {k : Nat} {t : Task Schema Row}
    (hk : ∀ readdir, t = .listFlights readdir → (root.tree.children root.base).card ≤ k) (h : ¬ t.Answered) :
    (t.step pq port root).2.steps pq k < t.steps pq k := by
  cases t with
  | doPut u cut =>
    simp only [Task.step]
    split <;> simp [Task.steps, Task.remaining]
  | opening fileInfo u cut =>
    simp only [Task.step]
    split <;> simp [Task.steps, Task.remaining]
  | receiving sink batches u cut =>
    cases batches with
    | cons batch batches => simp [Task.step, Task.steps]
    | nil =>
      cases hf : u.reader.failure with
      | some e =>
        have ht : u.reader.toTable = .error e := by simp [FlightMessageReader.toTable, hf]
        simp [Task.step, ht, Task.steps]
      | none =>
        have ht : u.reader.toTable = .ok u.reader.table := by simp [FlightMessageReader.toTable, hf]
        obtain ⟨result, hres, -⟩ := ofTable_eq pq sink u cut
        simp [Task.step, ht, hres, Task.steps]
  | writing sink pieces result => cases pieces <;> simp [Task.step, Task.steps]
  | closing result => exact Nat.zero_lt_one
  | getFlightInfo d =>
    simp only [Task.step]
    split <;> simp [Task.steps, Task.remaining]
  | inspecting fileInfo =>
    simp only [Task.step]
    split <;> simp [Task.steps, Task.remaining]
  | inspectingFile fileInfo input => exact Nat.zero_lt_one
  | doGet request =>
    simp only [Task.step]
    split <;> simp [Task.steps, Task.remaining]
  | fetching input =>
    simp only [Task.step]
    split <;> simp [Task.steps, Task.remaining]
  | reading input reader => exact Nat.zero_lt_one
  | listFlights readdir =>
    have hlen : (readdir.list (root.tree.children root.base)).length ≤ k := by
      rw [← Multiset.coe_card, readdir.coe_list]
      exact hk readdir rfl
    simp only [Task.step, SubTreeFileSystem.getFileInfoRoot, Task.steps, Task.remaining, List.length_map]
    omega
  | listing rest found =>
    cases rest with
    | nil => exact Nat.zero_lt_one
    | cons fileInfo rest =>
      rw [Task.step_listing]
      split
      · split
        · exact Nat.succ_pos _
        · simp only [Task.steps, Task.remaining, List.length_cons]
          omega
      · simp [Task.steps, Task.remaining]
  | listingFile fileInfo input rest found =>
    simp only [Task.step]
    cases inspect pq port fileInfo input (root.bytesOf input) <;> simp [Task.listed, Task.steps, Task.remaining]
  | _ => exact absurd trivial h

end FlightStressTestServer
