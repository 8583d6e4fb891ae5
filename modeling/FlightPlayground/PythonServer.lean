import FlightPlayground.Pathlib
import FlightPlayground.Flight
/-!
# PythonServer — the `FlightServer` of `headers_call_options`

A name comes as bytes, is decoded, and is joined to the repository's path for pyarrow or pathlib to open.  A handler
that raises returns what it raised, and every handler that writes returns the disk it leaves.
-/
namespace Arrow

open Posix (Bytes NodePath FileTree)

/-- What pyarrow adds: its own writer, the size of a footer, and the reading of a directory as one dataset. -/
structure PyArrow (Schema Row : Type) extends Parquet Schema Row where
  writeTable : Table Schema Row → Bytes
  serializedSize : FileMetaData Schema → Nat
  readDataset : FileTree → NodePath → Option (Table Schema Row)
  holds_writeTable : ∀ t, ∃ f, toParquet.Holds (writeTable t) f ∧ f.table = t
  serializedSize_lt : ∀ b md, openFile b = some md → serializedSize md < b.length
  readDataset_congr : ∀ t t' d, (∀ p, d <:+ p → t'.node p = t.node p) → readDataset t' d = readDataset t d

namespace PyArrow

variable {Schema Row : Type} (pq : PyArrow Schema Row)

theorem readFile_writeTable (t : Table Schema Row) : pq.readFile (pq.writeTable t) = some t := by
  obtain ⟨f, hf, rfl⟩ := pq.holds_writeTable t
  exact hf.readFile

/-- **What was written opens**, with the table's schema and as many rows. -/
theorem openFile_writeTable (t : Table Schema Row) :
    ∃ md, pq.openFile (pq.writeTable t) = some md ∧ md.schema = t.schema ∧ md.numRows = t.rows.length := by
  obtain ⟨f, ⟨footer, ho, -⟩, rfl⟩ := pq.holds_writeTable t
  exact ⟨_, ho, rfl, List.length_flatten.symm⟩

end PyArrow

/-- The tiny format, with one byte around its footer and no dataset of more than one file. -/
def tinyPyArrow : PyArrow Unit UInt8 where
  toParquet := tinyParquet
  writeTable := tinyParquet.encode
  serializedSize md := md.footer.length - 1
  readDataset _ _ := none
  holds_writeTable t := ⟨_, tinyParquet.holds_serialize _, table_writeTable (by decide) t⟩
  serializedSize_lt b md h := by
    cases b with
    | nil => cases h
    | cons x b =>
      obtain ⟨gs, -, rfl⟩ := Option.map_eq_some_iff.1 h
      simp
  readDataset_congr _ _ _ _ := rfl

end Arrow

namespace Python

open Posix (Bytes Node NodePath Errno)
open Unordered (Enumeration)
open Pathlib (IsUtf8 Path Disk OSError)
open Arrow
open Flight

inductive Raised
  | TypeError
  | IndexError
  | UnicodeDecodeError
  | UnicodeEncodeError
  | NotImplementedError
  | ArrowInvalid
  | ArrowException (status : Status)
  | OSError (e : OSError)
  deriving DecidableEq

/-! ## What the handlers call -/

/-- `descriptor.path[0]`; only a PATH descriptor has a path. -/
def path0 (descriptor : FlightDescriptor) : Except Raised Bytes :=
  if descriptor.type ≠ .PATH then .error .TypeError
  else
    match descriptor.path with
    | [] => .error .IndexError
    | c :: _ => .ok c

/-- `.decode('utf-8')`. -/
def decode (b : Bytes) : Except Raised Bytes := if IsUtf8 b then .ok b else .error .UnicodeDecodeError

/-- `.encode('utf-8')`; the name of a directory entry need not encode. -/
def encode (s : Bytes) : Except Raised Bytes := if IsUtf8 s then .ok s else .error .UnicodeEncodeError

def errno (e : Errno) : Raised := .OSError (.errno e)

def lookup (disk : Disk) (path : Path) : Except Raised NodePath :=
  match disk.lookup path with
  | .ok p => .ok p
  | .error e => .error (.OSError e)

def iterdir (disk : Disk) (path : Path) (listdir : Enumeration (Bytes × Node)) : Except Raised (List Bytes) := do
  let p ← lookup disk path
  match disk.tree.node p with
  | some .dir => .ok ((listdir.list (disk.tree.children p)).map Prod.fst)
  | some (.file _) => .error (errno .ENOTDIR)
  | none => .error (errno .ENOENT)

def unlink (disk : Disk) (path : Path) : Except Raised Unit × Disk :=
  match lookup disk path with
  | .error e => (.error e, disk)
  | .ok p =>
    match disk.tree.node p with
    | some (.file _) => (.ok (), disk.unlink p)
    | some .dir => (.error (errno .EISDIR), disk)
    | none => (.error (errno .ENOENT), disk)

section PyArrow

variable {Schema Row : Type} (pq : PyArrow Schema Row)

/-- pyarrow raises for what is no Parquet file. -/
def orInvalid {α : Type} : Option α → Except Raised α
  | some a => .ok a
  | none => .error .ArrowInvalid

def openInputFile : Option Node → Except Raised Bytes
  | some (.file c) => .ok c
  | some .dir => .error (errno .EISDIR)
  | none => .error (errno .ENOENT)

def readMetadata (disk : Disk) (path : Path) : Except Raised (FileMetaData Schema) := do
  let p ← lookup disk path
  let c ← openInputFile (disk.tree.node p)
  orInvalid (pq.openFile c)

def readSchema (disk : Disk) (path : Path) : Except Raised Schema := do
  let metadata ← readMetadata pq disk path
  return metadata.schema

/-- A directory is read as the dataset of the files in it. -/
def readTable (disk : Disk) (path : Path) : Except Raised (Table Schema Row) := do
  let p ← lookup disk path
  if disk.tree.node p = some .dir then orInvalid (pq.readDataset disk.tree p)
  else
    let c ← openInputFile (disk.tree.node p)
    orInvalid (pq.readFile c)

/-- A write that raises once the file is open, and what is left of the file. -/
structure WriteTableFailure where
  status : Status
  left : Option Bytes

def writeTable (disk : Disk) (table : Table Schema Row) (path : Path) (failure : Option WriteTableFailure) :
    Except Raised Unit × Disk :=
  match lookup disk path with
  | .error e => (.error e, disk)
  | .ok p =>
    if disk.tree.node p = some .dir then (.error (errno .EISDIR), disk)
    else
      match failure with
      | none => (.ok (), disk.setFile p (pq.writeTable table))
      | some f => (.error (.ArrowException f.status), disk.leave p f.left)

end PyArrow
end Python

/-! ## The server -/

open Pathlib (Path) in
structure FlightServer where
  location : Flight.Location
  repo : Path

namespace FlightServer

open Posix (Bytes Node NodePath utf8)
open Unordered (Enumeration)
open Pathlib (IsUtf8 Disk)
open Arrow hiding writeTable
open Flight
open Python

/-- The server that `server.py` starts: `grpc://0.0.0.0:8815` and `./datasets`. -/
def main : FlightServer := ⟨⟨utf8 "0.0.0.0", 8815⟩, Pathlib.parse (utf8 "./datasets")⟩

variable {Schema Row : Type} (pq : PyArrow Schema Row) (self : FlightServer)

def makeFlightInfo (disk : Disk) (dataset : Bytes) : Except Raised (FlightInfo Schema) := do
  let datasetPath := self.repo.join dataset
  let schema ← readSchema pq disk datasetPath
  let metadata ← readMetadata pq disk datasetPath
  let component ← encode dataset
  let descriptor := FlightDescriptor.ofPath [component]
  let endpoints := [⟨⟨dataset⟩, [self.location]⟩]
  return ⟨schema, descriptor, endpoints, metadata.numRows, pq.serializedSize metadata⟩

/-- The generator, consumed to its end or until it raises. -/
def listFlights (disk : Disk) (listdir : Enumeration (Bytes × Node)) : Except Raised (List (FlightInfo Schema)) := do
  let datasets ← iterdir disk self.repo listdir
  datasets.mapM (makeFlightInfo pq self disk)

def getFlightInfo (disk : Disk) (descriptor : FlightDescriptor) : Except Raised (FlightInfo Schema) := do
  let component ← path0 descriptor
  let dataset ← decode component
  makeFlightInfo pq self disk dataset

def doPut (disk : Disk) (reader : FlightMessageReader Schema Row) (failure : Option WriteTableFailure) :
    Except Raised Unit × Disk :=
  match path0 reader.descriptor >>= decode with
  | .error e => (.error e, disk)
  | .ok dataset =>
    let datasetPath := self.repo.join dataset
    match reader.toTable with
    | .error e => (.error (.ArrowException e), disk)
    | .ok dataTable => writeTable pq disk dataTable datasetPath failure

def doGet (disk : Disk) (ticket : Ticket) : Except Raised (FlightDataStream Schema Row) := do
  let dataset ← decode ticket.ticket
  let datasetPath := self.repo.join dataset
  let table ← readTable pq disk datasetPath
  return ⟨table.schema, table.toRecordBatches⟩

def listActions : List ActionType := [⟨utf8 "drop_dataset", utf8 "Delete a dataset."⟩]

def doDropDataset (disk : Disk) (dataset : Bytes) : Except Raised Unit × Disk := unlink disk (self.repo.join dataset)

def doAction (disk : Disk) (action : Action) : Except Raised Unit × Disk :=
  if action.type = utf8 "drop_dataset" then
    match decode action.body with
    | .error e => (.error e, disk)
    | .ok dataset => self.doDropDataset disk dataset
  else (.error .NotImplementedError, disk)

/-! ## Requests -/

/-- A request, with what the network, the disk and the directory do while it is served. -/
inductive Request (Schema Row : Type)
  | listFlights (listdir : Enumeration (Bytes × Node))
  | getFlightInfo (descriptor : FlightDescriptor)
  | doPut (reader : FlightMessageReader Schema Row) (failure : Option WriteTableFailure)
  | doGet (ticket : Ticket)
  | listActions
  | doAction (action : Action)

inductive Response (Schema Row : Type)
  | flights (r : Except Raised (List (FlightInfo Schema)))
  | info (r : Except Raised (FlightInfo Schema))
  | done (r : Except Raised Unit)
  | stream (r : Except Raised (FlightDataStream Schema Row))
  | actions (types : List ActionType)
  deriving DecidableEq

def handle (disk : Disk) : Request Schema Row → Response Schema Row × Disk
  | .listFlights listdir => (.flights (self.listFlights pq disk listdir), disk)
  | .getFlightInfo d => (.info (self.getFlightInfo pq disk d), disk)
  | .doPut reader failure => (.done (self.doPut pq disk reader failure).1, (self.doPut pq disk reader failure).2)
  | .doGet t => (.stream (self.doGet pq disk t), disk)
  | .listActions => (.actions listActions, disk)
  | .doAction a => (.done (self.doAction disk a).1, (self.doAction disk a).2)

/-! ## What the handlers do, name by name -/

section Spec

variable {pq self} {disk : Disk} {name : Bytes} {p : NodePath}

/-- The name a descriptor stands for: the first component of its path, if it decodes. -/
def nameOf (d : FlightDescriptor) : Option Bytes := (path0 d >>= decode).toOption

@[simp] theorem decode_of_utf8 {b : Bytes} (h : IsUtf8 b) : decode b = .ok b := if_pos h

@[simp] theorem decode_of_not_utf8 {b : Bytes} (h : ¬ IsUtf8 b) : decode b = .error .UnicodeDecodeError := if_neg h

theorem path0_decode_of_name {d : FlightDescriptor} (h : nameOf d = some name) : path0 d >>= decode = .ok name := by
  unfold nameOf at h
  cases hd : path0 d >>= decode with
  | error e => simp [hd, Except.toOption] at h
  | ok n => simpa [hd, Except.toOption] using h

theorem isUtf8_of_name {d : FlightDescriptor} (h : nameOf d = some name) : IsUtf8 name := by
  have h := path0_decode_of_name h
  cases hc : path0 d with
  | error e => simp [hc, bind, Except.bind] at h
  | ok c =>
    by_cases hu : IsUtf8 c
    · simp only [hc, bind, Except.bind, decode_of_utf8 hu, Except.ok.injEq] at h
      rwa [← h]
    · simp [hc, bind, Except.bind, decode_of_not_utf8 hu] at h

def mintedInfo (pq : PyArrow Schema Row) (self : FlightServer) (name : Bytes) (md : FileMetaData Schema) :
    FlightInfo Schema :=
  ⟨md.schema, .ofPath [name], [⟨⟨name⟩, [self.location]⟩], md.numRows, pq.serializedSize md⟩

/-- What is said of a name that leads to such a node. -/
def infoAt (pq : PyArrow Schema Row) (self : FlightServer) (name : Bytes) (x : Option Node) :
    Except Raised (FlightInfo Schema) := do
  let c ← openInputFile x
  let md ← orInvalid (pq.openFile c)
  let component ← encode name
  return mintedInfo pq self component md

theorem infoAt_of_open {c : Bytes} {md : FileMetaData Schema} (hmd : pq.openFile c = some md) (hu : IsUtf8 name) :
    infoAt pq self name (some (.file c)) = .ok (mintedInfo pq self name md) := by
  simp [infoAt, openInputFile, orInvalid, encode, hmd, hu, bind, Except.bind, pure, Except.pure]

theorem infoAt_of_not_open {c : Bytes} (hmd : pq.openFile c = none) :
    infoAt pq self name (some (.file c)) = .error .ArrowInvalid := by
  simp [infoAt, openInputFile, orInvalid, hmd, bind, Except.bind]

theorem infoAt_of_not_utf8 {c : Bytes} {md : FileMetaData Schema} (hmd : pq.openFile c = some md) (hu : ¬ IsUtf8 name) :
    infoAt pq self name (some (.file c)) = .error .UnicodeEncodeError := by
  simp [infoAt, openInputFile, orInvalid, encode, hmd, hu, bind, Except.bind]

/-- **An info is made of a Parquet file**, with the size of its footer. -/
theorem infoAt_eq_ok {x : Option Node} {f : FlightInfo Schema} (h : infoAt pq self name x = .ok f) :
    ∃ c md, x = some (.file c) ∧ pq.openFile c = some md ∧ f = mintedInfo pq self name md := by
  rcases x with _ | _ | c
  · cases h
  · cases h
  · cases hmd : pq.openFile c with
    | none =>
      rw [infoAt_of_not_open hmd] at h
      cases h
    | some md =>
      refine ⟨c, md, rfl, hmd, ?_⟩
      by_cases hu : IsUtf8 name
      · rw [infoAt_of_open hmd hu] at h
        exact (Except.ok.inj h).symm
      · rw [infoAt_of_not_utf8 hmd hu] at h
        cases h

theorem readMetadata_of_lookup {path : Pathlib.Path} (h : disk.lookup path = .ok p) :
    readMetadata pq disk path = openInputFile (disk.tree.node p) >>= fun c => orInvalid (pq.openFile c) := by
  unfold readMetadata lookup
  rw [h]
  rfl

theorem makeFlightInfo_of_lookup (h : disk.lookup (self.repo.join name) = .ok p) :
    makeFlightInfo pq self disk name = infoAt pq self name (disk.tree.node p) := by
  simp only [makeFlightInfo, readSchema, readMetadata_of_lookup h, infoAt]
  rcases disk.tree.node p with _ | _ | c
  · rfl
  · rfl
  · cases hmd : pq.openFile c with
    | none => simp [openInputFile, orInvalid, hmd, bind, Except.bind]
    | some md =>
      by_cases hu : IsUtf8 name <;>
        simp [openInputFile, orInvalid, hmd, encode, hu, mintedInfo, bind, Except.bind, pure, Except.pure]

theorem makeFlightInfo_of_lookup_error {e : Pathlib.OSError} (h : disk.lookup (self.repo.join name) = .error e) :
    makeFlightInfo pq self disk name = .error (.OSError e) := by
  simp [makeFlightInfo, readSchema, readMetadata, lookup, h, bind, Except.bind]

theorem getFlightInfo_of_name {d : FlightDescriptor} (h : nameOf d = some name) :
    self.getFlightInfo pq disk d = makeFlightInfo pq self disk name := by
  have h := path0_decode_of_name h
  unfold getFlightInfo
  cases hc : path0 d with
  | error e => simp [hc, bind, Except.bind] at h
  | ok c =>
    simp only [hc, bind, Except.bind] at h ⊢
    rw [h]

variable (pq self) in
/-- **A descriptor without a name is refused before any file is looked at.** -/
theorem getFlightInfo_of_none {d : FlightDescriptor} (h : nameOf d = none) :
    ∃ e, ∀ disk, self.getFlightInfo pq disk d = .error e := by
  unfold nameOf at h
  unfold getFlightInfo
  cases hc : path0 d with
  | error e => exact ⟨e, fun _ => rfl⟩
  | ok c =>
    simp only [hc, bind, Except.bind] at h ⊢
    cases hn : decode c with
    | error e => exact ⟨e, fun _ => rfl⟩
    | ok n => simp [hn, Except.toOption] at h

theorem iterdir_of_dir {path : Pathlib.Path} (h : disk.lookup path = .ok p) (hd : disk.tree.node p = some .dir)
    (listdir : Enumeration (Bytes × Node)) :
    iterdir disk path listdir = .ok ((listdir.list (disk.tree.children p)).map Prod.fst) := by
  simp only [iterdir, lookup, h, bind, Except.bind, hd]

variable (pq self) in
theorem doPut_of_none {reader : FlightMessageReader Schema Row} (h : nameOf reader.descriptor = none)
    (failure : Option WriteTableFailure) : ∃ e, ∀ disk, self.doPut pq disk reader failure = (.error e, disk) := by
  unfold nameOf at h
  unfold doPut
  cases hn : path0 reader.descriptor >>= decode with
  | error e => exact ⟨e, fun _ => rfl⟩
  | ok n => simp [hn, Except.toOption] at h

theorem doPut_of_name {reader : FlightMessageReader Schema Row} (h : nameOf reader.descriptor = some name)
    (failure : Option WriteTableFailure) :
    self.doPut pq disk reader failure =
      match reader.failure with
      | some e => (.error (.ArrowException e), disk)
      | none => writeTable pq disk reader.table (self.repo.join name) failure := by
  unfold doPut
  rw [path0_decode_of_name h, FlightMessageReader.toTable]
  rcases reader.failure with _ | e <;> rfl

/-- What is in the file when `write_table` has returned, or raised. -/
def leftBy (pq : PyArrow Schema Row) (table : Table Schema Row) : Option WriteTableFailure → Option Bytes
  | none => some (pq.writeTable table)
  | some f => f.left

def statusOf : Option WriteTableFailure → Except Raised Unit
  | none => .ok ()
  | some f => .error (.ArrowException f.status)

theorem writeTable_of_lookup {path : Pathlib.Path} (h : disk.lookup path = .ok p) (hd : disk.tree.node p ≠ some .dir)
    (table : Table Schema Row) (failure : Option WriteTableFailure) :
    writeTable pq disk table path failure = (statusOf failure, disk.leave p (leftBy pq table failure)) := by
  simp only [writeTable, lookup, h, if_neg hd]
  cases failure <;> rfl

theorem writeTable_of_dir {path : Pathlib.Path} (h : disk.lookup path = .ok p) (hd : disk.tree.node p = some .dir)
    (table : Table Schema Row) (failure : Option WriteTableFailure) :
    writeTable pq disk table path failure = (.error (errno .EISDIR), disk) := by
  simp only [writeTable, lookup, h, if_pos hd]

theorem writeTable_of_lookup_error {path : Pathlib.Path} {e : Pathlib.OSError} (h : disk.lookup path = .error e)
    (table : Table Schema Row) (failure : Option WriteTableFailure) :
    writeTable pq disk table path failure = (.error (.OSError e), disk) := by
  simp only [writeTable, lookup, h]

/-- What is sent of a node that is no directory. -/
def streamAt (pq : PyArrow Schema Row) (x : Option Node) : Except Raised (FlightDataStream Schema Row) := do
  let c ← openInputFile x
  let table ← orInvalid (pq.readFile c)
  return ⟨table.schema, table.toRecordBatches⟩

theorem streamAt_of_read {c : Bytes} {t : Table Schema Row} (h : pq.readFile c = some t) :
    streamAt pq (some (.file c)) = .ok ⟨t.schema, t.toRecordBatches⟩ := by
  simp [streamAt, openInputFile, orInvalid, h, bind, Except.bind, pure, Except.pure]

theorem streamAt_of_not_read {c : Bytes} (h : pq.readFile c = none) :
    streamAt pq (some (.file c)) = .error .ArrowInvalid := by
  simp [streamAt, openInputFile, orInvalid, h, bind, Except.bind]

theorem doGet_of_lookup (hu : IsUtf8 name) (h : disk.lookup (self.repo.join name) = .ok p)
    (hd : disk.tree.node p ≠ some .dir) : self.doGet pq disk ⟨name⟩ = streamAt pq (disk.tree.node p) := by
  simp only [doGet, decode_of_utf8 hu, readTable, lookup, h, streamAt, bind, Except.bind, if_neg hd]
  cases openInputFile (disk.tree.node p) <;> rfl

theorem doGet_of_dir (hu : IsUtf8 name) (h : disk.lookup (self.repo.join name) = .ok p)
    (hd : disk.tree.node p = some .dir) :
    self.doGet pq disk ⟨name⟩ =
      (orInvalid (pq.readDataset disk.tree p)).map fun table => ⟨table.schema, table.toRecordBatches⟩ := by
  simp only [doGet, decode_of_utf8 hu, readTable, lookup, h, bind, Except.bind, if_pos hd]
  cases orInvalid (pq.readDataset disk.tree p) <;> rfl

theorem doGet_of_lookup_error (hu : IsUtf8 name) {e : Pathlib.OSError} (h : disk.lookup (self.repo.join name) = .error e) :
    self.doGet pq disk ⟨name⟩ = .error (.OSError e) := by
  simp only [doGet, decode_of_utf8 hu, readTable, lookup, h, bind, Except.bind]

theorem doGet_of_not_utf8 (hu : ¬ IsUtf8 name) : self.doGet pq disk ⟨name⟩ = .error .UnicodeDecodeError := by
  simp only [doGet, decode_of_not_utf8 hu, bind, Except.bind]

theorem doAction_of_drop {a : Action} (h : a.type = utf8 "drop_dataset") (hu : IsUtf8 a.body) :
    self.doAction disk a = unlink disk (self.repo.join a.body) := by
  unfold doAction
  rw [if_pos h, decode_of_utf8 hu]
  rfl

variable (self disk) in
/-- **An action removes the file its body names**, or raises and changes nothing. -/
theorem doAction_cases (a : Action) :
    (a.type = utf8 "drop_dataset" ∧ IsUtf8 a.body ∧ ∃ p c, disk.lookup (self.repo.join a.body) = .ok p ∧
      disk.tree.node p = some (.file c) ∧ self.doAction disk a = (.ok (), disk.unlink p)) ∨
    ((a.type = utf8 "drop_dataset" → IsUtf8 a.body → ∀ p c, disk.lookup (self.repo.join a.body) = .ok p →
      disk.tree.node p ≠ some (.file c)) ∧ ∃ e, self.doAction disk a = (.error e, disk)) := by
  by_cases ha : a.type = utf8 "drop_dataset"
  · by_cases hu : IsUtf8 a.body
    · rw [doAction_of_drop ha hu]
      unfold unlink lookup
      cases hp : disk.lookup (self.repo.join a.body) with
      | error e => exact .inr ⟨fun _ _ _ _ => nofun, _, rfl⟩
      | ok p =>
        rcases hx : disk.tree.node p with _ | _ | c
        · exact .inr ⟨fun _ _ q c h => (by cases h; simp [hx]), _, by simp only [hx]; rfl⟩
        · exact .inr ⟨fun _ _ q c h => (by cases h; simp [hx]), _, by simp only [hx]; rfl⟩
        · exact .inl ⟨ha, hu, p, c, rfl, hx, by simp only [hx]⟩
    · exact .inr ⟨fun _ h => absurd h hu, _, by rw [doAction, if_pos ha, decode_of_not_utf8 hu]⟩
  · exact .inr ⟨fun h => absurd h ha, _, by rw [doAction, if_neg ha]⟩

end Spec
end FlightServer
