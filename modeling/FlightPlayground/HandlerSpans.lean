import FlightPlayground.AfterCrash
import FlightPlayground.Tracing
/-!
# HandlerSpans — what the spans of the handlers say

`FlightStressTestServer` and `DistributedFlightDataServer` trace their requests: a span is exported when its block is left,
with the attributes that have been set by then.  A request's spans are exported one by one while others are served; they
are those of its handler, and say what has become of its file.
-/
namespace HandlerSpans

open Posix (Bytes Node NodePath utf8)
open Unordered (Enumeration)
open Arrow
open Flight
open Interleave
open FlightStressTestServer (Task Request Chunking UploadAt inspect uploadBytes leaves)
open DatasetServer (fileInfoFromDescriptor nameOf sinkPath isDataset)
open RequestsApart (start run)
open Tracing (Value)

structure Span where
  name : String
  attributes : List (String × Value)
  deriving DecidableEq

/-- A result, and the spans that are exported on the way to it. -/
structure Spanned (β : Type) where
  result : Result β
  spans : List Span

def Spanned.bind {β δ : Type} (m : Spanned β) (f : β → Spanned δ) : Spanned δ :=
  match m.result with
  | .ok b => ⟨(f b).result, m.spans ++ (f b).spans⟩
  | .error e => ⟨.error e, m.spans⟩

instance : Monad Spanned where
  pure b := ⟨.ok b, []⟩
  bind := Spanned.bind

def untraced {β : Type} (r : Result β) : Spanned β := ⟨r, []⟩

/-- A block with a span of its own, on which attributes are set before anything in the block can fail, and when nothing in
it has. -/
def inSpan {β : Type} (name : String) (before : List (String × Value)) (after : β → List (String × Value)) (m : Spanned β) :
    Spanned β :=
  ⟨m.result, m.spans ++ [⟨name, before ++ match m.result with
    | .ok b => after b
    | .error _ => []⟩]⟩

inductive Server
  | FlightStressTestServer
  | DistributedFlightDataServer
  deriving DecidableEq

/-- The span that `ListFlights` itself has on the data server. -/
def Server.inListFlights {β : Type} : Server → Spanned β → Spanned β
  | FlightStressTestServer, m => m
  | DistributedFlightDataServer, m => inSpan "ListFlightsImpl" [] (fun _ => []) m

/-! ## The handlers -/

section Handlers

variable {Schema Row : Type} (pq : Parquet Schema Row) (port : Nat) (numColumns : Schema → Nat) (server : Server)

/-- The block of `MakeFlightInfo`, which is the whole function. -/
def inMakeFlightInfo (fileInfo : FileInfo) (r : Result (FlightInfo Schema)) : Spanned (FlightInfo Schema) :=
  inSpan "MakeFlightInfo" [("file_path", .str fileInfo.baseName)] (fun _ => []) (untraced r)

def makeFlightInfo (root : SubTreeFileSystem) (fileInfo : FileInfo) : Spanned (FlightInfo Schema) :=
  inMakeFlightInfo fileInfo (DatasetServer.makeFlightInfo pq port root fileInfo)

def listLoop (root : SubTreeFileSystem) : List FileInfo → List (FlightInfo Schema) → Spanned (List (FlightInfo Schema))
  | [], flights => pure flights
  | fileInfo :: listing, flights =>
    if !fileInfo.isFile || fileInfo.extension ≠ utf8 "parquet" then listLoop root listing flights
    else do
      let info ← makeFlightInfo pq port root fileInfo
      listLoop root listing (flights ++ [info])

def listFlights (root : SubTreeFileSystem) (readdir : Enumeration (Bytes × Node)) : Spanned (List (FlightInfo Schema)) :=
  server.inListFlights do
    let listing ← untraced (root.getFileInfoRoot readdir)
    listLoop pq port root listing []

def getFlightInfo (root : SubTreeFileSystem) (descriptor : FlightDescriptor) : Spanned (FlightInfo Schema) := do
  let fileInfo ← untraced (fileInfoFromDescriptor root descriptor)
  makeFlightInfo pq port root fileInfo

def readingTable (reader : FlightMessageReader Schema Row) : Spanned (Table Schema Row) :=
  inSpan "Reading table" []
    (fun table => [("num_rows", .int table.rows.length), ("num_columns", .int (numColumns table.schema))])
    (untraced reader.toTable)

/-- The block that writes the table; `told` is what the sink tells after it. -/
def writingTable (told : Nat) (written : Result Unit) : Spanned Unit :=
  inSpan "Writing table" [] (fun _ => [("bytes_written", .int told)]) (untraced written)

def doPut (root : SubTreeFileSystem) (u : Upload Schema Row) : Spanned Unit × SubTreeFileSystem :=
  match fileInfoFromDescriptor root u.reader.descriptor with
  | .error e => (untraced (.error e), root)
  | .ok fileInfo =>
    match root.openOutputStream fileInfo.path with
    | .error e => (untraced (.error e), root)
    | .ok (sink, root) =>
      match u.reader.toTable with
      | .error e => (⟨.error e, (readingTable numColumns u.reader).spans⟩, root)
      | .ok table =>
        let (written, after) := DatasetServer.writeTable pq root sink table u.writeFailure
        (⟨written, (readingTable numColumns u.reader).spans ++
          (writingTable (root.write sink (pq.encode table)).1.pos written).spans⟩, after)

/-- The spans a request exports that is served without interruption. -/
def Request.spans (root : SubTreeFileSystem) : Request Schema Row → List Span
  | .doPut u _ => (doPut pq numColumns root u).1.spans
  | .getFlightInfo descriptor => (getFlightInfo pq port root descriptor).spans
  | .doGet _ => []
  | .listFlights readdir => (listFlights pq port server root readdir).spans

/-- The spans that are exported in a task's next step. -/
def exports (root : SubTreeFileSystem) : Task Schema Row → List Span
  | .receiving _ [] u _ => (readingTable numColumns u.reader).spans
  | .writing sink [] result => (writingTable sink.pos result).spans
  | .inspecting fileInfo =>
    match root.openReadableInfo fileInfo with
    | .error e => (inMakeFlightInfo fileInfo (.error e : Result (FlightInfo Schema))).spans
    | .ok _ => []
  | .inspectingFile fileInfo input => (inMakeFlightInfo fileInfo (inspect pq port fileInfo input (root.bytesOf input))).spans
  | .listFlights readdir =>
    match root.getFileInfoRoot readdir with
    | .error e => (server.inListFlights (untraced (.error e : Result (List (FlightInfo Schema))))).spans
    | .ok _ => []
  | .listing [] found => (server.inListFlights (untraced (.ok found))).spans
  | .listing (fileInfo :: _) _ =>
    if !fileInfo.isFile || fileInfo.extension ≠ utf8 "parquet" then []
    else
      match root.openReadableInfo fileInfo with
      | .error e => (server.inListFlights (inMakeFlightInfo fileInfo (.error e : Result (FlightInfo Schema)))).spans
      | .ok _ => []
  | .listingFile fileInfo input _ _ =>
    match inspect pq port fileInfo input (root.bytesOf input) with
    | .error e => (server.inListFlights (inMakeFlightInfo fileInfo (.error e : Result (FlightInfo Schema)))).spans
    | .ok info => (inMakeFlightInfo fileInfo (.ok info)).spans
  | _ => []

end Handlers

/-! ## A handler that traces is the handler -/

section Plain

variable {Schema Row β δ : Type} {pq : Parquet Schema Row} {port : Nat} {numColumns : Schema → Nat} {server : Server}
  {root : SubTreeFileSystem}

theorem bind_result (m : Spanned β) (f : β → Spanned δ) :
    (m >>= f).result = m.result.bind fun b => (f b).result := by
  show (m.bind f).result = _
  unfold Spanned.bind
  cases m.result <;> rfl

theorem bind_of_ok {m : Spanned β} {b : β} (h : m.result = .ok b) (f : β → Spanned δ) :
    m >>= f = ⟨(f b).result, m.spans ++ (f b).spans⟩ := by
  show m.bind f = _
  unfold Spanned.bind
  rw [h]

theorem bind_of_error {m : Spanned β} {e : Status} (h : m.result = .error e) (f : β → Spanned δ) :
    m >>= f = ⟨.error e, m.spans⟩ := by
  show m.bind f = _
  unfold Spanned.bind
  rw [h]

@[simp] theorem inListFlights_result (m : Spanned β) : (server.inListFlights m).result = m.result := by
  cases server <;> rfl

theorem listLoop_result : ∀ (listing : List FileInfo) (flights : List (FlightInfo Schema)),
    (listLoop pq port root listing flights).result = DatasetServer.listLoop pq port root listing flights
  | [], _ => rfl
  | fileInfo :: listing, flights => by
    rw [listLoop, DatasetServer.listLoop]
    split
    · exact listLoop_result listing flights
    · rw [bind_result]
      show (DatasetServer.makeFlightInfo pq port root fileInfo).bind _ = _
      cases DatasetServer.makeFlightInfo pq port root fileInfo with
      | error e => rfl
      | ok info => exact listLoop_result listing _

theorem listFlights_result (readdir : Enumeration (Bytes × Node)) :
    (listFlights pq port server root readdir).result = DatasetServer.listFlights pq port root readdir := by
  unfold listFlights
  rw [inListFlights_result, bind_result]
  exact listLoop_result _ _

theorem getFlightInfo_result (d : FlightDescriptor) :
    (getFlightInfo pq port root d).result = DatasetServer.getFlightInfo pq port root d := by
  unfold getFlightInfo
  rw [bind_result]
  rfl

theorem doPut_plain (u : Upload Schema Row) :
    ((doPut pq numColumns root u).1.result, (doPut pq numColumns root u).2) = DatasetServer.doPut pq root u := by
  unfold doPut DatasetServer.doPut
  cases fileInfoFromDescriptor root u.reader.descriptor with
  | error e => rfl
  | ok fileInfo =>
    cases ho : root.openOutputStream fileInfo.path with
    | error e => simp [untraced, ho]
    | ok opened =>
      cases u.reader.toTable <;> simp [ho]

end Plain

/-! ## The spans of a block -/

section Spans

variable {Schema Row β : Type} {pq : Parquet Schema Row} {port : Nat} {numColumns : Schema → Nat} {server : Server}
  {root : SubTreeFileSystem}

def infoSpan (fileInfo : FileInfo) : Span := ⟨"MakeFlightInfo", [("file_path", .str fileInfo.baseName)]⟩

@[simp] theorem inMakeFlightInfo_spans (fileInfo : FileInfo) (r : Result (FlightInfo Schema)) :
    (inMakeFlightInfo fileInfo r).spans = [infoSpan fileInfo] := by
  cases r <;> rfl

@[simp] theorem makeFlightInfo_spans (fileInfo : FileInfo) :
    (makeFlightInfo pq port root fileInfo).spans = [infoSpan fileInfo] := inMakeFlightInfo_spans _ _

/-- The spans that a listing ends with. -/
def Server.ends : Server → List Span
  | FlightStressTestServer => []
  | DistributedFlightDataServer => [⟨"ListFlightsImpl", []⟩]

@[simp] theorem inListFlights_spans (m : Spanned β) : (server.inListFlights m).spans = m.spans ++ server.ends := by
  cases server with
  | FlightStressTestServer => exact (List.append_nil _).symm
  | DistributedFlightDataServer =>
    obtain ⟨result, spans⟩ := m
    cases result <;> rfl

theorem writingTable_congr {told told' : Nat} {written : Result Unit} (h : written = .ok () → told = told') :
    (writingTable told written).spans = (writingTable told' written).spans := by
  cases written with
  | ok x => rw [h rfl]
  | error e => rfl

variable (pq numColumns) in
/-- The spans of an upload that opens its file. -/
def uploadSpans (u : Upload Schema Row) : List Span :=
  (readingTable numColumns u.reader).spans ++
    if u.reader.failure.isSome then [] else (writingTable (pq.encode u.reader.table).length u.status).spans

/-- **What opens no file has no spans.** -/
theorem doPut_spans_of_sinkPath_none {u : Upload Schema Row} (h : sinkPath root u.reader.descriptor = none) :
    (doPut pq numColumns root u).1.spans = [] := by
  unfold doPut
  cases hn : nameOf u.reader.descriptor with
  | none =>
    obtain ⟨m, hm⟩ := DatasetServer.fileInfoFromDescriptor_of_none root hn
    rw [hm]
    rfl
  | some s =>
    rw [sinkPath, hn] at h
    obtain ⟨e, he⟩ := SubTreeFileSystem.openOutputStream_of_none h
    simp only [DatasetServer.fileInfoFromDescriptor_of_name root hn, FileInfo.ofNode_path, he]
    rfl

theorem doPut_spans_of_sinkPath {u : Upload Schema Row} {p : NodePath} (h : sinkPath root u.reader.descriptor = some p) :
    (doPut pq numColumns root u).1.spans = uploadSpans pq numColumns u := by
  obtain ⟨s, hn, hp⟩ := Option.bind_eq_some_iff.1 h
  unfold doPut uploadSpans
  simp only [DatasetServer.fileInfoFromDescriptor_of_name root hn, FileInfo.ofNode_path,
    SubTreeFileSystem.openOutputStream_of_some hp]
  cases hf : u.reader.failure with
  | some e =>
    have ht : u.reader.toTable = .error e := by simp [FlightMessageReader.toTable, hf]
    simp [ht]
  | none =>
    have ht : u.reader.toTable = .ok u.reader.table := by simp [FlightMessageReader.toTable, hf]
    have hwritten : (DatasetServer.writeTable pq (root.setFile p []) ⟨p, 0⟩ u.reader.table u.writeFailure).1 = u.status := by
      unfold DatasetServer.writeTable Upload.status
      rw [hf]
      cases u.writeFailure <;> rfl
    simp only [ht, hwritten, SubTreeFileSystem.write, Nat.zero_add]
    rfl

/-- **An upload that tells the bytes it wrote has completed**, and tells what it has received and written. -/
theorem completes_of_uploadSpans {u : Upload Schema Row} {rows columns bytes : Int}
    (h : uploadSpans pq numColumns u = [⟨"Reading table", [("num_rows", .int rows), ("num_columns", .int columns)]⟩,
      ⟨"Writing table", [("bytes_written", .int bytes)]⟩]) :
    u.Completes ∧ u.reader.table.rows.length = rows ∧ numColumns u.reader.schema = columns ∧
      (pq.encode u.reader.table).length = bytes := by
  unfold uploadSpans readingTable at h
  cases hf : u.reader.failure with
  | some e => simp [hf, inSpan, untraced] at h
  | none =>
    have ht : u.reader.toTable = .ok u.reader.table := by simp [FlightMessageReader.toTable, hf]
    cases hs : u.status with
    | error e => simp [hf, hs, writingTable, inSpan, untraced] at h
    | ok x =>
      simp [hf, hs, ht, writingTable, inSpan, untraced] at h
      exact ⟨Upload.completes_of_status hs, h.1.1, h.1.2, h.2⟩

theorem getFlightInfo_spans (d : FlightDescriptor) : (getFlightInfo pq port root d).spans =
    match nameOf d with
    | some s => [infoSpan (.ofNode (Posix.removeLeadingSlash s) (root.nodeAt s))]
    | none => [] := by
  unfold getFlightInfo
  cases hn : nameOf d with
  | none =>
    obtain ⟨m, hm⟩ := DatasetServer.fileInfoFromDescriptor_of_none root hn
    rw [bind_of_error (show (untraced (fileInfoFromDescriptor root d)).result = _ from hm)]
    rfl
  | some s =>
    have hinfo := DatasetServer.fileInfoFromDescriptor_of_name root hn
    rw [bind_of_ok (show (untraced (fileInfoFromDescriptor root d)).result = _ from hinfo)]
    exact makeFlightInfo_spans _

theorem listLoop_spans_cons (fileInfo : FileInfo) (listing : List FileInfo) (flights : List (FlightInfo Schema)) :
    (listLoop pq port root (fileInfo :: listing) flights).spans =
      if isDataset fileInfo then
        infoSpan fileInfo :: match DatasetServer.makeFlightInfo pq port root fileInfo with
          | .error _ => []
          | .ok info => (listLoop pq port root listing (flights ++ [info])).spans
      else (listLoop pq port root listing flights).spans := by
  rw [listLoop, isDataset]
  by_cases h1 : fileInfo.isFile = true <;> by_cases h2 : fileInfo.extension = utf8 "parquet" <;> simp [h1, h2]
  cases hi : DatasetServer.makeFlightInfo pq port root fileInfo with
  | error e =>
    rw [bind_of_error (show (makeFlightInfo pq port root fileInfo).result = _ from hi)]
    exact makeFlightInfo_spans fileInfo
  | ok info =>
    rw [bind_of_ok (show (makeFlightInfo pq port root fileInfo).result = _ from hi), makeFlightInfo_spans]
    rfl

variable (pq port numColumns server) in
theorem exports_inspecting (fs : SubTreeFileSystem) (fileInfo : FileInfo) :
    exports pq port numColumns server fs (.inspecting fileInfo : Task Schema Row) =
      match fs.openReadableInfo fileInfo with
      | .error _ => [infoSpan fileInfo]
      | .ok _ => [] := by
  rw [exports]
  cases fs.openReadableInfo fileInfo <;> simp

variable (pq port numColumns server) in
theorem exports_listing (fs : SubTreeFileSystem) (fileInfo : FileInfo) (rest : List FileInfo)
    (found : List (FlightInfo Schema)) :
    exports pq port numColumns server fs (.listing (fileInfo :: rest) found : Task Schema Row) =
      if isDataset fileInfo then
        match fs.openReadableInfo fileInfo with
        | .error _ => infoSpan fileInfo :: server.ends
        | .ok _ => []
      else [] := by
  rw [exports, isDataset]
  by_cases h1 : fileInfo.isFile = true <;> by_cases h2 : fileInfo.extension = utf8 "parquet" <;> simp [h1, h2]

variable (pq port numColumns server) in
theorem exports_listingFile (fs : SubTreeFileSystem) (fileInfo : FileInfo) (input : ReadableFile) (rest : List FileInfo)
    (found : List (FlightInfo Schema)) :
    exports pq port numColumns server fs (.listingFile fileInfo input rest found : Task Schema Row) =
      infoSpan fileInfo :: match inspect pq port fileInfo input (fs.bytesOf input) with
        | .error _ => server.ends
        | .ok _ => [] := by
  rw [exports]
  cases inspect pq port fileInfo input (fs.bytesOf input) <;> simp

end Spans

/-! ## A request among others -/

section Traced

variable {Schema Row : Type} (pq : Parquet Schema Row) (port : Nat) (numColumns : Schema → Nat) (server : Server)

/-- Where a request can stand that has exported the spans, of those that its handler exports. -/
def TracedAt (root : SubTreeFileSystem) (r : Request Schema Row) (spans : List Span) : Task Schema Row → Prop
  | .doPut u cut => r = .doPut u cut ∧ spans = []
  | .opening fileInfo u cut => r = .doPut u cut ∧ spans = [] ∧
      ∃ s, nameOf u.reader.descriptor = some s ∧ fileInfo.path = Posix.removeLeadingSlash s
  | .receiving sink _ u cut => r = .doPut u cut ∧ spans = [] ∧ sinkPath root u.reader.descriptor = some sink.path ∧ sink.pos = 0
  | .writing sink pieces result => ∃ u cut, r = .doPut u cut ∧ spans = (readingTable numColumns u.reader).spans ∧
      sinkPath root u.reader.descriptor = some sink.path ∧ u.reader.failure = none ∧ result = u.status ∧
      sink.pos + pieces.flatten.length = (uploadBytes pq u).length
  | .getFlightInfo descriptor => r = .getFlightInfo descriptor ∧ spans = []
  | .inspecting fileInfo => spans = [] ∧ ∃ d s, r = .getFlightInfo d ∧ nameOf d = some s ∧
      fileInfo.path = Posix.removeLeadingSlash s
  | .inspectingFile fileInfo _ => spans = [] ∧ ∃ d s, r = .getFlightInfo d ∧ nameOf d = some s ∧
      fileInfo.path = Posix.removeLeadingSlash s
  | .doGet _ => (∃ t, r = .doGet t) ∧ spans = []
  | .fetching _ => (∃ t, r = .doGet t) ∧ spans = []
  | .reading _ _ => (∃ t, r = .doGet t) ∧ spans = []
  | .listFlights readdir => r = .listFlights readdir ∧ spans = []
  | .listing rest found => (∃ readdir, r = .listFlights readdir) ∧
      spans ++ ((listLoop pq port root rest found).spans ++ server.ends) = Request.spans pq port numColumns server root r
  | .listingFile fileInfo input rest found => (∃ readdir, r = .listFlights readdir) ∧ isDataset fileInfo ∧
      root.openReadableInfo fileInfo = .ok input ∧
      spans ++ ((listLoop pq port root (fileInfo :: rest) found).spans ++ server.ends) =
        Request.spans pq port numColumns server root r
  | _ => spans = Request.spans pq port numColumns server root r

variable {pq port numColumns server} {root fs : SubTreeFileSystem} {r : Request Schema Row} {spans : List Span}

/-- **A step of a request**, whatever the others have made of the store by then if it names a file. -/
theorem TracedAt.step (hfs : root.SameDirs fs) (hlist : ∀ readdir, r = .listFlights readdir → fs = root)
    {t : Task Schema Row} (h : TracedAt pq port numColumns server root r spans t) :
    TracedAt pq port numColumns server root r (spans ++ exports pq port numColumns server fs t) (t.step pq port fs).2 := by
  cases t with
  | doPut u cut =>
    obtain ⟨rfl, rfl⟩ := h
    cases hn : nameOf u.reader.descriptor with
    | none =>
      obtain ⟨m, hm⟩ := DatasetServer.fileInfoFromDescriptor_of_none fs hn
      simp only [Task.step, hm]
      refine (doPut_spans_of_sinkPath_none ?_).symm
      rw [sinkPath, hn]
      rfl
    | some s =>
      simp only [Task.step, DatasetServer.fileInfoFromDescriptor_of_name fs hn]
      exact ⟨rfl, rfl, s, hn, FileInfo.ofNode_path _ _⟩
  | opening fileInfo u cut =>
    obtain ⟨rfl, rfl, s, hn, hpath⟩ := h
    cases hp : root.outputPath (Posix.removeLeadingSlash s) with
    | none =>
      obtain ⟨e, he⟩ := SubTreeFileSystem.openOutputStream_of_none ((hfs.outputPath _).trans hp)
      simp only [Task.step, hpath, he]
      refine (doPut_spans_of_sinkPath_none ?_).symm
      rw [sinkPath, hn]
      exact hp
    | some p =>
      have ho := SubTreeFileSystem.openOutputStream_of_some ((hfs.outputPath _).trans hp)
      simp only [Task.step, hpath, ho]
      refine ⟨rfl, rfl, ?_, rfl⟩
      rw [sinkPath, hn]
      exact hp
  | receiving sink batches u cut =>
    obtain ⟨rfl, rfl, hopens, hpos⟩ := h
    cases batches with
    | cons batch batches => exact ⟨rfl, rfl, hopens, hpos⟩
    | nil =>
      cases hf : u.reader.failure with
      | some e =>
        have ht : u.reader.toTable = .error e := by simp [FlightMessageReader.toTable, hf]
        simp only [Task.step, ht]
        show _ = (doPut pq numColumns root u).1.spans
        simp [doPut_spans_of_sinkPath hopens, uploadSpans, hf, exports]
      | none =>
        have ht : u.reader.toTable = .ok u.reader.table := by simp [FlightMessageReader.toTable, hf]
        simp only [Task.step, ht, Task.ofTable]
        cases hw : u.writeFailure with
        | none =>
          exact ⟨u, cut, rfl, rfl, hopens, hf, by simp [Upload.status, hf, hw],
            by simp [hpos, cut.flatten_pieces, uploadBytes, hw]⟩
        | some f =>
          exact ⟨u, cut, rfl, rfl, hopens, hf, by simp [Upload.status, hf, hw],
            by simp [hpos, cut.flatten_pieces, uploadBytes, hw]⟩
  | writing sink pieces result =>
    obtain ⟨u, cut, rfl, rfl, hopens, hf, rfl, hlen⟩ := h
    cases pieces with
    | nil =>
      show _ = (doPut pq numColumns root u).1.spans
      rw [doPut_spans_of_sinkPath hopens, uploadSpans, hf]
      -- the sink is asked only after a write that succeeded, and is then past all of the table
      refine congrArg _ (writingTable_congr fun hok => ?_)
      rw [← FlightStressTestServer.uploadBytes_of_completes (Upload.completes_of_status hok), ← hlen]
      simp
    | cons piece pieces =>
      refine ⟨u, cut, rfl, List.append_nil _, hopens, hf, rfl, ?_⟩
      rw [← hlen, List.flatten_cons, List.length_append, ← Nat.add_assoc]
      rfl
  | closing result => exact (List.append_nil _).trans h
  | put result => exact (List.append_nil _).trans h
  | getFlightInfo d =>
    obtain ⟨rfl, rfl⟩ := h
    cases hn : nameOf d with
    | none =>
      obtain ⟨m, hm⟩ := DatasetServer.fileInfoFromDescriptor_of_none fs hn
      simp only [Task.step, hm]
      show _ = (getFlightInfo pq port root d).spans
      rw [getFlightInfo_spans, hn]
      rfl
    | some s =>
      simp only [Task.step, DatasetServer.fileInfoFromDescriptor_of_name fs hn]
      exact ⟨rfl, d, s, rfl, hn, FileInfo.ofNode_path _ _⟩
  | inspecting fileInfo =>
    obtain ⟨rfl, d, s, rfl, hn, hpath⟩ := h
    simp only [exports_inspecting, Task.step]
    cases ho : fs.openReadableInfo fileInfo with
    | error e =>
      show _ = (getFlightInfo pq port root d).spans
      rw [getFlightInfo_spans, hn]
      simp only [infoSpan, FileInfo.baseName, hpath, FileInfo.ofNode_path, List.nil_append]
    | ok input => exact ⟨rfl, d, s, rfl, hn, hpath⟩
  | inspectingFile fileInfo input =>
    obtain ⟨rfl, d, s, rfl, hn, hpath⟩ := h
    show _ = (getFlightInfo pq port root d).spans
    rw [getFlightInfo_spans, hn]
    simp only [exports, inMakeFlightInfo_spans, infoSpan, FileInfo.baseName, hpath, FileInfo.ofNode_path, List.nil_append]
  | info result => exact (List.append_nil _).trans h
  | doGet t =>
    obtain ⟨⟨t', rfl⟩, rfl⟩ := h
    simp only [Task.step]
    split
    · rfl
    · exact ⟨⟨t', rfl⟩, rfl⟩
  | fetching input =>
    obtain ⟨⟨t', rfl⟩, rfl⟩ := h
    simp only [Task.step]
    split
    · rfl
    · exact ⟨⟨t', rfl⟩, rfl⟩
  | reading input md =>
    obtain ⟨⟨t', rfl⟩, rfl⟩ := h
    rfl
  | stream result => exact (List.append_nil _).trans h
  | listFlights readdir =>
    obtain ⟨rfl, rfl⟩ := h
    obtain rfl := hlist readdir rfl
    refine ⟨⟨readdir, rfl⟩, ?_⟩
    show _ = (listFlights pq port server fs readdir).spans
    rw [listFlights, inListFlights_spans]
    rfl
  | listing rest found =>
    obtain ⟨⟨readdir, rfl⟩, h⟩ := h
    obtain rfl := hlist readdir rfl
    cases rest with
    | nil =>
      show _ ++ (server.inListFlights (untraced (.ok found))).spans = _
      rw [inListFlights_spans]
      exact h
    | cons fileInfo rest =>
      rw [exports_listing, Task.step_listing]
      split
      · rename_i hd
        cases ho : fs.openReadableInfo fileInfo with
        | error e =>
          rw [listLoop_spans_cons, if_pos hd, FlightStressTestServer.makeFlightInfo_eq, ho] at h
          exact h
        | ok input =>
          refine ⟨⟨readdir, rfl⟩, hd, ho, ?_⟩
          rwa [List.append_nil]
      · rename_i hd
        rw [listLoop_spans_cons, if_neg hd] at h
        refine ⟨⟨readdir, rfl⟩, ?_⟩
        rwa [List.append_nil]
  | listingFile fileInfo input rest found =>
    obtain ⟨⟨readdir, rfl⟩, hd, ho, h⟩ := h
    obtain rfl := hlist readdir rfl
    rw [listLoop_spans_cons, if_pos hd, FlightStressTestServer.makeFlightInfo_eq, ho, Except.bind] at h
    rw [exports_listingFile]
    simp only [Task.step]
    cases hi : inspect pq port fileInfo input (fs.bytesOf input) with
    | error e =>
      rw [hi] at h
      exact h
    | ok info =>
      rw [hi] at h
      refine ⟨⟨readdir, rfl⟩, ?_⟩
      rw [← h]
      simp
  | flights result => exact (List.append_nil _).trans h

/-- **An upload that has exported two spans has ended**: they are its handler's, and its file is as it leaves it. -/
theorem TracedAt.ended {u : Upload Schema Row} {cut : Chunking} {t : Task Schema Row}
    (h : TracedAt pq port numColumns server root (.doPut u cut) spans t) (hlen : spans.length = 2) :
    spans = (doPut pq numColumns root u).1.spans ∧ ∀ {s : Bytes} {p : NodePath} {before held : Option Node},
      UploadAt pq s p u before held t → held = some (.file (leaves pq u)) := by
  cases t with
  | doPut u' cut' =>
    rw [h.2] at hlen
    cases hlen
  | opening fileInfo u' cut' =>
    rw [h.2.1] at hlen
    cases hlen
  | receiving sink batches u' cut' =>
    rw [h.2.1] at hlen
    cases hlen
  | writing sink pieces result =>
    obtain ⟨u', cut', -, hspans, -⟩ := h
    rw [hspans] at hlen
    cases hlen
  | closing result => exact ⟨h, fun hat => hat.2⟩
  | put result => exact ⟨h, fun hat => hat.2⟩
  | info result => exact ⟨h, fun hat => hat.elim⟩
  | stream result => exact ⟨h, fun hat => hat.elim⟩
  | flights result => exact ⟨h, fun hat => hat.elim⟩
  | getFlightInfo d => cases h.1
  | inspecting fileInfo =>
    obtain ⟨-, d, s, hr, -⟩ := h
    cases hr
  | inspectingFile fileInfo input =>
    obtain ⟨-, d, s, hr, -⟩ := h
    cases hr
  | doGet request =>
    obtain ⟨⟨t', hr⟩, -⟩ := h
    cases hr
  | fetching input =>
    obtain ⟨⟨t', hr⟩, -⟩ := h
    cases hr
  | reading path md =>
    obtain ⟨⟨t', hr⟩, -⟩ := h
    cases hr
  | listFlights readdir => cases h.1
  | listing rest found =>
    obtain ⟨⟨readdir, hr⟩, -⟩ := h
    cases hr
  | listingFile fileInfo input rest found =>
    obtain ⟨⟨readdir, hr⟩, -⟩ := h
    cases hr

end Traced

/-! ## Runs -/

section Run

variable {Schema Row ι : Type} [DecidableEq ι] (pq : Parquet Schema Row) (port : Nat) (numColumns : Schema → Nat)
  (server : Server) (root : SubTreeFileSystem) (request : ι → Request Schema Row)

/-- The spans that a request has exported by the end of the schedule. -/
def exported (sched : List ι) (i : ι) : List Span :=
  Pool.output (Task.step pq port) (exports pq port numColumns server) i (start root request) sched

variable {pq port numColumns server root request}

theorem run_shared_of_readers (h : ∀ j, ¬ (request j).IsUpload) (sched : List ι) :
    (run pq port root request sched).shared = root :=
  SubTreeFileSystem.ext_tree
    (Posix.FileTree.ext_node fun _ => RequestsApart.run_node_of_no_upload (fun j hj => absurd hj (h j)) sched)
    (RequestsApart.sameDirs_run request sched).base

theorem tracedAt_run (sched : List ι) {i : ι} (h : ∀ readdir, request i = .listFlights readdir → ∀ j, ¬ (request j).IsUpload) :
    TracedAt pq port numColumns server root (request i) (exported pq port numColumns server root request sched i)
      ((run pq port root request sched).task i) := by
  refine Pool.output_induction _ (P := fun _ => TracedAt pq port numColumns server root (request i)) ?_
    (fun sched _ hat => hat.step (RequestsApart.sameDirs_run request sched) fun readdir hr =>
      run_shared_of_readers (h readdir hr) sched) (fun _ _ _ _ _ hat => hat) sched
  show TracedAt pq port numColumns server root (request i) [] (request i).task
  cases request i with
  | doPut u cut => exact ⟨rfl, rfl⟩
  | getFlightInfo d => exact ⟨rfl, rfl⟩
  | doGet t => exact ⟨⟨t, rfl⟩, rfl⟩
  | listFlights readdir => exact ⟨rfl, rfl⟩

/-- **The spans of a request that has been answered are those of its handler**, whatever has been uploaded and read
meanwhile; those of a listing, if nothing was uploaded. -/
theorem exported_of_answered (request : ι → Request Schema Row) (sched : List ι) {i : ι}
    (h : ∀ readdir, request i = .listFlights readdir → ∀ j, ¬ (request j).IsUpload)
    (hanswered : ((run pq port root request sched).task i).Answered) :
    exported pq port numColumns server root request sched i = Request.spans pq port numColumns server root (request i) := by
  have hat : TracedAt pq port numColumns server root (request i) (exported pq port numColumns server root request sched i)
      ((run pq port root request sched).task i) := tracedAt_run sched h
  cases ht : (run pq port root request sched).task i with
  | put result =>
    rw [ht] at hat
    exact hat
  | info result =>
    rw [ht] at hat
    exact hat
  | stream result =>
    rw [ht] at hat
    exact hat
  | flights result =>
    rw [ht] at hat
    exact hat
  | _ =>
    rw [ht] at hanswered
    exact hanswered.elim

/-! ## What a listing's spans name -/

/-- The datasets among what a listing finds in the directory, in its order. -/
def datasets (readdir : Enumeration (Bytes × Node)) (fs : SubTreeFileSystem) : List FileInfo :=
  ((readdir.list (fs.tree.children fs.base)).map fun e => FileInfo.ofNode e.1 (some e.2)).filter isDataset

variable (pq port root request) in
/-- After the first steps `pre` and its own, the listing `i` comes to the dataset and cannot open it, or opens it and at its
next step cannot read what it has open. -/
def FailsToRead (pre post : List ι) (i : ι) (fileInfo : FileInfo) (e : Status) : Prop :=
  ∃ mid post', post = mid ++ i :: post' ∧
    match (run pq port root request (pre ++ i :: mid)).shared.openReadableInfo fileInfo with
    | .error e' => e' = e
    | .ok input => ∃ mid' post'', post' = mid' ++ i :: post'' ∧ i ∉ mid' ∧
        inspect pq port fileInfo input ((run pq port root request (pre ++ i :: (mid ++ i :: mid'))).shared.bytesOf input) =
          .error e

variable (pq port root request) in
/-- A listing that is answered so has read these datasets, and not those, since the first steps `pre` of the schedule: all
of them, or those up to the one that it fails at. -/
def ListingEnds (pre post : List ι) (i : ι) (read unread : List FileInfo) : Result (List (FlightInfo Schema)) → Prop
  | .ok flights => unread = [] ∧ flights.map FlightInfo.descriptor = read.map fun x => .ofPath [x.baseName]
  | .error e => ∃ done last, read = done ++ [last] ∧ FailsToRead pq port root request pre post i last e

variable (pq port server root request) in
/-- Where a listing can stand that has exported the spans. -/
def ListedAt (sched : List ι) (i : ι) (readdir : Enumeration (Bytes × Node)) (spans : List Span) : Task Schema Row → Prop
  | .listFlights readdir' => readdir' = readdir ∧ spans = []
  | .listing rest found => ∃ pre post read, sched = pre ++ i :: post ∧
      datasets readdir (run pq port root request pre).shared = read ++ rest.filter isDataset ∧ spans = read.map infoSpan ∧
      found.map FlightInfo.descriptor = read.map fun x => .ofPath [x.baseName]
  | .listingFile fileInfo input rest found => ∃ pre mid mid' read, sched = pre ++ i :: (mid ++ i :: mid') ∧ i ∉ mid' ∧
      (run pq port root request (pre ++ i :: mid)).shared.openReadableInfo fileInfo = .ok input ∧
      datasets readdir (run pq port root request pre).shared = read ++ fileInfo :: rest.filter isDataset ∧
      spans = read.map infoSpan ∧ found.map FlightInfo.descriptor = read.map fun x => .ofPath [x.baseName]
  | .flights result => ∃ pre post read unread, sched = pre ++ i :: post ∧
      datasets readdir (run pq port root request pre).shared = read ++ unread ∧ spans = read.map infoSpan ++ server.ends ∧
      ListingEnds pq port root request pre post i read unread result
  | _ => False

variable {readdir : Enumeration (Bytes × Node)} {spans : List Span}

theorem ListingEnds.append {pre post : List ι} {i : ι} {read unread : List FileInfo}
    {result : Result (List (FlightInfo Schema))} (h : ListingEnds pq port root request pre post i read unread result) (j : ι) :
    ListingEnds pq port root request pre (post ++ [j]) i read unread result := by
  cases result with
  | ok flights => exact h
  | error e =>
    obtain ⟨done, last, hread, mid, post', rfl, hfails⟩ := h
    refine ⟨done, last, hread, mid, post' ++ [j], by simp, ?_⟩
    split
    · rename_i e' ho
      rwa [ho] at hfails
    · rename_i input ho
      rw [ho] at hfails
      obtain ⟨mid', post'', rfl, hrest⟩ := hfails
      exact ⟨mid', post'' ++ [j], by simp, hrest⟩

/-- **A step of another request** leaves a listing where it stands. -/
theorem ListedAt.other {sched : List ι} {i : ι} {t : Task Schema Row}
    (h : ListedAt pq port server root request sched i readdir spans t) {j : ι} (hj : j ≠ i) :
    ListedAt pq port server root request (sched ++ [j]) i readdir spans t := by
  cases t with
  | listFlights readdir' => exact h
  | listing rest found =>
    obtain ⟨pre, post, read, rfl, hrest⟩ := h
    exact ⟨pre, post ++ [j], read, by simp, hrest⟩
  | listingFile fileInfo input rest found =>
    obtain ⟨pre, mid, mid', read, rfl, hmid, hrest⟩ := h
    refine ⟨pre, mid, mid' ++ [j], read, by simp, ?_, hrest⟩
    simpa [Ne.symm hj] using hmid
  | flights result =>
    obtain ⟨pre, post, read, unread, rfl, hread, hspans, hends⟩ := h
    exact ⟨pre, post ++ [j], read, unread, by simp, hread, hspans, hends.append j⟩
  | _ => exact h.elim

/-- **A step of a listing**: it exports the span of the dataset it reads, when it has read it or fails to open it. -/
theorem ListedAt.step {sched : List ι} {i : ι} {t : Task Schema Row}
    (h : ListedAt pq port server root request sched i readdir spans t) :
    ListedAt pq port server root request (sched ++ [i]) i readdir
      (spans ++ exports pq port numColumns server (run pq port root request sched).shared t)
      (t.step pq port (run pq port root request sched).shared).2 := by
  cases t with
  | listFlights readdir' =>
    obtain ⟨rfl, rfl⟩ := h
    exact ⟨sched, [], [], rfl, rfl, rfl, rfl⟩
  | listing rest found =>
    obtain ⟨pre, post, read, rfl, hread, rfl, hfound⟩ := h
    cases rest with
    | nil =>
      refine ⟨pre, post ++ [i], read, [], by simp, hread, ?_, rfl, hfound⟩
      rw [exports, inListFlights_spans]
      rfl
    | cons fileInfo rest =>
      rw [exports_listing, Task.step_listing]
      split
      · rename_i hd
        rw [List.filter_cons_of_pos hd] at hread
        cases ho : (run pq port root request (pre ++ i :: post)).shared.openReadableInfo fileInfo with
        | error e =>
          -- the span is exported all the same, and the rest of the directory is never read
          rw [List.append_cons] at hread
          refine ⟨pre, post ++ [i], read ++ [fileInfo], rest.filter isDataset, by simp, hread, by simp, read, fileInfo, rfl,
            post, [], rfl, ?_⟩
          rw [ho]
        | ok input => exact ⟨pre, post, [], read, by simp, by simp, ho, hread, List.append_nil _, hfound⟩
      · rename_i hd
        rw [List.filter_cons_of_neg hd] at hread
        exact ⟨pre, post ++ [i], read, by simp, hread, List.append_nil _, hfound⟩
  | listingFile fileInfo input rest found =>
    obtain ⟨pre, mid, mid', read, rfl, hmid, ho, hread, rfl, hfound⟩ := h
    rw [List.append_cons] at hread
    rw [exports_listingFile]
    simp only [Task.step]
    cases hi : inspect pq port fileInfo input
      ((run pq port root request (pre ++ i :: (mid ++ i :: mid'))).shared.bytesOf input) with
    | error e =>
      refine ⟨pre, mid ++ i :: (mid' ++ [i]), read ++ [fileInfo], rest.filter isDataset, by simp, hread, by simp, read, fileInfo,
        rfl, mid, mid' ++ [i], by simp, ?_⟩
      rw [ho]
      exact ⟨mid', [], rfl, hmid, hi⟩
    | ok info =>
      refine ⟨pre, mid ++ i :: (mid' ++ [i]), read ++ [fileInfo], by simp, hread, by simp, ?_⟩
      rw [List.map_append, hfound, List.map_append]
      exact congrArg _ (congrArg (fun d => [d]) (FlightStressTestServer.descriptor_of_inspect hi))
  | flights result =>
    obtain ⟨pre, post, read, unread, rfl, hread, hspans, hends⟩ := h
    refine ⟨pre, post ++ [i], read, unread, by simp, hread, ?_, hends.append i⟩
    rw [hspans]
    exact List.append_nil _
  | _ => exact h.elim

/-- **The spans of a listing name what it has read**: the datasets that the directory had at one moment, in the order they
came in, up to the first that could not be read when its turn came, or all of them. -/
theorem listing_names_what_it_read (request : ι → Request Schema Row) (sched : List ι) {i : ι}
    (hi : request i = .listFlights readdir) {result : Result (List (FlightInfo Schema))}
    (h : (run pq port root request sched).task i = .flights result) : ∃ pre post read unread, sched = pre ++ i :: post ∧
      datasets readdir (run pq port root request pre).shared = read ++ unread ∧
      exported pq port numColumns server root request sched i = read.map infoSpan ++ server.ends ∧
      ListingEnds pq port root request pre post i read unread result := by
  have hat : ListedAt pq port server root request sched i readdir
      (exported pq port numColumns server root request sched i) ((run pq port root request sched).task i) := by
    refine Pool.output_induction _ (P := fun sched => ListedAt pq port server root request sched i readdir) ?_
      (fun _ _ hat => hat.step) (fun _ _ _ j hj hat => hat.other hj) sched
    show ListedAt pq port server root request [] i readdir [] (request i).task
    rw [hi]
    exact ⟨rfl, rfl⟩
  rw [h] at hat
  exact hat

/-! ## What an upload's spans are good for -/

/-- **An upload that has exported how many bytes it wrote outlives the server**: one that is started after a crash answers
with the rows, columns and bytes of the spans, and with the table. -/
theorem restart_answers_as_traced (request : ι → Request Schema Row) (sched : List ι) {i : ι} {u : Upload Schema Row}
    {cut : Chunking} (hi : request i = .doPut u cut)
    (hone : ∀ j, j ≠ i → (request j).IsUpload → (request j).target root ≠ (request i).target root)
    {rows columns bytes : Int} (hspans : exported pq port numColumns server root request sched i =
      [⟨"Reading table", [("num_rows", .int rows), ("num_columns", .int columns)]⟩,
        ⟨"Writing table", [("bytes_written", .int bytes)]⟩])
    {fs : SubTreeFileSystem} (hserve : AfterCrash.serve (run pq port root request sched).shared.tree root.base = .ok fs)
    (nextPort : Nat) : ∃ s info stream, nameOf u.reader.descriptor = some s ∧
      DatasetServer.getFlightInfo pq nextPort fs u.reader.descriptor = .ok info ∧ info.totalRecords = rows ∧
      numColumns info.schema = columns ∧ info.totalBytes = bytes ∧ DatasetServer.doGet pq fs ⟨s⟩ = .ok stream ∧
      stream.readAll = u.reader.table := by
  obtain rfl := AfterCrash.eq_of_serve hserve
  have hat : TracedAt pq port numColumns server root (request i) (exported pq port numColumns server root request sched i)
      ((run pq port root request sched).task i) :=
    tracedAt_run sched fun readdir hr => by cases hi.symm.trans hr
  rw [hi] at hat
  obtain ⟨heq, hended⟩ := hat.ended (congrArg List.length hspans)
  cases hsink : sinkPath root u.reader.descriptor with
  | none =>
    rw [doPut_spans_of_sinkPath_none hsink, hspans] at heq
    cases heq
  | some p =>
    rw [doPut_spans_of_sinkPath hsink, hspans] at heq
    obtain ⟨hcompletes, rfl, rfl, rfl⟩ := completes_of_uploadSpans heq.symm
    obtain ⟨s, hn, hp⟩ := Option.bind_eq_some_iff.1 hsink
    obtain ⟨-, hresolve, hdir⟩ := SubTreeFileSystem.outputPath_eq_some.1 hp
    rw [SubTreeFileSystem.resolve_removeLeadingSlash] at hresolve
    have htarget : (request i).target root = some p := by
      rw [hi]
      exact RequestsApart.target_of_resolve hn hresolve
    obtain ⟨s', hupload⟩ := AfterCrash.uploadAt_run pq port hi htarget (htarget ▸ hone) hdir sched
    have hheld := hended hupload
    rw [FlightStressTestServer.leaves_of_completes hcompletes] at hheld
    have hnode := (RequestsApart.nodeAt_of_resolve (RequestsApart.sameDirs_run request sched) hresolve).trans hheld
    have hget := DatasetServer.doGet_of_file pq hnode
    rw [pq.readFile_encode] at hget
    obtain ⟨stream, hstream, hread⟩ := Option.map_eq_some_iff.1 hget
    refine ⟨s, _, stream, hn, (DatasetServer.getFlightInfo_ok_iff hn).2 ⟨_, _, hnode, pq.openFile_encode _, rfl⟩, ?_, rfl,
      rfl, ?_, hread⟩
    · exact congrArg Int.ofNat (pq.encodedMetaData_numRows u.reader.table)
    · cases hd : DatasetServer.doGet pq (run pq port root request sched).shared ⟨s⟩ with
      | error e =>
        rw [hd] at hstream
        cases hstream
      | ok stream' =>
        rw [hd] at hstream
        exact congrArg Except.ok (Option.some.inj hstream)

end Run

/-! ## Two uploads, and a listing that fails -/

theorem exported_of_answered_twoUploads :
    exported tinyParquet 5000 (fun _ => 1) .FlightStressTestServer .bare RequestsApart.twoUploads
        (List.replicate 7 [false, true]).flatten false =
      Request.spans tinyParquet 5000 (fun _ => 1) .FlightStressTestServer .bare (RequestsApart.twoUploads false) :=
  exported_of_answered RequestsApart.twoUploads _ (fun _ h => by cases h) trivial

theorem listing_names_what_it_read_emptied : ∃ pre post read unread, [(), (), ()] = pre ++ () :: post ∧
    datasets (.chosen _) (run tinyParquet 5000 AfterCrash.emptied (AfterCrash.listingOnly (.chosen _)) pre).shared =
      read ++ unread ∧
    exported tinyParquet 5000 (fun _ => 1) .DistributedFlightDataServer AfterCrash.emptied
      (AfterCrash.listingOnly (.chosen _)) [(), (), ()] () = read.map infoSpan ++ Server.DistributedFlightDataServer.ends ∧
    ListingEnds tinyParquet 5000 AfterCrash.emptied (AfterCrash.listingOnly (.chosen _)) pre post () read unread
      (.error (.IOError .parquet)) :=
  listing_names_what_it_read (AfterCrash.listingOnly (.chosen _)) [(), (), ()] rfl AfterCrash.listing_emptied

/-- A table of one row and one column in four bytes. -/
theorem exported_twoUploads :
    exported tinyParquet 5000 (fun _ => 1) .FlightStressTestServer .bare RequestsApart.twoUploads
        (List.replicate 7 [false, true]).flatten false =
      [⟨"Reading table", [("num_rows", .int 1), ("num_columns", .int 1)]⟩,
        ⟨"Writing table", [("bytes_written", .int 4)]⟩] := by decide +kernel

theorem restart_answers_as_traced_twoUploads : ∃ s info stream,
    nameOf (.ofPath [utf8 "a.parquet"]) = some s ∧
      DatasetServer.getFlightInfo tinyParquet 5001
        (run tinyParquet 5000 .bare RequestsApart.twoUploads (List.replicate 7 [false, true]).flatten).shared
        (.ofPath [utf8 "a.parquet"]) = .ok info ∧ info.totalRecords = 1 ∧ (1 : Nat) = (1 : Int) ∧ info.totalBytes = 4 ∧
      DatasetServer.doGet tinyParquet
        (run tinyParquet 5000 .bare RequestsApart.twoUploads (List.replicate 7 [false, true]).flatten).shared ⟨s⟩ = .ok stream ∧
      stream.readAll = ⟨(), [7]⟩ := by
  have hone : ∀ j, j ≠ false → (RequestsApart.twoUploads j).IsUpload →
      (RequestsApart.twoUploads j).target .bare ≠ (RequestsApart.twoUploads false).target .bare := fun j hj _ => by
    cases j with
    | false => exact absurd rfl hj
    | true => decide
  exact restart_answers_as_traced RequestsApart.twoUploads (List.replicate 7 [false, true]).flatten (i := false)
    (u := .ofTable (.ofPath [utf8 "a.parquet"]) ⟨(), [7]⟩) rfl hone exported_twoUploads (AfterCrash.serve_tree _) 5001

end HandlerSpans
