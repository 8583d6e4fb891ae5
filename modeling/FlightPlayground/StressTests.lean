import FlightPlayground.SimulatedClients
import FlightPlayground.StressClients
/-!
# StressTests — the clients of both stress tests, at one server

Every client of `test_do_put` uploads one and the same table to one and the same name, time after time; a client of
`test_get_flight_info` asks for another name.  However the server interleaves their requests no upload is refused, and
once none is under way the name holds the table.
-/
namespace StressTests

open Posix (Bytes Node NodePath FileTree utf8)
open Arrow
open Flight
open Calls
open FlightStressTestServer
open StorageServiceClient (Answer)
open SimulatedClients (server)

variable {Schema Row ι : Type} (pq : Parquet Schema Row) (port : Nat)

def streamed : Bytes := utf8 "streamed.parquet"

def inquired : Bytes := utf8 "test.parquet"

/-- An upload of the test's data, which neither breaks off nor fails to be written. -/
def uploadOf (data : FlightDataStream Schema Row) : Upload Schema Row :=
  ⟨⟨.ofPath [streamed], data.schema, data.batches, none⟩, none⟩

/-- A client of a test and its requests; the bytes of each upload are written in pieces. -/
inductive Client
  | doPut (requests : List Chunking)
  | getFlightInfo (nRequests : Nat)

namespace Client

/-- `do_put`: an exception ends it. -/
def runDoPut (data : FlightDataStream Schema Row) :
    List Chunking → Program (Request Schema Row) Answer Empty (Except Status (Option Unit))
  | [] => .pure (.ok (some ()))
  | cut :: requests => .call (.doPut (uploadOf data) cut) fun
    | .ok _ => runDoPut data requests
    | .error e => .pure (.error e)

/-- `get_flight_info`, without a timeout: an exception but the one for a missing file has it return `None`. -/
def runGetFlightInfo (str : Status → String) :
    Nat → Program (Request Schema Row) Answer Empty (Except Status (Option Unit))
  | 0 => .pure (.ok (some ()))
  | nRequests + 1 => .call (.getFlightInfo (.ofPath [inquired])) fun
    | .ok _ => runGetFlightInfo str nRequests
    | .error e => if StressClients.ignored (str e) then runGetFlightInfo str nRequests else .pure (.ok none)

def program (data : FlightDataStream Schema Row) (str : Status → String) :
    Client → Program (Request Schema Row) Answer Empty (Except Status (Option Unit))
  | doPut requests => runDoPut data requests
  | getFlightInfo nRequests => runGetFlightInfo str nRequests

/-- What the client returns, on a store where its requests are answered as they are on `root`. -/
def returns (root : SubTreeFileSystem) (str : Status → String) : Client → Except Status (Option Unit)
  | doPut _ => .ok (some ())
  | getFlightInfo nRequests =>
    match FlightStressTestServer.getFlightInfo pq port root (.ofPath [inquired]) with
    | .ok _ => .ok (some ())
    | .error e => if nRequests = 0 ∨ StressClients.ignored (str e) then .ok (some ()) else .ok none

end Client

/-! ## The store -/

def file (root : SubTreeFileSystem) : NodePath := streamed :: root.base

/-- The streamed file aside, the store is as it was. -/
structure Kept (root s : SubTreeFileSystem) : Prop where
  dirs : root.SameDirs s
  node : ∀ p, p ≠ file root → s.tree.node p = root.tree.node p

/-! ## Where a call stands -/

/-- The upload has not failed. -/
def Succeeds : Task Schema Row → Prop
  | .writing _ _ result => result = .ok ()
  | .closing result => result = .ok ()
  | .put result => result = .ok ()
  | _ => True

/-- Where an inquiry can stand. -/
def InquiresAt (root : SubTreeFileSystem) : Task Schema Row → Prop
  | .getFlightInfo descriptor => descriptor = .ofPath [inquired]
  | .inspecting fileInfo => fileInfo = .ofNode inquired (root.tree.node (inquired :: root.base))
  | .inspectingFile fileInfo input => fileInfo = .ofNode inquired (root.tree.node (inquired :: root.base)) ∧
      root.openReadableInfo fileInfo = .ok input
  | .info result => result = FlightStressTestServer.getFlightInfo pq port root (.ofPath [inquired])
  | _ => False

/-- Where a call can stand. -/
def CallAt (root : SubTreeFileSystem) (data : FlightDataStream Schema Row) (r : Request Schema Row) (t : Task Schema Row) :
    Prop :=
  match r with
  | .doPut _ _ => PutAt pq root streamed (uploadOf data) t ∧ Succeeds t
  | .getFlightInfo descriptor => descriptor = .ofPath [inquired] ∧ InquiresAt pq port root t
  | _ => False

/-- The requests of the tests, and their answers. -/
def protocol (root : SubTreeFileSystem) (data : FlightDataStream Schema Row) : Protocol Unit (Request Schema Row) Answer where
  allowed _
    | .doPut u _ => u = uploadOf data
    | .getFlightInfo descriptor => descriptor = .ofPath [inquired]
    | _ => False
  answers _
    | .doPut _ _, result, _ => result = .ok ()
    | .getFlightInfo _, result, _ => result = FlightStressTestServer.getFlightInfo pq port root (.ofPath [inquired])
    | _, _, _ => False
  cost r := r.task.steps pq 0

section Steps

variable {pq port} {root s : SubTreeFileSystem} {data : FlightDataStream Schema Row} {r : Request Schema Row}
  {t : Task Schema Row}

theorem validName_streamed : Posix.ValidName streamed := by decide

theorem validName_inquired : Posix.ValidName inquired := by decide

theorem inquired_ne : inquired :: root.base ≠ file root := fun h => absurd (List.head_eq_of_cons_eq h) (by decide)

theorem removeLeadingSlash_streamed : Posix.removeLeadingSlash streamed = streamed :=
  Posix.removeLeadingSlash_of_valid validName_streamed

theorem completes_uploadOf : (uploadOf data).Completes := ⟨rfl, rfl⟩

theorem uploadBytes_uploadOf : uploadBytes pq (uploadOf data) = pq.encode data.readAll := rfl

variable (port) in
/-- **A step of an upload** leaves it where it can stand. -/
theorem putAt_step (hs : root.SameDirs s) (h : PutAt pq root streamed (uploadOf data) t) :
    PutAt pq root streamed (uploadOf data) (t.step pq port s).2 ∧
      PutStep pq root s streamed (uploadOf data) t (t.step pq port s) := by
  have hstep := PutAt.step port (s := streamed) (u := uploadOf data) rfl hs (by rwa [removeLeadingSlash_streamed])
  rwa [removeLeadingSlash_streamed] at hstep

theorem Succeeds.step (hs : root.SameDirs s) (hfresh : root.tree.node (file root) ≠ some .dir)
    (hat : PutAt pq root streamed (uploadOf data) t) (h : Succeeds t) : Succeeds (t.step pq port s).2 := by
  cases t with
  | doPut u cut =>
    obtain rfl := hat
    have hf := DatasetServer.fileInfoFromDescriptor_of_name s (DatasetServer.nameOf_ofPath streamed)
    simp only [Task.step, uploadOf, hf]
    trivial
  | opening fileInfo u cut =>
    obtain ⟨rfl, hpath⟩ := hat
    have hp : s.outputPath streamed = some (file root) :=
      (hs.outputPath _).trans (SubTreeFileSystem.outputPath_of_valid validName_streamed hfresh)
    simp only [Task.step, hpath, SubTreeFileSystem.openOutputStream_of_some hp]
    trivial
  | receiving sink batches u cut =>
    obtain ⟨rfl, -⟩ := hat
    cases batches with
    | cons batch batches => trivial
    | nil => rfl
  | writing sink pieces result => cases pieces <;> exact h
  | closing result => exact h
  | put result => exact h
  | _ => exact hat.elim

/-- **A step of an inquiry** is the step it would take on the store at the start. -/
theorem InquiresAt.step (hs : Kept root s) (h : InquiresAt pq port root t) : InquiresAt pq port root (t.step pq port s).2 := by
  have hnode : s.nodeAt inquired = root.tree.node (inquired :: root.base) := by
    rw [SubTreeFileSystem.nodeAt_of_valid validName_inquired, hs.dirs.base]
    exact hs.node _ inquired_ne
  have hinfo : DatasetServer.getFlightInfo pq port root (.ofPath [inquired]) =
      DatasetServer.makeFlightInfo pq port root (.ofNode inquired (root.tree.node (inquired :: root.base))) := by
    rw [DatasetServer.getFlightInfo_of_name (DatasetServer.nameOf_ofPath inquired),
      Posix.removeLeadingSlash_of_valid validName_inquired, SubTreeFileSystem.nodeAt_of_valid validName_inquired]
  rw [makeFlightInfo_eq] at hinfo
  have hresolve : root.resolve inquired = .ok (inquired :: root.base) := SubTreeFileSystem.resolve_of_valid validName_inquired
  have hopen : s.openReadable inquired = root.openReadable inquired :=
    SubTreeFileSystem.openReadable_congr (hs.dirs.resolve_ok.2 hresolve) hresolve (hs.node _ inquired_ne)
  cases t with
  | getFlightInfo descriptor =>
    obtain rfl := h
    have hf := DatasetServer.fileInfoFromDescriptor_of_name s (DatasetServer.nameOf_ofPath inquired)
    rw [Posix.removeLeadingSlash_of_valid validName_inquired, hnode] at hf
    simp only [Task.step, hf]
    rfl
  | inspecting fileInfo =>
    obtain rfl := h
    have hopen' : s.openReadableInfo (.ofNode inquired (root.tree.node (inquired :: root.base))) =
        root.openReadableInfo (.ofNode inquired (root.tree.node (inquired :: root.base))) := by
      unfold SubTreeFileSystem.openReadableInfo
      rw [FileInfo.ofNode_path, hopen]
    simp only [Task.step, hopen']
    cases ho : root.openReadableInfo (.ofNode inquired (root.tree.node (inquired :: root.base))) with
    | error e =>
      rw [ho] at hinfo
      exact hinfo.symm
    | ok input => exact ⟨rfl, ho⟩
  | inspectingFile fileInfo input =>
    obtain ⟨rfl, ho⟩ := h
    have hread := SubTreeFileSystem.openReadable_of_openReadableInfo ho
    rw [FileInfo.ofNode_path] at hread
    have hpath : inquired :: root.base = input.path :=
      Except.ok.inj (hresolve.symm.trans (SubTreeFileSystem.file_of_openReadable hread).1)
    have hbytes : s.bytesOf input = root.bytesOf input :=
      SubTreeFileSystem.bytesOf_congr (hpath ▸ hs.node _ inquired_ne)
    rw [ho] at hinfo
    simp only [Task.step, hbytes]
    exact hinfo.symm
  | info result => exact h
  | _ => exact h.elim

theorem InquiresAt.not_writesTo (h : InquiresAt pq port root t) {p : NodePath} : ¬ t.WritesTo s p := by
  cases t with
  | opening => exact h.elim
  | writing => exact h.elim
  | _ => exact id

theorem InquiresAt.written (h : InquiresAt pq port root t) (bytes : Bytes) : t.written bytes = bytes.length := by
  cases t with
  | receiving => exact h.elim
  | writing => exact h.elim
  | _ => rfl

theorem PutAt.writesTo (hs : root.SameDirs s) (h : PutAt pq root streamed (uploadOf data) t) {p : NodePath}
    (hw : t.WritesTo s p) : p = file root := by
  cases t with
  | opening fileInfo u cut =>
    have hr : s.resolve fileInfo.path = .ok p := hw
    rw [h.2, SubTreeFileSystem.resolve_of_valid validName_streamed, hs.base] at hr
    exact (Except.ok.inj hr).symm
  | writing sink pieces result =>
    cases pieces with
    | nil => exact hw.elim
    | cons piece pieces =>
      obtain ⟨-, hr, -⟩ := SubTreeFileSystem.outputPath_eq_some.1 h.1
      rw [SubTreeFileSystem.resolve_of_valid validName_streamed] at hr
      exact hw.symm.trans (Except.ok.inj hr).symm
  | _ => exact hw.elim

theorem CallAt.writesTo (hs : root.SameDirs s) (h : CallAt pq port root data r t) {p : NodePath} (hw : t.WritesTo s p) :
    p = file root := by
  cases r with
  | doPut u cut => exact PutAt.writesTo hs h.1 hw
  | getFlightInfo descriptor => exact absurd hw (InquiresAt.not_writesTo h.2)
  | _ => exact h.elim

/-- **Whatever step is taken, the streamed file aside the store is as it was.** -/
theorem Kept.step (hs : Kept root s) (h : CallAt pq port root data r t) : Kept root (t.step pq port s).1 where
  dirs := Task.sameDirs_step hs.dirs t
  node p hp := (Task.node_step fun hw => hp (h.writesTo hs.dirs hw)).trans (hs.node p hp)

theorem CallAt.step (hs : Kept root s) (hfresh : root.tree.node (file root) ≠ some .dir)
    (h : CallAt pq port root data r t) : CallAt pq port root data r (t.step pq port s).2 := by
  cases r with
  | doPut u cut => exact ⟨(putAt_step port hs.dirs h.1).1, h.2.step hs.dirs hfresh h.1⟩
  | getFlightInfo descriptor => exact ⟨h.1, InquiresAt.step hs h.2⟩
  | _ => exact h.elim

end Steps

/-! ## What a client can count on -/

section Contract

variable {pq port} {root s : SubTreeFileSystem} {data : FlightDataStream Schema Row} {r : Request Schema Row}
  {t : Task Schema Row}

theorem CallAt.not_answered (h : CallAt pq port root data r t) (ha : (server pq port).answer r t = none) : ¬ t.Answered := by
  intro hans
  cases r with
  | doPut u cut =>
    cases t with
    | put result => cases ha
    | flights => exact h.1.elim
    | info => exact h.1.elim
    | stream => exact h.1.elim
    | _ => exact hans
  | getFlightInfo descriptor =>
    cases t with
    | info result => cases ha
    | flights => exact h.2.elim
    | put => exact h.2.elim
    | stream => exact h.2.elim
    | _ => exact hans
  | _ => exact h.elim

theorem CallAt.not_listFlights (h : CallAt pq port root data r t) {readdir} : t ≠ .listFlights readdir := by
  rintro rfl
  cases r with
  | doPut u cut => exact h.1.elim
  | getFlightInfo descriptor => exact h.2.elim
  | _ => exact h.elim

variable (pq port data) in
/-- **The server keeps to the protocol with every client.** -/
def contract (hfresh : root.tree.node (file root) ≠ some .dir) :
    Contract (server pq port) fun _ : ι => protocol pq port root data where
  Idle _ _ s := Kept root s
  At _ _ r s t := Kept root s ∧ CallAt pq port root data r t
  remaining := Task.steps pq 0
  accept {i g r s} hidle hr := by
    refine ⟨⟨hidle, ?_⟩, Nat.le_refl _⟩
    cases r with
    | doPut u cut => exact ⟨hr, trivial⟩
    | getFlightInfo descriptor => exact ⟨hr, hr⟩
    | _ => exact hr.elim
  step hat ha := ⟨⟨hat.1.step hat.2, hat.2.step hat.1 hfresh⟩,
    Task.steps_step port (fun _ ht => absurd ht hat.2.not_listFlights) (hat.2.not_answered ha)⟩
  answer {i g r s t a} hat ha := by
    refine ⟨(), ?_, hat.1⟩
    have hcall := hat.2
    cases r with
    | doPut u cut =>
      cases t with
      | put result =>
        obtain rfl := Option.some.inj ha
        exact hcall.2
      | _ => cases ha
    | getFlightInfo descriptor =>
      cases t with
      | info result =>
        obtain rfl := Option.some.inj ha
        exact hcall.2
      | _ => cases ha
    | _ => exact hcall.elim
  idle_frame _ hidle hat := hidle.step hat.2
  at_frame _ hat hat' := ⟨hat.1.step hat'.2, hat.2⟩

end Contract

/-! ## What a client does -/

namespace Client

variable {pq port} {root : SubTreeFileSystem} {data : FlightDataStream Schema Row} {str : Status → String}

/-- How many steps of its requests it takes a client to return, at most. -/
def patience (pq : Parquet Schema Row) (data : FlightDataStream Schema Row) : Client → Nat
  | doPut requests => (requests.map fun cut => (Request.doPut (uploadOf data) cut).task.steps pq 0 + 1).sum
  | getFlightInfo nRequests => 4 * nRequests

theorem safe_runDoPut : ∀ requests : List Chunking,
    Safe (protocol pq port root data) (fun x _ => x = .ok (some ())) (runDoPut data requests)
      (patience pq data (doPut requests)) ()
  | [] => rfl
  | cut :: requests => by
    refine ⟨rfl, patience pq data (doPut requests), by simp [patience, protocol]; omega, ?_⟩
    rintro _ ⟨⟩ rfl
    exact safe_runDoPut requests

theorem safe_runGetFlightInfo : ∀ nRequests : Nat,
    Safe (protocol pq port root data) (fun x _ => x = returns pq port root str (getFlightInfo nRequests))
      (runGetFlightInfo str nRequests) (patience pq data (getFlightInfo nRequests)) ()
  | 0 => by
    simp only [runGetFlightInfo, Safe, returns]
    split <;> simp
  | nRequests + 1 => by
    refine ⟨rfl, patience pq data (getFlightInfo nRequests), ?_, ?_⟩
    · simp [patience, protocol, Request.task, Task.steps, Task.remaining]
      omega
    rintro a ⟨⟩ rfl
    have hrest := safe_runGetFlightInfo nRequests
    unfold returns at hrest ⊢
    cases hinfo : FlightStressTestServer.getFlightInfo pq port root (.ofPath [inquired]) with
    | ok info =>
      rw [hinfo] at hrest
      exact hrest
    | error e =>
      rw [hinfo] at hrest
      by_cases hi : StressClients.ignored (str e)
      · simp only [hi, or_true, if_true] at hrest ⊢
        exact hrest
      · simp only [hi, or_false, if_false, Nat.succ_ne_zero]
        rfl

theorem safe_program (client : Client) :
    Safe (protocol pq port root data) (fun x _ => x = client.returns pq port root str) (client.program data str)
      (client.patience pq data) () := by
  cases client with
  | doPut requests => exact safe_runDoPut requests
  | getFlightInfo nRequests => exact safe_runGetFlightInfo nRequests

end Client

/-! ## All clients -/

/-- A client's calls, as a thread of the server. -/
abbrev ClientThread (Schema Row : Type) : Type :=
  Thread (Request Schema Row) Answer Empty (Task Schema Row) (Except Status (Option Unit))

abbrev Clients (ι Schema Row : Type) : Type := Interleave.Pool ι SubTreeFileSystem (ClientThread Schema Row)

/-- What the client has just been answered, if it has: an upload that it is OK, and an inquiry what it is told at the start. -/
def AnsweredAsAtStart (root : SubTreeFileSystem) : ClientThread Schema Row → Prop
  | .waiting (.doPut _ _) t _ => ∀ result, t = .put result → result = .ok ()
  | .waiting (.getFlightInfo descriptor) t _ => descriptor = .ofPath [inquired] ∧
      ∀ result, t = .info result → result = FlightStressTestServer.getFlightInfo pq port root (.ofPath [inquired])
  | .waiting _ _ _ => False
  | .returned _ => True

variable {pq port} in
theorem CallAt.answeredAsAtStart {root : SubTreeFileSystem} {data : FlightDataStream Schema Row} {r : Request Schema Row}
    {t : Task Schema Row} (h : CallAt pq port root data r t)
    (next : Answer r → Program (Request Schema Row) Answer Empty (Except Status (Option Unit))) :
    AnsweredAsAtStart pq port root (.waiting r t next) := by
  cases r with
  | doPut u cut =>
    rintro result rfl
    exact h.2
  | getFlightInfo descriptor =>
    refine ⟨h.1, ?_⟩
    rintro result rfl
    exact h.2
  | _ => exact h.elim

section Run

variable (root : SubTreeFileSystem) (data : FlightDataStream Schema Row) (str : Status → String) (client : ι → Client)

/-- Every client at its first request. -/
def start : Clients ι Schema Row := ⟨root, fun i => .ofProgram (server pq port) ((client i).program data str)⟩

/-- The calls of every client stand where they may, and every client that has returned has returned what it should. -/
def Good (hfresh : root.tree.node (file root) ≠ some .dir) (c : Clients ι Schema Row) : Prop :=
  ∀ i, (contract pq port data hfresh).Good (fun i x _ => x = (client i).returns pq port root str)
    ((client i).patience pq data) i c.shared (c.task i)

theorem good_start (hfresh : root.tree.node (file root) ≠ some .dir) :
    Good pq port root data str client hfresh (start pq port root data str client) := fun i =>
  Contract.good_ofProgram (C := contract pq port data hfresh) ⟨.refl root, fun _ _ => rfl⟩ (Client.safe_program (client i))

variable [DecidableEq ι]

def run (sched : List ι) : Clients ι Schema Row := (start pq port root data str client).run (Thread.step (server pq port)) sched

/-- **However the requests of both tests are interleaved**, every client returns, once its requests have been served: no
upload is refused, every inquiry is answered as at the start, and the streamed file aside the store stays as it is. -/
theorem stress_tests_return (hfresh : root.tree.node (file root) ≠ some .dir) (sched : List ι) (i : ι) :
    (∀ result, (run pq port root data str client sched).task i = .returned result →
      result = (client i).returns pq port root str) ∧
    ((client i).patience pq data ≤ sched.count i → ∃ result, (run pq port root data str client sched).task i = .returned result) ∧
    AnsweredAsAtStart pq port root ((run pq port root data str client sched).task i) ∧
    ∀ p, p ≠ file root → (run pq port root data str client sched).shared.tree.node p = root.tree.node p := by
  have hgood := good_start pq port root data str client hfresh
  have hreturns := Contract.run_returns hgood sched i
  refine ⟨fun result hresult => ?_, hreturns.2, ?_⟩
  · obtain ⟨-, -, h⟩ := hreturns.1 result hresult
    exact h
  · have hrun := Contract.run_good sched hgood i
    unfold run
    generalize ((start pq port root data str client).run _ sched).task i = t at hrun
    cases t with
    | returned b =>
      obtain ⟨g, hkept, -⟩ := hrun
      exact ⟨trivial, Kept.node hkept⟩
    | waiting r t next =>
      obtain ⟨g, m, ⟨hkept, hcall⟩, -⟩ := hrun
      exact ⟨hcall.answeredAsAtStart next, hkept.node⟩

end Run

/-! ## The streamed file -/

/-- The thread has no upload that has opened its file. -/
def Closed : ClientThread Schema Row → Prop
  | .waiting (.doPut _ _) t _ => ¬ t.Opened
  | _ => True

/-- The thread waits for an upload. -/
def Uploads (thread : ClientThread Schema Row) : Prop := ∃ u cut t next, thread = .waiting (.doPut u cut) t next

/-- What a step of a client does to the streamed file: nothing, or an upload empties it, or it writes a piece of its bytes
where that piece belongs. -/
inductive FileStep (root fs : SubTreeFileSystem) (bytes : Bytes) (thread : ClientThread Schema Row) :
    SubTreeFileSystem × ClientThread Schema Row → Prop
  | idle {fs' thread'} (hnode : fs'.tree.node (file root) = fs.tree.node (file root))
      (hclosed : Closed thread → Closed thread') (huploads : Closed thread → Uploads thread → Uploads thread')
      (hwritten : ∀ t, thread.serving = some t → t.Opened → t.written bytes = bytes.length ∨
        ∃ t', thread'.serving = some t' ∧ t'.Opened ∧ t'.written bytes = t.written bytes) :
      FileStep root fs bytes thread (fs', thread')
  | opens {fs' thread' t'} (hnode : fs'.tree.node (file root) = some (.file [])) (hserving : thread'.serving = some t')
      (hopened : t'.Opened) (hwritten : t'.written bytes = 0) : FileStep root fs bytes thread (fs', thread')
  | writes {thread' t t' pos len} (hclosed : ¬ Closed thread) (hserving : thread.serving = some t)
      (hpos : t.written bytes = pos) (hserving' : thread'.serving = some t') (hopened : t'.Opened)
      (hwritten : t'.written bytes = pos + len) (hlen : pos + len ≤ bytes.length) :
      FileStep root fs bytes thread ((fs.write ⟨file root, pos⟩ ((bytes.drop pos).take len)).2, thread')

section File

variable {pq port} {root s : SubTreeFileSystem} {data : FlightDataStream Schema Row} {str : Status → String}
  {client : ι → Client} {hfresh : root.tree.node (file root) ≠ some .dir}

theorem closed_ofProgram (program : Program (Request Schema Row) Answer Empty (Except Status (Option Unit))) :
    Closed (.ofProgram (server pq port) program) := by
  induction program with
  | pure b => trivial
  | note e p ih => exact ih
  | call r next =>
    cases r with
    | doPut u cut => exact id
    | _ => trivial

theorem answered_written {r : Request Schema Row} {t : Task Schema Row} {a : Answer r}
    (ha : (server pq port).answer r t = some a) (bytes : Bytes) : t.Opened ∧ t.written bytes = bytes.length := by
  cases r <;> cases t <;> cases ha <;> exact ⟨trivial, rfl⟩

/-- **A step of a client is one of these.** -/
theorem fileStep {i : ι} {n : Nat} {post : ι → Except Status (Option Unit) → Unit → Prop} {thread : ClientThread Schema Row}
    (h : (contract pq port data hfresh).Good post n i s thread) :
    FileStep root s (pq.encode data.readAll) thread (thread.step (server pq port) s) := by
  cases thread with
  | returned b => exact .idle rfl id (fun _ => id) fun t ht => by cases ht
  | waiting r t next =>
    obtain ⟨-, -, ⟨hkept, hcall⟩, -⟩ := h
    cases ha : (server pq port).answer r t with
    | some a =>
      obtain ⟨hopened, hwritten⟩ := answered_written ha (pq.encode data.readAll)
      rw [Thread.step_of_answer _ ha]
      refine .idle rfl (fun _ => closed_ofProgram _) (fun hclosed hup => ?_) fun t' ht' _ => ?_
      · obtain ⟨u, cut, t', next', heq⟩ := hup
        cases heq
        exact absurd hopened hclosed
      · obtain rfl := Option.some.inj ht'
        exact .inl hwritten
    | none =>
      rw [Thread.step_of_none _ ha]
      cases r with
      | doPut u cut =>
        have hp : root.outputPath streamed = some (file root) :=
          SubTreeFileSystem.outputPath_of_valid validName_streamed hfresh
        obtain ⟨-, hstep⟩ := putAt_step port hkept.dirs hcall.1
        have hbytes : uploadBytes pq (uploadOf data) = pq.encode data.readAll := uploadBytes_uploadOf
        rw [← hbytes]
        show FileStep root s _ _ ((t.step pq port s).1, .waiting _ (t.step pq port s).2 next)
        generalize t.step pq port s = r at hstep
        cases hstep with
        | @idle t' hopens hunwritten hopened hfirst hwritten =>
          refine .idle rfl (fun hclosed ho => ?_) (fun _ _ => ⟨_, _, _, _, rfl⟩) fun t'' ht'' ho => ?_
          · rcases hfirst ho with ho | hnone
            · exact hclosed ho
            · cases hp.symm.trans hnone
          · obtain rfl := Option.some.inj ht''
            exact .inr ⟨t', rfl, hopened ho, hwritten ho completes_uploadOf⟩
        | @opens q t' hq hopens hopened hwritten =>
          obtain rfl : file root = q := Option.some.inj (hp.symm.trans hq)
          refine .opens ?_ rfl hopened hwritten
          have hhold := SubTreeFileSystem.canHoldFile_of_outputPath ((hkept.dirs.outputPath _).trans hp)
          rw [SubTreeFileSystem.setFile_tree, FileTree.node_setFile hhold, if_pos rfl]
        | @writes q pos piece t' hq hopens hopened hopened' hunwritten hpiece hpos hwritten hlen hdrop =>
          obtain rfl : file root = q := Option.some.inj (hp.symm.trans hq)
          rw [hdrop]
          refine .writes (fun hclosed => hclosed hopened) rfl hpos rfl hopened' ?_ hlen
          exact hwritten
      | getFlightInfo descriptor =>
        refine .idle (Task.node_step (InquiresAt.not_writesTo hcall.2)) (fun _ => trivial) (fun _ hup => ?_) fun t' ht' ho => ?_
        · obtain ⟨u, cut, t', next', heq⟩ := hup
          cases heq
        · obtain rfl := Option.some.inj ht'
          exact .inl (InquiresAt.written hcall.2 _)
      | _ => exact hcall.elim

/-- The streamed file holds what some upload has written of the bytes, perhaps with more of them after it. -/
def Filled (root : SubTreeFileSystem) (bytes : Bytes) (c : Clients ι Schema Row) : Prop :=
  ∃ held n, c.shared.tree.node (file root) = some (.file held) ∧ held.length ≤ bytes.length ∧ n ≤ bytes.length ∧
    (∀ k < n, held[k]? = bytes[k]?) ∧
    (n = bytes.length ∨ ∃ i t, (c.task i).serving = some t ∧ t.Opened ∧ t.written bytes = n)

/-- No upload has opened the streamed file. -/
structure Untouched (root : SubTreeFileSystem) (client : ι → Client) (c : Clients ι Schema Row) : Prop where
  node : c.shared.tree.node (file root) = root.tree.node (file root)
  closed : ∀ i, Closed (c.task i)
  uploads : ∀ i cut requests, client i = .doPut (cut :: requests) → Uploads (c.task i)

variable [DecidableEq ι] {bytes : Bytes} {c : Clients ι Schema Row} {i : ι}

theorem Untouched.step (h : Untouched root client c)
    (hstep : FileStep root c.shared bytes (c.task i) ((c.task i).step (server pq port) c.shared)) :
    Untouched root client (c.step (Thread.step (server pq port)) i) ∨
      Filled root bytes (c.step (Thread.step (server pq port)) i) := by
  generalize hr : (c.task i).step (server pq port) c.shared = r at hstep
  cases hstep with
  | idle hnode hclosed huploads _ =>
    refine .inl ⟨?_, Interleave.Pool.forall_task_step (Q := fun _ => Closed) _ c (fun j _ => h.closed j) ?_,
      Interleave.Pool.forall_task_step (Q := fun j thread => ∀ cut requests, client j = .doPut (cut :: requests) → Uploads thread)
        _ c (fun j _ => h.uploads j) fun cut requests hj => ?_⟩
    · rw [Interleave.Pool.step_shared, hr, hnode, h.node]
    · rw [hr]
      exact hclosed (h.closed i)
    · rw [hr]
      exact huploads (h.closed i) (h.uploads i cut requests hj)
  | opens hnode hserving hopened hwritten =>
    refine .inr ⟨[], 0, ?_, Nat.zero_le _, Nat.zero_le _, fun k hk => absurd hk (Nat.not_lt_zero k), .inr ⟨i, _, ?_, hopened,
      hwritten⟩⟩
    · rw [Interleave.Pool.step_shared, hr, hnode]
    · rw [Interleave.Pool.step_task_self, hr, hserving]
  | writes hclosed => exact absurd (h.closed i) hclosed

/-- **Whatever step a client takes, the streamed file is still filled.** -/
theorem Filled.step (h : Filled root bytes c)
    (hstep : FileStep root c.shared bytes (c.task i) ((c.task i).step (server pq port) c.shared)) :
    Filled root bytes (c.step (Thread.step (server pq port)) i) := by
  obtain ⟨held, n, hheld, hlen, hn, hagree, hwho⟩ := h
  generalize hr : (c.task i).step (server pq port) c.shared = r at hstep
  cases hstep with
  | idle hnode _ _ hwritten =>
    refine ⟨held, n, by rw [Interleave.Pool.step_shared, hr, hnode, hheld], hlen, hn, hagree, ?_⟩
    rcases hwho with rfl | ⟨j, t, hserving, hopened, rfl⟩
    · exact .inl rfl
    · by_cases hji : j = i
      · subst hji
        rcases hwritten t hserving hopened with hall | ⟨t', hserving', hopened', heq⟩
        · exact .inl hall
        · exact .inr ⟨j, t', by rw [Interleave.Pool.step_task_self, hr, hserving'], hopened', heq⟩
      · exact .inr ⟨j, t, by rw [Interleave.Pool.step_task_of_ne _ _ hji, hserving], hopened, rfl⟩
  | opens hnode hserving hopened hwritten =>
    refine ⟨[], 0, ?_, Nat.zero_le _, Nat.zero_le _, fun k hk => absurd hk (Nat.not_lt_zero k), .inr ⟨i, _, ?_, hopened,
      hwritten⟩⟩
    · rw [Interleave.Pool.step_shared, hr, hnode]
    · rw [Interleave.Pool.step_task_self, hr, hserving]
  | @writes thread' t t' pos len hclosed hserving hpos hserving' hopened hwritten hless =>
    have hpiece : ((bytes.drop pos).take len).length = len := by simp; omega
    have hfile : (c.step (Thread.step (server pq port)) i).shared.tree.node (file root) =
        some (.file (Posix.overlay held pos ((bytes.drop pos).take len))) := by
      rw [Interleave.Pool.step_shared, hr, SubTreeFileSystem.write_eq hheld, SubTreeFileSystem.setFile_tree,
        FileTree.node_setFile (FileTree.canHoldFile_of_file hheld), if_pos rfl]
    have hlen' := Posix.length_overlay_le hlen (hpiece.symm ▸ hless)
    -- what is left is whether the upload that writes is the one the bytes are counted by
    rcases hwho with rfl | ⟨j, tj, hj, hopenedj, rfl⟩
    · exact ⟨_, _, hfile, hlen', Nat.le_refl _, Posix.overlay_agree hagree hn hless, .inl rfl⟩
    · by_cases hji : j = i
      · subst hji
        obtain rfl := Option.some.inj (hserving.symm.trans hj)
        rw [hpos] at hagree
        exact ⟨_, pos + len, hfile, hlen', hless, Posix.overlay_extend hagree hless,
          .inr ⟨j, t', by rw [Interleave.Pool.step_task_self, hr, hserving'], hopened, hwritten⟩⟩
      · exact ⟨_, _, hfile, hlen', hn, Posix.overlay_agree hagree hn hless,
          .inr ⟨j, tj, by rw [Interleave.Pool.step_task_of_ne _ _ hji, hj], hopenedj, rfl⟩⟩

omit [DecidableEq ι] in
/-- **When no upload that has opened the file has anything left to write, a filled file is whole.** -/
theorem Filled.whole (hgood : Good pq port root data str client hfresh c) (h : Filled root (pq.encode data.readAll) c)
    (hquiet : ∀ i t, (c.task i).serving = some t → ¬ t.Unwritten) :
    c.shared.tree.node (file root) = some (.file (pq.encode data.readAll)) := by
  obtain ⟨held, n, hheld, hlen, hn, hagree, hwho⟩ := h
  have hall : n = (pq.encode data.readAll).length := by
    rcases hwho with hall | ⟨j, t, hserving, hopened, rfl⟩
    · exact hall
    · have hj := hgood j
      have hunwritten := hquiet j t hserving
      generalize c.task j = thread at hj hserving
      cases thread with
      | returned b => cases hserving
      | waiting r t' next =>
        obtain rfl := Option.some.inj hserving
        obtain ⟨g, m, ⟨-, hcall⟩, -⟩ := hj
        cases r with
        | doPut u cut => exact Nat.le_antisymm hn (PutAt.length_le_written hcall.1 hunwritten)
        | getFlightInfo descriptor => exact InquiresAt.written hcall.2 _
        | _ => exact hcall.elim
  have heq : held = pq.encode data.readAll := by
    refine List.ext_getElem? fun k => ?_
    rcases Nat.lt_or_ge k (pq.encode data.readAll).length with hk | hk
    · exact hagree k (hall ▸ hk)
    · rw [List.getElem?_eq_none (hlen.trans hk), List.getElem?_eq_none hk]
  rw [hheld, heq]

omit [DecidableEq ι] in
theorem untouched_start : Untouched root client (start pq port root data str client) where
  node := rfl
  closed i := closed_ofProgram _
  uploads i cut requests hi := by
    show Uploads (.ofProgram (server pq port) ((client i).program data str))
    rw [hi]
    exact ⟨_, _, _, _, rfl⟩

variable (pq port root data str client)

/-- **Whenever no upload is left with anything to write, the streamed file is whole**, if it has been opened at all; and it
has when a client of `test_do_put` has returned that made a request. -/
theorem streamed_whole (hfresh : root.tree.node (file root) ≠ some .dir) (sched : List ι)
    (hquiet : ∀ i t, ((run pq port root data str client sched).task i).serving = some t → ¬ t.Unwritten) :
    ((run pq port root data str client sched).shared.tree.node (file root) = root.tree.node (file root) ∨
      (run pq port root data str client sched).shared.tree.node (file root) = some (.file (pq.encode data.readAll))) ∧
    ∀ i cut requests result, client i = .doPut (cut :: requests) →
      (run pq port root data str client sched).task i = .returned result →
      (run pq port root data str client sched).shared.tree.node (file root) = some (.file (pq.encode data.readAll)) := by
  have hrun : Good pq port root data str client hfresh (run pq port root data str client sched) ∧
      (Untouched root client (run pq port root data str client sched) ∨
        Filled root (pq.encode data.readAll) (run pq port root data str client sched)) := by
    have hgood := good_start pq port root data str client hfresh
    refine ⟨fun i => (Contract.run_good sched hgood i).mono (Nat.sub_le _ _),
      Contract.run_invariant (I := fun c => Untouched root client c ∨ Filled root (pq.encode data.readAll) c)
        (fun c i hc hinv => ?_) sched hgood (.inl untouched_start)⟩
    rcases hinv with hinv | hinv
    · exact hinv.step (fileStep (hc i))
    · exact .inr (hinv.step (fileStep (hc i)))
  obtain ⟨hgood, huntouched | hfilled⟩ := hrun
  · refine ⟨.inl huntouched.node, fun i cut requests result hi hresult => ?_⟩
    obtain ⟨u, cut', t, next, hwaiting⟩ := huntouched.uploads i cut requests hi
    rw [hresult] at hwaiting
    cases hwaiting
  · have hwhole := hfilled.whole hgood hquiet
    exact ⟨.inr hwhole, fun _ _ _ _ _ _ => hwhole⟩

end File

/-! ## A client of each test -/

def tinyData : FlightDataStream Unit UInt8 := ⟨(), [[1, 2, 3], [4, 5, 6]]⟩

def oneOfEach : Bool → Client
  | true => .doPut [.whole, .whole]
  | false => .getFlightInfo 2

def inTurns : List Bool := Interleave.turns (Client.patience tinyParquet tinyData (oneOfEach true))

theorem stress_tests_return_oneOfEach : ∃ result,
    (run tinyParquet 5000 .bare tinyData (fun _ => "") oneOfEach inTurns).task true = .returned result :=
  (stress_tests_return tinyParquet 5000 .bare tinyData (fun _ => "") oneOfEach (by decide +kernel) inTurns true).2.1
    (by rw [inTurns, Interleave.count_turns])

theorem streamed_whole_oneOfEach :
    (run tinyParquet 5000 .bare tinyData (fun _ => "") oneOfEach inTurns).shared.tree.node (file .bare) =
      some (.file (tinyParquet.encode tinyData.readAll)) := by
  have hreturned : (run tinyParquet 5000 .bare tinyData (fun _ => "") oneOfEach inTurns).task true =
      .returned (.ok (some ())) := rfl
  have hserved : ∀ i, ((run tinyParquet 5000 .bare tinyData (fun _ => "") oneOfEach inTurns).task i).serving = none
    | true => rfl
    | false => rfl
  refine (streamed_whole tinyParquet 5000 .bare tinyData (fun _ => "") oneOfEach (by decide +kernel) inTurns ?_).2 true
    .whole [.whole] _ rfl hreturned
  intro i t ht
  rw [hserved i] at ht
  cases ht

end StressTests
