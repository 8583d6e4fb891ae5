import FlightPlayground.PythonServer
import FlightPlayground.StoreRequests
/-!
# PythonRequests — requests to the Python server, step by step

A client takes the infos of `list_flights` one at a time, and the generator opens a file for each as it is asked to; other
requests are served in between.  An upload opens and so empties its file, writes it piece by piece at its own offset, and
removes it if the write raises; a drop removes a file whether or not an upload has it open.
-/
namespace PythonRequests

open Posix (Bytes Node NodePath FileTree utf8)
open Unordered (Enumeration)
open Pathlib (Path Disk)
open Arrow hiding writeTable
open Flight
open Interleave
open Python
open FlightServer (makeFlightInfo leftBy statusOf)
open FlightStressTestServer (Chunking)

/-! ## Open files -/

/-- The disk, and how many files have been removed at each path. -/
structure Store where
  disk : Disk
  removed : NodePath → Nat

/-- A file open for writing, which is the one at `path` until that is removed. -/
structure Handle where
  path : NodePath
  generation : Nat
  pos : Nat
  deriving DecidableEq

namespace Store

variable (store : Store)

/-- The store once a request has left `disk`. -/
def become (disk : Disk) : Store where
  disk := disk
  removed p :=
    if store.disk.tree.node p ≠ none ∧ disk.tree.node p = none then store.removed p + 1 else store.removed p

def openOutputStream (path : Path) : Except Raised (Handle × Store) :=
  match lookup store.disk path with
  | .error e => .error e
  | .ok p =>
    if store.disk.tree.node p = some .dir then .error (errno .EISDIR)
    else .ok (⟨p, store.removed p, 0⟩, ⟨store.disk.setFile p [], store.removed⟩)

/-- A write to a file that has been removed is to no path. -/
def write (handle : Handle) (piece : Bytes) : Handle × Store :=
  (⟨handle.path, handle.generation, handle.pos + piece.length⟩,
    if handle.generation = store.removed handle.path then
      match store.disk.tree.node handle.path with
      | some (.file c) => ⟨store.disk.setFile handle.path (Posix.overlay c handle.pos piece), store.removed⟩
      | _ => store
    else store)

variable {store} {path : Path} {p : NodePath}

theorem openOutputStream_of_lookup_error {e : Pathlib.OSError} (h : store.disk.lookup path = .error e) :
    store.openOutputStream path = .error (.OSError e) := by
  simp only [openOutputStream, lookup, h]

theorem openOutputStream_of_dir (h : store.disk.lookup path = .ok p) (hd : store.disk.tree.node p = some .dir) :
    store.openOutputStream path = .error (errno .EISDIR) := by
  simp only [openOutputStream, lookup, h, if_pos hd]

theorem openOutputStream_of_lookup (h : store.disk.lookup path = .ok p) (hd : store.disk.tree.node p ≠ some .dir) :
    store.openOutputStream path = .ok (⟨p, store.removed p, 0⟩, ⟨store.disk.setFile p [], store.removed⟩) := by
  simp only [openOutputStream, lookup, h, if_neg hd]

theorem write_eq (store : Store) (handle : Handle) {c : Bytes} (hg : handle.generation = store.removed handle.path)
    (hc : store.disk.tree.node handle.path = some (.file c)) (piece : Bytes) :
    store.write handle piece = (⟨handle.path, handle.generation, handle.pos + piece.length⟩,
      ⟨store.disk.setFile handle.path (Posix.overlay c handle.pos piece), store.removed⟩) := by
  simp only [write, if_pos hg, hc]

/-- **A write is into the file that was opened, or nowhere.** -/
theorem write_cases (store : Store) (handle : Handle) (piece : Bytes) : (store.write handle piece).2 = store ∨
    ∃ c, store.disk.tree.node handle.path = some (.file c) ∧
      (store.write handle piece).2.disk = store.disk.setFile handle.path (Posix.overlay c handle.pos piece) := by
  by_cases hg : handle.generation = store.removed handle.path
  · rcases hx : store.disk.tree.node handle.path with _ | _ | c
    · exact .inl (by simp [write, hx])
    · exact .inl (by simp [write, hx])
    · exact .inr ⟨c, rfl, by rw [write_eq store handle hg hx]⟩
  · exact .inl (by simp [write, hg])

end Store

/-! ## Steps -/

/-- An upload, with what becomes of its write: how it is cut, and what a write that removes its file has put there. -/
structure Upload (Schema Row : Type) where
  reader : FlightMessageReader Schema Row
  failure : Option WriteTableFailure
  cut : Chunking
  discarded : Bytes

def Upload.bytes {Schema Row : Type} (pq : PyArrow Schema Row) (u : Upload Schema Row) (table : Table Schema Row) : Bytes :=
  (leftBy pq table u.failure).getD u.discarded

/-- Where a request stands; `yielded` is what the client of a listing has received. -/
inductive Task (Schema Row : Type)
  | listFlights (listdir : Enumeration (Bytes × Node))
  | iterating (rest : List Bytes) (yielded : List (FlightInfo Schema))
  | finished (yielded : List (FlightInfo Schema))
  | raised (yielded : List (FlightInfo Schema)) (e : Raised)
  | doPut (u : Upload Schema Row)
  | opening (path : Path) (table : Table Schema Row) (u : Upload Schema Row)
  | writing (handle : Handle) (pieces : List Bytes) (path : Path) (failure : Option WriteTableFailure)
  | put (result : Except Raised Unit)
  | doAction (action : Action)
  | acted (result : Except Raised Unit)

variable {Schema Row : Type} (pq : PyArrow Schema Row) (server : FlightServer)

/-- What `write_table` does once it has raised: it removes the file, or fails to. -/
def cleanUp (store : Store) (path : Path) : Option WriteTableFailure → Store
  | some ⟨_, none⟩ => store.become (unlink store.disk path).2
  | _ => store

def Task.step (store : Store) : Task Schema Row → Store × Task Schema Row
  | .listFlights listdir =>
    match iterdir store.disk server.repo listdir with
    | .error e => (store, .raised [] e)
    | .ok datasets => (store, .iterating datasets [])
  | .iterating [] yielded => (store, .finished yielded)
  | .iterating (dataset :: rest) yielded =>
    match makeFlightInfo pq server store.disk dataset with
    | .error e => (store, .raised yielded e)
    | .ok info => (store, .iterating rest (yielded ++ [info]))
  | .doPut u =>
    match path0 u.reader.descriptor >>= decode with
    | .error e => (store, .put (.error e))
    | .ok dataset =>
      match u.reader.toTable with
      | .error e => (store, .put (.error (.ArrowException e)))
      | .ok table => (store, .opening (server.repo.join dataset) table u)
  | .opening path table u =>
    match store.openOutputStream path with
    | .error e => (store, .put (.error e))
    | .ok (handle, store) => (store, .writing handle (u.cut.pieces (u.bytes pq table)) path u.failure)
  | .writing handle (piece :: pieces) path failure =>
    ((store.write handle piece).2, .writing (store.write handle piece).1 pieces path failure)
  | .writing _ [] path failure => (cleanUp store path failure, .put (statusOf failure))
  | .doAction action =>
    (store.become (server.doAction store.disk action).2, .acted (server.doAction store.disk action).1)
  | .finished yielded => (store, .finished yielded)
  | .raised yielded e => (store, .raised yielded e)
  | .put result => (store, .put result)
  | .acted result => (store, .acted result)

/-! ## What a step does to the disk -/

/-- The next step of the request opens, writes or removes the file at `p`. -/
def Task.Touches (disk : Disk) (p : NodePath) : Task Schema Row → Prop
  | .opening path _ _ => disk.lookup path = .ok p
  | .writing handle (_ :: _) _ _ => handle.path = p
  | .writing _ [] path (some ⟨_, none⟩) => disk.lookup path = .ok p
  | .doAction action => disk.lookup (server.repo.join action.body) = .ok p
  | _ => False

variable {pq server}

theorem unlink_cases (disk : Disk) (path : Path) : (unlink disk path).2 = disk ∨
    ∃ p, disk.lookup path = .ok p ∧ disk.tree.CanHoldFile p ∧ (unlink disk path).2 = disk.leave p none := by
  unfold unlink lookup
  cases hp : disk.lookup path with
  | error e => exact .inl rfl
  | ok p =>
    rcases hx : disk.tree.node p with _ | _ | c
    · simp [hx]
    · simp [hx]
    · exact .inr ⟨p, rfl, FileTree.canHoldFile_of_file hx, by simp [hx, Disk.leave]⟩

variable (pq server) in
/-- **A step leaves the disk alone, or it changes one file that it touches.** -/
theorem Task.step_disk (store : Store) (t : Task Schema Row) : (t.step pq server store).1.disk = store.disk ∨
    ∃ p b, t.Touches server store.disk p ∧ store.disk.tree.CanHoldFile p ∧
      (t.step pq server store).1.disk = store.disk.leave p b := by
  cases t with
  | listFlights listdir =>
    simp only [Task.step]
    split <;> exact .inl rfl
  | iterating rest yielded =>
    cases rest with
    | nil => exact .inl rfl
    | cons dataset rest =>
      simp only [Task.step]
      split <;> exact .inl rfl
  | doPut u =>
    simp only [Task.step]
    split
    · exact .inl rfl
    · split <;> exact .inl rfl
  | opening path table u =>
    cases hp : store.disk.lookup path with
    | error e => exact .inl (by simp only [Task.step, Store.openOutputStream_of_lookup_error hp])
    | ok p =>
      by_cases hd : store.disk.tree.node p = some .dir
      · exact .inl (by simp only [Task.step, Store.openOutputStream_of_dir hp hd])
      · refine .inr ⟨p, some [], hp, Disk.canHoldFile_of_lookup hp hd, ?_⟩
        simp only [Task.step, Store.openOutputStream_of_lookup hp hd]
        rfl
  | writing handle pieces path failure =>
    cases pieces with
    | nil =>
      rcases failure with _ | ⟨status, _ | left⟩
      · exact .inl rfl
      · rcases unlink_cases store.disk path with h | ⟨p, hp, hhold, h⟩
        · exact .inl h
        · exact .inr ⟨p, none, hp, hhold, h⟩
      · exact .inl rfl
    | cons piece pieces =>
      rcases Store.write_cases store handle piece with h | ⟨c, hc, h⟩
      · exact .inl (congrArg Store.disk h)
      · exact .inr ⟨handle.path, some _, rfl, FileTree.canHoldFile_of_file hc, h⟩
  | doAction action =>
    obtain ⟨-, -, p, c, hp, hc, hres⟩ | ⟨-, e, hres⟩ := FlightServer.doAction_cases server store.disk action
    · refine .inr ⟨p, none, hp, FileTree.canHoldFile_of_file hc, ?_⟩
      simp only [Task.step, hres, Store.become]
      rfl
    · exact .inl (by simp only [Task.step, hres, Store.become])
  | _ => exact .inl rfl

/-- **Nothing happens to a file that a step does not touch.** -/
theorem Task.step_node {store : Store} {t : Task Schema Row} {p : NodePath} (h : ¬ t.Touches server store.disk p) :
    (t.step pq server store).1.disk.tree.node p = store.disk.tree.node p := by
  rcases Task.step_disk pq server store t with hd | ⟨q, b, hq, hhold, hd⟩
  · rw [hd]
  · rw [hd, Disk.node_leave hhold, if_neg]
    rintro rfl
    exact h hq

theorem leave_dirs {disk : Disk} {p : NodePath} (h : disk.tree.CanHoldFile p) (b : Option Bytes) (q : NodePath) :
    (disk.leave p b).tree.node q = some .dir ↔ disk.tree.node q = some .dir := by
  rw [Disk.node_leave h]
  split
  · rename_i hq
    subst hq
    have := FileTree.not_dir_of_canHoldFile h
    cases b <;> simp [this]
  · rfl

variable (pq server) in
/-- **No request makes or removes a directory**, so a path that leads somewhere leads there still. -/
theorem Task.step_dirs (store : Store) (t : Task Schema Row) :
    (t.step pq server store).1.disk.cwd = store.disk.cwd ∧
      ∀ q, (t.step pq server store).1.disk.tree.node q = some .dir ↔ store.disk.tree.node q = some .dir := by
  rcases Task.step_disk pq server store t with hd | ⟨p, b, -, hhold, hd⟩
  · rw [hd]
    exact ⟨rfl, fun _ => Iff.rfl⟩
  · rw [hd]
    exact ⟨by cases b <;> rfl, leave_dirs hhold b⟩

/-! ## One request on its own -/

section Solo

variable (pq server)

/-- **The infos a client takes one after another are the answer of `list_flights`**, to where it raises. -/
theorem solo_iterating (store : Store) : ∀ (datasets : List Bytes) (yielded : List (FlightInfo Schema)),
    (∃ infos, datasets.mapM (makeFlightInfo pq server store.disk) = .ok infos ∧
      Pool.solo (Task.step pq server) (datasets.length + 1) store (.iterating datasets yielded) =
        (store, .finished (yielded ++ infos))) ∨
    ∃ e infos, datasets.mapM (makeFlightInfo pq server store.disk) = .error e ∧
      Pool.solo (Task.step pq server) (datasets.length + 1) store (.iterating datasets yielded) =
        (store, .raised (yielded ++ infos) e)
  | [], yielded => .inl ⟨[], rfl, by simp [Pool.solo, Task.step]⟩
  | dataset :: datasets, yielded => by
    rw [List.length_cons, Pool.solo_succ, List.mapM_cons]
    cases hi : makeFlightInfo pq server store.disk dataset with
    | error e =>
      refine .inr ⟨e, [], rfl, ?_⟩
      rw [List.append_nil, show Task.step pq server store (.iterating (dataset :: datasets) yielded) =
        (store, .raised yielded e) by simp only [Task.step, hi]]
      exact Pool.solo_fixed (f := Task.step pq server) rfl _
    | ok info =>
      have hstep : Task.step pq server store (.iterating (dataset :: datasets) yielded) =
          (store, .iterating datasets (yielded ++ [info])) := by simp only [Task.step, hi]
      rw [hstep]
      rcases solo_iterating store datasets (yielded ++ [info]) with ⟨infos, hm, hs⟩ | ⟨e, infos, hm, hs⟩
      · refine .inl ⟨info :: infos, by rw [hm]; rfl, ?_⟩
        rw [hs, List.append_assoc]
        rfl
      · refine .inr ⟨e, info :: infos, by rw [hm]; rfl, ?_⟩
        rw [hs, List.append_assoc]
        rfl

theorem solo_listFlights (store : Store) (listdir : Enumeration (Bytes × Node)) : ∃ n,
    match server.listFlights pq store.disk listdir with
    | .ok infos => Pool.solo (Task.step pq server) n store (.listFlights listdir) = (store, .finished infos)
    | .error e => ∃ yielded,
      Pool.solo (Task.step pq server) n store (.listFlights listdir) = (store, .raised yielded e) := by
  unfold FlightServer.listFlights
  cases hd : iterdir store.disk server.repo listdir with
  | error e => exact ⟨1, [], by simp only [Pool.solo, Function.iterate_one, Task.step, hd]⟩
  | ok datasets =>
    have hstep : Task.step pq server store (.listFlights listdir) = (store, .iterating datasets []) := by
      simp only [Task.step, hd]
    refine ⟨datasets.length + 1 + 1, ?_⟩
    rw [Pool.solo_succ, hstep]
    rcases solo_iterating pq server store datasets [] with ⟨infos, hm, hs⟩ | ⟨e, infos, hm, hs⟩
    · simpa only [bind, Except.bind, hm, List.nil_append] using hs
    · simpa only [bind, Except.bind, hm] using ⟨infos, hs⟩

theorem solo_doAction (store : Store) (action : Action) : ∃ n removed,
    Pool.solo (Task.step pq server) n store (.doAction action) =
      (⟨(server.doAction store.disk action).2, removed⟩, .acted (server.doAction store.disk action).1) :=
  ⟨1, _, rfl⟩

theorem solo_writing {disk : Disk} {p : NodePath} (hp : disk.tree.CanHoldFile p) (removed : NodePath → Nat) (path : Path)
    (failure : Option WriteTableFailure) : ∀ (pieces : List Bytes) (c : Bytes),
    Pool.solo (Task.step pq server) pieces.length ⟨disk.setFile p c, removed⟩
        (.writing ⟨p, removed p, c.length⟩ pieces path failure) =
      (⟨disk.setFile p (c ++ pieces.flatten), removed⟩,
        .writing ⟨p, removed p, (c ++ pieces.flatten).length⟩ [] path failure)
  | [], c => by simp [Pool.solo]
  | piece :: pieces, c => by
    have hc : (disk.setFile p c).tree.node p = some (.file c) := by
      rw [Disk.setFile_tree, FileTree.node_setFile hp, if_pos rfl]
    rw [List.length_cons, Pool.solo_succ]
    simp only [Task.step, Store.write_eq ⟨disk.setFile p c, removed⟩ ⟨p, removed p, c.length⟩ rfl hc,
      Disk.setFile_setFile, Posix.overlay_at_end]
    rw [← List.length_append, solo_writing hp removed path failure pieces (c ++ piece), List.flatten_cons,
      List.append_assoc]

/-- **A `write_table` without interruption leaves what it leaves**, in whatever pieces it writes. -/
theorem solo_opening (store : Store) (path : Path) (table : Table Schema Row) (u : Upload Schema Row) : ∃ n removed,
    Pool.solo (Task.step pq server) n store (.opening path table u) =
      (⟨(writeTable pq store.disk table path u.failure).2, removed⟩,
        .put (writeTable pq store.disk table path u.failure).1) := by
  cases hp : store.disk.lookup path with
  | error e =>
    refine ⟨1, store.removed, ?_⟩
    rw [FlightServer.writeTable_of_lookup_error hp]
    simp only [Pool.solo, Function.iterate_one, Task.step, Store.openOutputStream_of_lookup_error hp]
  | ok p =>
    by_cases hd : store.disk.tree.node p = some .dir
    · refine ⟨1, store.removed, ?_⟩
      rw [FlightServer.writeTable_of_dir hp hd]
      simp only [Pool.solo, Function.iterate_one, Task.step, Store.openOutputStream_of_dir hp hd]
    · have hhold := Disk.canHoldFile_of_lookup hp hd
      have hopen : Task.step pq server store (.opening path table u) = (⟨store.disk.setFile p [], store.removed⟩,
          .writing ⟨p, store.removed p, 0⟩ (u.cut.pieces (u.bytes pq table)) path u.failure) := by
        simp only [Task.step, Store.openOutputStream_of_lookup hp hd]
      have hwrite := solo_writing pq server hhold store.removed path u.failure
        (u.cut.pieces (u.bytes pq table)) []
      rw [List.nil_append, u.cut.flatten_pieces] at hwrite
      have hclean : (cleanUp ⟨store.disk.setFile p (u.bytes pq table), store.removed⟩ path u.failure).disk =
          store.disk.leave p (leftBy pq table u.failure) := by
        unfold Upload.bytes
        rcases u.failure with _ | ⟨status, _ | left⟩
        · rfl
        · have hp' : (store.disk.setFile p u.discarded).lookup path = .ok p :=
            Disk.lookup_of_same_dirs (show (store.disk.setFile p u.discarded).cwd = store.disk.cwd from rfl)
              (fun _ h => (FileTree.dir_setFile ..).2 h) hp
          have hc : (store.disk.setFile p u.discarded).tree.node p = some (.file u.discarded) := by
            rw [Disk.setFile_tree, FileTree.node_setFile hhold, if_pos rfl]
          simp only [cleanUp, leftBy, Option.getD_none, unlink, lookup, hp', hc, Store.become]
          exact Disk.unlink_setFile hhold _
        · rfl
      refine ⟨1 + (u.cut.pieces (u.bytes pq table)).length + 1,
        (cleanUp ⟨store.disk.setFile p (u.bytes pq table), store.removed⟩ path u.failure).removed, ?_⟩
      rw [Pool.solo_succ, hopen, Pool.solo_add]
      rw [show (0 : Nat) = ([] : Bytes).length from rfl, hwrite, FlightServer.writeTable_of_lookup hp hd, ← hclean]
      rfl

/-- **An upload served without interruption is `do_put`.** -/
theorem solo_doPut (store : Store) (u : Upload Schema Row) : ∃ n removed,
    Pool.solo (Task.step pq server) n store (.doPut u) =
      (⟨(server.doPut pq store.disk u.reader u.failure).2, removed⟩,
        .put (server.doPut pq store.disk u.reader u.failure).1) := by
  unfold FlightServer.doPut
  cases hn : path0 u.reader.descriptor >>= decode with
  | error e =>
    refine ⟨1, store.removed, ?_⟩
    simp only [Pool.solo, Function.iterate_one, Task.step, hn]
  | ok dataset =>
    cases ht : u.reader.toTable with
    | error e =>
      refine ⟨1, store.removed, ?_⟩
      simp only [Pool.solo, Function.iterate_one, Task.step, hn, ht]
    | ok table =>
      obtain ⟨n, removed, hs⟩ := solo_opening pq server store (server.repo.join dataset) table u
      refine ⟨n + 1, removed, ?_⟩
      have hstep : Task.step pq server store (.doPut u) = (store, .opening (server.repo.join dataset) table u) := by
        simp only [Task.step, hn, ht]
      rw [Pool.solo_succ, hstep, hs]

end Solo

end PythonRequests
