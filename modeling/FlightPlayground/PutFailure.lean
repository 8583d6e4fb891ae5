import FlightPlayground.DatasetServer
/-!
# PutFailure — what a failed upload leaves behind

`DoPut` opens its sink, which empties the file, before it has read the stream and written the table.  An error after
that leaves the file as it is by then.
-/
namespace PutFailure

open Posix (Bytes Node NodePath FileTree utf8)
open Unordered (Enumeration)
open Arrow
open Flight
open DatasetServer (sinkPath canHoldFile_of_sinkPath)

inductive Server
  | FlightStressTestServer
  | DistributedFlightDataServer
  | BasicDoPutFlightServer
  deriving DecidableEq

variable {Schema Row : Type} (pq : Parquet Schema Row) (port : Nat)

def Server.doPut : Server → SubTreeFileSystem → Upload Schema Row → Result Unit × SubTreeFileSystem
  | .FlightStressTestServer => FlightStressTestServer.doPut pq
  | .DistributedFlightDataServer => DistributedFlightDataServer.doPut pq
  | .BasicDoPutFlightServer => BasicDoPutFlightServer.doPut pq

def Server.listFlights : Server → SubTreeFileSystem → Enumeration (Bytes × Node) → Result (List (FlightInfo Schema))
  | .FlightStressTestServer => FlightStressTestServer.listFlights pq port
  | .DistributedFlightDataServer => DistributedFlightDataServer.listFlights pq port
  | .BasicDoPutFlightServer => BasicDoPutFlightServer.listFlights pq

theorem Server.doPut_eq (server : Server) : server.doPut pq = DatasetServer.doPut pq := by cases server <;> rfl

/-- An upload that fails leaves the store as it was, and a listing that succeeded still succeeds. -/
def KeepsStore (server : Server) (root : SubTreeFileSystem) (u : Upload Schema Row) : Prop :=
  ∀ e, (server.doPut pq root u).1 = .error e →
    (server.doPut pq root u).2 = root ∧
    ∀ readdir flights, server.listFlights pq port root readdir = .ok flights →
      ∃ flights', server.listFlights pq port (server.doPut pq root u).2 readdir = .ok flights'

/-- Where the upload opens a file and does not complete, the file already holds what the upload leaves there: nothing
if the stream breaks, and what was written by then if the write fails. -/
def LeavesWhatWasThere (root : SubTreeFileSystem) (u : Upload Schema Row) : Prop :=
  ∀ p ∈ sinkPath root u.reader.descriptor, ∀ b ∈ u.leftover, root.tree.node p = some (.file b)

theorem setFile_eq_self_iff {root : SubTreeFileSystem} {p : NodePath} {b : Bytes} (h : root.tree.CanHoldFile p) :
    root.setFile p b = root ↔ root.tree.node p = some (.file b) := by
  constructor
  · intro heq
    have hn : (root.setFile p b).tree.node p = some (.file b) := by
      rw [SubTreeFileSystem.setFile_tree, FileTree.node_setFile h, if_pos rfl]
    rwa [heq] at hn
  · exact fun hn => SubTreeFileSystem.ext_tree (FileTree.setFile_self hn) rfl

/-- **A failed upload keeps the store exactly when what it leaves in the file it has opened was there before.** -/
theorem doPut_keeps_store_iff (server : Server) (root : SubTreeFileSystem) (u : Upload Schema Row) :
    KeepsStore pq port server root u ↔ LeavesWhatWasThere root u := by
  unfold KeepsStore LeavesWhatWasThere
  rw [Server.doPut_eq]
  cases hp : sinkPath root u.reader.descriptor with
  | none =>
    obtain ⟨e, he⟩ := DatasetServer.doPut_of_sinkPath_none pq hp
    rw [he]
    simpa using fun readdir flights h => ⟨flights, h⟩
  | some p =>
    rcases DatasetServer.doPut_of_sinkPath pq hp with ⟨hl, hr⟩ | ⟨b, e, hl, hr⟩
    · rw [hl, hr]
      simp
    · rw [hl, hr]
      simp only [Except.error.injEq, Option.mem_def, Option.some.injEq, forall_eq']
      rw [← setFile_eq_self_iff (canHoldFile_of_sinkPath hp)]
      exact ⟨And.left, fun h => ⟨h, fun readdir flights hf => ⟨flights, by rw [h]; exact hf⟩⟩⟩

/-! ## A stream that breaks over a stored dataset -/

def oneFile (name content : Bytes) : SubTreeFileSystem := SubTreeFileSystem.bare.setFile [name] content

theorem children_oneFile {name : Bytes} (h : Posix.ValidName name) (content : Bytes) :
    (oneFile name content).tree.children (oneFile name content).base = {(name, .file content)} := by
  have hc : SubTreeFileSystem.bare.tree.CanHoldFile [name] :=
    ⟨h, rfl, by rw [SubTreeFileSystem.bare, FileTree.node_bare]; simp⟩
  refine (Multiset.Nodup.ext (.of_map Prod.fst (FileTree.nodup_children _ _)) (Multiset.nodup_singleton _)).2 ?_
  rintro ⟨n, x⟩
  rw [FileTree.mem_children, oneFile, SubTreeFileSystem.setFile_tree, SubTreeFileSystem.setFile_base,
    FileTree.node_setFile hc, Multiset.mem_singleton, Prod.mk.injEq]
  by_cases hn : n = name
  · simp [hn, SubTreeFileSystem.bare, eq_comm]
  · simp [hn, SubTreeFileSystem.bare]

def brokenUpload : Upload Unit UInt8 :=
  ⟨⟨.ofPath [utf8 "a.parquet"], (), [[1, 2]], some (.IOError .parquet)⟩, none⟩

/-- An upload over `a.parquet` whose stream breaks after its first batch loses the rows that were stored. -/
theorem doPut_loses_stored_dataset :
    ¬ KeepsStore tinyParquet 5000 .FlightStressTestServer
      (oneFile (utf8 "a.parquet") (tinyParquet.encode ⟨(), [7, 8, 9]⟩)) brokenUpload := by
  intro h
  have hs : sinkPath (oneFile (utf8 "a.parquet") (tinyParquet.encode ⟨(), [7, 8, 9]⟩)) brokenUpload.reader.descriptor
      = some [utf8 "a.parquet"] := by decide +kernel
  obtain ⟨hl, -⟩ | ⟨b, e, hl, hr⟩ := DatasetServer.doPut_of_sinkPath tinyParquet hs
  · cases hl
  · have hkept := (h e (by rw [Server.doPut_eq, hr])).1
    rw [Server.doPut_eq, hr, setFile_eq_self_iff (canHoldFile_of_sinkPath hs)] at hkept
    cases hl
    revert hkept
    decide +kernel

end PutFailure
