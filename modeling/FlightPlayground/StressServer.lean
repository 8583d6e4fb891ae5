import FlightPlayground.DatasetServer
import FlightPlayground.Sequential
/-!
# StressServer — requests to `FlightStressTestServer`, one after another
-/
namespace StressServer

open Posix (Bytes Node FileTree)
open Unordered (Enumeration)
open Arrow
open Flight

/-- A request, with what the network, the disk and the directory do while it is served. -/
inductive Request (Schema Row : Type)
  | listFlights (readdir : Enumeration (Bytes × Node))
  | getFlightInfo (descriptor : FlightDescriptor)
  | doPut (upload : Upload Schema Row)
  | doGet (request : Ticket)
  | listActions
  | doAction (action : Action)

inductive Response (Schema Row : Type)
  | flights (r : Result (List (FlightInfo Schema)))
  | info (r : Result (FlightInfo Schema))
  | status (r : Result Unit)
  | stream (r : Result (FlightDataStream Schema Row))
  | actions (types : List ActionType)
  deriving DecidableEq

variable {Schema Row : Type} (pq : Parquet Schema Row) (port : Nat)

def handle (root : SubTreeFileSystem) : Request Schema Row → Response Schema Row × SubTreeFileSystem
  | .listFlights readdir => (.flights (FlightStressTestServer.listFlights pq port root readdir), root)
  | .getFlightInfo d => (.info (FlightStressTestServer.getFlightInfo pq port root d), root)
  | .doPut u => (.status (FlightStressTestServer.doPut pq root u).1, (FlightStressTestServer.doPut pq root u).2)
  | .doGet t => (.stream (FlightStressTestServer.doGet pq root t), root)
  | .listActions => (.actions FlightStressTestServer.listActions, root)
  | .doAction a => (.status (FlightStressTestServer.doAction root a).1, (FlightStressTestServer.doAction root a).2)

/-- The responses to a sequence of requests, and the store it leaves. -/
def run : SubTreeFileSystem → List (Request Schema Row) → List (Response Schema Row) × SubTreeFileSystem :=
  Sequential.run (handle pq port)

def IsEmpty (root : SubTreeFileSystem) : Prop := ∀ n, root.tree.node (n :: root.base) = none

theorem isEmpty_bare : IsEmpty .bare := fun n => FileTree.node_bare n []

end StressServer
