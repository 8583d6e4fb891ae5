import FlightPlayground.ArrowFs
import FlightPlayground.Parquet
/-!
# Flight — what Flight requests and responses carry
-/
namespace Flight

open Posix (Bytes)
open Arrow (Status Result Table)

inductive DescriptorType
  | UNKNOWN
  | PATH
  | CMD
  deriving DecidableEq

structure FlightDescriptor where
  type : DescriptorType
  cmd : Bytes
  path : List Bytes
  deriving DecidableEq

def FlightDescriptor.ofPath (path : List Bytes) : FlightDescriptor := ⟨.PATH, [], path⟩

structure Ticket where
  ticket : Bytes
  deriving DecidableEq

structure Location where
  host : Bytes
  port : Nat
  deriving DecidableEq

structure FlightEndpoint where
  ticket : Ticket
  locations : List Location
  deriving DecidableEq

structure FlightInfo (Schema : Type) where
  schema : Schema
  descriptor : FlightDescriptor
  endpoints : List FlightEndpoint
  totalRecords : Int
  totalBytes : Int
  deriving DecidableEq

structure Action where
  type : Bytes
  body : Bytes
  deriving DecidableEq

structure ActionType where
  type : Bytes
  description : Bytes
  deriving DecidableEq

structure FlightDataStream (Schema Row : Type) where
  schema : Schema
  batches : List (List Row)
  deriving DecidableEq

/-- The methods a call can be of. -/
inductive FlightMethod
  | LIST_FLIGHTS
  | GET_FLIGHT_INFO
  | DO_GET
  | DO_PUT
  deriving DecidableEq

def FlightMethod.str : FlightMethod → String
  | LIST_FLIGHTS => "FlightMethod.LIST_FLIGHTS"
  | GET_FLIGHT_INFO => "FlightMethod.GET_FLIGHT_INFO"
  | DO_GET => "FlightMethod.DO_GET"
  | DO_PUT => "FlightMethod.DO_PUT"

variable {Schema Row : Type}

def FlightDataStream.readAll (s : FlightDataStream Schema Row) : Table Schema Row := ⟨s.schema, s.batches.flatten⟩

/-- The stream of an upload: its batches, and the error it breaks with after them if it does. -/
structure FlightMessageReader (Schema Row : Type) where
  descriptor : FlightDescriptor
  schema : Schema
  batches : List (List Row)
  failure : Option Status

def FlightMessageReader.table (r : FlightMessageReader Schema Row) : Table Schema Row := ⟨r.schema, r.batches.flatten⟩

def FlightMessageReader.toTable (r : FlightMessageReader Schema Row) : Result (Table Schema Row) :=
  match r.failure with
  | some e => .error e
  | none => .ok r.table

/-- A Parquet write that fails, and the bytes it had written by then. -/
structure WriteFailure where
  status : Status
  written : Bytes

/-- A DoPut request, with what becomes of its stream and of its Parquet write. -/
structure Upload (Schema Row : Type) where
  reader : FlightMessageReader Schema Row
  writeFailure : Option WriteFailure

namespace Upload

def ofTable (d : FlightDescriptor) (t : Table Schema Row) : Upload Schema Row := ⟨⟨d, t.schema, [t.rows], none⟩, none⟩

/-- Its stream ends and its write succeeds. -/
def Completes (u : Upload Schema Row) : Prop := u.reader.failure = none ∧ u.writeFailure = none

instance (u : Upload Schema Row) : Decidable u.Completes :=
  match hf : u.reader.failure, hw : u.writeFailure with
  | none, none => isTrue ⟨hf, hw⟩
  | some _, _ => isFalse fun h => by cases hf.symm.trans h.1
  | none, some _ => isFalse fun h => by cases hw.symm.trans h.2

/-- What an upload that does not complete leaves in the file it has opened. -/
def leftover (u : Upload Schema Row) : Option Bytes :=
  if u.reader.failure.isSome then some [] else u.writeFailure.map WriteFailure.written

/-- How an upload ends that has opened its file. -/
def status (u : Upload Schema Row) : Result Unit :=
  match u.reader.failure with
  | some e => .error e
  | none =>
    match u.writeFailure with
    | some f => .error f.status
    | none => .ok ()

theorem completes_of_status {u : Upload Schema Row} (h : u.status = .ok ()) : u.Completes := by
  unfold status at h
  split at h
  · cases h
  · split at h
    · cases h
    · exact ⟨‹_›, ‹_›⟩

theorem completes_ofTable (d : FlightDescriptor) (t : Table Schema Row) : (ofTable d t).Completes := ⟨rfl, rfl⟩

end Upload
end Flight
