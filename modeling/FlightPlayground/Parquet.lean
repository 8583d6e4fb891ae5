import FlightPlayground.Posix
import Mathlib.Algebra.BigOperators.Group.List.Basic
import Mathlib.Algebra.GroupWithZero.Nat
/-!
# Parquet — what the servers use of Arrow's tables and Parquet files

A table is a schema and its rows; a Parquet file holds the rows in row groups.  The bytes of a file are Arrow's
business: `Parquet` is its writer and reader, with what the servers rely on (a file that was written reads back).
-/
namespace Arrow

open Posix (Bytes)

structure Table (Schema Row : Type) where
  schema : Schema
  rows : List Row
  deriving DecidableEq

structure ParquetFile (Schema Row : Type) where
  schema : Schema
  rowGroups : List (List Row)
  deriving DecidableEq

/-- What the reader knows once it has opened a file: the footer, and what is read off it. -/
structure FileMetaData (Schema : Type) where
  schema : Schema
  rowGroupRows : List Nat
  footer : Bytes
  deriving DecidableEq

variable {Schema Row : Type}

def ParquetFile.table (f : ParquetFile Schema Row) : Table Schema Row := ⟨f.schema, f.rowGroups.flatten⟩

def FileMetaData.numRows (md : FileMetaData Schema) : Nat := md.rowGroupRows.sum

/-! ## Row groups -/

/-- The row groups `WriteTable` cuts: chunk `k` starts at row `k * chunkSize`, as long as there is such a row. -/
def chunks (chunkSize : Nat) (rows : List Row) : List (List Row) :=
  (List.range ((rows.length + chunkSize - 1) / chunkSize)).map fun k => (rows.drop (k * chunkSize)).take chunkSize

theorem flatten_range_chunks (n : Nat) (rows : List Row) : ∀ m : Nat,
    ((List.range m).map fun k => (rows.drop (k * n)).take n).flatten = rows.take (m * n)
  | 0 => by simp
  | m + 1 => by
    rw [List.range_succ, List.map_append, List.flatten_append, flatten_range_chunks n rows m, Nat.succ_mul, List.take_add]
    simp

theorem flatten_chunks {chunkSize : Nat} (h : 0 < chunkSize) (rows : List Row) :
    (chunks chunkSize rows).flatten = rows := by
  have hlen : rows.length ≤ (rows.length + chunkSize - 1) / chunkSize * chunkSize := by
    have := Nat.div_add_mod (rows.length + chunkSize - 1) chunkSize
    have := Nat.mod_lt (rows.length + chunkSize - 1) h
    rw [Nat.mul_comm]
    omega
  unfold chunks
  rw [flatten_range_chunks, List.take_of_length_le hlen]

/-- `parquet::arrow::WriteTable`, up to the bytes; a table without rows is one empty row group. -/
def writeTable (chunkSize : Nat) (t : Table Schema Row) : ParquetFile Schema Row :=
  ⟨t.schema, if t.rows.isEmpty then [[]] else chunks chunkSize t.rows⟩

/-- **No row is lost or moved by the cut into row groups.** -/
theorem flatten_writeTable {chunkSize : Nat} (h : 0 < chunkSize) (t : Table Schema Row) :
    (writeTable chunkSize t).rowGroups.flatten = t.rows := by
  cases t with
  | mk schema rows =>
    cases rows with
    | nil => rfl
    | cons r rows => exact flatten_chunks h (r :: rows)

theorem length_le_of_mem_chunks {chunkSize : Nat} {rows g : List Row} (h : g ∈ chunks chunkSize rows) :
    g.length ≤ chunkSize := by
  obtain ⟨k, -, rfl⟩ := List.mem_map.1 h
  rw [List.length_take]
  omega

theorem length_le_of_mem_writeTable {chunkSize : Nat} {t : Table Schema Row} {g : List Row}
    (h : g ∈ (writeTable chunkSize t).rowGroups) : g.length ≤ chunkSize := by
  unfold writeTable at h
  by_cases ht : t.rows.isEmpty
  · simp only [ht, if_true, List.mem_singleton] at h
    rw [h]
    exact Nat.zero_le _
  · simp only [ht, Bool.false_eq_true, if_false] at h
    exact length_le_of_mem_chunks h

theorem table_writeTable {chunkSize : Nat} (h : 0 < chunkSize) (t : Table Schema Row) :
    (writeTable chunkSize t).table = t := by
  unfold ParquetFile.table
  rw [flatten_writeTable h]
  rfl

/-- The batches a `TableBatchReader` makes of a table. -/
def Table.toRecordBatches (t : Table Schema Row) : List (List Row) := if t.rows.isEmpty then [] else [t.rows]

@[simp] theorem flatten_toRecordBatches (t : Table Schema Row) : t.toRecordBatches.flatten = t.rows := by
  cases t with
  | mk schema rows => cases rows <;> simp [Table.toRecordBatches]

/-! ## Bytes -/

/-- Arrow's Parquet writer and reader. -/
structure Parquet (Schema Row : Type) where
  serialize : ParquetFile Schema Row → Bytes
  footer : ParquetFile Schema Row → Bytes
  openFile : Bytes → Option (FileMetaData Schema)
  readTable : FileMetaData Schema → Bytes → Option (List Row)
  openFile_serialize : ∀ f, openFile (serialize f) = some ⟨f.schema, f.rowGroups.map List.length, footer f⟩
  readTable_serialize : ∀ f,
    readTable ⟨f.schema, f.rowGroups.map List.length, footer f⟩ (serialize f) = some f.rowGroups.flatten

namespace Parquet

variable (pq : Parquet Schema Row)

/-- A file that is empty, or was not completely written, is no Parquet file. -/
def RejectsPartial : Prop :=
  pq.openFile [] = none ∧ ∀ f k, k < (pq.serialize f).length → pq.openFile ((pq.serialize f).take k) = none

def readFile (b : Bytes) : Option (Table Schema Row) := do
  let md ← pq.openFile b
  let rows ← pq.readTable md b
  return ⟨md.schema, rows⟩

/-- The bytes of `WriteTable(table, sink, chunk_size = 65536)`. -/
def encode (t : Table Schema Row) : Bytes := pq.serialize (writeTable 65536 t)

def encodedMetaData (t : Table Schema Row) : FileMetaData Schema :=
  ⟨t.schema, (writeTable 65536 t).rowGroups.map List.length, pq.footer (writeTable 65536 t)⟩

@[simp] theorem openFile_encode (t : Table Schema Row) : pq.openFile (pq.encode t) = some (pq.encodedMetaData t) :=
  pq.openFile_serialize _

@[simp] theorem encodedMetaData_schema (t : Table Schema Row) : (pq.encodedMetaData t).schema = t.schema := rfl

@[simp] theorem encodedMetaData_numRows (t : Table Schema Row) : (pq.encodedMetaData t).numRows = t.rows.length := by
  show ((writeTable 65536 t).rowGroups.map List.length).sum = _
  rw [← List.length_flatten, flatten_writeTable (by decide)]

@[simp] theorem readTable_encode (t : Table Schema Row) :
    pq.readTable (pq.encodedMetaData t) (pq.encode t) = some t.rows := by
  rw [← flatten_writeTable (show 0 < 65536 by decide) t]
  exact pq.readTable_serialize (writeTable 65536 t)

/-- **A table that was written reads back.** -/
@[simp] theorem readFile_encode (t : Table Schema Row) : pq.readFile (pq.encode t) = some t := by
  simp [readFile]

theorem encode_ne_nil (h : pq.RejectsPartial) (t : Table Schema Row) : pq.encode t ≠ [] := fun hnil => by
  have := pq.openFile_encode t
  rw [hnil, h.1] at this
  cases this

/-- The bytes are a Parquet file of these row groups: its footer counts them, and the rows it reads are theirs. -/
def Holds (b : Bytes) (f : ParquetFile Schema Row) : Prop :=
  ∃ footer, pq.openFile b = some ⟨f.schema, f.rowGroups.map List.length, footer⟩ ∧
    pq.readTable ⟨f.schema, f.rowGroups.map List.length, footer⟩ b = some f.rowGroups.flatten

/-- A valid Parquet file. -/
def Valid (b : Bytes) : Prop := ∃ f, pq.Holds b f

theorem holds_serialize (f : ParquetFile Schema Row) : pq.Holds (pq.serialize f) f :=
  ⟨pq.footer f, pq.openFile_serialize f, pq.readTable_serialize f⟩

theorem valid_encode (t : Table Schema Row) : pq.Valid (pq.encode t) := ⟨writeTable 65536 t, pq.holds_serialize _⟩

variable {pq} in
theorem Holds.readFile {b : Bytes} {f : ParquetFile Schema Row} (h : pq.Holds b f) : pq.readFile b = some f.table := by
  obtain ⟨footer, ho, hr⟩ := h
  simp [Parquet.readFile, ho, hr, ParquetFile.table]

variable {pq} in
/-- **A valid file opens, and reads as many rows as its footer counts.** -/
theorem Valid.readFile {b : Bytes} (h : pq.Valid b) : ∃ md t, pq.openFile b = some md ∧ pq.readFile b = some t ∧
    t.schema = md.schema ∧ t.rows.length = md.numRows := by
  obtain ⟨f, hf⟩ := h
  have hread := hf.readFile
  obtain ⟨footer, ho, -⟩ := hf
  exact ⟨_, f.table, ho, hread, rfl, List.length_flatten⟩

end Parquet

/-! ## A codec

The least format with these laws, over rows of one byte: `2, r` is a row, `1` ends a row group and `0` ends the file.
-/

def tinyGroup (g : List UInt8) : Bytes := g.flatMap (fun r => [2, r]) ++ [1]

def tinyWrite (gs : List (List UInt8)) : Bytes := gs.flatMap tinyGroup ++ [0]

def tinyRead : Bytes → Option (List (List UInt8))
  | [] => none
  | [b] => if b = 0 then some [] else none
  | b :: r :: rest =>
    if b = 1 then (tinyRead (r :: rest)).map ([] :: ·)
    else if b = 2 then
      match tinyRead rest with
      | some (g :: gs) => some ((r :: g) :: gs)
      | _ => none
    else none

theorem tinyRead_group (g : List UInt8) (rest : Bytes) (hr : rest ≠ []) :
    tinyRead (tinyGroup g ++ rest) = (tinyRead rest).map (g :: ·) := by
  induction g with
  | nil =>
    obtain ⟨b, rest, rfl⟩ := List.exists_cons_of_ne_nil hr
    simp [tinyGroup, tinyRead]
  | cons r g ih =>
    have hcons : tinyGroup (r :: g) ++ rest = 2 :: r :: (tinyGroup g ++ rest) := by simp [tinyGroup]
    rw [hcons, tinyRead, if_neg (by decide), if_pos rfl, ih]
    cases tinyRead rest <;> rfl

theorem tinyWrite_ne_nil (gs : List (List UInt8)) : tinyWrite gs ≠ [] := by simp [tinyWrite]

theorem tinyWrite_cons (g : List UInt8) (gs : List (List UInt8)) :
    tinyWrite (g :: gs) = tinyGroup g ++ tinyWrite gs := by simp [tinyWrite]

theorem tinyRead_write : ∀ gs : List (List UInt8), tinyRead (tinyWrite gs) = some gs
  | [] => rfl
  | g :: gs => by rw [tinyWrite_cons, tinyRead_group g _ (tinyWrite_ne_nil gs), tinyRead_write gs]; rfl

theorem tinyRead_group_take (g : List UInt8) : ∀ k ≤ (tinyGroup g).length, tinyRead ((tinyGroup g).take k) = none := by
  induction g with
  | nil =>
    intro k hk
    simp only [tinyGroup, List.flatMap_nil, List.nil_append, List.length_singleton] at hk
    rcases Nat.le_one_iff_eq_zero_or_eq_one.1 hk with rfl | rfl <;> rfl
  | cons r g ih =>
    have hcons : tinyGroup (r :: g) = 2 :: r :: tinyGroup g := by simp [tinyGroup]
    intro k hk
    match k with
    | 0 => rfl
    | 1 => simp [hcons, tinyRead]
    | k + 2 =>
      rw [hcons, List.length_cons, List.length_cons] at hk
      rw [hcons, List.take_succ_cons, List.take_succ_cons, tinyRead, if_neg (by decide), if_pos rfl, ih k (by omega)]

theorem tinyRead_take (gs : List (List UInt8)) : ∀ k < (tinyWrite gs).length, tinyRead ((tinyWrite gs).take k) = none := by
  induction gs with
  | nil =>
    intro k hk
    obtain rfl : k = 0 := by simpa [tinyWrite] using hk
    rfl
  | cons g gs ih =>
    intro k hk
    rw [tinyWrite_cons, List.length_append] at hk
    rw [tinyWrite_cons, List.take_append]
    rcases Nat.lt_or_ge (tinyGroup g).length k with h | h
    · rw [List.take_of_length_le (by omega), tinyRead_group g _ (by
        have := tinyWrite_ne_nil gs
        simp only [ne_eq, List.take_eq_nil_iff, not_or]
        exact ⟨by omega, this⟩), ih _ (by omega)]
      rfl
    · rw [Nat.sub_eq_zero_of_le h, List.take_zero, List.append_nil]
      exact tinyRead_group_take g k h

/-- The format as Arrow's codec: the footer is the whole file. -/
def tinyParquet : Parquet Unit UInt8 where
  serialize f := tinyWrite f.rowGroups
  footer f := tinyWrite f.rowGroups
  openFile b := (tinyRead b).map fun gs => ⟨(), gs.map List.length, b⟩
  readTable md b := if md.footer = b then (tinyRead b).map List.flatten else none
  openFile_serialize f := by simp [tinyRead_write]
  readTable_serialize f := by simp [tinyRead_write]

theorem tinyParquet_rejectsPartial : tinyParquet.RejectsPartial :=
  ⟨rfl, fun f k hk => by simp [tinyParquet, tinyRead_take f.rowGroups k hk]⟩

end Arrow
