import FlightPlayground.PutFailure
/-!
# DoPutClient — an upload from the `basic_doput` client to its server

The client reads a file's row groups as batches and writes them one by one; the server makes a table of them and cuts it
into row groups of its own.  What is left of the file is its schema and its rows, and a second upload changes nothing.
-/
namespace DoPutFlightClient

open Posix (Bytes Node NodePath FileTree utf8)
open Arrow
open Flight

variable {Schema Row : Type} (pq : Parquet Schema Row)

/-! ## The client -/

/-- `GetRecordBatchReader(row_groups)`: what `Next` returns, time after time, up to the null that ends it. -/
structure BatchReader where
  getRecordBatchReader : FileMetaData Schema → Bytes → List Nat → Result (List (Result (List Row)))
  rows : ∀ md b f groups (batches : List (List Row)), pq.Holds b f → pq.openFile b = some md →
    getRecordBatchReader md b groups = .ok (batches.map .ok) →
    batches.flatten = groups.flatMap fun k => f.rowGroups.getD k []

/-- What the calls on a connection return: `client->DoPut`, the writes one after another, and `writer->Close`. -/
structure Connection where
  doPut : Result Unit
  writeRecordBatch : Nat → Result Unit
  close : Result Unit

/-- What the client has written when it returns, and whether it has come to close the stream. -/
structure PutStream (Schema Row : Type) where
  descriptor : FlightDescriptor
  schema : Schema
  batches : List (List Row)
  closed : Bool

/-- The loop of `DoPut`, and the batches it has written when it ends. -/
def writeLoop (conn : Connection) : List (Result (List Row)) → List (List Row) → Result Unit × List (List Row)
  | [], written => (.ok (), written)
  | .error e :: _, written => (.error e, written)
  | .ok batch :: batches, written =>
    match conn.writeRecordBatch written.length with
    | .error e => (.error e, written)
    | .ok () => writeLoop conn batches (written ++ [batch])

variable {pq} in
def doPut (batchReader : BatchReader pq) (conn : Connection) (root : SubTreeFileSystem) (path : Bytes) :
    Result Unit × Option (PutStream Schema Row) :=
  match root.openInputFile path with
  | .error e => (.error e, none)
  | .ok input =>
    match DatasetServer.openParquet pq input with
    | .error e => (.error e, none)
    | .ok reader =>
      match conn.doPut with
      | .error e => (.error e, none)
      | .ok () =>
        match batchReader.getRecordBatchReader reader input (List.range reader.rowGroupRows.length) with
        | .error e => (.error e, some ⟨.ofPath [path], reader.schema, [], false⟩)
        | .ok batches =>
          match writeLoop conn batches [] with
          | (.error e, written) => (.error e, some ⟨.ofPath [path], reader.schema, written, false⟩)
          | (.ok (), written) => (conn.close, some ⟨.ofPath [path], reader.schema, written, true⟩)

/-- What the server reads of a stream: its batches in order, all of them if it does not break. -/
structure Delivers (stream : PutStream Schema Row) (reader : FlightMessageReader Schema Row) : Prop where
  descriptor : reader.descriptor = stream.descriptor
  schema : reader.schema = stream.schema
  inOrder : reader.batches <+: stream.batches
  complete : reader.failure = none → reader.batches = stream.batches

/-! ## What it sends -/

variable {pq}

theorem writeLoop_ok (conn : Connection) : ∀ (items : List (Result (List Row))) (written written' : List (List Row)),
    writeLoop conn items written = (.ok (), written') → ∃ batches, items = batches.map .ok ∧ written' = written ++ batches
  | [], written, written', h => ⟨[], rfl, by cases h; simp⟩
  | .error e :: items, written, written', h => by cases h
  | .ok batch :: items, written, written', h => by
    rw [writeLoop] at h
    cases hw : conn.writeRecordBatch written.length with
    | error e => simp [hw] at h
    | ok u =>
      simp only [hw] at h
      obtain ⟨batches, rfl, rfl⟩ := writeLoop_ok conn items _ _ h
      exact ⟨batch :: batches, rfl, by simp⟩

theorem flatMap_range_getD (l : List (List Row)) : (List.range l.length).flatMap (fun k => l.getD k []) = l.flatten := by
  have hmap : (List.range l.length).map (fun k => l.getD k []) = l := by
    apply List.ext_getElem
    · simp
    · intro k hk hk'
      simp [hk']
  rw [List.flatMap_def, hmap]

/-- **A client that succeeds has written the rows of its file in order**, under the file's schema. -/
theorem doPut_ok {batchReader : BatchReader pq} {conn : Connection} {root : SubTreeFileSystem} {path b : Bytes}
    {f : ParquetFile Schema Row} {stream : Option (PutStream Schema Row)} (hfile : root.nodeAt path = some (.file b))
    (hb : pq.Holds b f) (h : doPut batchReader conn root path = (.ok (), stream)) :
    ∃ batches, stream = some ⟨.ofPath [path], f.schema, batches, true⟩ ∧ batches.flatten = f.rowGroups.flatten := by
  obtain ⟨footer, hmd, -⟩ := id hb
  unfold doPut at h
  rw [SubTreeFileSystem.openInputFile_of_file hfile] at h
  simp only [DatasetServer.openParquet, hmd, List.length_map] at h
  cases hc : conn.doPut with
  | error e => simp [hc] at h
  | ok u =>
    simp only [hc] at h
    cases hg : batchReader.getRecordBatchReader ⟨f.schema, f.rowGroups.map List.length, footer⟩ b
        (List.range f.rowGroups.length) with
    | error e => simp [hg] at h
    | ok items =>
      simp only [hg] at h
      cases hl : writeLoop conn items [] with
      | mk result written =>
        cases result with
        | error e => simp [hl] at h
        | ok u =>
          simp only [hl, Prod.mk.injEq] at h
          obtain ⟨batches, rfl, hwritten⟩ := writeLoop_ok conn items [] _ hl
          obtain rfl : written = batches := hwritten
          refine ⟨written, h.2.symm, ?_⟩
          rw [batchReader.rows _ b f _ written hb hmd hg, flatMap_range_getD]

/-! ## An upload -/

/-- An upload from a client to the server: the client has read the path in its own directory, and both have succeeded. -/
structure Uploads (batchReader : BatchReader pq) (client : SubTreeFileSystem) (path : Bytes)
    (before after : SubTreeFileSystem) where
  conn : Connection
  stream : PutStream Schema Row
  reader : FlightMessageReader Schema Row
  writeFailure : Option WriteFailure
  sent : doPut batchReader conn client path = (.ok (), some stream)
  delivers : Delivers stream reader
  received : BasicDoPutFlightServer.doPut pq before ⟨reader, writeFailure⟩ = (.ok (), after)

/-- **What an upload leaves on the server**: its table, written anew in the file the path names. -/
theorem Uploads.stored {batchReader : BatchReader pq} {client before after : SubTreeFileSystem} {path b : Bytes}
    {f : ParquetFile Schema Row} (u : Uploads batchReader client path before after)
    (hfile : client.nodeAt path = some (.file b))
    (hb : pq.Holds b f) : ∃ p, before.resolve path = .ok p ∧ before.tree.CanHoldFile p ∧
      after = before.setFile p (pq.encode f.table) := by
  obtain ⟨conn, stream, reader, writeFailure, hsent, hdel, hreceived⟩ := u
  obtain ⟨batches, hstream, hrows⟩ := doPut_ok hfile hb hsent
  obtain rfl := Option.some.inj hstream
  cases hs : DatasetServer.sinkPath before reader.descriptor with
  | none =>
    obtain ⟨e, he⟩ := DatasetServer.doPut_of_sinkPath_none (u := ⟨reader, writeFailure⟩) pq hs
    unfold BasicDoPutFlightServer.doPut at hreceived
    rw [he] at hreceived
    cases hreceived
  | some p =>
    obtain ⟨hleft, hput⟩ | ⟨bytes, e, -, hput⟩ := DatasetServer.doPut_of_sinkPath (u := ⟨reader, writeFailure⟩) pq hs
    · have htable : reader.table = f.table := by
        have hall := hdel.complete (DatasetServer.leftover_eq_none.1 hleft).1
        unfold FlightMessageReader.table
        rw [hall, hdel.schema, hrows]
        rfl
      unfold BasicDoPutFlightServer.doPut at hreceived
      rw [hput, htable] at hreceived
      rw [hdel.descriptor] at hs
      obtain ⟨s, hn, hp⟩ := Option.bind_eq_some_iff.1 hs
      obtain rfl : path = s := Option.some.inj hn
      have hresolve := (SubTreeFileSystem.outputPath_eq_some.1 hp).2.1
      rw [SubTreeFileSystem.resolve_removeLeadingSlash] at hresolve
      exact ⟨p, hresolve, DatasetServer.canHoldFile_of_sinkPath (by rw [DatasetServer.sinkPath, hn]; exact hp),
        (congrArg Prod.snd hreceived).symm⟩
    · unfold BasicDoPutFlightServer.doPut at hreceived
      rw [hput] at hreceived
      cases hreceived

/-- The server's file has the schema and the rows of the client's, in row groups of at most 65536 rows. -/
structure Regrouped (f g : ParquetFile Schema Row) : Prop where
  schema : g.schema = f.schema
  rows : g.rowGroups.flatten = f.rowGroups.flatten
  bound : ∀ rows ∈ g.rowGroups, rows.length ≤ 65536
  count : (g.rowGroups.map List.length).sum = (f.rowGroups.map List.length).sum

theorem regrouped_writeTable (f : ParquetFile Schema Row) : Regrouped f (writeTable 65536 f.table) where
  schema := rfl
  rows := flatten_writeTable (by decide) f.table
  bound _ h := length_le_of_mem_writeTable h
  count := by rw [← List.length_flatten, flatten_writeTable (by decide), ← List.length_flatten]; rfl

/-- **An upload that succeeds keeps the schema and the rows in order**, however the file was cut into row groups and they
into batches; **and when what the server holds is uploaded again, the server's store stays as it is.** -/
theorem upload_regroups (batchReader : BatchReader pq) (client before after : SubTreeFileSystem) (path b : Bytes)
    (f : ParquetFile Schema Row) (hfile : client.nodeAt path = some (.file b)) (hb : pq.Holds b f)
    (u : Uploads batchReader client path before after) :
    ∃ c g, after.nodeAt path = some (.file c) ∧ pq.Holds c g ∧ Regrouped f g ∧
      ∀ (batchReader' : BatchReader pq) (client' after' : SubTreeFileSystem), client'.nodeAt path = some (.file c) →
        ∀ _ : Uploads batchReader' client' path after after', after' = after := by
  obtain ⟨p, hp, hcan, rfl⟩ := u.stored hfile hb
  have hheld : pq.Holds (pq.encode f.table) (writeTable 65536 f.table) := pq.holds_serialize _
  have hresolve : (before.setFile p (pq.encode f.table)).resolve path = .ok p :=
    ((SubTreeFileSystem.SameDirs.refl before).setFile p _).resolve_ok.2 hp
  refine ⟨pq.encode f.table, writeTable 65536 f.table, ?_, hheld, regrouped_writeTable f, ?_⟩
  · rw [SubTreeFileSystem.nodeAt_eq_file]
    exact ⟨p, hresolve, by rw [SubTreeFileSystem.setFile_tree, FileTree.node_setFile hcan, if_pos rfl]⟩
  · intro batchReader' client' after' hfile' u'
    obtain ⟨q, hq, -, rfl⟩ := u'.stored hfile' hheld
    obtain rfl : p = q := Except.ok.inj (hresolve.symm.trans hq)
    rw [SubTreeFileSystem.setFile_setFile, table_writeTable (by decide)]

/-! ## A file of two row groups -/

theorem tinyRowGroups {b : Bytes} {f : ParquetFile Unit UInt8} (hb : tinyParquet.Holds b f) :
    tinyRead b = some f.rowGroups := by
  obtain ⟨footer, ho, hr⟩ := hb
  obtain ⟨gs, hgs, hmd⟩ := Option.map_eq_some_iff.1 ho
  simp only [FileMetaData.mk.injEq] at hmd
  obtain ⟨-, hlen, rfl⟩ := hmd
  simp only [tinyParquet, if_true, hgs, Option.map_some, Option.some.injEq] at hr
  rw [hgs, List.eq_iff_flatten_eq.2 ⟨hr, hlen⟩]

/-- Each row group as one batch. -/
def tinyBatches : BatchReader tinyParquet where
  getRecordBatchReader _ b groups :=
    match tinyRead b with
    | some gs => .ok (groups.map fun k => .ok (gs.getD k []))
    | none => .error (.IOError .parquet)
  rows md b f groups batches hb _ h := by
    simp only [tinyRowGroups hb, Except.ok.injEq] at h
    have hinj : Function.Injective (Except.ok : List UInt8 → Result (List UInt8)) := fun _ _ heq => Except.ok.inj heq
    obtain rfl : groups.map (fun k => f.rowGroups.getD k []) = batches := by
      apply List.map_injective_iff.2 hinj
      rw [List.map_map]
      exact h
    rw [List.flatMap_def]

/-- Row groups of two rows, of none and of one. -/
def threeGroups : ParquetFile Unit UInt8 := ⟨(), [[1, 2], [], [3]]⟩

def client : SubTreeFileSystem := PutFailure.oneFile (utf8 "data.parquet") (tinyParquet.serialize threeGroups)

def upload : Uploads tinyBatches client (utf8 "data.parquet") .bare
    (PutFailure.oneFile (utf8 "data.parquet") (tinyParquet.encode ⟨(), [1, 2, 3]⟩)) where
  conn := ⟨.ok (), fun _ => .ok (), .ok ()⟩
  stream := ⟨.ofPath [utf8 "data.parquet"], (), [[1, 2], [], [3]], true⟩
  reader := ⟨.ofPath [utf8 "data.parquet"], (), [[1, 2], [], [3]], none⟩
  writeFailure := none
  sent := rfl
  delivers := ⟨rfl, rfl, List.prefix_rfl, fun _ => rfl⟩
  received := by
    have hs : DatasetServer.sinkPath SubTreeFileSystem.bare (.ofPath [utf8 "data.parquet"]) = some [utf8 "data.parquet"] := by
      decide +kernel
    obtain ⟨-, hput⟩ | ⟨b, e, hb, -⟩ := DatasetServer.doPut_of_sinkPath tinyParquet
      (u := ⟨⟨.ofPath [utf8 "data.parquet"], (), [[1, 2], [], [3]], none⟩, none⟩) hs
    · exact hput
    · cases hb

theorem upload_regroups_threeGroups :
    ∃ c g, (PutFailure.oneFile (utf8 "data.parquet") (tinyParquet.encode ⟨(), [1, 2, 3]⟩)).nodeAt (utf8 "data.parquet") =
        some (.file c) ∧
      tinyParquet.Holds c g ∧ Regrouped threeGroups g ∧
      ∀ (batchReader' : BatchReader tinyParquet) (client' after' : SubTreeFileSystem),
        client'.nodeAt (utf8 "data.parquet") = some (.file c) →
        ∀ _ : Uploads batchReader' client' (utf8 "data.parquet")
          (PutFailure.oneFile (utf8 "data.parquet") (tinyParquet.encode ⟨(), [1, 2, 3]⟩)) after',
          after' = PutFailure.oneFile (utf8 "data.parquet") (tinyParquet.encode ⟨(), [1, 2, 3]⟩) :=
  upload_regroups tinyBatches client .bare _ (utf8 "data.parquet") (tinyParquet.serialize threeGroups) threeGroups
    (by decide +kernel) (tinyParquet.holds_serialize _) upload

end DoPutFlightClient
