import FlightPlayground.PutFailure
/-!
# NameRoutes — whether the names a server mints lead back to the file

A path reaches a file through `DoPut`, `GetFlightInfo` and `drop_dataset` as it is; the descriptor and the ticket that
`MakeFlightInfo` mints hold its base name.  The two agree for a file of the root directory, and for no other.
-/
namespace NameRoutes

open Posix (Bytes Node NodePath FileTree utf8)
open Arrow
open Flight
open DatasetServer (sinkPath mintedInfo doActionDropDataset)

variable {Schema Row : Type} (pq : Parquet Schema Row) (port : Nat)

def fetch (root : SubTreeFileSystem) (ticket : Ticket) : Option (Table Schema Row) :=
  (FlightStressTestServer.doGet pq root ticket).toOption.map FlightDataStream.readAll

/-- The info `f` leads back to the file at `p`: its descriptor gets it again, its first ticket fetches what the file
reads as, its name drops that file and no other, and what was last put there through `d` is what is fetched. -/
structure LeadsTo (root : SubTreeFileSystem) (d : FlightDescriptor) (f : FlightInfo Schema) (p : NodePath) : Prop where
  again : FlightStressTestServer.getFlightInfo pq port root f.descriptor = .ok f
  fetched : ∃ endpoint, f.endpoints[0]? = some endpoint ∧
    ∀ c, root.tree.node p = some (.file c) → fetch pq root endpoint.ticket = pq.readFile c
  dropped : ∃ name, f.descriptor.path[0]? = some name ∧ doActionDropDataset root name = (.ok (), root.unlink p)
  put : ∀ (before : SubTreeFileSystem) (u : Upload Schema Row), u.reader.descriptor = d →
    sinkPath before d = some p → (FlightStressTestServer.doPut pq before u).1 = .ok () →
    (FlightStressTestServer.doPut pq before u).2.tree.node p = root.tree.node p →
    ∃ endpoint, f.endpoints[0]? = some endpoint ∧ fetch pq root endpoint.ticket = some u.reader.table

/-- The path names an entry of the root directory itself. -/
def NamesRootEntry (root : SubTreeFileSystem) (s : Bytes) : Prop := ∃ n, root.resolve s = .ok (n :: root.base)

/-- **The name minted for a file is its own name, looked up in the root directory.** -/
theorem resolve_minted {root : SubTreeFileSystem} {s : Bytes} {p : NodePath} {c : Bytes} (hr : root.resolve s = .ok p)
    (hp : root.tree.node p = some (.file c)) :
    ∃ d, p = Posix.baseName (Posix.removeLeadingSlash s) :: d ∧ Posix.ValidName (Posix.baseName (Posix.removeLeadingSlash s)) :=
  have ⟨d, h, hn, _⟩ := FileTree.resolve_baseName root.base_dir hr (by simp [hp])
  ⟨d, h, hn⟩

theorem unlink_injective {root : SubTreeFileSystem} {p q : NodePath} {c c' : Bytes}
    (hp : root.tree.node p = some (.file c)) (hq : root.tree.node q = some (.file c'))
    (h : root.unlink p = root.unlink q) : p = q := by
  by_contra hne
  have hpp : (root.unlink p).tree.node p = none := by
    rw [SubTreeFileSystem.unlink_tree, FileTree.node_unlink (by simp [hp]), if_pos rfl]
  rw [h, SubTreeFileSystem.unlink_tree, FileTree.node_unlink (by simp [hq]), if_neg hne, hp] at hpp
  cases hpp

theorem namesRootEntry_of_dropped {root : SubTreeFileSystem} {s : Bytes} {p : NodePath} {c : Bytes}
    (hr : root.resolve s = .ok p) (hp : root.tree.node p = some (.file c))
    (hdrop : doActionDropDataset root (Posix.baseName (Posix.removeLeadingSlash s)) = (.ok (), root.unlink p)) :
    NamesRootEntry root s := by
  obtain ⟨d, hpd, hn⟩ := resolve_minted hr hp
  obtain ⟨q, c', hq, hqf, hres⟩ | ⟨-, e, hres⟩ := DatasetServer.doActionDropDataset_cases root
    (Posix.baseName (Posix.removeLeadingSlash s))
  · rw [hdrop] at hres
    obtain rfl : p = q := unlink_injective hp hqf (congrArg Prod.snd hres)
    rw [SubTreeFileSystem.resolve_of_valid hn] at hq
    exact ⟨_, hr.trans hq.symm⟩
  · rw [hdrop] at hres
    cases congrArg Prod.fst hres

theorem leadsTo_of_namesRootEntry {root : SubTreeFileSystem} {d : FlightDescriptor} {s : Bytes} {p : NodePath}
    {c : Bytes} {md : FileMetaData Schema} (hr : root.resolve s = .ok p) (hp : root.tree.node p = some (.file c))
    (hmd : pq.openFile c = some md) (h : NamesRootEntry root s) :
    LeadsTo pq port root d (mintedInfo port (Posix.baseName (Posix.removeLeadingSlash s)) md c.length) p := by
  obtain ⟨n, hn⟩ := h
  obtain ⟨d', hpd, hv⟩ := resolve_minted hr hp
  generalize Posix.baseName (Posix.removeLeadingSlash s) = name at hpd hv ⊢
  obtain ⟨rfl, rfl⟩ : name = n ∧ d' = root.base := by
    rw [hn] at hr
    have := hpd.symm.trans (Except.ok.inj hr).symm
    exact List.cons.inj this
  obtain rfl := hpd
  have hnode : root.nodeAt name = some (.file c) := by rw [SubTreeFileSystem.nodeAt_of_valid hv, hp]
  have hfetch : fetch pq root ⟨name⟩ = pq.readFile c := DatasetServer.doGet_of_file pq hnode
  refine ⟨?_, ⟨_, rfl, fun c' hc' => ?_⟩, ⟨name, rfl, ?_⟩, fun before u hu hsink hok hsame => ⟨_, rfl, ?_⟩⟩
  · refine (DatasetServer.getFlightInfo_ok_iff (DatasetServer.nameOf_ofPath name)).2 ⟨c, md, hnode, hmd, ?_⟩
    rw [Posix.removeLeadingSlash_of_valid hv, Posix.baseName_of_valid hv]
  · rw [hp] at hc'
    cases hc'
    exact hfetch
  · obtain ⟨q, c', hq, -, hres⟩ | ⟨hno, -⟩ := DatasetServer.doActionDropDataset_cases root name
    · rw [SubTreeFileSystem.resolve_of_valid hv] at hq
      cases hq
      exact hres
    · exact absurd hnode (hno c)
  · rw [← hu] at hsink
    obtain ⟨-, hput⟩ | ⟨b, e, -, hput⟩ := DatasetServer.doPut_of_sinkPath pq hsink
    · rw [FlightStressTestServer.doPut, hput, hp, SubTreeFileSystem.setFile_tree,
        FileTree.node_setFile (DatasetServer.canHoldFile_of_sinkPath hsink), if_pos rfl] at hsame
      cases hsame
      exact hfetch.trans (pq.readFile_encode _)
    · unfold FlightStressTestServer.doPut at hok
      rw [hput] at hok
      cases hok

/-- **The info of a path leads back to the file the path names exactly when that file is an entry of the root
directory.** -/
theorem getFlightInfo_leadsTo_iff (root : SubTreeFileSystem) (d : FlightDescriptor) (s : Bytes) (f : FlightInfo Schema)
    (ht : d.type = .PATH) (hs : d.path = [s]) (h : FlightStressTestServer.getFlightInfo pq port root d = .ok f) :
    (∃ p, root.resolve s = .ok p ∧ LeadsTo pq port root d f p) ↔ NamesRootEntry root s := by
  obtain ⟨c, md, hn, hmd, rfl⟩ := (DatasetServer.getFlightInfo_ok_iff (DatasetServer.nameOf_eq_some.2 ⟨ht, hs⟩)).1 h
  obtain ⟨p, hr, hp⟩ := SubTreeFileSystem.nodeAt_eq_file.1 hn
  constructor
  · rintro ⟨q, hq, hl⟩
    obtain rfl : p = q := by
      rw [hr] at hq
      exact Except.ok.inj hq
    obtain ⟨name, hname, hdrop⟩ := hl.dropped
    obtain rfl : Posix.baseName (Posix.removeLeadingSlash s) = name := by
      simpa [mintedInfo, FlightDescriptor.ofPath] using hname
    exact namesRootEntry_of_dropped hr hp hdrop
  · exact fun hn => ⟨p, hr, leadsTo_of_namesRootEntry pq port hr hp hmd hn⟩

theorem getFlightInfo_leadsTo_rootEntry :
    ∃ p, (PutFailure.oneFile (utf8 "a.parquet") (tinyParquet.encode ⟨(), [7]⟩)).resolve (utf8 "a.parquet") = .ok p ∧
      LeadsTo tinyParquet 5000 (PutFailure.oneFile (utf8 "a.parquet") (tinyParquet.encode ⟨(), [7]⟩))
        (.ofPath [utf8 "a.parquet"])
        (mintedInfo 5000 (utf8 "a.parquet") (tinyParquet.encodedMetaData ⟨(), [7]⟩) (tinyParquet.encode ⟨(), [7]⟩).length) p :=
  (getFlightInfo_leadsTo_iff tinyParquet 5000 (PutFailure.oneFile (utf8 "a.parquet") (tinyParquet.encode ⟨(), [7]⟩))
    (.ofPath [utf8 "a.parquet"]) (utf8 "a.parquet") _ rfl rfl (by decide +kernel)).2 ⟨utf8 "a.parquet", by decide +kernel⟩

/-! ## A file below the root directory -/

def nested : SubTreeFileSystem :=
  (⟨FileTree.bare.mkdir (utf8 "sub") [], [], FileTree.node_nil _⟩ : SubTreeFileSystem).setFile
    [utf8 "a.parquet", utf8 "sub"] (tinyParquet.encode ⟨(), [7]⟩)

/-- The info of `sub/a.parquet` names `a.parquet`, which is not there. -/
theorem getFlightInfo_loses_nested :
    ∃ f, FlightStressTestServer.getFlightInfo tinyParquet 5000 nested (.ofPath [utf8 "sub/a.parquet"]) = .ok f ∧
      ¬ ∃ p, nested.resolve (utf8 "sub/a.parquet") = .ok p ∧
        LeadsTo tinyParquet 5000 nested (.ofPath [utf8 "sub/a.parquet"]) f p := by
  refine ⟨mintedInfo 5000 (utf8 "a.parquet") (tinyParquet.encodedMetaData ⟨(), [7]⟩) (tinyParquet.encode ⟨(), [7]⟩).length,
    by decide +kernel, ?_⟩
  rintro ⟨p, -, hl⟩
  have hlost : FlightStressTestServer.getFlightInfo tinyParquet 5000 nested (.ofPath [utf8 "a.parquet"])
      = .error (.IOError (.pathNotFound (utf8 "a.parquet"))) := by decide +kernel
  have hagain : FlightStressTestServer.getFlightInfo tinyParquet 5000 nested (.ofPath [utf8 "a.parquet"]) = .ok _ := hl.again
  rw [hlost] at hagain
  cases hagain

end NameRoutes
