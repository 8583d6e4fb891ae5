import FlightPlayground.PythonServer
import FlightPlayground.Confinement
/-!
# PythonConfinement — which requests reach a file outside the repository

A name is joined to the repository's path as `pathlib` joins: an absolute name replaces the path, and `..` is kept for
the operating system.  No handler looks at what it was given, so a name leads wherever it says.
-/
namespace PythonConfinement

open Posix (Bytes Node NodePath FileTree ValidName utf8)
open Posix.FileTree (Inside KeepsOutside SameFiles Change)
open Unordered (Enumeration)
open Pathlib (IsUtf8 Disk nul)
open Arrow
open Flight
open Python (WriteTableFailure)
open FlightServer (Request Response nameOf handle leftBy statusOf infoAt streamAt)

variable {Schema Row : Type} (pq : PyArrow Schema Row) (server : FlightServer) (base : NodePath)

/-- The disks are the same, but for the contents of files that are not among the kept ones. -/
structure SameDisk (kept : NodePath → Prop) (disk disk' : Disk) : Prop where
  cwd : disk'.cwd = disk.cwd
  tree : SameFiles kept disk.tree disk'.tree

/-- The disks are the same, but for the contents of files outside the repository. -/
abbrev SameRepository : Disk → Disk → Prop := SameDisk (Inside base)

/-- The bytes decode to a name that the handlers open at `p`. -/
def LeadsTo (disk : Disk) (s : Bytes) (p : NodePath) : Prop := IsUtf8 s ∧ disk.lookup (server.repo.join s) = .ok p

/-! ## The files a request touches -/

/-- `write_table` creates the file, or cuts it to nothing, writes it, and may delete it when it raises. -/
def writeTableChanges (disk : Disk) (table : Table Schema Row) (path : Pathlib.Path) (failure : Option WriteTableFailure) :
    List Change :=
  match Python.lookup disk path with
  | .error _ => []
  | .ok p =>
    if disk.tree.node p = some .dir then []
    else
      match leftBy pq table failure with
      | some b => [.create p, .write p 0 b]
      | none => [.create p, .delete p]

def doPutChanges (disk : Disk) (reader : FlightMessageReader Schema Row) (failure : Option WriteTableFailure) :
    List Change :=
  match Python.path0 reader.descriptor >>= Python.decode with
  | .error _ => []
  | .ok dataset =>
    match reader.toTable with
    | .error _ => []
    | .ok dataTable => writeTableChanges pq disk dataTable (server.repo.join dataset) failure

def unlinkChanges (disk : Disk) (path : Pathlib.Path) : List Change :=
  match Python.lookup disk path with
  | .error _ => []
  | .ok p =>
    match disk.tree.node p with
    | some (.file _) => [.delete p]
    | _ => []

def doActionChanges (disk : Disk) (action : Action) : List Change :=
  if action.type = utf8 "drop_dataset" then
    match Python.decode action.body with
    | .error _ => []
    | .ok dataset => unlinkChanges disk (server.repo.join dataset)
  else []

/-- The changes that a request makes to files, in the order in which it makes them. -/
def changes (disk : Disk) : Request Schema Row → List Change
  | .doPut reader failure => doPutChanges pq server disk reader failure
  | .doAction a => doActionChanges server disk a
  | _ => []

/-- The files that a request may open to read them: pyarrow chooses among those of a directory, and a listing ends at
the first that it cannot read. -/
def Opens (disk : Disk) (r : Request Schema Row) (q : NodePath) : Prop :=
  (∃ c, disk.tree.node q = some (.file c)) ∧
    match r with
    | .listFlights _ => ∃ p n, disk.lookup server.repo = .ok p ∧ q = n :: p
    | .getFlightInfo d => ∃ s ∈ nameOf d, LeadsTo server disk s q
    | .doGet t => ∃ p, LeadsTo server disk t.ticket p ∧ p <:+ q
    | _ => False

/-! ## Confinement -/

/-- The name in a request. -/
def nameIn : Request Schema Row → Option Bytes
  | .listFlights _ => none
  | .getFlightInfo d => nameOf d
  | .doPut reader _ => nameOf reader.descriptor
  | .doGet t => some t.ticket
  | .listActions => none
  | .doAction a => if a.type = utf8 "drop_dataset" then some a.body else none

/-- The handler raised. -/
def Raises : Response Schema Row → Prop
  | .flights r => ∃ e, r = .error e
  | .info r => ∃ e, r = .error e
  | .done r => ∃ e, r = .error e
  | .stream r => ∃ e, r = .error e
  | .actions _ => False

/-- The request is rejected, and no file is opened, created, changed or deleted for it. -/
structure Rejected (disk : Disk) (r : Request Schema Row) : Prop where
  raises : Raises (handle pq server disk r).1
  changes : changes pq server disk r = []
  opens : ∀ q, ¬ Opens server disk r q

/-- The request changes nothing outside the repository, its answer does not depend on what files there hold, and it is
rejected if its name leads outside. -/
structure Confined (disk : Disk) (r : Request Schema Row) : Prop where
  keeps : KeepsOutside base disk.tree (handle pq server disk r).2.tree
  blind : ∀ disk', SameRepository base disk disk' → (handle pq server disk' r).1 = (handle pq server disk r).1
  rejects : ∀ s ∈ nameIn r, ∀ p, LeadsTo server disk s p → ¬ Inside base p → Rejected pq server disk r

/-- The name leads to no file outside the repository. -/
def NamesNoFileOutside (disk : Disk) (s : Bytes) : Prop :=
  ∀ p c, LeadsTo server disk s p → disk.tree.node p = some (.file c) → Inside base p

/-- The request names no file outside the repository, an upload whose stream is read names none that it would create, and
a fetch names no directory outside. -/
def StaysInside (disk : Disk) : Request Schema Row → Prop
  | .listFlights _ => True
  | .getFlightInfo d => ∀ s ∈ nameOf d, NamesNoFileOutside server base disk s
  | .doPut reader _ => reader.failure = none → ∀ s ∈ nameOf reader.descriptor, ∀ p, LeadsTo server disk s p →
      disk.tree.node p ≠ some .dir → Inside base p
  | .doGet t => ∀ p, LeadsTo server disk t.ticket p → disk.tree.node p ≠ none → Inside base p
  | .listActions => True
  | .doAction a => a.type = utf8 "drop_dataset" → NamesNoFileOutside server base disk a.body

/-- The request fetches a directory outside the repository: pyarrow chooses the files of it that it reads. -/
def FetchesDirectoryOutside (disk : Disk) : Request Schema Row → Prop
  | .doGet t => ∃ p, LeadsTo server disk t.ticket p ∧ disk.tree.node p = some .dir ∧ ¬ Inside base p
  | _ => False

variable {pq server base} {kept : NodePath → Prop} {disk disk' : Disk}

theorem leadsTo_unique {s : Bytes} {p q : NodePath} (hp : LeadsTo server disk s p) (hq : LeadsTo server disk s q) :
    p = q := Except.ok.inj (hp.2.symm.trans hq.2)

/-! ## Disks that look the same -/

section Same

variable (h : SameDisk kept disk disk')

include h

theorem SameDisk.lookup_eq (path : Pathlib.Path) : disk'.lookup path = disk.lookup path := by
  unfold Disk.lookup
  rw [h.cwd, h.tree.walk_eq]

theorem SameDisk.makeFlightInfo_eq {s : Bytes}
    (hs : ∀ p c, disk.lookup (server.repo.join s) = .ok p → disk.tree.node p = some (.file c) → kept p) :
    FlightServer.makeFlightInfo pq server disk' s = FlightServer.makeFlightInfo pq server disk s := by
  cases hp : disk.lookup (server.repo.join s) with
  | error e =>
    rw [FlightServer.makeFlightInfo_of_lookup_error hp,
      FlightServer.makeFlightInfo_of_lookup_error (by rw [h.lookup_eq, hp])]
  | ok p =>
    rw [FlightServer.makeFlightInfo_of_lookup hp, FlightServer.makeFlightInfo_of_lookup (by rw [h.lookup_eq, hp]),
      h.tree.node_eq fun c hc => hs p c hp hc]

/-- **A listing reads the files in the repository's directory only.** -/
theorem SameDisk.listFlights_eq
    (hk : ∀ p n c, disk.lookup server.repo = .ok p → disk.tree.node (n :: p) = some (.file c) → kept (n :: p))
    (listdir : Enumeration (Bytes × Node)) : server.listFlights pq disk' listdir = server.listFlights pq disk listdir := by
  unfold FlightServer.listFlights
  cases hbase : disk.lookup server.repo with
  | error e => simp only [Python.iterdir, Python.lookup, h.lookup_eq, hbase, bind, Except.bind]
  | ok base =>
    have hdir : Python.iterdir disk' server.repo listdir = Python.iterdir disk server.repo listdir := by
      simp only [Python.iterdir, Python.lookup, h.lookup_eq, hbase, bind, Except.bind]
      rcases h.tree.others base with heq | ⟨c, c', hc, hc'⟩
      · rw [heq, h.tree.children_eq fun n c hc => hk base n c hbase hc]
      · rw [hc, hc']
    rw [hdir]
    by_cases hd : disk.tree.node base = some .dir
    · rw [FlightServer.iterdir_of_dir hbase hd]
      refine Unordered.mapM_congr fun n hn => h.makeFlightInfo_eq fun p c hp hc => ?_
      obtain ⟨⟨n', x⟩, hx, rfl⟩ := List.mem_map.1 hn
      rw [Enumeration.mem_list, FileTree.mem_children] at hx
      have hp' := Disk.lookup_join_eq_ok hbase hd (FileTree.validName_of_node hx) hp
      subst hp'
      exact hk base n' c hbase hc
    · simp only [Python.iterdir, Python.lookup, hbase, bind, Except.bind]
      rcases hx : disk.tree.node base with _ | _ | c
      · rfl
      · exact absurd hx hd
      · rfl

theorem SameDisk.doGet_eq {t : Ticket}
    (hk : ∀ p, LeadsTo server disk t.ticket p → ∀ q c, p <:+ q → disk.tree.node q = some (.file c) → kept q) :
    server.doGet pq disk' t = server.doGet pq disk t := by
  obtain ⟨s⟩ := t
  by_cases hu : IsUtf8 s
  · cases hp : disk.lookup (server.repo.join s) with
    | error e =>
      rw [FlightServer.doGet_of_lookup_error hu hp, FlightServer.doGet_of_lookup_error hu (by rw [h.lookup_eq, hp])]
    | ok p =>
      have hp' : disk'.lookup (server.repo.join s) = .ok p := by rw [h.lookup_eq, hp]
      have hbelow : ∀ q, p <:+ q → disk'.tree.node q = disk.tree.node q := fun q hq =>
        h.tree.node_eq fun c hc => hk p ⟨hu, hp⟩ q c hq hc
      by_cases hd : disk.tree.node p = some .dir
      · rw [FlightServer.doGet_of_dir hu hp hd, FlightServer.doGet_of_dir hu hp' ((h.tree.dir_iff p).2 hd),
          pq.readDataset_congr _ _ p hbelow]
      · rw [FlightServer.doGet_of_lookup hu hp hd, FlightServer.doGet_of_lookup hu hp' (by rwa [ne_eq, h.tree.dir_iff p]),
          hbelow p List.suffix_rfl]
  · rw [FlightServer.doGet_of_not_utf8 hu, FlightServer.doGet_of_not_utf8 hu]

/-- **Whether an upload raises is no matter of what files hold.** -/
theorem SameDisk.doPut_eq (reader : FlightMessageReader Schema Row) (failure : Option WriteTableFailure) :
    (server.doPut pq disk' reader failure).1 = (server.doPut pq disk reader failure).1 := by
  cases hn : nameOf reader.descriptor with
  | none =>
    obtain ⟨e, he⟩ := FlightServer.doPut_of_none pq server hn failure
    rw [he, he]
  | some s =>
    rw [FlightServer.doPut_of_name hn, FlightServer.doPut_of_name hn]
    cases reader.failure with
    | some e => rfl
    | none =>
      simp only [Python.writeTable, Python.lookup, h.lookup_eq]
      cases disk.lookup (server.repo.join s) with
      | error e => rfl
      | ok p =>
        simp only [h.tree.dir_iff p]
        split
        · rfl
        · cases failure <;> rfl

theorem SameDisk.doAction_eq (a : Action) : (server.doAction disk' a).1 = (server.doAction disk a).1 := by
  unfold FlightServer.doAction
  split
  · cases Python.decode a.body with
    | error e => rfl
    | ok s =>
      simp only [FlightServer.doDropDataset, Python.unlink, Python.lookup, h.lookup_eq]
      cases disk.lookup (server.repo.join s) with
      | error e => rfl
      | ok p =>
        rcases h.tree.others p with hp | ⟨c, c', hp, hp'⟩
        · simp only [hp]
          rcases disk.tree.node p with _ | _ | c <;> rfl
        · simp only [hp, hp']
  · rfl

end Same

/-- **An answer depends on no file but those that the request opens.** -/
theorem answer_of_opens {r : Request Schema Row} (h : SameDisk (Opens server disk r) disk disk') :
    (handle pq server disk' r).1 = (handle pq server disk r).1 := by
  cases r with
  | listFlights listdir =>
    exact congrArg Response.flights (h.listFlights_eq (fun p n c hp hc => ⟨⟨c, hc⟩, p, n, hp, rfl⟩) listdir)
  | listActions => rfl
  | getFlightInfo d =>
    refine congrArg Response.info ?_
    cases hn : nameOf d with
    | none =>
      obtain ⟨e, he⟩ := FlightServer.getFlightInfo_of_none pq server hn
      rw [he, he]
    | some s =>
      rw [FlightServer.getFlightInfo_of_name hn, FlightServer.getFlightInfo_of_name hn]
      exact h.makeFlightInfo_eq fun p c hp hc => ⟨⟨c, hc⟩, s, hn, FlightServer.isUtf8_of_name hn, hp⟩
  | doPut reader failure => exact congrArg Response.done (h.doPut_eq reader failure)
  | doGet t => exact congrArg Response.stream (h.doGet_eq fun p hp q c hq hc => ⟨⟨c, hc⟩, p, hp, hq⟩)
  | doAction a => exact congrArg Response.done (h.doAction_eq a)

/-! ## The changes, replayed -/

theorem doPutChanges_of_none {reader : FlightMessageReader Schema Row} (h : nameOf reader.descriptor = none)
    (failure : Option WriteTableFailure) : doPutChanges pq server disk reader failure = [] := by
  unfold nameOf at h
  unfold doPutChanges
  cases hn : Python.path0 reader.descriptor >>= Python.decode with
  | error e => rfl
  | ok n => simp [hn, Except.toOption] at h

theorem doPutChanges_of_name {s : Bytes} {reader : FlightMessageReader Schema Row} (h : nameOf reader.descriptor = some s)
    (failure : Option WriteTableFailure) :
    doPutChanges pq server disk reader failure =
      match reader.failure with
      | some _ => []
      | none => writeTableChanges pq disk reader.table (server.repo.join s) failure := by
  unfold doPutChanges
  rw [FlightServer.path0_decode_of_name h, FlightMessageReader.toTable]
  rcases reader.failure with _ | e <;> rfl

variable (pq) in
theorem writeTableChanges_of_lookup {path : Pathlib.Path} {p : NodePath} (h : disk.lookup path = .ok p)
    (hd : disk.tree.node p ≠ some .dir) (table : Table Schema Row) (failure : Option WriteTableFailure) :
    ∃ c, c.file = p ∧ writeTableChanges pq disk table path failure = [.create p, c] ∧
      disk.tree.replay [.create p, c] = (disk.leave p (leftBy pq table failure)).tree := by
  have hhold := Disk.canHoldFile_of_lookup h hd
  simp only [writeTableChanges, Python.lookup, h, if_neg hd]
  cases leftBy pq table failure with
  | some b => exact ⟨.write p 0 b, rfl, rfl, FileTree.replay_create_write hhold b⟩
  | none => exact ⟨.delete p, rfl, rfl, FileTree.replay_create_delete hhold⟩

variable (pq server disk) in
/-- **An upload whose stream is read creates the file that its name leads to**, or raises and changes nothing. -/
theorem doPut_cases (reader : FlightMessageReader Schema Row) (failure : Option WriteTableFailure) :
    (∃ s p c, reader.failure = none ∧ nameOf reader.descriptor = some s ∧ LeadsTo server disk s p ∧
      disk.tree.node p ≠ some .dir ∧ c.file = p ∧ doPutChanges pq server disk reader failure = [.create p, c] ∧
      disk.tree.replay [.create p, c] = (server.doPut pq disk reader failure).2.tree) ∨
    ((reader.failure = none → ∀ s ∈ nameOf reader.descriptor, ∀ p, LeadsTo server disk s p →
        disk.tree.node p = some .dir) ∧
      doPutChanges pq server disk reader failure = [] ∧ ∃ e, server.doPut pq disk reader failure = (.error e, disk)) := by
  cases hn : nameOf reader.descriptor with
  | none =>
    obtain ⟨e, he⟩ := FlightServer.doPut_of_none pq server hn failure
    exact .inr ⟨fun _ _ => nofun, doPutChanges_of_none hn failure, e, he disk⟩
  | some s =>
    have hu := FlightServer.isUtf8_of_name hn
    rw [FlightServer.doPut_of_name hn, doPutChanges_of_name hn]
    cases hf : reader.failure with
    | some e => exact .inr ⟨nofun, rfl, _, rfl⟩
    | none =>
      cases hp : disk.lookup (server.repo.join s) with
      | error e =>
        refine .inr ⟨fun _ s' hs' p hl => ?_, ?_, _, FlightServer.writeTable_of_lookup_error hp _ _⟩
        · cases hs'
          cases hp.symm.trans hl.2
        · simp only [writeTableChanges, Python.lookup, hp]
      | ok p =>
        by_cases hd : disk.tree.node p = some .dir
        · refine .inr ⟨fun _ s' hs' q hl => ?_, ?_, _, FlightServer.writeTable_of_dir hp hd _ _⟩
          · cases hs'
            rwa [← leadsTo_unique ⟨hu, hp⟩ hl]
          · simp only [writeTableChanges, Python.lookup, hp, if_pos hd]
        · obtain ⟨c, hc, hw, hreplay⟩ := writeTableChanges_of_lookup pq hp hd reader.table failure
          refine .inl ⟨s, p, c, rfl, rfl, ⟨hu, hp⟩, hd, hc, hw, ?_⟩
          rw [hreplay, FlightServer.writeTable_of_lookup hp hd]

variable (server disk) in
/-- **An action deletes the file that its name leads to**, or raises and changes nothing. -/
theorem doAction_cases (a : Action) :
    (a.type = utf8 "drop_dataset" ∧ ∃ p c, LeadsTo server disk a.body p ∧ disk.tree.node p = some (.file c) ∧
      doActionChanges server disk a = [.delete p] ∧ server.doAction disk a = (.ok (), disk.unlink p)) ∨
    ((a.type = utf8 "drop_dataset" → ∀ p c, LeadsTo server disk a.body p → disk.tree.node p ≠ some (.file c)) ∧
      doActionChanges server disk a = [] ∧ ∃ e, server.doAction disk a = (.error e, disk)) := by
  obtain ⟨ha, hu, p, c, hp, hc, hres⟩ | ⟨hno, hres⟩ := FlightServer.doAction_cases server disk a
  · refine .inl ⟨ha, p, c, ⟨hu, hp⟩, hc, ?_, hres⟩
    rw [doActionChanges, if_pos ha, FlightServer.decode_of_utf8 hu]
    simp only [unlinkChanges, Python.lookup, hp, hc]
  · refine .inr ⟨fun ha p c hl => hno ha hl.1 p c hl.2, ?_, hres⟩
    by_cases ha : a.type = utf8 "drop_dataset"
    · rw [doActionChanges, if_pos ha]
      by_cases hu : IsUtf8 a.body
      · rw [FlightServer.decode_of_utf8 hu]
        simp only [unlinkChanges, Python.lookup]
        cases hp : disk.lookup (server.repo.join a.body) with
        | error e => rfl
        | ok p =>
          rcases hx : disk.tree.node p with _ | _ | c
          · simp only [hx]
          · simp only [hx]
          · exact absurd hx (hno ha hu p c hp)
      · rw [FlightServer.decode_of_not_utf8 hu]
    · rw [doActionChanges, if_neg ha]

/-- **The changes of a request, replayed, lead to the disk that its handler leaves.** -/
theorem replay_changes (r : Request Schema Row) :
    disk.tree.replay (changes pq server disk r) = (handle pq server disk r).2.tree := by
  cases r with
  | doPut reader failure =>
    obtain ⟨s, p, c, -, -, -, -, -, hch, hreplay⟩ | ⟨-, hch, e, he⟩ := doPut_cases pq server disk reader failure
    · rw [changes, hch, hreplay]
      rfl
    · simp only [changes, hch, handle, he]
      rfl
  | doAction a =>
    obtain ⟨-, p, c, -, -, hch, hres⟩ | ⟨-, hch, e, he⟩ := doAction_cases server disk a
    · simp only [changes, hch, handle, hres]
      rfl
    · simp only [changes, hch, handle, he]
      rfl
  | _ => rfl

/-! ## What gives a file away -/

theorem SameDisk.refl (kept : NodePath → Prop) (disk : Disk) : SameDisk kept disk disk := ⟨rfl, .refl kept disk.tree⟩

/-- **An answer that depends on what a file holds gives a file outside away if and only if it looks at one.** -/
theorem blind_iff {ρ : Type} {p : NodePath} {look : Option Node → ρ} {answer : Disk → ρ}
    (hlook : ∀ c, ∃ c', look (some (.file c')) ≠ look (some (.file c)))
    (ha : ∀ disk', SameRepository base disk disk' → answer disk' = look (disk'.tree.node p)) :
    (∀ disk', SameRepository base disk disk' → answer disk' = answer disk) ↔
      ∀ c, disk.tree.node p = some (.file c) → Inside base p := by
  rw [← FileTree.sees_iff hlook]
  constructor
  · intro hblind t' ht'
    have h : SameRepository base disk ⟨t', disk.cwd, (ht'.dir_iff _).2 disk.cwd_dir⟩ := ⟨rfl, ht'⟩
    rw [← ha disk (.refl _ disk), ← hblind _ h, ha _ h]
  · intro hsame disk' h
    rw [ha disk' h, ha disk (.refl _ disk), hsame _ h.tree]

variable (server) in
theorem infoAt_distinguishes (hpq : pq.RejectsPartial) (t₀ : Table Schema Row) {s : Bytes} (hu : IsUtf8 s) (c : Bytes) :
    ∃ c', infoAt pq server s (some (.file c')) ≠ infoAt pq server s (some (.file c)) := by
  cases hc : pq.openFile c with
  | none =>
    refine ⟨pq.encode t₀, ?_⟩
    rw [FlightServer.infoAt_of_not_open hc, FlightServer.infoAt_of_open (pq.openFile_encode t₀) hu]
    simp
  | some md =>
    refine ⟨[], ?_⟩
    rw [FlightServer.infoAt_of_open hc hu, FlightServer.infoAt_of_not_open hpq.1]
    simp

theorem streamAt_distinguishes (hpq : pq.RejectsPartial) (t₀ : Table Schema Row) (c : Bytes) :
    ∃ c', streamAt pq (some (.file c')) ≠ streamAt pq (some (.file c)) := by
  have hnil : pq.readFile [] = none := by simp [Parquet.readFile, hpq.1]
  cases hc : pq.readFile c with
  | none =>
    refine ⟨pq.encode t₀, ?_⟩
    rw [FlightServer.streamAt_of_not_read hc, FlightServer.streamAt_of_read (pq.readFile_encode t₀)]
    simp
  | some t =>
    refine ⟨[], ?_⟩
    rw [FlightServer.streamAt_of_read hc, FlightServer.streamAt_of_not_read hnil]
    simp

/-- **An info gives a file outside away if and only if the name leads to one.** -/
theorem getFlightInfo_blind_iff (hpq : pq.RejectsPartial) (t₀ : Table Schema Row) {d : FlightDescriptor} {s : Bytes}
    (hn : nameOf d = some s) :
    (∀ disk', SameRepository base disk disk' → server.getFlightInfo pq disk' d = server.getFlightInfo pq disk d) ↔
      NamesNoFileOutside server base disk s := by
  have hu := FlightServer.isUtf8_of_name hn
  simp only [FlightServer.getFlightInfo_of_name hn]
  cases hp : disk.lookup (server.repo.join s) with
  | error e =>
    refine ⟨fun _ p c hl _ => (by cases hp.symm.trans hl.2), fun _ disk' h => h.makeFlightInfo_eq fun p c hl _ => ?_⟩
    cases hp.symm.trans hl
  | ok p =>
    rw [blind_iff (infoAt_distinguishes server hpq t₀ hu) fun disk' h =>
      FlightServer.makeFlightInfo_of_lookup (by rw [h.lookup_eq, hp])]
    constructor
    · intro hin q c hl hc
      obtain rfl : p = q := Except.ok.inj (hp.symm.trans hl.2)
      exact hin c hc
    · exact fun hs c hc => hs p c ⟨hu, hp⟩ hc

/-- **A fetch gives the file away that it names**, so it is no file outside. -/
theorem inside_of_doGet_blind (hpq : pq.RejectsPartial) (t₀ : Table Schema Row) {t : Ticket}
    (hblind : ∀ disk', SameRepository base disk disk' → server.doGet pq disk' t = server.doGet pq disk t) :
    NamesNoFileOutside server base disk t.ticket := by
  obtain ⟨s⟩ := t
  rintro p c ⟨hu, hp⟩ hc
  have hd : disk.tree.node p ≠ some .dir := by simp [hc]
  refine (blind_iff (streamAt_distinguishes hpq t₀) fun disk' h => ?_).1 hblind c hc
  exact FlightServer.doGet_of_lookup hu (by rw [h.lookup_eq, hp]) (by rwa [ne_eq, h.tree.dir_iff p])

/-! ## Requests that stay inside -/

theorem opens_inside (hbase : disk.lookup server.repo = .ok base) {r : Request Schema Row}
    (h : StaysInside server base disk r) {q : NodePath} (hq : Opens server disk r q) : Inside base q := by
  obtain ⟨⟨c, hc⟩, hq⟩ := hq
  cases r with
  | listFlights listdir =>
    obtain ⟨p, n, hp, rfl⟩ := hq
    obtain rfl : base = p := Except.ok.inj (hbase.symm.trans hp)
    exact FileTree.inside_child base n
  | getFlightInfo d =>
    obtain ⟨s, hs, hl⟩ := hq
    exact h s hs q c hl hc
  | doGet t =>
    obtain ⟨p, hl, hpq⟩ := hq
    exact (h p hl (FileTree.node_of_suffix hc hpq)).trans hpq
  | doPut | listActions | doAction => exact hq.elim

theorem changes_inside {r : Request Schema Row} (h : StaysInside server base disk r) :
    ∀ c ∈ changes pq server disk r, Inside base c.file := by
  cases r with
  | doPut reader failure =>
    obtain ⟨s, p, c, hf, hn, hl, hd, hc, hch, -⟩ | ⟨-, hch, -⟩ := doPut_cases pq server disk reader failure
    · have hin : Inside base p := h hf s hn p hl hd
      simp [changes, hch, hc, hin]
    · simp [changes, hch]
  | doAction a =>
    obtain ⟨ha, p, c, hl, hc, hch, -⟩ | ⟨-, hch, -⟩ := doAction_cases server disk a
    · simpa [changes, hch] using h ha p c hl hc
    · simp [changes, hch]
  | _ => exact nofun

theorem rejected_getFlightInfo {d : FlightDescriptor} {s : Bytes} {p : NodePath} (hn : nameOf d = some s)
    (hl : LeadsTo server disk s p) (hno : ∀ c, disk.tree.node p ≠ some (.file c)) :
    Rejected pq server disk (.getFlightInfo d) := by
  refine ⟨?_, rfl, ?_⟩
  · rw [handle, FlightServer.getFlightInfo_of_name hn, FlightServer.makeFlightInfo_of_lookup hl.2]
    rcases hx : disk.tree.node p with _ | _ | c
    · exact ⟨_, rfl⟩
    · exact ⟨_, rfl⟩
    · exact absurd hx (hno c)
  · rintro q ⟨⟨c, hc⟩, s', hn', hl'⟩
    obtain rfl : s = s' := Option.some.inj (hn.symm.trans hn')
    obtain rfl := leadsTo_unique hl hl'
    exact hno c hc

theorem rejected_doGet {t : Ticket} {p : NodePath} (hl : LeadsTo server disk t.ticket p) (hnone : disk.tree.node p = none) :
    Rejected pq server disk (.doGet t) := by
  refine ⟨?_, rfl, ?_⟩
  · have hget : server.doGet pq disk t = streamAt pq none := by
      rw [FlightServer.doGet_of_lookup hl.1 hl.2 (by simp [hnone]), hnone]
    exact ⟨_, hget⟩
  · rintro q ⟨⟨c, hc⟩, p', hl', hpq⟩
    obtain rfl := leadsTo_unique hl hl'
    exact FileTree.node_of_suffix hc hpq hnone

/-- **A request that stays inside is rejected when its name leads outside.** -/
theorem rejected_of_leads_outside {r : Request Schema Row} (h : StaysInside server base disk r) {s : Bytes} {p : NodePath}
    (hs : nameIn r = some s) (hl : LeadsTo server disk s p) (hp : ¬ Inside base p) : Rejected pq server disk r := by
  cases r with
  | listFlights listdir => cases hs
  | listActions => cases hs
  | getFlightInfo d => exact rejected_getFlightInfo hs hl fun c hc => hp (h s hs p c hl hc)
  | doPut reader failure =>
    obtain ⟨s', p', c, hf, hn, hl', hd, -⟩ | ⟨-, hch, e, he⟩ := doPut_cases pq server disk reader failure
    · obtain rfl : s = s' := Option.some.inj (hs.symm.trans hn)
      obtain rfl := leadsTo_unique hl hl'
      exact absurd (h hf s hn p hl hd) hp
    · exact ⟨⟨e, congrArg Prod.fst he⟩, hch, fun q hq => hq.2⟩
  | doGet t =>
    obtain rfl : t.ticket = s := Option.some.inj hs
    have hnone : disk.tree.node p = none := by
      by_contra hne
      exact hp (h p hl hne)
    exact rejected_doGet hl hnone
  | doAction a =>
    obtain ⟨ha, p', c, hl', hc, -⟩ | ⟨-, hch, e, he⟩ := doAction_cases server disk a
    · obtain rfl : a.body = s := by
        rw [nameIn, if_pos ha] at hs
        exact Option.some.inj hs
      obtain rfl := leadsTo_unique hl hl'
      exact absurd (h ha p c hl hc) hp
    · exact ⟨⟨e, congrArg Prod.fst he⟩, hch, fun q hq => hq.2⟩

/-! ## All requests -/

/-- **A request that stays inside the repository is confined to it.** -/
theorem confined_of_staysInside (hbase : disk.lookup server.repo = .ok base) {r : Request Schema Row}
    (h : StaysInside server base disk r) : Confined pq server base disk r where
  keeps := by
    rw [← replay_changes]
    exact FileTree.keepsOutside_replay _ _ (changes_inside h)
  blind disk' hd := answer_of_opens ⟨hd.cwd, hd.tree.mono fun q hq => opens_inside hbase h hq⟩
  rejects s hs p hl hp := rejected_of_leads_outside h hs hl hp

/-- **A confined request stays inside**, unless it fetches a directory outside. -/
theorem Confined.staysInside (hpq : pq.RejectsPartial) (t₀ : Table Schema Row) {r : Request Schema Row}
    (hdir : ¬ FetchesDirectoryOutside server base disk r) (h : Confined pq server base disk r) :
    StaysInside server base disk r := by
  cases r with
  | listFlights listdir => trivial
  | listActions => trivial
  | getFlightInfo d =>
    intro s hn
    exact (getFlightInfo_blind_iff hpq t₀ hn).1 fun disk' hd => Response.info.inj (h.blind disk' hd)
  | doPut reader failure =>
    intro hf s hn p hl hd
    by_contra hp
    have hrej := h.rejects s hn p hl hp
    obtain ⟨s', p', c, -, -, -, -, -, hch, -⟩ | ⟨hno, -⟩ := doPut_cases pq server disk reader failure
    · cases hch.symm.trans hrej.changes
    · exact hd (hno hf s hn p hl)
  | doGet t =>
    intro p hl hp
    rcases hx : disk.tree.node p with _ | _ | c
    · exact absurd hx hp
    · by_contra hin
      exact hdir ⟨p, hl, hx, hin⟩
    · have hblind : ∀ disk', SameRepository base disk disk' → server.doGet pq disk' t = server.doGet pq disk t :=
        fun disk' hd => Response.stream.inj (h.blind disk' hd)
      exact inside_of_doGet_blind hpq t₀ hblind p c hl hx
  | doAction a =>
    intro ha p c hl hc
    by_contra hp
    have hrej := h.rejects a.body (if_pos ha) p hl hp
    obtain ⟨-, p', c', -, -, hch, -⟩ | ⟨hno, -⟩ := doAction_cases server disk a
    · cases hch.symm.trans hrej.changes
    · exact hno ha p c hl hc

variable (pq server)

/-- **A request is confined to the repository exactly when it names nothing outside**: enough for every request, and
needed for every request but the fetch of a directory outside.  `t₀` is any table. -/
theorem confined_exactly_inside (hpq : pq.RejectsPartial) (t₀ : Table Schema Row) (disk : Disk)
    (hbase : disk.lookup server.repo = .ok base) (r : Request Schema Row) :
    (StaysInside server base disk r → Confined pq server base disk r) ∧
    (¬ FetchesDirectoryOutside server base disk r → Confined pq server base disk r → StaysInside server base disk r) :=
  ⟨confined_of_staysInside hbase, fun hdir h => h.staysInside hpq t₀ hdir⟩

/-! ## A file beside the repository -/

/-- The repository that the server starts with has a dataset in it, and a file beside it. -/
def beside : Disk :=
  ⟨((FileTree.bare.mkdir (utf8 "datasets") []).setFile [utf8 "a", utf8 "datasets"]
    (tinyPyArrow.writeTable ⟨(), [7]⟩)).setFile [utf8 "key"] [42], [], FileTree.node_nil _⟩

theorem repo_beside : beside.lookup FlightServer.main.repo = .ok [utf8 "datasets"] := by decide +kernel

/-- Dots that lead back into the repository do no harm. -/
theorem confined_exactly_inside_dots :
    Confined tinyPyArrow FlightServer.main [utf8 "datasets"] beside (.doGet ⟨utf8 "../datasets/a"⟩) := by
  refine (confined_exactly_inside tinyPyArrow FlightServer.main tinyParquet_rejectsPartial ⟨(), [7]⟩ beside
    repo_beside _).1 ?_
  rintro p ⟨-, hp⟩ -
  have hp' : beside.lookup (FlightServer.main.repo.join (utf8 "../datasets/a")) = .ok [utf8 "a", utf8 "datasets"] := by
    decide +kernel
  obtain rfl : [utf8 "a", utf8 "datasets"] = p := Except.ok.inj (hp'.symm.trans hp)
  exact FileTree.inside_child _ _

/-- A drop of `/key` deletes the file beside the repository. -/
theorem absolute_drop_escapes :
    ¬ Confined tinyPyArrow FlightServer.main [utf8 "datasets"] beside (.doAction ⟨utf8 "drop_dataset", utf8 "/key"⟩) := by
  intro h
  have hkept := h.keeps [utf8 "key"] (by decide)
  revert hkept
  decide +kernel

end PythonConfinement
