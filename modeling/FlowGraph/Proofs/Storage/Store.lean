import FlowGraph.Proofs.Storage.FileNodes
import Mathlib.Data.List.Induction

/-!
# File nodes are a store

The nodes that write and read files are used in any order over one storage directory
(`FileUse.after`).  The directory then holds, under each name, the texts that were written to the
name since the last write that replaced what was there (`StorageRoot.Holds`).  One use keeps this
(`FileUse.holds_run`), and from it follows what the nodes answer after any uses (`IsStore`).
-/

namespace FlowGraph

/-! ## Uses of the storage directory -/

/-- A file node writes or reads. -/
inductive FileMode where
  | writer
  | reader
deriving DecidableEq, Repr

namespace FileMode

/-- The category that the node belongs to. -/
def nodeType : FileMode → NodeType
  | writer => .output
  | reader => .dataSource

/-- The node is one of its category that writes files, or reads them. -/
def Of (node : Node) : FileMode → Prop
  | writer => Kind.ofNode OutputKind node = .ok .fileWriter
  | reader => Kind.ofNode DataSourceKind node = .ok .fileReader

end FileMode

/-- An execution of a file node.  Whether the executor has a client for the network and whether the
run is cancelled makes no difference to it. -/
structure FileUse where
  mode : FileMode
  call : ExecutorCall
  kind : mode.Of call.node
  client : Bool
  cancelled : Bool

namespace FileUse

variable {ν : Type}

/-- The execution, by an executor with the given settings. -/
def run (x : FileUse) (s : ExecutorSettings) (services : Services ν) (w : World ν) :
    BuiltinResult ν :=
  BuiltinExecutor.run ⟨x.mode.nodeType, s, x.client⟩ services x.call x.cancelled w

/-- The world after executions. -/
def after (s : ExecutorSettings) (services : Services ν) (start : World ν)
    (uses : List FileUse) : World ν :=
  uses.foldl (fun w x => (x.run s services w).world) start

/-- What the execution is to write, if it is to write and its request is valid. -/
def writing? (x : FileUse) : Option Writing :=
  match x.mode with
  | .writer => Writing.ofRequest? x.call.node x.call.inputs
  | .reader => none

/-- What executions are to write, in order. -/
def writings (uses : List FileUse) : List Writing :=
  uses.filterMap writing?

/-- The request of the execution is not valid: its path is missing, null or no text, no name is left
of it, or there is nothing to write. -/
def Invalid (x : FileUse) : Prop :=
  (∀ requested, Keyed.get? x.call.inputs.fields "path" = some (.str requested) →
      fileName? requested = none) ∨
    x.mode = .writer ∧ (Keyed.get? x.call.inputs.fields "content" = none ∨
      Keyed.get? x.call.inputs.fields "content" = some .null)

variable {x : FileUse}

lemma after_concat (s : ExecutorSettings) (services : Services ν) (start : World ν)
    (uses : List FileUse) (x : FileUse) :
    after s services start (uses ++ [x]) = (x.run s services (after s services start uses)).world :=
  List.foldl_concat ..

lemma run_writer (h : x.mode = .writer) (s : ExecutorSettings) (services : Services ν)
    (w : World ν) :
    x.run s services w =
      BuiltinExecutor.withFiles w (Builtin.writeFile s x.call.node x.call.inputs w.files) := by
  have hkind := x.kind
  rw [h] at hkind
  rw [run, h, FileMode.nodeType, BuiltinExecutor.run]
  rw [show Kind.ofNode OutputKind x.call.node = .ok .fileWriter from hkind]

lemma run_reader (h : x.mode = .reader) (s : ExecutorSettings) (services : Services ν)
    (w : World ν) :
    x.run s services w =
      BuiltinExecutor.answered w (Builtin.readFile s x.call.inputs w.files) := by
  have hkind := x.kind
  rw [h] at hkind
  rw [run, h, FileMode.nodeType, BuiltinExecutor.run]
  rw [show Kind.ofNode DataSourceKind x.call.node = .ok .fileReader from hkind]

end FileUse

/-! ## What the directory holds -/

namespace StorageRoot

open FileSystem

/-- No name in the directory leads to anything. -/
def IsEmpty (root : StorageRoot) (fs : FileSystem) : Prop :=
  ∀ {name place}, IsName name → fs.locate (joinPath root.path name) = .ok place →
    FileSystem.entry? fs place = none

/-- The system finds the place of a name in the directory, so it can open a file there.  It does not
when the directory is missing, or when the name is too long for it or holds a character that it does
not take. -/
def Opens (root : StorageRoot) (fs : FileSystem) (name : String) : Prop :=
  ∃ place, fs.locate (joinPath root.path name) = .ok place

/-- The directory was empty, and then the writes were made: each name that can be opened leads to a
file with the texts that were written to it. -/
structure Holds (root : StorageRoot) (start fs : FileSystem) (writings : List Writing) : Prop where
  directories : SameDirectories start fs
  files : ∀ {name place}, IsName name → start.locate (joinPath root.path name) = .ok place →
    FileSystem.entry? fs place =
      (Writing.content writings name).map fun text => .file text.toUTF8

variable {root : StorageRoot} {start fs : FileSystem} {writings : List Writing}

/-- Different names lead to different places. -/
lemma place_eq_iff {name name' : String} {place place' : Location} (hname : IsName name)
    (hname' : IsName name') (h : fs.locate (joinPath root.path name) = .ok place)
    (h' : fs.locate (joinPath root.path name') = .ok place') : place = place' ↔ name = name' := by
  obtain ⟨directory, -, rfl⟩ := (root.below_joinPath hname).place h
  obtain ⟨directory', -, rfl⟩ := (root.below_joinPath hname').place h'
  refine ⟨fun heq => List.head_eq_of_cons_eq (List.append_inj_right' heq rfl), ?_⟩
  rintro rfl
  exact Except.ok.inj (h.symm.trans h')

lemma joinPath_eq_iff {name name' : String} (hname : IsName name) (hname' : IsName name') :
    joinPath root.path name = joinPath root.path name' ↔ name = name' := by
  refine ⟨fun h => ?_, congrArg _⟩
  have hnames := congrArg FileSystem.pathNames h
  rw [pathNames_joinPath hname, pathNames_joinPath hname'] at hnames
  exact List.head_eq_of_cons_eq (List.append_cancel_left hnames)

lemma of_resolve {requested path : String} (h : root.resolve requested = .ok path) :
    ∃ name, fileName? requested = some name ∧ path = joinPath root.path name := by
  rw [resolve] at h
  split at h
  · next name hname => exact ⟨name, hname, (Except.ok.inj h).symm⟩
  · cases h

lemma place_ne_nil {name : String} {place : Location} (hname : IsName name)
    (h : fs.locate (joinPath root.path name) = .ok place) : place ≠ [] := by
  obtain ⟨directory, -, rfl⟩ := (root.below_joinPath hname).place h
  simp

lemma IsEmpty.holds (h : root.IsEmpty start) : root.Holds start start [] where
  directories _ := Iff.rfl
  files := h

/-- The bytes of a file after a write are those of its text after the write. -/
lemma written_toUTF8 (old : Option String) (append : Bool) (text : String) :
    FileSystem.written (old.map String.toUTF8) append text.toUTF8 =
      (if append then old.getD "" ++ text else text).toUTF8 := by
  cases append <;> cases old <;> simp [FileSystem.written, String.toByteArray_append]

/-- A write to a name that can be opened succeeds, and is then held. -/
lemma Holds.write (h : root.Holds start fs writings) {w : Writing} (hname : IsName w.name)
    (hopens : root.Opens start w.name) :
    ∃ after, fs.write (joinPath root.path w.name) w.append w.text.toUTF8 = .ok after ∧
      root.Holds start after (writings ++ [w]) := by
  obtain ⟨place, hlocate⟩ := hopens
  have hplace := place_ne_nil hname hlocate
  have hentry : fs.entry? place =
      ((Writing.content writings w.name).map String.toUTF8).map .file := by
    rw [h.files hname hlocate, Option.map_map]
    rfl
  have hfile : fs.entry? place ≠ some .directory := by
    rw [h.files hname hlocate]
    cases Writing.content writings w.name <;> simp
  refine ⟨_, write_eq_set (namesDirectory_joinPath hname root.path)
    (locate_of_sameDirectories h.directories hlocate) hentry w.append w.text.toUTF8,
    h.directories.trans (sameDirectories_set hplace hfile _), ?_⟩
  intro name there hother hthere
  have hiff := place_eq_iff hname hother hlocate hthere
  rw [Writing.content_concat]
  by_cases hsame : w.name = name
  · obtain rfl := hiff.2 hsame
    subst hsame
    rw [entry?_set_self hplace, if_pos rfl, written_toUTF8]
    rfl
  · rw [entry?_set_of_ne fun heq => hsame (hiff.1 heq.symm), if_neg hsame]
    exact h.files hother hthere

/-- Requests stand for the same file, whatever file system it is in, if the same name is left of
them. -/
lemma resolve_eq_iff {requested requested' path path' : String}
    (h : root.resolve requested = .ok path) (h' : root.resolve requested' = .ok path') :
    (path = path' ↔ fileName? requested = fileName? requested') ∧
      ∀ {fs : FileSystem} {place place' : Location}, fs.locate path = .ok place →
        fs.locate path' = .ok place' →
          (place = place' ↔ fileName? requested = fileName? requested') := by
  obtain ⟨name, hname, rfl⟩ := of_resolve h
  obtain ⟨name', hname', rfl⟩ := of_resolve h'
  have hisName := isName_of_fileName? hname
  have hisName' := isName_of_fileName? hname'
  rw [hname, hname', Option.some.injEq]
  exact ⟨joinPath_eq_iff hisName hisName', place_eq_iff hisName hisName'⟩

end StorageRoot

namespace FileUse

open StorageRoot Builtin

variable {ν : Type} {x : FileUse} {s : ExecutorSettings} {services : Services ν} {w : World ν}
variable {start : FileSystem} {ws : List Writing}

lemma writings_concat (uses : List FileUse) (x : FileUse) :
    writings (uses ++ [x]) = writings uses ++ x.writing?.toList := by
  rw [writings, List.filterMap_append]
  rcases hx : x.writing? with _ | writing <;> simp [writings, hx]

/-! ### One use -/

lemma of_writing? {writing : Writing} (h : x.writing? = some writing) :
    x.mode = .writer ∧ Writing.ofRequest? x.call.node x.call.inputs = some writing := by
  unfold writing? at h
  split at h
  · next hmode => exact ⟨hmode, h⟩
  · cases h

/-- What has nothing to write changes nothing. -/
lemma world_run_of_none (h : x.writing? = none) (s : ExecutorSettings) (services : Services ν)
    (w : World ν) : (x.run s services w).world = w := by
  rcases hmode : x.mode with _ | _
  · have hnone : Writing.ofRequest? x.call.node x.call.inputs = none := by
      rwa [writing?, hmode] at h
    obtain ⟨failure, hwrite⟩ := writeFile_of_none s hnone w.files
    rw [run_writer hmode, hwrite]
    rfl
  · rw [run_reader hmode]
    rfl

/-- A request that is not valid is refused before any file is opened. -/
lemma run_of_invalid (h : x.Invalid) (s : ExecutorSettings) (services : Services ν) (w : World ν) :
    (∃ failure, (x.run s services w).answer = .error failure) ∧ (x.run s services w).world = w := by
  rw [Invalid, ← NodeInputs.fileRequest?_eq_none_iff, ← NodeInputs.get?_eq_none_iff] at h
  rcases hmode : x.mode with _ | _
  · have hnone : Writing.ofRequest? x.call.node x.call.inputs = none := by
      rw [Writing.ofRequest?]
      obtain hrequest | ⟨-, hcontent⟩ := h
      · rw [hrequest]
      · rw [hcontent]
        cases x.call.inputs.fileRequest? <;> rfl
    obtain ⟨failure, hwrite⟩ := writeFile_of_none s hnone w.files
    rw [run_writer hmode, hwrite]
    exact ⟨⟨failure, rfl⟩, rfl⟩
  · have hrequest := h.resolve_right fun hwriter => by
      rw [hmode] at hwriter
      cases hwriter.1
    obtain ⟨failure, hread⟩ := readFile_of_none s hrequest w.files
    rw [run_reader hmode, hread]
    exact ⟨⟨failure, rfl⟩, rfl⟩

/-- A write whose file can be opened is made, and is held from then on. -/
lemma run_of_writing? (h : s.storage.Holds start w.files ws) {writing : Writing}
    (hx : x.writing? = some writing) (hopens : s.storage.Opens start writing.name) :
    (x.run s services w).answer =
        .ok [("success", .bool true), ("path", .str (joinPath s.storagePath writing.name)),
          ("size", Json.ofNat writing.text.utf8ByteSize)] ∧
      s.storage.Holds start (x.run s services w).world.files (ws ++ [writing]) := by
  obtain ⟨hmode, hrequest⟩ := of_writing? hx
  obtain ⟨after, hafter, hholds⟩ := h.write (isName_of_ofRequest? hrequest) hopens
  rw [run_writer hmode]
  obtain ⟨fault, failure, hfault, -⟩ | ⟨after', hafter', hwrite⟩ :=
    writeFile_of_request s hrequest w.files
  · cases hfault.symm.trans hafter
  · obtain rfl := Except.ok.inj (hafter'.symm.trans hafter)
    rw [hwrite]
    exact ⟨rfl, hholds⟩

/-- **One use** of the directory keeps what it holds. -/
lemma holds_run (h : s.storage.Holds start w.files ws)
    (hopens : ∀ writing, x.writing? = some writing → s.storage.Opens start writing.name) :
    s.storage.Holds start (x.run s services w).world.files (ws ++ x.writing?.toList) := by
  rcases hx : x.writing? with _ | writing
  · rw [world_run_of_none hx, Option.toList_none, List.append_nil]
    exact h
  · exact (run_of_writing? h hx (hopens writing hx)).2

/-- **All uses** do, from a directory that is empty. -/
lemma holds_after (services : Services ν) {start : World ν}
    (hempty : s.storage.IsEmpty start.files) (uses : List FileUse)
    (hopens : ∀ writing ∈ writings uses, s.storage.Opens start.files writing.name) :
    s.storage.Holds start.files (after s services start uses).files (writings uses) := by
  -- by induction on the uses from the last one
  induction uses using List.reverseRecOn with
  | nil => exact hempty.holds
  | append_singleton uses x ih =>
    rw [writings_concat] at hopens ⊢
    rw [after_concat]
    refine holds_run (ih fun writing hwriting => hopens writing ?_) fun writing hx =>
      hopens writing ?_
    · exact List.mem_append_left _ hwriting
    · rw [hx]
      simp

/-- What is read is what the name holds. -/
lemma run_reader_eq_ok (h : s.storage.Holds start w.files ws)
    (hopens : ∀ writing ∈ ws, s.storage.Opens start writing.name) (hmode : x.mode = .reader)
    {found : Fields} :
    (x.run s services w).answer = .ok found ↔
      ∃ requested name text, x.call.inputs.fileRequest? = some (requested, name) ∧
        Writing.content ws name = some text ∧
        found = [("size", Json.ofNat text.utf8ByteSize), ("content", .str text),
          ("path", .str requested)] := by
  rw [run_reader hmode, BuiltinExecutor.answered]
  rcases hrequest : x.call.inputs.fileRequest? with _ | ⟨requested, name⟩
  · obtain ⟨failure, hread⟩ := readFile_of_none s hrequest w.files
    simp [hread]
  have hread := readFile_of_request s hrequest w.files
  have hname := isName_of_fileRequest? hrequest
  rcases hcontent : Writing.content ws name with _ | text
  · -- the name was not written, so its place is empty, as it was at the start
    have hnone : ∃ fault, w.files.readText (joinPath s.storagePath name) = .error fault := by
      refine FileSystem.readText_of_none fun hlocate => ?_
      rw [h.files hname (FileSystem.locate_of_sameDirectories h.directories.symm hlocate), hcontent]
      rfl
    obtain ⟨fault, hfault⟩ := hnone
    obtain ⟨-, failure, -, hread⟩ | ⟨text, htext, -⟩ := hread
    · simp [hread, hcontent]
    · cases hfault.symm.trans htext
  · have hwritten : ∃ writing ∈ ws, writing.name = name :=
      Writing.content_isSome_iff.1 (by rw [hcontent]; rfl)
    obtain ⟨writing, hmem, rfl⟩ := hwritten
    obtain ⟨place, hlocate⟩ := hopens writing hmem
    have hentry := h.files hname hlocate
    rw [hcontent] at hentry
    have hsome := FileSystem.readText_of_file (FileSystem.namesDirectory_joinPath hname _)
      (FileSystem.locate_of_sameDirectories h.directories hlocate) hentry
    obtain ⟨fault, -, hfault, -⟩ | ⟨text', htext, hread⟩ := hread
    · cases hfault.symm.trans hsome
    · obtain rfl := Except.ok.inj (htext.symm.trans hsome)
      simp [hread, hcontent, eq_comm]

/-- A use changes what its path leads to, and no other file. -/
lemma entry?_run {place : Location}
    (h : ∀ writing, x.writing? = some writing →
      w.files.locate (joinPath s.storagePath writing.name) ≠ .ok place) :
    FileSystem.entry? (x.run s services w).world.files place = w.files.entry? place := by
  rcases hx : x.writing? with _ | writing
  · rw [world_run_of_none hx]
  · obtain ⟨hmode, hrequest⟩ := of_writing? hx
    rw [run_writer hmode]
    obtain ⟨fault, failure, -, hwrite⟩ | ⟨after, hafter, hwrite⟩ :=
      writeFile_of_request s hrequest w.files
    · rw [hwrite]
      rfl
    · rw [hwrite]
      exact FileSystem.entry?_of_write hafter (h writing hx)

end FileUse

/-! ## The store -/

open FileUse in
/-- **A store** in which texts were written, as seen by what is asked next. -/
structure IsStore {ν : Type} (s : ExecutorSettings) (services : Services ν) (w : World ν)
    (ws : List Writing) : Prop where
  /-- A read succeeds if the name that is left of its path was written, and only then. -/
  read_iff : ∀ {x : FileUse}, x.mode = .reader →
    ((∃ found, (x.run s services w).answer = .ok found) ↔
      ∃ requested name, x.call.inputs.fileRequest? = some (requested, name) ∧
        ∃ writing ∈ ws, writing.name = name)
  /-- It finds the texts that were written to the name since it was last replaced. -/
  found : ∀ {x : FileUse} {found : Fields}, x.mode = .reader →
    (x.run s services w).answer = .ok found →
      ∃ requested name text, x.call.inputs.fileRequest? = some (requested, name) ∧
        Writing.content ws name = some text ∧
        found = [("size", Json.ofNat text.utf8ByteSize), ("content", .str text),
          ("path", .str requested)]
  /-- A valid write succeeds if its file can be opened. -/
  write : ∀ {x : FileUse} {writing : Writing}, x.writing? = some writing →
    s.storage.Opens w.files writing.name →
      (x.run s services w).answer =
        .ok [("success", .bool true), ("path", .str (joinPath s.storagePath writing.name)),
          ("size", Json.ofNat writing.text.utf8ByteSize)]
  /-- A request that is not valid is refused, and nothing changes. -/
  refused : ∀ {x : FileUse}, x.Invalid →
    (∃ failure, (x.run s services w).answer = .error failure) ∧ (x.run s services w).world = w
  /-- A write to a name leaves all other files as they were, and a read leaves all files. -/
  frame : ∀ {x : FileUse} {place : Location},
    (∀ writing, x.writing? = some writing →
      w.files.locate (joinPath s.storagePath writing.name) ≠ .ok place) →
    FileSystem.entry? (x.run s services w).world.files place = w.files.entry? place
  /-- Paths stand for the same file if the same name is left of them, and only then. -/
  same_iff : ∀ {requested requested' path path' : String},
    s.storage.resolve requested = .ok path → s.storage.resolve requested' = .ok path' →
      (path = path' ↔ fileName? requested = fileName? requested') ∧
        ∀ {place place' : Location}, w.files.locate path = .ok place →
          w.files.locate path' = .ok place' →
            (place = place' ↔ fileName? requested = fileName? requested')

namespace FileUse

variable {ν : Type}

/-- **File nodes are a store.**  They are used in any order, with any paths and contents, from a
directory that is empty; what they write can be opened.  A read then finds the texts that were
written to its name since it was last replaced. -/
theorem isStore_after (s : ExecutorSettings) (services : Services ν) (start : World ν)
    (uses : List FileUse) (hempty : s.storage.IsEmpty start.files)
    (hopens : ∀ writing ∈ writings uses, s.storage.Opens start.files writing.name) :
    IsStore s services (after s services start uses) (writings uses) := by
  have hholds := holds_after services hempty uses hopens
  refine ⟨fun {x} hmode => ?_, fun hmode => (run_reader_eq_ok hholds hopens hmode).1, ?_,
    fun h => run_of_invalid h .., entry?_run, fun h h' => ?_⟩
  · simp only [run_reader_eq_ok hholds hopens hmode, ← Writing.content_isSome_iff,
      Option.isSome_iff_exists]
    constructor
    · rintro ⟨-, requested, name, text, hrequest, htext, -⟩
      exact ⟨requested, name, hrequest, text, htext⟩
    · rintro ⟨requested, name, hrequest, text, htext⟩
      exact ⟨_, requested, name, text, hrequest, htext, rfl⟩
  · rintro x writing hx ⟨place, hplace⟩
    exact (run_of_writing? hholds hx
      ⟨place, FileSystem.locate_of_sameDirectories hholds.directories.symm hplace⟩).1
  · exact ⟨(StorageRoot.resolve_eq_iff h h').1, (StorageRoot.resolve_eq_iff h h').2⟩

/-- A node that writes. -/
def toWrite (path : String) (content : Json) (append : Bool) : FileUse where
  mode := .writer
  call :=
    { node :=
        { id := "writer", nodeType := .output
          config := [("type", .str "file_writer"), ("append", .bool append)] }
      inputs := ⟨[("path", .str path), ("content", content)]⟩
      context := { executionId := "run", input := [] } }
  kind := rfl
  client := false
  cancelled := false

/-- A node that reads. -/
def toRead (path : String) : FileUse where
  mode := .reader
  call :=
    { node := { id := "reader", nodeType := .dataSource, config := [("type", .str "file_reader")] }
      inputs := ⟨[("path", .str path)]⟩
      context := { executionId := "run", input := [] } }
  kind := rfl
  client := false
  cancelled := false

/-- A note is replaced and continued under two paths, while another file is written and two requests
are refused. -/
theorem isStore_after_notes :
    let services : Services Unit := ⟨fun _ peers => (none, peers), deliverNothing, .absent⟩
    let s : ExecutorSettings := { storagePath := "data" }
    let start : World Unit :=
      { files := ⟨[(["data"], .directory)]⟩, clock := ⟨0, 0⟩, peers := () }
    let uses := [toWrite "notes.txt" (.str "old") true, toWrite "a/notes.txt" (.str "é") false,
      toWrite "../other.txt" (.str "x") false, toWrite "notes.txt/.." (.str "y") false,
      toWrite "notes.txt" .null false, toWrite "notes.txt/." (.bool true) true]
    s.storage.IsEmpty start.files ∧
      (∀ writing ∈ writings uses, s.storage.Opens start.files writing.name) ∧
      ((toRead "/b/notes.txt").run s services (after s services start uses)).answer =
        .ok [("size", Json.ofNat 6), ("content", .str "étrue"), ("path", .str "/b/notes.txt")] := by
  intro services s start uses
  have hempty : s.storage.IsEmpty start.files := by
    intro name place hname hplace
    obtain ⟨directory, hdirectory, rfl⟩ := (s.storage.below_joinPath hname).place hplace
    have hfollow : start.files.follow [] (FileSystem.pathNames s.storage.path) = .ok ["data"] := by
      decide
    obtain rfl := Except.ok.inj (hfollow.symm.trans hdirectory)
    rfl
  have hwritings : writings uses =
      [⟨"notes.txt", true, "old"⟩, ⟨"notes.txt", false, "é"⟩, ⟨"other.txt", false, "x"⟩,
        ⟨"notes.txt", true, "true"⟩] := by
    decide
  have hopens : ∀ writing ∈ writings uses, s.storage.Opens start.files writing.name := by
    rw [hwritings]
    have hnotes : s.storage.Opens start.files "notes.txt" := ⟨["data", "notes.txt"], by decide⟩
    have hother : s.storage.Opens start.files "other.txt" := ⟨["data", "other.txt"], by decide⟩
    simp [hnotes, hother]
  have hstore := isStore_after s services start uses hempty hopens
  obtain ⟨found, hfound⟩ := (hstore.read_iff (x := toRead "/b/notes.txt") rfl).2
    ⟨"/b/notes.txt", "notes.txt", by decide, ⟨"notes.txt", true, "old"⟩, by decide, rfl⟩
  obtain ⟨requested, name, text, hrequest, htext, rfl⟩ := hstore.found rfl hfound
  obtain ⟨rfl, rfl⟩ : requested = "/b/notes.txt" ∧ name = "notes.txt" := by
    have hdecided : (toRead "/b/notes.txt").call.inputs.fileRequest? =
        some ("/b/notes.txt", "notes.txt") := by decide
    simpa [eq_comm] using hrequest.symm.trans hdecided
  obtain rfl : text = "étrue" := by
    have hcontent : Writing.content (writings uses) "notes.txt" = some "étrue" := by decide
    exact Option.some.inj (htext.symm.trans hcontent)
  exact ⟨hempty, hopens, hfound⟩

end FileUse

end FlowGraph
