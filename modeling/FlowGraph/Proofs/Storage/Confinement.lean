import FlowGraph.Proofs.Builtin.Polling
import FlowGraph.Proofs.Storage.Paths

/-!
# Nodes stay in the storage directory

`BuiltinExecutor.opened?` is the path that a call of a built-in executor opens.  It is always that
of a name in the storage directory, whatever the node and its inputs ask for.  Nothing else of the
file system is changed when the call is polled (`poll_frame`), and nothing else is looked at
(`poll_local`), as far as the executor itself is concerned.  A database query is handed to a
library, though, and the library may open what it likes: `stays_below` holds of a query as far as
the library keeps to the file of the request (`Sql.Library.KeepsTo`), and `attached_outside` is a
query with which it does not.
-/

namespace FlowGraph

namespace FileSystem

variable {fs fs' : FileSystem} {path : String} {place : Location}

/-! ## What stands at one place -/

lemma lookup_setEntry_of_ne {other : Location} (h : other ≠ place) (entry : FileEntry)
    (entries : List (Location × FileEntry)) :
    (setEntry place entry entries).lookup other = entries.lookup other := by
  have hplace : (other == place) = false := beq_false_of_ne h
  induction entries with
  | nil => simp [setEntry, List.lookup_cons, hplace]
  | cons first rest ih =>
    obtain ⟨p, e⟩ := first
    rw [setEntry]
    split
    · next hp =>
      subst hp
      rw [List.lookup_cons, List.lookup_cons, hplace]
    · rw [List.lookup_cons, List.lookup_cons, ih]

/-- What is put at a place is at no other. -/
lemma entry?_set_of_ne {other : Location} (h : other ≠ place) (entry : FileEntry) :
    FileSystem.entry? (fs.set place entry) other = fs.entry? other := by
  simp only [set, entry?, lookup_setEntry_of_ne h]

/-- The path leads to the same place in two file systems, with the same entry. -/
structure SameAt (path : String) (fs fs' : FileSystem) : Prop where
  locate : fs.locate path = fs'.locate path
  entry : ∀ {place}, fs.locate path = .ok place → fs.entry? place = fs'.entry? place

lemma readText_eq (h : SameAt path fs fs') : fs.readText path = fs'.readText path := by
  rw [readText, readText, ← h.locate]
  rcases hplace : fs.locate path with fault | place
  · rfl
  · simp only [bind, Except.bind, h.entry hplace]

/-- Whether a file can be written is seen at its place. -/
lemma write_eq (h : SameAt path fs fs') (append : Bool) (content : ByteArray) :
    (fs.write path append content).map (fun _ => ()) =
      (fs'.write path append content).map fun _ => () := by
  rw [write, write, ← h.locate]
  rcases hplace : fs.locate path with fault | place
  · rfl
  · simp only [bind, Except.bind, h.entry hplace]
    rcases fs'.entry? place with _ | _ | _
    · by_cases hdirectory : namesDirectory path = true <;> simp [hdirectory, Except.map]
    · rfl
    · by_cases hdirectory : namesDirectory path = true <;> simp [hdirectory, Except.map]

/-- A file is written at its place only. -/
lemma entry?_of_write {append : Bool} {content : ByteArray} {after : FileSystem}
    (h : fs.write path append content = .ok after) {place : Location}
    (hplace : fs.locate path ≠ .ok place) : after.entry? place = fs.entry? place := by
  obtain ⟨there, hthere, h⟩ := Except.of_bind_eq_ok h
  have hne : place ≠ there := fun heq => hplace (heq ▸ hthere)
  split at h
  · cases h
  · split at h
    · cases h
    · cases h
      exact entry?_set_of_ne hne _
  · split at h
    · cases h
    · cases h
      exact entry?_set_of_ne hne _

lemma lookup_setEntry_self (place : Location) (entry : FileEntry)
    (entries : List (Location × FileEntry)) :
    (setEntry place entry entries).lookup place = some entry := by
  induction entries with
  | nil => simp [setEntry]
  | cons first rest ih =>
    obtain ⟨p, e⟩ := first
    rw [setEntry]
    split
    · next hp => simp [hp]
    · next hp =>
      have hfirst : (place == p) = false := beq_false_of_ne (Ne.symm hp)
      rw [List.lookup_cons, hfirst]
      exact ih

end FileSystem

/-! ## Libraries -/

namespace Sql.Library

open FileSystem

variable {ν : Type}

/-- The library keeps to the file of a request: it changes what the path of the request leads to and
nothing else, and what it does depends on nothing else that is there. -/
structure KeepsTo (library : Library ν) (r : Request) : Prop where
  frame : ∀ fs peers place, fs.locate r.path ≠ .ok place →
    FileSystem.entry? (library.look r fs peers).2.1 place = fs.entry? place
  agree : ∀ fs fs' peers, SameAt r.path fs fs' →
    (library.look r fs peers).1 = (library.look r fs' peers).1 ∧
      (library.look r fs peers).2.2 = (library.look r fs' peers).2.2

end Sql.Library

namespace Builtin

open FileSystem

variable {s : ExecutorSettings} {node : Node} {inputs : NodeInputs} {fs fs' : FileSystem}

/-! ## Nodes that read and write files -/

/-- Reading looks at the file only. -/
lemma readFile_eq (h : ∀ requested path, filePath s inputs = .ok (requested, path) →
      SameAt path fs fs') :
    readFile s inputs fs = readFile s inputs fs' := by
  rw [readFile, readFile]
  rcases hfile : filePath s inputs with failure | ⟨requested, path⟩
  · rfl
  · simp only [bind, Except.bind, readText_eq (h requested path hfile)]

/-- Writing looks at the file only. -/
lemma writeFile_eq (h : ∀ w, fileWrite s node inputs = .ok w → SameAt w.path fs fs') :
    (writeFile s node inputs fs).1 = (writeFile s node inputs fs').1 := by
  rw [writeFile, writeFile]
  rcases hwrite : fileWrite s node inputs with failure | w
  · rfl
  · dsimp only
    obtain ⟨fault, hfs, hfs'⟩ | ⟨after, after', hfs, hfs', -⟩ := Except.of_map_eq_map
      (write_eq (h w hwrite) w.append w.content.toUTF8)
    · rw [hfs, hfs']
    · rw [hfs, hfs']

/-- Writing changes the file only. -/
lemma entry?_writeFile {place : Location}
    (h : ∀ w, fileWrite s node inputs = .ok w → fs.locate w.path ≠ .ok place) :
    FileSystem.entry? (writeFile s node inputs fs).2 place = fs.entry? place := by
  rw [writeFile]
  rcases hwrite : fileWrite s node inputs with failure | w
  · rfl
  · dsimp only
    rcases hafter : fs.write w.path w.append w.content.toUTF8 with fault | after
    · rfl
    · exact entry?_of_write hafter (h w hwrite)

/-- Without a request nothing is asked of the library. -/
lemma queryDatabase_of_none {ν : Type} {library : Sql.Library ν} {peers : ν}
    (h : (databaseRequest s node inputs).toOption = none) :
    ∃ failure, ∀ fs, queryDatabase library s node inputs fs peers =
      (.error failure, fs, peers) := by
  obtain ⟨failure, hfailure⟩ := Except.exists_eq_error_of_toOption h
  exact ⟨failure, fun fs => by rw [queryDatabase, hfailure]⟩

/-! ## Mail -/

section Mail

variable {ν : Type} {services : Services ν} {w : World ν}

lemma files_sendEmail : (sendEmail services inputs w).2.files = w.files := by
  unfold sendEmail
  dsimp only
  split <;> rfl

lemma sendEmail_agrees (files : FileSystem) :
    (sendEmail services inputs w).1 = (sendEmail services inputs { w with files }).1 ∧
      (sendEmail services inputs w).2.peers =
        (sendEmail services inputs { w with files }).2.peers := by
  unfold sendEmail
  dsimp only
  split <;> exact ⟨rfl, rfl⟩

end Mail

end Builtin

/-- Two results are the same but for the files that they leave. -/
structure BuiltinResult.Agrees {ν : Type} (r r' : BuiltinResult ν) : Prop where
  answer : r.answer = r'.answer
  events : r.events = r'.events
  peers : r.world.peers = r'.world.peers

namespace BuiltinExecutor

open FileSystem Builtin

/-! ## Calls of the built-in executors -/

/-- The path that a call opens, if it opens one. -/
def opened? (e : BuiltinExecutor) (call : ExecutorCall) : Option String :=
  match e.nodeType with
  | .dataSource =>
    match Kind.ofNode DataSourceKind call.node with
    | .ok .databaseQuery =>
      (databaseRequest e.settings call.node call.inputs).toOption.map Sql.Request.path
    | .ok .fileReader => (filePath e.settings call.inputs).toOption.map Prod.snd
    | _ => none
  | .output =>
    match Kind.ofNode OutputKind call.node with
    | .ok .fileWriter => (fileWrite e.settings call.node call.inputs).toOption.map FileWrite.path
    | _ => none
  | _ => none

variable {ν : Type} {e : BuiltinExecutor} {services : Services ν} {call : ExecutorCall}
variable {cancelled : Bool} {w : World ν}

lemma files_withNetwork (plan : Except NodeError NetworkPlan) :
    (e.withNetwork services cancelled w plan).world.files = w.files := by
  cases plan <;> rfl

lemma withNetwork_agrees (files : FileSystem) (plan : Except NodeError NetworkPlan) :
    (e.withNetwork services cancelled w plan).Agrees
      (e.withNetwork services cancelled { w with files } plan) := by
  cases plan <;> exact ⟨rfl, rfl, rfl⟩

/-- Without a request to a library a call changes what its path leads to, and no other place. -/
lemma run_frame (hnone : e.request? call = none) {place : Location}
    (h : ∀ path, e.opened? call = some path → w.files.locate path ≠ .ok place) :
    FileSystem.entry? (e.run services call cancelled w).world.files place =
      w.files.entry? place := by
  -- the writer puts something into the file system, all others leave it as it is
  unfold run
  unfold opened? at h
  unfold request? at hnone
  dsimp only
  split
  · rfl
  · split
    · rfl
    · rw [files_withNetwork]
    · show FileSystem.entry? (sendEmail services call.inputs w).2.files place = _
      rw [files_sendEmail]
  · rfl
  · rfl
  · rw [files_withNetwork]
  · next htype =>
    simp only [htype] at hnone
    split
    · rfl
    · next hkind =>
      simp only [hkind] at hnone
      obtain ⟨failure, hquery⟩ := queryDatabase_of_none hnone
      rw [hquery]
    · rfl
    · rw [files_withNetwork]
  · next htype =>
    simp only [htype] at h
    split
    · rfl
    · rfl
    · next hkind =>
      simp only [hkind] at h
      refine entry?_writeFile fun write hwrite => h write.path ?_
      rw [hwrite]
      rfl
    · rw [files_withNetwork]

/-- Without a request to a library a call looks at what its path leads to, and at no other place. -/
lemma run_local (hnone : e.request? call = none) {files : FileSystem}
    (h : ∀ path, e.opened? call = some path → SameAt path w.files files) :
    (e.run services call cancelled w).Agrees
      (e.run services call cancelled { w with files }) := by
  unfold run
  unfold opened? at h
  unfold request? at hnone
  dsimp only
  split
  · exact ⟨rfl, rfl, rfl⟩
  · split
    · exact ⟨rfl, rfl, rfl⟩
    · exact withNetwork_agrees files _
    · exact ⟨(sendEmail_agrees files).1, rfl, (sendEmail_agrees files).2⟩
  · exact ⟨rfl, rfl, rfl⟩
  · exact ⟨rfl, rfl, rfl⟩
  · exact withNetwork_agrees files _
  · next htype =>
    simp only [htype] at h hnone
    split
    · exact ⟨rfl, rfl, rfl⟩
    · next hkind =>
      simp only [hkind] at hnone
      obtain ⟨failure, hquery⟩ := queryDatabase_of_none hnone
      rw [hquery, hquery]
      exact ⟨rfl, rfl, rfl⟩
    · next hkind =>
      simp only [hkind] at h
      refine ⟨readFile_eq fun requested path hpath => h path ?_, rfl, rfl⟩
      rw [hpath]
      rfl
    · exact withNetwork_agrees files _
  · next htype =>
    simp only [htype] at h
    split
    · exact ⟨rfl, rfl, rfl⟩
    · exact ⟨rfl, rfl, rfl⟩
    · next hkind =>
      simp only [hkind] at h
      refine ⟨writeFile_eq fun write hwrite => h write.path ?_, rfl, rfl⟩
      rw [hwrite]
      rfl
    · exact withNetwork_agrees files _

/-- A path that is opened is what the storage directory makes of some request. -/
lemma resolve_of_opened {path : String} (h : e.opened? call = some path) :
    ∃ requested, e.settings.storage.resolve requested = .ok path := by
  unfold opened? at h
  split at h
  · split at h
    · obtain ⟨q, hq, rfl⟩ := Option.map_eq_some_iff.1 h
      obtain ⟨query, -, hq⟩ := Except.of_bind_eq_ok (Except.of_toOption_eq_some hq)
      obtain ⟨path, hpath, hq⟩ := Except.of_bind_eq_ok hq
      cases hq
      exact ⟨_, hpath⟩
    · obtain ⟨⟨requested, path⟩, hfile, rfl⟩ := Option.map_eq_some_iff.1 h
      obtain ⟨text, -, hfile⟩ := Except.of_bind_eq_ok (Except.of_toOption_eq_some hfile)
      obtain ⟨path, hpath, hfile⟩ := Except.of_bind_eq_ok hfile
      cases hfile
      exact ⟨_, hpath⟩
    · cases h
  · split at h
    · obtain ⟨write, hwrite, rfl⟩ := Option.map_eq_some_iff.1 h
      obtain ⟨requested, -, hwrite⟩ := Except.of_bind_eq_ok (Except.of_toOption_eq_some hwrite)
      obtain ⟨content, -, hwrite⟩ := Except.of_bind_eq_ok hwrite
      obtain ⟨path, hpath, hwrite⟩ := Except.of_bind_eq_ok hwrite
      cases hwrite
      exact ⟨_, hpath⟩
    · cases h
  · cases h

/-- The file of a request is the one that the call opens. -/
lemma opened?_of_request {r : Sql.Request} (h : e.request? call = some r) :
    e.opened? call = some r.path := by
  obtain ⟨htype, hkind, hrequest⟩ := of_request? h
  simp only [opened?, htype, hkind, hrequest]
  rfl

/-- **A poll changes what the path of its call leads to**, and no other place, if the library keeps
to the file of its request. -/
theorem poll_frame (hlibrary : ∀ r, e.request? call = some r → services.database.KeepsTo r)
    {place : Location}
    (h : ∀ path, e.opened? call = some path → w.files.locate path ≠ .ok place) :
    FileSystem.entry? (poll services ⟨e, call⟩ cancelled w).2.files place =
      w.files.entry? place := by
  rcases hrequest : e.request? call with _ | r
  · rw [poll_of_none hrequest]
    exact run_frame hrequest h
  · have hframe := (hlibrary r hrequest).frame w.files w.peers place
      (h r.path (opened?_of_request hrequest))
    rw [poll_of_request hrequest]
    rcases hlook : services.database.look r w.files w.peers with ⟨_ | result, files, peers⟩
    · rw [hlook] at hframe
      exact hframe
    · rw [hlook] at hframe
      exact hframe

/-- **A poll looks at what the path of its call leads to**, and at no other place, if the library
keeps to the file of its request. -/
theorem poll_local (hlibrary : ∀ r, e.request? call = some r → services.database.KeepsTo r)
    {files : FileSystem} (h : ∀ path, e.opened? call = some path → SameAt path w.files files) :
    (poll services ⟨e, call⟩ cancelled w).1 =
        (poll services ⟨e, call⟩ cancelled { w with files }).1 ∧
      (poll services ⟨e, call⟩ cancelled w).2.peers =
        (poll services ⟨e, call⟩ cancelled { w with files }).2.peers := by
  rcases hrequest : e.request? call with _ | r
  · have hagrees : (e.run services call cancelled w).Agrees
        (e.run services call cancelled { w with files }) := run_local hrequest h
    rw [poll_of_none hrequest, poll_of_none hrequest, hagrees.events, hagrees.answer]
    exact ⟨rfl, hagrees.peers⟩
  · obtain ⟨hresult, hpeers⟩ := (hlibrary r hrequest).agree w.files files w.peers
      (h r.path (opened?_of_request hrequest))
    rw [poll_of_request hrequest, poll_of_request hrequest]
    rcases hlook : services.database.look r w.files w.peers with ⟨result, after, peers⟩
    rcases hlook' : services.database.look r files w.peers with ⟨result', after', peers'⟩
    rw [hlook, hlook'] at hresult hpeers
    obtain rfl : result = result' := hresult
    obtain rfl : peers = peers' := hpeers
    cases result <;> exact ⟨rfl, rfl⟩

/-- **Nodes stay in the storage directory.**  Whatever the settings, the node and its inputs are:
the path that a call opens is that of a name in the storage directory, and a poll of the call
neither changes nor looks at anything else that is there, unless it has a database library do so.  A
request has no name when nothing, a dot, the root directory or a way out is left of it without its
tail; any other stands for the name that is left last, in the directory, as does that name alone. -/
theorem stays_below (e : BuiltinExecutor) (call : ExecutorCall) (root : StorageRoot)
    (requested : String) :
    (∀ path, e.opened? call = some path → ∃ name, e.settings.storage.Below name path) ∧
    (∀ {ν : Type} (services : Services ν) (cancelled : Bool) (w : World ν),
      (∀ r, e.request? call = some r → services.database.KeepsTo r) →
      (∀ place, (∀ path, e.opened? call = some path → w.files.locate path ≠ .ok place) →
        FileSystem.entry? (poll services ⟨e, call⟩ cancelled w).2.files place =
          w.files.entry? place) ∧
      ∀ files, (∀ path, e.opened? call = some path → SameAt path w.files files) →
        (poll services ⟨e, call⟩ cancelled w).1 =
            (poll services ⟨e, call⟩ cancelled { w with files }).1 ∧
          (poll services ⟨e, call⟩ cancelled w).2.peers =
            (poll services ⟨e, call⟩ cancelled { w with files }).2.peers) ∧
    ((∃ failure, root.resolve requested = .error failure) ↔
      Nameless (withoutTail requested.toList)) ∧
    (¬ Nameless (withoutTail requested.toList) →
      let name := String.ofList (lastPart (withoutTail requested.toList))
      ∃ path, root.resolve requested = .ok path ∧ root.Below name path ∧
        root.resolve name = .ok path) := by
  refine ⟨fun path hpath => ?_, fun services cancelled w hlibrary =>
    ⟨fun place h => poll_frame hlibrary h, fun files h => poll_local hlibrary h⟩,
    root.resolve_eq_error requested, fun hname => ?_⟩
  · obtain ⟨request, hrequest⟩ := resolve_of_opened hpath
    exact ⟨_, (StorageRoot.resolve_eq_ok hrequest).1⟩
  · rcases h : root.resolve requested with failure | path
    · exact absurd ((root.resolve_eq_error requested).1 ⟨failure, h⟩) hname
    · exact ⟨path, rfl, StorageRoot.resolve_eq_ok h⟩

/-- Open files, which are made if they are missing. -/
def openAll (fs : FileSystem) (paths : List String) : Except FileFault FileSystem :=
  paths.foldlM (fun fs path => fs.write path true .empty) fs

/-- A library that opens the file of a request, and then others, and answers them all alike. -/
def opening (others : List String) (result : Sql.ResultSet) : Sql.Library Unit where
  underWay _ _ _ := none
  answer r fs peers :=
    match openAll fs (r.path :: others) with
    | .ok fs => (.ok result, fs, peers)
    | .error fault => (.error (.refused fault.message), fs, peers)

lemma look_opening (result : Sql.ResultSet) (r : Sql.Request) (fs : FileSystem) :
    (opening [] result).look r fs () =
      match fs.write r.path true .empty with
      | .ok fs => (some (.ok result), fs, ())
      | .error fault => (some (.error (.refused fault.message)), fs, ()) := by
  rcases hwrite : fs.write r.path true .empty with fault | after <;>
    simp [opening, openAll, Sql.Library.look, hwrite, bind, Except.bind, pure, Except.pure]

/-- Without others it keeps to the file. -/
lemma keepsTo_opening (result : Sql.ResultSet) (r : Sql.Request) :
    (opening [] result).KeepsTo r where
  frame fs peers place hplace := by
    rw [look_opening]
    rcases hwrite : fs.write r.path true .empty with fault | after
    · rfl
    · exact entry?_of_write hwrite hplace
  agree fs fs' peers hsame := by
    rw [look_opening, look_opening]
    obtain ⟨fault, hfs, hfs'⟩ | ⟨after, after', hfs, hfs', -⟩ :=
      Except.of_map_eq_map (write_eq hsame true .empty)
    · rw [hfs, hfs']
      exact ⟨rfl, rfl⟩
    · rw [hfs, hfs']
      exact ⟨rfl, rfl⟩

/-- A call of a node that queries a database. -/
def querying (database query : String) : ExecutorCall where
  node :=
    { id := "n", nodeType := .dataSource
      config := [("type", .str "database_query"), ("database", .str database)] }
  inputs := ⟨[("query", .str query)]⟩
  context := { executionId := "run", input := [] }

/-- A node that asks for a database outside the storage directory has one inside opened, and a file
beside the directory is left alone. -/
theorem stays_below_selecting :
    let e := make { storagePath := "data" } .dataSource
    let call := querying "/etc/../passwd/./" "SELECT 1 AS one"
    let services : Services Unit :=
      ⟨fun _ peers => (none, peers), deliverNothing, opening [] ⟨["one"], [[.integer 1]]⟩⟩
    let w : World Unit :=
      { files := ⟨[(["data"], .directory), (["notes"], .file .empty)]⟩, clock := default
        peers := () }
    e.opened? call = some "data/passwd" ∧
      (∃ name, e.settings.storage.Below name "data/passwd") ∧
      FileSystem.entry? (poll services ⟨e, call⟩ false w).2.files ["notes"] = some (.file .empty) ∧
      (StorageRoot.mk "data").resolve "passwd" = .ok "data/passwd" := by
  intro e call services w
  have hopened : e.opened? call = some "data/passwd" := by decide
  obtain ⟨hbelow, hkeeps, -, hresolve⟩ := stays_below e call ⟨"data"⟩ "/etc/../passwd/./"
  obtain ⟨path, hpath, -, hagain⟩ := hresolve (by decide)
  have hsame : path = "data/passwd" := (Except.ok.inj hpath).symm
  obtain ⟨hframe, -⟩ := hkeeps services false w fun r _ => keepsTo_opening _ r
  refine ⟨hopened, hbelow _ hopened, (hframe ["notes"] fun path hpath => ?_).trans rfl,
    hsame ▸ hagain⟩
  obtain rfl : "data/passwd" = path := Option.some.inj (hopened.symm.trans hpath)
  rw [show w.files.locate "data/passwd" = .ok ["data", "passwd"] from rfl]
  decide

/-- A query can name another file, which a library opens that follows it: the node makes a file
outside the storage directory. -/
theorem attached_outside :
    let e := make { storagePath := "data" } .dataSource
    let call := querying "workflow.db" "ATTACH DATABASE 'outside.db' AS o"
    let services : Services Unit :=
      ⟨fun _ peers => (none, peers), deliverNothing, opening ["outside.db"] ⟨[], []⟩⟩
    let w : World Unit := { files := ⟨[(["data"], .directory)]⟩, clock := default, peers := () }
    (∀ path, e.opened? call = some path → w.files.locate path ≠ .ok ["outside.db"]) ∧
      w.files.entry? ["outside.db"] = none ∧
      FileSystem.entry? (poll services ⟨e, call⟩ false w).2.files ["outside.db"] =
        some (.file .empty) := by
  intro e call services w
  have hopened : e.opened? call = some "data/workflow.db" := by decide
  refine ⟨fun path hpath => ?_, rfl, ?_⟩
  · obtain rfl : "data/workflow.db" = path := Option.some.inj (hopened.symm.trans hpath)
    rw [show w.files.locate "data/workflow.db" = .ok ["data", "workflow.db"] from rfl]
    decide
  · have hsome : (e.request? call).isSome = true := by decide
    obtain ⟨⟨path, query, bindings⟩, hrequest⟩ := Option.isSome_iff_exists.1 hsome
    obtain rfl : path = "data/workflow.db" :=
      Option.some.inj ((opened?_of_request hrequest).symm.trans hopened)
    have hopen : openAll w.files ["data/workflow.db", "outside.db"] =
        .ok ⟨[(["data"], .directory), (["data", "workflow.db"], .file .empty),
          (["outside.db"], .file .empty)]⟩ := rfl
    have hlook : services.database.look ⟨"data/workflow.db", query, bindings⟩ w.files w.peers =
        (some (.ok ⟨[], []⟩), ⟨[(["data"], .directory), (["data", "workflow.db"], .file .empty),
          (["outside.db"], .file .empty)]⟩, ()) := by
      simp only [services, opening, Sql.Library.look, hopen]
    rw [poll_of_request hrequest, hlook]
    rfl

end BuiltinExecutor

end FlowGraph
