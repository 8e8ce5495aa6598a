import FlowGraph.Proofs.Storage.Directories

/-!
# Requests of file nodes

What the nodes that write and read files are asked for: a path with the name that is left of it
(`NodeInputs.fileRequest?`), and a text to write under the name (`Writing`).  Their answers are said
in these terms, by `readFile_of_request` and `writeFile_of_request`.  What a name holds after writes
is said by the writes alone (`Writing.content`).
-/

namespace FlowGraph

/-! ## What is asked for -/

/-- The path that a file node is asked for, and the name that is left of it. -/
def NodeInputs.fileRequest? (inputs : NodeInputs) : Option (String × String) :=
  match inputs.get? "path" with
  | some (.str requested) => (fileName? requested).map (requested, ·)
  | _ => none

/-- A text that is written to a name, behind what is there or in place of it. -/
structure Writing where
  name : String
  append : Bool
  text : String
deriving DecidableEq, Repr

namespace Writing

/-- What a node is asked to write, unless the request is not valid: its path must be a text with a
name, and its content must not be missing. -/
def ofRequest? (node : Node) (inputs : NodeInputs) : Option Writing :=
  match inputs.fileRequest?, inputs.get? "content" with
  | some (_, name), some content =>
    some ⟨name, (node.config? "append").any Json.truthy, content.display⟩
  | _, _ => none

/-- The writes from the last one on that replaced what was there, or all of them if none did. -/
def sinceReplaced : List Writing → List Writing
  | [] => []
  | w :: later => if later.all Writing.append then w :: later else sinceReplaced later

/-- What a name holds after writes, if it was written. -/
def content (writings : List Writing) (name : String) : Option String :=
  let own := writings.filter fun w => w.name = name
  if own.isEmpty then none else some (String.join ((sinceReplaced own).map Writing.text))

lemma sinceReplaced_concat (writings : List Writing) (w : Writing) :
    sinceReplaced (writings ++ [w]) =
      if w.append then sinceReplaced writings ++ [w] else [w] := by
  induction writings with
  | nil => cases hw : w.append <;> simp [sinceReplaced]
  | cons first later ih =>
    rw [List.cons_append, sinceReplaced, sinceReplaced, ih]
    cases hw : w.append <;> cases hlater : later.all Writing.append <;> simp [hw, hlater]

/-- A write is seen under its name only. -/
lemma content_concat (writings : List Writing) (w : Writing) (name : String) :
    content (writings ++ [w]) name =
      if w.name = name then
        some (if w.append then (content writings name).getD "" ++ w.text else w.text)
      else content writings name := by
  simp only [content, List.filter_append]
  by_cases hname : w.name = name
  · have hself : [w].filter (fun w => w.name = name) = [w] := by simp [hname]
    rw [hself, sinceReplaced_concat, if_pos hname]
    generalize writings.filter (fun w => w.name = name) = own
    rcases hw : w.append with _ | _
    · simp
    · rcases own with _ | ⟨first, own⟩ <;> simp [sinceReplaced, String.join_append]
  · have hnone : [w].filter (fun w => w.name = name) = [] := by simp [hname]
    rw [hnone, List.append_nil, if_neg hname]

/-- A name holds something if it was written. -/
lemma content_isSome_iff {writings : List Writing} {name : String} :
    (content writings name).isSome ↔ ∃ w ∈ writings, w.name = name := by
  simp [content, Option.isSome_iff_ne_none]

end Writing

/-- A request stands for no file if its path is missing, null or no text, or if no name is left of
it. -/
lemma NodeInputs.fileRequest?_eq_none_iff {inputs : NodeInputs} :
    inputs.fileRequest? = none ↔
      ∀ requested, Keyed.get? inputs.fields "path" = some (.str requested) →
        fileName? requested = none := by
  rw [fileRequest?, get?]
  rcases Keyed.get? inputs.fields "path" with _ | v
  · simp
  · cases v <;> simp [Json.isNull]

lemma NodeInputs.get?_eq_none_iff {inputs : NodeInputs} {key : String} :
    inputs.get? key = none ↔
      Keyed.get? inputs.fields key = none ∨ Keyed.get? inputs.fields key = some .null := by
  rw [get?]
  rcases Keyed.get? inputs.fields key with _ | v
  · simp
  · cases v <;> simp [Json.isNull]

lemma isName_of_fileName? {path name : String} (h : fileName? path = some name) : IsName name := by
  rw [fileName?_eq] at h
  split at h
  · cases h
  · next hname =>
    obtain rfl := Option.some.inj h
    exact isName_lastPart hname

lemma isName_of_fileRequest? {inputs : NodeInputs} {requested name : String}
    (h : inputs.fileRequest? = some (requested, name)) : IsName name := by
  unfold NodeInputs.fileRequest? at h
  split at h
  · obtain ⟨other, hname, heq⟩ := Option.map_eq_some_iff.1 h
    obtain ⟨-, rfl⟩ := Prod.mk.inj heq
    exact isName_of_fileName? hname
  · cases h

lemma isName_of_ofRequest? {node : Node} {inputs : NodeInputs} {w : Writing}
    (h : Writing.ofRequest? node inputs = some w) : IsName w.name := by
  unfold Writing.ofRequest? at h
  split at h
  · next hrequest _ =>
    obtain rfl := Option.some.inj h
    exact isName_of_fileRequest? hrequest
  · cases h

/-! ## What the nodes ask for -/

namespace Builtin

open Writing (ofRequest?)

variable {s : ExecutorSettings} {inputs : NodeInputs}

lemma toOption_require (inputs : NodeInputs) (key message : String) :
    (inputs.require key message).toOption = inputs.get? key := by
  rw [NodeInputs.require]
  cases inputs.get? key <;> rfl

lemma toOption_resolve (root : StorageRoot) (requested : String) :
    (root.resolve requested).toOption = (fileName? requested).map (joinPath root.path) := by
  rw [StorageRoot.resolve]
  cases fileName? requested <;> rfl

/-- An empty path has no name, so it makes no difference that it counts as missing. -/
lemma fileRequest?_eq (inputs : NodeInputs) (message : String) :
    inputs.fileRequest? =
      (inputs.requireText "path" message).toOption.bind fun requested =>
        (fileName? requested).map (requested, ·) := by
  have hempty : fileName? "" = none := by decide
  rw [NodeInputs.requireText, NodeInputs.require, NodeInputs.fileRequest?]
  rcases inputs.get? "path" with _ | v
  · rfl
  · cases v with
    | str requested =>
      by_cases hrequested : requested = "" <;>
        simp [hrequested, hempty, bind, Except.bind, Except.toOption]
    | null | bool _ | num _ | arr _ | obj _ => rfl

lemma toOption_filePath (s : ExecutorSettings) (inputs : NodeInputs) :
    (filePath s inputs).toOption =
      inputs.fileRequest?.map fun request => (request.1, joinPath s.storagePath request.2) := by
  simp only [filePath, Except.toOption_bind, toOption_resolve,
    fileRequest?_eq inputs "File path is required"]
  rcases (inputs.requireText "path" "File path is required").toOption with _ | requested
  · rfl
  · rcases hname : fileName? requested with _ | name
    · simp [hname]
    · simp only [hname, Option.bind_some, Option.map_some]
      rfl

lemma toOption_fileWrite (s : ExecutorSettings) (node : Node) (inputs : NodeInputs) :
    (fileWrite s node inputs).toOption =
      (ofRequest? node inputs).map fun w => ⟨joinPath s.storagePath w.name, w.text, w.append⟩ := by
  simp only [fileWrite, Except.toOption_bind, toOption_resolve, toOption_require, ofRequest?,
    fileRequest?_eq inputs "File path is required"]
  rcases (inputs.requireText "path" "File path is required").toOption with _ | requested
  · rfl
  · rcases inputs.get? "content" with _ | content <;>
      rcases hname : fileName? requested with _ | name
    · simp [hname]
    · simp [hname]
    · simp [hname]
    · simp only [hname, Option.bind_some, Option.map_some]
      cases node.config? "append" <;> rfl

/-! ## What the nodes answer -/

variable (s) {node : Node}

lemma readFile_of_none (h : inputs.fileRequest? = none) (fs : FileSystem) :
    ∃ failure, readFile s inputs fs = .error failure := by
  have hnone : (filePath s inputs).toOption = none := by rw [toOption_filePath, h]; rfl
  obtain ⟨failure, hfailure⟩ := Except.exists_eq_error_of_toOption hnone
  exact ⟨failure, by rw [readFile, hfailure]; rfl⟩

lemma readFile_of_request {requested name : String}
    (h : inputs.fileRequest? = some (requested, name)) (fs : FileSystem) :
    (∃ fault failure, fs.readText (joinPath s.storagePath name) = .error fault ∧
        readFile s inputs fs = .error failure) ∨
      ∃ text, fs.readText (joinPath s.storagePath name) = .ok text ∧
        readFile s inputs fs =
          .ok [("size", Json.ofNat text.utf8ByteSize), ("content", .str text),
            ("path", .str requested)] := by
  have hsome : filePath s inputs = .ok (requested, joinPath s.storagePath name) := by
    apply Except.of_toOption_eq_some
    rw [toOption_filePath, h]
    rfl
  rw [readFile, hsome]
  rcases hread : fs.readText (joinPath s.storagePath name) with fault | text
  · exact .inl ⟨fault, _, rfl, by simp only [bind, Except.bind, hread]; rfl⟩
  · exact .inr ⟨text, rfl, by simp only [bind, Except.bind, hread]⟩

lemma writeFile_of_none (h : ofRequest? node inputs = none) (fs : FileSystem) :
    ∃ failure, writeFile s node inputs fs = (.error failure, fs) := by
  have hnone : (fileWrite s node inputs).toOption = none := by rw [toOption_fileWrite, h]; rfl
  obtain ⟨failure, hfailure⟩ := Except.exists_eq_error_of_toOption hnone
  exact ⟨failure, by rw [writeFile, hfailure]⟩

lemma writeFile_of_request {w : Writing} (h : ofRequest? node inputs = some w) (fs : FileSystem) :
    (∃ fault failure,
        fs.write (joinPath s.storagePath w.name) w.append w.text.toUTF8 = .error fault ∧
        writeFile s node inputs fs = (.error failure, fs)) ∨
      ∃ after, fs.write (joinPath s.storagePath w.name) w.append w.text.toUTF8 = .ok after ∧
        writeFile s node inputs fs =
          (.ok [("success", .bool true), ("path", .str (joinPath s.storagePath w.name)),
            ("size", Json.ofNat w.text.utf8ByteSize)], after) := by
  have hsome : fileWrite s node inputs =
      .ok ⟨joinPath s.storagePath w.name, w.text, w.append⟩ := by
    apply Except.of_toOption_eq_some
    rw [toOption_fileWrite, h]
    rfl
  rw [writeFile, hsome]
  dsimp only
  rcases hwrite : fs.write (joinPath s.storagePath w.name) w.append w.text.toUTF8 with fault | after
  · exact .inl ⟨fault, _, rfl, rfl⟩
  · exact .inr ⟨after, rfl, rfl⟩

end Builtin

end FlowGraph
