import FlowGraph.Proofs.Storage.Confinement

/-!
# Files in a directory

What is read and written under a name in a directory, for a name that leads to a plain file or to
nothing: a write succeeds and its file then holds what was written (`write_eq_set`), and a text that
was written is read (`readText_of_file`).  Such writes make no directories, so they change nothing in
how paths are followed (`SameDirectories`, `locate_of_sameDirectories`).
-/

namespace FlowGraph

/-- The last part of a path in a directory is the name. -/
lemma getLast?_pathParts_joinPath {name : String} (h : IsName name) (root : String) :
    (pathParts (joinPath root name).toList).getLast? = some name.toList := by
  have hname : pathParts name.toList = [name.toList] := pathParts_of_not_mem h.noSlash
  have hbehind : ∀ before, (pathParts (before ++ '/' :: name.toList)).getLast? =
      some name.toList := by
    intro before
    rw [pathParts_append, hname]
    exact List.getLast?_concat
  rw [joinPath_eq h, separator]
  by_cases hempty : root = ""
  · simp [hempty, hname]
  by_cases hend : root.toList.getLast? = some '/'
  · obtain ⟨before, hbefore⟩ := List.getLast?_eq_some_iff.1 hend
    simpa [hend, hbefore] using hbehind before
  · simpa [hempty, hend] using hbehind root.toList

namespace FileSystem

variable {fs fs' : FileSystem} {path : String} {place : Location}

lemma namesDirectory_joinPath {name : String} (h : IsName name) (root : String) :
    namesDirectory (joinPath root name) = false := by
  have hempty : name.toList ≠ [] := fun heq => h.notEmpty (String.toList_inj.1 heq)
  have hdot : name.toList ≠ ['.'] := fun heq => h.notHere (String.toList_inj.1 heq)
  simp [namesDirectory, getLast?_pathParts_joinPath h, hempty, hdot]

/-! ## Following paths -/

/-- The same places are directories. -/
def SameDirectories (fs fs' : FileSystem) : Prop :=
  ∀ place, fs.entry? place = some .directory ↔ fs'.entry? place = some .directory

lemma SameDirectories.symm (h : SameDirectories fs fs') : SameDirectories fs' fs :=
  fun place => (h place).symm

lemma SameDirectories.trans {fs'' : FileSystem} (h : SameDirectories fs fs')
    (h' : SameDirectories fs' fs'') : SameDirectories fs fs'' :=
  fun place => (h place).trans (h' place)

/-- Names lead through directories only. -/
lemma follow_of_sameDirectories (h : SameDirectories fs fs') {names : List String}
    {here : Location} (hfollow : fs.follow here names = .ok place) :
    fs'.follow here names = .ok place := by
  induction names generalizing here with
  | nil => exact hfollow
  | cons first names ih =>
    rcases names with _ | ⟨second, names⟩
    · -- what the last name leads to is not looked at
      exact hfollow
    · rw [follow_cons (List.cons_ne_nil _ _)] at hfollow ⊢
      split at hfollow
      · next hup => rw [if_pos hup]; exact ih hfollow
      · next hup =>
        rw [if_neg hup]
        split at hfollow
        · cases hfollow
        · next hlong =>
          rw [if_neg hlong]
          split at hfollow
          · next hentry => rw [(h _).1 hentry]; exact ih hfollow
          · cases hfollow
          · cases hfollow

lemma locate_of_sameDirectories (h : SameDirectories fs fs')
    (hlocate : fs.locate path = .ok place) : fs'.locate path = .ok place := by
  rw [locate] at hlocate ⊢
  split at hlocate
  · cases hlocate
  · next hnul =>
    rw [if_neg hnul]
    split at hlocate
    · cases hlocate
    · next hempty =>
      rw [if_neg hempty]
      split at hlocate
      · cases hlocate
      · next hlong =>
        rw [if_neg hlong]
        exact follow_of_sameDirectories h hlocate

/-! ## Writing and reading a file -/

lemma entry?_set_self (h : place ≠ []) (entry : FileEntry) :
    FileSystem.entry? (fs.set place entry) place = some entry := by
  simp only [set, entry?, if_neg h, lookup_setEntry_self]

/-- A plain file is no directory, whatever it takes the place of. -/
lemma sameDirectories_set (hplace : place ≠ []) (h : fs.entry? place ≠ some .directory)
    (content : ByteArray) : SameDirectories fs (fs.set place (.file content)) := by
  intro other
  by_cases hother : other = place
  · subst hother
    rw [entry?_set_self hplace]
    exact iff_of_false h (by simp)
  · rw [entry?_set_of_ne hother]

/-- What a file holds after a write. -/
def written (old : Option ByteArray) (append : Bool) (content : ByteArray) : ByteArray :=
  if append then old.getD ByteArray.empty ++ content else content

/-- A plain file, or a missing one, is written. -/
lemma write_eq_set {old : Option ByteArray} (hfile : namesDirectory path = false)
    (hlocate : fs.locate path = .ok place) (hentry : fs.entry? place = old.map .file)
    (append : Bool) (content : ByteArray) :
    fs.write path append content = .ok (fs.set place (.file (written old append content))) := by
  simp only [write, hlocate, hentry, bind, Except.bind, hfile]
  cases old <;> cases append <;> simp [written]

lemma readText_of_file (hfile : namesDirectory path = false) (hlocate : fs.locate path = .ok place)
    {text : String} (hentry : fs.entry? place = some (.file text.toUTF8)) :
    fs.readText path = .ok text := by
  have htext : String.fromUTF8? text.toByteArray = some text := by
    rw [String.fromUTF8?, dif_pos text.isValidUTF8]
    rfl
  simp [readText, hlocate, hentry, bind, Except.bind, hfile, htext]

/-- Where nothing is found, nothing is read. -/
lemma readText_of_none (h : ∀ {place}, fs.locate path = .ok place → fs.entry? place = none) :
    ∃ fault, fs.readText path = .error fault := by
  rcases hlocate : fs.locate path with fault | place
  · exact ⟨fault, by rw [readText, hlocate]; rfl⟩
  · exact ⟨.notFound, by simp [readText, hlocate, h hlocate, bind, Except.bind]⟩

end FileSystem

end FlowGraph
