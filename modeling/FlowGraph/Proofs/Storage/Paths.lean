import FlowGraph.Storage.Files
import Mathlib.Data.List.DropRight
import Mathlib.Tactic.Common

/-!
# Names and paths

A requested path counts only by its last name: what stands after the last slash, once slashes and
`/.` at the end of the path are dropped.  `fileName?_eq` says which requests have such a name, and
`StorageRoot.resolve_eq_error` and `StorageRoot.resolve_eq_ok` what becomes of requests.  Such a
name is never a way out of a directory (`IsName`), so the path that it makes lies below the root and
nowhere else (`StorageRoot.Below`).
-/

namespace FlowGraph

/-! ## Parts -/

lemma pathParts_ne_nil (s : List Char) : pathParts s ≠ [] := by
  cases s with
  | nil => nofun
  | cons c rest =>
    rw [pathParts]
    split
    · nofun
    · split <;> nofun

/-- A slash stands between the parts before it and those after it. -/
lemma pathParts_append (s t : List Char) :
    pathParts (s ++ '/' :: t) = pathParts s ++ pathParts t := by
  induction s with
  | nil => simp [pathParts]
  | cons c s ih =>
    rw [List.cons_append, pathParts, pathParts, ih]
    split
    · rfl
    · rcases h : pathParts s with _ | ⟨part, parts⟩
      · exact absurd h (pathParts_ne_nil s)
      · rfl

lemma pathParts_of_not_mem {s : List Char} (h : '/' ∉ s) : pathParts s = [s] := by
  induction s with
  | nil => rfl
  | cons c s ih =>
    rw [List.mem_cons, not_or] at h
    rw [pathParts, if_neg (Ne.symm h.1), ih h.2]

/-- The parts of a path that count. -/
def nameParts (s : List Char) : List (List Char) :=
  (pathParts s).filter fun part => part ≠ [] ∧ part ≠ ['.']

lemma nameParts_append (s t : List Char) :
    nameParts (s ++ '/' :: t) = nameParts s ++ nameParts t := by
  rw [nameParts, pathParts_append, List.filter_append]
  rfl

/-- What stands after the last slash. -/
def lastPart (s : List Char) : List Char :=
  s.rtakeWhile (· ≠ '/')

lemma slash_not_mem_lastPart (s : List Char) : '/' ∉ lastPart s := fun h => by
  simpa using List.mem_rtakeWhile_imp h

lemma pathParts_eq_append_lastPart (s : List Char) :
    ∃ before, pathParts s = before ++ [lastPart s] := by
  by_cases h : '/' ∈ s.reverse
  · obtain ⟨after, before, hsplit, hafter⟩ := List.eq_append_cons_of_mem h
    have hs : s = before.reverse ++ '/' :: after.reverse := by
      rw [← List.reverse_reverse s, hsplit]
      simp
    have hlast : lastPart s = after.reverse := by
      rw [lastPart, List.rtakeWhile, hsplit, List.takeWhile_append_of_pos]
      · simp
      · intro c hc
        simpa using fun hslash : c = '/' => hafter (hslash ▸ hc)
    have hone : pathParts after.reverse = [after.reverse] :=
      pathParts_of_not_mem fun hmem => hafter (List.mem_reverse.1 hmem)
    exact ⟨pathParts before.reverse, by rw [hlast, hs, pathParts_append, hone]⟩
  · rw [List.mem_reverse] at h
    have hlast : lastPart s = s := by
      rw [lastPart, List.rtakeWhile_eq_self_iff]
      intro c hc
      simpa using fun hslash : c = '/' => h (hslash ▸ hc)
    exact ⟨[], by rw [hlast, pathParts_of_not_mem h, List.nil_append]⟩

/-- A last part that counts is the last one that counts. -/
lemma getLast?_nameParts {s : List Char} (hempty : lastPart s ≠ []) (hdot : lastPart s ≠ ['.']) :
    (nameParts s).getLast? = some (lastPart s) := by
  obtain ⟨before, hparts⟩ := pathParts_eq_append_lastPart s
  rw [nameParts, hparts, List.filter_append, List.filter_cons_of_pos (by simp [hempty, hdot])]
  exact List.getLast?_concat

/-! ## The end of a path -/

/-- The reverse of a path without slashes and `/.` at its end.  The root directory keeps its
slash. -/
def dropTail : List Char → List Char
  | ['/'] => ['/']
  | ['.', '/'] => ['/']
  | '/' :: rest => dropTail rest
  | '.' :: '/' :: rest => dropTail rest
  | path => path

/-- A path without slashes and `/.` at its end. -/
def withoutTail (path : List Char) : List Char :=
  (dropTail path.reverse).reverse

/-- What is dropped has no part that counts. -/
lemma nameParts_dropTail (r : List Char) :
    nameParts (dropTail r).reverse = nameParts r.reverse := by
  fun_induction dropTail r with
  | case1 => rfl
  | case2 => rfl
  | case3 rest _ ih =>
    rw [ih, List.reverse_cons, nameParts_append]
    exact (List.append_nil _).symm
  | case4 rest _ ih =>
    rw [ih, List.reverse_cons, List.reverse_cons, List.append_assoc]
    show _ = nameParts (rest.reverse ++ '/' :: ['.'])
    rw [nameParts_append]
    exact (List.append_nil _).symm
  | case5 => rfl

/-- Only the root directory still ends with a slash. -/
lemma dropTail_ne {r : List Char} (h : dropTail r ≠ ['/']) (rest : List Char) :
    dropTail r ≠ '/' :: rest ∧ dropTail r ≠ '.' :: '/' :: rest := by
  fun_induction dropTail r with
  | case1 => exact absurd rfl h
  | case2 => exact absurd rfl h
  | case3 rest' _ ih => exact ih h
  | case4 rest' _ ih => exact ih h
  | case5 path _ _ hslash hdot => exact ⟨hslash rest, hdot rest⟩

/-- What is left of a path has no name: it is nothing, the directory itself, the root directory, or
a way out of a directory. -/
def Nameless (rest : List Char) : Prop :=
  rest = [] ∨ rest = ['.'] ∨ rest = ['/'] ∨ lastPart rest = ['.', '.']

instance (rest : List Char) : Decidable (Nameless rest) :=
  inferInstanceAs (Decidable (_ ∨ _ ∨ _ ∨ _))

/-- What is left ends with a part that counts, if it is more than a slash or a dot. -/
lemma lastPart_withoutTail {s : List Char} (hempty : withoutTail s ≠ [])
    (hdot : withoutTail s ≠ ['.']) (hroot : withoutTail s ≠ ['/']) :
    lastPart (withoutTail s) ≠ [] ∧ lastPart (withoutTail s) ≠ ['.'] := by
  have hkept : dropTail s.reverse ≠ ['/'] := fun h => hroot (by rw [withoutTail, h]; rfl)
  rw [withoutTail, lastPart, List.rtakeWhile, List.reverse_reverse]
  rw [withoutTail] at hempty hdot
  rcases h : dropTail s.reverse with _ | ⟨c, rest⟩
  · exact absurd (by rw [h]; rfl) hempty
  · have hc : c ≠ '/' := by
      rintro rfl
      exact (dropTail_ne hkept rest).1 h
    rw [List.takeWhile_cons_of_pos (by simpa using hc)]
    refine ⟨by simp, fun hone => ?_⟩
    rw [List.reverse_eq_iff, List.reverse_singleton, List.cons.injEq] at hone
    obtain ⟨rfl, hnone⟩ := hone
    cases rest with
    | nil => exact hdot (by rw [h]; rfl)
    | cons c rest =>
      rw [List.takeWhile_cons] at hnone
      split at hnone
      · cases hnone
      · next hslash =>
        obtain rfl : c = '/' := by simpa using hslash
        exact (dropTail_ne hkept rest).2 h

lemma fileName?_of_nil {path : String} (h : nameParts path.toList = []) :
    fileName? path = none := by
  rw [nameParts] at h
  rw [fileName?, h, List.getLast?_nil]

lemma fileName?_of_getLast? {path : String} {part : List Char}
    (h : (nameParts path.toList).getLast? = some part) :
    fileName? path = if part = ['.', '.'] then none else some (String.ofList part) := by
  rw [nameParts] at h
  rw [fileName?, h]

/-- **The name of a path** is its last part, when slashes and `/.` at its end are dropped. -/
theorem fileName?_eq (path : String) :
    fileName? path =
      if Nameless (withoutTail path.toList) then none
      else some (String.ofList (lastPart (withoutTail path.toList))) := by
  have hparts : nameParts path.toList = nameParts (withoutTail path.toList) := by
    rw [withoutTail, nameParts_dropTail, List.reverse_reverse]
  by_cases hempty : withoutTail path.toList = []
  · rw [if_pos (.inl hempty)]
    exact fileName?_of_nil (by rw [hparts, hempty]; rfl)
  by_cases hdot : withoutTail path.toList = ['.']
  · rw [if_pos (.inr (.inl hdot))]
    exact fileName?_of_nil (by rw [hparts, hdot]; rfl)
  by_cases hroot : withoutTail path.toList = ['/']
  · rw [if_pos (.inr (.inr (.inl hroot)))]
    exact fileName?_of_nil (by rw [hparts, hroot]; rfl)
  obtain ⟨hlast, hlastDot⟩ := lastPart_withoutTail hempty hdot hroot
  rw [fileName?_of_getLast? (hparts ▸ getLast?_nameParts hlast hlastDot)]
  have hnameless : Nameless (withoutTail path.toList) ↔
      lastPart (withoutTail path.toList) = ['.', '.'] := by
    simp [Nameless, hempty, hdot, hroot]
  simp only [hnameless]

/-! ## Below a directory -/

/-- A name of something in a directory. -/
structure IsName (name : String) : Prop where
  notEmpty : name ≠ ""
  notHere : name ≠ "."
  notUp : name ≠ ".."
  noSlash : '/' ∉ name.toList

/-- What is left of a path that has a name ends with it. -/
lemma isName_lastPart {s : List Char} (h : ¬ Nameless (withoutTail s)) :
    IsName (String.ofList (lastPart (withoutTail s))) := by
  simp only [Nameless, not_or] at h
  obtain ⟨hempty, hdot, hroot, hup⟩ := h
  obtain ⟨hlast, hlastDot⟩ := lastPart_withoutTail hempty hdot hroot
  have hne {part : List Char} (hpart : lastPart (withoutTail s) ≠ part) :
      String.ofList (lastPart (withoutTail s)) ≠ String.ofList part :=
    fun heq => hpart (String.ofList_injective heq)
  exact ⟨hne hlast, hne hlastDot, hne hup, by
    rw [String.toList_ofList]
    exact slash_not_mem_lastPart _⟩

namespace IsName

variable {name : String}

lemma nameParts (h : IsName name) : nameParts name.toList = [name.toList] := by
  have hempty : name.toList ≠ [] := fun heq => h.notEmpty (String.toList_inj.1 heq)
  have hdot : name.toList ≠ ['.'] := fun heq => h.notHere (String.toList_inj.1 heq)
  rw [FlowGraph.nameParts, pathParts_of_not_mem h.noSlash,
    List.filter_cons_of_pos (by simp [hempty, hdot]), List.filter_nil]

/-- A name is its own name. -/
lemma fileName?_eq (h : IsName name) : fileName? name = some name := by
  have hup : name.toList ≠ ['.', '.'] := fun heq => h.notUp (String.toList_inj.1 heq)
  have hlast : (FlowGraph.nameParts name.toList).getLast? = some name.toList := by
    rw [h.nameParts, List.getLast?_singleton]
  rw [fileName?_of_getLast? hlast, if_neg hup, String.ofList_toList]

end IsName

/-- What stands between a directory and a name in it. -/
def separator (root : String) : String :=
  if root = "" ∨ root.toList.getLast? = some '/' then "" else "/"

lemma joinPath_eq {name : String} (h : IsName name) (root : String) :
    joinPath root name = root ++ separator root ++ name := by
  have hslash : name.toList.head? ≠ some '/' := fun hhead => h.noSlash (List.mem_of_mem_head? hhead)
  rw [joinPath, separator, if_neg hslash]
  by_cases hempty : root = ""
  · simp [hempty]
  · by_cases hend : root.toList.getLast? = some '/' <;> simp [hempty, hend]

/-- A name in a directory adds one part to those of the directory. -/
lemma nameParts_joinPath {name : String} (h : IsName name) (root : String) :
    nameParts (joinPath root name).toList = nameParts root.toList ++ [name.toList] := by
  rw [joinPath_eq h, separator]
  by_cases hempty : root = ""
  · have hnone : nameParts [] = [] := rfl
    simp [hempty, h.nameParts, hnone]
  by_cases hend : root.toList.getLast? = some '/'
  · obtain ⟨before, hbefore⟩ := List.getLast?_eq_some_iff.1 hend
    have hroot : nameParts root.toList = nameParts before := by
      rw [hbefore, nameParts_append]
      exact List.append_nil _
    rw [if_pos (.inr hend), hroot, String.append_empty, String.toList_append, hbefore,
      List.append_assoc]
    show nameParts (before ++ '/' :: name.toList) = _
    rw [nameParts_append, h.nameParts]
  · rw [if_neg (by simp [hempty, hend]), String.toList_append, String.toList_append,
      List.append_assoc]
    show nameParts (root.toList ++ '/' :: name.toList) = _
    rw [nameParts_append, h.nameParts]

namespace FileSystem

lemma pathNames_joinPath {name : String} (h : IsName name) (root : String) :
    pathNames (joinPath root name) = pathNames root ++ [name] := by
  show (nameParts _).map String.ofList = (nameParts _).map String.ofList ++ [name]
  rw [nameParts_joinPath h, List.map_append, List.map_singleton, String.ofList_toList]

/-- Names are followed through directories. -/
lemma follow_cons {fs : FileSystem} {first : String} {names : List String} {here : Location}
    (hnames : names ≠ []) : fs.follow here (first :: names) =
      if first = ".." then fs.follow here.dropLast names
      else if 255 < first.utf8ByteSize then .error .nameTooLong
      else match fs.entry? (here ++ [first]) with
        | some .directory => fs.follow (here ++ [first]) names
        | some _ => .error .notDirectory
        | none => .error .notFound := by
  obtain ⟨second, names, rfl⟩ := List.exists_cons_of_ne_nil hnames
  rw [follow]
  dsimp only
  rcases fs.entry? (here ++ [first]) with _ | _ | _ | _ <;> rfl

/-- A last name that leads somewhere leads from the directory that the names before it lead to. -/
lemma of_follow_append {fs : FileSystem} {name : String} (hname : name ≠ "..")
    {names : List String} {here place : Location}
    (h : fs.follow here (names ++ [name]) = .ok place) :
    ∃ directory, fs.follow here names = .ok directory ∧ place = directory ++ [name] := by
  induction names generalizing here with
  | nil =>
    rw [List.nil_append, follow, if_neg hname] at h
    split at h
    · cases h
    · cases h
      exact ⟨here, rfl, rfl⟩
  | cons first names ih =>
    have hmore : names ++ [name] ≠ [] := List.append_ne_nil_of_right_ne_nil _ (List.cons_ne_nil _ _)
    rw [List.cons_append, follow_cons hmore] at h
    by_cases hup : first = ".."
    · rw [if_pos hup] at h
      rw [follow, if_pos hup]
      exact ih h
    · by_cases hlong : 255 < first.utf8ByteSize
      · rw [if_neg hup, if_pos hlong] at h
        cases h
      · rw [if_neg hup, if_neg hlong] at h
        split at h
        · next hentry =>
          obtain ⟨directory, hfollow, hplace⟩ := ih h
          refine ⟨directory, ?_, hplace⟩
          rcases names with _ | ⟨second, names⟩
          · rw [follow, if_neg hup, if_neg hlong]
            exact hfollow
          · rw [follow_cons (List.cons_ne_nil _ _), if_neg hup, if_neg hlong, hentry]
            exact hfollow
        · cases h
        · cases h

end FileSystem

namespace StorageRoot

/-- The path is that of a name in the directory: its text is the directory's with the name after
it, it has one name more, and it leads to a place directly in the directory or nowhere. -/
structure Below (root : StorageRoot) (name path : String) : Prop where
  isName : IsName name
  text : path = root.path ++ separator root.path ++ name
  names : FileSystem.pathNames path = FileSystem.pathNames root.path ++ [name]
  place : ∀ {fs : FileSystem} {place : Location}, fs.locate path = .ok place →
    ∃ directory, fs.follow [] (FileSystem.pathNames root.path) = .ok directory ∧
      place = directory ++ [name]

lemma below_joinPath {name : String} (h : IsName name) (root : StorageRoot) :
    root.Below name (joinPath root.path name) where
  isName := h
  text := joinPath_eq h root.path
  names := FileSystem.pathNames_joinPath h root.path
  place {fs place} hplace := by
    rw [FileSystem.locate, FileSystem.pathNames_joinPath h] at hplace
    split at hplace
    · cases hplace
    · split at hplace
      · cases hplace
      · split at hplace
        · cases hplace
        · exact FileSystem.of_follow_append h.notUp hplace

/-- **Requests without a name are refused**, and no others. -/
theorem resolve_eq_error (root : StorageRoot) (requested : String) :
    (∃ failure, root.resolve requested = .error failure) ↔
      Nameless (withoutTail requested.toList) := by
  rw [resolve, fileName?_eq]
  by_cases h : Nameless (withoutTail requested.toList)
  · rw [if_pos h]
    exact ⟨fun _ => h, fun _ => ⟨_, rfl⟩⟩
  · rw [if_neg h]
    exact ⟨nofun, fun hnameless => absurd hnameless h⟩

/-- **A request with a name** stands for that name in the directory, and so does the name alone. -/
theorem resolve_eq_ok {root : StorageRoot} {requested path : String}
    (h : root.resolve requested = .ok path) :
    root.Below (String.ofList (lastPart (withoutTail requested.toList))) path ∧
      root.resolve (String.ofList (lastPart (withoutTail requested.toList))) = .ok path := by
  rw [resolve, FlowGraph.fileName?_eq] at h
  by_cases hname : Nameless (withoutTail requested.toList)
  · rw [if_pos hname] at h
    cases h
  · rw [if_neg hname] at h
    obtain rfl := Except.ok.inj h
    have hisName := isName_lastPart hname
    exact ⟨root.below_joinPath hisName, by rw [resolve, hisName.fileName?_eq]⟩

end StorageRoot

end FlowGraph
