import TableAccess.Proofs.FileTree.Write

/-!
# Where a path leads by its last name

A path that ends in a name leads into the directory of what stands before the last slash, and to
that name there.  A path that is only a name leads into the working directory.
-/

namespace TableAccess

/-! ### The names of a path -/

namespace Path

variable {s r part : List Char}

theorem splitSlashes_ne_nil (s : List Char) : splitSlashes s ≠ [] := by
  cases s with
  | nil => exact List.cons_ne_nil _ _
  | cons c s =>
    rw [splitSlashes]
    split
    · exact List.cons_ne_nil _ _
    · split <;> exact List.cons_ne_nil _ _

theorem splitSlashes_append (s r : List Char) :
    splitSlashes (s ++ '/' :: r) = splitSlashes s ++ splitSlashes r := by
  induction s with
  | nil => rfl
  | cons c s ih =>
    rw [List.cons_append, splitSlashes, splitSlashes, ih]
    by_cases hc : c = '/'
    · rw [if_pos hc, if_pos hc, List.cons_append]
    · obtain ⟨first, others, hsplit⟩ := List.exists_cons_of_ne_nil (splitSlashes_ne_nil s)
      rw [if_neg hc, if_neg hc, hsplit, List.cons_append, List.cons_append]

theorem splitSlashes_of_not_mem (h : '/' ∉ s) : splitSlashes s = [s] := by
  induction s with
  | nil => rfl
  | cons c s ih =>
    have hc : '/' ≠ c := List.ne_of_not_mem_cons h
    rw [splitSlashes, if_neg hc.symm, ih (List.not_mem_of_not_mem_cons h)]

theorem not_mem_of_mem_splitSlashes (h : part ∈ splitSlashes s) : '/' ∉ part := by
  induction s generalizing part with
  | nil =>
    rw [List.mem_singleton.mp h]
    exact List.not_mem_nil
  | cons c s ih =>
    rw [splitSlashes] at h
    by_cases hc : c = '/'
    · rw [if_pos hc] at h
      rcases List.mem_cons.mp h with rfl | hlater
      · exact List.not_mem_nil
      · exact ih hlater
    · obtain ⟨first, others, hsplit⟩ := List.exists_cons_of_ne_nil (splitSlashes_ne_nil s)
      rw [hsplit] at ih
      rw [if_neg hc, hsplit] at h
      rcases List.mem_cons.mp h with rfl | hlater
      · exact List.not_mem_cons_of_ne_of_not_mem (Ne.symm hc) (ih List.mem_cons_self)
      · exact ih (List.mem_cons_of_mem _ hlater)

theorem not_mem_of_mem_components (h : part ∈ components s) : '/' ∉ part :=
  not_mem_of_mem_splitSlashes (List.mem_filter.mp h).1

/-- A text with a character in it has a last place of that character. -/
theorem exists_last_of_mem {c : Char} (h : c ∈ s) :
    ∃ front back, s = front ++ c :: back ∧ c ∉ back := by
  obtain ⟨before, after, hsplit, hbefore⟩ := List.eq_append_cons_of_mem (List.mem_reverse.mpr h)
  refine ⟨after.reverse, before.reverse, ?_, fun hmem => hbefore (List.mem_reverse.mp hmem)⟩
  rw [← List.reverse_reverse s, hsplit, List.reverse_append, List.reverse_cons, List.append_assoc]
  rfl

/-- The name of a file has no slash in it, so neither has its stem. -/
theorem not_mem_stem {path stem : String} (h : stem? path = some stem) : '/' ∉ stem.toList := by
  obtain ⟨name, hname, rfl⟩ := Option.map_eq_some_iff.mp h
  have hnoSlash : '/' ∉ name := by
    rw [fileName?] at hname
    split at hname
    case h_1 => cases hname
    case h_2 last hlast =>
      split at hname
      case isTrue => cases hname
      case isFalse =>
        cases hname
        exact not_mem_of_mem_components (List.mem_of_getLast? hlast)
  rw [String.toList_ofList, splitExtension]
  split
  case isTrue => exact hnoSlash
  case isFalse => exact fun hmem => hnoSlash (List.mem_of_mem_take hmem)

/-- What can be the name of a file in a directory. -/
structure IsName (name : List Char) : Prop where
  noSlash : '/' ∉ name
  notVoid : isVoid name = false
  notUp : name ≠ ['.', '.']

theorem components_of_not_void (hslash : '/' ∉ s) (hvoid : isVoid s = false) :
    components s = [s] := by
  rw [components, splitSlashes_of_not_mem hslash, List.filter_cons, hvoid]
  rfl

theorem components_append_slash (s r : List Char) :
    components (s ++ '/' :: r) = components s ++ components r := by
  rw [components, splitSlashes_append, List.filter_append]
  rfl

theorem components_of_isName (h : IsName s) : components s = [s] :=
  components_of_not_void h.noSlash h.notVoid

theorem components_append_of_isName (h : IsName r) :
    components (s ++ '/' :: r) = components s ++ [r] := by
  rw [components_append_slash, components_of_isName h]

theorem isAbsolute_of_isName (h : IsName s) : isAbsolute s = false := by
  rw [isAbsolute, beq_eq_false_iff_ne]
  intro hhead
  exact h.noSlash (List.mem_of_mem_head? hhead)

end Path

/-! ### Places -/

namespace FileTree

open TableAccess.Path (IsName)

variable {t : FileTree} {start stop : Place} {name folder : List Char} {path : String}

theorem follow_append_eq_ok_iff {names more : List (List Char)} :
    t.follow start (names ++ more) = .ok stop ↔
      ∃ middle, t.follow start names = .ok middle ∧ t.follow middle more = .ok stop := by
  induction names generalizing start with
  | nil => simp [follow]
  | cons name names ih =>
    rw [List.cons_append, follow_cons_eq_ok_iff]
    simp only [follow_cons_eq_ok_iff]
    by_cases hup : name = ['.', '.']
    · simp only [hup, if_true, ih]
      constructor
      · rintro ⟨hnode, middle, hnames, hmore⟩
        exact ⟨middle, ⟨hnode, hnames⟩, hmore⟩
      · rintro ⟨middle, ⟨hnode, hnames⟩, hmore⟩
        exact ⟨hnode, middle, hnames, hmore⟩
    · simp only [hup, if_false, ih]
      constructor
      · rintro ⟨hnode, hlength, middle, hnames, hmore⟩
        exact ⟨middle, ⟨hnode, hlength, hnames⟩, hmore⟩
      · rintro ⟨middle, ⟨hnode, hlength, hnames⟩, hmore⟩
        exact ⟨hnode, hlength, middle, hnames, hmore⟩

theorem eq_of_follow_name (hname : IsName name) (h : t.follow start [name] = .ok stop) :
    stop = start ++ [name] := by
  obtain ⟨-, hstep⟩ := follow_cons_eq_ok_iff.mp h
  rw [if_neg hname.notUp] at hstep
  cases hstep.2
  rfl

/-- The directory from which a path is followed. -/
def origin (t : FileTree) (s : List Char) : Place :=
  if Path.isAbsolute s then [] else t.workingDirectory

theorem follow_of_place (h : t.place path = .ok stop) :
    t.follow (t.origin path.toList) (Path.components path.toList) = .ok stop := by
  rw [place] at h
  split at h
  case isTrue => cases h
  case isFalse =>
    split at h
    case isTrue => cases h
    case isFalse =>
      split at h
      case isTrue => cases h
      case isFalse => exact h

/-- The directory that the part of a path before its last slash leads to. -/
def directory (t : FileTree) (folder : List Char) : Except FileError Place :=
  t.follow (t.origin (folder ++ ['/'])) (Path.components folder)

theorem eq_of_place_name (hname : IsName path.toList) (h : t.place path = .ok stop) :
    stop = t.workingDirectory ++ [path.toList] := by
  have hfollow := follow_of_place h
  rw [Path.components_of_isName hname, origin, Path.isAbsolute_of_isName hname] at hfollow
  exact eq_of_follow_name hname hfollow

theorem eq_of_place_folder (hname : IsName name) (hpath : path.toList = folder ++ '/' :: name)
    (h : t.place path = .ok stop) : ∃ d, t.directory folder = .ok d ∧ stop = d ++ [name] := by
  have hfollow := follow_of_place h
  have horigin : t.origin (folder ++ '/' :: name) = t.origin (folder ++ ['/']) := by
    cases folder <;> rfl
  rw [hpath, Path.components_append_of_isName hname, horigin, follow_append_eq_ok_iff] at hfollow
  obtain ⟨d, hdirectory, hlast⟩ := hfollow
  exact ⟨d, hdirectory, eq_of_follow_name hname hlast⟩

end FileTree

end TableAccess
