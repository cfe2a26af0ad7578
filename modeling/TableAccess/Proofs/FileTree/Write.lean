import TableAccess.FileTree

/-!
# What writing a file changes

A file is written to one place, where there was a file or nothing.  Nothing is added or taken away
anywhere else, and since the place is no directory before or after, every path leads where it led
before.  So the path that was written reads what was written, and every path to another place
reads what it read before.
-/

namespace TableAccess.FileTree

variable {t before after : FileTree} {place other stop : Place} {node : Node} {path : String}
  {content : Content}

/-! ### Nodes -/

theorem lookup_setNode (place other : Place) (node : Node) (nodes : List (Place × Node)) :
    (setNode place node nodes).lookup other =
      if other = place then some node else nodes.lookup other := by
  induction nodes with
  | nil =>
    by_cases h : other = place
    · simp [setNode, h]
    · have hmiss : (other == place) = false := beq_eq_false_iff_ne.mpr h
      simp [setNode, h, List.lookup_cons, hmiss]
  | cons entry nodes ih =>
    obtain ⟨p, n⟩ := entry
    by_cases hp : p = place
    · by_cases h : other = place
      · simp [setNode, hp, h]
      · have hmiss : (other == place) = false := beq_eq_false_iff_ne.mpr h
        simp [setNode, hp, h, List.lookup_cons, hmiss]
    · by_cases h : other = p
      · simp [setNode, hp, h]
      · have hmiss : (other == p) = false := beq_eq_false_iff_ne.mpr h
        simp only [setNode, hp, if_false, List.lookup_cons, hmiss, ih]

theorem node?_nil (t : FileTree) : t.node? [] = some .directory := rfl

theorem node?_set_self (h : place ≠ []) : (t.set place node).node? place = some node := by
  rw [node?, if_neg (fun hnil => h (List.isEmpty_iff.mp hnil)), set, lookup_setNode, if_pos rfl]

theorem node?_set_of_ne (h : other ≠ place) : (t.set place node).node? other = t.node? other := by
  rw [node?, node?, set, lookup_setNode, if_neg h]

/-- A place that is no directory is not the root. -/
theorem ne_nil_of_not_directory (h : t.node? place ≠ some .directory) : place ≠ [] := by
  intro hnil
  rw [hnil] at h
  exact h t.node?_nil

/-- A file in the place of a file or of nothing leaves the directories as they are. -/
theorem node?_set_eq_directory_iff (h : t.node? place ≠ some .directory) :
    (t.set place (.file content)).node? other = some .directory ↔
      t.node? other = some .directory := by
  by_cases hother : other = place
  · rw [hother, node?_set_self (ne_nil_of_not_directory h)]
    exact iff_of_false nofun h
  · rw [node?_set_of_ne hother]

/-! ### Paths -/

/-- Names can be followed as long as they lead through directories. -/
theorem follow_cons_eq_ok_iff {start : Place} {name : List Char} {names : List (List Char)} :
    t.follow start (name :: names) = .ok stop ↔
      t.node? start = some .directory ∧
        if name = ['.', '.'] then t.follow start.dropLast names = .ok stop
        else Text.byteLength name ≤ maxName ∧ t.follow (start ++ [name]) names = .ok stop := by
  rw [follow]
  cases hnode : t.node? start with
  | none => simp
  | some node =>
    cases node with
    | file content => simp
    | directory =>
      by_cases hup : name = ['.', '.']
      · simp [hup]
      · by_cases hlong : maxName < Text.byteLength name
        · simp [hup, hlong, Nat.not_le.mpr hlong]
        · simp [hup, hlong, Nat.not_lt.mp hlong]

theorem follow_set_eq_ok_iff (h : t.node? place ≠ some .directory) {start : Place}
    {names : List (List Char)} :
    (t.set place (.file content)).follow start names = .ok stop ↔
      t.follow start names = .ok stop := by
  -- both follow the same names: what is followed is a directory, and those are the same in both
  induction names generalizing start with
  | nil => rfl
  | cons name names ih =>
    rw [follow_cons_eq_ok_iff, follow_cons_eq_ok_iff, node?_set_eq_directory_iff h, ih, ih]

/-- A path leads to the same place after a file was written. -/
theorem place_set_eq_ok_iff (h : t.node? place ≠ some .directory) :
    (t.set place (.file content)).place path = .ok stop ↔ t.place path = .ok stop := by
  unfold FileTree.place
  simp only
  split
  · exact Iff.rfl
  · split
    · exact Iff.rfl
    · split
      · exact Iff.rfl
      · exact follow_set_eq_ok_iff h

/-- A path reads the file at its place, unless it asks for a directory. -/
theorem read_eq_ok_iff :
    t.read path = .ok content ↔
      ∃ place, t.place path = .ok place ∧ t.node? place = some (.file content) ∧
        wantsDirectory path.toList = false := by
  rw [read, find]
  cases t.place path with
  | error e => simp
  | ok place =>
    cases hnode : t.node? place with
    | none => simp [hnode]
    | some node =>
      cases node with
      | directory => simp [hnode]
      | file found =>
        cases hwants : wantsDirectory path.toList with
        | true => simp [hnode]
        | false => simp [hnode]

theorem wantsDirectory_eq_false {s : List Char} (hslash : ¬ endsInSlash s = true)
    (hpoint : ¬ endsInPoint s = true) : wantsDirectory s = false := by
  rw [wantsDirectory, Bool.or_eq_false_iff]
  exact ⟨Bool.of_not_eq_true hslash, Bool.of_not_eq_true hpoint⟩

/-- The place that can be written is the one the path leads to, and no directory. -/
theorem place_of_target (h : t.target path = .ok place) :
    t.place path = .ok place ∧ t.node? place ≠ some .directory ∧
      wantsDirectory path.toList = false := by
  rw [target] at h
  cases hplace : t.place path with
  | error e =>
    rw [hplace] at h
    cases h
  | ok found =>
    rw [hplace] at h
    simp only at h
    split at h
    case h_1 => cases h
    case h_2 content hnode =>
      split at h
      case isTrue => cases h
      case isFalse hpoint =>
        split at h
        case isTrue => cases h
        case isFalse hslash =>
          cases h
          refine ⟨rfl, ?_, wantsDirectory_eq_false hslash hpoint⟩
          rw [hnode]
          exact nofun
    case h_3 hnode =>
      split at h
      case h_2 => cases h
      case h_3 => cases h
      case h_1 =>
        split at h
        case isTrue => cases h
        case isFalse hpoint =>
          split at h
          case isTrue => cases h
          case isFalse hslash =>
            cases h
            refine ⟨rfl, ?_, wantsDirectory_eq_false hslash hpoint⟩
            rw [hnode]
            exact nofun

/-! ### Writing -/

/-- All that happened between two trees is that a content was written to a path, at a place. -/
structure Wrote (before after : FileTree) (path : String) (place : Place) (content : Content) :
    Prop where
  reads : after.read path = .ok content
  node : after.node? place = some (.file content)
  /-- There is the same as before at every other place. -/
  others : ∀ p, p ≠ place → after.node? p = before.node? p
  workingDirectory : after.workingDirectory = before.workingDirectory
  /-- Paths lead where they led before. -/
  places : ∀ path p, after.place path = .ok p ↔ before.place path = .ok p
  /-- Paths to other places read what they read before. -/
  unchanged : ∀ path found, before.place path ≠ .ok place →
    (after.read path = .ok found ↔ before.read path = .ok found)

theorem wrote_set (h : t.target path = .ok place) (content : Content) :
    t.Wrote (t.set place (.file content)) path place content := by
  obtain ⟨hplace, hnode, hwants⟩ := place_of_target h
  have hself : (t.set place (.file content)).node? place = some (.file content) :=
    node?_set_self (ne_nil_of_not_directory hnode)
  have hplaces : ∀ path p, (t.set place (.file content)).place path = .ok p ↔
      t.place path = .ok p := fun _ _ => place_set_eq_ok_iff hnode
  constructor
  case reads => exact read_eq_ok_iff.mpr ⟨place, (hplaces path place).mpr hplace, hself, hwants⟩
  case node => exact hself
  case others =>
    intro p hp
    exact node?_set_of_ne hp
  case workingDirectory => rfl
  case places => exact hplaces
  case unchanged =>
    intro elsewhere found hother
    rw [read_eq_ok_iff, read_eq_ok_iff]
    apply exists_congr
    intro p
    rw [hplaces elsewhere p]
    apply and_congr_right
    intro hp
    have hne : p ≠ place := by
      intro hsame
      rw [hsame] at hp
      exact hother hp
    rw [node?_set_of_ne hne]

/-- A path can be written exactly if there is a place for it, and then nothing else changes. -/
theorem write_eq_ok_iff :
    before.write path content = .ok after ↔
      ∃ place, before.target path = .ok place ∧ after = before.set place (.file content) := by
  rw [write]
  cases before.target path with
  | error e => simp
  | ok place => simp [eq_comm]

end TableAccess.FileTree
