import TableAccess.Proofs.FileTree.Place
import TableAccess.Proofs.Text.Blank

/-!
# The extension of a path

A path ends in the name behind its last slash, where slashes at its end, with or without a single
point behind them, do not count.  The extension is what follows the last point of that name, if
anything stands in front of the point.  Points in the names of directories mean nothing.
-/

namespace TableAccess.Path

variable {path name stem extension s : List Char}

/-! ### The name at the end -/

/-- The path ends in the name, which is neither empty nor a single point. -/
inductive EndsIn : List Char → List Char → Prop
  | alone {name : List Char} (hslash : '/' ∉ name) (hempty : name ≠ []) (hpoint : name ≠ ['.']) :
      EndsIn name name
  | within (folder : List Char) {name : List Char} (hslash : '/' ∉ name) (hempty : name ≠ [])
      (hpoint : name ≠ ['.']) : EndsIn (folder ++ '/' :: name) name
  | slash {path name : List Char} (h : EndsIn path name) : EndsIn (path ++ ['/']) name
  | point {path name : List Char} (h : EndsIn path name) : EndsIn (path ++ ['/', '.']) name

theorem components_of_name (hslash : '/' ∉ s) (hempty : s ≠ []) (hpoint : s ≠ ['.']) :
    components s = [s] := by
  have hvoid : isVoid s = false := by simp [isVoid, hempty, hpoint]
  exact components_of_not_void hslash hvoid

theorem components_nil : components [] = [] := rfl

theorem components_point : components ['.'] = [] := rfl

theorem EndsIn.getLast?_components (h : EndsIn path name) :
    (components path).getLast? = some name := by
  induction h with
  | alone hslash hempty hpoint =>
    rw [components_of_name hslash hempty hpoint]
    rfl
  | within folder hslash hempty hpoint =>
    rw [components_append_slash, components_of_name hslash hempty hpoint, List.getLast?_concat]
  | slash h ih =>
    rw [components_append_slash, components_nil, List.append_nil, ih]
  | point h ih =>
    rw [components_append_slash, components_point, List.append_nil, ih]

/-- What stands behind the last slash is the name, or else the path is cut at that slash. -/
theorem endsIn_of_getLast?_components (h : (components path).getLast? = some name) :
    EndsIn path name := by
  induction hlength : path.length using Nat.strongRecOn generalizing path with
  | ind n ih =>
    by_cases hslash : '/' ∈ path
    · obtain ⟨folder, leaf, rfl, hleaf⟩ := exists_last_of_mem hslash
      have hshorter : folder.length < n := by
        rw [← hlength, List.length_append, List.length_cons]
        omega
      rw [components_append_slash] at h
      by_cases hempty : leaf = []
      · subst hempty
        exact .slash (ih _ hshorter (by rwa [components_nil, List.append_nil] at h) rfl)
      · by_cases hpoint : leaf = ['.']
        · subst hpoint
          exact .point (ih _ hshorter (by rwa [components_point, List.append_nil] at h) rfl)
        · rw [components_of_name hleaf hempty hpoint, List.getLast?_concat] at h
          cases h
          exact .within folder hleaf hempty hpoint
    · by_cases hempty : path = []
      · subst hempty
        cases h
      · by_cases hpoint : path = ['.']
        · subst hpoint
          cases h
        · rw [components_of_name hslash hempty hpoint] at h
          cases h
          exact .alone hslash hempty hpoint

theorem getLast?_components_iff : (components path).getLast? = some name ↔ EndsIn path name :=
  ⟨endsIn_of_getLast?_components, EndsIn.getLast?_components⟩

/-- No path ends in two names. -/
theorem EndsIn.unique {other : List Char} (h : EndsIn path name) (hother : EndsIn path other) :
    name = other :=
  Option.some.inj (h.getLast?_components.symm.trans hother.getLast?_components)

theorem fileName?_eq_some_iff :
    fileName? path = some name ↔ EndsIn path name ∧ name ≠ ['.', '.'] := by
  rw [fileName?, ← getLast?_components_iff]
  cases (components path).getLast? with
  | none => simp
  | some last =>
    simp only [beq_iff_eq, Option.some.injEq]
    split
    case isTrue hup =>
      refine iff_of_false ?_ (fun h => h.2 (h.1.symm.trans hup))
      intro hnone
      cases hnone
    case isFalse hup =>
      rw [Option.some.injEq]
      exact ⟨fun h => ⟨h, h ▸ hup⟩, fun h => h.1⟩

/-! ### The part behind the last point -/

theorem ne_point_of_mem_reverse (hpoint : '.' ∉ s) : ∀ c ∈ s.reverse, (c != '.') = true := by
  intro c hc
  rw [bne_iff_ne]
  rintro rfl
  exact hpoint (List.mem_reverse.mp hc)

/-- The characters behind the last point. -/
theorem reverse_takeWhile_append (hpoint : '.' ∉ extension) :
    ((stem ++ '.' :: extension).reverse.takeWhile (· != '.')).reverse = extension := by
  have hstop : Text.FrontSharp (· != '.') ('.' :: stem.reverse) := by
    rintro c ⟨⟩
    rfl
  have hsplit : (stem ++ '.' :: extension).reverse = extension.reverse ++ '.' :: stem.reverse := by
    simp
  rw [hsplit, Text.takeWhile_append_of_frontSharp (ne_point_of_mem_reverse hpoint) hstop,
    List.reverse_reverse]

/-- A name is split at its last point, if anything stands in front of that. -/
theorem splitExtension_append (hpoint : '.' ∉ extension) :
    splitExtension (stem ++ '.' :: extension) =
      if stem = [] then ('.' :: extension, none) else (stem, some extension) := by
  have hlength : (stem ++ '.' :: extension).length = stem.length + extension.length + 1 := by
    simp [Nat.add_assoc]
  have hshorter : extension.length ≠ stem.length + extension.length + 1 := by omega
  have hbefore : stem.length + extension.length + 1 - extension.length - 1 = stem.length := by omega
  rw [splitExtension]
  simp only [reverse_takeWhile_append hpoint, hlength, hbefore, List.take_left, hshorter,
    List.isEmpty_iff, decide_false, Bool.false_or]
  by_cases hstem : stem = []
  · simp [hstem]
  · simp [hstem]

theorem splitExtension_of_not_mem (hpoint : '.' ∉ name) : splitExtension name = (name, none) := by
  have hafter : (name.reverse ++ []).takeWhile (· != '.') = name.reverse :=
    Text.takeWhile_append_of_frontSharp (ne_point_of_mem_reverse hpoint) (by rintro c ⟨⟩)
  rw [List.append_nil] at hafter
  rw [splitExtension]
  simp [hafter]

theorem snd_splitExtension_eq_some_iff :
    (splitExtension name).2 = some extension ↔
      ∃ stem, stem ≠ [] ∧ '.' ∉ extension ∧ name = stem ++ '.' :: extension := by
  constructor
  · intro h
    by_cases hpoint : '.' ∈ name
    · obtain ⟨stem, back, rfl, hback⟩ := exists_last_of_mem hpoint
      rw [splitExtension_append hback] at h
      by_cases hstem : stem = []
      · simp [hstem] at h
      · simp only [hstem, if_false, Option.some.injEq] at h
        subst h
        exact ⟨stem, hstem, hback, rfl⟩
    · rw [splitExtension_of_not_mem hpoint] at h
      cases h
  · rintro ⟨stem, hstem, hpoint, rfl⟩
    rw [splitExtension_append hpoint, if_neg hstem]

/-! ### The extension -/

/-- Behind the last point of the name at the end of the path stands the extension, and something
stands in front of that point. -/
def HasExtension (path extension : List Char) : Prop :=
  ∃ stem, EndsIn path (stem ++ '.' :: extension) ∧ stem ≠ [] ∧ '.' ∉ extension

/-- The two points that lead upwards have an empty extension. -/
theorem HasExtension.not_endsIn_up (h : HasExtension path extension) (hextension : extension ≠ []) :
    ¬ EndsIn path ['.', '.'] := by
  obtain ⟨stem, hends, hstem, -⟩ := h
  intro hup
  have hlength := congrArg List.length (hends.unique hup)
  have hfront := List.length_pos_iff.mpr hstem
  have hback := List.length_pos_iff.mpr hextension
  simp only [List.length_append, List.length_cons, List.length_nil] at hlength
  omega

/-- A path has the extension that is found, but for the two points that lead upwards, of which the
first one would stand in front of the last. -/
theorem extension?_eq_some_iff {path extension : String} :
    extension? path = some extension ↔
      HasExtension path.toList extension.toList ∧ ¬ EndsIn path.toList ['.', '.'] := by
  rw [extension?, Option.map_eq_some_iff]
  constructor
  · rintro ⟨found, hfound, rfl⟩
    obtain ⟨name, hname, hsplit⟩ := Option.bind_eq_some_iff.mp hfound
    obtain ⟨hends, hup⟩ := fileName?_eq_some_iff.mp hname
    obtain ⟨stem, hstem, hpoint, rfl⟩ := snd_splitExtension_eq_some_iff.mp hsplit
    rw [String.toList_ofList]
    exact ⟨⟨stem, hends, hstem, hpoint⟩, fun hparent => hup (hends.unique hparent)⟩
  · rintro ⟨⟨stem, hends, hstem, hpoint⟩, hparent⟩
    have hup : stem ++ '.' :: extension.toList ≠ ['.', '.'] := by
      intro hname
      rw [hname] at hends
      exact hparent hends
    refine ⟨extension.toList, Option.bind_eq_some_iff.mpr ?_, String.ofList_toList⟩
    exact ⟨_, fileName?_eq_some_iff.mpr ⟨hends, hup⟩,
      snd_splitExtension_eq_some_iff.mpr ⟨stem, hstem, hpoint, rfl⟩⟩

theorem extension?_eq_none_iff {path : String} :
    extension? path = none ↔
      ∀ extension, HasExtension path.toList extension → EndsIn path.toList ['.', '.'] := by
  rw [Option.eq_none_iff_forall_ne_some]
  constructor
  · intro hnone extension hextension
    by_cases hup : EndsIn path.toList ['.', '.']
    · exact hup
    · rw [← String.toList_ofList (l := extension)] at hextension
      exact absurd (extension?_eq_some_iff.mpr ⟨hextension, hup⟩) (hnone _)
  · intro hall extension hfound
    obtain ⟨hextension, hup⟩ := extension?_eq_some_iff.mp hfound
    exact hup (hall _ hextension)

end TableAccess.Path
