import TableAccess.Json.Parser

/-!
# The keys of an object that was read

An entry whose key is there already replaces the value in its place, so however often a text
repeats a key, the object that is read from it has the key once, with the last of its values.  This
holds for the objects inside arrays and objects as well.
-/

namespace TableAccess.Json

/-- Setting a member keeps the keys distinct. -/
theorem nodup_put {members : List (String × Json)} (h : (members.map Prod.fst).Nodup)
    (key : String) (value : Json) : ((put key value members).map Prod.fst).Nodup := by
  rw [keys_put]
  by_cases hkey : key ∈ members.map Prod.fst
  · rw [if_pos hkey]
    exact h
  · rw [if_neg hkey, List.nodup_append]
    refine ⟨h, by simp, ?_⟩
    intro k hk other hother hsame
    rw [List.mem_singleton.mp hother] at hsame
    exact hkey (hsame ▸ hk)

theorem nodup_foldl_put (entries : List (String × Json)) {members : List (String × Json)}
    (h : (members.map Prod.fst).Nodup) :
    ((entries.foldl (fun members entry => put entry.1 entry.2 members) members).map
      Prod.fst).Nodup := by
  induction entries generalizing members with
  | nil => exact h
  | cons entry entries ih => exact ih (nodup_put h entry.1 entry.2)

theorem nodup_ofEntries (entries : List (String × Json)) :
    ((ofEntries entries).map Prod.fst).Nodup := nodup_foldl_put entries List.nodup_nil

/-- The members that are there after setting one are this one and some of the others. -/
theorem mem_put {key : String} {value : Json} {members : List (String × Json)}
    {m : String × Json} (h : m ∈ put key value members) : m = (key, value) ∨ m ∈ members := by
  induction members with
  | nil => exact Or.inl (List.mem_singleton.mp h)
  | cons first members ih =>
    rw [put] at h
    split at h
    case isTrue hkey =>
      rcases List.mem_cons.mp h with hm | hm
      · exact Or.inl (by rw [hm, beq_iff_eq.mp hkey])
      · exact Or.inr (List.mem_cons_of_mem first hm)
    case isFalse =>
      rcases List.mem_cons.mp h with hm | hm
      · exact Or.inr (hm ▸ List.mem_cons_self)
      · exact (ih hm).imp_right (List.mem_cons_of_mem first)

theorem mem_foldl_put {entries members : List (String × Json)} {m : String × Json}
    (h : m ∈ entries.foldl (fun members entry => put entry.1 entry.2 members) members) :
    m ∈ entries ∨ m ∈ members := by
  induction entries generalizing members with
  | nil => exact Or.inr h
  | cons entry entries ih =>
    rcases ih h with hm | hm
    · exact Or.inl (List.mem_cons_of_mem entry hm)
    · rcases mem_put hm with hentry | hold
      · exact Or.inl (hentry ▸ List.mem_cons_self)
      · exact Or.inr hold

theorem mem_of_mem_ofEntries {entries : List (String × Json)} {m : String × Json}
    (h : m ∈ ofEntries entries) : m ∈ entries :=
  (mem_foldl_put h).resolve_right List.not_mem_nil

/-! ### Looking up a key -/

/-- It stands in the place of the first. -/
example : ofEntries [("a", .null), ("b", .null), ("a", .bool true)] =
    [("a", .bool true), ("b", .null)] := rfl

/-- A key that stands once finds its one member. -/
theorem find?_eq_some_iff {key : String} {v : Json} {members : List (String × Json)}
    (h : (members.map Prod.fst).Nodup) :
    find? key members = some v ↔ (key, v) ∈ members := by
  induction members with
  | nil => simp [find?]
  | cons m members ih =>
    obtain ⟨k, w⟩ := m
    obtain ⟨hnew, hrest⟩ := List.nodup_cons.mp h
    rw [find?, List.mem_cons]
    by_cases hk : k = key
    · rw [if_pos (beq_iff_eq.mpr hk), Option.some_inj]
      constructor
      · intro hw
        exact Or.inl (by rw [hk, hw])
      · rintro (hm | hm)
        · exact (Prod.mk.inj hm).2.symm
        · have hkey : key ∈ members.map Prod.fst := List.mem_map_of_mem hm
          exact absurd (hk ▸ hkey) hnew
    · rw [if_neg (fun hsame => hk (beq_iff_eq.mp hsame)), ih hrest]
      constructor
      · exact Or.inr
      · rintro (hm | hm)
        · exact absurd (Prod.mk.inj hm).1.symm hk
        · exact hm

theorem find?_eq_none_iff {key : String} {members : List (String × Json)} :
    find? key members = none ↔ key ∉ members.map Prod.fst := by
  induction members with
  | nil => simp [find?]
  | cons m members ih =>
    obtain ⟨k, w⟩ := m
    rw [find?, List.map_cons, List.mem_cons, not_or]
    by_cases hk : k = key
    · simp [hk]
    · rw [if_neg (fun hsame => hk (beq_iff_eq.mp hsame)), ih]
      exact ⟨fun hr => ⟨fun hsame => hk hsame.symm, hr⟩, fun hr => hr.2⟩

/-- Leaving out members with other keys does not change what a key finds. -/
theorem find?_filter {p : String × Json → Bool} {key : String} (hp : ∀ v, p (key, v) = true)
    (members : List (String × Json)) :
    find? key (members.filter p) = find? key members := by
  induction members with
  | nil => rfl
  | cons m members ih =>
    obtain ⟨k, v⟩ := m
    by_cases hk : k = key
    · rw [List.filter_cons_of_pos (by rw [hk]; exact hp v), find?, find?,
        if_pos (beq_iff_eq.mpr hk), if_pos (beq_iff_eq.mpr hk)]
    · have hother : ¬ (k == key) = true := fun hsame => hk (beq_iff_eq.mp hsame)
      rw [find?, if_neg hother, ← ih, List.filter_cons]
      split
      case isTrue => rw [find?, if_neg hother]
      case isFalse => rfl

/-! ### Values with distinct keys -/

/-- No object in the value, at any depth, has a key twice. -/
inductive DistinctKeys : Json → Prop where
  | null : DistinctKeys .null
  | bool (b : Bool) : DistinctKeys (.bool b)
  | number (n : JsonNumber) : DistinctKeys (.number n)
  | string (s : String) : DistinctKeys (.string s)
  | array {items : List Json} (h : ∀ v ∈ items, DistinctKeys v) : DistinctKeys (.array items)
  | object {members : List (String × Json)} (hkeys : (members.map Prod.fst).Nodup)
      (h : ∀ m ∈ members, DistinctKeys m.2) : DistinctKeys (.object members)

theorem DistinctKeys.nodup {members : List (String × Json)} (h : DistinctKeys (.object members)) :
    (members.map Prod.fst).Nodup := by
  cases h with
  | object hkeys _ => exact hkeys

theorem DistinctKeys.of_mem {members : List (String × Json)} (h : DistinctKeys (.object members))
    {m : String × Json} (hm : m ∈ members) : DistinctKeys m.2 := by
  cases h with
  | object _ hmembers => exact hmembers m hm

section Readers

variable {α : Type} {item : List Char → Option (α × List Char)} {close : Char} {P : α → Prop}

/-- What the reader of the items makes sure of each item is sure of all items of a sequence. -/
theorem forall_of_readMore (hitem : ∀ s a r, item s = some (a, r) → P a) {fuel : Nat}
    {s rest : List Char} {as : List α} (h : readMore item close fuel s = some (as, rest)) :
    ∀ a ∈ as, P a := by
  induction fuel generalizing s as with
  | zero => cases h
  | succ fuel ih =>
    rw [readMore] at h
    split at h
    case h_1 => cases h
    case h_2 a r hfirst =>
      split at h
      case h_1 => cases h
      case h_2 c r' _ =>
        split at h
        case isTrue =>
          cases h
          rw [List.forall_mem_singleton]
          exact hitem s a r hfirst
        case isFalse =>
          split at h
          case isFalse => cases h
          case isTrue =>
            obtain ⟨⟨others, r''⟩, hothers, hsame⟩ := Option.map_eq_some_iff.mp h
            cases hsame
            rw [List.forall_mem_cons]
            exact ⟨hitem s a r hfirst, ih hothers⟩

theorem forall_of_readSequence (hitem : ∀ s a r, item s = some (a, r) → P a)
    {s rest : List Char} {as : List α} (h : readSequence item close s = some (as, rest)) :
    ∀ a ∈ as, P a := by
  rw [readSequence] at h
  split at h
  case h_1 => cases h
  case h_2 =>
    split at h
    case isTrue =>
      cases h
      intro a ha
      cases ha
    case isFalse => exact forall_of_readMore hitem h

end Readers

theorem distinctKeys_of_readScalar {mode : Mode} {s rest : List Char} {json : Json}
    (h : readScalar mode s = some (json, rest)) : json.DistinctKeys := by
  unfold readScalar at h
  split at h
  all_goals
    obtain ⟨found, -, hfound⟩ := Option.map_eq_some_iff.mp h
    cases hfound
    constructor

/-- The keys of every object in a value that was read are distinct, whatever the text repeats. -/
theorem distinctKeys_of_readValue {mode : Mode} {depth : Nat} {s rest : List Char} {json : Json}
    (h : readValue mode depth s = some (json, rest)) : json.DistinctKeys := by
  induction depth generalizing s rest json with
  | zero =>
    rw [readValue] at h
    split at h
    case h_1 => cases h
    case h_2 => cases h
    case h_3 => exact distinctKeys_of_readScalar h
  | succ depth ih =>
    have hvalue : ∀ s v r, readValue mode depth s = some (v, r) → v.DistinctKeys :=
      fun s v r hv => ih hv
    rw [readValue] at h
    split at h
    case h_1 =>
      obtain ⟨⟨items, r⟩, hitems, hsame⟩ := Option.map_eq_some_iff.mp h
      cases hsame
      exact .array (forall_of_readSequence hvalue hitems)
    case h_2 =>
      obtain ⟨⟨entries, r⟩, hentries, hsame⟩ := Option.map_eq_some_iff.mp h
      cases hsame
      have hmember : ∀ s (m : String × Json) r,
          readMember mode (readValue mode depth) s = some (m, r) → m.2.DistinctKeys := by
        intro s m r hm
        obtain ⟨⟨key, r₁⟩, -, hrest⟩ := Option.bind_eq_some_iff.mp hm
        obtain ⟨⟨v, r₂⟩, hv, hpair⟩ := Option.bind_eq_some_iff.mp hrest
        cases hpair
        exact ih hv
      have hall := forall_of_readSequence hmember hentries
      exact .object (nodup_ofEntries entries) fun m hm => hall m (mem_of_mem_ofEntries hm)
    case h_3 => exact distinctKeys_of_readScalar h

theorem distinctKeys_of_ofBytes? {bytes : List UInt8} {json : Json}
    (h : ofBytes? bytes = some json) : json.DistinctKeys := by
  obtain ⟨s, -, hs⟩ := Option.bind_eq_some_iff.mp h
  unfold parse? atEnd? at hs
  split at hs
  case h_1 v r hread =>
    split at hs
    case isTrue =>
      cases hs
      exact distinctKeys_of_readValue hread
    case isFalse => cases hs
  case h_2 => cases hs

end TableAccess.Json
