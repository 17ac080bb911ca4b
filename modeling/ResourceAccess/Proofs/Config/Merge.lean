import ResourceAccess.Setting

/-!
# What a merge gives at the end of a path of keys

Merging looks at one key at a time, and so it does along a path of keys, as long as the way leads through tables.  What
the upper layer has at the end of the path hides what the lower one has there, and only two tables are merged.

* `Setting.Clear`: the way to the end of a path leads through tables that give each key once
* `Setting.Alike`: up to what stands in a table
* `Setting.findAt_merge`: **a merge gives what the upper layer has, or else what the lower one has**
* `Setting.Apart`: paths of which neither leads through the end of the other
* `Setting.findAt_nested`: a setting at the end of one path is not on the other
-/

namespace ResourceAccess.Setting

variable {key : String} {keys path : List String} {below above s : Setting} {under entries : List (String × Setting)}

def IsTable (s : Setting) : Prop := ∃ entries, s = .table entries

def Distinct (entries : List (String × Setting)) : Prop := entries.Pairwise fun a b => a.1 ≠ b.1

/-- As far as there is something on the way along the keys, it leads through tables that give each key once. -/
def Clear : List String → Setting → Prop
  | [], _ => True
  | key :: keys, s => ∃ entries, s = .table entries ∧ Distinct entries ∧
      ∀ inner, entries.lookup key = some inner → Clear keys inner

/-- The same is there on both sides, or two tables are. -/
def Alike (a b : Option Setting) : Prop := a = b ∨ ∃ x y, a = some (.table x) ∧ b = some (.table y)

namespace Alike

variable {a b c d : Option Setting}

theorem refl (a : Option Setting) : Alike a a := Or.inl rfl

theorem trans (hab : Alike a b) (hbc : Alike b c) : Alike a c := by
  rcases hab with rfl | ⟨x, y, rfl, rfl⟩
  · exact hbc
  · rcases hbc with rfl | ⟨-, z, -, rfl⟩
    · exact Or.inr ⟨x, y, rfl, rfl⟩
    · exact Or.inr ⟨x, z, rfl, rfl⟩

theorem or (hab : Alike a b) (hcd : Alike c d) : Alike (a.or c) (b.or d) := by
  rcases hab with rfl | ⟨x, y, rfl, rfl⟩
  · cases a with
    | none => exact hcd
    | some s => exact refl _
  · exact Or.inr ⟨x, y, rfl, rfl⟩

end Alike

/-! ## Merging -/

theorem findAt_cons : findAt? (key :: keys) s = (s.find? key).bind (findAt? keys) := rfl

theorem findAt_singleton : findAt? [key] s = s.find? key := by
  rw [findAt_cons]
  cases s.find? key <;> rfl

theorem findAt_pair {outer : String} : findAt? [outer, key] s = (s.find? outer).bind (find? key) := by
  rw [findAt_cons]
  exact congrArg _ (funext fun _ => findAt_singleton)

theorem find_merge_table (h : Distinct entries) (key : String) : (merge below (.table entries)).find? key =
    match entries.lookup key, below.find? key with
    | none, lower => lower
    | some upper, none => some upper
    | some upper, some lower => some (merge lower upper) := by
  cases below with
  | table under => exact find_merge key under entries h
  | _ => cases hupper : entries.lookup key <;> simp [merge, find?, hupper]

theorem merge_alike (below above : Setting) : Alike (some (merge below above)) (some above) := by
  cases above with
  | table entries =>
    cases below with
    | table under => exact Or.inr ⟨_, _, rfl, rfl⟩
    | _ => exact Alike.refl _
  | _ => exact Alike.refl _

/-- **A merge gives at the end of a path what the upper layer has there, or else what the lower one has**, up to what
stands in a table. -/
theorem findAt_merge (h : Clear keys above) :
    Alike ((merge below above).findAt? keys) ((above.findAt? keys).or (below.findAt? keys)) := by
  induction keys generalizing below above with
  | nil => exact merge_alike below above
  | cons key keys ih =>
    obtain ⟨entries, rfl, hdistinct, hinner⟩ := h
    have habove : (Setting.table entries).find? key = entries.lookup key := rfl
    simp only [findAt_cons, find_merge_table hdistinct, habove]
    cases hupper : entries.lookup key with
    | none => exact Alike.refl _
    | some upper =>
      cases below.find? key with
      | none => simpa using Alike.refl (findAt? keys upper)
      | some lower => exact ih (hinner upper hupper)

/-- What is a table in both layers, if it is there, is a table in the merge. -/
theorem isTable_find_merge (hclear : Clear [key] above)
    (hbelow : ∀ inner, below.find? key = some inner → inner.IsTable)
    (habove : ∀ inner, above.find? key = some inner → inner.IsTable) {inner : Setting}
    (h : (merge below above).find? key = some inner) : inner.IsTable := by
  obtain ⟨entries, rfl, hdistinct, -⟩ := hclear
  rw [find_merge_table hdistinct] at h
  cases hupper : entries.lookup key with
  | none =>
    rw [hupper] at h
    exact hbelow inner h
  | some upper =>
    obtain ⟨x, rfl⟩ := habove upper hupper
    rw [hupper] at h
    cases hlower : below.find? key with
    | none =>
      rw [hlower] at h
      exact ⟨x, (Option.some.inj h).symm⟩
    | some lower =>
      rw [hlower] at h
      obtain ⟨y, rfl⟩ := hbelow lower hlower
      exact ⟨mergeEntries y x, (Option.some.inj h).symm⟩

/-! ## Merging keeps the way clear -/

theorem mem_alter {change : Option Setting → Setting} {entry : String × Setting} (h : entry ∈ alter key change entries) :
    entry.1 = key ∨ entry.1 ∈ entries.map (·.1) := by
  induction entries with
  | nil => exact Or.inl (congrArg Prod.fst (List.mem_singleton.mp h))
  | cons first rest ih =>
    by_cases hfirst : first.1 = key
    · rw [alter, if_pos hfirst] at h
      rcases List.mem_cons.mp h with rfl | h
      · exact Or.inl hfirst
      · exact Or.inr (List.mem_cons_of_mem _ (List.mem_map_of_mem h))
    · rw [alter, if_neg hfirst] at h
      rcases List.mem_cons.mp h with rfl | h
      · exact Or.inr List.mem_cons_self
      · exact (ih h).imp_right (List.mem_cons_of_mem _)

theorem Distinct.alter {change : Option Setting → Setting} (h : Distinct entries) :
    Distinct (alter key change entries) := by
  induction entries with
  | nil => exact List.pairwise_singleton _ _
  | cons first rest ih =>
    obtain ⟨hfirst, hrest⟩ := List.pairwise_cons.mp h
    by_cases hkey : first.1 = key
    · rw [Setting.alter, if_pos hkey]
      exact List.pairwise_cons.mpr ⟨hfirst, hrest⟩
    · rw [Setting.alter, if_neg hkey]
      refine List.pairwise_cons.mpr ⟨fun entry hentry => ?_, ih hrest⟩
      rcases mem_alter hentry with heq | hmem
      · exact fun hsame => hkey (hsame.trans heq)
      · obtain ⟨old, hold, hname⟩ := List.mem_map.mp hmem
        exact fun hsame => hfirst old hold (hsame.trans hname.symm)

theorem Distinct.mergeEntries (h : Distinct under) (entries : List (String × Setting)) :
    Distinct (mergeEntries under entries) := by
  induction entries generalizing under with
  | nil => exact h
  | cons entry rest ih => exact ih h.alter

theorem Clear.merge (hbelow : Clear keys below) (habove : Clear keys above) : Clear keys (merge below above) := by
  induction keys generalizing below above with
  | nil => trivial
  | cons key keys ih =>
    obtain ⟨under, rfl, hunder, hlower⟩ := hbelow
    obtain ⟨entries, rfl, hdistinct, hupper⟩ := habove
    refine ⟨_, rfl, hunder.mergeEntries entries, fun inner hinner => ?_⟩
    have hfind : (Setting.merge (.table under) (.table entries)).find? key = some inner := hinner
    rw [find_merge_table hdistinct] at hfind
    cases hentry : entries.lookup key with
    | none =>
      rw [hentry] at hfind
      exact hlower inner hfind
    | some upper =>
      cases hunderEntry : under.lookup key with
      | none =>
        simp only [hentry, find?, hunderEntry] at hfind
        exact Option.some.inj hfind ▸ hupper upper hentry
      | some lower =>
        simp only [hentry, find?, hunderEntry] at hfind
        exact Option.some.inj hfind ▸ ih (hlower lower hunderEntry) (hupper upper hentry)

theorem alter_of_absent {change : Option Setting → Setting} (h : ∀ old ∈ entries, old.1 ≠ key) :
    alter key change entries = entries ++ [(key, change none)] := by
  induction entries with
  | nil => rfl
  | cons old rest ih =>
    obtain ⟨hold, hrest⟩ := List.forall_mem_cons.mp h
    rw [alter, if_neg hold, ih hrest]
    rfl

/-- Merged onto nothing, a table that gives each key once stays as it is. -/
theorem mergeEntries_append (h : Distinct (under ++ entries)) : mergeEntries under entries = under ++ entries := by
  induction entries generalizing under with
  | nil => simp [mergeEntries]
  | cons entry rest ih =>
    have hnew : ∀ old ∈ under, old.1 ≠ entry.1 := fun old hold =>
      (List.pairwise_append.mp h).2.2 old hold entry List.mem_cons_self
    rw [mergeEntries, alter_of_absent hnew, ih (by simpa using h), List.append_assoc]
    rfl

theorem merge_nil (h : Distinct entries) : merge (.table []) (.table entries) = .table entries :=
  congrArg Setting.table (mergeEntries_append h)

/-! ## One setting at the end of a path -/

/-- Neither path leads through the end of the other. -/
structure Apart (path keys : List String) : Prop where
  eq_of_le : path <+: keys → path = keys
  eq_of_ge : keys <+: path → path = keys

theorem Apart.tail (h : Apart (key :: path) (key :: keys)) : Apart path keys where
  eq_of_le hle := List.tail_eq_of_cons_eq (h.eq_of_le ((List.prefix_cons_inj key).mpr hle))
  eq_of_ge hge := List.tail_eq_of_cons_eq (h.eq_of_ge ((List.prefix_cons_inj key).mpr hge))

/-- At the end of its path a setting is found, and on other paths nothing is, and the way is clear. -/
theorem findAt_nested (h : Apart path keys) : Clear keys (nested path s) ∧
    (nested path s).findAt? keys = if path = keys then some s else none := by
  induction path generalizing keys with
  | nil =>
    obtain rfl := h.eq_of_le List.nil_prefix
    exact ⟨trivial, rfl⟩
  | cons key path ih =>
    cases keys with
    | nil => exact absurd (h.eq_of_ge List.nil_prefix) (by simp)
    | cons other keys =>
      have hnested : nested (key :: path) s = .table [(key, nested path s)] := rfl
      by_cases hkey : other = key
      · subst hkey
        obtain ⟨hclear, hfind⟩ := ih h.tail
        have hlookup : [(other, nested path s)].lookup other = some (nested path s) := by simp
        refine ⟨⟨_, hnested, List.pairwise_singleton _ _, fun inner hinner => ?_⟩, ?_⟩
        · rw [hlookup] at hinner
          exact Option.some.inj hinner ▸ hclear
        · rw [findAt_cons, hnested, find?, hlookup, Option.bind_some, hfind]
          simp
      · have hlookup : [(key, nested path s)].lookup other = none := by simpa using hkey
        refine ⟨⟨_, hnested, List.pairwise_singleton _ _, fun inner hinner => ?_⟩, ?_⟩
        · rw [hlookup] at hinner
          exact absurd hinner (by simp)
        · rw [findAt_cons, hnested, find?, hlookup, if_neg fun heq => hkey (List.cons.inj heq).1.symm]
          rfl

end ResourceAccess.Setting
