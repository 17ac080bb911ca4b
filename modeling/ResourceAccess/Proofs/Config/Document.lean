import ResourceAccess.Config.Document

/-!
# What a document means

A table inside a document may stand for a value or name a source, by two keys of its own.  A document in which no table
names a source has a meaning, and one without these keys means what it says.

* `Document.meaning_eq_none_iff`: what has no meaning names a source
* `Document.meaning_of_plain`: what is plain means itself
* `Document.meaning_of_value`: what stands for a value means what the value means
* `Document.settings_eq_none_iff`: **the documents that are refused**
* `Document.settings_of_no_source`, `Document.settings_of_plain`: **the others are read key by key, and as they are if
  they are plain**
-/

namespace ResourceAccess.Document

mutual

/-- A table names its source, here or further inside. -/
def namesSource : Setting → Bool
  | .table entries => (entries.lookup sourceKey).isSome || anyNamesSource entries
  | .sequence items => anyItemNamesSource items
  | _ => false

def anyNamesSource : List (String × Setting) → Bool
  | [] => false
  | (_, s) :: rest => namesSource s || anyNamesSource rest

def anyItemNamesSource : List Setting → Bool
  | [] => false
  | s :: rest => namesSource s || anyItemNamesSource rest

end

mutual

/-- No table, here or further inside, names a source or holds the value that it stands for. -/
def isPlain : Setting → Bool
  | .table entries => (entries.lookup sourceKey).isNone && (entries.lookup valueKey).isNone && arePlain entries
  | .sequence items => areItemsPlain items
  | _ => true

def arePlain : List (String × Setting) → Bool
  | [] => true
  | (_, s) :: rest => isPlain s && arePlain rest

def areItemsPlain : List Setting → Bool
  | [] => true
  | s :: rest => isPlain s && areItemsPlain rest

end

variable {entries found : List (String × Setting)} {text : String}

theorem exists_meaning (h : meanings? entries = some found) {key : String} {s : Setting}
    (hlookup : entries.lookup key = some s) : ∃ meant, meaning? s = some meant := by
  induction entries generalizing found with
  | nil => exact absurd hlookup (by simp)
  | cons entry rest ih =>
    obtain ⟨k, first⟩ := entry
    simp only [meanings?] at h
    split at h
    · rename_i t others hfirst hrest
      by_cases hk : key = k
      · subst hk
        simp only [List.lookup_cons_self, Option.some.injEq] at hlookup
        exact ⟨t, hlookup ▸ hfirst⟩
      · have hb : (key == k) = false := by simpa using hk
        rw [List.lookup_cons, hb] at hlookup
        exact ih hrest hlookup
    · exact absurd h (by simp)

theorem lookup_isSome_of_meanings (h : meanings? entries = some found) (key : String) :
    (found.lookup key).isSome = (entries.lookup key).isSome := by
  rw [lookup_meanings h]
  cases hlookup : entries.lookup key with
  | none => rfl
  | some s =>
    obtain ⟨meant, hmeant⟩ := exists_meaning h hlookup
    rw [Option.bind_some, hmeant]
    rfl

mutual

/-- **What has no meaning names a source**, and what names a source has no meaning. -/
theorem meaning_eq_none_iff (s : Setting) : meaning? s = none ↔ namesSource s = true := by
  cases s with
  | table entries =>
    rw [meaning?, namesSource, Bool.or_eq_true, ← meanings_eq_none_iff entries]
    cases h : meanings? entries with
    | none => simp
    | some found => simp [settled?, lookup_isSome_of_meanings h]
  | sequence items =>
    rw [meaning?, namesSource, ← itemMeanings_eq_none_iff items]
    simp
  | _ => simp [meaning?, namesSource]

theorem meanings_eq_none_iff (entries : List (String × Setting)) :
    meanings? entries = none ↔ anyNamesSource entries = true := by
  cases entries with
  | nil => simp [meanings?, anyNamesSource]
  | cons entry rest =>
    obtain ⟨key, s⟩ := entry
    rw [anyNamesSource, Bool.or_eq_true, ← meaning_eq_none_iff s, ← meanings_eq_none_iff rest, meanings?]
    cases meaning? s <;> cases meanings? rest <;> simp

theorem itemMeanings_eq_none_iff (items : List Setting) :
    itemMeanings? items = none ↔ anyItemNamesSource items = true := by
  cases items with
  | nil => simp [itemMeanings?, anyItemNamesSource]
  | cons s rest =>
    rw [anyItemNamesSource, Bool.or_eq_true, ← meaning_eq_none_iff s, ← itemMeanings_eq_none_iff rest, itemMeanings?]
    cases meaning? s <;> cases itemMeanings? rest <;> simp

end

mutual

theorem meaning_of_plain (s : Setting) (h : isPlain s = true) : meaning? s = some s := by
  cases s with
  | table entries =>
    simp only [isPlain, Bool.and_eq_true, Option.isNone_iff_eq_none] at h
    obtain ⟨⟨hsource, hvalue⟩, hentries⟩ := h
    rw [meaning?, meanings_of_plain entries hentries, Option.bind_some, settled?, hsource, hvalue]
    rfl
  | sequence items =>
    rw [meaning?, itemMeanings_of_plain items h]
    rfl
  | _ => rfl

theorem meanings_of_plain (entries : List (String × Setting)) (h : arePlain entries = true) :
    meanings? entries = some entries := by
  cases entries with
  | nil => rfl
  | cons entry rest =>
    obtain ⟨key, s⟩ := entry
    simp only [arePlain, Bool.and_eq_true] at h
    rw [meanings?, meaning_of_plain s h.1, meanings_of_plain rest h.2]

theorem itemMeanings_of_plain (items : List Setting) (h : areItemsPlain items = true) :
    itemMeanings? items = some items := by
  cases items with
  | nil => rfl
  | cons s rest =>
    simp only [areItemsPlain, Bool.and_eq_true] at h
    rw [itemMeanings?, meaning_of_plain s h.1, itemMeanings_of_plain rest h.2]

end

/-- A table that holds the value that it stands for, and names no source, means what that value means. -/
theorem meaning_of_value {value : Setting} (hvalue : entries.lookup valueKey = some value)
    (hsource : namesSource (.table entries) = false) : meaning? (.table entries) = meaning? value := by
  rw [namesSource, Bool.or_eq_false_iff, ← Bool.not_eq_true (anyNamesSource entries), ← meanings_eq_none_iff] at hsource
  obtain ⟨found, hfound⟩ := Option.ne_none_iff_exists'.mp hsource.2
  obtain ⟨meant, hmeant⟩ := exists_meaning hfound hvalue
  have hlookup : found.lookup valueKey = some meant := by rw [lookup_meanings hfound, hvalue, Option.bind_some, hmeant]
  rw [meaning?, hfound, Option.bind_some, settled?, lookup_isSome_of_meanings hfound, hsource.1, hlookup, hmeant]
  rfl

/-- Any other table that names no source is read key by key. -/
theorem meaning_of_table (hvalue : entries.lookup valueKey = none) (hsource : namesSource (.table entries) = false) :
    ∃ found, meaning? (.table entries) = some (.table found) ∧
      ∀ key, found.lookup key = (entries.lookup key).bind meaning? := by
  rw [namesSource, Bool.or_eq_false_iff, ← Bool.not_eq_true (anyNamesSource entries), ← meanings_eq_none_iff] at hsource
  obtain ⟨found, hfound⟩ := Option.ne_none_iff_exists'.mp hsource.2
  refine ⟨found, ?_, lookup_meanings hfound⟩
  rw [meaning?, hfound, Option.bind_some, settled?, lookup_isSome_of_meanings hfound, hsource.1, lookup_meanings hfound,
    hvalue]
  rfl

theorem parse_eq_some {text : String} {s : Setting} (h : Toml.parse text = some s) : ∃ entries, s = .table entries := by
  simp only [Toml.parse] at h
  split at h
  · exact absurd h (by simp)
  · obtain ⟨draft, -, rfl⟩ := Option.map_eq_some_iff.mp h
    exact ⟨_, rfl⟩

theorem settings_eq_some {text : String} {s : Setting} (h : settings? text = some s) :
    ∃ entries, s = .table entries := by
  unfold settings? at h
  split at h
  · obtain ⟨found, -, rfl⟩ := Option.map_eq_some_iff.mp h
    exact ⟨found, rfl⟩
  · exact parse_eq_some h

/-- A document is refused if it is not well formed or if a table inside it names a source. -/
theorem settings_eq_none_iff {text : String} : settings? text = none ↔
    Toml.parse text = none ∨ ∃ entries, Toml.parse text = some (.table entries) ∧ anyNamesSource entries = true := by
  cases hparse : Toml.parse text with
  | none => simp [settings?, hparse]
  | some s =>
    cases s with
    | table entries =>
      simp [settings?, hparse, meanings_eq_none_iff]
    | _ => simp [settings?, hparse]

theorem settings_of_plain {text : String} (hparse : Toml.parse text = some (.table entries))
    (hplain : arePlain entries = true) : settings? text = some (.table entries) := by
  simp only [settings?, hparse, meanings_of_plain entries hplain, Option.map_some]

/-- A document in which no table names a source is read key by key. -/
theorem settings_of_no_source {text : String} (hparse : Toml.parse text = some (.table entries))
    (hsource : anyNamesSource entries = false) : ∃ found, settings? text = some (.table found) ∧
      ∀ key, found.lookup key = (entries.lookup key).bind meaning? := by
  rw [← Bool.not_eq_true, ← meanings_eq_none_iff] at hsource
  obtain ⟨found, hfound⟩ := Option.ne_none_iff_exists'.mp hsource
  refine ⟨found, ?_, lookup_meanings hfound⟩
  simp only [settings?, hparse, hfound, Option.map_some]

/-- What lies below the variables: the settings of the document, or none without one. -/
def layer? : Option String → Option Setting
  | none => some (.table [])
  | some text => settings? text

end ResourceAccess.Document
