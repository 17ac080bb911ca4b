import ResourceAccess.Decimal.FloatText
import ResourceAccess.Text.Quoted

/-!
# Settings

A setting is what a configuration gives for a key. Layers of settings are merged key by key: two tables are merged,
and anything else is replaced by what lies above it.

* `Setting.find_merge`: what a merged table gives for a key
-/

namespace ResourceAccess

inductive Setting where
  | flag (b : Bool)
  | signed (n : Int)
  | unsigned (n : Nat)
  | real (f : Float)
  | text (s : String)
  | sequence (items : List Setting)
  | table (entries : List (String × Setting))

namespace Setting

def naming : Setting → String
  | .flag b => "bool " ++ toString b
  | .signed n => "signed int `" ++ toString n ++ "`"
  | .unsigned n => "unsigned int `" ++ toString n ++ "`"
  | .real f => "float `" ++ FloatText.positional f ++ "`"
  | .text s => "string " ++ Text.quoted s
  | .sequence _ => "sequence"
  | .table _ => "map"

/-- What a table gives for a key. -/
def find? (key : String) : Setting → Option Setting
  | .table entries => entries.lookup key
  | _ => none

/-- What a table gives at the end of a path of keys. -/
def findAt? (keys : List String) (s : Setting) : Option Setting :=
  keys.foldlM (fun s key => s.find? key) s

/-- The entries with the one for a key changed, or added at the end if there is none. -/
def alter (key : String) (change : Option Setting → Setting) :
    List (String × Setting) → List (String × Setting)
  | [] => [(key, change none)]
  | (k, s) :: rest => if k = key then (k, change (some s)) :: rest else (k, s) :: alter key change rest

theorem lookup_alter (key k : String) (change : Option Setting → Setting) (entries : List (String × Setting)) :
    (alter key change entries).lookup k =
      if k = key then some (change (entries.lookup key)) else entries.lookup k := by
  induction entries with
  | nil =>
    by_cases h : k = key
    · simp [alter, h]
    · have hb : (k == key) = false := by simpa using h
      simp [alter, List.lookup_cons, h, hb]
  | cons entry rest ih =>
    obtain ⟨n, s⟩ := entry
    by_cases hn : n = key
    · subst hn
      by_cases h : k = n
      · simp [alter, h]
      · have hb : (k == n) = false := by simpa using h
        simp [alter, List.lookup_cons, h, hb]
    · by_cases h : k = key
      · subst h
        have hb : (k == n) = false := by simpa using Ne.symm hn
        simp [alter, hn, List.lookup_cons, hb, ih]
      · simp only [alter, hn, if_false, List.lookup_cons, ih, h]

mutual

def merge (below above : Setting) : Setting :=
  match above with
  | .table entries =>
    match below with
    | .table under => .table (mergeEntries under entries)
    | _ => .table entries
  | above => above

def mergeEntries (under entries : List (String × Setting)) : List (String × Setting) :=
  match entries with
  | [] => under
  | (key, s) :: rest =>
    mergeEntries
      (alter key (fun
        | none => s
        | some old => merge old s) under)
      rest

end

/-- A merge looks at one key at a time: the lower entry, the higher one, or both merged. -/
theorem find_merge (key : String) (under entries : List (String × Setting))
    (h : entries.Pairwise fun a b => a.1 ≠ b.1) :
    (merge (.table under) (.table entries)).find? key =
      match entries.lookup key, under.lookup key with
      | none, below => below
      | some above, none => some above
      | some above, some below => some (merge below above) := by
  simp only [merge, find?]
  induction entries generalizing under with
  | nil => simp [mergeEntries]
  | cons entry rest ih =>
    obtain ⟨k, s⟩ := entry
    have hrest := (List.pairwise_cons.mp h).2
    have hk := (List.pairwise_cons.mp h).1
    simp only [mergeEntries]
    rw [ih _ hrest, lookup_alter]
    by_cases hkey : key = k
    · subst hkey
      have hnone : rest.lookup key = none := by
        rw [List.lookup_eq_none_iff]
        intro p hp
        simpa using hk p hp
      cases hu : under.lookup key <;> simp [hnone]
    · have hb : (key == k) = false := by simpa using hkey
      simp [List.lookup_cons, hb, hkey]

/-- The table with one setting, at the end of a path of keys. -/
def nested (keys : List String) (s : Setting) : Setting :=
  keys.foldr (fun key inner => .table [(key, inner)]) s

end Setting

end ResourceAccess
