import ResourceAccess.Toml.Reader

/-!
# The settings of a document

A table inside a document may stand for a value: it holds that value under `Document.valueKey`, and its other keys have
no influence. Under `Document.sourceKey` such a table would name the source of its value, which is known only when the
layers are merged, so a document with that key inside a table, wherever it stands, is refused. The document itself is
a table of keys and stands for nothing else.

* `Document.lookup_meanings`: each key is read for itself
-/

namespace ResourceAccess.Document

/-- The key under which a table holds the value that it stands for. -/
def valueKey : String := "___figment_value_value"

/-- The key under which a table names the source of its value. -/
def sourceKey : String := "___figment_value_id"

/-- The setting of a table with these entries, if it names no source. -/
def settled? (entries : List (String × Setting)) : Option Setting :=
  if (entries.lookup sourceKey).isSome then none
  else some ((entries.lookup valueKey).getD (.table entries))

mutual

/-- What a setting inside a document means; none if a table in it names a source. -/
def meaning? : Setting → Option Setting
  | .table entries => (meanings? entries).bind settled?
  | .sequence items => (itemMeanings? items).map .sequence
  | s => some s

def meanings? : List (String × Setting) → Option (List (String × Setting))
  | [] => some []
  | (key, s) :: rest =>
    match meaning? s, meanings? rest with
    | some s, some rest => some ((key, s) :: rest)
    | _, _ => none

def itemMeanings? : List Setting → Option (List Setting)
  | [] => some []
  | s :: rest =>
    match meaning? s, itemMeanings? rest with
    | some s, some rest => some (s :: rest)
    | _, _ => none

end

theorem lookup_meanings {entries found : List (String × Setting)} (h : meanings? entries = some found)
    (key : String) : found.lookup key = (entries.lookup key).bind meaning? := by
  induction entries generalizing found with
  | nil => simp_all [meanings?]
  | cons entry rest ih =>
    obtain ⟨k, s⟩ := entry
    simp only [meanings?] at h
    split at h
    · rename_i t rest' hs hrest
      obtain rfl := Option.some.inj h
      by_cases hk : key = k
      · subst hk
        simp [hs]
      · have hb : (key == k) = false := by simpa using hk
        simp [List.lookup_cons, hb, ih hrest]
    · simp at h

/-- The table of a document's settings, if it is well formed and no table inside it names a source. -/
def settings? (text : String) : Option Setting :=
  match Toml.parse text with
  | some (.table entries) => (meanings? entries).map .table
  | found => found

end ResourceAccess.Document
