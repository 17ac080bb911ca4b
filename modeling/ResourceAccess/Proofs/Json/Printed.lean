import Mathlib.Tactic.SplitIfs
import ResourceAccess.Json.Printer
import ResourceAccess.Json.Reader

/-!
# Reading what was printed

A value that is printed over several lines can be read again, and nothing is lost: every character of a text comes back
from its escape, and the fields of an object come back in the order in which they were written.  Numbers are left aside,
since their texts go through doubles.

* `Json.isPlain`: what can be read again
* `Json.readText_quoted`: a text between quotes
* `Json.scan_pretty`: **a printed value is read as it was**
-/

namespace ResourceAccess.Json

open Text (push charOf? charOf_toNat hexNumber?)

/-! ## Texts -/

theorem hexNumber_control {n : Nat} (h : n < 32) : hexNumber? ['0', '0', hexDigit (n / 16), hexDigit n] = some n := by
  have hall : ∀ n < 32, hexNumber? ['0', '0', hexDigit (n / 16), hexDigit n] = some n := by decide
  exact hall n h

theorem eq_of_toNat {c d : Char} (h : c.toNat = d.toNat) : c = d := by
  have hc := charOf_toNat c
  rw [h, charOf_toNat] at hc
  exact (Option.some.inj hc).symm

theorem readText_escaped (c : Char) (cs : List Char) : readText (escaped c ++ cs) = push (some c) (readText cs) := by
  unfold escaped
  split_ifs with hquote hbackslash hline hreturn htab hback hfeed hcontrol
  · subst hquote
    rfl
  · subst hbackslash
    rfl
  · subst hline
    rfl
  · subst hreturn
    rfl
  · subst htab
    rfl
  · obtain rfl : c = '\x08' := eq_of_toNat hback
    rfl
  · obtain rfl : c = '\x0c' := eq_of_toNat hfeed
    rfl
  · show readText ('\\' :: 'u' :: '0' :: '0' :: hexDigit (c.toNat / 16) :: hexDigit c.toNat :: cs) = _
    rw [readText, hexNumber_control hcontrol]
    simp only [charOf_toNat]
  · show readText (c :: cs) = _
    rw [readText, if_neg hcontrol]
    · exact hquote
    · intro _ _ _ _ _ h _
      exact hbackslash h
    · intro _ _ h _
      exact hbackslash h

theorem readText_quoted (text rest : List Char) :
    readText (text.flatMap escaped ++ '"' :: rest) = some (text, rest) := by
  induction text with
  | nil => rfl
  | cons c text ih =>
    rw [List.flatMap_cons, List.append_assoc, readText_escaped, ih]
    rfl

/-! ## Blanks -/

theorem skipBlanks_cons {c : Char} (h : isBlank c = false) (cs : List Char) : skipBlanks (c :: cs) = c :: cs := by
  rw [skipBlanks, List.dropWhile_cons_of_neg (by simp [h])]

theorem skipBlanks_newLine (depth : Nat) (cs : List Char) : skipBlanks (newLine depth ++ cs) = skipBlanks cs := by
  have hblanks : ∀ c ∈ newLine depth, isBlank c = true := by
    intro c hc
    rcases List.mem_cons.mp hc with rfl | hc
    · rfl
    · obtain rfl := List.eq_of_mem_replicate hc
      rfl
  exact List.dropWhile_append_of_pos hblanks

/-! ## Values -/

mutual

/-- Whether a value has no numbers in it, and brackets nest only so deep. -/
def isPlain (depth : Nat) : Json → Bool
  | .number _ => false
  | .array items =>
    match depth with
    | 0 => false
    | depth + 1 => arePlainItems depth items
  | .object fields =>
    match depth with
    | 0 => false
    | depth + 1 => arePlainFields depth fields
  | _ => true

def arePlainItems (depth : Nat) : List Json → Bool
  | [] => true
  | item :: rest => item.isPlain depth && arePlainItems depth rest

def arePlainFields (depth : Nat) : List (String × Json) → Bool
  | [] => true
  | (_, value) :: rest => value.isPlain depth && arePlainFields depth rest

end

/-- A printed value begins with a character that is not a blank and closes nothing. -/
theorem prettyChars_head {depth : Nat} {j : Json} (h : j.isPlain depth = true) (column : Nat) :
    ∃ c cs, prettyChars column j = c :: cs ∧ isBlank c = false ∧ c ≠ ']' := by
  cases j with
  | null => exact ⟨'n', _, rfl, rfl, by decide⟩
  | bool b => cases b <;> exact ⟨_, _, rfl, rfl, by decide⟩
  | number n => exact absurd h Bool.false_ne_true
  | string s => exact ⟨'"', _, rfl, rfl, by decide⟩
  | array items => cases items <;> exact ⟨'[', _, rfl, rfl, by decide⟩
  | object fields => cases fields with
    | nil => exact ⟨'\x7b', _, rfl, rfl, by decide⟩
    | cons field rest => exact ⟨'\x7b', _, rfl, rfl, by decide⟩

theorem skipBlanks_pretty {depth : Nat} {j : Json} (h : j.isPlain depth = true) (column : Nat) (rest : List Char) :
    skipBlanks (prettyChars column j ++ rest) = prettyChars column j ++ rest := by
  obtain ⟨c, cs, hchars, hblank, -⟩ := prettyChars_head h column
  rw [hchars]
  exact skipBlanks_cons hblank _

theorem joined_items_head {depth : Nat} {items : List Json} (hne : items ≠ []) (h : arePlainItems depth items = true)
    (separator : List Char) (column : Nat) :
    ∃ c cs, joined separator (prettyItems column items) = c :: cs ∧ isBlank c = false ∧ c ≠ ']' := by
  match items with
  | [item] => exact prettyChars_head (Bool.and_eq_true_iff.mp h).1 column
  | item :: next :: items =>
    obtain ⟨c, cs, hchars, hc⟩ := prettyChars_head (Bool.and_eq_true_iff.mp h).1 column
    refine ⟨c, cs ++ separator ++ joined separator (prettyItems column (next :: items)), ?_, hc⟩
    show prettyChars column item ++ separator ++ joined separator (prettyItems column (next :: items)) = _
    rw [hchars]
    rfl

theorem joined_fields_head {fields : List (String × Json)} (hne : fields ≠ []) (separator : List Char) (column : Nat) :
    ∃ cs, joined separator (prettyFields column fields) = '"' :: cs := by
  match fields with
  | [(name, value)] => exact ⟨_, rfl⟩
  | (name, value) :: next :: fields => exact ⟨_, rfl⟩

theorem skipBlanks_items {depth : Nat} {items : List Json} (hne : items ≠ []) (h : arePlainItems depth items = true)
    (separator tail : List Char) (line column : Nat) :
    skipBlanks (newLine line ++ (joined separator (prettyItems column items) ++ tail)) =
      joined separator (prettyItems column items) ++ tail := by
  obtain ⟨c, inner, hchars, hblank, -⟩ := joined_items_head hne h separator column
  rw [skipBlanks_newLine, hchars]
  exact skipBlanks_cons hblank _

theorem skipBlanks_fields {fields : List (String × Json)} (hne : fields ≠ []) (separator tail : List Char)
    (line column : Nat) :
    skipBlanks (newLine line ++ (joined separator (prettyFields column fields) ++ tail)) =
      joined separator (prettyFields column fields) ++ tail := by
  obtain ⟨inner, hchars⟩ := joined_fields_head hne separator column
  rw [skipBlanks_newLine, hchars]
  exact skipBlanks_cons rfl _

/-! ## The printed text piece by piece -/

section Pieces

variable (column : Nat)

theorem prettyChars_array (item : Json) (items : List Json) : prettyChars column (.array (item :: items)) =
    '[' :: (newLine (column + 1) ++ (joined (',' :: newLine (column + 1)) (prettyItems (column + 1) (item :: items)) ++
      (newLine column ++ [']']))) := by
  simp [prettyChars, prettyItems, bracketed]

theorem prettyChars_object (field : String × Json) (fields : List (String × Json)) :
    prettyChars column (.object (field :: fields)) =
      '\x7b' :: (newLine (column + 1) ++
        (joined (',' :: newLine (column + 1)) (prettyFields (column + 1) (field :: fields)) ++
          (newLine column ++ ['\x7d']))) := by
  simp [prettyChars, prettyFields, bracketed]

theorem joined_items_next (item next : Json) (items : List Json) :
    joined (',' :: newLine column) (prettyItems column (item :: next :: items)) =
      prettyChars column item ++ (',' :: (newLine column ++
        joined (',' :: newLine column) (prettyItems column (next :: items)))) := by
  simp [prettyItems, joined]

theorem joined_fields_last (name : String) (value : Json) :
    joined (',' :: newLine column) (prettyFields column [(name, value)]) =
      '"' :: (name.toList.flatMap escaped ++ '"' :: ':' :: ' ' :: prettyChars column value) := by
  simp [prettyFields, joined, quoted]

theorem joined_fields_next (name : String) (value : Json) (next : String × Json) (fields : List (String × Json)) :
    joined (',' :: newLine column) (prettyFields column ((name, value) :: next :: fields)) =
      '"' :: (name.toList.flatMap escaped ++ '"' :: ':' :: ' ' :: (prettyChars column value ++
        (',' :: (newLine column ++ joined (',' :: newLine column) (prettyFields column (next :: fields)))))) := by
  simp [prettyFields, joined, quoted]

end Pieces

/-! ## Steps of the reader -/

section Steps

variable {fuel depth : Nat} {cs inner more tail rest : List Char} {item value : Json} {items : List Json}
  {fields : List (String × Json)}

theorem readWord_append (word rest : List Char) (value : Json) :
    readWord word value (word ++ rest) = some (value, rest) := by
  have hprefix : word.isPrefixOf? (word ++ rest) = some rest := by
    induction word with
    | nil => rfl
    | cons c word ih =>
      show (if c == c then word.isPrefixOf? (word ++ rest) else none) = some rest
      rw [if_pos (beq_self_eq_true c)]
      exact ih
  rw [readWord, hprefix]
  rfl

theorem readValue_array (hcs : skipBlanks cs = '[' :: inner) (hitems : ∀ r, skipBlanks inner ≠ ']' :: r)
    (h : readItems fuel depth inner = some (items, rest)) :
    readValue (fuel + 1) (depth + 1) cs = some (.array items, rest) := by
  -- the brackets are not empty, so the reader goes on to the items
  simp only [readValue, hcs, h, Option.map_some]

theorem readValue_object (hcs : skipBlanks cs = '\x7b' :: inner) (hfields : ∀ r, skipBlanks inner ≠ '\x7d' :: r)
    (h : readFields fuel depth inner = some (fields, rest)) :
    readValue (fuel + 1) (depth + 1) cs = some (.object fields, rest) := by
  simp only [readValue, hcs, h, Option.map_some]

theorem readItems_last (hvalue : readValue fuel depth cs = some (item, tail)) (htail : skipBlanks tail = ']' :: rest) :
    readItems (fuel + 1) depth cs = some ([item], rest) := by
  rw [readItems, hvalue]
  simp only [htail]

theorem readItems_next (hvalue : readValue fuel depth cs = some (item, tail)) (htail : skipBlanks tail = ',' :: more)
    (hmore : readItems fuel depth more = some (items, rest)) :
    readItems (fuel + 1) depth cs = some (item :: items, rest) := by
  rw [readItems, hvalue]
  dsimp only
  rw [htail]
  show (readItems fuel depth more).map _ = _
  rw [hmore]
  rfl

theorem readFields_last {name : String} (hcs : skipBlanks cs = '"' :: (name.toList.flatMap escaped ++ '"' :: inner))
    (hinner : skipBlanks inner = ':' :: more) (hvalue : readValue fuel depth more = some (value, tail))
    (htail : skipBlanks tail = '\x7d' :: rest) : readFields (fuel + 1) depth cs = some ([(name, value)], rest) := by
  simp only [readFields, hcs, readText_quoted, hinner, hvalue, htail, String.ofList_toList]

theorem readFields_next {name : String} {after : List Char}
    (hcs : skipBlanks cs = '"' :: (name.toList.flatMap escaped ++ '"' :: inner)) (hinner : skipBlanks inner = ':' :: more)
    (hvalue : readValue fuel depth more = some (value, tail)) (htail : skipBlanks tail = ',' :: after)
    (hafter : readFields fuel depth after = some (fields, rest)) :
    readFields (fuel + 1) depth cs = some ((name, value) :: fields, rest) := by
  simp only [readFields, hcs, readText_quoted, hinner, hvalue, htail, hafter, String.ofList_toList, Option.map_some]

end Steps

/-! ## Whole values -/

mutual

theorem readValue_pretty (j : Json) (depth column fuel : Nat) (cs rest : List Char) (hplain : j.isPlain depth = true)
    (hfuel : (prettyChars column j).length ≤ fuel) (hcs : skipBlanks cs = prettyChars column j ++ rest) :
    readValue fuel depth cs = some (j, rest) := by
  obtain ⟨fuel, rfl⟩ : ∃ less, fuel = less + 1 := by
    obtain ⟨c, inner, hchars, -⟩ := prettyChars_head hplain column
    rw [hchars, List.length_cons] at hfuel
    exact ⟨fuel - 1, by omega⟩
  match j, depth with
  | .null, _ =>
    rw [readValue, hcs]
    exact readWord_append ['u', 'l', 'l'] rest .null
  | .bool true, _ =>
    rw [readValue, hcs]
    exact readWord_append ['r', 'u', 'e'] rest (.bool true)
  | .bool false, _ =>
    rw [readValue, hcs]
    exact readWord_append ['a', 'l', 's', 'e'] rest (.bool false)
  | .string s, _ =>
    rw [readValue, hcs]
    show (readText ((s.toList.flatMap escaped ++ ['"']) ++ rest)).map _ = _
    rw [List.append_assoc, List.singleton_append, readText_quoted, Option.map_some]
    simp only [String.ofList_toList]
  | .array [], depth + 1 =>
    rw [readValue, hcs]
    rfl
  | .array (item :: items), depth + 1 =>
    have hne : item :: items ≠ [] := List.cons_ne_nil item items
    have hitems : arePlainItems depth (item :: items) = true := hplain
    rw [prettyChars_array] at hfuel hcs
    simp only [List.cons_append, List.append_assoc, List.nil_append] at hcs
    simp only [List.length_cons, List.length_append] at hfuel
    refine readValue_array hcs ?_ (readItems_pretty (item :: items) depth (column + 1) fuel _ rest
      (newLine column ++ ']' :: rest) hne hitems (by omega) (skipBlanks_newLine _ _) (skipBlanks_items hne hitems ..))
    intro r heq
    obtain ⟨c, inner, hchars, -, hopen⟩ :=
      joined_items_head hne hitems (',' :: newLine (column + 1)) (column + 1)
    rw [skipBlanks_items hne hitems, hchars] at heq
    exact hopen (List.cons.inj heq).1
  | .object [], depth + 1 =>
    rw [readValue, hcs]
    rfl
  | .object (field :: fields), depth + 1 =>
    have hne : field :: fields ≠ [] := List.cons_ne_nil field fields
    have hfields : arePlainFields depth (field :: fields) = true := hplain
    rw [prettyChars_object] at hfuel hcs
    simp only [List.cons_append, List.append_assoc, List.nil_append] at hcs
    simp only [List.length_cons, List.length_append] at hfuel
    refine readValue_object hcs ?_ (readFields_pretty (field :: fields) depth (column + 1) fuel _ rest
      (newLine column ++ '\x7d' :: rest) hne hfields (by omega) (skipBlanks_newLine _ _) (skipBlanks_fields hne ..))
    intro r heq
    obtain ⟨inner, hchars⟩ := joined_fields_head hne (',' :: newLine (column + 1)) (column + 1)
    rw [skipBlanks_fields hne, hchars] at heq
    exact absurd (List.cons.inj heq).1 (by decide)

theorem readItems_pretty (items : List Json) (depth column fuel : Nat) (cs rest tail : List Char) (hne : items ≠ [])
    (hplain : arePlainItems depth items = true)
    (hfuel : (joined (',' :: newLine column) (prettyItems column items)).length < fuel)
    (htail : skipBlanks tail = ']' :: rest)
    (hcs : skipBlanks cs = joined (',' :: newLine column) (prettyItems column items) ++ tail) :
    readItems fuel depth cs = some (items, rest) := by
  obtain ⟨fuel, rfl⟩ : ∃ less, fuel = less + 1 := ⟨fuel - 1, by omega⟩
  match items with
  | [item] =>
    have hitem : item.isPlain depth = true := (Bool.and_eq_true_iff.mp hplain).1
    exact readItems_last (readValue_pretty item depth column fuel cs tail hitem (Nat.le_of_lt_succ hfuel) hcs) htail
  | item :: next :: items =>
    obtain ⟨hitem, hmore⟩ := Bool.and_eq_true_iff.mp hplain
    rw [joined_items_next] at hfuel hcs
    simp only [List.append_assoc, List.cons_append] at hcs
    simp only [List.length_cons, List.length_append] at hfuel
    have hvalue := readValue_pretty item depth column fuel cs _ hitem (by omega) hcs
    have hnext := readItems_pretty (next :: items) depth column fuel _ rest tail (List.cons_ne_nil next items) hmore
      (by omega) htail (skipBlanks_items (List.cons_ne_nil next items) hmore _ tail column column)
    exact readItems_next hvalue (skipBlanks_cons rfl _) hnext

theorem readFields_pretty (fields : List (String × Json)) (depth column fuel : Nat) (cs rest tail : List Char)
    (hne : fields ≠ []) (hplain : arePlainFields depth fields = true)
    (hfuel : (joined (',' :: newLine column) (prettyFields column fields)).length < fuel)
    (htail : skipBlanks tail = '\x7d' :: rest)
    (hcs : skipBlanks cs = joined (',' :: newLine column) (prettyFields column fields) ++ tail) :
    readFields fuel depth cs = some (fields, rest) := by
  obtain ⟨fuel, rfl⟩ : ∃ less, fuel = less + 1 := ⟨fuel - 1, by omega⟩
  match fields with
  | [(name, value)] =>
    have hplain : value.isPlain depth = true := (Bool.and_eq_true_iff.mp hplain).1
    rw [joined_fields_last] at hfuel hcs
    simp only [List.append_assoc, List.cons_append] at hcs
    simp only [List.length_cons, List.length_append] at hfuel
    have hvalue : readValue fuel depth (' ' :: (prettyChars column value ++ tail)) = some (value, tail) :=
      readValue_pretty value depth column fuel _ tail hplain (by omega) (skipBlanks_pretty hplain column tail)
    exact readFields_last hcs (skipBlanks_cons rfl _) hvalue htail
  | (name, value) :: next :: fields =>
    obtain ⟨hplain, hmore⟩ := Bool.and_eq_true_iff.mp hplain
    rw [joined_fields_next] at hfuel hcs
    simp only [List.append_assoc, List.cons_append] at hcs
    simp only [List.length_cons, List.length_append] at hfuel
    have hvalue := readValue_pretty value depth column fuel (' ' :: _) _ hplain (by omega)
      (skipBlanks_pretty hplain column (',' :: (newLine column ++
        (joined (',' :: newLine column) (prettyFields column (next :: fields)) ++ tail))))
    have hnext := readFields_pretty (next :: fields) depth column fuel _ rest tail (List.cons_ne_nil next fields) hmore
      (by omega) htail (skipBlanks_fields (List.cons_ne_nil next fields) _ tail column column)
    exact readFields_next hcs (skipBlanks_cons rfl _) hvalue (skipBlanks_cons rfl _) hnext

end

/-- **A printed value is read as it was,** if it has no numbers in it and does not nest too deep. -/
theorem scan_pretty {j : Json} (hplain : j.isPlain nestingLimit = true) : scan j.pretty = some j := by
  have hread : readValue (j.pretty.toList.length + 1) nestingLimit j.pretty.toList = some (j, []) := by
    rw [pretty, String.toList_ofList]
    refine readValue_pretty j nestingLimit 0 _ _ [] hplain (Nat.le_succ _) ?_
    have hhead := skipBlanks_pretty hplain 0 []
    rwa [List.append_nil] at hhead ⊢
  rw [scan]
  simp only [hread]
  rfl

end ResourceAccess.Json
