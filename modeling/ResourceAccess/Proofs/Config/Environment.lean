import Mathlib.Data.List.TakeDrop
import Mathlib.Data.List.TakeWhile
import ResourceAccess.Config.Environment
import ResourceAccess.Proofs.Config.Merge

/-!
# What the variables give for a key

The variables are merged one above the other, in ascending order of their names.  So what they give for a path of keys
is the value of the last one that is called for it, as long as none is called for a part of the path or for something
below its end.

* `Environment.given?`: the value of the variable for a path of keys
* `Environment.findAt_setting`: **it is what the merge of all variables has there**
* `Environment.valueOf_decimal`: a decimal number is taken exactly as far as 64 bits go
-/

namespace ResourceAccess.Environment

open Setting (Clear Apart Alike)
open Text (isBlankChar trimBlank)

variable {keys path : List String} {environment : Variables} {settings : Setting} {entry : String × String}

/-- What the variables give for a path of keys: the value of the last one, by name, that is called for it. -/
def given? (keys : List String) (environment : Variables) : Option Setting :=
  ((sortedBy (·.1) environment).filter fun entry => keysOf? entry.1 == some keys).getLast?.map fun entry =>
    valueOf entry.2

theorem given_of_unique {name text : String} (hmem : (name, text) ∈ environment) (hname : keysOf? name = some keys)
    (hunique : ∀ entry ∈ environment, keysOf? entry.1 = some keys → entry = (name, text)) :
    given? keys environment = some (valueOf text) := by
  have hnamed : ∀ entry ∈ (sortedBy (·.1) environment).filter (fun entry => keysOf? entry.1 == some keys),
      entry = (name, text) := by
    intro entry hentry
    obtain ⟨hentry, hkeys⟩ := List.mem_filter.mp hentry
    exact hunique entry (mem_sorted.mp hentry) (beq_iff_eq.mp hkeys)
  have hthere : (name, text) ∈ (sortedBy (·.1) environment).filter (fun entry => keysOf? entry.1 == some keys) :=
    List.mem_filter.mpr ⟨mem_sorted.mpr hmem, beq_iff_eq.mpr hname⟩
  have hlast := List.getLast?_eq_some_getLast (List.ne_nil_of_mem hthere)
  rw [given?, hlast, hnamed _ (List.getLast_mem _)]
  rfl

theorem given_of_none (hnone : ∀ entry ∈ environment, keysOf? entry.1 ≠ some keys) :
    given? keys environment = none := by
  have hempty : (sortedBy (·.1) environment).filter (fun entry => keysOf? entry.1 == some keys) = [] := by
    rw [List.filter_eq_nil_iff]
    exact fun entry hentry hkeys => hnone entry (mem_sorted.mp hentry) (beq_iff_eq.mp hkeys)
  rw [given?, hempty]
  rfl

/-! A path of keys is never empty, so no variable stands for the whole configuration. -/

theorem cutKeys_ne_nil (cs : List Char) : cutKeys cs ≠ [] := by
  fun_cases cutKeys cs <;> simp

theorem keysOf_ne_nil (name : String) : keysOf? name ≠ some [] := by
  fun_cases keysOf? name with
  | case1 | case2 => simp
  | case3 _ rest => simpa using cutKeys_ne_nil (trimBlank rest)

/-- The settings with those of one variable above them. -/
def raise (settings : Setting) (entry : String × String) : Setting :=
  match keysOf? entry.1 with
  | none => settings
  | some keys => settings.merge (Setting.nested keys (valueOf entry.2))

theorem setting_eq (environment : Variables) :
    setting environment = (sortedBy (·.1) environment).foldl raise (.table []) := rfl

/-- One variable gives what it is called for, and leaves the other paths alone. -/
theorem findAt_raise (happart : ∀ path, keysOf? entry.1 = some path → Apart path keys) (hclear : Clear keys settings) :
    Clear keys (raise settings entry) ∧ Alike ((raise settings entry).findAt? keys)
      ((if keysOf? entry.1 = some keys then some (valueOf entry.2) else none).or (settings.findAt? keys)) := by
  unfold raise
  cases hpath : keysOf? entry.1 with
  | none => exact ⟨hclear, by simpa using Alike.refl _⟩
  | some path =>
    obtain ⟨hnested, hfind⟩ := Setting.findAt_nested (s := valueOf entry.2) (happart path hpath)
    have hmerge : Alike ((settings.merge (Setting.nested path (valueOf entry.2))).findAt? keys) _ :=
      Setting.findAt_merge hnested
    rw [hfind] at hmerge
    refine ⟨hclear.merge hnested, ?_⟩
    simpa only [Option.some.injEq] using hmerge

/-- Several variables, one above the other, give what the last one gives that is called for the path. -/
theorem findAt_foldl {entries : List (String × String)}
    (happart : ∀ entry ∈ entries, ∀ path, keysOf? entry.1 = some path → Apart path keys)
    (hclear : Clear keys settings) :
    Clear keys (entries.foldl raise settings) ∧ Alike ((entries.foldl raise settings).findAt? keys)
      (((entries.filter fun entry => keysOf? entry.1 == some keys).getLast?.map fun entry => valueOf entry.2).or
        (settings.findAt? keys)) := by
  induction entries generalizing settings with
  | nil => exact ⟨hclear, Alike.refl _⟩
  | cons entry rest ih =>
    obtain ⟨hfirst, hrest⟩ := List.forall_mem_cons.mp happart
    obtain ⟨hraised, hone⟩ := findAt_raise hfirst hclear
    obtain ⟨hall, hmany⟩ := ih hrest hraised
    refine ⟨hall, (hmany.trans ((Alike.refl _).or hone)).trans (Or.inl ?_)⟩
    by_cases hkeys : keysOf? entry.1 = some keys
    · rw [if_pos hkeys, List.filter_cons_of_pos (by simpa using hkeys), List.getLast?_cons, ← Option.or_assoc]
      cases (rest.filter fun entry => keysOf? entry.1 == some keys).getLast? <;> rfl
    · rw [if_neg hkeys, List.filter_cons_of_neg (by simpa using hkeys), Option.none_or]

theorem clear_nil : Clear keys (.table []) := by
  cases keys with
  | nil => trivial
  | cons => exact ⟨[], rfl, List.Pairwise.nil, fun inner hinner => absurd hinner (by simp)⟩

/-- **The variables give for a path of keys what the last one gives that is called for it**, up to what stands in a
table, if none leads through the end of the path and none ends on the way. -/
theorem findAt_setting (happart : ∀ entry ∈ environment, ∀ path, keysOf? entry.1 = some path → Apart path keys)
    (hkeys : keys ≠ []) :
    Clear keys (setting environment) ∧ Alike ((setting environment).findAt? keys) (given? keys environment) := by
  have hsorted : ∀ entry ∈ sortedBy (·.1) environment, ∀ path, keysOf? entry.1 = some path → Apart path keys :=
    fun entry hentry => happart entry (mem_sorted.mp hentry)
  have hnothing : (Setting.table []).findAt? keys = none := by
    obtain ⟨key, rest, rfl⟩ := List.exists_cons_of_ne_nil hkeys
    rfl
  have hall := findAt_foldl hsorted clear_nil
  rwa [hnothing, Option.or_none, ← setting_eq] at hall

/-- Variables that are none of ours give nothing. -/
theorem setting_of_foreign (hforeign : ∀ entry ∈ environment, keysOf? entry.1 = none) :
    setting environment = .table [] := by
  rw [setting_eq]
  refine List.foldlRecOn (motive := (· = Setting.table [])) _ _ rfl fun settings hsettings entry hentry => ?_
  rw [raise, hforeign entry (mem_sorted.mp hentry), hsettings]

/-! ## Decimal numbers -/

section Digits

variable {c : Char} {cs : List Char}

theorem ne_of_isDigit {d : Char} (hd : d.isDigit = false) (hc : c.isDigit = true) : c ≠ d := by
  rintro rfl
  exact absurd (hd.symm.trans hc) Bool.false_ne_true

theorem isBlank_of_isDigit (hc : c.isDigit = true) : isBlank c = false := by
  rw [Bool.eq_false_iff]
  intro h
  simp only [isBlank, Bool.or_eq_true, beq_iff_eq] at h
  rcases h with (((rfl | rfl) | rfl) | rfl) | rfl <;> exact absurd hc (by decide)

theorem isSeparator_of_isDigit (hc : c.isDigit = true) : isSeparator c = false := by
  rw [Bool.eq_false_iff]
  intro h
  simp only [isSeparator, Bool.or_eq_true, beq_iff_eq] at h
  rcases h with (((rfl | rfl) | rfl) | rfl) | rfl <;> exact absurd hc (by decide)

theorem isBlankChar_of_isDigit (hc : c.isDigit = true) : isBlankChar c = false := by
  have hbounds : 48 ≤ c.toNat ∧ c.toNat ≤ 57 := by
    simpa [Char.isDigit, UInt32.le_iff_toNat_le] using hc
  simp only [isBlankChar, Text.whiteSpaceRanges, List.any_cons, List.any_nil, Bool.or_false, Bool.or_eq_false_iff,
    Bool.and_eq_false_iff, decide_eq_false_iff_not]
  omega

theorem span_all {p : Char → Bool} (h : ∀ c ∈ cs, p c = true) : cs.span p = (cs, []) := by
  rw [List.span_eq_takeWhile_dropWhile, List.takeWhile_eq_self_iff.mpr h, List.dropWhile_eq_nil_iff.mpr h]

theorem dropWhile_none {p : Char → Bool} (h : ∀ c ∈ cs, p c = false) : cs.dropWhile p = cs := by
  cases cs with
  | nil => rfl
  | cons c rest => rw [List.dropWhile_cons_of_neg (by simp [h c List.mem_cons_self])]

theorem trimBlank_digits (h : ∀ c ∈ cs, c.isDigit = true) : trimBlank cs = cs := by
  have hblank : ∀ c ∈ cs, isBlankChar c = false := fun c hc => isBlankChar_of_isDigit (h c hc)
  rw [trimBlank, dropWhile_none hblank, dropWhile_none fun c hc => hblank c (List.mem_reverse.mp hc),
    List.reverse_reverse]

/-- Digits are a whole number and no fraction; too many of them stay a text. -/
theorem plain_digits (hne : cs ≠ []) (h : ∀ c ∈ cs, c.isDigit = true) : plain cs =
    if Nat.ofDigitChars 10 cs 0 < Nat.pow 2 64 then .unsigned (Nat.ofDigitChars 10 cs 0) else .text (String.ofList cs) := by
  obtain ⟨c, rest, rfl⟩ := List.exists_cons_of_ne_nil hne
  have hfirst : ∀ d : Char, d.isDigit = false → c ≠ d := fun d hd => ne_of_isDigit hd (h c List.mem_cons_self)
  have hplus : c ≠ '+' := hfirst _ (by decide)
  have hminus : c ≠ '-' := hfirst _ (by decide)
  have hpower : (c :: rest).span (fun c => c != 'e' && c != 'E') = (c :: rest, []) := span_all fun d hd => by
    have he := ne_of_isDigit (d := 'e') (by decide) (h d hd)
    have hE := ne_of_isDigit (d := 'E') (by decide) (h d hd)
    simp [he, hE]
  have hpoint : (c :: rest).span (· != '.') = (c :: rest, []) := span_all fun d hd => by
    simpa using ne_of_isDigit (d := '.') (by decide) (h d hd)
  have hreal : real? (c :: rest) = none := by
    simp [real?, hpower, hpoint, hplus, hminus, -List.span_eq_takeWhile_dropWhile]
  have hnegative : negative? (c :: rest) = none := by
    simp [negative?, hminus]
  have hunsigned : unsigned? (c :: rest) = if Nat.ofDigitChars 10 (c :: rest) 0 < Nat.pow 2 64 then
      some (.unsigned (Nat.ofDigitChars 10 (c :: rest) 0)) else none := by
    have hdigits : (c :: rest).any (!·.isDigit) = false := by simpa using h
    simp [unsigned?, hplus, hdigits]
  rw [plain, trimBlank_digits h, hreal, hnegative, hunsigned]
  split <;> rfl

theorem afterWord_of_ne {first c : Char} {word rest : List Char} (hne : c ≠ first) :
    afterWord? (first :: word) (c :: rest) = none :=
  if_neg (by simpa using hne.symm)

theorem readBare_digits (hne : cs ≠ []) (h : ∀ c ∈ cs, c.isDigit = true) (fuel : Nat) :
    readBare (fuel + 1) cs = some (plain cs, []) := by
  obtain ⟨c, rest, rfl⟩ := List.exists_cons_of_ne_nil hne
  have hfirst : ∀ d : Char, d.isDigit = false → c ≠ d := fun d hd => ne_of_isDigit hd (h c List.mem_cons_self)
  have hspan : (c :: rest).span (!isSeparator ·) = (c :: rest, []) := span_all fun d hd => by
    simp [isSeparator_of_isDigit (h d hd)]
  have htrue : afterWord? ['t', 'r', 'u', 'e'] (c :: rest) = none := afterWord_of_ne (hfirst 't' (by decide))
  have hfalse : afterWord? ['f', 'a', 'l', 's', 'e'] (c :: rest) = none := afterWord_of_ne (hfirst 'f' (by decide))
  have hbrace := hfirst '\x7b' (by decide)
  have hbracket := hfirst '[' (by decide)
  have hquote := hfirst '"' (by decide)
  have htick := hfirst '\'' (by decide)
  rw [readBare, htrue, hfalse]
  · rw [hspan]
  all_goals simp [hbrace, hbracket, hquote, htick]

/-- A decimal number stands for itself as far as 64 bits go, and beyond it is a text. -/
theorem valueOf_decimal (n : Nat) :
    valueOf (toString n) = if n < Nat.pow 2 64 then .unsigned n else .text (toString n) := by
  have hlist : (toString n).toList = Nat.toDigits 10 n := by
    rw [Nat.toString_eq_repr, Nat.repr_eq_ofList_toDigits, String.toList_ofList]
  have hdigits : ∀ c ∈ Nat.toDigits 10 n, c.isDigit = true := fun c hc => Nat.isDigit_of_mem_toDigits (by decide) (by decide) hc
  have hne : Nat.toDigits 10 n ≠ [] := Nat.toDigits_ne_nil
  have hskip : skipBlanks (Nat.toDigits 10 n) = Nat.toDigits 10 n :=
    dropWhile_none fun c hc => isBlank_of_isDigit (hdigits c hc)
  rw [valueOf, hlist]
  simp only [readValue, hskip, readBare_digits hne hdigits, Option.map_some, plain_digits hne hdigits,
    Nat.ofDigitChars_toDigits (by decide : 1 < 10) (Nat.le_refl 10), Nat.toString_eq_repr, Nat.repr_eq_ofList_toDigits]
  rfl

end Digits

end ResourceAccess.Environment
