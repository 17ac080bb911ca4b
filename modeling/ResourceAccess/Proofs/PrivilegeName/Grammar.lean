import Mathlib.Computability.RegularExpressions
import ResourceAccess.Operation

/-!
# The grammar of privilege names

There are three ways to say what a privilege name is.  `PrivilegeName.isValid` reads the text once, looking one
character ahead.  `pattern` is a regular expression that has to match the whole text.  `IsDotted` cuts the text at its
dots and asks the same of each part.  The first two are compared with the third.  For the reader, `continues_iff`
describes what it accepts by the parts of the text that is still to be read.  For the pattern, a match is a list of
segments joined by dots; as no segment has a dot, cutting the text at its dots gives that list back.

* `isValidChars_iff`: which parts the reader accepts
* `mem_pattern_iff`: which parts the pattern matches
* `names_obey_grammar`: **reader, pattern and parts agree**
-/

namespace ResourceAccess.PrivilegeName

/-! ## Segments -/

def IsCapital (c : Char) : Prop := 'A' ≤ c ∧ c ≤ 'Z'

def IsPlain (c : Char) : Prop := IsCapital c ∨ ('a' ≤ c ∧ c ≤ 'z') ∨ ('0' ≤ c ∧ c ≤ '9')

/-- A capital, then letters and digits, all in ASCII. -/
inductive IsSegment : List Char → Prop where
  | cons {c : Char} {cs : List Char} (capital : IsCapital c) (plain : ∀ d ∈ cs, IsPlain d) : IsSegment (c :: cs)

/-- The parts between the dots. -/
def parts (name : String) : List (List Char) := name.toList.splitOn '.'

/-- Two or more segments with dots between them. -/
structure IsDotted (name : String) : Prop where
  two_le : 2 ≤ (parts name).length
  segment : ∀ part ∈ parts name, IsSegment part

theorem isUpper_iff {c : Char} : c.isUpper = true ↔ IsCapital c := decide_eq_true_iff

theorem isAlphanum_iff {c : Char} : c.isAlphanum = true ↔ IsPlain c := by
  have hrange : ∀ {first last : Char}, (decide (first ≤ c) && decide (c ≤ last)) = true ↔ first ≤ c ∧ c ≤ last := by
    intro first last
    rw [Bool.and_eq_true, decide_eq_true_iff, decide_eq_true_iff]
  have hlower : c.isLower = true ↔ 'a' ≤ c ∧ c ≤ 'z' := hrange
  have hdigit : c.isDigit = true ↔ '0' ≤ c ∧ c ≤ '9' := hrange
  show (c.isUpper || c.isLower || c.isDigit) = true ↔ IsPlain c
  rw [Bool.or_eq_true, Bool.or_eq_true, isUpper_iff, hlower, hdigit, or_assoc, IsPlain]

theorem not_isSegment_nil : ¬ IsSegment [] := nofun

theorem isSegment_cons_iff {c : Char} {cs : List Char} :
    IsSegment (c :: cs) ↔ IsCapital c ∧ ∀ d ∈ cs, IsPlain d := by
  constructor
  · rintro ⟨hcapital, hplain⟩
    exact ⟨hcapital, hplain⟩
  · rintro ⟨hcapital, hplain⟩
    exact .cons hcapital hplain

theorem IsSegment.isPlain {cs : List Char} (h : IsSegment cs) : ∀ c ∈ cs, IsPlain c := by
  obtain ⟨hcapital, hplain⟩ := h
  exact List.forall_mem_cons.mpr ⟨Or.inl hcapital, hplain⟩

theorem IsSegment.dot_not_mem {cs : List Char} (h : IsSegment cs) : '.' ∉ cs := by
  intro hdot
  exact absurd (isAlphanum_iff.mpr (h.isPlain '.' hdot)) (by decide)

/-! ## The parts of a text -/

theorem exists_splitOn (cs : List Char) : ∃ first rest, cs.splitOn '.' = first :: rest :=
  List.exists_cons_of_ne_nil (List.splitOn_ne_nil '.' cs)

theorem splitOn_dot (cs : List Char) : ('.' :: cs).splitOn '.' = [] :: cs.splitOn '.' := by
  rw [List.splitOn_cons_eq_if_modifyHead, if_pos (beq_self_eq_true '.')]

theorem splitOn_cons_of_ne {c : Char} {cs first : List Char} {rest : List (List Char)} (hc : c ≠ '.')
    (h : cs.splitOn '.' = first :: rest) : (c :: cs).splitOn '.' = (c :: first) :: rest := by
  rw [List.splitOn_cons_eq_if_modifyHead, if_neg (by simpa using hc), h, List.modifyHead_cons]

def joined (first : List Char) (rest : List (List Char)) : List Char := first ++ rest.flatMap ('.' :: ·)

theorem joined_cons (first second : List Char) (rest : List (List Char)) :
    joined first (second :: rest) = first ++ '.' :: joined second rest := by
  simp [joined]

theorem splitOn_joined {first : List Char} {rest : List (List Char)} (hfirst : '.' ∉ first)
    (hrest : ∀ s ∈ rest, '.' ∉ s) : (joined first rest).splitOn '.' = first :: rest := by
  induction rest generalizing first with
  | nil => rw [joined, List.flatMap_nil, List.append_nil, List.splitOn_eq_singleton hfirst]
  | cons second rest ih =>
    rw [List.forall_mem_cons] at hrest
    rw [joined_cons, List.splitOn_append_cons_self, List.splitOn_eq_singleton hfirst, ih hrest.1 hrest.2]
    rfl

theorem joined_splitOn {cs first : List Char} {rest : List (List Char)} (h : cs.splitOn '.' = first :: rest) :
    joined first rest = cs := by
  have hjoin : ['.'].intercalate (first :: rest) = joined first rest := by
    clear h
    induction rest generalizing first with
    | nil => simp [joined]
    | cons second rest ih => rw [List.intercalate_cons_cons, ih, joined_cons, List.append_assoc]; rfl
  rw [← hjoin, ← h, List.intercalate_splitOn]

theorem isDotted_iff {name : String} {first : List Char} {rest : List (List Char)}
    (h : name.toList.splitOn '.' = first :: rest) :
    IsDotted name ↔ IsSegment first ∧ (∀ s ∈ rest, IsSegment s) ∧ rest ≠ [] := by
  have hparts : parts name = first :: rest := h
  rw [← List.length_pos_iff]
  constructor
  · rintro ⟨htwo, hsegment⟩
    rw [hparts, List.length_cons] at htwo
    rw [hparts, List.forall_mem_cons] at hsegment
    exact ⟨hsegment.1, hsegment.2, by omega⟩
  · rintro ⟨hfirst, hrest, hne⟩
    refine ⟨?_, ?_⟩
    · rw [hparts, List.length_cons]
      omega
    · rw [hparts, List.forall_mem_cons]
      exact ⟨hfirst, hrest⟩

/-! ## The reader -/

/-- **What is left to read after a segment's first letter**: the rest of the segment and further segments, of which
there has to be one unless a dot came before. -/
theorem continues_iff {dotted : Bool} {cs first : List Char} {rest : List (List Char)}
    (h : cs.splitOn '.' = first :: rest) :
    continues dotted cs = true ↔
      (∀ c ∈ first, IsPlain c) ∧ (∀ s ∈ rest, IsSegment s) ∧ (dotted = true ∨ rest ≠ []) := by
  induction dotted, cs using continues.induct generalizing first rest with
  | case1 dotted =>
    rw [List.splitOn_nil, List.cons.injEq] at h
    obtain ⟨rfl, rfl⟩ := h
    simp [continues]
  | case2 dotted c =>
    by_cases hc : c = '.'
    · -- a dot at the end leaves an empty part, and is no letter
      subst hc
      rw [splitOn_dot, List.splitOn_nil, List.cons.injEq] at h
      obtain ⟨rfl, rfl⟩ := h
      simp [continues, not_isSegment_nil]
    · rw [splitOn_cons_of_ne hc (List.splitOn_nil '.'), List.cons.injEq] at h
      obtain ⟨rfl, rfl⟩ := h
      simp [continues, isAlphanum_iff]
  | case3 dotted d cs ih =>
    rw [splitOn_dot, List.cons.injEq] at h
    obtain ⟨rfl, rfl⟩ := h
    rw [continues, if_pos rfl, Bool.and_eq_true]
    by_cases hd : d = '.'
    · -- so does a doubled dot
      subst hd
      simp [splitOn_dot, not_isSegment_nil]
    · obtain ⟨first, rest, hcs⟩ := exists_splitOn cs
      rw [splitOn_cons_of_ne hd hcs, isUpper_iff, ih hcs, List.forall_mem_cons, isSegment_cons_iff]
      simp [and_assoc]
  | case4 dotted c d cs hc ih =>
    obtain ⟨first', rest', hcs⟩ := exists_splitOn (d :: cs)
    rw [splitOn_cons_of_ne hc hcs, List.cons.injEq] at h
    obtain ⟨rfl, rfl⟩ := h
    rw [continues, if_neg hc, Bool.and_eq_true, isAlphanum_iff, ih hcs, List.forall_mem_cons, and_assoc]

theorem isValidChars_iff {cs first : List Char} {rest : List (List Char)} (h : cs.splitOn '.' = first :: rest) :
    isValidChars cs = true ↔ IsSegment first ∧ (∀ s ∈ rest, IsSegment s) ∧ rest ≠ [] := by
  cases cs with
  | nil =>
    rw [List.splitOn_nil, List.cons.injEq] at h
    obtain ⟨rfl, rfl⟩ := h
    simp [isValidChars]
  | cons c cs =>
    rw [isValidChars, Bool.and_eq_true]
    by_cases hc : c = '.'
    · subst hc
      rw [splitOn_dot, List.cons.injEq] at h
      obtain ⟨rfl, -⟩ := h
      simp [not_isSegment_nil]
    · obtain ⟨first', rest', hcs⟩ := exists_splitOn cs
      rw [splitOn_cons_of_ne hc hcs, List.cons.injEq] at h
      obtain ⟨rfl, rfl⟩ := h
      rw [isUpper_iff, continues_iff hcs, isSegment_cons_iff, and_assoc]
      simp

theorem isValid_iff {name : String} : isValid name = true ↔ IsDotted name := by
  obtain ⟨first, rest, h⟩ := exists_splitOn name.toList
  rw [isValid, isValidChars_iff h, isDotted_iff h]

/-! ## The pattern -/

def between (first last : Char) : List Char :=
  (List.range' first.toNat (last.toNat + 1 - first.toNat)).map Char.ofNat

def oneOf (cs : List Char) : RegularExpression Char := (cs.map .char).foldr (· + ·) 0

/-- The expression `[A-Z][A-Za-z0-9]*`. -/
def segmentPattern : RegularExpression Char :=
  oneOf (between 'A' 'Z') * (oneOf (between 'A' 'Z' ++ between 'a' 'z' ++ between '0' '9')).star

/-- The expression `\.[A-Z][A-Za-z0-9]*`. -/
def dottedPattern : RegularExpression Char := .char '.' * segmentPattern

/-- The expression `^[A-Z][A-Za-z0-9]*(\.[A-Z][A-Za-z0-9]*)+$`. -/
def pattern : RegularExpression Char := segmentPattern * (dottedPattern * dottedPattern.star)

theorem mem_between {first last c : Char} (h : last.toNat < 0xD800) :
    c ∈ between first last ↔ first ≤ c ∧ c ≤ last := by
  have hle : ∀ {a b : Char}, a ≤ b ↔ a.toNat ≤ b.toNat := by
    intro a b
    rw [Char.le_def, UInt32.le_iff_toNat_le]
    rfl
  rw [between, List.mem_map, hle, hle]
  constructor
  · rintro ⟨n, hn, rfl⟩
    rw [List.mem_range'_1] at hn
    have hvalid : n.isValidChar := Or.inl (by omega)
    have hnat : (Char.ofNat n).toNat = n := by
      rw [Char.ofNat, dif_pos hvalid]
      rfl
    rw [hnat]
    omega
  · intro hc
    refine ⟨c.toNat, ?_, c.ofNat_toNat⟩
    rw [List.mem_range'_1]
    omega

theorem mem_oneOf {cs x : List Char} : x ∈ (oneOf cs).matches' ↔ ∃ c ∈ cs, x = [c] := by
  induction cs with
  | nil => simp [oneOf, Language.notMem_zero]
  | cons c cs ih =>
    have hstep : oneOf (c :: cs) = .char c + oneOf cs := rfl
    rw [hstep, RegularExpression.matches'_add, Language.mem_add, ih, List.exists_mem_cons_iff]
    rfl

theorem mem_star_oneOf {cs x : List Char} : x ∈ (oneOf cs).star.matches' ↔ ∀ c ∈ x, c ∈ cs := by
  rw [RegularExpression.matches'_star, Language.mem_kstar]
  constructor
  · rintro ⟨words, rfl, hwords⟩ c hc
    obtain ⟨word, hword, hc⟩ := List.mem_flatten.mp hc
    obtain ⟨d, hd, rfl⟩ := mem_oneOf.mp (hwords word hword)
    rwa [List.mem_singleton.mp hc]
  · intro hx
    refine ⟨x.map ([·]), by rw [← List.flatMap_def, List.flatMap_singleton'], ?_⟩
    intro word hword
    obtain ⟨c, hc, rfl⟩ := List.mem_map.mp hword
    exact mem_oneOf.mpr ⟨c, hx c hc, rfl⟩

theorem mem_segmentPattern {x : List Char} : x ∈ segmentPattern.matches' ↔ IsSegment x := by
  have hcapital : ∀ {c : Char}, c ∈ between 'A' 'Z' ↔ IsCapital c := mem_between (by decide)
  have hplain : ∀ {c : Char}, c ∈ between 'A' 'Z' ++ between 'a' 'z' ++ between '0' '9' ↔ IsPlain c := by
    intro c
    rw [List.mem_append, List.mem_append, hcapital, mem_between (by decide), mem_between (by decide), or_assoc]
    rfl
  rw [segmentPattern, RegularExpression.matches'_mul, Language.mem_mul]
  constructor
  · rintro ⟨front, hfront, tail, htail, rfl⟩
    obtain ⟨c, hc, rfl⟩ := mem_oneOf.mp hfront
    exact .cons (hcapital.mp hc) fun d hd => hplain.mp (mem_star_oneOf.mp htail d hd)
  · rintro @⟨c, cs, hc, hcs⟩
    exact ⟨[c], mem_oneOf.mpr ⟨c, hcapital.mpr hc, rfl⟩, cs, mem_star_oneOf.mpr fun d hd => hplain.mpr (hcs d hd), rfl⟩

theorem mem_dottedPattern {x : List Char} : x ∈ dottedPattern.matches' ↔ ∃ s, IsSegment s ∧ x = '.' :: s := by
  rw [dottedPattern, RegularExpression.matches'_mul, Language.mem_mul]
  constructor
  · rintro ⟨dot, rfl, s, hs, rfl⟩
    exact ⟨s, mem_segmentPattern.mp hs, rfl⟩
  · rintro ⟨s, hs, rfl⟩
    exact ⟨['.'], rfl, s, mem_segmentPattern.mpr hs, rfl⟩

/-- Each round of the star is one more segment, with the dot in front of it. -/
theorem mem_star_dottedPattern {x : List Char} :
    x ∈ dottedPattern.star.matches' ↔ ∃ rest, (∀ s ∈ rest, IsSegment s) ∧ x = joined [] rest := by
  rw [RegularExpression.matches'_star, Language.mem_kstar]
  constructor
  · rintro ⟨words, rfl, hwords⟩
    induction words with
    | nil => exact ⟨[], by simp, rfl⟩
    | cons word words ih =>
      rw [List.forall_mem_cons] at hwords
      obtain ⟨s, hs, rfl⟩ := mem_dottedPattern.mp hwords.1
      obtain ⟨rest, hrest, hx⟩ := ih hwords.2
      refine ⟨s :: rest, List.forall_mem_cons.mpr ⟨hs, hrest⟩, ?_⟩
      rw [List.flatten_cons, hx]
      simp [joined]
  · rintro ⟨rest, hrest, rfl⟩
    refine ⟨rest.map ('.' :: ·), by simp [joined, List.flatMap_def], ?_⟩
    intro word hword
    obtain ⟨s, hs, rfl⟩ := List.mem_map.mp hword
    exact mem_dottedPattern.mpr ⟨s, hrest s hs, rfl⟩

/-- **What the pattern matches**: two or more segments joined by dots. -/
theorem mem_pattern_iff {cs : List Char} :
    cs ∈ pattern.matches' ↔
      ∃ first rest, IsSegment first ∧ (∀ s ∈ rest, IsSegment s) ∧ rest ≠ [] ∧ cs = joined first rest := by
  rw [pattern, RegularExpression.matches'_mul, RegularExpression.matches'_mul, Language.mem_mul]
  constructor
  · rintro ⟨first, hfirst, tail, htail, rfl⟩
    obtain ⟨dotted, hdotted, more, hmore, rfl⟩ := Language.mem_mul.mp htail
    obtain ⟨second, hsecond, rfl⟩ := mem_dottedPattern.mp hdotted
    obtain ⟨rest, hrest, rfl⟩ := mem_star_dottedPattern.mp hmore
    refine ⟨first, second :: rest, mem_segmentPattern.mp hfirst, ?_, List.cons_ne_nil _ _, ?_⟩
    · exact List.forall_mem_cons.mpr ⟨hsecond, hrest⟩
    · simp [joined]
  · rintro ⟨first, rest, hfirst, hrest, hne, rfl⟩
    obtain ⟨second, rest, rfl⟩ := List.exists_cons_of_ne_nil hne
    rw [List.forall_mem_cons] at hrest
    refine ⟨first, mem_segmentPattern.mpr hfirst, '.' :: second ++ joined [] rest, ?_, by simp [joined]⟩
    refine Language.mem_mul.mpr ⟨'.' :: second, mem_dottedPattern.mpr ⟨second, hrest.1, rfl⟩, joined [] rest, ?_, rfl⟩
    exact mem_star_dottedPattern.mpr ⟨rest, hrest.2, rfl⟩

theorem mem_pattern_iff_isDotted {name : String} : name.toList ∈ pattern.matches' ↔ IsDotted name := by
  obtain ⟨first, rest, h⟩ := exists_splitOn name.toList
  rw [mem_pattern_iff, isDotted_iff h]
  constructor
  · -- the segments of a match are the parts of the text, as none of them has a dot to be cut at
    rintro ⟨first', rest', hfirst, hrest, hne, hcs⟩
    rw [hcs, splitOn_joined hfirst.dot_not_mem fun s hs => (hrest s hs).dot_not_mem, List.cons.injEq] at h
    obtain ⟨rfl, rfl⟩ := h
    exact ⟨hfirst, hrest, hne⟩
  · rintro ⟨hfirst, hrest, hne⟩
    exact ⟨first, rest, hfirst, hrest, hne, (joined_splitOn h).symm⟩

/-! ## Accepted names -/

theorem privilegeNameFault_eq_none_iff {name : String} :
    Operation.privilegeNameFault? name = none ↔ IsDotted name := by
  rw [← isValid_iff, Operation.privilegeNameFault?]
  cases isValid name <;> simp

/-- A name consists of its letters and digits and of the dots. -/
theorem IsDotted.eq_dot_or_isPlain {name : String} (h : IsDotted name) {c : Char} (hc : c ∈ name.toList) :
    c = '.' ∨ IsPlain c := by
  obtain ⟨first, rest, hsplit⟩ := exists_splitOn name.toList
  obtain ⟨hfirst, hrest, -⟩ := (isDotted_iff hsplit).mp h
  rw [← joined_splitOn hsplit, joined, List.mem_append, List.mem_flatMap] at hc
  rcases hc with hc | ⟨s, hs, hc⟩
  · exact Or.inr (hfirst.isPlain c hc)
  · rcases List.mem_cons.mp hc with rfl | hc
    · exact Or.inl rfl
    · exact Or.inr ((hrest s hs).isPlain c hc)

theorem IsPlain.toNat {c : Char} (h : IsPlain c) :
    65 ≤ c.toNat ∧ c.toNat ≤ 90 ∨ 97 ≤ c.toNat ∧ c.toNat ≤ 122 ∨ 48 ≤ c.toNat ∧ c.toNat ≤ 57 := h

theorem isBlankChar_of_isPlain {c : Char} (h : IsPlain c) : Text.isBlankChar c = false := by
  have hcode := h.toNat
  rw [Bool.eq_false_iff]
  intro hblank
  simp [Text.isBlankChar, Text.whiteSpaceRanges] at hblank
  omega

theorem IsDotted.joined {name other : String} (hname : IsDotted name) (hother : IsDotted other) :
    IsDotted (name ++ "." ++ other) := by
  have hparts : parts (name ++ "." ++ other) = parts name ++ parts other := by
    rw [parts, String.toList_append, String.toList_append, List.append_assoc]
    exact List.splitOn_append_cons_self _ _
  have htwo := hname.two_le
  refine ⟨?_, ?_⟩
  · rw [hparts, List.length_append]
    omega
  · rw [hparts, List.forall_mem_append]
    exact ⟨hname.segment, hother.segment⟩

/-- **Reader, pattern and parts agree on every text.**  So an accepted name has no empty part, no blank, no line end, also
not at the end, and no character beyond ASCII, and a dot between two accepted names makes an accepted name. -/
theorem names_obey_grammar :
    (∀ name : String, Operation.privilegeNameFault? name = none ↔ IsDotted name) ∧
    (∀ name : String, Operation.privilegeNameFault? name = none ↔ name.toList ∈ pattern.matches') ∧
    (∀ name : String, Operation.privilegeNameFault? name = none →
      [] ∉ parts name ∧ ∀ c ∈ name.toList, Text.isBlankChar c = false ∧ c ≠ '\n' ∧ c.toNat < 128) ∧
    ∀ name other : String, Operation.privilegeNameFault? name = none → Operation.privilegeNameFault? other = none →
      Operation.privilegeNameFault? (name ++ "." ++ other) = none := by
  refine ⟨fun name => privilegeNameFault_eq_none_iff, fun name => ?_, fun name h => ?_, fun name other hname hother => ?_⟩
  · rw [privilegeNameFault_eq_none_iff, mem_pattern_iff_isDotted]
  · rw [privilegeNameFault_eq_none_iff] at h
    refine ⟨fun hempty => not_isSegment_nil (h.segment [] hempty), fun c hc => ?_⟩
    rcases h.eq_dot_or_isPlain hc with rfl | hplain
    · decide
    · have hcode := hplain.toNat
      refine ⟨isBlankChar_of_isPlain hplain, ?_, by omega⟩
      rintro rfl
      exact absurd hcode (by decide)
  · rw [privilegeNameFault_eq_none_iff] at hname hother ⊢
    exact hname.joined hother

/-- Two names, and the name of four segments that a dot between them makes. -/
theorem names_obey_grammar_node :
    Operation.privilegeNameFault? "Node.Console2" = none ∧ Operation.privilegeNameFault? "ACE.A" = none ∧
    Operation.privilegeNameFault? "Node.Console2.ACE.A" = none ∧
    (∀ c ∈ "Node.Console2.ACE.A".toList, Text.isBlankChar c = false ∧ c ≠ '\n' ∧ c.toNat < 128) := by
  obtain ⟨-, -, hclean, hjoin⟩ := names_obey_grammar
  have hnode : Operation.privilegeNameFault? "Node.Console2" = none := by decide
  have hace : Operation.privilegeNameFault? "ACE.A" = none := by decide
  have hboth := hjoin "Node.Console2" "ACE.A" hnode hace
  exact ⟨hnode, hace, hboth, (hclean _ hboth).2⟩

end ResourceAccess.PrivilegeName
