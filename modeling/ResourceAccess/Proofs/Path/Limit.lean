import ResourceAccess.Operation

/-!
# The limit on stored paths

`Fault.tooLong` words the limit in characters, and `Path.fault?` counts bytes.  A character takes up to four bytes, and
a single one only in ASCII.  So the wording and the check part on the texts that hold few enough characters in too many
bytes, and nowhere else: the wording lets these through, the check refuses them.

* `byteLength_eq`: the bytes that are counted are those of the text's UTF-8
* `MeetsWording`: what the wordings of the four faults ask of a text
* `limit_as_worded_iff`: **which texts the check treats as it words the limit**
* `accented_not_as_worded`: a slash and 512 accented letters are within the limit as it is worded, and are refused
-/

namespace ResourceAccess

namespace Path

/-! ## Bytes and characters -/

theorem byteLength_cons (c : Char) (cs : List Char) : byteLength ⟨c :: cs⟩ = c.utf8Size + byteLength ⟨cs⟩ := rfl

theorem byteLength_eq (s : String) : (ofString s).byteLength = s.utf8ByteSize := by
  have hchars : ∀ cs : List Char, byteLength ⟨cs⟩ = (String.ofList cs).utf8ByteSize := by
    intro cs
    induction cs with
    | nil => rfl
    | cons c cs ih =>
      rw [byteLength_cons, ih, String.ofList_cons, String.utf8ByteSize_append, String.utf8ByteSize_singleton]
  rw [ofString, hchars, String.ofList_toList]

theorem byteLength_le (cs : List Char) : byteLength ⟨cs⟩ ≤ 4 * cs.length := by
  induction cs with
  | nil => exact Nat.zero_le _
  | cons c cs ih =>
    have hsize := c.utf8Size_le_four
    rw [byteLength_cons, List.length_cons]
    omega

theorem byteLength_of_ascii {cs : List Char} (h : ∀ c ∈ cs, c.toNat < 128) : byteLength ⟨cs⟩ = cs.length := by
  induction cs with
  | nil => rfl
  | cons c cs ih =>
    have hc : c.toNat < 128 := h c List.mem_cons_self
    have hsize : c.utf8Size = 1 := Char.utf8Size_eq_one_iff.mpr (UInt32.le_iff_toNat_le.mpr (Nat.le_of_lt_succ hc))
    rw [byteLength_cons, hsize, ih fun d hd => h d (List.mem_cons_of_mem c hd), List.length_cons, Nat.add_comm]

theorem length_le_byteLength (cs : List Char) : cs.length ≤ byteLength ⟨cs⟩ := by
  induction cs with
  | nil => exact Nat.zero_le _
  | cons c cs ih =>
    have hsize := c.utf8Size_pos
    rw [byteLength_cons, List.length_cons]
    omega

/-! ## The wording and the check -/

/-- What the wordings of the faults ask of a text. -/
structure MeetsWording (s : String) : Prop where
  rooted : s.toList.head? = some '/'
  short : s.length ≤ maxLength
  plain : ∀ c ∈ s.toList, isControl c = false

/-- A text as the wordings ask for, in too many bytes. -/
structure Overflows (s : String) : Prop extends MeetsWording s where
  long : maxLength < s.utf8ByteSize

theorem fault_ofString_eq_none_iff {s : String} :
    (ofString s).fault? = none ↔ MeetsWording s ∧ s.utf8ByteSize ≤ maxLength := by
  have hbytes := byteLength_eq s
  have hlength := length_le_byteLength s.toList
  rw [fault_eq_none_iff, hbytes, isRooted, beq_iff_eq]
  constructor
  · rintro ⟨hrooted, hfits, hplain⟩
    refine ⟨⟨hrooted, ?_, hplain⟩, hfits⟩
    rw [← String.length_toList]
    exact Nat.le_trans hlength (hbytes ▸ hfits)
  · rintro ⟨hmeets, hfits⟩
    exact ⟨hmeets.rooted, hfits, hmeets.plain⟩

/-- Too many bytes are refused as too many characters. -/
theorem Overflows.fault {s : String} (h : Overflows s) : (ofString s).fault? = some .tooLong := by
  have hne : (ofString s).chars ≠ [] := by
    intro hnil
    have hhead := h.rooted
    rw [show s.toList = [] from hnil] at hhead
    exact absurd hhead (by simp)
  have hrooted : (ofString s).isRooted = true := beq_iff_eq.mpr h.rooted
  have hlong : maxLength < (ofString s).byteLength := (byteLength_eq s).symm ▸ h.long
  rw [fault?, if_neg hne, if_neg (by simp [hrooted]), if_pos hlong]

/-- ASCII alone, or a quarter of the limit, leaves no room for too many bytes. -/
theorem not_overflows {s : String} (h : (∀ c ∈ s.toList, c.toNat < 128) ∨ 4 * s.length ≤ maxLength) :
    ¬ Overflows s := by
  intro hover
  have hlong := hover.long
  rw [← byteLength_eq] at hlong
  rcases h with hascii | hquarter
  · have hshort := hover.short
    rw [ofString, byteLength_of_ascii hascii, String.length_toList] at hlong
    omega
  · have hle := byteLength_le s.toList
    rw [String.length_toList] at hle
    rw [ofString] at hlong
    omega

end Path

/-- The operation puts an entry at the path. -/
inductive Operation.Places : Operation → Path → Prop where
  | create (new : NewAce) : Places (.createAce new) new.path
  | update (id : Id) {update : AceUpdate} {path : Path} (h : update.path = some path) :
    Places (.updateAce id update) path

theorem Operation.Places.fault {op : Operation} {path : Path} (h : op.Places path) :
    op.fault? = path.fault?.map .path := by
  cases h with
  | create new => rfl
  | update id h => rw [Operation.fault?, h, Option.bind_some]

namespace Path

/-- **Which texts the check treats as it words the limit.**  It accepts what the wordings ask for in few enough bytes.
So it follows the wordings on all texts but those with few enough characters in too many bytes, which it refuses as too
long.  There are none of these among the ASCII texts, nor among the texts of a quarter of the limit.  What holds of the
check holds of every operation that puts an entry at a path. -/
theorem limit_as_worded_iff (s : String) :
    ((ofString s).fault? = none ↔ MeetsWording s ∧ s.utf8ByteSize ≤ maxLength) ∧
    (((ofString s).fault? = none ↔ MeetsWording s) ↔ ¬ Overflows s) ∧
    (Overflows s → (ofString s).fault? = some .tooLong) ∧
    ((∀ c ∈ s.toList, c.toNat < 128) ∨ 4 * s.length ≤ maxLength → ¬ Overflows s) ∧
    ∀ op : Operation, op.Places (ofString s) → op.fault? = (ofString s).fault?.map .path := by
  refine ⟨fault_ofString_eq_none_iff, ⟨fun h hover => ?_, fun hfits => ?_⟩, Overflows.fault, not_overflows,
    fun op => Operation.Places.fault⟩
  · have hnone := h.mpr hover.toMeetsWording
    rw [hover.fault] at hnone
    exact absurd hnone (by simp)
  · rw [fault_ofString_eq_none_iff]
    constructor
    · exact And.left
    · intro hmeets
      exact ⟨hmeets, Nat.le_of_not_lt fun hlong => hfits ⟨hmeets, hlong⟩⟩

/-! ## Accented letters -/

def accented (n : Nat) : String := String.ofList ('/' :: List.replicate n 'é')

theorem accented_length (n : Nat) : (accented n).length = n + 1 := by
  rw [accented, String.length_ofList, List.length_cons, List.length_replicate]

theorem accented_utf8ByteSize (n : Nat) : (accented n).utf8ByteSize = 2 * n + 1 := by
  have hletters : byteLength ⟨List.replicate n 'é'⟩ = 2 * n := by
    induction n with
    | zero => rfl
    | succ n ih =>
      have htwo : Char.utf8Size 'é' = 2 := by decide
      rw [List.replicate_succ, byteLength_cons, ih, htwo]
      omega
  have hslash : Char.utf8Size '/' = 1 := by decide
  rw [← byteLength_eq, accented, ofString, String.toList_ofList, byteLength_cons, hletters, hslash, Nat.add_comm]

/-- Within the limit as it is worded, from half of it on the bytes are too many. -/
theorem accented_overflows {n : Nat} (hhalf : maxLength ≤ 2 * n) (hshort : n < maxLength) : Overflows (accented n) := by
  refine ⟨⟨?_, ?_, ?_⟩, ?_⟩
  · rw [accented, String.toList_ofList, List.head?_cons]
  · rw [accented_length]
    exact hshort
  · intro c hc
    rw [accented, String.toList_ofList, List.mem_cons] at hc
    rcases hc with rfl | hc
    · decide
    · rw [List.eq_of_mem_replicate hc]
      decide
  · rw [accented_utf8ByteSize]
    omega

/-- A slash and 255 accented letters, a quarter of the limit. -/
theorem limit_as_worded_iff_accented :
    4 * (accented 255).length ≤ maxLength ∧ ((ofString (accented 255)).fault? = none ↔ MeetsWording (accented 255)) ∧
    (Operation.createAce (.forUser (ofString (accented 255)) (.issue .user 1) (.issue .role 1))).fault? =
      (ofString (accented 255)).fault?.map .path := by
  obtain ⟨-, hworded, -, hquarter, hplaces⟩ := limit_as_worded_iff (accented 255)
  have hlength : 4 * (accented 255).length ≤ maxLength := by rw [accented_length]; decide
  refine ⟨hlength, hworded.mpr (hquarter (Or.inr hlength)), ?_⟩
  exact hplaces _ (.create (.forUser (ofString (accented 255)) (.issue .user 1) (.issue .role 1)))

/-- A slash and 512 accented letters are 513 characters and nothing else is wrong with them, and they are refused for
being more than 1024. -/
theorem accented_not_as_worded :
    (accented 512).length = 513 ∧ MeetsWording (accented 512) ∧
    (ofString (accented 512)).fault? = some .tooLong ∧
    Fault.tooLong.message = "path must be 1024 characters or less" ∧
    ¬ ((ofString (accented 512)).fault? = none ↔ MeetsWording (accented 512)) := by
  have hover : Overflows (accented 512) := accented_overflows (by decide) (by decide)
  refine ⟨accented_length 512, hover.toMeetsWording, hover.fault, by decide, fun h => ?_⟩
  have hnone := h.mpr hover.toMeetsWording
  rw [hover.fault] at hnone
  exact absurd hnone (by simp)

end Path

end ResourceAccess
