/-!
# Stable sorting

Insertion sort. Of two items that may stand in either order the earlier one stays in front.

* `sorted_perm`: sorting moves items and neither adds nor drops any
* `sorted_pairwise`: what is sorted by a total order is in order
* `thenBy_iff`: a key comes first, and a second order decides between items of one key
-/

namespace ResourceAccess

variable {α : Type} {le : α → α → Bool}

/-- Puts an item in front of the first one that it may precede. -/
def placed (le : α → α → Bool) (a : α) : List α → List α
  | [] => [a]
  | b :: rest => if le a b then a :: b :: rest else b :: placed le a rest

def sorted (le : α → α → Bool) : List α → List α
  | [] => []
  | a :: rest => placed le a (sorted le rest)

theorem placed_perm (a : α) (items : List α) : (placed le a items).Perm (a :: items) := by
  induction items with
  | nil => exact .refl _
  | cons b rest ih =>
    simp only [placed]
    split
    · exact .refl _
    · exact (ih.cons b).trans (.swap a b rest)

theorem sorted_perm (items : List α) : (sorted le items).Perm items := by
  induction items with
  | nil => exact .refl _
  | cons a rest ih => exact (placed_perm a _).trans (ih.cons a)

theorem mem_sorted {a : α} {items : List α} : a ∈ sorted le items ↔ a ∈ items :=
  (sorted_perm items).mem_iff

theorem placed_pairwise (htrans : ∀ a b c, le a b → le b c → le a c) (htotal : ∀ a b, le a b ∨ le b a)
    (a : α) {items : List α} (h : items.Pairwise (le · ·)) : (placed le a items).Pairwise (le · ·) := by
  induction items with
  | nil => simp [placed]
  | cons b rest ih =>
    obtain ⟨hb, hrest⟩ := List.pairwise_cons.mp h
    simp only [placed]
    split
    · rename_i hab
      refine List.pairwise_cons.mpr ⟨fun c hc => ?_, h⟩
      rcases List.mem_cons.mp hc with rfl | hc
      · exact hab
      · exact htrans a b c hab (hb c hc)
    · rename_i hab
      refine List.pairwise_cons.mpr ⟨fun c hc => ?_, ih hrest⟩
      rcases List.mem_cons.mp ((placed_perm a rest).mem_iff.mp hc) with rfl | hc
      · exact (htotal b c).resolve_right hab
      · exact hb c hc

theorem sorted_pairwise (htrans : ∀ a b c, le a b → le b c → le a c) (htotal : ∀ a b, le a b ∨ le b a)
    (items : List α) : (sorted le items).Pairwise (le · ·) := by
  induction items with
  | nil => exact .nil
  | cons a rest ih => exact placed_pairwise htrans htotal a ih

section Keys

variable {κ : Type} [DecidableEq κ] [LE κ] [DecidableLE κ] {key : α → κ} {tie : α → α → Bool}

/-- The order by a key in which a second order decides between items of one key. -/
def thenBy (key : α → κ) (tie : α → α → Bool) (a b : α) : Bool :=
  if key a = key b then tie a b else decide (key a ≤ key b)

theorem thenBy_iff [Std.IsLinearOrder κ] {a b : α} :
    thenBy key tie a b = true ↔ key a ≤ key b ∧ (key a = key b → tie a b = true) := by
  unfold thenBy
  split
  · rename_i heq
    simp [heq, Std.le_refl]
  · rename_i hne
    simp [hne]

theorem thenBy_trans [Std.IsLinearOrder κ] (htrans : ∀ a b c, tie a b → tie b c → tie a c) (a b c : α)
    (hab : thenBy key tie a b = true) (hbc : thenBy key tie b c = true) : thenBy key tie a c = true := by
  obtain ⟨hleab, htieab⟩ := thenBy_iff.mp hab
  obtain ⟨hlebc, htiebc⟩ := thenBy_iff.mp hbc
  refine thenBy_iff.mpr ⟨Std.le_trans hleab hlebc, fun hac => ?_⟩
  -- between two items of one key there are only items of that key
  have hba : key a = key b := Std.le_antisymm hleab (hac ▸ hlebc)
  exact htrans a b c (htieab hba) (htiebc (hba.symm.trans hac))

theorem thenBy_total [Std.IsLinearOrder κ] (htotal : ∀ a b, tie a b ∨ tie b a) (a b : α) :
    thenBy key tie a b = true ∨ thenBy key tie b a = true := by
  by_cases heq : key a = key b
  · simpa [thenBy, heq] using htotal a b
  · simpa [thenBy, heq, Ne.symm heq] using Std.le_total

theorem sorted_thenBy_pairwise [Std.IsLinearOrder κ] {ι : Type} [LE ι] [DecidableLE ι] [Std.IsLinearOrder ι]
    (key : α → κ) (second : α → ι) (items : List α) :
    (sorted (thenBy key fun a b => decide (second a ≤ second b)) items).Pairwise fun a b =>
      key a ≤ key b ∧ (key a = key b → second a ≤ second b) := by
  have htrans : ∀ a b c, decide (second a ≤ second b) = true → decide (second b ≤ second c) = true →
      decide (second a ≤ second c) = true := by
    intro a b c hab hbc
    exact decide_eq_true (Std.le_trans (of_decide_eq_true hab) (of_decide_eq_true hbc))
  have htotal : ∀ a b, decide (second a ≤ second b) = true ∨ decide (second b ≤ second a) = true := by
    intro a b
    simpa using Std.le_total
  refine (sorted_pairwise (thenBy_trans htrans) (thenBy_total htotal) items).imp fun h => ?_
  simpa using thenBy_iff.mp h

end Keys

def sortedBy (key : α → String) (items : List α) : List α :=
  sorted (fun a b => decide (key a ≤ key b)) items

theorem sortedBy_perm (key : α → String) (items : List α) : (sortedBy key items).Perm items :=
  sorted_perm items

theorem sortedBy_pairwise (key : α → String) (items : List α) :
    (sortedBy key items).Pairwise fun a b => key a ≤ key b := by
  have := @sorted_pairwise α (fun a b => decide (key a ≤ key b))
    (fun a b c hab hbc => by simpa using String.le_trans (by simpa using hab) (by simpa using hbc))
    (fun a b => by simpa using String.le_total (key a) (key b)) items
  simpa [sortedBy] using this

end ResourceAccess
