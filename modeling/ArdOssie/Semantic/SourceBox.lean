import Mathlib.Algebra.Order.Field.Basic
import Mathlib.Algebra.Order.Field.Rat
import Mathlib.Tactic.Linarith

/-!
# Source boxes

A source box is an axis-parallel rectangle of a page, in page coordinates between `0` and `1`.
-/

namespace ArdOssie

/-- A rectangle on a page. -/
structure SourceBox where
  left : ℚ
  bottom : ℚ
  right : ℚ
  top : ℚ
  left_nonneg : 0 ≤ left
  bottom_nonneg : 0 ≤ bottom
  right_le_one : right ≤ 1
  top_le_one : top ≤ 1
  left_le_right : left ≤ right
  bottom_le_top : bottom ≤ top
  deriving DecidableEq

namespace SourceBox

variable {a b : SourceBox}

@[ext] theorem ext' (hl : a.left = b.left) (hb : a.bottom = b.bottom) (hr : a.right = b.right)
    (ht : a.top = b.top) : a = b := by
  cases a; cases b; simp_all

/-- The open rectangles of two boxes meet. -/
def Overlaps (a b : SourceBox) : Prop :=
  (a.left < b.right ∧ b.left < a.right) ∧ a.bottom < b.top ∧ b.bottom < a.top

instance : Decidable (Overlaps a b) := inferInstanceAs (Decidable (_ ∧ _))

theorem Overlaps.symm (h : Overlaps a b) : Overlaps b a := ⟨⟨h.1.2, h.1.1⟩, h.2.2, h.2.1⟩

end SourceBox

/-- The whole page. -/
def SourceBox.page : SourceBox where
  left := 0
  bottom := 0
  right := 1
  top := 1
  left_nonneg := le_rfl
  bottom_nonneg := le_rfl
  right_le_one := le_rfl
  top_le_one := le_rfl
  left_le_right := zero_le_one
  bottom_le_top := zero_le_one

/-- `_box_coordinates` -/
def boxCoordinates (box : SourceBox) : ℚ × ℚ × ℚ × ℚ := (box.left, box.bottom, box.right, box.top)

/-- `_box_is_degenerate` -/
def boxIsDegenerate (box : SourceBox) : Bool := decide (box.left = box.right ∨ box.bottom = box.top)

/-- `_box_overlap_score`: the share of the smaller box that lies in the other one. -/
def boxOverlapScore (first second : SourceBox) : ℚ :=
  let intersectionWidth := max 0 (min first.right second.right - max first.left second.left)
  let intersectionHeight := max 0 (min first.top second.top - max first.bottom second.bottom)
  let intersection := intersectionWidth * intersectionHeight
  let firstArea := (first.right - first.left) * (first.top - first.bottom)
  let secondArea := (second.right - second.left) * (second.top - second.bottom)
  let smallerArea := min firstArea secondArea
  if smallerArea ≤ 0 then if first = second then 1 else 0
  else intersection / smallerArea

/-- `_boxes_overlap` -/
def boxesOverlap (first second : SourceBox) : Bool := decide (0 < boxOverlapScore first second)

/-- The smallest box around two boxes. -/
def SourceBox.join (a b : SourceBox) : SourceBox where
  left := min a.left b.left
  bottom := min a.bottom b.bottom
  right := max a.right b.right
  top := max a.top b.top
  left_nonneg := le_min a.left_nonneg b.left_nonneg
  bottom_nonneg := le_min a.bottom_nonneg b.bottom_nonneg
  right_le_one := max_le a.right_le_one b.right_le_one
  top_le_one := max_le a.top_le_one b.top_le_one
  left_le_right := (min_le_left _ _).trans (a.left_le_right.trans (le_max_left _ _))
  bottom_le_top := (min_le_left _ _).trans (a.bottom_le_top.trans (le_max_left _ _))

/-- `_union_boxes`: the smallest box around a nonempty list of boxes. -/
def unionBoxes : List SourceBox → Option SourceBox
  | [] => none
  | box :: boxes => some (boxes.foldl SourceBox.join box)

section Overlap

variable {a b : SourceBox}

theorem boxCoordinates_inj : boxCoordinates a = boxCoordinates b ↔ a = b := by
  constructor
  · intro h
    simp only [boxCoordinates, Prod.mk.injEq] at h
    exact SourceBox.ext' h.1 h.2.1 h.2.2.1 h.2.2.2
  · rintro rfl; rfl

/-- A box is degenerate when it has no area. -/
theorem boxIsDegenerate_eq_false :
    boxIsDegenerate a = false ↔ a.left < a.right ∧ a.bottom < a.top := by
  simp only [boxIsDegenerate, decide_eq_false_iff_not, not_or]
  constructor
  · rintro ⟨h1, h2⟩
    exact ⟨lt_of_le_of_ne a.left_le_right h1, lt_of_le_of_ne a.bottom_le_top h2⟩
  · rintro ⟨h1, h2⟩
    exact ⟨h1.ne, h2.ne⟩

private theorem area_pos : 0 < (a.right - a.left) * (a.top - a.bottom) ↔ boxIsDegenerate a = false := by
  rw [boxIsDegenerate_eq_false]
  constructor
  · intro h
    rcases mul_pos_iff.1 h with ⟨h1, h2⟩ | ⟨h1, -⟩
    · exact ⟨sub_pos.1 h1, sub_pos.1 h2⟩
    · exact absurd (sub_nonneg.2 a.left_le_right) (not_le.2 h1)
  · rintro ⟨h1, h2⟩
    exact mul_pos (sub_pos.2 h1) (sub_pos.2 h2)

private theorem smallerArea_nonpos :
    min ((a.right - a.left) * (a.top - a.bottom)) ((b.right - b.left) * (b.top - b.bottom)) ≤ 0 ↔
      boxIsDegenerate a = true ∨ boxIsDegenerate b = true := by
  rw [← not_lt, lt_min_iff, area_pos, area_pos]
  cases boxIsDegenerate a <;> cases boxIsDegenerate b <;> simp

/-- A degenerate box overlaps itself only. -/
theorem boxesOverlap_of_degenerate (h : boxIsDegenerate a = true ∨ boxIsDegenerate b = true) :
    boxesOverlap a b = true ↔ a = b := by
  simp only [boxesOverlap, boxOverlapScore, smallerArea_nonpos.2 h, ↓reduceIte, decide_eq_true_eq]
  by_cases hab : a = b <;> simp [hab]

/-- Two boxes with an area overlap when their open rectangles meet. -/
theorem boxesOverlap_of_proper (ha : boxIsDegenerate a = false) (hb : boxIsDegenerate b = false) :
    boxesOverlap a b = true ↔ a.Overlaps b := by
  have hs : ¬ min ((a.right - a.left) * (a.top - a.bottom)) ((b.right - b.left) * (b.top - b.bottom)) ≤ 0 := by
    rw [smallerArea_nonpos]; simp [ha, hb]
  simp only [boxesOverlap, boxOverlapScore, hs, ↓reduceIte, decide_eq_true_eq]
  rw [div_pos_iff_of_pos_right (not_le.1 hs)]
  rw [boxIsDegenerate_eq_false] at ha hb
  have hw : 0 < max 0 (min a.right b.right - max a.left b.left) ↔ a.left < b.right ∧ b.left < a.right := by
    simp [ha.1, hb.1]
  have hh : 0 < max 0 (min a.top b.top - max a.bottom b.bottom) ↔ a.bottom < b.top ∧ b.bottom < a.top := by
    simp [ha.2, hb.2]
  rw [SourceBox.Overlaps, ← hw, ← hh]
  constructor
  · intro h
    have h1 := le_max_left 0 (min a.right b.right - max a.left b.left)
    exact ⟨pos_of_mul_pos_left h (le_max_left _ _), pos_of_mul_pos_right h h1⟩
  · rintro ⟨h1, h2⟩
    exact mul_pos h1 h2

/-- `_boxes_overlap` is symmetric. -/
theorem boxesOverlap_comm (a b : SourceBox) : boxesOverlap a b = boxesOverlap b a := by
  rw [Bool.eq_iff_iff]
  by_cases h : boxIsDegenerate a = true ∨ boxIsDegenerate b = true
  · rw [boxesOverlap_of_degenerate h, boxesOverlap_of_degenerate h.symm, eq_comm]
  · simp only [not_or, Bool.not_eq_true] at h
    rw [boxesOverlap_of_proper h.1 h.2, boxesOverlap_of_proper h.2 h.1]
    exact ⟨SourceBox.Overlaps.symm, SourceBox.Overlaps.symm⟩

end Overlap

end ArdOssie
