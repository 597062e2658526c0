import ArdOssie.Library.Lists
import Mathlib.Order.MinMax
import Mathlib.Tactic.Common

/-!
# Merging closed intervals

Intervals sorted by their start are merged when they share a point.  The result covers the same points with separated
intervals, and every interval lies inside one of the result.  Over the natural numbers, separated intervals that
cover `0, …, n - 1` cut a list of length `n` into consecutive pieces.
-/

namespace ArdOssie.Intervals

section Merge

variable {α : Type} [LinearOrder α]

/-- Merge the intervals that begin inside the current one; the others begin a new one. -/
def mergeFrom (current : α × α) : List (α × α) → List (α × α)
  | [] => [current]
  | next :: rest =>
    if next.1 ≤ current.2 then mergeFrom (current.1, max current.2 next.2) rest
    else current :: mergeFrom next rest

/-- Merge a list of intervals sorted by their start. -/
def mergeSorted : List (α × α) → List (α × α)
  | [] => []
  | current :: rest => mergeFrom current rest

/-- The point lies in one of the intervals. -/
def Covers (L : List (α × α)) (x : α) : Prop := ∃ p ∈ L, p.1 ≤ x ∧ x ≤ p.2

variable {current : α × α} {rest : List (α × α)}

private theorem mergeFrom_start_le (hs : ∀ p ∈ rest, current.1 ≤ p.1)
    (hsorted : rest.Pairwise fun p q => p.1 ≤ q.1) : ∀ p ∈ mergeFrom current rest, current.1 ≤ p.1 := by
  induction rest generalizing current with
  | nil => simp [mergeFrom]
  | cons next rest ih =>
    obtain ⟨hnext, hsorted⟩ := List.pairwise_cons.1 hsorted
    unfold mergeFrom
    split
    · exact ih (fun p hp => hs p (List.mem_cons_of_mem _ hp)) hsorted
    · intro p hp
      rcases List.mem_cons.1 hp with rfl | hp
      · exact le_rfl
      · exact (hs next (by simp)).trans (ih hnext hsorted p hp)

private theorem mergeFrom_valid (hc : current.1 ≤ current.2) (hv : ∀ p ∈ rest, p.1 ≤ p.2) :
    ∀ p ∈ mergeFrom current rest, p.1 ≤ p.2 := by
  induction rest generalizing current with
  | nil => simpa [mergeFrom] using hc
  | cons next rest ih =>
    have hv' : ∀ p ∈ rest, p.1 ≤ p.2 := fun p hp => hv p (List.mem_cons_of_mem _ hp)
    unfold mergeFrom
    split
    · exact ih (hc.trans (le_max_left _ _)) hv'
    · intro p hp
      rcases List.mem_cons.1 hp with rfl | hp
      · exact hc
      · exact ih (hv next (by simp)) hv' p hp

private theorem mergeFrom_separated (hsorted : rest.Pairwise fun p q => p.1 ≤ q.1) :
    (mergeFrom current rest).Pairwise fun p q => p.2 < q.1 := by
  induction rest generalizing current with
  | nil => simp [mergeFrom]
  | cons next rest ih =>
    obtain ⟨hnext, hsorted⟩ := List.pairwise_cons.1 hsorted
    unfold mergeFrom
    split
    · exact ih hsorted
    · rename_i hlt
      refine List.pairwise_cons.2 ⟨fun q hq => ?_, ih hsorted⟩
      exact (not_le.1 hlt).trans_le (mergeFrom_start_le hnext hsorted q hq)

private theorem mergeFrom_contains (hs : ∀ p ∈ rest, current.1 ≤ p.1)
    (hsorted : rest.Pairwise fun p q => p.1 ≤ q.1) :
    ∀ i ∈ current :: rest, ∃ p ∈ mergeFrom current rest, p.1 ≤ i.1 ∧ i.2 ≤ p.2 := by
  induction rest generalizing current with
  | nil => simp [mergeFrom]
  | cons next rest ih =>
    obtain ⟨hnext, hsorted⟩ := List.pairwise_cons.1 hsorted
    have hs' : ∀ p ∈ rest, current.1 ≤ p.1 := fun p hp => hs p (List.mem_cons_of_mem _ hp)
    unfold mergeFrom
    split
    · -- the current and the next interval lie inside the merged one
      have hmerged := @ih (current.1, max current.2 next.2) hs' hsorted
      obtain ⟨p, hp, h1, h2⟩ := hmerged (current.1, max current.2 next.2) (by simp)
      intro i hi
      rcases List.mem_cons.1 hi with rfl | hi
      · exact ⟨p, hp, h1, (le_max_left _ _).trans h2⟩
      rcases List.mem_cons.1 hi with rfl | hi
      · exact ⟨p, hp, h1.trans (hs i (by simp)), (le_max_right _ _).trans h2⟩
      · exact hmerged i (List.mem_cons_of_mem _ hi)
    · intro i hi
      rcases List.mem_cons.1 hi with rfl | hi
      · exact ⟨i, by simp, le_rfl, le_rfl⟩
      · obtain ⟨p, hp, h⟩ := ih hnext hsorted i hi
        exact ⟨p, List.mem_cons_of_mem _ hp, h⟩

private theorem mergeFrom_covered (hsorted : rest.Pairwise fun p q => p.1 ≤ q.1)
    (hs : ∀ p ∈ rest, current.1 ≤ p.1) {x : α} (h : Covers (mergeFrom current rest) x) :
    Covers (current :: rest) x := by
  induction rest generalizing current with
  | nil => simpa [mergeFrom] using h
  | cons next rest ih =>
    obtain ⟨hnext, hsorted⟩ := List.pairwise_cons.1 hsorted
    have hs' : ∀ p ∈ rest, current.1 ≤ p.1 := fun p hp => hs p (List.mem_cons_of_mem _ hp)
    unfold mergeFrom at h
    split at h
    · rename_i hle
      obtain ⟨p, hp, h1, h2⟩ := @ih (current.1, max current.2 next.2) hsorted hs' h
      rcases List.mem_cons.1 hp with rfl | hp
      · -- a point of the merged interval lies in the current or in the next one
        rcases le_or_gt x current.2 with hx | hx
        · exact ⟨current, by simp, h1, hx⟩
        · exact ⟨next, by simp, hle.trans hx.le, (le_max_iff.1 h2).resolve_left (not_le.2 hx)⟩
      · exact ⟨p, by simp [hp], h1, h2⟩
    · obtain ⟨p, hp, h1, h2⟩ := h
      rcases List.mem_cons.1 hp with rfl | hp
      · exact ⟨p, by simp, h1, h2⟩
      · obtain ⟨q, hq, h⟩ := ih hsorted hnext ⟨p, hp, h1, h2⟩
        exact ⟨q, List.mem_cons_of_mem _ hq, h⟩

variable {L : List (α × α)}

theorem mergeSorted_valid (hv : ∀ p ∈ L, p.1 ≤ p.2) : ∀ p ∈ mergeSorted L, p.1 ≤ p.2 := by
  cases L with
  | nil => simp [mergeSorted]
  | cons current rest =>
    exact mergeFrom_valid (hv current (by simp)) fun p hp => hv p (List.mem_cons_of_mem _ hp)

/-- The merged intervals are separated. -/
theorem mergeSorted_separated (hsorted : L.Pairwise fun p q => p.1 ≤ q.1) :
    (mergeSorted L).Pairwise fun p q => p.2 < q.1 := by
  cases L with
  | nil => simp [mergeSorted]
  | cons current rest => exact mergeFrom_separated (List.pairwise_cons.1 hsorted).2

/-- Every interval lies inside a merged one. -/
theorem mergeSorted_contains (hsorted : L.Pairwise fun p q => p.1 ≤ q.1) :
    ∀ i ∈ L, ∃ p ∈ mergeSorted L, p.1 ≤ i.1 ∧ i.2 ≤ p.2 := by
  cases L with
  | nil => simp
  | cons current rest =>
    obtain ⟨h, hsorted⟩ := List.pairwise_cons.1 hsorted
    exact mergeFrom_contains h hsorted

/-- Merging covers the same points. -/
theorem covers_mergeSorted (hsorted : L.Pairwise fun p q => p.1 ≤ q.1) {x : α} :
    Covers (mergeSorted L) x ↔ Covers L x := by
  constructor
  · cases L with
    | nil => simp [mergeSorted]
    | cons current rest =>
      obtain ⟨h, hsorted⟩ := List.pairwise_cons.1 hsorted
      exact mergeFrom_covered hsorted h
  · rintro ⟨i, hi, h1, h2⟩
    obtain ⟨p, hp, h3, h4⟩ := mergeSorted_contains hsorted i hi
    exact ⟨p, hp, h3.trans h1, h2.trans h4⟩

end Merge

/-! ### Intervals of natural numbers -/

/-- The intervals follow each other from `a` up to `n`. -/
def Tiles (n : ℕ) : ℕ → List (ℕ × ℕ) → Prop
  | a, [] => a = n
  | a, p :: rest => p.1 = a ∧ a ≤ p.2 ∧ Tiles n (p.2 + 1) rest

/-- Separated intervals that cover exactly the points from `a` to `n` follow each other. -/
theorem tiles_of_covers {n a : ℕ} {L : List (ℕ × ℕ)} (hv : ∀ p ∈ L, p.1 ≤ p.2)
    (hseparated : L.Pairwise fun p q => p.2 < q.1) (han : a ≤ n) (hcovers : ∀ x, Covers L x ↔ a ≤ x ∧ x < n) :
    Tiles n a L := by
  induction L generalizing a with
  | nil =>
    by_contra hne
    have hne : a ≠ n := hne
    obtain ⟨p, hp, -⟩ := (hcovers a).2 ⟨le_rfl, by omega⟩
    cases hp
  | cons p rest ih =>
    obtain ⟨hp, hseparated⟩ := List.pairwise_cons.1 hseparated
    have hpv := hv p (by simp)
    have hrest : ∀ q ∈ rest, q.1 ≤ q.2 := fun q hq => hv q (List.mem_cons_of_mem _ hq)
    obtain ⟨h1, -⟩ := (hcovers p.1).1 ⟨p, by simp, le_rfl, hpv⟩
    obtain ⟨-, h2⟩ := (hcovers p.2).1 ⟨p, by simp, hpv, le_rfl⟩
    have hstart : p.1 = a := by
      obtain ⟨q, hq, h3, h4⟩ := (hcovers a).2 ⟨le_rfl, by omega⟩
      rcases List.mem_cons.1 hq with rfl | hq
      · omega
      · have := hp q hq
        omega
    refine ⟨hstart, by omega, ih hrest hseparated (by omega) fun x => ⟨?_, ?_⟩⟩
    · rintro ⟨q, hq, h3, h4⟩
      have := hp q hq
      have := (hcovers x).1 ⟨q, List.mem_cons_of_mem _ hq, h3, h4⟩
      omega
    · rintro ⟨h3, h4⟩
      obtain ⟨q, hq, h5, h6⟩ := (hcovers x).2 ⟨by omega, h4⟩
      rcases List.mem_cons.1 hq with rfl | hq
      · omega
      · exact ⟨q, hq, h5, h6⟩

theorem Tiles.le {n a : ℕ} {L : List (ℕ × ℕ)} (h : Tiles n a L) : a ≤ n := by
  induction L generalizing a with
  | nil => exact le_of_eq h
  | cons p rest ih =>
    obtain ⟨-, h1, h2⟩ := h
    have := ih h2
    omega

theorem Tiles.bounds {n a : ℕ} {L : List (ℕ × ℕ)} (h : Tiles n a L) : ∀ p ∈ L, p.1 ≤ p.2 ∧ p.2 < n := by
  induction L generalizing a with
  | nil => simp
  | cons p rest ih =>
    obtain ⟨rfl, h1, h2⟩ := h
    intro q hq
    rcases List.mem_cons.1 hq with rfl | hq
    · exact ⟨h1, h2.le⟩
    · exact ih h2 q hq

/-- The points of intervals that follow each other, in order. -/
theorem Tiles.flatMap_range' {n a : ℕ} {L : List (ℕ × ℕ)} (h : Tiles n a L) :
    L.flatMap (fun p => List.range' p.1 (p.2 + 1 - p.1)) = List.range' a (n - a) := by
  induction L generalizing a with
  | nil =>
    have h : a = n := h
    simp [h]
  | cons p rest ih =>
    obtain ⟨rfl, h1, h2⟩ := h
    have := h2.le
    have hend : p.1 + (p.2 + 1 - p.1) = p.2 + 1 := by omega
    have happend := @List.range'_append_1 p.1 (p.2 + 1 - p.1) (n - (p.2 + 1))
    rw [hend] at happend
    rw [List.flatMap_cons, ih h2, happend]
    congr 1
    omega

/-- The pieces that intervals cut out of a list, put together again. -/
theorem Tiles.flatMap_slice {β : Type} {l : List β} {a : ℕ} {L : List (ℕ × ℕ)} (h : Tiles l.length a L) :
    L.flatMap (fun p => (l.take (p.2 + 1)).drop p.1) = l.drop a := by
  induction L generalizing a with
  | nil =>
    have h : a = l.length := h
    simp [h]
  | cons p rest ih =>
    obtain ⟨rfl, h1, h2⟩ := h
    have := h2.le
    have hsplit : l.drop p.1 = (l.take (p.2 + 1) ++ l.drop (p.2 + 1)).drop p.1 := by rw [List.take_append_drop]
    rw [List.flatMap_cons, ih h2, hsplit, List.drop_append_of_le_length (by rw [List.length_take]; omega)]

end ArdOssie.Intervals
