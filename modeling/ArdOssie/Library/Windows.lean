import Mathlib.Data.List.Infix

/-!
# Searching a stream in windows

A stream is read in chunks, and each chunk is searched together with the end of what was read before it.  When every
hit has a short hit inside of it, the windows find exactly what a search of the whole stream finds.
-/

namespace ArdOssie

variable {α : Type}

/-- The last elements of a list. -/
def lastOf (keep : ℕ) (l : List α) : List α := l.drop (l.length - keep)

/-- The search of the chunks that are read until an empty one, each behind the end of the content before. -/
def scanWindows (found : List α → Bool) (keep : ℕ) : List α → List (List α) → Bool
  | _, [] => false
  | _, [] :: _ => false
  | overlap, chunk :: chunks =>
    if found (overlap ++ chunk) then true else scanWindows found keep (lastOf keep (overlap ++ chunk)) chunks

/-- A list is hit exactly when a short part of it is. -/
def FoundWithin (found : List α → Bool) (bound : ℕ) : Prop :=
  ∀ l, found l = true ↔ ∃ w, w <:+: l ∧ w.length ≤ bound ∧ found w = true

variable {keep : ℕ}

theorem lastOf_suffix (l : List α) : lastOf keep l <:+ l := List.drop_suffix _ _

theorem suffix_lastOf {a l : List α} (h : a <:+ l) (ha : a.length ≤ keep) : a <:+ lastOf keep l := by
  obtain ⟨before, rfl⟩ := h
  refine ⟨(lastOf keep (before ++ a)).take ((lastOf keep (before ++ a)).length - a.length), ?_⟩
  have hlength : (before ++ a).length - keep ≤ before.length := by
    rw [List.length_append]
    omega
  have hsplit : lastOf keep (before ++ a) = before.drop ((before ++ a).length - keep) ++ a := by
    rw [lastOf, List.drop_append_of_le_length hlength]
  rw [hsplit, List.length_append, Nat.add_sub_cancel, List.take_left]

theorem length_lastOf (l : List α) : (lastOf keep l).length = min keep l.length := by
  rw [lastOf, List.length_drop]
  omega

theorem lastOf_lastOf_append (l chunk : List α) : lastOf keep (lastOf keep l ++ chunk) = lastOf keep (l ++ chunk) := by
  have hlength : (lastOf keep (lastOf keep l ++ chunk)).length = (lastOf keep (l ++ chunk)).length := by
    simp only [length_lastOf, List.length_append]
    omega
  have hsuffix : lastOf keep (lastOf keep l ++ chunk) <:+ l ++ chunk := by
    obtain ⟨before, hbefore⟩ := @lastOf_suffix _ keep l
    refine (lastOf_suffix _).trans ⟨before, ?_⟩
    rw [← List.append_assoc, hbefore]
  exact (List.suffix_of_suffix_length_le hsuffix (lastOf_suffix _) hlength.le).eq_of_length hlength

section Scan

variable {found : List α → Bool}

theorem FoundWithin.of_infix {bound : ℕ} (h : FoundWithin found bound) {w l : List α} (hw : w <:+: l)
    (hfound : found w = true) : found l = true := by
  obtain ⟨v, hv, hlength, hfound⟩ := (h w).1 hfound
  exact (h l).2 ⟨v, hv.trans hw, hlength, hfound⟩

/-- A new chunk behind the end of a list without a hit is hit when the whole is. -/
private theorem found_window (h : FoundWithin found (keep + 1)) {l : List α} (hl : found l = false) (chunk : List α) :
    found (lastOf keep l ++ chunk) = found (l ++ chunk) := by
  rw [Bool.eq_iff_iff]
  constructor
  · obtain ⟨before, hbefore⟩ := @lastOf_suffix _ keep l
    exact h.of_infix ⟨before, [], by rw [List.append_nil, ← List.append_assoc, hbefore]⟩
  · intro hfound
    obtain ⟨w, hw, hlength, hfound⟩ := (h _).1 hfound
    have hnot : ¬ w <:+: l := fun hw => by
      rw [h.of_infix hw hfound] at hl
      cases hl
    rcases List.infix_append_iff.1 hw with hw | hw | ⟨a, b, rfl, ha, hb⟩
    · exact absurd hw hnot
    · exact h.of_infix (hw.trans (List.infix_append_of_infix_right List.infix_rfl)) hfound
    · -- the hit starts in the list and ends in the chunk, so that the kept end has its start
      have hne : b ≠ [] := by
        rintro rfl
        exact hnot (by rw [List.append_nil]; exact ha.isInfix)
      have hpos := List.length_pos_iff.2 hne
      rw [List.length_append] at hlength
      obtain ⟨before, hbefore⟩ := @suffix_lastOf _ keep _ _ ha (by omega)
      obtain ⟨after, hafter⟩ := hb
      refine h.of_infix ⟨before, after, ?_⟩ hfound
      rw [← hbefore, ← hafter]
      simp only [List.append_assoc]

/-- The windows find what a search of the whole stream finds. -/
theorem scanWindows_eq (h : FoundWithin found (keep + 1)) (hnil : found [] = false) {chunks : List (List α)}
    (hchunks : ∀ c ∈ chunks, c ≠ []) : scanWindows found keep [] chunks = found chunks.flatten := by
  have hstep : ∀ l : List α, found l = false →
      scanWindows found keep (lastOf keep l) chunks = found (l ++ chunks.flatten) := by
    induction chunks with
    | nil =>
      intro l hl
      rw [List.flatten_nil, List.append_nil, hl]
      rfl
    | cons chunk chunks ih =>
      intro l hl
      obtain ⟨hchunk, hrest⟩ := List.forall_mem_cons.1 hchunks
      obtain ⟨x, rest, rfl⟩ := List.exists_cons_of_ne_nil hchunk
      rw [scanWindows, found_window h hl, List.flatten_cons, ← List.append_assoc]
      split
      · rename_i hfound
        exact (h.of_infix List.infix_append_left hfound).symm
      · rename_i hfound
        rw [Bool.not_eq_true] at hfound
        rw [lastOf_lastOf_append, ih hrest _ hfound]
      · exact hchunk
  have h := hstep [] hnil
  rwa [lastOf, List.drop_nil, List.nil_append] at h

end Scan

end ArdOssie
