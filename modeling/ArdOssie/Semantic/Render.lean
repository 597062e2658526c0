import ArdOssie.Library.Results
import ArdOssie.Semantic.Models
import Mathlib.Data.Rat.Floor

/-!
# Source coverage

The check that a document uses every span of its source exactly once.
-/

namespace ArdOssie

structure CoverageResult where
  sourceSpanCount : ℕ
  preservedSpanCount : ℕ
  excludedSpanCount : ℕ
  unmatchedSpanCount : ℕ
  duplicatedSpanCount : ℕ
  sourceTextCoverage : ℚ
  deriving DecidableEq, Repr

/-- `round(x)`: the nearest integer, of two the even one. -/
def roundHalfEven (x : ℚ) : ℤ :=
  let low := ⌊x⌋
  if x - low < 1 / 2 then low
  else if 1 / 2 < x - low then low + 1
  else if low % 2 = 0 then low else low + 1

/-- `round(x, 6)` -/
def roundSixDigits (x : ℚ) : ℚ := roundHalfEven (x * 1000000) / 1000000

/-- `validate_source_coverage` -/
def validateSourceCoverage (native : NativeDocument) (document : ReconciledDocument) : PyResult CoverageResult := do
  let sourceIds := native.spanIds
  let allocationIds := blockSpanIds document.blocks
  let exclusionIds := document.excludedSpans.map (·.spanId)
  raiseIf (∃ i ∈ allocationIds ++ exclusionIds, i ∉ sourceIds) (.valueError "SEMANTIC_SOURCE_TEXT_LOSS")
  raiseIf ((∃ i ∈ allocationIds, i ∈ exclusionIds) ∨ ∃ i ∈ allocationIds, 1 < allocationIds.count i)
    (.valueError "SEMANTIC_SOURCE_TEXT_DUPLICATED")
  let nonExcludedIds := sourceIds.filter fun i => decide (i ∉ exclusionIds)
  let preservedIds := nonExcludedIds.filter fun i => decide (i ∈ allocationIds)
  let unmatchedIds := nonExcludedIds.filter fun i => decide (i ∉ preservedIds)
  let duplicatedIds := allocationIds.eraseDups.filter fun i =>
    decide (i ∈ nonExcludedIds ∧ 1 < allocationIds.count i)
  let coverage : ℚ :=
    if nonExcludedIds = [] then 1 else roundSixDigits (preservedIds.length / nonExcludedIds.length)
  raiseIf (unmatchedIds ≠ []) (.valueError "SEMANTIC_SOURCE_TEXT_LOSS")
  raiseIf (duplicatedIds ≠ []) (.valueError "SEMANTIC_SOURCE_TEXT_DUPLICATED")
  return ⟨sourceIds.length, preservedIds.length, exclusionIds.eraseDups.length, unmatchedIds.length,
    duplicatedIds.length, coverage⟩

/-- A document in which every span of the source occurs exactly once, in a block or excluded, passes the check. -/
theorem validateSourceCoverage_ok {native : NativeDocument} {document : ReconciledDocument}
    (h : (blockSpanIds document.blocks ++ document.excludedSpans.map (·.spanId)).Perm native.spanIds) :
    ∃ coverage, validateSourceCoverage native document = .ok coverage := by
  have hnodup := h.nodup_iff.2 native.spanIds_nodup
  obtain ⟨hblocks, -, hdisjoint⟩ := List.nodup_append.1 hnodup
  have hcount : ∀ i, ¬ 1 < (blockSpanIds document.blocks).count i := fun i =>
    not_lt.2 (List.nodup_iff_count_le_one.1 hblocks i)
  have hpreserved : ∀ i ∈ native.spanIds, i ∉ document.excludedSpans.map (·.spanId) → i ∈ blockSpanIds document.blocks :=
    fun i hi hexcluded => (List.mem_append.1 (h.mem_iff.2 hi)).resolve_right hexcluded
  unfold validateSourceCoverage
  dsimp only
  refine ⟨_, bind_eq_ok.2 ⟨(), raiseIf_eq_ok.2 ?_, bind_eq_ok.2 ⟨(), raiseIf_eq_ok.2 ?_,
    bind_eq_ok.2 ⟨(), raiseIf_eq_ok.2 ?_, bind_eq_ok.2 ⟨(), raiseIf_eq_ok.2 ?_, rfl⟩⟩⟩⟩⟩
  · rintro ⟨i, hi, hunknown⟩
    exact hunknown (h.mem_iff.1 hi)
  · rintro (⟨i, hi, hexcluded⟩ | ⟨i, -, hi⟩)
    · exact hdisjoint i hi i hexcluded rfl
    · exact hcount i hi
  · rw [not_not, List.filter_eq_nil_iff]
    intro i hi
    rw [List.mem_filter, decide_eq_true_eq] at hi
    simp only [List.mem_filter, decide_eq_true_eq, not_and]
    exact fun h => h hi (hpreserved i hi.1 hi.2)
  · rw [not_not, List.filter_eq_nil_iff]
    intro i _ hi
    rw [decide_eq_true_eq] at hi
    exact hcount i hi.2

end ArdOssie
