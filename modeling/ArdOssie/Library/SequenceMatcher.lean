import Mathlib.Data.Rat.Defs
import Mathlib.Data.List.Basic

/-!
# Sequence similarity

The ratio of matching elements of two sequences, by repeatedly splitting both at their longest common block; among
the longest blocks the one that starts first in the first sequence, and then first in the second, is taken.
-/

namespace ArdOssie.SequenceMatcher

variable {α : Type} [DecidableEq α]

/-- The length of the longest common prefix. -/
def commonPrefix : List α → List α → ℕ
  | a :: as, b :: bs => if a = b then commonPrefix as bs + 1 else 0
  | _, _ => 0

/-- A block `a[i:i+k] = b[j:j+k]`. -/
structure Block where
  i : ℕ
  j : ℕ
  k : ℕ

/-- The first of the longest common blocks. -/
def longestMatch (a b : List α) : Block :=
  (List.range a.length).foldl
    (fun best i =>
      (List.range b.length).foldl
        (fun best j =>
          let k := commonPrefix (a.drop i) (b.drop j)
          if best.k < k then ⟨i, j, k⟩ else best)
        best)
    ⟨0, 0, 0⟩

/-- The total length of the matching blocks; `fuel` bounds the depth, which is at most the length of `a`. -/
def matchedLength : ℕ → List α → List α → ℕ
  | 0, _, _ => 0
  | fuel + 1, a, b =>
    let block := longestMatch a b
    if block.k = 0 then 0
    else
      matchedLength fuel (a.take block.i) (b.take block.j) + block.k +
        matchedLength fuel (a.drop (block.i + block.k)) (b.drop (block.j + block.k))

/-- Twice the matched length over the total length, `1` for two empty sequences. -/
def ratio (a b : List α) : ℚ :=
  if a.length + b.length = 0 then 1
  else 2 * matchedLength a.length a b / (a.length + b.length : ℕ)

end ArdOssie.SequenceMatcher
