import ArdOssie.CanonicalHash
import Mathlib.Data.Nat.ModEq
import Mathlib.Algebra.Order.Field.Rat
import Mathlib.Tactic.Ring

/-!
# Evidence identifiers

The identifiers of atoms, regions and hypotheses.  An identifier is a stem and sixteen hexadecimal digits; two
identifiers with one stem are in the order of their numbers.  A score or a confidence is a number from zero to one.
-/

namespace ArdOssie

namespace Text

/-- The value of a hexadecimal digit in lower case. -/
def hexDigitValue (c : Char) : Option ℕ :=
  if '0' ≤ c ∧ c ≤ '9' then some (c.toNat - 48) else if 'a' ≤ c ∧ c ≤ 'f' then some (c.toNat - 87) else none

/-- The number that hexadecimal digits continue. -/
def readHex (n : ℕ) : Text → Option ℕ
  | [] => some n
  | c :: t => (hexDigitValue c).bind fun d => readHex (16 * n + d) t

private theorem hexDigitValue_hexDigit {d : ℕ} (hd : d < 16) : hexDigitValue (hexDigit d) = some d := by
  have hall : ∀ d : Fin 16, hexDigitValue (hexDigit d) = some d.val := by decide
  exact hall ⟨d, hd⟩

private theorem hex_succ (count n : ℕ) : hex (count + 1) n = hexDigit (n / 16 ^ count % 16) :: hex count n := by
  simp [hex, List.range_succ]

theorem readHex_hex (count n m : ℕ) : readHex m (hex count n) = some (16 ^ count * m + n % 16 ^ count) := by
  induction count generalizing m with
  | zero => simp [hex, readHex, Nat.mod_one]
  | succ count ih =>
    rw [hex_succ, readHex, hexDigitValue_hexDigit (Nat.mod_lt _ (by omega)), Option.bind_some, ih,
      Nat.mod_pow_succ, pow_succ]
    congr 1
    ring

theorem length_hex (count n : ℕ) : (hex count n).length = count := by simp [hex]

end Text

/-- The identifiers with a given stem. -/
structure Identifier (stem : String) where
  value : Fin (2 ^ 64)
  deriving DecidableEq

namespace Identifier

variable {stem : String}

instance : LawfulBEq (Identifier stem) := inferInstance

theorem first_ne_nil : [(⟨0⟩ : Identifier stem)] ≠ [] := List.cons_ne_nil _ _

theorem three_ne_nil : [(⟨0⟩ : Identifier stem), ⟨1⟩, ⟨2⟩] ≠ [] := List.cons_ne_nil _ _

def text (i : Identifier stem) : Text := stem.toList ++ Text.hex 16 i.value

/-- The identifier of a text that matches the pattern of the stem. -/
def parse (stem : String) (t : Text) : Option (Identifier stem) :=
  if t.length = stem.toList.length + 16 ∧ stem.toList.isPrefixOf t then
    (Text.readHex 0 (t.drop stem.toList.length)).bind fun n => if h : n < 2 ^ 64 then some ⟨⟨n, h⟩⟩ else none
  else none

@[simp] theorem parse_text (i : Identifier stem) : parse stem i.text = some i := by
  have hprefix : stem.toList.isPrefixOf i.text = true := List.isPrefixOf_iff_prefix.2 (List.prefix_append _ _)
  have hlength : i.text.length = stem.toList.length + 16 := by simp [text, Text.length_hex]
  have hvalue : 16 ^ 16 * 0 + i.value.val % 16 ^ 16 = i.value.val := by
    rw [Nat.mul_zero, Nat.zero_add]
    exact Nat.mod_eq_of_lt i.value.isLt
  unfold parse
  rw [if_pos ⟨hlength, hprefix⟩, text, List.drop_left, Text.readHex_hex, hvalue, Option.bind_some,
    dif_pos i.value.isLt]

def json (i : Identifier stem) : Json := .str i.text

end Identifier

abbrev AtomId := Identifier "atom_"

abbrev RegionId := Identifier "region_"

abbrev HypothesisId := Identifier "hyp_"

/-- The scores and confidences: `Field(ge=0, le=1)`. -/
abbrev Score := {q : ℚ // 0 ≤ q ∧ q ≤ 1}

namespace Score

def zero : Score := ⟨0, by decide⟩

def one : Score := ⟨1, one_mem_unit⟩

theorem percent82_mem : (0 : ℚ) ≤ 82 / 100 ∧ (82 / 100 : ℚ) ≤ 1 := by norm_num

theorem percent94_mem : (0 : ℚ) ≤ 94 / 100 ∧ (94 / 100 : ℚ) ≤ 1 := by norm_num

theorem percent95_mem : (0 : ℚ) ≤ 95 / 100 ∧ (95 / 100 : ℚ) ≤ 1 := by norm_num

/-- `max(0.0, min(1.0, value))` -/
def clamp (q : ℚ) : Score := ⟨max 0 (min 1 q), le_max_left _ _, max_le zero_le_one (min_le_left _ _)⟩

def json (s : Score) : Json := .float s.val

/-- A score is not changed by clamping. -/
@[simp] theorem clamp_val (s : Score) : clamp s.val = s := by
  apply Subtype.ext
  show max 0 (min 1 s.val) = s.val
  rw [min_eq_right s.2.2, max_eq_right s.2.1]

end Score

end ArdOssie
