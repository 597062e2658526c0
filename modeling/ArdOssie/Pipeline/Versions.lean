import ArdOssie.Base
import ArdOssie.Library.Results

/-!
# Version transitions

The numeric version of a product or of a table starts at one and advances by one with every change, up to 999.
-/

namespace ArdOssie

inductive VersionOutcome where
  | allow
  | block
  deriving DecidableEq

structure VersionDecision where
  outcome : VersionOutcome
  code : String
  currentVersion : Option ℕ
  baseVersion : Option ℕ
  proposedVersion : Option ℕ
  expectedVersion : Option ℕ
  changed : Bool
  deriving DecidableEq

/-- `_next_version` -/
def nextVersion (current : ℕ) : Option ℕ := if current = 999 then none else some (current + 1)

/-- `_validate_input_version` -/
def validateInputVersion (name : String) : Option ℕ → PyResult Unit
  | none => .ok ()
  | some value => raiseIf (¬ (1 ≤ value ∧ value ≤ 999)) (.valueError (name ++ " must be between 1 and 999"))

/-- The outcome and the code of a transition from a current version. -/
def transitionOutcome (current : ℕ) (changed : Bool) (base proposed : Option ℕ) : VersionOutcome × String :=
  if base ≠ some current then (.block, "VERSION_STALE")
  else if changed = true then
    match nextVersion current, proposed with
    | none, _ => (.block, "VERSION_LIMIT_REACHED")
    | some _, none => (.allow, "ADVANCE")
    | some expected, some version =>
      if version = expected then (.allow, "ADVANCE")
      else (.block, if version ≤ current then "VERSION_COLLISION" else "VERSION_GAP")
  else if proposed = none ∨ proposed = some current then (.allow, "NO_CHANGE")
  else (.block, "VERSION_NO_CHANGE")

/-- The decision on valid input versions. -/
def versionDecision (current : Option ℕ) (changed : Bool) (base proposed : Option ℕ) : VersionDecision :=
  match current with
  | none =>
    let outcome := if base ≠ none then (VersionOutcome.block, "VERSION_STALE")
      else if proposed = none ∨ proposed = some 1 then (.allow, "NEW_V1") else (.block, "VERSION_GAP")
    ⟨outcome.1, outcome.2, none, base, proposed, some 1, changed⟩
  | some version =>
    let outcome := transitionOutcome version changed base proposed
    ⟨outcome.1, outcome.2, some version, base, proposed, if changed then nextVersion version else some version, changed⟩

/-- `plan_version` -/
def planVersion (current : Option ℕ) (changed : Bool) (base proposed : Option ℕ) : PyResult VersionDecision := do
  validateInputVersion "current_version" current
  validateInputVersion "base_version" base
  validateInputVersion "proposed_version" proposed
  pure (versionDecision current changed base proposed)

theorem planVersion_eq_ok {current base proposed : Option ℕ} {changed : Bool} {d : VersionDecision}
    (h : planVersion current changed base proposed = .ok d) : d = versionDecision current changed base proposed := by
  unfold planVersion at h
  obtain ⟨_, -, h⟩ := bind_eq_ok.1 h
  obtain ⟨_, -, h⟩ := bind_eq_ok.1 h
  obtain ⟨_, -, h⟩ := bind_eq_ok.1 h
  exact (pure_eq_ok.1 h).symm

/-- Versions in their bounds are always decided. -/
theorem planVersion_of_bounds {current base proposed : Option ℕ} (hcurrent : ∀ n ∈ current, 1 ≤ n ∧ n ≤ 999)
    (hbase : ∀ n ∈ base, 1 ≤ n ∧ n ≤ 999) (hproposed : ∀ n ∈ proposed, 1 ≤ n ∧ n ≤ 999) (changed : Bool) :
    planVersion current changed base proposed = .ok (versionDecision current changed base proposed) := by
  have hvalid : ∀ (name : String) (version : Option ℕ), (∀ n ∈ version, 1 ≤ n ∧ n ≤ 999) →
      validateInputVersion name version = .ok () := by
    intro name version h
    cases version with
    | none => rfl
    | some n => exact raiseIf_eq_ok.2 (not_not.2 (h n rfl))
  unfold planVersion
  rw [hvalid _ _ hcurrent, hvalid _ _ hbase, hvalid _ _ hproposed]
  rfl

@[simp] theorem versionDecision_changed (current base proposed : Option ℕ) (changed : Bool) :
    (versionDecision current changed base proposed).changed = changed := by
  cases current <;> rfl

/-- A transition is allowed on the current base: a change to the next version, no change to the current one. -/
theorem versionDecision_allow_iff {current : ℕ} {changed : Bool} {base proposed : Option ℕ} :
    (versionDecision (some current) changed base proposed).outcome = .allow ↔ base = some current ∧
      if changed then current ≠ 999 ∧ (proposed = none ∨ proposed = some (current + 1))
      else proposed = none ∨ proposed = some current := by
  show (transitionOutcome current changed base proposed).1 = .allow ↔ _
  unfold transitionOutcome nextVersion
  by_cases hbase : base = some current
  · rw [if_neg (not_not.2 hbase)]
    cases changed with
    | false =>
      by_cases hproposed : proposed = none ∨ proposed = some current
      · simp [hbase, hproposed]
      · simp [hbase, hproposed]
    | true =>
      by_cases hlimit : current = 999
      · simp [hlimit]
      · cases proposed with
        | none => simp [hbase, hlimit]
        | some version =>
          by_cases hversion : version = current + 1
          · simp [hbase, hlimit, hversion]
          · simp [hbase, hlimit, hversion]
  · rw [if_pos hbase]
    simp [hbase]

/-- An allowed change of a known version advances it by one. -/
theorem advance_of_allow {current proposed : ℕ} {base : Option ℕ}
    (h : (versionDecision (some current) true base (some proposed)).outcome = .allow) : proposed = current + 1 := by
  have hproposed := (versionDecision_allow_iff.1 h).2.2
  simpa using hproposed

/-- An allowed step without a change keeps a known version. -/
theorem keep_of_allow {current proposed : ℕ} {base : Option ℕ}
    (h : (versionDecision (some current) false base (some proposed)).outcome = .allow) : proposed = current := by
  have hproposed := (versionDecision_allow_iff.1 h).2
  simpa using hproposed

end ArdOssie
