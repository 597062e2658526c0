import ArdOssie.Base
import ArdOssie.CanonicalHash
import ArdOssie.Library.Results

/-!
# Workflow errors

The errors of the application services.  A service fails with a code, a message and the exit code of its kind.
-/

namespace ArdOssie

/-- `WorkflowStatus` -/
inductive WorkflowStatus where
  | success
  | failure
  | noop
  deriving DecidableEq

/-- `ExitCode` of a failed workflow. -/
inductive ExitCode where
  | validation
  | configuration
  | transient
  | conflict
  | security
  | partialFailure
  deriving DecidableEq

/-- `WorkflowError` -/
structure WorkflowError where
  exitCode : ExitCode
  code : String
  message : Text
  deriving DecidableEq

abbrev Workflow := Except WorkflowError

namespace WorkflowError

/-- `WorkflowConflict` -/
def conflict (code : String) (message : Text) : WorkflowError := ⟨.conflict, code, message⟩

/-- `WorkflowSecurityError` -/
def security (code : String) (message : Text) : WorkflowError := ⟨.security, code, message⟩

/-- `WorkflowValidationError` -/
def validation (code : String) (message : Text) : WorkflowError := ⟨.validation, code, message⟩

/-- `WorkflowTransientError` -/
def transient (code : String) (message : Text) : WorkflowError := ⟨.transient, code, message⟩

end WorkflowError

/-- What the code may raise: an error of a workflow, or a bare `ValueError`. -/
inductive ServiceError where
  | workflow (error : WorkflowError)
  | valueError (error : PyError)
  deriving DecidableEq

abbrev Service := Except ServiceError

/-- `if condition: raise error` -/
def failIf (condition : Prop) [Decidable condition] (error : WorkflowError) : Workflow Unit :=
  if condition then .error error else .ok ()

/-- The code after a check runs when the check passes. -/
theorem failIf_bind_eq_ok {α : Type} {condition : Prop} [Decidable condition] {error : WorkflowError}
    {f : Unit → Workflow α} {a : α} : (failIf condition error >>= f) = .ok a ↔ ¬ condition ∧ f () = .ok a := by
  unfold failIf
  split <;> simp_all [bind, Except.bind]

theorem failIf_eq_ok {condition : Prop} [Decidable condition] {error : WorkflowError} {u : Unit} :
    failIf condition error = .ok u ↔ ¬ condition := by
  unfold failIf
  split <;> simp_all

theorem of_failIf_eq_error {condition : Prop} [Decidable condition] {error e : WorkflowError}
    (h : failIf condition error = .error e) : condition ∧ e = error := by
  unfold failIf at h
  split at h
  · cases h
    exact ⟨‹_›, rfl⟩
  · cases h

/-- `value is None` raises, otherwise the value. -/
def require {α : Type} (value : Option α) (error : WorkflowError) : Workflow α :=
  match value with
  | some a => .ok a
  | none => .error error

theorem require_eq_ok {α : Type} {value : Option α} {error : WorkflowError} {a : α} :
    require value error = .ok a ↔ value = some a := by
  cases value <;> simp [require]

namespace Json

/-- The value of a field of an object, and `null` where there is none: `value.get(key)`. -/
def field (key : String) : Json → Json
  | obj fields => (fields.lookup key.toList).getD null
  | _ => null

/-- `value == text` -/
def isText (t : Text) : Json → Bool
  | str s => s = t
  | _ => false

/-- `value == n`; a boolean is a number of Python. -/
def isNat (n : ℕ) : Json → Bool
  | int m => m = n
  | float q => q = n
  | bool b => (if b then 1 else 0) = n
  | _ => false

/-- `isinstance(value, dict)` -/
def isObject : Json → Bool
  | obj _ => true
  | _ => false

end Json

end ArdOssie
