import ArdOssie.Base

/-!
# The provider service

A provider answers a request with a result or raises.  The service asks it up to three times: a transient error is
retried, an output that cannot be used is repaired, at most twice.  The provider is given by its answers in the order
of the calls, since nothing that it is asked depends on anything but its earlier answers.
-/

namespace ArdOssie

/-- `[A-Z][A-Z0-9_]{0,127}` -/
def isErrorCode (code : String) : Bool :=
  match code.toList with
  | [] => false
  | c :: t => 'A' ≤ c && c ≤ 'Z' && t.length ≤ 127 &&
    t.all fun x => ('A' ≤ x && x ≤ 'Z') || ('0' ≤ x && x ≤ '9') || x == '_'

inductive ProviderFailureKind where
  | configuration
  | transient
  | output
  deriving DecidableEq, Repr

/-- An exception of the provider or of the service. -/
structure ProviderExecutionError where
  code : String
  kind : ProviderFailureKind
  hasRejectedResult : Bool
  retryCount : ℕ
  repairCount : ℕ
  code_valid : isErrorCode code
  retryCount_le : retryCount ≤ 2
  repairCount_le : repairCount ≤ 2

/-- `_with_attempt_counts` -/
def ProviderExecutionError.withAttemptCounts (error : ProviderExecutionError) (retries repairs : ℕ)
    (h : retries ≤ 2 ∧ repairs ≤ 2) : ProviderExecutionError :=
  { error with retryCount := retries, repairCount := repairs, retryCount_le := h.1, repairCount_le := h.2 }

/-- The ways in which a result may fail the check against the schema. -/
inductive OutputDefect where
  | invalidJson
  | notObject
  | schemaViolation
  deriving DecidableEq, Repr

def OutputDefect.code : OutputDefect → String
  | invalidJson => "LLM_INVALID_JSON"
  | notObject => "LLM_RESPONSE_NOT_OBJECT"
  | schemaViolation => "LLM_SCHEMA_VIOLATION"

/-- `_output_error` -/
def OutputDefect.error (d : OutputDefect) : ProviderExecutionError :=
  ⟨d.code, .output, false, 0, 0, by cases d <;> decide, by decide, by decide⟩

/-- What one call of the provider ends with; a result that conforms to the schema is given by its value. -/
inductive ProviderAnswer (α : Type) where
  | raises (error : ProviderExecutionError)
  | malformed (defect : OutputDefect)
  | conforms (structured : α)

/-- A result of the service with the counts of its metadata. -/
structure ServiceResult (α : Type) where
  structured : α
  retryCount : ℕ
  repairCount : ℕ
  retryCount_le : retryCount ≤ 2
  repairCount_le : repairCount ≤ 2

section Generate

variable {α : Type} (answers : ℕ → ProviderAnswer α)

/-- The loop of `_generate_structured` after `calls` calls of the provider: one attempt and `remaining` further ones.
It returns how it ends and the number of calls so far. -/
def generateFrom (remaining retries repairs calls : ℕ) (h : retries + repairs + remaining = 2) :
    Except ProviderExecutionError (ServiceResult α) × ℕ :=
  match answers calls with
  | .conforms a => (.ok ⟨a, retries, repairs, by omega, by omega⟩, calls + 1)
  | .malformed defect =>
    -- while an attempt remains, fewer than two repairs were made
    match remaining, h with
    | 0, h => (.error (defect.error.withAttemptCounts retries repairs ⟨by omega, by omega⟩), calls + 1)
    | n + 1, h => generateFrom n retries (repairs + 1) (calls + 1) (by omega)
  | .raises error =>
    match remaining, h with
    | 0, h => (.error (error.withAttemptCounts retries repairs ⟨by omega, by omega⟩), calls + 1)
    | n + 1, h =>
      if error.kind = .transient then generateFrom n (retries + 1) repairs (calls + 1) (by omega)
      else if error.kind = .output ∧ error.hasRejectedResult then
        generateFrom n retries (repairs + 1) (calls + 1) (by omega)
      else (.error (error.withAttemptCounts retries repairs ⟨by omega, by omega⟩), calls + 1)

/-- `LLMService.generate_structured` after `calls` calls of the provider. -/
def generateStructured (calls : ℕ) : Except ProviderExecutionError (ServiceResult α) × ℕ :=
  generateFrom answers 2 0 0 calls rfl

end Generate

end ArdOssie
