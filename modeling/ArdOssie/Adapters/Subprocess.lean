import ArdOssie.Application.Contracts
import ArdOssie.Utf8

/-!
# Running commands

The output of a command is captured up to a bound; what is beyond it is dropped without an error.  The captured bytes
are decoded, secrets are masked, and the text is cut to the bound again.
-/

namespace ArdOssie

namespace Text

/-- `str.replace` after the given number of characters that belong to the last occurrence. -/
def replaceFrom (old new : Text) : ℕ → Text → Text
  | _, [] => []
  | 0, c :: t => if old <+: c :: t then new ++ replaceFrom old new (old.length - 1) t else c :: replaceFrom old new 0 t
  | skip + 1, _ :: t => replaceFrom old new skip t

/-- `str.replace` of a text that is not empty -/
def replace (t old new : Text) : Text := replaceFrom old new 0 t

end Text

/-- How a command ended: the chunks that its streams gave, and whether it was stopped. -/
structure CommandOutput where
  returncode : ℤ
  stdout : List (List ℕ)
  stderr : List (List ℕ)
  timedOut : Bool

structure CommandResult where
  returncode : ℤ
  stdout : Text
  stderr : Text
  deriving DecidableEq

/-- The limit of the captured output. -/
structure SubprocessRunner where
  maxOutputBytes : ℕ
  pos : 1 ≤ maxOutputBytes
  bounded : maxOutputBytes ≤ 1048576

/-- `_drain_bounded` -/
def drainBounded (maximum : ℕ) (chunks : List (List ℕ)) : List ℕ :=
  chunks.foldl (fun retained chunk => retained ++ chunk.take (maximum - retained.length)) []

/-- `_redact` -/
def redact (secrets : List Text) (value : Text) : Text :=
  (sortBy (fun s : Text => OrderDual.toDual s.length) (secrets.filter fun s => s ≠ [])).foldl
    (fun redacted secret => redacted.replace secret "***".toList) value

/-- `_truncate_utf8` -/
def truncateUtf8 (maximum : ℕ) (value : Text) : Text :=
  if value.utf8.length ≤ maximum then value else Utf8.decode [] (value.utf8.take maximum)

/-- `_timeout_evidence`, with `repr` of a text -/
def timeoutEvidence (repr : Text → Text) (stdout stderr : Text) : Text :=
  let evidence := (if stdout ≠ [] then ["stdout=".toList ++ repr stdout] else []) ++
    if stderr ≠ [] then ["stderr=".toList ++ repr stderr] else []
  if evidence ≠ [] then " (".toList ++ [',', ' '].intercalate evidence ++ ")".toList else []

namespace SubprocessRunner

variable (runner : SubprocessRunner)

/-- The number of bytes that are captured: no secret is cut at the bound. -/
def captureLimit (secrets : List Text) : ℕ :=
  runner.maxOutputBytes + (secrets.map fun s => s.utf8.length).foldl max 0

/-- `SubprocessRunner._sanitize` -/
def sanitize (secrets : List Text) (captured : List ℕ) : Text :=
  truncateUtf8 runner.maxOutputBytes (redact secrets (Utf8.decode ['\ufffd'] captured))

/-- `SubprocessRunner.run` of a command that has started -/
def run (repr : Text → Text) (secrets : List Text) (timeoutSeconds : ℕ) (output : CommandOutput) :
    Workflow CommandResult := do
  let stdout := runner.sanitize secrets (drainBounded (runner.captureLimit secrets) output.stdout)
  let stderr := runner.sanitize secrets (drainBounded (runner.captureLimit secrets) output.stderr)
  failIf (output.timedOut = true) (.transient "COMMAND_TIMEOUT" ("command exceeded ".toList ++
    Text.decimal timeoutSeconds ++ " seconds".toList ++ timeoutEvidence repr stdout stderr))
  pure ⟨output.returncode, stdout, stderr⟩

end SubprocessRunner

/-! ### The bound -/

/-- The captured bytes are the first ones. -/
theorem drainBounded_eq_take (maximum : ℕ) (chunks : List (List ℕ)) :
    drainBounded maximum chunks = chunks.flatten.take maximum := by
  have hfold : ∀ (done : List ℕ) (chunks : List (List ℕ)), done.length ≤ maximum →
      chunks.foldl (fun retained chunk => retained ++ chunk.take (maximum - retained.length)) done =
        (done ++ chunks.flatten).take maximum := by
    intro done chunks hdone
    induction chunks generalizing done with
    | nil => simp [List.take_of_length_le hdone]
    | cons chunk chunks ih =>
      have hlength : (done ++ chunk.take (maximum - done.length)).length ≤ maximum := by
        rw [List.length_append, List.length_take]
        omega
      have hhead : done ++ chunk.take (maximum - done.length) = (done ++ chunk).take maximum := by
        rw [List.take_append, List.take_of_length_le hdone]
      have hrest : ((done ++ chunk).take maximum ++ chunks.flatten).take maximum =
          (done ++ chunk ++ chunks.flatten).take maximum := by
        rw [@List.take_append _ ((done ++ chunk).take maximum), List.take_take, min_self, List.length_take,
          @List.take_append _ (done ++ chunk)]
        congr 2
        omega
      rw [List.foldl_cons, ih _ hlength, List.flatten_cons, ← List.append_assoc, hhead, hrest]
  have h := hfold [] chunks (Nat.zero_le _)
  rwa [List.nil_append] at h

@[simp] theorem redact_nil (value : Text) : redact [] value = value := rfl

namespace SubprocessRunner

variable (runner : SubprocessRunner)

@[simp] theorem captureLimit_nil : runner.captureLimit [] = runner.maxOutputBytes := rfl

/-- A text within the bound is returned. -/
theorem sanitize_utf8_of_le {t : Text} (h : t.utf8.length ≤ runner.maxOutputBytes) : runner.sanitize [] t.utf8 = t := by
  unfold sanitize truncateUtf8
  rw [Utf8.decode_utf8, redact_nil, if_pos h]

/-- Of a text beyond the bound, the first characters are returned, and possibly one mark for a character that is cut
after its third byte. -/
theorem sanitize_utf8_take {t : Text} (h : runner.maxOutputBytes < t.utf8.length) :
    ∃ (before : Text) (c : Char) (after : Text) (part rest : List ℕ) (tail : Text), t = before ++ c :: after ∧
      Text.utf8Char c = part ++ rest ∧ rest ≠ [] ∧ runner.maxOutputBytes = before.utf8.length + part.length ∧
        runner.sanitize [] (t.utf8.take runner.maxOutputBytes) = before ++ tail ∧
          (tail = [] ∨ tail = ['\ufffd'] ∧ part.length = 3) := by
  rcases Utf8.take_utf8 t runner.maxOutputBytes with hle | ⟨before, c, after, part, rest, ht, htake, hc, hrest⟩
  · exact absurd hle (Nat.not_le_of_lt h)
  have hlength : runner.maxOutputBytes = before.utf8.length + part.length := by
    rw [← List.length_append, ← htake, List.length_take, min_eq_left h.le]
  have hsanitize : runner.sanitize [] (t.utf8.take runner.maxOutputBytes) =
      truncateUtf8 runner.maxOutputBytes (before ++ if part = [] then [] else ['\ufffd']) := by
    unfold sanitize
    rw [htake, Utf8.decode_utf8_append_part hc hrest, redact_nil]
  rw [hsanitize]
  by_cases hpart : part = []
  · refine ⟨before, c, after, part, rest, [], ht, hc, hrest, hlength, ?_, Or.inl rfl⟩
    rw [if_pos hpart, List.append_nil]
    unfold truncateUtf8
    rw [if_pos (by omega)]
  · rw [if_neg hpart]
    have hmark : Text.utf8 ['\ufffd'] = [0xef, 0xbf, 0xbd] := by decide
    have htotal : (before ++ ['\ufffd']).utf8.length = before.utf8.length + 3 := by
      rw [Utf8.utf8_append, List.length_append, hmark]
      rfl
    have hpartLength : 1 ≤ part.length ∧ part.length ≤ 3 := by
      have hrestLength : 1 ≤ rest.length := List.length_pos_iff.2 hrest
      have hpos : 1 ≤ part.length := List.length_pos_iff.2 hpart
      have hchar := (Utf8.utf8Char_length c).2
      rw [hc, List.length_append] at hchar
      omega
    by_cases hthree : part.length = 3
    · refine ⟨before, c, after, part, rest, ['\ufffd'], ht, hc, hrest, hlength, ?_, Or.inr ⟨rfl, hthree⟩⟩
      unfold truncateUtf8
      rw [if_pos (by omega)]
    · refine ⟨before, c, after, part, rest, [], ht, hc, hrest, hlength, ?_, Or.inl rfl⟩
      unfold truncateUtf8
      rw [if_neg (by omega), Utf8.utf8_append, hmark, List.take_append, List.take_of_length_le (by omega)]
      have hleft : runner.maxOutputBytes - before.utf8.length = part.length := by omega
      have hmarkChar : Text.utf8Char '\ufffd' = [0xef, 0xbf, 0xbd].take part.length ++
          [0xef, 0xbf, 0xbd].drop part.length := by
        rw [List.take_append_drop]
        decide
      have hne : [0xef, 0xbf, 0xbd].drop part.length ≠ [] := by
        rw [Ne, List.drop_eq_nil_iff]
        simp only [List.length_cons, List.length_nil]
        omega
      rw [hleft, Utf8.decode_utf8_append_part hmarkChar hne]
      split_ifs <;> rfl

/-- What a command with the given standard output returns when it is not stopped. -/
theorem run_eq_ok {repr : Text → Text} {secrets : List Text} {timeoutSeconds : ℕ} {output : CommandOutput}
    {result : CommandResult} (h : runner.run repr secrets timeoutSeconds output = .ok result) :
    result.returncode = output.returncode ∧ result.stdout =
      runner.sanitize secrets (output.stdout.flatten.take (runner.captureLimit secrets)) := by
  unfold run at h
  obtain ⟨-, h⟩ := failIf_bind_eq_ok.1 h
  cases pure_eq_ok.1 h
  rw [drainBounded_eq_take]
  exact ⟨rfl, rfl⟩

end SubprocessRunner

end ArdOssie
