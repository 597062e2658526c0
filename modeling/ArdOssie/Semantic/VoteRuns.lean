import ArdOssie.Semantic.Decide

/-!
# Runs of votes

What the votes of one phase record: votes for unknown candidates, each answered by a corrected request, and then a
vote for an offered candidate or a failure.  The records of a decision are built from such attempts without error.
-/

namespace ArdOssie

/-! ### Records -/

theorem AdjudicationAttempt.make_eq_ok {f : AttemptFields} {a : AdjudicationAttempt} :
    AdjudicationAttempt.make f = .ok a ↔ a.toAttemptFields = f := by
  unfold make
  split_ifs with h
  · constructor
    · rintro ⟨⟩
      rfl
    · rintro rfl
      rfl
  · constructor
    · intro hf
      cases hf
    · rintro rfl
      exact absurd a.valid h

theorem AdjudicationAttempt.exists_make {f : AttemptFields} :
    (∃ a, AdjudicationAttempt.make f = .ok a) ↔ f.Valid := by
  constructor
  · rintro ⟨a, ha⟩
    exact AdjudicationAttempt.make_eq_ok.1 ha ▸ a.valid
  · intro h
    exact ⟨⟨f, h⟩, AdjudicationAttempt.make_eq_ok.2 rfl⟩

theorem AdjudicationAttempt.make_ok {f : AttemptFields} (h : f.Valid) : AdjudicationAttempt.make f = .ok ⟨f, h⟩ :=
  AdjudicationAttempt.make_eq_ok.2 rfl

private theorem sum_map_le {α : Type} {f : α → ℕ} {m : ℕ} {l : List α} (h : ∀ a ∈ l, f a ≤ m) :
    (l.map f).sum ≤ m * l.length := by
  induction l with
  | nil => simp
  | cons a l ih =>
    have h1 := h a (by simp)
    have h2 := ih fun a' ha' => h a' (by simp [ha'])
    rw [List.map_cons, List.sum_cons, List.length_cons, Nat.mul_succ]
    omega

/-- The counts of at most six attempts are within the limits of a record. -/
theorem Verdict.counted_valid {v : Verdict} (hcodes : CodesValid v.validationCodes) (hattempts : v.attempts.length ≤ 6)
    (hrecovery : v.recoveryCount ≤ 2) (hretry : v.retryCount ≤ 12) (hrepair : v.repairCount ≤ 12) :
    v.counted.Valid := by
  unfold counted
  split_ifs with h
  · exact ⟨hcodes, hretry, hrepair, hattempts, hrecovery⟩
  · have h1 : attemptRetries v.attempts ≤ 2 * v.attempts.length := sum_map_le fun a _ => a.valid.2.2.1
    have h2 : attemptRepairs v.attempts ≤ 2 * v.attempts.length := sum_map_le fun a _ => a.valid.2.2.2
    exact ⟨hcodes, by show attemptRetries v.attempts ≤ 12; omega, by show attemptRepairs v.attempts ≤ 12; omega,
      hattempts, hrecovery⟩

section Record

variable {platform : Platform} {scope : DecisionScope} {v : Verdict} {r : DecisionRecord}

/-- A record carries its scope and its verdict, and the hash of both. -/
theorem record_eq_ok (h : record platform scope v = .ok r) :
    r.toDecisionScope = scope ∧ r.toVerdict = v.counted ∧ r.decisionId = decisionIdOf platform scope v.counted := by
  unfold record at h
  split_ifs at h with hv
  cases h
  exact ⟨rfl, rfl, rfl⟩

theorem exists_record : (∃ r, record platform scope v = .ok r) ↔ scope.Valid ∧ v.counted.Valid := by
  unfold record
  split_ifs with h
  · exact ⟨fun _ => h, fun _ => ⟨_, rfl⟩⟩
  · refine ⟨fun ⟨r, hr⟩ => ?_, fun hv => absurd hv h⟩
    cases hr

end Record

/-! ### Votes -/

section Votes

variable {platform : Platform} {provider : Provider} {b : Ballot}

/-- The attempts of one phase from a given index on, and the choice that they end with. -/
inductive VoteRun (platform : Platform) (b : Ballot) (phase : AttemptPhase) (messages : List Json) :
    Option String → ℕ → List AdjudicationAttempt → Option CandidateChoice → Prop
  | vote (correction : Option String) (index : ℕ) (a : AdjudicationAttempt) (choice : CandidateChoice)
      (allowed : choice.candidateId ∈ b.allowlist) (index_eq : a.attemptIndex = index) (phase_eq : a.phase = phase)
      (hash_eq : a.requestHash = attemptRequestHash platform b.scope.requestHash phase
        (activeMessages platform messages correction) index)
      (candidate_eq : a.candidateId = some choice.candidateId) (confidence_eq : a.confidence = choice.confidence)
      (status_eq : a.status = b.voteStatus choice.confidence)
      (codes_eq : a.validationCodes = b.voteCodes choice.confidence) :
      VoteRun platform b phase messages correction index [a] (some choice)
  | fail (correction : Option String) (index : ℕ) (a : AdjudicationAttempt) :
      VoteRun platform b phase messages correction index [a] none
  | unknown (correction : Option String) (index : ℕ) (a : AdjudicationAttempt) (rest : List AdjudicationAttempt)
      (choice : Option CandidateChoice) (index_eq : a.attemptIndex = index) (phase_eq : a.phase = phase)
      (hash_eq : a.requestHash = attemptRequestHash platform b.scope.requestHash phase
        (activeMessages platform messages correction) index)
      (candidate_eq : a.candidateId = none) (status_eq : a.status = .candidateUnknown)
      (codes_eq : a.validationCodes = ["LLM_CANDIDATE_UNKNOWN"])
      (run : VoteRun platform b phase messages (some "LLM_CANDIDATE_UNKNOWN") (index + 1) rest choice) :
      VoteRun platform b phase messages correction index (a :: rest) choice

/-- The first answer that names an offered candidate, among a number of answers of which none fails, and the number
of calls up to it. -/
def namedChoice (answers : ℕ → ProviderAnswer CandidateChoice) (allowlist : List CandidateId) :
    (attempts calls : ℕ) → Option (CandidateChoice × ℕ)
  | 0, _ => none
  | attempts + 1, calls =>
    match generateStructured answers calls with
    | (.error _, _) => none
    | (.ok result, calls) =>
      if result.structured.candidateId ∈ allowlist then some (result.structured, calls)
      else namedChoice answers allowlist attempts calls

/-- What a phase returns. -/
structure VotePhaseSpec (platform : Platform) (b : Ballot) (phase : AttemptPhase) (messages : List Json)
    (correction : Option String) (index remaining : ℕ) (news : List AdjudicationAttempt) (result : VotePhaseResult) :
    Prop where
  run : VoteRun platform b phase messages correction index news result.choice
  length_le : news.length ≤ remaining
  codes_le : result.validationCodes.length ≤ 2
  codes_valid : ∀ code ∈ result.validationCodes, isErrorCode code

theorem voteCodes_valid (b : Ballot) (confidence : Score) : CodesValid (b.voteCodes confidence) := by
  unfold Ballot.voteCodes
  split_ifs <;> decide

private theorem unknownCode_valid : CodesValid ["LLM_CANDIDATE_UNKNOWN"] := by decide

theorem voteCodes_length_le (b : Ballot) (confidence : Score) : (b.voteCodes confidence).length ≤ 1 := by
  unfold Ballot.voteCodes
  split_ifs <;> decide

/-- The votes of one phase end, with at most as many attempts as remain. -/
theorem voteFrom_spec {phase : AttemptPhase} {messages : List Json} {remaining index : ℕ} {codes : List String}
    {attempts : List AdjudicationAttempt} {calls : ℕ} (hremaining : 1 ≤ remaining) (hindex : 1 ≤ index)
    (hbound : index + remaining ≤ 7) (hcodes : codes.length + remaining ≤ 2)
    (hvalid : ∀ code ∈ codes, isErrorCode code) :
    ∃ result calls' news, voteFrom platform provider b phase messages remaining index codes attempts calls =
        .ok (result, calls') ∧ result.attempts = attempts ++ news ∧
      VotePhaseSpec platform b phase messages codes.getLast? index remaining news result ∧
      namedChoice provider.choice b.allowlist remaining calls = result.choice.map fun c => (c, calls') := by
  induction remaining generalizing index codes attempts calls with
  | zero => omega
  | succ remaining ih =>
    unfold voteFrom namedChoice
    rcases hg : generateStructured provider.choice calls with ⟨error | result, calls'⟩
    · -- the service gives up: the vote fails with its code
      have hattempt : ∀ f : AttemptFields, f.attemptIndex = index → f.validationCodes = [error.code] →
          f.providerRetryCount = error.retryCount → f.providerRepairCount = error.repairCount → f.Valid := by
        intro f hi hc hr hp
        refine ⟨by omega, ⟨by simp [hc], ?_⟩, hr ▸ error.retryCount_le, hp ▸ error.repairCount_le⟩
        simpa [hc] using error.code_valid
      simp only
      rw [AdjudicationAttempt.make_ok (hattempt _ rfl rfl rfl rfl)]
      refine ⟨_, _, [_], rfl, rfl, ⟨.fail _ _ _, ?_, ?_, ?_⟩, rfl⟩
      · simp
      · simp
      · simpa using error.code_valid
    · -- an answer: a vote when the candidate is allowed, and another call otherwise
      have hattempt : ∀ f : AttemptFields, f.attemptIndex = index → CodesValid f.validationCodes →
          f.providerRetryCount = result.retryCount → f.providerRepairCount = result.repairCount → f.Valid := by
        intro f hi hc hr hp
        exact ⟨by omega, hc, hr ▸ result.retryCount_le, hp ▸ result.repairCount_le⟩
      simp only
      by_cases hallow : result.structured.candidateId ∈ b.allowlist
      · simp only [hallow, not_true_eq_false, if_false, if_true]
        rw [AdjudicationAttempt.make_ok (hattempt _ rfl (voteCodes_valid b _) rfl rfl)]
        refine ⟨_, _, [_], rfl, rfl, ⟨.vote _ _ _ _ hallow rfl rfl rfl rfl rfl rfl rfl, ?_, ?_, ?_⟩, rfl⟩
        · simp
        · exact le_trans (voteCodes_length_le b _) (by omega)
        · exact (voteCodes_valid b _).2
      · simp only [hallow, not_false_eq_true, if_true, if_false]
        generalize hmake : AdjudicationAttempt.make _ = made
        obtain ⟨a, rfl⟩ : ∃ a, made = .ok a :=
          ⟨_, hmake ▸ AdjudicationAttempt.make_ok (hattempt _ rfl unknownCode_valid rfl rfl)⟩
        have ha := AdjudicationAttempt.make_eq_ok.1 hmake
        have hnext : ∀ code ∈ codes ++ ["LLM_CANDIDATE_UNKNOWN"], isErrorCode code := by
          intro code hcode
          rcases List.mem_append.1 hcode with hcode | hcode
          · exact hvalid code hcode
          · exact unknownCode_valid.2 code hcode
        have hlength : (codes ++ ["LLM_CANDIDATE_UNKNOWN"]).length + remaining ≤ 2 := by
          rw [List.length_append, List.length_singleton]
          omega
        by_cases hlast : 0 < remaining
        · obtain ⟨r, calls'', news, hrun, hattempts, hspec, hnamed⟩ :=
            @ih (index + 1) _ (attempts ++ [a]) calls' hlast (by omega) (by omega) hlength hnext
          have hcorrection : (codes ++ ["LLM_CANDIDATE_UNKNOWN"]).getLast? = some "LLM_CANDIDATE_UNKNOWN" := by simp
          rw [hcorrection] at hspec
          refine ⟨r, calls'', a :: news, ?_, ?_, ⟨.unknown _ _ _ _ _ ?_ ?_ ?_ ?_ ?_ ?_ hspec.run, ?_, hspec.codes_le,
            hspec.codes_valid⟩, hnamed⟩
          · simp only [hlast, if_true]
            exact hrun
          · rw [hattempts, List.append_assoc]
            rfl
          all_goals first
            | rw [ha]
            | exact Nat.succ_le_succ hspec.length_le
        · obtain rfl : remaining = 0 := by omega
          exact ⟨_, _, [a], rfl, rfl, ⟨.fail _ _ _, by simp, hlength, hnext⟩, rfl⟩

end Votes

end ArdOssie
