import ArdOssie.Semantic.DecisionRecords

/-!
# Semantic replay

The catalog of trusted baselines.  A baseline is found by the identity of its decisions, a sorted tuple without
duplicates; equal identities are merged and must have the same bytes.
-/

namespace ArdOssie

structure DecisionReport where
  sourceHash : Sha256
  decisions : List DecisionRecord

structure SemanticDecisionIdentity where
  decisionType : Text
  regionId : RegionId
  candidateSetId : CandidateSetId
  requestHash : Sha256
  deriving DecidableEq

structure SemanticReplayIdentity where
  sourceHash : Sha256
  decisions : List SemanticDecisionIdentity
  deriving DecidableEq

structure SemanticReplayBaseline where
  productKey : Text
  identity : SemanticReplayIdentity
  canonicalMarkdown : List ℕ
  decisions : DecisionReport

structure SemanticReplayCatalog where
  baselines : List SemanticReplayBaseline

/-- `SEMANTIC_REPLAY_TRUST_MISMATCH` -/
def replayTrustMismatch : PyError := .valueError "SEMANTIC_REPLAY_TRUST_MISMATCH"

/-- `SemanticReplayBaselineConflict` -/
def replayBaselineConflict : PyError := .valueError "SEMANTIC_REPLAY_BASELINE_CONFLICT"

/-- The identity of a decision. -/
def DecisionRecord.replayIdentity (d : DecisionRecord) : SemanticDecisionIdentity :=
  ⟨d.decisionType, d.regionId, d.candidateSetId, d.requestHash⟩

/-- The order of the identities. -/
def SemanticDecisionIdentity.sortKey (i : SemanticDecisionIdentity) :
    Text ×ₗ Fin (2 ^ 64) ×ₗ Fin (2 ^ 64) ×ₗ Fin (2 ^ 256) :=
  toLex (i.decisionType, toLex (i.regionId.value, toLex (i.candidateSetId.value, i.requestHash.value)))

/-- `semantic_replay_identity` -/
def semanticReplayIdentity (report : DecisionReport) : PyResult SemanticReplayIdentity := do
  raiseIf (∃ d ∈ report.decisions, d.sourceHash ≠ report.sourceHash) replayTrustMismatch
  let decisions := sortBy (·.sortKey) (report.decisions.map (·.replayIdentity))
  raiseIf (¬ decisions.Nodup) replayTrustMismatch
  return ⟨report.sourceHash, decisions⟩

namespace SemanticReplayCatalog

/-- One pass of the loop of `SemanticReplayCatalog.build`. -/
def addEntry (grouped : List SemanticReplayBaseline) (entry : SemanticReplayBaseline) :
    PyResult (List SemanticReplayBaseline) := do
  let identity ← semanticReplayIdentity entry.decisions
  raiseIf (entry.identity ≠ identity) replayTrustMismatch
  match grouped.find? fun b => b.identity = entry.identity with
  | none => return grouped ++ [entry]
  | some existing => do
    raiseIf (existing.canonicalMarkdown ≠ entry.canonicalMarkdown) replayBaselineConflict
    return grouped

/-- `SemanticReplayCatalog.build` -/
def build (entries : List SemanticReplayBaseline) : PyResult SemanticReplayCatalog := do
  let grouped ← entries.foldlM addEntry []
  return ⟨grouped⟩

variable (catalog : SemanticReplayCatalog)

/-- `SemanticReplayCatalog.trusted_decisions` -/
def trustedDecisions (sourceHash : Sha256) : List DecisionRecord :=
  (catalog.baselines.filter fun b => b.identity.sourceHash = sourceHash).flatMap (·.decisions.decisions)

/-- `SemanticReplayCatalog.canonical_markdown_for` -/
def canonicalMarkdownFor (report : DecisionReport) : PyResult (Option (List ℕ)) := do
  let identity ← semanticReplayIdentity report
  return (catalog.baselines.find? fun b => b.identity = identity).map (·.canonicalMarkdown)

end SemanticReplayCatalog

/-! ### Permutations -/

/-- Reports with the same decisions in another order. -/
structure DecisionReport.Reordered (report report' : DecisionReport) : Prop where
  sourceHash : report.sourceHash = report'.sourceHash
  decisions : report.decisions.Perm report'.decisions

/-- Baselines that differ in the order of their decisions. -/
structure SemanticReplayBaseline.Reordered (entry entry' : SemanticReplayBaseline) : Prop where
  productKey : entry.productKey = entry'.productKey
  identity : entry.identity = entry'.identity
  canonicalMarkdown : entry.canonicalMarkdown = entry'.canonicalMarkdown
  decisions : entry.decisions.Reordered entry'.decisions

theorem SemanticDecisionIdentity.sortKey_injective : Function.Injective SemanticDecisionIdentity.sortKey := by
  rintro ⟨t, ⟨r⟩, ⟨c⟩, ⟨h⟩⟩ ⟨t', ⟨r'⟩, ⟨c'⟩, ⟨h'⟩⟩ heq
  simp only [sortKey, toLex_inj, Prod.mk.injEq] at heq
  obtain ⟨rfl, rfl, rfl, rfl⟩ := heq
  rfl

/-- Distinct keys have one sorted order. -/
private theorem sortBy_eq_of_perm {l l' : List SemanticDecisionIdentity} (h : l.Perm l') :
    sortBy (·.sortKey) l = sortBy (·.sortKey) l' := by
  refine ((sortBy_perm _ l).trans (h.trans (sortBy_perm _ l').symm)).eq_of_pairwise ?_ (sortBy_pairwise_le _ l)
    (sortBy_pairwise_le _ l')
  intro a b _ _ hab hba
  exact SemanticDecisionIdentity.sortKey_injective (le_antisymm hab hba)

/-- The identity of a report does not depend on the order of its decisions. -/
theorem semanticReplayIdentity_reordered {report report' : DecisionReport} (h : report.Reordered report') :
    semanticReplayIdentity report = semanticReplayIdentity report' := by
  have hmismatch : (∃ d ∈ report.decisions, d.sourceHash ≠ report.sourceHash) ↔
      ∃ d ∈ report'.decisions, d.sourceHash ≠ report'.sourceHash := by
    rw [h.sourceHash]
    exact exists_congr fun d => and_congr_left fun _ => h.decisions.mem_iff
  have hsorted := sortBy_eq_of_perm (h.decisions.map (·.replayIdentity))
  have hraise : raiseIf (∃ d ∈ report.decisions, d.sourceHash ≠ report.sourceHash) replayTrustMismatch =
      raiseIf (∃ d ∈ report'.decisions, d.sourceHash ≠ report'.sourceHash) replayTrustMismatch :=
    if_congr hmismatch rfl rfl
  unfold semanticReplayIdentity
  rw [hraise, hsorted, h.sourceHash]

/-! ### Building -/

/-- Two entries with one identity have different bytes. -/
def ReplayConflict (entries : List SemanticReplayBaseline) : Prop :=
  ∃ e ∈ entries, ∃ e' ∈ entries, e.identity = e'.identity ∧ e.canonicalMarkdown ≠ e'.canonicalMarkdown

/-- The bytes of the first entry with an identity. -/
def bytesOf (entries : List SemanticReplayBaseline) (identity : SemanticReplayIdentity) : Option (List ℕ) :=
  (entries.find? fun b => b.identity = identity).map (·.canonicalMarkdown)

section Build

variable {entries entries' grouped : List SemanticReplayBaseline} {identity : SemanticReplayIdentity}

/-- Without a conflict, the bytes of an identity are those of any entry with it. -/
private theorem bytesOf_eq_some (h : ¬ ReplayConflict entries) {bytes : List ℕ} :
    bytesOf entries identity = some bytes ↔ ∃ e ∈ entries, e.identity = identity ∧ e.canonicalMarkdown = bytes := by
  unfold bytesOf
  rw [Option.map_eq_some_iff]
  constructor
  · rintro ⟨e, he, rfl⟩
    have hidentity := List.find?_some he
    exact ⟨e, List.mem_of_find?_eq_some he, of_decide_eq_true hidentity, rfl⟩
  · rintro ⟨e, he, rfl, rfl⟩
    obtain ⟨e', he'⟩ : ∃ e', (entries.find? fun b => b.identity = e.identity) = some e' := by
      rw [← Option.isSome_iff_exists, List.find?_isSome]
      exact ⟨e, he, decide_eq_true rfl⟩
    refine ⟨e', he', ?_⟩
    by_contra hne
    have hidentity := List.find?_some he'
    exact h ⟨e', List.mem_of_find?_eq_some he', e, he, of_decide_eq_true hidentity, hne⟩

/-- The same identities and bytes, in another order or with repetitions. -/
private def SameBytes (entries entries' : List SemanticReplayBaseline) : Prop :=
  ∀ identity bytes, (∃ e ∈ entries, e.identity = identity ∧ e.canonicalMarkdown = bytes) ↔
    ∃ e ∈ entries', e.identity = identity ∧ e.canonicalMarkdown = bytes

private theorem SameBytes.conflict_iff (h : SameBytes entries entries') :
    ReplayConflict entries ↔ ReplayConflict entries' := by
  have hconflict : ∀ {l l'}, SameBytes l l' → ReplayConflict l → ReplayConflict l' := by
    rintro l l' h ⟨e, he, e', he', hidentity, hne⟩
    obtain ⟨a, ha, hia, hba⟩ := (h _ _).1 ⟨e, he, rfl, rfl⟩
    obtain ⟨b, hb, hib, hbb⟩ := (h _ _).1 ⟨e', he', rfl, rfl⟩
    exact ⟨a, ha, b, hb, by rw [hia, hib, hidentity], by rwa [hba, hbb]⟩
  exact ⟨hconflict h, hconflict fun i b => (h i b).symm⟩

private theorem SameBytes.bytesOf_eq (h : SameBytes entries entries') (hentries : ¬ ReplayConflict entries) :
    bytesOf entries = bytesOf entries' := by
  have hentries' : ¬ ReplayConflict entries' := fun hc => hentries (h.conflict_iff.2 hc)
  funext identity
  refine Option.ext fun bytes => ?_
  rw [bytesOf_eq_some hentries, bytesOf_eq_some hentries']
  exact h identity bytes

/-- An entry with the identity of its decisions. -/
private def Trusted (entry : SemanticReplayBaseline) : Prop := semanticReplayIdentity entry.decisions = .ok entry.identity

private theorem addEntry_of_trusted {entry : SemanticReplayBaseline} (h : Trusted entry) :
    SemanticReplayCatalog.addEntry grouped entry =
      match grouped.find? fun b => b.identity = entry.identity with
      | none => .ok (grouped ++ [entry])
      | some existing => do
        raiseIf (existing.canonicalMarkdown ≠ entry.canonicalMarkdown) replayBaselineConflict
        return grouped := by
  unfold SemanticReplayCatalog.addEntry
  rw [h, ok_bind]
  simp only [raiseIf, ne_eq, not_true_eq_false, ↓reduceIte, ok_bind]
  rfl

/-- The loop over trusted entries raises a conflict, or the grouped entries have the bytes of all of them. -/
private theorem foldlM_addEntry (hentries : ∀ e ∈ entries, Trusted e) (hgrouped : ¬ ReplayConflict grouped) :
    (ReplayConflict (grouped ++ entries) ∧
      entries.foldlM SemanticReplayCatalog.addEntry grouped = .error replayBaselineConflict) ∨
    (¬ ReplayConflict (grouped ++ entries) ∧ ∃ baselines,
      entries.foldlM SemanticReplayCatalog.addEntry grouped = .ok baselines ∧
        bytesOf baselines = bytesOf (grouped ++ entries)) := by
  induction entries generalizing grouped with
  | nil =>
    rw [List.append_nil]
    exact Or.inr ⟨hgrouped, grouped, rfl, rfl⟩
  | cons entry entries ih =>
    obtain ⟨hentry, hentries⟩ := List.forall_mem_cons.1 hentries
    rw [List.foldlM_cons, addEntry_of_trusted hentry]
    cases hfind : grouped.find? fun b => b.identity = entry.identity with
    -- a new identity is appended and conflicts with nothing
    | none =>
      have hnew : ∀ b ∈ grouped, b.identity ≠ entry.identity := by
        intro b hb
        simpa using List.find?_eq_none.1 hfind b hb
      have hnext : ¬ ReplayConflict (grouped ++ [entry]) := by
        rintro ⟨e, he, e', he', hidentity, hne⟩
        rw [List.mem_append, List.mem_singleton] at he he'
        rcases he with he | rfl <;> rcases he' with he' | rfl
        · exact hgrouped ⟨e, he, e', he', hidentity, hne⟩
        · exact hnew e he hidentity
        · exact hnew e' he' hidentity.symm
        · exact hne rfl
      have h := ih hentries hnext
      rw [List.append_assoc, List.singleton_append] at h
      exact h
    | some existing =>
      have hidentity : existing.identity = entry.identity := by
        have h := List.find?_some hfind
        exact of_decide_eq_true h
      have hexisting := List.mem_of_find?_eq_some hfind
      dsimp only
      by_cases hbytes : existing.canonicalMarkdown = entry.canonicalMarkdown
      · -- the same bytes again: the entry is dropped
        have hsame : SameBytes (grouped ++ entries) (grouped ++ entry :: entries) := by
          intro identity bytes
          constructor
          · rintro ⟨e, he, h⟩
            refine ⟨e, ?_, h⟩
            rw [List.mem_append, List.mem_cons]
            exact (List.mem_append.1 he).imp_right Or.inr
          · rintro ⟨e, he, h⟩
            rw [List.mem_append, List.mem_cons] at he
            rcases he with he | rfl | he
            · exact ⟨e, List.mem_append_left _ he, h⟩
            · exact ⟨existing, List.mem_append_left _ hexisting, hidentity.trans h.1, hbytes.trans h.2⟩
            · exact ⟨e, List.mem_append_right _ he, h⟩
        have hstep : (raiseIf (existing.canonicalMarkdown ≠ entry.canonicalMarkdown) replayBaselineConflict >>= fun _ =>
            (.ok grouped : PyResult _)) = .ok grouped := raiseIf_bind_eq_ok.2 ⟨not_not.2 hbytes, rfl⟩
        rcases ih hentries hgrouped with ⟨hconflict, h⟩ | ⟨hconflict, baselines, h, hlookup⟩
        · left
          exact ⟨hsame.conflict_iff.1 hconflict, by rw [← h]; exact congrArg (· >>= _) hstep⟩
        · right
          refine ⟨fun hc => hconflict (hsame.conflict_iff.2 hc), baselines, ?_, ?_⟩
          · rw [← h]
            exact congrArg (· >>= _) hstep
          · rw [hlookup, hsame.bytesOf_eq hconflict]
      · left
        refine ⟨⟨existing, List.mem_append_left _ hexisting, entry, by simp, hidentity, hbytes⟩, ?_⟩
        have hstep : raiseIf (existing.canonicalMarkdown ≠ entry.canonicalMarkdown) replayBaselineConflict =
            .error replayBaselineConflict := if_pos hbytes
        rw [hstep]
        rfl

private theorem not_replayConflict_nil : ¬ ReplayConflict [] := by
  rintro ⟨e, he, -⟩
  cases he

/-- Trusted entries are built into a catalog exactly when there is no conflict. -/
private theorem build_spec (hentries : ∀ e ∈ entries, Trusted e) :
    (ReplayConflict entries ∧ SemanticReplayCatalog.build entries = .error replayBaselineConflict) ∨
    (¬ ReplayConflict entries ∧ ∃ catalog, SemanticReplayCatalog.build entries = .ok catalog ∧
      bytesOf catalog.baselines = bytesOf entries) := by
  rcases foldlM_addEntry hentries not_replayConflict_nil with ⟨hconflict, h⟩ | ⟨hconflict, baselines, h, hlookup⟩
  · left
    refine ⟨hconflict, ?_⟩
    rw [SemanticReplayCatalog.build, h]
    rfl
  · right
    refine ⟨hconflict, ⟨baselines⟩, ?_, hlookup⟩
    rw [SemanticReplayCatalog.build, h]
    rfl

/-- Reordered entries, each with reordered decisions, have the same identities and bytes. -/
private theorem sameBytes_of_reordered {permuted : List SemanticReplayBaseline} (hpermuted : entries.Perm permuted)
    (hreordered : List.Forall₂ SemanticReplayBaseline.Reordered permuted entries') : SameBytes entries entries' := by
  intro identity bytes
  constructor
  · rintro ⟨e, he, rfl, rfl⟩
    obtain ⟨e', he', h⟩ := exists_of_forall₂_left hreordered (hpermuted.mem_iff.1 he)
    exact ⟨e', he', h.identity.symm, h.canonicalMarkdown.symm⟩
  · rintro ⟨e', he', rfl, rfl⟩
    obtain ⟨e, he, h⟩ := exists_of_forall₂_right hreordered he'
    exact ⟨e, hpermuted.mem_iff.2 he, h.identity, h.canonicalMarkdown⟩

/-- Entries with the identity of their decisions raise a conflict exactly when two with one identity have different
bytes; in another order of the entries and of the decisions inside each they raise too, or answer every query with
the same bytes. -/
theorem replay_order_independent {permuted : List SemanticReplayBaseline}
    (hentries : ∀ e ∈ entries, semanticReplayIdentity e.decisions = .ok e.identity)
    (hpermuted : entries.Perm permuted)
    (hreordered : List.Forall₂ SemanticReplayBaseline.Reordered permuted entries') :
    (SemanticReplayCatalog.build entries = .error replayBaselineConflict ↔
      ∃ e ∈ entries, ∃ e' ∈ entries, e.identity = e'.identity ∧ e.canonicalMarkdown ≠ e'.canonicalMarkdown) ∧
    ((∃ e, SemanticReplayCatalog.build entries = .error e) ∧ (∃ e, SemanticReplayCatalog.build entries' = .error e) ∨
      ∃ catalog catalog', SemanticReplayCatalog.build entries = .ok catalog ∧
        SemanticReplayCatalog.build entries' = .ok catalog' ∧ ∀ report report', report.Reordered report' →
          catalog.canonicalMarkdownFor report = catalog'.canonicalMarkdownFor report') := by
  have hsame := sameBytes_of_reordered hpermuted hreordered
  have hentries' : ∀ e ∈ entries', Trusted e := by
    intro e' he'
    obtain ⟨e, he, h⟩ := exists_of_forall₂_right hreordered he'
    have htrusted := hentries e (hpermuted.mem_iff.2 he)
    rw [semanticReplayIdentity_reordered h.decisions, h.identity] at htrusted
    exact htrusted
  rcases build_spec hentries with ⟨hconflict, hbuild⟩ | ⟨hconflict, catalog, hbuild, hlookup⟩
  · refine ⟨iff_of_true hbuild hconflict, Or.inl ⟨⟨_, hbuild⟩, ?_⟩⟩
    rcases build_spec hentries' with ⟨-, hbuild'⟩ | ⟨hconflict', -⟩
    · exact ⟨_, hbuild'⟩
    · exact absurd (hsame.conflict_iff.1 hconflict) hconflict'
  · refine ⟨iff_of_false (by rw [hbuild]; exact fun h => by cases h) hconflict, Or.inr ?_⟩
    rcases build_spec hentries' with ⟨hconflict', -⟩ | ⟨-, catalog', hbuild', hlookup'⟩
    · exact absurd (hsame.conflict_iff.2 hconflict') hconflict
    · refine ⟨catalog, catalog', hbuild, hbuild', fun report report' hreport => ?_⟩
      unfold SemanticReplayCatalog.canonicalMarkdownFor
      rw [semanticReplayIdentity_reordered hreport]
      refine bind_congr fun identity => ?_
      have hbytes : bytesOf catalog.baselines identity = bytesOf catalog'.baselines identity := by
        rw [hlookup, hlookup', hsame.bytesOf_eq hconflict]
      exact congrArg pure hbytes

end Build

/-! ### Two decisions -/

/-- The decision for a region. -/
def regionDecision (region : Fin (2 ^ 64)) : DecisionRecord where
  requestHash := ⟨0⟩
  sourceHash := ⟨0⟩
  evidenceHash := ⟨0⟩
  candidateSetId := ⟨region⟩
  regionId := ⟨region⟩
  decisionType := "spacing".toList
  provider := "p".toList
  model := "m".toList
  selectedCandidateId := none
  outcome := .reviewRequired
  source := .unavailable
  confidence := Score.zero
  decisionId := ⟨region⟩
  scope_valid := ⟨by dsimp only; decide, by dsimp only; decide, by dsimp only; decide⟩
  verdict_valid := by decide

/-- A baseline of the decisions for two regions. -/
def pairBaseline (productKey : Text) (first second : Fin (2 ^ 64)) : SemanticReplayBaseline where
  productKey := productKey
  identity := ⟨⟨0⟩, [0, 1].map fun region => (regionDecision region).replayIdentity⟩
  canonicalMarkdown := [65]
  decisions := ⟨⟨0⟩, [regionDecision first, regionDecision second]⟩

theorem replay_order_independent_pair : ∃ catalog catalog',
    SemanticReplayCatalog.build [pairBaseline ['a'] 1 0, pairBaseline ['b'] 0 1] = .ok catalog ∧
      SemanticReplayCatalog.build [pairBaseline ['b'] 1 0, pairBaseline ['a'] 0 1] = .ok catalog' ∧
      ∀ report, catalog.canonicalMarkdownFor report = catalog'.canonicalMarkdownFor report := by
  have hreordered (productKey : Text) (first second : Fin (2 ^ 64)) :
      (pairBaseline productKey first second).Reordered (pairBaseline productKey second first) :=
    ⟨rfl, rfl, rfl, rfl, List.Perm.swap _ _ _⟩
  have htrusted : ∀ e ∈ [pairBaseline ['a'] 1 0, pairBaseline ['b'] 0 1],
      semanticReplayIdentity e.decisions = .ok e.identity := by
    intro e he
    rcases List.mem_pair.1 he with rfl | rfl <;> rfl
  obtain ⟨-, ⟨⟨e, h⟩, -⟩ | ⟨catalog, catalog', h, h', hquery⟩⟩ := replay_order_independent htrusted
    (List.Perm.swap _ _ _) (.cons (hreordered ['b'] 0 1) (.cons (hreordered ['a'] 1 0) .nil))
  · cases h
  · exact ⟨catalog, catalog', h, h', fun report => hquery report report ⟨rfl, List.Perm.refl _⟩⟩

end ArdOssie
