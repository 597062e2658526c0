import ArdOssie.Semantic.RepairBatches

/-!
# Runs of the repair planner

Whatever the provider answers, a run ends with an accepted plan of exactly the requested spans, with a record and no
blocks, or, when the planner is told to propagate them, with the error of the provider.
-/

namespace ArdOssie

variable {platform : Platform}

/-! ### Applications -/

section Applications

variable {context : RepairContext} {threshold : ℚ}

/-- The application of a validated plan. -/
structure Accepted (threshold : ℚ) (context : RepairContext) (app : RepairApplication platform) (v : ValidatedPlan) :
    Prop where
  accepted : PlanAccepted platform threshold context v
  blocks : app.blocks = v.blocks
  plan : app.record.plan = some v.plan
  outcome : app.record.outcome = .applied ∨ app.record.outcome = .reused
  appliedOrders : app.record.appliedOrders = v.plan.blocks.map (·.order)
  rejectedOrders : app.record.rejectedOrders = []

/-- The application of a repair that was given up. -/
structure Refused (app : RepairApplication platform) (recorded : Option RepairPlan) : Prop where
  blocks : app.blocks = []
  plan : app.record.plan = recorded
  outcome : app.record.outcome = .rejected ∨ app.record.outcome = .degraded
  appliedOrders : app.record.appliedOrders = []
  rejectedOrders : app.record.rejectedOrders = ((recorded.map fun p => p.blocks.map (·.order)).getD []).eraseDups

/-- A validated plan has an application. -/
theorem application_total (identity : Text × Text) {v : ValidatedPlan}
    (hv : PlanAccepted platform threshold context v) {outcome : RepairOutcome}
    (houtcome : outcome = .applied ∨ outcome = .reused) (codes : List String) :
    ∃ app, application platform context identity v outcome codes = .ok app ∧ app.record.outcome = outcome ∧
      Accepted threshold context app v := by
  have hvalid : (recordFields platform context identity outcome (some v.plan) none codes
      (v.plan.blocks.map (·.order)) []).Valid platform := by
    refine ⟨hv.orders.imp ne_of_lt, List.nodup_nil, by simp [recordFields], fun _ => ⟨rfl, rfl⟩, ?_⟩
    rintro h ⟨⟩
    exact ⟨v.plan, rfl, rfl⟩
  unfold application
  rw [RepairRecord.make_of_valid hvalid]
  exact ⟨_, rfl, rfl, hv, rfl, rfl, houtcome, rfl, rfl⟩

/-- A repair that is given up has a record. -/
theorem emptyApplication_total (context : RepairContext) (identity : Text × Text) (outcome : RepairOutcome)
    (houtcome : outcome = .rejected ∨ outcome = .degraded) (codes : List String) (errorCode : Option String)
    (plan : Option RepairPlan) :
    ∃ app, emptyApplication platform context identity outcome codes errorCode plan = .ok app ∧ Refused app plan := by
  have hvalid : (recordFields platform context identity outcome plan errorCode codes []
      ((plan.map fun p => p.blocks.map (·.order)).getD []).eraseDups).Valid platform := by
    refine ⟨List.nodup_nil, nodup_eraseDups _, by simp [recordFields], fun h => ?_, fun h hh => ?_⟩
    · rcases houtcome with rfl | rfl <;> rcases h with h | h <;> cases h
    · obtain ⟨p, hp, rfl⟩ := Option.map_eq_some_iff.1 hh
      exact ⟨p, hp, rfl⟩
  unfold emptyApplication
  dsimp only
  rw [RepairRecord.make_of_valid hvalid]
  exact ⟨_, rfl, rfl, rfl, houtcome, rfl, rfl⟩

end Applications

/-! ### Batches -/

section Batches

/-- Whether the validation of a response gives a plan. -/
def RepairPlanner.accepts (platform : Platform) (planner : RepairPlanner) (context : RepairContext)
    (response : RepairResponse) : Bool :=
  match validatePlan platform planner.confidenceThreshold context response with
  | .ok check => check.validated.isSome
  | .error _ => false

/-- The batches whose first response is rejected, from the call `index` on. -/
def RepairPlanner.rejectedFrom (platform : Platform) (planner : RepairPlanner) : List RepairBatch → ℕ → List RepairBatch
  | [], _ => []
  | batch :: batches, index =>
    match planner.provider index with
    | .error _ => planner.rejectedFrom platform batches (index + 1)
    | .ok response =>
      if planner.accepts platform batch.context response then planner.rejectedFrom platform batches (index + 1)
      else batch :: planner.rejectedFrom platform batches (index + 1)

/-- A call of the two rounds over the batches ends with a provider error: one call for each batch, then one more for
each batch whose first response is rejected. -/
def RepairPlanner.MeetsProviderError (platform : Platform) (planner : RepairPlanner) (batches : List RepairBatch) :
    Prop :=
  ∃ call < batches.length + (planner.rejectedFrom platform batches 0).length, ∃ code,
    planner.provider call = .error code

/-- The plans found so far and the failed batches belong to batches. -/
structure BatchState.Sound (platform : Platform) (planner : RepairPlanner) (batches : List RepairBatch)
    (s : BatchState) : Prop where
  validated : ∀ i v, s.validated.lookup i = some v → ∃ batch, batches[i]? = some batch ∧
    PlanAccepted platform planner.confidenceThreshold batch.context v
  failed : ∀ p ∈ s.failed, batches[p.1]? = some p.2

variable {planner : RepairPlanner} {context : RepairContext} {batches : List RepairBatch}

private theorem BatchState.Sound.insert {s : BatchState} (hs : s.Sound platform planner batches) {i : ℕ}
    {batch : RepairBatch} (hi : batches[i]? = some batch) {v : ValidatedPlan}
    (hv : PlanAccepted platform planner.confidenceThreshold batch.context v) :
    BatchState.Sound platform planner batches { s with validated := s.validated.insert i v } := by
  refine ⟨fun j w hw => ?_, hs.failed⟩
  by_cases hj : j = i
  · subst hj
    rw [AList.lookup_insert, Option.some_inj] at hw
    exact ⟨batch, hi, hw ▸ hv⟩
  · rw [AList.lookup_insert_ne hj] at hw
    exact hs.validated j w hw

private theorem BatchState.Sound.fail {s : BatchState} (hs : s.Sound platform planner batches) {i : ℕ}
    {batch : RepairBatch} (hi : batches[i]? = some batch) (codes : List String) :
    BatchState.Sound platform planner batches ⟨s.validated, s.failed ++ [(i, batch)], codes⟩ := by
  refine ⟨hs.validated, fun p hp => ?_⟩
  rcases List.mem_append.1 hp with hp | hp
  · exact hs.failed p hp
  · obtain rfl := List.mem_singleton.1 hp
    exact hi

/-- The outcome of a response: accepted with a plan, or rejected. -/
private theorem response_cases (platform : Platform) (planner : RepairPlanner)
    (hnodup : context.orderedSpanIds.Nodup) (response : RepairResponse) :
    ∃ check, validatePlan platform planner.confidenceThreshold context response = .ok check ∧
      planner.accepts platform context response = check.validated.isSome := by
  obtain ⟨check, hcheck⟩ := validatePlan_total platform planner.confidenceThreshold hnodup response
  exact ⟨check, hcheck, by rw [RepairPlanner.accepts, hcheck]⟩

/-- The first round ends at the first provider error, or reaches every batch. -/
private theorem firstRound_spec (context : RepairContext)
    (hnodup : ∀ batch ∈ batches, batch.context.orderedSpanIds.Nodup)
    {rest : List RepairBatch} {index : ℕ} (hrest : rest = batches.drop index) {s : BatchState}
    (hs : s.Sound platform planner batches) :
    (∃ call code codes, index ≤ call ∧ call < batches.length ∧ planner.provider call = .error code ∧
        firstRound platform planner context (rest.zipIdx index) s =
          (providerFailed platform planner context codes none code).map .inl) ∨
      (∀ call, index ≤ call → call < batches.length → ∃ response, planner.provider call = .ok response) ∧
        ∃ s', firstRound platform planner context (rest.zipIdx index) s = .ok (.inr s') ∧
          s'.Sound platform planner batches ∧
          s'.failed.map Prod.snd = s.failed.map Prod.snd ++ planner.rejectedFrom platform rest index := by
  induction rest generalizing index s with
  | nil =>
    have hlength : batches.length ≤ index := List.drop_eq_nil_iff.1 hrest.symm
    refine Or.inr ⟨fun call h1 h2 => by omega, s, rfl, hs, by simp [RepairPlanner.rejectedFrom]⟩
  | cons batch rest ih =>
    have hbatch : batches[index]? = some batch := by
      have h := congrArg (·[0]?) hrest
      simpa [eq_comm] using h
    obtain ⟨hlt, -⟩ := List.getElem?_eq_some_iff.1 hbatch
    have hrest' : rest = batches.drop (index + 1) := by
      have h := congrArg List.tail hrest
      simpa using h
    rw [List.zipIdx_cons]
    cases hprovider : planner.provider index with
    | error code =>
      refine Or.inl ⟨index, code, s.validationCodes, le_rfl, hlt, hprovider, ?_⟩
      unfold firstRound
      simp only [hprovider]
      rfl
    | ok response =>
      -- the state after the first call of the round
      have hstep : ∃ s₁, firstRound platform planner context ((batch, index) :: rest.zipIdx (index + 1)) s =
          firstRound platform planner context (rest.zipIdx (index + 1)) s₁ ∧ s₁.Sound platform planner batches ∧
          s.failed.map Prod.snd ++ planner.rejectedFrom platform (batch :: rest) index =
            s₁.failed.map Prod.snd ++ planner.rejectedFrom platform rest (index + 1) := by
        obtain ⟨check, hcheck, haccepts⟩ := response_cases platform planner
          (hnodup batch (List.mem_of_getElem? hbatch)) response
        conv in firstRound _ _ _ (_ :: _) _ => unfold firstRound
        simp only [hprovider, hcheck, RepairPlanner.rejectedFrom, haccepts, bind, Except.bind]
        cases hv : check.validated with
        | none =>
          exact ⟨_, rfl, hs.fail hbatch _, by simp⟩
        | some v =>
          exact ⟨_, rfl, hs.insert hbatch (validatePlan_validated (hnodup batch (List.mem_of_getElem? hbatch))
            hcheck hv), by simp⟩
      obtain ⟨s₁, hstep, hs₁, hfailed⟩ := hstep
      rw [hstep, hfailed]
      rcases ih hrest' hs₁ with ⟨call, code, codes, h1, h2, h3, h4⟩ | ⟨hall, s', h1, h2, h3⟩
      · exact Or.inl ⟨call, code, codes, by omega, h2, h3, h4⟩
      · refine Or.inr ⟨fun call h4 h5 => ?_, s', h1, h2, h3⟩
        rcases eq_or_lt_of_le h4 with rfl | h4
        · exact ⟨response, hprovider⟩
        · exact hall call h4 h5

/-- The second round ends at the first provider error, or reaches every failed batch. -/
private theorem secondRound_spec (context : RepairContext) (call : ℕ)
    (hnodup : ∀ batch ∈ batches, batch.context.orderedSpanIds.Nodup) {failed : List (ℕ × RepairBatch)}
    (hfailed : ∀ p ∈ failed, batches[p.1]? = some p.2) {s : BatchState}
    (hs : s.Sound platform planner batches) :
    (∃ call' code codes, call ≤ call' ∧ call' < call + failed.length ∧ planner.provider call' = .error code ∧
        secondRound platform planner context failed call s =
          (providerFailed platform planner context codes none code).map .inl) ∨
      (∀ call', call ≤ call' → call' < call + failed.length → ∃ response, planner.provider call' = .ok response) ∧
        ∃ s', secondRound platform planner context failed call s = .ok (.inr s') ∧
          s'.Sound platform planner batches := by
  induction failed generalizing call s with
  | nil => exact Or.inr ⟨fun call' h1 h2 => by simp at h2; omega, s, rfl, hs⟩
  | cons p failed ih =>
    obtain ⟨index, batch⟩ := p
    have hbatch : batches[index]? = some batch := hfailed (index, batch) (by simp)
    rw [List.length_cons]
    cases hprovider : planner.provider call with
    | error code =>
      refine Or.inl ⟨call, code, s.validationCodes, le_rfl, by omega, hprovider, ?_⟩
      unfold secondRound
      simp only [hprovider]
      rfl
    | ok response =>
      have hstep : ∃ s₁, secondRound platform planner context ((index, batch) :: failed) call s =
          secondRound platform planner context failed (call + 1) s₁ ∧ s₁.Sound platform planner batches := by
        obtain ⟨check, hcheck, -⟩ := response_cases platform planner
          (hnodup batch (List.mem_of_getElem? hbatch)) response
        conv in secondRound _ _ _ (_ :: _) _ _ => unfold secondRound
        simp only [hprovider, hcheck, bind, Except.bind]
        cases hv : check.validated with
        | none =>
          refine ⟨⟨s.validated, s.failed, _⟩, rfl, hs.validated, hs.failed⟩
        | some v =>
          exact ⟨_, rfl, hs.insert hbatch (validatePlan_validated (hnodup batch (List.mem_of_getElem? hbatch))
            hcheck hv)⟩
      obtain ⟨s₁, hstep, hs₁⟩ := hstep
      rw [hstep]
      rcases ih (call + 1) (fun p hp => hfailed p (by simp [hp])) hs₁ with ⟨call', code, codes, h1, h2, h3, h4⟩ | ⟨hall, h⟩
      · exact Or.inl ⟨call', code, codes, by omega, by omega, h3, h4⟩
      · refine Or.inr ⟨fun call' h4 h5 => ?_, h⟩
        rcases eq_or_lt_of_le h4 with rfl | h4
        · exact ⟨response, hprovider⟩
        · exact hall call' h4 (by omega)

/-- A provider error is raised again, or the repair is given up. -/
private theorem providerFailed_cases (context : RepairContext) (codes : List String) (plan : Option RepairPlan) (code : String) :
    (planner.propagateProviderErrors = true ∧
        providerFailed platform planner context codes plan code = .error (.providerError code)) ∨
      (planner.propagateProviderErrors = false ∧
        ∃ app, providerFailed platform planner context codes plan code = .ok app ∧ Refused app plan) := by
  unfold providerFailed
  cases planner.propagateProviderErrors with
  | true => exact Or.inl ⟨rfl, rfl⟩
  | false => exact Or.inr ⟨rfl, emptyApplication_total context planner.identity .degraded (Or.inr rfl) codes (some code) plan⟩

/-- When every batch has a plan, the plans of the batches in order are accepted. -/
private theorem BatchState.Sound.plans {s : BatchState} (hs : s.Sound platform planner batches)
    (hlength : s.validated.keys.length = batches.length) :
    ∃ plans, (List.range batches.length).mapM (Dict.getItem s.validated) = .ok plans ∧
      List.Forall₂ (fun batch v => PlanAccepted platform planner.confidenceThreshold batch.context v) batches plans := by
  have hkeys : ∀ i ∈ s.validated.keys, i ∈ List.range batches.length := by
    intro i hi
    obtain ⟨v, hv⟩ := Option.isSome_iff_exists.1 (AList.lookup_isSome.2 (AList.mem_keys.2 hi))
    obtain ⟨batch, hbatch, -⟩ := hs.validated i v hv
    exact List.mem_range.2 (List.getElem?_eq_some_iff.1 hbatch).1
  -- the keys are as many as the batches, so every batch is among them
  have hperm : s.validated.keys.Perm (List.range batches.length) :=
    (List.subperm_of_subset s.validated.keys_nodup hkeys).perm_of_length_le (by simp [hlength])
  have hall : ∀ i ∈ List.range batches.length, ∃ v, Dict.getItem s.validated i = .ok v := by
    intro i hi
    obtain ⟨v, hv⟩ := Option.isSome_iff_exists.1 (AList.lookup_isSome.2 (AList.mem_keys.2 (hperm.mem_iff.2 hi)))
    exact ⟨v, Dict.getItem_eq_ok.2 hv⟩
  obtain ⟨plans, hplans⟩ := mapM_total hall
  refine ⟨plans, hplans, ?_⟩
  obtain ⟨hcount, hplans⟩ := List.forall₂_iff_get.1 (mapM_eq_ok.1 hplans)
  refine List.forall₂_iff_get.2 ⟨by simpa using hcount, fun i h1 h2 => ?_⟩
  have hi := hplans i (by simpa using h1) h2
  rw [List.get_eq_getElem, List.getElem_range, Dict.getItem_eq_ok] at hi
  obtain ⟨batch, hbatch, haccepted⟩ := hs.validated i _ hi
  rw [List.getElem?_eq_getElem h1, Option.some_inj] at hbatch
  rw [List.get_eq_getElem, hbatch]
  exact haccepted

/-- The merged plan of accepted batches is accepted. -/
theorem mergeAndValidate_accepted (planner : RepairPlanner) (hnodup : context.orderedSpanIds.Nodup)
    (hnative : ∀ batch ∈ batches, batch.context.native = context.native)
    (hids : batches.flatMap (·.context.orderedSpanIds) = context.orderedSpanIds) {plans : List ValidatedPlan}
    (h : List.Forall₂ (fun batch v => PlanAccepted platform planner.confidenceThreshold batch.context v) batches plans)
    (codes : List String) :
    ∃ app v, mergeAndValidate platform planner context plans codes = .ok app ∧ app.record.outcome = .applied ∧
      Accepted planner.confidenceThreshold context app v := by
  obtain ⟨v, hmerged, hv⟩ := mergeBatchPlans_accepted hnodup hnative hids h
  obtain ⟨app, happ, houtcome, haccepted⟩ := application_total planner.identity hv (Or.inl rfl) codes
  refine ⟨app, v, ?_, houtcome, haccepted⟩
  unfold mergeAndValidate
  rw [hmerged]
  exact bind_eq_ok.2 ⟨v.plan, rfl, bind_eq_ok.2 ⟨_, validatePlan_of_accepted hnodup hv, happ⟩⟩

/-- How a run over several batches ends. -/
theorem repairEvidenceBatches_spec (planner : RepairPlanner) (hnodup : context.orderedSpanIds.Nodup)
    (hbatches : ∀ batch ∈ batches, batch.context.orderedSpanIds.Nodup)
    (hnative : ∀ batch ∈ batches, batch.context.native = context.native)
    (hids : batches.flatMap (·.context.orderedSpanIds) = context.orderedSpanIds) :
    (planner.propagateProviderErrors = true ∧ planner.MeetsProviderError platform batches ∧
        ∃ code, repairEvidenceBatches platform planner context batches = .error (.providerError code)) ∨
      ¬ (planner.propagateProviderErrors = true ∧ planner.MeetsProviderError platform batches) ∧
        ∃ app, repairEvidenceBatches platform planner context batches = .ok app ∧
          ((∃ v, Accepted planner.confidenceThreshold context app v) ∨ Refused app none) := by
  have hempty : BatchState.Sound platform planner batches ⟨∅, [], []⟩ := by
    refine ⟨fun i v h => ?_, by simp⟩
    rw [AList.lookup_empty] at h
    cases h
  unfold repairEvidenceBatches
  rcases firstRound_spec context hbatches (List.drop_zero).symm hempty with
    ⟨call, code, codes, -, hcall, hcode, hfirst⟩ | ⟨hfirstCalls, s, hfirst, hs, hfailed⟩
  · have hmeets : planner.MeetsProviderError platform batches := ⟨call, by omega, code, hcode⟩
    rw [hfirst]
    rcases providerFailed_cases context codes none code with ⟨hflag, h⟩ | ⟨hflag, app, h, happ⟩
    · exact Or.inl ⟨hflag, hmeets, code, by rw [h]; rfl⟩
    · exact Or.inr ⟨by simp [hflag], app, by rw [h]; rfl, Or.inr happ⟩
  rw [hfirst]
  have hcount : (planner.rejectedFrom platform batches 0).length = s.failed.length := by
    have h := congrArg List.length hfailed
    simpa [eq_comm] using h
  rcases secondRound_spec context batches.length hbatches hs.failed hs with
    ⟨call, code, codes, -, hcall, hcode, hsecond⟩ | ⟨hsecondCalls, s', hsecond, hs'⟩
  · have hmeets : planner.MeetsProviderError platform batches := ⟨call, by omega, code, hcode⟩
    simp only [bind, Except.bind, hsecond]
    rcases providerFailed_cases context codes none code with ⟨hflag, h⟩ | ⟨hflag, app, h, happ⟩
    · exact Or.inl ⟨hflag, hmeets, code, by rw [h]; rfl⟩
    · exact Or.inr ⟨by simp [hflag], app, by rw [h]; rfl, Or.inr happ⟩
  · have hmeets : ¬ planner.MeetsProviderError platform batches := by
      rintro ⟨call, hcall, code, hcode⟩
      obtain ⟨response, hresponse⟩ : ∃ response, planner.provider call = .ok response := by
        rcases lt_or_ge call batches.length with hlt | hge
        · exact hfirstCalls call (Nat.zero_le _) hlt
        · exact hsecondCalls call hge (by omega)
      rw [hresponse] at hcode
      cases hcode
    refine Or.inr ⟨fun h => hmeets h.2, ?_⟩
    simp only [bind, Except.bind, hsecond]
    by_cases hlength : s'.validated.keys.length = batches.length
    · obtain ⟨plans, hplans, hall⟩ := hs'.plans hlength
      obtain ⟨app, v, happ, -, haccepted⟩ := mergeAndValidate_accepted planner hnodup hnative hids hall
        s'.validationCodes
      rw [if_neg (not_not.2 hlength), hplans]
      exact ⟨app, happ, Or.inl ⟨v, haccepted⟩⟩
    · rw [if_pos hlength]
      obtain ⟨app, happ, hrefused⟩ := @emptyApplication_total platform context planner.identity .rejected
        (Or.inl rfl) s'.validationCodes none none
      exact ⟨app, happ, Or.inr hrefused⟩

end Batches

/-! ### A single batch -/

section SingleBatch

/-- The plan of a response, if it can be read. -/
def RepairResponse.plan : RepairResponse → Option RepairPlan
  | .conforming blocks => parsePlan blocks
  | _ => none

/-- The response is a readable plan with a span that the document does not have. -/
def RepairResponse.NamesUnknownSpan (native : NativeDocument) (response : RepairResponse) : Prop :=
  ∃ plan, response.plan = some plan ∧ ∃ i ∈ plan.spanIds, i ∉ native.spanIds

/-- The repair is given up after a response that names an unknown span: the first one when the second call fails,
otherwise the second one. -/
def RepairPlanner.RecordsUnknownSpan (platform : Platform) (planner : RepairPlanner) (context : RepairContext) : Prop :=
  ∃ first, planner.provider 0 = .ok first ∧ planner.accepts platform context first = false ∧
    ((∃ code, planner.provider 1 = .error code) ∧ first.NamesUnknownSpan context.native ∨
      ∃ second, planner.provider 1 = .ok second ∧ second.NamesUnknownSpan context.native)

variable {planner : RepairPlanner} {context : RepairContext} {threshold : ℚ}

private theorem checkPlan_plan {plan : RepairPlan} {check : PlanCheck}
    (h : checkPlan platform threshold context plan = .ok check) :
    check.plan = some plan ∧ ∀ v ∈ check.validated, v.plan = plan := by
  unfold checkPlan at h
  obtain ⟨orders, -, h⟩ := bind_eq_ok.1 h
  split at h
  · cases pure_eq_ok.1 h
    exact ⟨rfl, by simp⟩
  split at h
  · cases pure_eq_ok.1 h
    exact ⟨rfl, by simp⟩
  obtain ⟨exclusions, -, h⟩ := bind_eq_ok.1 h
  split at h
  · cases pure_eq_ok.1 h
    exact ⟨rfl, by simp⟩
  split at h
  · cases pure_eq_ok.1 h
    exact ⟨rfl, by simp⟩
  obtain ⟨semantics, -, h⟩ := bind_eq_ok.1 h
  cases pure_eq_ok.1 h
  exact ⟨rfl, by simp⟩

/-- The validation records the plan of the response, and it accepts no other. -/
theorem validatePlan_plan {response : RepairResponse} {check : PlanCheck}
    (h : validatePlan platform threshold context response = .ok check) :
    check.plan = response.plan ∧ ∀ v ∈ check.validated, response.plan = some v.plan := by
  cases response with
  | notObject =>
    cases pure_eq_ok.1 h
    exact ⟨rfl, by simp⟩
  | malformed first rest =>
    cases pure_eq_ok.1 h
    exact ⟨rfl, by simp⟩
  | conforming blocks =>
    rw [show (RepairResponse.conforming blocks).plan = (RepairPlan.validate blocks).toOption from rfl]
    unfold validatePlan at h
    dsimp only at h
    split_ifs at h with hempty hunknown hmissing hdistinct
    · cases pure_eq_ok.1 h
      exact ⟨rfl, by simp⟩
    · cases pure_eq_ok.1 h
      exact ⟨rfl, by simp⟩
    · cases pure_eq_ok.1 h
      exact ⟨rfl, by simp⟩
    · split at h
      · rename_i codes hcodes
        cases pure_eq_ok.1 h
        exact ⟨by rw [hcodes]; rfl, by simp⟩
      · cases h
      · rename_i plan hplan
        obtain ⟨h1, h2⟩ := checkPlan_plan h
        rw [hplan]
        exact ⟨h1, fun v hv => by rw [h2 v hv]; rfl⟩
    · cases pure_eq_ok.1 h
      refine ⟨?_, by simp⟩
      unfold RepairPlan.validate
      split_ifs <;> rfl

private theorem not_namesUnknownSpan (hnodup : context.orderedSpanIds.Nodup)
    (hknown : ∀ i ∈ context.orderedSpanIds, i ∈ context.native.spanIds) {response : RepairResponse} {check : PlanCheck}
    {v : ValidatedPlan} (h : validatePlan platform threshold context response = .ok check)
    (hv : check.validated = some v) : ¬ response.NamesUnknownSpan context.native := by
  rintro ⟨plan, hplan, i, hi, hunknown⟩
  rw [(validatePlan_plan h).2 v hv, Option.some_inj] at hplan
  subst hplan
  refine hunknown (hknown i ?_)
  rw [← (validatePlan_validated hnodup h hv).spanIds]
  exact hi

private theorem meetsProviderError_single {batch : RepairBatch} {first : RepairResponse}
    (hfirst : planner.provider 0 = .ok first) : planner.MeetsProviderError platform [batch] ↔
      planner.accepts platform batch.context first = false ∧ ∃ code, planner.provider 1 = .error code := by
  unfold RepairPlanner.MeetsProviderError
  simp only [RepairPlanner.rejectedFrom, hfirst]
  cases planner.accepts platform batch.context first with
  | true =>
    simp only [if_true, List.length_singleton, List.length_nil, Bool.true_eq_false, false_and, iff_false]
    rintro ⟨call, hcall, code, hcode⟩
    obtain rfl : call = 0 := by omega
    rw [hfirst] at hcode
    cases hcode
  | false =>
    simp only [Bool.false_eq_true, if_false, List.length_singleton, true_and]
    constructor
    · rintro ⟨call, hcall, code, hcode⟩
      rcases Nat.eq_zero_or_pos call with rfl | hpos
      · rw [hfirst] at hcode
        cases hcode
      · obtain rfl : call = 1 := by omega
        exact ⟨code, hcode⟩
    · rintro ⟨code, hcode⟩
      exact ⟨1, by omega, code, hcode⟩

/-- How a run over a single batch ends. -/
theorem repairSingleBatch_spec (planner : RepairPlanner) (hnodup : context.orderedSpanIds.Nodup)
    (hknown : ∀ i ∈ context.orderedSpanIds, i ∈ context.native.spanIds) {batch : RepairBatch}
    (hbatch : batch.context = context) :
    (planner.propagateProviderErrors = true ∧ planner.MeetsProviderError platform [batch] ∧
        ∃ code, repairSingleBatch platform planner context = .error (.providerError code)) ∨
      ¬ (planner.propagateProviderErrors = true ∧ planner.MeetsProviderError platform [batch]) ∧
        ∃ app, repairSingleBatch platform planner context = .ok app ∧
          ((∃ v, Accepted planner.confidenceThreshold context app v) ∧ ¬ planner.RecordsUnknownSpan platform context ∨
            ∃ recorded, Refused app recorded ∧ (planner.RecordsUnknownSpan platform context ↔
              ∃ plan ∈ recorded, ∃ i ∈ plan.spanIds, i ∉ context.native.spanIds)) := by
  subst hbatch
  unfold repairSingleBatch
  cases hfirst : planner.provider 0 with
  -- the first call fails: nothing is recorded
  | error code =>
    have hmeets : planner.MeetsProviderError platform [batch] := ⟨0, by simp, code, hfirst⟩
    rcases providerFailed_cases batch.context [] none code with ⟨hflag, h⟩ | ⟨hflag, app, h, happ⟩
    · exact Or.inl ⟨hflag, hmeets, code, h⟩
    · refine Or.inr ⟨by simp [hflag], app, h, Or.inr ⟨none, happ, ?_⟩⟩
      simp [RepairPlanner.RecordsUnknownSpan, hfirst]
  | ok first =>
    obtain ⟨check, hcheck, haccepts⟩ := response_cases platform planner hnodup first
    rw [meetsProviderError_single hfirst, haccepts]
    simp only [hcheck, bind, Except.bind]
    cases hv : check.validated with
    | some v =>
      obtain ⟨app, happ, -, haccepted⟩ := application_total planner.identity
        (validatePlan_validated hnodup hcheck hv) (Or.inl rfl) []
      refine Or.inr ⟨by simp, app, happ, Or.inl ⟨⟨v, haccepted⟩, ?_⟩⟩
      rintro ⟨first', hfirst', hrejected, -⟩
      rw [hfirst] at hfirst'
      cases hfirst'
      rw [haccepts, hv] at hrejected
      cases hrejected
    -- the first plan is rejected, and the second call decides
    | none =>
      have hrejected : planner.accepts platform batch.context first = false := by rw [haccepts, hv]; rfl
      have hrecords : planner.RecordsUnknownSpan platform batch.context ↔
          ((∃ code, planner.provider 1 = .error code) ∧ first.NamesUnknownSpan batch.context.native ∨
            ∃ second, planner.provider 1 = .ok second ∧ second.NamesUnknownSpan batch.context.native) := by
        constructor
        · rintro ⟨first', hfirst', -, h⟩
          rw [hfirst] at hfirst'
          cases hfirst'
          exact h
        · exact fun h => ⟨first, hfirst, hrejected, h⟩
      rw [hrecords]
      dsimp only
      cases hsecond : planner.provider 1 with
      | error code =>
        rcases providerFailed_cases batch.context [check.code.getD "SEMANTIC_REPAIR_SCHEMA_INVALID"] check.plan code with
          ⟨hflag, h⟩ | ⟨hflag, app, h, happ⟩
        · exact Or.inl ⟨hflag, by simp, code, h⟩
        · refine Or.inr ⟨by simp [hflag], app, h, Or.inr ⟨check.plan, happ, ?_⟩⟩
          rw [(validatePlan_plan hcheck).1]
          simp [RepairResponse.NamesUnknownSpan]
      | ok second =>
        obtain ⟨check', hcheck', -⟩ := response_cases platform planner hnodup second
        refine Or.inr ⟨by simp, ?_⟩
        simp only [hcheck']
        cases hv' : check'.validated with
        | some v =>
          obtain ⟨app, happ, -, haccepted⟩ := application_total planner.identity
            (validatePlan_validated hnodup hcheck' hv') (Or.inl rfl) [check.code.getD "SEMANTIC_REPAIR_SCHEMA_INVALID"]
          refine ⟨app, happ, Or.inl ⟨⟨v, haccepted⟩, ?_⟩⟩
          have hknows := not_namesUnknownSpan hnodup hknown hcheck' hv'
          simpa using hknows
        | none =>
          obtain ⟨app, happ, hrefused⟩ := emptyApplication_total batch.context planner.identity .rejected (Or.inl rfl)
            [check.code.getD "SEMANTIC_REPAIR_SCHEMA_INVALID", check'.code.getD "SEMANTIC_REPAIR_SCHEMA_INVALID"] none
            check'.plan
          refine ⟨app, happ, Or.inr ⟨check'.plan, hrefused, ?_⟩⟩
          rw [(validatePlan_plan hcheck').1]
          simp [RepairResponse.NamesUnknownSpan]

end SingleBatch

/-! ### Whole runs -/

section Runs

variable {native : NativeDocument} {unresolved : List SpanId}

/-- The run meets a provider error that the planner is told to raise again. -/
def RepairPlanner.RaisesProviderError (platform : Platform) (planner : RepairPlanner) (context : RepairContext)
    (skeleton : StructureDocument) (trusted : Option (RepairRecord platform)) : Prop :=
  planner.propagateProviderErrors = true ∧ reuseTrustedPlan platform planner context trusted = .ok none ∧
    ∃ batches, evidenceBatches context skeleton = .ok batches ∧ planner.MeetsProviderError platform batches

/-- The run asks for a single batch and is given up with a plan that names an unknown span. -/
def RepairPlanner.EndsWithUnknownSpan (platform : Platform) (planner : RepairPlanner) (context : RepairContext)
    (skeleton : StructureDocument) (trusted : Option (RepairRecord platform)) : Prop :=
  reuseTrustedPlan platform planner context trusted = .ok none ∧
    ∃ batch, evidenceBatches context skeleton = .ok [batch] ∧ planner.RecordsUnknownSpan platform context

/-- A trusted plan is reused only when it is validated again. -/
theorem reuseTrustedPlan_spec (planner : RepairPlanner) {context : RepairContext}
    (hnodup : context.orderedSpanIds.Nodup) (trusted : Option (RepairRecord platform)) :
    ∃ reused, reuseTrustedPlan platform planner context trusted = .ok reused ∧
      ∀ v ∈ reused, trusted ≠ none ∧ PlanAccepted platform planner.confidenceThreshold context v := by
  unfold reuseTrustedPlan
  split
  · exact ⟨none, rfl, by simp⟩
  split
  · exact ⟨none, rfl, by simp⟩
  rename_i plan _
  obtain ⟨check, hcheck⟩ := validatePlan_total platform planner.confidenceThreshold hnodup (.conforming plan.blocks)
  split
  · exact ⟨none, rfl, by simp⟩
  split
  · exact ⟨none, rfl, by simp⟩
  · rw [hcheck]
    exact ⟨check.validated, rfl, fun v hv => ⟨by simp, validatePlan_validated hnodup hcheck hv⟩⟩

private theorem planAccepted_nil {planner : RepairPlanner} {context : RepairContext}
    (hempty : context.orderedSpanIds = []) : PlanAccepted platform planner.confidenceThreshold context
      ⟨⟨[], by simp, by simp [planAllocations]⟩, []⟩ := by
  refine ⟨hempty.symm, by simp, by simp, rfl, rfl, by simp, [], rfl, rfl⟩

/-- How a run of the planner over known spans ends. -/
theorem repair_spec (planner : RepairPlanner) (hnodup : unresolved.Nodup)
    (hknown : ∀ i ∈ unresolved, i ∈ native.spanIds) (skeleton : StructureDocument)
    (trusted : Option (RepairRecord platform)) {context : RepairContext}
    (hcontext : context = contextOf native (requestedSpans native unresolved)) :
    (planner.RaisesProviderError platform context skeleton trusted ∧
        ∃ code, repair platform planner native skeleton unresolved trusted = .error (.providerError code)) ∨
      ¬ planner.RaisesProviderError platform context skeleton trusted ∧
        ∃ app, repair platform planner native skeleton unresolved trusted = .ok app ∧
          ((∃ v, Accepted planner.confidenceThreshold context app v) ∧
              ¬ planner.EndsWithUnknownSpan platform context skeleton trusted ∨
            ∃ recorded, Refused app recorded ∧ (planner.EndsWithUnknownSpan platform context skeleton trusted ↔
              ∃ plan ∈ recorded, ∃ i ∈ plan.spanIds, i ∉ native.spanIds)) := by
  have hspans : ∀ s ∈ requestedSpans native unresolved, s ∈ native.spans := fun s hs => (mem_requestedSpans.1 hs).1
  have hsorted := requestedSpans_pairwise native unresolved
  have hids : context.orderedSpanIds.Nodup := hcontext ▸ contextOf_nodup hspans hsorted
  obtain ⟨reused, hreused, hreusedSpec⟩ := reuseTrustedPlan_spec planner hids trusted
  obtain ⟨batches, hbatches, hcut⟩ := evidenceBatches_cut hspans hsorted skeleton
  rw [← hcontext] at hbatches
  unfold repair
  rw [repairContext_eq hnodup hknown, ← hcontext]
  simp only [hreused, bind, Except.bind]
  cases reused with
  | some v =>
    obtain ⟨htrusted, haccepted⟩ := hreusedSpec v rfl
    obtain ⟨record, rfl⟩ := Option.ne_none_iff_exists'.1 htrusted
    obtain ⟨app, happ, -, hspec⟩ := application_total (record.provider, record.model) haccepted (Or.inr rfl) []
    refine Or.inr ⟨?_, app, happ, Or.inl ⟨⟨v, hspec⟩, ?_⟩⟩
    · rintro ⟨-, h, -⟩
      rw [hreused] at h
      cases h
    · rintro ⟨h, -⟩
      rw [hreused] at h
      cases h
  | none =>
    have hraises : planner.RaisesProviderError platform context skeleton trusted ↔
        planner.propagateProviderErrors = true ∧ planner.MeetsProviderError platform batches := by
      simp [RepairPlanner.RaisesProviderError, hreused, hbatches]
    have hends : planner.EndsWithUnknownSpan platform context skeleton trusted ↔
        ∃ batch, batches = [batch] ∧ planner.RecordsUnknownSpan platform context := by
      simp [RepairPlanner.EndsWithUnknownSpan, hreused, hbatches]
    rw [hraises, hends]
    have hnative : context.native = native := by rw [hcontext]; rfl
    have hcutIds : batches.flatMap (·.context.orderedSpanIds) = context.orderedSpanIds := by
      rw [hcut.spanIds, hcontext]
      rfl
    dsimp only
    by_cases hempty : context.orderedSpanIds = []
    · obtain rfl : batches = [] := by
        rw [evidenceBatches, if_pos hempty] at hbatches
        exact (pure_eq_ok.1 hbatches).symm
      obtain ⟨app, happ, -, hspec⟩ := application_total planner.identity (planAccepted_nil hempty) (Or.inl rfl) []
      rw [if_pos hempty]
      exact Or.inr ⟨by simp [RepairPlanner.MeetsProviderError, RepairPlanner.rejectedFrom], app, happ,
        Or.inl ⟨⟨_, hspec⟩, by simp⟩⟩
    rw [if_neg hempty]
    simp only [hbatches]
    by_cases hmany : 1 < batches.length
    · rw [if_pos hmany]
      have hno : ∀ batch, batches ≠ [batch] := by
        rintro batch rfl
        exact lt_irrefl _ hmany
      have hall : ∀ batch ∈ batches, batch.context.orderedSpanIds.Nodup ∧ batch.context.native = context.native := by
        intro batch hbatch
        obtain ⟨p, -, -, hctx⟩ := hcut.contexts batch hbatch
        rw [hctx, hnative]
        exact ⟨contextOf_nodup (fun s hs => hspans s ((slice_sublist p).subset hs)) (hsorted.sublist (slice_sublist p)),
          rfl⟩
      rcases repairEvidenceBatches_spec planner hids (fun batch h => (hall batch h).1)
        (fun batch h => (hall batch h).2) hcutIds with ⟨hflag, hmeets, herror⟩ | ⟨hraises, app, happ, haccepted | hrefused⟩
      · exact Or.inl ⟨⟨hflag, hmeets⟩, herror⟩
      · refine Or.inr ⟨hraises, app, happ, Or.inl ⟨haccepted, ?_⟩⟩
        rintro ⟨batch, h, -⟩
        exact hno batch h
      · exact Or.inr ⟨hraises, app, happ, Or.inr ⟨none, hrefused, by simp [hno]⟩⟩
    · rw [if_neg hmany]
      -- the spans of a single batch are all the requested ones
      obtain ⟨batch, rfl⟩ : ∃ batch, batches = [batch] := by
        cases batches with
        | nil => exact (hempty hcutIds.symm).elim
        | cons batch rest =>
          cases rest with
          | nil => exact ⟨batch, rfl⟩
          | cons _ _ => exact (hmany (by simp)).elim
      have hcontextKnown : ∀ i ∈ context.orderedSpanIds, i ∈ context.native.spanIds := by
        intro i hi
        rw [hcontext] at hi
        obtain ⟨s, hs, rfl⟩ := List.mem_map.1 hi
        rw [hnative]
        exact List.mem_map.2 ⟨s, hspans s hs, rfl⟩
      have hends : (∃ batch', [batch] = [batch'] ∧ planner.RecordsUnknownSpan platform context) ↔
          planner.RecordsUnknownSpan platform context := by simp
      rw [hends, ← hnative]
      rcases repairSingleBatch_spec planner hids hcontextKnown ((hcut.single batch rfl).trans hcontext.symm)
        with ⟨hflag, hmeets, herror⟩ | h
      · exact Or.inl ⟨⟨hflag, hmeets⟩, herror⟩
      · exact Or.inr h

/-! ### Soundness -/

/-- Two requested spans on one page, in one native table or in one run of spans without a page. -/
def KeptTogether (native : NativeDocument) (requested : List SpanId) (s t : SourceSpan) : Prop :=
  (∃ page, s.page = some page ∧ t.page = some page) ∨
    (∃ table ∈ native.tables, s.spanId ∈ table.cellSpanIds ∧ t.spanId ∈ table.cellSpanIds) ∨
    ∀ u ∈ requestedSpans native requested, s.ordinal ≤ u.ordinal → u.ordinal ≤ t.ordinal → u.page = none

/-- Spans that are kept together lie in one batch. -/
private theorem BatchesCut.keptTogether {batches : List RepairBatch}
    (hcut : BatchesCut native (requestedSpans native unresolved) batches) {s t : SourceSpan}
    (hs : s ∈ requestedSpans native unresolved) (ht : t ∈ requestedSpans native unresolved)
    (hst : s.ordinal ≤ t.ordinal) (h : KeptTogether native unresolved s t) :
    ∃ batch ∈ batches, s.spanId ∈ batch.context.orderedSpanIds ∧ t.spanId ∈ batch.context.orderedSpanIds := by
  have hsorted := requestedSpans_pairwise native unresolved
  set spans := requestedSpans native unresolved with hspans
  obtain ⟨x, hx, rfl⟩ := List.getElem_of_mem hs
  obtain ⟨y, hy, rfl⟩ := List.getElem_of_mem ht
  have hle : ∀ {m n : ℕ} (hm : m < spans.length) (hn : n < spans.length), m ≤ n → spans[m].ordinal ≤ spans[n].ordinal := by
    intro m n hm hn hmn
    rcases eq_or_lt_of_le hmn with rfl | hlt
    · exact le_rfl
    · exact (List.pairwise_iff_getElem.1 hsorted m n hm hn hlt).le
  have hxy : x ≤ y := by
    by_contra hlt
    have := List.pairwise_iff_getElem.1 hsorted y x hy hx (not_le.1 hlt)
    omega
  have hpositions : PositionsTogether native spans x y := by
    rcases h with ⟨page, hsp, htp⟩ | ⟨table, htable, hst, htt⟩ | hpageless
    · exact Or.inl ⟨page, by simp [hx, hsp], by simp [hy, htp]⟩
    · exact Or.inr (Or.inr ⟨table, htable, ⟨_, hst, by simp [hx]⟩, _, htt, by simp [hy]⟩)
    · refine Or.inr (Or.inl fun z hxz hzy => ?_)
      have hz : z < spans.length := hzy.trans_lt hy
      simp [hz, hpageless _ (List.getElem_mem hz) (hle hx hz hxz) (hle hz hy hzy)]
  obtain ⟨batch, hbatch, p, hpx, hpy, hctx⟩ := hcut.together x y hxy hpositions
  have hmem : ∀ {z : ℕ} (hz : z < spans.length), p.1 ≤ z → z ≤ p.2 →
      spans[z].spanId ∈ batch.context.orderedSpanIds := by
    intro z hz hpz hzp
    rw [hctx]
    refine List.mem_map.2 ⟨spans[z], ?_, rfl⟩
    rw [slice, List.mem_drop_iff_getElem]
    refine ⟨z - p.1, by rw [List.length_take]; omega, ?_⟩
    rw [List.getElem_take]
    congr 1
    omega
  exact ⟨batch, hbatch, hmem hx hpx (hxy.trans hpy), hmem hy (hpx.trans hxy) hpy⟩

/-- The structure repair is sound: an accepted plan allocates exactly the requested spans in source order; the
evidence batches of a request are consecutive pieces of it that keep pages, runs without a page and native tables
together; and the plans of batches that are validated alone always merge into an applied plan. -/
theorem repair_sound (platform : Platform) (planner : RepairPlanner) (native : NativeDocument)
    (skeleton : StructureDocument) (unresolved : List SpanId) :
    (∀ trusted app, repair platform planner native skeleton unresolved trusted = .ok app →
      app.record.outcome = .applied ∨ app.record.outcome = .reused →
        ∃ plan, app.record.plan = some plan ∧ (plan.blocks.map (·.order)).Pairwise (· < ·) ∧
          plan.blocks.flatMap (·.allocations) = (requestedSpans native unresolved).map (·.spanId) ∧
          (plan.blocks.flatMap (·.allocations)).Perm unresolved) ∧
    ∀ context, repairContext native unresolved = (context, none) →
      ∃ batches, evidenceBatches context skeleton = .ok batches ∧
        (∀ batch ∈ batches, batch.context.orderedSpanIds ≠ []) ∧
        batches.flatMap (·.context.orderedSpanIds) = context.orderedSpanIds ∧
        (∀ s ∈ requestedSpans native unresolved, ∀ t ∈ requestedSpans native unresolved, s.ordinal ≤ t.ordinal →
          KeptTogether native unresolved s t →
            ∃ batch ∈ batches, s.spanId ∈ batch.context.orderedSpanIds ∧ t.spanId ∈ batch.context.orderedSpanIds) ∧
        ∀ plans, List.Forall₂ (fun batch v => ∃ response check,
            validatePlan platform planner.confidenceThreshold batch.context response = .ok check ∧
              check.validated = some v) batches plans →
          ∀ codes, ∃ app, mergeAndValidate platform planner context plans codes = .ok app ∧
            app.record.outcome = .applied := by
  refine ⟨fun trusted app happ houtcome => ?_, fun context hcontext => ?_⟩
  · -- an applied plan was validated against the requested spans
    rcases hcontext : repairContext native unresolved with ⟨context, code⟩
    cases code with
    | some code =>
      obtain ⟨app', happ', hrefused⟩ := @emptyApplication_total platform context planner.identity .rejected
        (Or.inl rfl) [code] none none
      unfold repair at happ
      simp only [hcontext, happ'] at happ
      cases happ
      rcases hrefused.outcome with h | h <;> simp [h] at houtcome
    | none =>
      obtain ⟨hnodup, hknown, hcontext⟩ := repairContext_eq_none hcontext
      rcases repair_spec planner hnodup hknown skeleton trusted hcontext with ⟨-, code, herror⟩ | ⟨-, app', happ', h⟩
      · rw [happ] at herror
        cases herror
      rw [happ] at happ'
      cases happ'
      rcases h with ⟨⟨v, haccepted⟩, -⟩ | ⟨recorded, hrefused, -⟩
      · have hids : v.plan.spanIds = (requestedSpans native unresolved).map (·.spanId) := by
          rw [haccepted.accepted.spanIds, hcontext]
          rfl
        refine ⟨v.plan, haccepted.plan, haccepted.accepted.orders, hids, ?_⟩
        have hperm := requestedSpans_perm hnodup hknown
        rwa [← hids] at hperm
      · rcases hrefused.outcome with h | h <;> simp [h] at houtcome
  · -- the batches cut the requested spans, so that plans for all of them merge to a plan for the whole
    obtain ⟨hnodup, hknown, rfl⟩ := repairContext_eq_none hcontext
    have hspans : ∀ s ∈ requestedSpans native unresolved, s ∈ native.spans := fun s hs => (mem_requestedSpans.1 hs).1
    have hsorted := requestedSpans_pairwise native unresolved
    obtain ⟨batches, hbatches, hcut⟩ := evidenceBatches_cut hspans hsorted skeleton
    have hbatch : ∀ batch ∈ batches, batch.context.orderedSpanIds ≠ [] ∧ batch.context.orderedSpanIds.Nodup ∧
        batch.context.native = native := by
      intro batch hbatch
      obtain ⟨p, h1, h2, hctx⟩ := hcut.contexts batch hbatch
      rw [hctx]
      refine ⟨?_, contextOf_nodup (fun s hs => hspans s ((slice_sublist p).subset hs))
        (hsorted.sublist (slice_sublist p)), rfl⟩
      intro hnil
      have := congrArg List.length hnil
      simp only [contextOf, slice, List.length_map, List.length_drop, List.length_take, List.length_nil] at this
      omega
    refine ⟨batches, hbatches, fun batch h => (hbatch batch h).1, hcut.spanIds, fun s hs t ht hst h =>
      hcut.keptTogether hs ht hst h, fun plans hplans codes => ?_⟩
    have hcontextNodup := contextOf_nodup hspans hsorted
    have haccepted : List.Forall₂ (fun batch v => PlanAccepted platform planner.confidenceThreshold batch.context v)
        batches plans := by
      refine ((List.forall₂_and_left _ _).2 ⟨fun batch hb => (hbatch batch hb).2.1, hplans⟩).imp ?_
      rintro batch v ⟨hids, response, check, hcheck, hv⟩
      exact validatePlan_validated hids hcheck hv
    obtain ⟨app, v, happ, houtcome, -⟩ := mergeAndValidate_accepted planner hcontextNodup
      (fun batch h => (hbatch batch h).2.2) hcut.spanIds haccepted codes
    exact ⟨app, happ, houtcome⟩

end Runs

end ArdOssie
