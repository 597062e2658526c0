import ArdOssie.Application.GitHubBootstrap

/-!
# What a bootstrap plan says

A plan is made of readings of the settings at several moments.  When every item of a plan is `noop` and nothing that
was as desired has changed since, the settings are in the desired state, and in that state every item is `noop`.
-/

namespace ArdOssie

namespace Bootstrap

open GitHubCli

/-! ### The desired state -/

/-- The account that owns the repository. -/
def owner (host : GitHubHost) : EnvironmentReviewer := host.user (ownerLogin host.repository.fullName)

/-- The repository is the public one that the service is for, with main as its branch, and may be administered. -/
def Accepted (host : GitHubHost) (repositoryName : Text) : Prop :=
  (host.repository.fullName = repositoryName ∧ host.repository.isPublic = true ∧ host.repository.archived = false ∧
    host.repository.defaultBranch = main) ∧ host.repository.permission = "admin".toList

/-- Deployments to the environment are reviewed by the owner. -/
def OwnerReviews (host : GitHubHost) (name : Text) (w : RepositorySettings) : Prop :=
  ∃ e, w.environments name = some e ∧ e.name = name ∧
    sortBy (fun r => toLex (r.kind, r.id)) (host.payload e).reviewers = [owner host] ∧ e.preventSelfReview = false ∧
      e.waitTimer = 0 ∧ e.policies.isSome

/-- There are policies, and all of them have the pattern main. -/
def AllMain (policies : BranchPolicies) : Prop := policies ≠ [] ∧ ∀ p ∈ policies, p.1 = main

/-- The environment is for main only. -/
def MainOnly (name : Text) (w : RepositorySettings) : Prop :=
  ∃ policies, w.policies name = some policies ∧ AllMain policies

/-- The labels and environments of the bootstrap that are there are spelled as the bootstrap spells them, and no pattern
of these environments has two policies. -/
structure Conventional (w : RepositorySettings) : Prop where
  labels : ∀ d ∈ labels, ∀ l, w.labels d.name = some l → l.name = d.name
  environments : ∀ name ∈ [llmName, productionName], ∀ e, w.environments name = some e → e.name = name
  policies : ∀ name ∈ [llmName, productionName], ∀ policies, w.policies name = some policies →
    (policies.map Prod.fst).Nodup

/-- The desired state of the settings. -/
structure Reached (host : GitHubHost) (config : BootstrapConfig) (w : RepositorySettings) : Prop where
  labels : ∀ d ∈ labels, w.labels d.name = some d
  actions : w.actions = actions
  reviews : ∀ name ∈ [llmName, productionName], OwnerReviews host name w
  mainOnly : ∀ name ∈ [llmName, productionName], MainOnly name w
  providerVariables : ∀ v ∈ config.providerVariables, w.envVariables llmName v.1 = some v.2
  secret : (w.secrets llmName secretName).isSome
  protection : w.protection main = some (bootstrapProtection (w.protection main))

/-- What is as desired stays, and what the bootstrap does not manage does not change; nor does the review count that it
keeps, for which every count other than one is none. -/
structure Progress (host : GitHubHost) (config : BootstrapConfig) (w w' : RepositorySettings) : Prop where
  labels : ∀ d ∈ labels, w.labels d.name = some d → w'.labels d.name = some d
  otherLabels : ∀ name ∉ Bootstrap.labels.map (·.name), w'.labels name = w.labels name
  actions : w.actions = actions → w'.actions = Bootstrap.actions
  reviews : ∀ name ∈ [llmName, productionName], OwnerReviews host name w → OwnerReviews host name w'
  mainOnly : ∀ name ∈ [llmName, productionName], MainOnly name w → MainOnly name w'
  otherEnvironments : ∀ name ∉ [llmName, productionName], w'.environments name = w.environments name
  providerVariables : ∀ v ∈ config.providerVariables,
    w.envVariables llmName v.1 = some v.2 → w'.envVariables llmName v.1 = some v.2
  otherVariables : ∀ environment name, (environment = llmName → name ∉ config.providerVariables.map Prod.fst) →
    w'.envVariables environment name = w.envVariables environment name
  secret : (w.secrets llmName secretName).isSome → (w'.secrets llmName secretName).isSome
  otherSecrets : ∀ environment name, (environment = llmName → name ≠ secretName) →
    w'.secrets environment name = w.secrets environment name
  protection : w.protection main = some (bootstrapProtection (w.protection main)) →
    w'.protection main = some (bootstrapProtection (w'.protection main))
  reviewCount : reviewCount (w'.protection main) = reviewCount (w.protection main)
  otherProtections : ∀ branch, branch ≠ main → w'.protections branch = w.protections branch
  conventional : Conventional w → Conventional w'

/-- The patterns that the adapter finds are main alone exactly when all policies have it. -/
theorem map_fst_policyIds_iff {policies : BranchPolicies} :
    (policyIds policies).items.map Prod.fst = [main] ↔ AllMain policies := by
  have hmem : ∀ name, name ∈ (policyIds policies).items.map Prod.fst ↔ name ∈ policies.map Prod.fst := fun _ =>
    KeyedList.mem_keys_foldl_put.trans (or_iff_right List.not_mem_nil)
  constructor
  · intro hmain
    rw [hmain] at hmem
    refine ⟨?_, fun p hp => List.mem_singleton.1 ((hmem p.1).2 (List.mem_map_of_mem hp))⟩
    rintro rfl
    exact List.not_mem_nil ((hmem main).1 (List.mem_singleton_self main))
  · rintro ⟨hne, hall⟩
    have hsub : ∀ name ∈ (policyIds policies).items.map Prod.fst, name = main := by
      intro name hname
      obtain ⟨p, hp, rfl⟩ := List.mem_map.1 ((hmem name).1 hname)
      exact hall p hp
    have hin : main ∈ (policyIds policies).items.map Prod.fst := by
      obtain ⟨p, hp⟩ := List.exists_mem_of_ne_nil policies hne
      exact (hmem main).2 (List.mem_map.2 ⟨p, hp, hall p hp⟩)
    have hreplicate := List.eq_replicate_of_mem hsub
    have hnodup := (policyIds policies).nodup
    rw [hreplicate, List.nodup_replicate] at hnodup
    have hpos : 0 < ((policyIds policies).items.map Prod.fst).length := List.length_pos_of_mem hin
    rw [hreplicate, show ((policyIds policies).items.map Prod.fst).length = 1 by omega]
    rfl

/-! ### Readings -/

section Readings

variable {host : GitHubHost} {faults : Prop} {rely : RepositorySettings → RepositorySettings → Prop}
variable {allowed : SettingsCall → RepositorySettings → Prop} {calm : Prop} {repositoryName : Text}

/-- A session that reads: its reads are allowed, and while it is calm nothing fails and nobody else changes the
settings. -/
structure Reader (host : GitHubHost) (faults : Prop) (rely : RepositorySettings → RepositorySettings → Prop)
    (allowed : SettingsCall → RepositorySettings → Prop) (calm : Prop) (repositoryName : Text) : Prop where
  refl : ∀ w, rely w w
  trans : ∀ w w' w'', rely w w' → rely w' w'' → rely w w''
  reads : ∀ c w, c.isRead = true → allowed c w
  faultless : calm → ¬ faults
  alone : calm → ∀ w w', rely w w' → w = w'
  accepted : calm → Accepted host repositoryName

/-- A moment between two worlds. -/
def Seen (rely : RepositorySettings → RepositorySettings → Prop) (w w' : RepositorySettings)
    (P : RepositorySettings → Prop) : Prop := ∃ v, rely w v ∧ rely v w' ∧ P v

theorem Seen.mono {w w' : RepositorySettings} {P P' : RepositorySettings → Prop} (h : Seen rely w w' P)
    (hP : ∀ v, P v → P' v) : Seen rely w w' P' := by
  obtain ⟨v, hv, hv', hPv⟩ := h
  exact ⟨v, hv, hv', hP v hPv⟩

/-- What was seen in a part of the time was seen. -/
theorem Reader.seen (hr : Reader host faults rely allowed calm repositoryName) {w u u' w' : RepositorySettings}
    {P : RepositorySettings → Prop} (h : Seen rely u u' P) (hw : rely w u) (hw' : rely u' w') : Seen rely w w' P := by
  obtain ⟨v, hv, hv', hP⟩ := h
  exact ⟨v, hr.trans _ _ _ hw hv, hr.trans _ _ _ hv' hw', hP⟩

/-- How a session ends: with `Q`, or with an exception, which it does not while it is calm. -/
def Ended (calm : Prop) {α : Type} (Q : α → RepositorySettings → Prop) :
    Except WorkflowError α → RepositorySettings → Prop
  | .ok a, w => Q a w
  | .error _, _ => ¬ calm

/-- The session makes no mutation and ends with `Q`. -/
def Reads (host : GitHubHost) (faults : Prop) (rely : RepositorySettings → RepositorySettings → Prop)
    (allowed : SettingsCall → RepositorySettings → Prop) (calm : Prop) {α : Type} (m : GitHubSession α)
    (w : RepositorySettings) (Q : α → RepositorySettings → Prop) : Prop :=
  ∀ s, Session.Guards (SettingsExec host faults) rely allowed m s w fun r s' w' =>
    s' = s ∧ rely w w' ∧ Ended calm Q r w'

variable {α β : Type} {w : RepositorySettings}

theorem reads_pure {a : α} {Q : α → RepositorySettings → Prop} (h : ∀ w', rely w w' → Q a w') :
    Reads host faults rely allowed calm (pure a : GitHubSession α) w Q := fun _ =>
  Session.guards_pure fun w' hw => ⟨rfl, hw, h w' hw⟩

theorem Reader.reads_bind (hr : Reader host faults rely allowed calm repositoryName) {m : GitHubSession α}
    {f : α → GitHubSession β} {P : α → RepositorySettings → Prop} {Q : β → RepositorySettings → Prop}
    (h : Reads host faults rely allowed calm m w P)
    (hf : ∀ a u, rely w u → P a u → Reads host faults rely allowed calm (f a) u Q) :
    Reads host faults rely allowed calm (m >>= f) w Q := by
  intro s
  refine Session.guards_bind hr.refl (h s) ?_ ?_
  · intro e s' u u' hP hu'
    obtain ⟨hs, hu, herror⟩ := hP
    exact ⟨hs, hr.trans _ _ _ hu hu', herror⟩
  · intro a s' u hP
    obtain ⟨rfl, hu, hok⟩ := hP
    refine (hf a u hu hok s').mono fun r s'' u' hQ => ?_
    exact ⟨hQ.1, hr.trans _ _ _ hu hQ.2.1, hQ.2.2⟩

/-- A result in front of a session; the session is not calm when the result is an exception. -/
theorem reads_ofResult_bind {r : Workflow α} {f : α → GitHubSession β} {Q : β → RepositorySettings → Prop}
    (herror : ∀ e, r = .error e → ¬ calm)
    (hok : ∀ a, r = .ok a → Reads host faults rely allowed calm (f a) w Q) :
    Reads host faults rely allowed calm (Session.ofResult r >>= f) w Q := fun s =>
  Session.guards_ofResult_bind (fun e _ he hw => ⟨rfl, hw, herror e he⟩) fun a ha => hok a ha s

/-- A read sees the settings at some moment. -/
theorem Reader.reads_call (hr : Reader host faults rely allowed calm repositoryName) {c : SettingsCall}
    (hread : c.isRead = true) (hpossible : calm → c.Possible host w) :
    Reads host faults rely allowed calm (call c) w fun v w' =>
      Seen rely w w' fun u => c.Possible host u ∧ v = c.answer host u := by
  intro s
  refine Session.guards_ask (fun w' _ => hr.reads c w' hread) ?_
  intro w₁ r w₂ w₃ hw hexec hw'
  obtain rfl := hexec.read_world hread
  refine ⟨rfl, hr.trans _ _ _ hw hw', ?_⟩
  cases r with
  | ok v =>
    obtain ⟨hc, hv, -⟩ := hexec.ok_cases
    exact ⟨w₂, hw, hw', hc, hv⟩
  | error e =>
    intro hcalm
    obtain rfl := hr.alone hcalm _ _ hw
    exact hexec.error_cases.elim (hr.faultless hcalm) fun h => h (hpossible hcalm)

/-- What an environment was read to be; its branch policies are read after the rest of it. -/
def EnvironmentSeen (host : GitHubHost) (rely : RepositorySettings → RepositorySettings → Prop) (name : Text)
    (w w' : RepositorySettings) (state : Option EnvironmentState) (policies : PolicyIds) : Prop :=
  ((state = none ∧ policies = .empty _) ∧ Seen rely w w' fun u => u.environments name = none) ∨
    ∃ payload, state = some (environmentState payload policies) ∧
      Seen rely w w' (fun u => (u.environments name).map host.payload = some payload) ∧
      if payload.customBranchPolicies = true then
        Seen rely w w' fun u => policyIds ((u.policies name).getD []) = policies
      else policies = .empty _

theorem Reader.reads_environment (hr : Reader host faults rely allowed calm repositoryName) {name : Text} :
    Reads host faults rely allowed calm (environmentWithPolicyIds name) w fun found w' =>
      EnvironmentSeen host rely name w w' found.1 found.2 := by
  unfold environmentWithPolicyIds
  refine hr.reads_bind (hr.reads_call rfl fun _ => trivial) ?_
  intro answer u hu hseen
  have hanswer : Seen rely w u fun v => (v.environments name).map host.payload = answer := by
    obtain ⟨v, hv, hv', -, heq⟩ := hseen
    exact ⟨v, hv, hv', heq.symm⟩
  cases answer with
  | none =>
    refine reads_pure fun w' hw' => Or.inl ⟨⟨rfl, rfl⟩, ?_⟩
    exact hr.seen (hanswer.mono fun v hv => Option.map_eq_none_iff.1 hv) (hr.refl w) hw'
  | some payload =>
    cases hcustom : payload.customBranchPolicies with
    | false =>
      simp only [hcustom, Bool.false_eq_true, if_false]
      refine reads_pure fun w' hw' => Or.inr ⟨payload, rfl, hr.seen hanswer (hr.refl w) hw', ?_⟩
      rw [hcustom]
      rfl
    | true =>
      simp only [hcustom, if_true]
      refine hr.reads_bind (hr.reads_call rfl ?_) ?_
      · intro hcalm
        obtain ⟨v, -, hv', heq⟩ := hanswer
        obtain rfl := hr.alone hcalm _ _ hv'
        obtain ⟨e, he, -⟩ := Option.map_eq_some_iff.1 heq
        exact Option.isSome_of_eq_some he
      · intro policies u' hu' hpolicies
        refine reads_pure fun w' hw' => Or.inr ⟨payload, rfl, ?_, ?_⟩
        · exact hr.seen hanswer (hr.refl w) (hr.trans _ _ _ hu' hw')
        · rw [if_pos hcustom]
          exact hr.seen (hpolicies.mono fun v hv => congrArg policyIds hv.2.symm) hu hw'

/-- What an environment was read to be in a part of the time it was read to be. -/
theorem Reader.environmentSeen (hr : Reader host faults rely allowed calm repositoryName) {name : Text}
    {w u u' w' : RepositorySettings} {state : Option EnvironmentState} {policies : PolicyIds}
    (h : EnvironmentSeen host rely name u u' state policies) (hw : rely w u) (hw' : rely u' w') :
    EnvironmentSeen host rely name w w' state policies := by
  obtain ⟨hstate, hseen⟩ | ⟨payload, hstate, hseen, hpolicies⟩ := h
  · exact Or.inl ⟨hstate, hr.seen hseen hw hw'⟩
  · refine Or.inr ⟨payload, hstate, hr.seen hseen hw hw', ?_⟩
    by_cases hcustom : payload.customBranchPolicies = true
    · rw [if_pos hcustom] at hpolicies ⊢
      exact hr.seen hpolicies hw hw'
    · rw [if_neg hcustom] at hpolicies ⊢
      exact hpolicies

theorem Reader.reads_getEnvironment (hr : Reader host faults rely allowed calm repositoryName) {name : Text} :
    Reads host faults rely allowed calm (getEnvironment name) w fun state w' =>
      ∃ policies, EnvironmentSeen host rely name w w' state policies :=
  hr.reads_bind hr.reads_environment fun found _ _ hseen =>
    reads_pure fun _ hw' => ⟨found.2, hr.environmentSeen hseen (hr.refl w) hw'⟩

theorem Reader.reads_requireRepository (hr : Reader host faults rely allowed calm repositoryName) :
    Reads host faults rely allowed calm (requireRepository repositoryName) w fun repository _ =>
      repository = host.repository := by
  unfold requireRepository
  refine hr.reads_bind (hr.reads_call rfl fun _ => trivial) ?_
  intro repository u hu hseen
  obtain ⟨-, -, -, -, rfl⟩ := hseen
  refine reads_ofResult_bind ?_ fun _ _ => reads_ofResult_bind ?_ fun _ _ => reads_pure fun _ _ => rfl
  · intro e he hcalm
    obtain ⟨⟨hname, hpublic, harchived, hbranch⟩, -⟩ := hr.accepted hcalm
    have hcondition := (of_failIf_eq_error he).1
    simp [SettingsCall.answer, hname, hpublic, harchived, hbranch] at hcondition
  · intro e he hcalm
    exact (of_failIf_eq_error he).1 (hr.accepted hcalm).2

/-- What the settings were read to be. -/
structure Readings where
  labels : Text → Option LabelState
  actions : ActionsPermissionState
  llm : Option EnvironmentState
  llmPolicies : PolicyIds
  llmVariables : Text → Option Text
  secretNames : Text → Bool
  production : Option EnvironmentState
  productionPolicies : PolicyIds
  protection : Option BranchProtectionState

/-- The plan that is made of readings. -/
def Readings.plan (r : Readings) (host : GitHubHost) (config : BootstrapConfig) : BootstrapPlan :=
  ⟨host.repository.fullName, (owner host).login, (owner host).id, config, r.secretNames secretName,
    planItems config (owner host) r.labels r.actions r.llm r.llmVariables r.secretNames r.production r.protection⟩

/-- Everything was read between two worlds. -/
structure Readings.Between (r : Readings) (host : GitHubHost)
    (rely : RepositorySettings → RepositorySettings → Prop) (w w' : RepositorySettings) : Prop where
  labels : Seen rely w w' fun u => r.labels = u.listedLabels
  actions : Seen rely w w' fun u => r.actions = u.actions
  llm : EnvironmentSeen host rely llmName w w' r.llm r.llmPolicies
  llmVariables : r.llm ≠ none → Seen rely w w' fun u => r.llmVariables = u.envVariables llmName
  secretNames : r.llm ≠ none → Seen rely w w' fun u => r.secretNames secretName = (u.secrets llmName secretName).isSome
  noSecret : r.llm = none → r.secretNames secretName = false
  production : EnvironmentSeen host rely productionName w w' r.production r.productionPolicies
  protection : Seen rely w w' fun u => r.protection = u.protection main

private theorem Reader.reads_optional (hr : Reader host faults rely allowed calm repositoryName) {c : SettingsCall}
    (hread : c.isRead = true) {p : Prop} [Decidable p] {default : c.Value} (hpossible : calm → p → c.Possible host w) :
    Reads host faults rely allowed calm (readIf p c default) w fun v w' =>
      (p → Seen rely w w' fun u => v = c.answer host u) ∧ (¬ p → v = default) := by
  unfold readIf
  split
  · rename_i hp
    intro s
    refine (hr.reads_call hread (fun hcalm => hpossible hcalm hp) s).mono fun r s' w' h => ⟨h.1, h.2.1, ?_⟩
    cases r with
    | ok v => exact ⟨fun _ => h.2.2.mono fun u hu => hu.2, fun hn => absurd hp hn⟩
    | error e => exact h.2.2
  · rename_i hp
    exact reads_pure fun w' _ => ⟨fun h => absurd h hp, fun _ => rfl⟩

/-- A plan is made of readings in the time that it takes. -/
theorem Reader.reads_plan (hr : Reader host faults rely allowed calm repositoryName) (config : BootstrapConfig) :
    Reads host faults rely allowed calm (plan repositoryName config) w fun p w' =>
      ∃ r : Readings, p = r.plan host config ∧ r.Between host rely w w' := by
  unfold plan
  refine hr.reads_bind hr.reads_requireRepository fun repository w₁ h₁ hrepository => ?_
  subst hrepository
  refine hr.reads_bind (hr.reads_call rfl fun _ => trivial) fun user w₂ h₂ huser => ?_
  obtain ⟨-, -, -, -, rfl⟩ := huser
  refine hr.reads_bind (hr.reads_call rfl fun _ => trivial) fun ls w₃ h₃ hlabels => ?_
  refine hr.reads_bind (hr.reads_call rfl fun _ => trivial) fun as w₄ h₄ hactions => ?_
  refine hr.reads_bind hr.reads_getEnvironment fun llm w₅ h₅ hllm => ?_
  have hpresent : calm → llm ≠ none → (w₅.environments llmName).isSome := by
    intro hcalm hne
    obtain ⟨policies, ⟨⟨rfl, -⟩, -⟩ | ⟨payload, -, ⟨v, -, hv', heq⟩, -⟩⟩ := hllm
    · exact absurd rfl hne
    · obtain rfl := hr.alone hcalm _ _ hv'
      obtain ⟨e, he, -⟩ := Option.map_eq_some_iff.1 heq
      exact Option.isSome_of_eq_some he
  refine hr.reads_bind (hr.reads_optional rfl hpresent) fun vs w₆ h₆ hvariables => ?_
  refine hr.reads_bind (hr.reads_optional rfl fun hcalm hne => hr.alone hcalm _ _ h₆ ▸ hpresent hcalm hne)
    fun ss w₇ h₇ hsecrets => ?_
  refine hr.reads_bind hr.reads_getEnvironment fun production w₈ h₈ hproduction => ?_
  refine hr.reads_bind (hr.reads_call rfl fun _ => trivial) fun protection w₉ h₉ hprotection => ?_
  refine reads_pure fun w' h' => ?_
  obtain ⟨llmPolicies, hllm⟩ := hllm
  obtain ⟨productionPolicies, hproduction⟩ := hproduction
  -- the relations from the start to each reading, and from each reading to the end
  have s₂ := hr.trans _ _ _ h₁ h₂
  have s₃ := hr.trans _ _ _ s₂ h₃
  have s₄ := hr.trans _ _ _ s₃ h₄
  have s₅ := hr.trans _ _ _ s₄ h₅
  have s₆ := hr.trans _ _ _ s₅ h₆
  have s₇ := hr.trans _ _ _ s₆ h₇
  have s₈ := hr.trans _ _ _ s₇ h₈
  have e₈ := hr.trans _ _ _ h₉ h'
  have e₇ := hr.trans _ _ _ h₈ e₈
  have e₆ := hr.trans _ _ _ h₇ e₇
  have e₅ := hr.trans _ _ _ h₆ e₆
  have e₄ := hr.trans _ _ _ h₅ e₅
  have e₃ := hr.trans _ _ _ h₄ e₄
  refine ⟨⟨ls, as, llm, llmPolicies, vs, ss, production, productionPolicies, protection⟩, rfl, ?_⟩
  refine ⟨hr.seen (hlabels.mono fun u hu => hu.2) s₂ e₃, hr.seen (hactions.mono fun u hu => hu.2) s₃ e₄,
    hr.environmentSeen hllm s₄ e₅, fun hne => hr.seen (hvariables.1 hne) s₅ e₆, fun hne => ?_, fun hnone => ?_,
    hr.environmentSeen hproduction s₇ e₈, hr.seen (hprotection.mono fun u hu => hu.2) s₈ h'⟩
  · exact hr.seen ((hsecrets.1 hne).mono fun u hu => congrFun hu secretName) s₆ e₇
  · exact congrFun (hsecrets.2 (not_not.2 hnone)) secretName

/-! ### Plans without a change -/

private theorem desiredAction_eq_noop {α : Type} [DecidableEq α] {current : Option α} {desired : α} :
    desiredAction current desired = .noop ↔ current = some desired := by
  unfold desiredAction
  cases current with
  | none => simp
  | some state => by_cases h : state = desired <;> simp [h]

/-- Nothing is to do exactly when every reading is the desired one. -/
private theorem planItems_noop_iff {config : BootstrapConfig} {r : Readings} {who : EnvironmentReviewer} :
    (∀ item ∈ planItems config who r.labels r.actions r.llm r.llmVariables r.secretNames r.production r.protection,
        item.action = .noop) ↔
      (∀ d ∈ labels, r.labels d.name = some d) ∧ r.actions = actions ∧ r.llm = some (llmEnvironment who) ∧
        (∀ v ∈ config.providerVariables, r.llmVariables v.1 = some v.2) ∧ r.secretNames secretName = true ∧
          r.production = some (productionEnvironment who) ∧ r.protection = some (bootstrapProtection r.protection) := by
  have hllm : (if r.llm = none then BootstrapAction.create
      else if llmDrift config who r.llm r.llmVariables r.secretNames then .update else .noop) = .noop ↔
        r.llm = some (llmEnvironment who) ∧ (∀ v ∈ config.providerVariables, r.llmVariables v.1 = some v.2) ∧
          r.secretNames secretName = true := by
    by_cases hnone : r.llm = none
    · simp [hnone]
    · by_cases hdrift : llmDrift config who r.llm r.llmVariables r.secretNames
      · rw [if_neg hnone, if_pos hdrift]
        refine iff_of_false (by simp) ?_
        rintro ⟨hstate, hvariables, hsecret⟩
        rcases hdrift with h | ⟨v, hv, h⟩ | h
        · exact h hstate
        · exact h (hvariables v hv)
        · rw [hsecret] at h
          cases h
      · rw [if_neg hnone, if_neg hdrift]
        simpa [llmDrift, not_or] using hdrift
  unfold planItems
  simp only [List.forall_mem_append, List.forall_mem_map, List.forall_mem_cons,
    desiredAction_eq_noop, hllm]
  constructor
  · rintro ⟨hlabels, hactions, ⟨hstate, hvariables, hsecret⟩, hproduction, hprotection, -⟩
    refine ⟨hlabels, ?_, hstate, hvariables, hsecret, hproduction, hprotection⟩
    by_contra hne
    rw [if_neg hne] at hactions
    cases hactions
  · rintro ⟨hlabels, hactions, hstate, hvariables, hsecret, hproduction, hprotection⟩
    exact ⟨hlabels, if_pos hactions, ⟨hstate, hvariables, hsecret⟩, hproduction, hprotection, List.forall_mem_nil _⟩

/-- An environment that is in the desired state is read to be in it. -/
theorem EnvironmentSeen.eq_ownerEnvironment {name : Text} {w' : RepositorySettings}
    {state : Option EnvironmentState} {policies : PolicyIds}
    (h : EnvironmentSeen host rely name w w' state policies)
    (hreviews : ∀ u, rely w u → OwnerReviews host name u) (hmain : ∀ u, rely w u → MainOnly name u) :
    state = some (ownerEnvironment name (owner host)) := by
  obtain ⟨-, v, hv, -, hnone⟩ | ⟨payload, rfl, ⟨v, hv, -, hpayload⟩, hpolicies⟩ := h
  · obtain ⟨e, he, -⟩ := hreviews v hv
    rw [hnone] at he
    cases he
  · obtain ⟨e, he, hename, howner, hself, htimer, hpatterned⟩ := hreviews v hv
    have hcustom : (host.payload e).customBranchPolicies = true := hpatterned
    rw [he, Option.map_some, Option.some_inj] at hpayload
    subst hpayload
    rw [if_pos hcustom] at hpolicies
    obtain ⟨v', hv', -, hseen⟩ := hpolicies
    obtain ⟨policies', hsome, hall⟩ := hmain v' hv'
    rw [hsome, Option.getD_some] at hseen
    subst hseen
    unfold environmentState ownerEnvironment
    rw [howner, map_fst_policyIds_iff.2 hall, sortBy_eq_self (List.pairwise_singleton _ _)]
    show some (EnvironmentState.mk e.name [owner host] e.preventSelfReview e.waitTimer [main]) = _
    rw [hename, hself, htimer]

/-- An environment that is read to be in the desired state is in it when what is as desired stays. -/
theorem EnvironmentSeen.reached {name : Text} {w' : RepositorySettings} {policies : PolicyIds}
    (h : EnvironmentSeen host rely name w w' (some (ownerEnvironment name (owner host))) policies)
    (hreviews : ∀ u, rely u w' → OwnerReviews host name u → OwnerReviews host name w')
    (hmain : ∀ u, rely u w' → MainOnly name u → MainOnly name w') : OwnerReviews host name w' ∧ MainOnly name w' := by
  obtain ⟨⟨hstate, -⟩, -⟩ | ⟨payload, hstate, ⟨v, -, hv, hpayload⟩, hpolicies⟩ := h
  · cases hstate
  · obtain ⟨e, he, rfl⟩ := Option.map_eq_some_iff.1 hpayload
    rw [Option.some_inj, ownerEnvironment, environmentState, EnvironmentState.mk.injEq] at hstate
    obtain ⟨hename, howner, hself, htimer, hpatterns⟩ := hstate
    have hpatterns' : policies.items.map Prod.fst = [main] :=
      List.perm_singleton.1 ((sortBy_perm id _).symm.trans (hpatterns ▸ List.Perm.refl _))
    by_cases hcustom : (host.payload e).customBranchPolicies = true
    · rw [if_pos hcustom] at hpolicies
      obtain ⟨v', -, hv', hseen⟩ := hpolicies
      refine ⟨hreviews v hv ⟨e, he, hename.symm, howner.symm, hself.symm, htimer.symm, hcustom⟩, hmain v' hv' ?_⟩
      rw [← hseen, map_fst_policyIds_iff] at hpatterns'
      cases hsome : v'.policies name with
      | none =>
        rw [hsome] at hpatterns'
        exact absurd rfl hpatterns'.1
      | some policies' =>
        rw [hsome] at hpatterns'
        exact ⟨policies', hsome, hpatterns'⟩
    · rw [if_neg hcustom] at hpolicies
      rw [hpolicies] at hpatterns'
      cases hpatterns'

/-- In the desired state a plan has nothing to do, and the secret is there. -/
theorem Readings.Between.noop {config : BootstrapConfig} {r : Readings} {w' : RepositorySettings}
    (h : r.Between host rely w w') (hreached : ∀ u, rely w u → Reached host config u) :
    (∀ item ∈ (r.plan host config).items, item.action = .noop) ∧ (r.plan host config).secretPresent = true := by
  have hllm := h.llm.eq_ownerEnvironment (fun u hu => (hreached u hu).reviews _ (by simp))
    fun u hu => (hreached u hu).mainOnly _ (by simp)
  have hproduction := h.production.eq_ownerEnvironment (fun u hu => (hreached u hu).reviews _ (by simp))
    fun u hu => (hreached u hu).mainOnly _ (by simp)
  have hne : r.llm ≠ none := by simp [hllm]
  have hsecret : r.secretNames secretName = true := by
    obtain ⟨v, hv, -, heq⟩ := h.secretNames hne
    rw [heq]
    exact (hreached v hv).secret
  refine ⟨planItems_noop_iff.2 ⟨?_, ?_, hllm, ?_, hsecret, hproduction, ?_⟩, hsecret⟩
  · obtain ⟨v, hv, -, heq⟩ := h.labels
    rw [heq]
    exact fun d hd => RepositorySettings.listedLabels_eq_some.2 ((hreached v hv).labels d hd)
  · obtain ⟨v, hv, -, heq⟩ := h.actions
    rw [heq]
    exact (hreached v hv).actions
  · obtain ⟨v, hv, -, heq⟩ := h.llmVariables hne
    rw [heq]
    exact (hreached v hv).providerVariables
  · obtain ⟨v, hv, -, heq⟩ := h.protection
    rw [heq]
    exact (hreached v hv).protection

/-- A plan that has nothing to do is made in the desired state. -/
theorem Readings.Between.reached {config : BootstrapConfig} {r : Readings} {w' : RepositorySettings}
    (h : r.Between host rely w w') (hprogress : ∀ u, rely u w' → Progress host config u w')
    (hnoop : ∀ item ∈ (r.plan host config).items, item.action = .noop) : Reached host config w' := by
  obtain ⟨hlabels, hactions, hllm, hvariables, hsecret, hproduction, hprotection⟩ := planItems_noop_iff.1 hnoop
  have hne : r.llm ≠ none := by simp [hllm]
  have hllm' := h.llm
  rw [hllm] at hllm'
  have hreached := hllm'.reached (fun u hu => (hprogress u hu).reviews llmName (by simp))
    fun u hu => (hprogress u hu).mainOnly llmName (by simp)
  have hproduction' := h.production
  rw [hproduction] at hproduction'
  have hreached' := hproduction'.reached (fun u hu => (hprogress u hu).reviews productionName (by simp))
    fun u hu => (hprogress u hu).mainOnly productionName (by simp)
  refine ⟨?_, ?_, by simp [hreached.1, hreached'.1], by simp [hreached.2, hreached'.2], ?_, ?_, ?_⟩
  · obtain ⟨v, -, hv, heq⟩ := h.labels
    rw [heq] at hlabels
    exact fun d hd => (hprogress v hv).labels d hd (RepositorySettings.listedLabels_eq_some.1 (hlabels d hd))
  · obtain ⟨v, -, hv, heq⟩ := h.actions
    exact (hprogress v hv).actions (heq ▸ hactions)
  · obtain ⟨v, -, hv, heq⟩ := h.llmVariables hne
    rw [heq] at hvariables
    exact fun d hd => (hprogress v hv).providerVariables d hd (hvariables d hd)
  · obtain ⟨v, -, hv, heq⟩ := h.secretNames hne
    exact (hprogress v hv).secret (heq ▸ hsecret)
  · obtain ⟨v, -, hv, heq⟩ := h.protection
    rw [heq] at hprotection
    exact (hprogress v hv).protection hprotection

end Readings

end Bootstrap

end ArdOssie
