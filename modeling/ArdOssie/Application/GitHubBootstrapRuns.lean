import ArdOssie.Application.GitHubBootstrapPlans

/-!
# Runs of the bootstrap

Runs of the bootstrap interleave with each other, and calls fail at will.  Every call brings the settings closer to the
desired state or leaves them, a run that succeeds leaves them there, and a run on its own without faults succeeds from
everywhere.  In the desired state runs only read.
-/

namespace ArdOssie

namespace Bootstrap

open GitHubCli

variable {host : GitHubHost} {config : BootstrapConfig} {w w' w'' : RepositorySettings}

/-! ### Progress -/

theorem Progress.refl (host : GitHubHost) (config : BootstrapConfig) (w : RepositorySettings) :
    Progress host config w w :=
  ⟨fun _ _ h => h, fun _ _ => rfl, fun h => h, fun _ _ h => h, fun _ _ h => h, fun _ _ => rfl, fun _ _ h => h,
    fun _ _ _ => rfl, fun h => h, fun _ _ _ => rfl, fun h => h, rfl, fun _ _ => rfl, fun h => h⟩

theorem Progress.trans (h : Progress host config w w') (h' : Progress host config w' w'') :
    Progress host config w w'' where
  labels d hd hw := h'.labels d hd (h.labels d hd hw)
  otherLabels name hname := (h'.otherLabels name hname).trans (h.otherLabels name hname)
  actions hw := h'.actions (h.actions hw)
  reviews name hname hw := h'.reviews name hname (h.reviews name hname hw)
  mainOnly name hname hw := h'.mainOnly name hname (h.mainOnly name hname hw)
  otherEnvironments name hname := (h'.otherEnvironments name hname).trans (h.otherEnvironments name hname)
  providerVariables v hv hw := h'.providerVariables v hv (h.providerVariables v hv hw)
  otherVariables environment name hn :=
    (h'.otherVariables environment name hn).trans (h.otherVariables environment name hn)
  secret hw := h'.secret (h.secret hw)
  otherSecrets environment name hn := (h'.otherSecrets environment name hn).trans (h.otherSecrets environment name hn)
  protection hw := h'.protection (h.protection hw)
  reviewCount := h'.reviewCount.trans h.reviewCount
  otherProtections branch hb := (h'.otherProtections branch hb).trans (h.otherProtections branch hb)
  conventional hw := h'.conventional (h.conventional hw)

/-- The desired state stays. -/
theorem Progress.reached (h : Progress host config w w') (hw : Reached host config w) : Reached host config w' where
  labels d hd := h.labels d hd (hw.labels d hd)
  actions := h.actions hw.actions
  reviews name hname := h.reviews name hname (hw.reviews name hname)
  mainOnly name hname := h.mainOnly name hname (hw.mainOnly name hname)
  providerVariables v hv := h.providerVariables v hv (hw.providerVariables v hv)
  secret := h.secret hw.secret
  protection := h.protection hw.protection

private theorem nodup_labels : (labels.map (·.name)).Nodup := by decide

private theorem nodup_providerVariables (config : BootstrapConfig) : (config.providerVariables.map Prod.fst).Nodup := by
  unfold BootstrapConfig.providerVariables
  cases config.azureEndpoint <;> cases config.gcpProjectId <;> simp

private theorem bootstrapProtection_congr {current current' : Option BranchProtectionState}
    (h : reviewCount current = reviewCount current') : bootstrapProtection current = bootstrapProtection current' := by
  unfold bootstrapProtection
  rw [h]

private theorem reviewCount_le (current : Option BranchProtectionState) :
    reviewCount current = 0 ∨ reviewCount current = 1 := by
  unfold reviewCount
  split
  · split
    · rename_i h
      simpa using h
    · exact Or.inl rfl
  · exact Or.inl rfl

/-- The protection of the bootstrap keeps its own review count. -/
private theorem reviewCount_bootstrapProtection (current : Option BranchProtectionState) :
    reviewCount (some (bootstrapProtection current)) = reviewCount current := by
  show (if reviewCount current ∈ [0, 1] then reviewCount current else 0) = reviewCount current
  rcases reviewCount_le current with h | h <;> simp [h]

/-- The protection of the bootstrap is read as it is written. -/
theorem state_payload_bootstrapProtection (current : Option BranchProtectionState) :
    (bootstrapProtection current).payload.state = bootstrapProtection current := by
  have hsorted : sortBy id (sortBy id protection.requiredStatuses) = protection.requiredStatuses := by
    rw [sortBy_eq_self (by decide), sortBy_eq_self (by decide)]
  show { bootstrapProtection current with
    requiredStatuses := sortBy id (sortBy id protection.requiredStatuses)
    requiredApprovingReviewCount := reviewCount current } = _
  rw [hsorted]
  rfl

/-! ### What a call changes -/

private theorem progress_setLabel {d : LabelState} (hd : d ∈ labels) : Progress host config w (w.setLabel d) :=
  { Progress.refl host config w with
    labels := by
      intro d' hd' hw
      by_cases hname : d'.name = d.name
      · obtain rfl := List.inj_on_of_nodup_map nodup_labels hd' hd hname
        exact Function.update_self ..
      · exact (Function.update_of_ne hname ..).trans hw
    otherLabels := by
      intro name hname
      refine Function.update_of_ne ?_ ..
      rintro rfl
      exact hname (List.mem_map_of_mem hd)
    conventional := by
      intro hw
      refine ⟨fun d' hd' l hl => ?_, hw.environments, hw.policies⟩
      change Function.update w.labels d.name (some d) d'.name = some l at hl
      by_cases hname : d'.name = d.name
      · rw [hname, Function.update_self] at hl
        rw [← Option.some_inj.1 hl, hname]
      · rw [Function.update_of_ne hname] at hl
        exact hw.labels d' hd' l hl }

private theorem progress_putActions : Progress host config w { w with actions := actions } :=
  { Progress.refl host config w with
    actions := fun _ => rfl
    conventional := fun hw => ⟨hw.labels, hw.environments, hw.policies⟩ }

private theorem policies_setEnvironment {name name' : Text} {e : EnvironmentSettings} :
    (w.setEnvironment name e).policies name' = if name' = name then e.policies else w.policies name' := by
  unfold RepositorySettings.policies RepositorySettings.setEnvironment
  by_cases h : name' = name
  · subst h
    simp
  · simp [h]

/-- The settings that the bootstrap gives to an environment, which keeps its name and its policies. -/
private def ownerSettings (host : GitHubHost) (name : Text) (current : Option EnvironmentSettings) :
    EnvironmentSettings :=
  ⟨(current.map EnvironmentSettings.name).getD name, [((owner host).kind, (owner host).id)], false, 0,
    some ((current.bind EnvironmentSettings.policies).getD [])⟩

private theorem name_ownerSettings {name : Text} (h : ∀ e, w.environments name = some e → e.name = name) :
    (ownerSettings host name (w.environments name)).name = name := by
  unfold ownerSettings
  cases he : w.environments name with
  | none => rfl
  | some e => exact h e he

private theorem ownerReviews_setEnvironment {name : Text} (h : ∀ e, w.environments name = some e → e.name = name) :
    OwnerReviews host name (w.setEnvironment name (ownerSettings host name (w.environments name))) :=
  ⟨_, Function.update_self .., name_ownerSettings h, sortBy_eq_self (List.pairwise_singleton _ _), rfl, rfl, rfl⟩

private theorem environments_update {name : Text} {e : Option EnvironmentSettings}
    (hname : name ∈ [llmName, productionName]) :
    ∀ name' ∉ [llmName, productionName], Function.update w.environments name e name' = w.environments name' := by
  intro name' hname'
  refine Function.update_of_ne ?_ ..
  rintro rfl
  exact hname' hname

private theorem progress_putEnvironment {name : Text} (hname : name ∈ [llmName, productionName]) :
    Progress host config w (w.setEnvironment name (ownerSettings host name (w.environments name))) :=
  { Progress.refl host config w with
    reviews := by
      intro name' _ hw
      by_cases h : name' = name
      · subst h
        obtain ⟨e, he, hename, -⟩ := hw
        exact ownerReviews_setEnvironment fun e' he' => Option.some_inj.1 (he.symm.trans he') ▸ hename
      · obtain ⟨e, he, hrest⟩ := hw
        exact ⟨e, (Function.update_of_ne h ..).trans he, hrest⟩
    mainOnly := by
      rintro name' - ⟨policies, hpolicies, hmain⟩
      refine ⟨policies, ?_, hmain⟩
      rw [policies_setEnvironment]
      split
      · rename_i h
        subst h
        show some ((w.policies name').getD []) = some policies
        rw [hpolicies, Option.getD_some]
      · exact hpolicies
    otherEnvironments := environments_update hname
    conventional := by
      intro hw
      refine ⟨hw.labels, fun name' hname' e he => ?_, fun name' hname' policies hpolicies => ?_⟩
      · change Function.update w.environments name _ name' = some e at he
        by_cases h : name' = name
        · subst h
          rw [Function.update_self] at he
          exact Option.some_inj.1 he ▸ name_ownerSettings (hw.environments name' hname')
        · rw [Function.update_of_ne h] at he
          exact hw.environments name' hname' e he
      · rw [policies_setEnvironment] at hpolicies
        split at hpolicies
        · rename_i h
          subst h
          have hkept : (w.policies name').getD [] = policies := Option.some_inj.1 hpolicies
          rw [← hkept]
          cases hcurrent : w.policies name' with
          | none => exact List.nodup_nil
          | some current => exact hw.policies name' hname' current hcurrent
        · exact hw.policies name' hname' policies hpolicies }

private theorem policies_changePolicies {name name' : Text} {change : BranchPolicies → BranchPolicies} :
    (w.changePolicies name change).policies name' =
      if name' = name then (w.policies name).map change else w.policies name' := by
  unfold RepositorySettings.policies RepositorySettings.changePolicies
  by_cases h : name' = name
  · subst h
    cases w.environments name' <;> simp
  · simp [h]

private theorem progress_changePolicies {name : Text} (hname : name ∈ [llmName, productionName])
    {change : BranchPolicies → BranchPolicies}
    (hmain : ∀ policies, AllMain policies → AllMain (change policies))
    (hnodup : ∀ policies, (policies.map Prod.fst).Nodup → ((change policies).map Prod.fst).Nodup) :
    Progress host config w (w.changePolicies name change) :=
  { Progress.refl host config w with
    reviews := by
      rintro name' - ⟨e, he, hename, howner, hself, htimer, hpolicies⟩
      by_cases h : name' = name
      · subst h
        refine ⟨{ e with policies := e.policies.map change }, ?_, hename, howner, hself, htimer,
          by simpa using hpolicies⟩
        refine (Function.update_self ..).trans ?_
        rw [he, Option.map_some]
      · exact ⟨e, (Function.update_of_ne h ..).trans he, hename, howner, hself, htimer, hpolicies⟩
    mainOnly := by
      rintro name' - ⟨policies, hpolicies, hall⟩
      by_cases h : name' = name
      · subst h
        refine ⟨change policies, ?_, hmain policies hall⟩
        rw [policies_changePolicies, if_pos rfl, hpolicies, Option.map_some]
      · refine ⟨policies, ?_, hall⟩
        rw [policies_changePolicies, if_neg h, hpolicies]
    otherEnvironments := environments_update hname
    conventional := by
      intro hw
      refine ⟨hw.labels, fun name' hname' e he => ?_, fun name' hname' policies hpolicies => ?_⟩
      · change Function.update w.environments name _ name' = some e at he
        by_cases h : name' = name
        · subst h
          rw [Function.update_self] at he
          obtain ⟨e', he', rfl⟩ := Option.map_eq_some_iff.1 he
          exact hw.environments name' hname' e' he'
        · rw [Function.update_of_ne h] at he
          exact hw.environments name' hname' e he
      · rw [policies_changePolicies] at hpolicies
        split at hpolicies
        · rename_i h
          subst h
          obtain ⟨current, hcurrent, rfl⟩ := Option.map_eq_some_iff.1 hpolicies
          exact hnodup current (hw.policies name' hname' current hcurrent)
        · exact hw.policies name' hname' policies hpolicies }

private theorem progress_setVariable {name value : Text} (h : (name, value) ∈ config.providerVariables) :
    Progress host config w (w.setVariable llmName name value) :=
  { Progress.refl host config w with
    providerVariables := by
      intro v hv hw
      show Function.update w.envVariables llmName _ llmName v.1 = some v.2
      rw [Function.update_self]
      by_cases hname : v.1 = name
      · obtain rfl := List.inj_on_of_nodup_map (nodup_providerVariables config) hv h hname
        exact Function.update_self ..
      · exact (Function.update_of_ne hname ..).trans hw
    otherVariables := by
      intro environment name' hn
      show Function.update w.envVariables llmName _ environment name' = _
      by_cases henvironment : environment = llmName
      · subst henvironment
        rw [Function.update_self]
        refine Function.update_of_ne ?_ ..
        rintro rfl
        exact hn rfl (List.mem_map_of_mem h)
      · rw [Function.update_of_ne henvironment]
    conventional := fun hw => ⟨hw.labels, hw.environments, hw.policies⟩ }

private theorem progress_setSecret {value : Text} :
    Progress host config w (w.setSecret llmName secretName value) :=
  { Progress.refl host config w with
    secret := by
      intro _
      simp [RepositorySettings.setSecret]
    otherSecrets := by
      intro environment name hn
      show Function.update w.secrets llmName _ environment name = _
      by_cases henvironment : environment = llmName
      · subst henvironment
        rw [Function.update_self, Function.update_of_ne (hn rfl)]
      · rw [Function.update_of_ne henvironment]
    conventional := fun hw => ⟨hw.labels, hw.environments, hw.policies⟩ }

@[simp] theorem protection_setProtection (branch : Text) (payload : ProtectionPayload) :
    (w.setProtection branch payload).protection branch = some payload.state := by
  simp [RepositorySettings.protection, RepositorySettings.setProtection]

private theorem progress_setProtection :
    Progress host config w (w.setProtection main (bootstrapProtection (w.protection main)).payload) := by
  have hmain : (w.setProtection main (bootstrapProtection (w.protection main)).payload).protection main =
      some (bootstrapProtection (w.protection main)) := by
    rw [protection_setProtection, state_payload_bootstrapProtection]
  exact
    { Progress.refl host config w with
      protection := by
        intro _
        rw [hmain, bootstrapProtection_congr (reviewCount_bootstrapProtection _)]
      reviewCount := by rw [hmain, reviewCount_bootstrapProtection]
      otherProtections := fun branch hb => Function.update_of_ne hb ..
      conventional := fun hw => ⟨hw.labels, hw.environments, hw.policies⟩ }

/-- The calls of the bootstrap: they read, or they bring a part of the settings to its desired state. -/
def Allowed (host : GitHubHost) (config : BootstrapConfig) : SettingsCall → RepositorySettings → Prop
  | .createLabel d, _ | .updateLabel d, _ => d ∈ labels
  | .putActions state, _ => state = actions
  | .putEnvironment name reviewers preventSelfReview waitTimer, _ => name ∈ [llmName, productionName] ∧
      reviewers = [((owner host).kind, (owner host).id)] ∧ preventSelfReview = false ∧ waitTimer = 0
  | .deleteBranchPolicy name policy, _ => name ∈ [llmName, productionName] ∧ policy.1 ≠ main
  | .createBranchPolicy name pattern, _ => name ∈ [llmName, productionName] ∧ pattern = main
  | .setVariable environment name value, _ => environment = llmName ∧ (name, value) ∈ config.providerVariables
  | .setSecret environment name _, _ => environment = llmName ∧ name = secretName
  | .putProtection branch payload, w => branch = main ∧ payload = (bootstrapProtection (w.protection main)).payload
  | _, _ => True

private theorem AllMain.delete {policies : BranchPolicies} {policy : Text × ℕ} (hne : policy.1 ≠ main)
    (h : AllMain policies) : AllMain (policies.delete policy) := by
  have hsame : policies.delete policy = policies := by
    refine List.filter_eq_self.2 fun p hp => decide_eq_true ?_
    rintro rfl
    exact hne (h.2 p hp)
  rwa [hsame]

private theorem AllMain.add {policies : BranchPolicies} {id : ℕ} (h : AllMain policies) :
    AllMain (policies.add main id) := by
  obtain ⟨p, hp⟩ := List.exists_mem_of_ne_nil policies h.1
  rw [BranchPolicies.add, if_pos (List.mem_map.2 ⟨p, hp, h.2 p hp⟩)]
  exact h

private theorem nodup_delete {policies : BranchPolicies} (policy : Text × ℕ) (h : (policies.map Prod.fst).Nodup) :
    ((policies.delete policy).map Prod.fst).Nodup := h.sublist (List.filter_sublist.map _)

private theorem nodup_add {policies : BranchPolicies} (pattern : Text) (id : ℕ) (h : (policies.map Prod.fst).Nodup) :
    ((policies.add pattern id).map Prod.fst).Nodup := by
  unfold BranchPolicies.add
  split
  · exact h
  · rename_i hnew
    rw [List.map_append, List.map_singleton, ← List.concat_eq_append]
    exact h.concat hnew

/-- Every call of the bootstrap is progress. -/
theorem Allowed.progress {faults : Prop} {c : SettingsCall} {r : SettingsAnswer c} (h : Allowed host config c w)
    (hexec : SettingsExec host faults c w r w') : Progress host config w w' := by
  rcases hexec.world_cases with rfl | ⟨-, id, rfl⟩
  · exact Progress.refl host config w'
  · cases c with
    | createLabel d => exact progress_setLabel h
    | updateLabel d => exact progress_setLabel h
    | putActions state =>
      cases h
      exact progress_putActions
    | putEnvironment name reviewers preventSelfReview waitTimer =>
      obtain ⟨hname, rfl, rfl, rfl⟩ := h
      exact progress_putEnvironment hname
    | deleteBranchPolicy name policy =>
      exact progress_changePolicies h.1 (fun _ => AllMain.delete h.2) fun _ => nodup_delete policy
    | createBranchPolicy name pattern =>
      obtain ⟨hname, rfl⟩ := h
      exact progress_changePolicies hname (fun _ => AllMain.add) fun _ => nodup_add main id
    | setVariable environment name value =>
      obtain ⟨rfl, hv⟩ := h
      exact progress_setVariable hv
    | setSecret environment name value =>
      obtain ⟨rfl, rfl⟩ := h
      exact progress_setSecret
    | putProtection branch payload =>
      obtain ⟨rfl, rfl⟩ := h
      exact progress_setProtection
    | _ => exact Progress.refl host config w

/-! ### Sessions of the bootstrap -/

section Writes

variable {faults : Prop} {rely : RepositorySettings → RepositorySettings → Prop} {calm : Prop} {repositoryName : Text}
variable {α β : Type}

/-- A session of the bootstrap, in which others make progress as well. -/
structure Writer (host : GitHubHost) (faults : Prop) (rely : RepositorySettings → RepositorySettings → Prop)
    (calm : Prop) (repositoryName : Text) (config : BootstrapConfig) : Prop
    extends Reader host faults rely (Allowed host config) calm repositoryName where
  progress : ∀ w w', rely w w' → Progress host config w w'
  reviewer : calm → host.accepts ((owner host).kind, (owner host).id) = true

/-- The session makes progress and ends with `Q`. -/
def Writes (host : GitHubHost) (faults : Prop) (rely : RepositorySettings → RepositorySettings → Prop) (calm : Prop)
    (config : BootstrapConfig) (m : GitHubSession α) (w : RepositorySettings) (Q : α → RepositorySettings → Prop) :
    Prop :=
  ∀ s, Session.Guards (SettingsExec host faults) rely (Allowed host config) m s w fun r _ w' =>
    Progress host config w w' ∧ Ended calm Q r w'

theorem Writes.mono {m : GitHubSession α} {Q Q' : α → RepositorySettings → Prop}
    (h : Writes host faults rely calm config m w Q)
    (hQ : ∀ a w', Progress host config w w' → Q a w' → Q' a w') : Writes host faults rely calm config m w Q' := by
  intro s
  refine (h s).mono fun r s' w' hr => ⟨hr.1, ?_⟩
  cases r with
  | ok a => exact hQ a w' hr.1 hr.2
  | error e => exact hr.2

theorem Writer.writes_bind (hr : Writer host faults rely calm repositoryName config) {m : GitHubSession α}
    {f : α → GitHubSession β} {P : α → RepositorySettings → Prop} {Q : β → RepositorySettings → Prop}
    (h : Writes host faults rely calm config m w P)
    (hf : ∀ a u, Progress host config w u → P a u → Writes host faults rely calm config (f a) u Q) :
    Writes host faults rely calm config (m >>= f) w Q := by
  intro s
  refine Session.guards_bind hr.refl (h s) ?_ ?_
  · intro e s' u u' hP hu'
    exact ⟨hP.1.trans (hr.progress _ _ hu'), hP.2⟩
  · intro a s' u hP
    refine (hf a u hP.1 hP.2 s').mono fun r s'' u' hQ => ?_
    exact ⟨hP.1.trans hQ.1, hQ.2⟩

theorem Writer.writes_pure (hr : Writer host faults rely calm repositoryName config) {a : α}
    {Q : α → RepositorySettings → Prop} (h : ∀ w', rely w w' → Q a w') :
    Writes host faults rely calm config (pure a : GitHubSession α) w Q := fun _ =>
  Session.guards_pure fun w' hw => ⟨hr.progress _ _ hw, h w' hw⟩

theorem Writer.writes_ofResult_bind (hr : Writer host faults rely calm repositoryName config) {r : Workflow α}
    {f : α → GitHubSession β} {Q : β → RepositorySettings → Prop} (herror : ∀ e, r = .error e → ¬ calm)
    (hok : ∀ a, r = .ok a → Writes host faults rely calm config (f a) w Q) :
    Writes host faults rely calm config (Session.ofResult r >>= f) w Q := fun s =>
  Session.guards_ofResult_bind (fun e _ he hw => ⟨hr.progress _ _ hw, herror e he⟩) fun a ha => hok a ha s

/-- A session that reads is a session of the bootstrap. -/
theorem Writer.writes_of_reads (hr : Writer host faults rely calm repositoryName config) {m : GitHubSession α}
    {Q : α → RepositorySettings → Prop} (h : Reads host faults rely (Allowed host config) calm m w Q) :
    Writes host faults rely calm config m w fun a w' => rely w w' ∧ Q a w' := by
  intro s
  refine (h s).mono fun r s' w' hr' => ⟨hr.progress _ _ hr'.2.1, ?_⟩
  cases r with
  | ok a => exact ⟨hr'.2.1, hr'.2.2⟩
  | error e => exact hr'.2.2

/-- A call that is allowed takes effect while it is calm. -/
theorem Writer.writes_call (hr : Writer host faults rely calm repositoryName config) {c : SettingsCall}
    (hallowed : ∀ u, rely w u → Allowed host config c u) (hpossible : calm → c.Possible host w) :
    Writes host faults rely calm config (call c) w fun _ w' => calm → ∃ id, w' = c.after id w := by
  intro s
  refine Session.guards_ask hallowed ?_
  intro w₁ r w₂ w₃ hw hexec hw'
  refine ⟨(hr.progress _ _ hw).trans (((hallowed w₁ hw).progress hexec).trans (hr.progress _ _ hw')), ?_⟩
  cases r with
  | ok v =>
    intro hcalm
    obtain rfl := hr.alone hcalm _ _ hw
    obtain rfl := hr.alone hcalm _ _ hw'
    exact hexec.ok_cases.2.2
  | error e =>
    intro hcalm
    obtain rfl := hr.alone hcalm _ _ hw
    exact hexec.error_cases.elim (hr.faultless hcalm) fun h => h (hpossible hcalm)

/-- What a change settles while it is calm stays when the change is recorded. -/
theorem Writer.writes_record (hr : Writer host faults rely calm repositoryName config)
    {m : GitHubSession MutationRecord} {F : RepositorySettings → Prop}
    (h : Writes host faults rely calm config m w fun _ w' => calm → F w') :
    Writes host faults rely calm config (record m) w fun _ w' => calm → F w' := by
  refine hr.writes_bind h fun made u _ hF s => ?_
  refine Session.guards_modify fun w' hw => ⟨hr.progress _ _ hw, fun hcalm => ?_⟩
  obtain rfl := hr.alone hcalm _ _ hw
  exact hF hcalm

/-- A change that is made only under a condition. -/
theorem Writer.writes_recordIf (hr : Writer host faults rely calm repositoryName config) {p : Prop} [Decidable p]
    {m : GitHubSession MutationRecord} {F : RepositorySettings → Prop}
    (h : p → Writes host faults rely calm config m w fun _ w' => calm → F w') (hnot : ¬ p → calm → F w) :
    Writes host faults rely calm config (recordIf p m) w fun _ w' => calm → F w' := by
  unfold recordIf
  split
  · rename_i hp
    exact hr.writes_record (h hp)
  · rename_i hp
    refine hr.writes_pure fun w' hw hcalm => ?_
    obtain rfl := hr.alone hcalm _ _ hw
    exact hnot hp hcalm

/-! ### Labels and actions -/

private theorem Writer.writes_upsertLabel (hr : Writer host faults rely calm repositoryName config) {d : LabelState}
    (hd : d ∈ labels) (hconventional : calm → Conventional w) :
    Writes host faults rely calm config (upsertLabel d.name d.color d.description) w fun _ w' =>
      calm → w'.labels d.name = some d := by
  unfold upsertLabel
  refine hr.writes_bind (hr.writes_of_reads (hr.reads_call rfl fun _ => trivial)) ?_
  rintro currentLabels u hu ⟨-, hseen⟩
  have hcurrent : calm → currentLabels d.name = u.listedLabels d.name := by
    intro hcalm
    obtain ⟨v, -, hv, -, heq⟩ := hseen
    rw [heq, hr.alone hcalm _ _ hv]
    rfl
  have hset : ∀ (c : SettingsCall) action, (c = .createLabel d ∨ c = .updateLabel d) → (calm → c.Possible host u) →
      Writes host faults rely calm config (do
        let _ ← call c
        pure ⟨"label", d.name, action, none⟩ : GitHubSession MutationRecord) u fun _ w' =>
          calm → w'.labels d.name = some d := by
    intro c action hc hpossible
    refine hr.writes_bind (hr.writes_call (fun _ _ => by rcases hc with rfl | rfl <;> exact hd) hpossible) ?_
    rintro _ u' - hafter
    refine hr.writes_pure fun w' hw hcalm => ?_
    obtain ⟨id, rfl⟩ := hafter hcalm
    obtain rfl := hr.alone hcalm _ _ hw
    rcases hc with rfl | rfl <;> exact Function.update_self ..
  split
  · rename_i h
    refine hr.writes_pure fun w' hw hcalm => ?_
    rw [← hr.alone hcalm _ _ hw]
    exact RepositorySettings.listedLabels_eq_some.1 ((hcurrent hcalm).symm.trans h)
  · split
    · rename_i h
      refine hset (.createLabel d) "create" (Or.inl rfl) fun hcalm => ?_
      rw [hcurrent hcalm, RepositorySettings.listedLabels, Option.filter_eq_none_iff] at h
      refine Option.eq_none_iff_forall_ne_some.2 fun l hl => h l hl (decide_eq_true ?_)
      exact (hu.conventional (hconventional hcalm)).labels d hd l hl
    · rename_i h
      refine hset (.updateLabel d) "update" (Or.inr rfl) fun hcalm => Option.isSome_iff_ne_none.2 fun hnone => ?_
      rw [hcurrent hcalm, RepositorySettings.listedLabels, hnone] at h
      exact h rfl

private theorem Writer.writes_applyLabels (hr : Writer host faults rely calm repositoryName config)
    {currentLabels : Text → Option LabelState} {ls : List LabelState} (hls : ∀ d ∈ ls, d ∈ labels)
    (hcurrent : calm → ∀ d ∈ ls, currentLabels d.name = some d → w.labels d.name = some d)
    (hconventional : calm → Conventional w) :
    Writes host faults rely calm config (applyLabels currentLabels ls) w fun _ w' =>
      calm → ∀ d ∈ ls, w'.labels d.name = some d := by
  induction ls generalizing w with
  | nil => exact hr.writes_pure fun _ _ _ d hd => absurd hd List.not_mem_nil
  | cons d ls ih =>
    unfold applyLabels
    have hd : d ∈ labels := hls d List.mem_cons_self
    have hfirst : Writes host faults rely calm config (recordIf (currentLabels d.name ≠ some d)
        (upsertLabel d.name d.color d.description)) w fun _ w' => calm → w'.labels d.name = some d :=
      hr.writes_recordIf (fun _ => hr.writes_upsertLabel hd hconventional) fun h hcalm =>
        hcurrent hcalm d List.mem_cons_self (not_not.1 h)
    refine hr.writes_bind hfirst ?_
    intro _ u hu hsettled
    refine (ih (fun d' hd' => hls d' (List.mem_cons_of_mem _ hd')) ?_
      fun hcalm => hu.conventional (hconventional hcalm)).mono ?_
    · intro hcalm d' hd' h
      exact hu.labels d' (hls d' (List.mem_cons_of_mem _ hd')) (hcurrent hcalm d' (List.mem_cons_of_mem _ hd') h)
    · intro _ w' hw hrest hcalm
      exact List.forall_mem_cons.2 ⟨hw.labels d hd (hsettled hcalm), hrest hcalm⟩

private theorem Writer.writes_applyActions (hr : Writer host faults rely calm repositoryName config)
    {currentActions : ActionsPermissionState} (hcurrent : calm → currentActions = w.actions) :
    Writes host faults rely calm config (recordIf (currentActions ≠ actions)
      (setActionsPermissions repositoryName actions)) w fun _ w' => calm → w'.actions = actions := by
  refine hr.writes_recordIf (fun _ => ?_) fun h hcalm => (hcurrent hcalm) ▸ not_not.1 h
  refine hr.writes_bind (hr.writes_call (fun _ _ => rfl) fun _ => trivial) ?_
  rintro _ u - hafter
  refine hr.writes_pure fun w' hw hcalm => ?_
  obtain ⟨id, rfl⟩ := hafter hcalm
  obtain rfl := hr.alone hcalm _ _ hw
  rfl

/-! ### Environments -/

/-- While it is calm the policies that are left are those with a wanted pattern and those still to be looked at. -/
private theorem Writer.writes_deletePolicies (hr : Writer host faults rely calm repositoryName config) {name : Text}
    (hname : name ∈ [llmName, productionName]) (found : BranchPolicies) {ps : List (Text × ℕ)} (hps : ps.Nodup)
    (hfound : ∀ p ∈ ps, p ∈ found)
    (hpolicies : calm → w.policies name = some (found.filter fun p => p.1 = main ∨ p ∈ ps)) :
    Writes host faults rely calm config (deletePolicies name [main] ps) w fun _ w' => calm →
      w'.policies name = some (found.filter fun p => p.1 = main) := by
  induction ps generalizing w with
  | nil =>
    refine hr.writes_pure fun w' hw hcalm => ?_
    obtain rfl := hr.alone hcalm _ _ hw
    simpa using hpolicies hcalm
  | cons p ps ih =>
    obtain ⟨hp, hps⟩ := List.nodup_cons.1 hps
    have hrest : ∀ q ∈ ps, q ∈ found := fun q hq => hfound q (List.mem_cons_of_mem _ hq)
    unfold deletePolicies
    by_cases hmain : p.1 ∈ [main]
    · rw [if_pos hmain]
      refine ih hps hrest fun hcalm => (hpolicies hcalm).trans (congrArg some (List.filter_congr fun q _ => ?_))
      by_cases hq : q = p
      · simp [hq, List.mem_singleton.1 hmain]
      · simp [hq]
    · rw [if_neg hmain]
      have hne : p.1 ≠ main := fun h => hmain (List.mem_singleton.2 h)
      refine hr.writes_bind (hr.writes_call (fun _ _ => ⟨hname, hne⟩) fun hcalm => ?_) ?_
      · exact ⟨_, hpolicies hcalm, List.mem_filter.2 ⟨hfound p List.mem_cons_self, by simp⟩⟩
      · rintro _ u - hafter
        refine ih hps hrest fun hcalm => ?_
        obtain ⟨id, rfl⟩ := hafter hcalm
        show (w.changePolicies name _).policies name = _
        rw [policies_changePolicies, if_pos rfl, hpolicies hcalm, Option.map_some, BranchPolicies.delete,
          List.filter_filter]
        refine congrArg some (List.filter_congr fun q _ => ?_)
        by_cases hq : q = p
        · simp [hq, hne, hp]
        · simp [hq]

private theorem missing_main (names : List Text) :
    ([main].dedup.filter fun pattern => pattern ∉ names) = if main ∈ names then [] else [main] := by
  rw [(List.nodup_singleton main).dedup]
  by_cases h : main ∈ names <;> simp [h]

/-- While it is calm main gets a policy when it has none. -/
private theorem Writer.writes_createPolicies (hr : Writer host faults rely calm repositoryName config) {name : Text}
    (hname : name ∈ [llmName, productionName]) {found : BranchPolicies}
    (hpolicies : calm → w.policies name = some (found.filter fun p => p.1 = main)) :
    Writes host faults rely calm config (createPolicies name
      (sortBy id ([main].dedup.filter fun pattern => pattern ∉ found.map Prod.fst))) w fun _ w' =>
        calm → MainOnly name w' := by
  by_cases hmain : main ∈ found.map Prod.fst
  · rw [missing_main, if_pos hmain, sortBy_nil]
    refine hr.writes_pure fun w' hw hcalm => ?_
    obtain rfl := hr.alone hcalm _ _ hw
    obtain ⟨p, hp, hpmain⟩ := List.mem_map.1 hmain
    refine ⟨_, hpolicies hcalm, List.ne_nil_of_mem (List.mem_filter.2 ⟨hp, decide_eq_true hpmain⟩), fun q hq => ?_⟩
    exact of_decide_eq_true (List.mem_filter.1 hq).2
  · rw [missing_main, if_neg hmain, sortBy_eq_self (List.pairwise_singleton _ _)]
    refine hr.writes_bind (hr.writes_call (fun _ _ => ⟨hname, rfl⟩) fun hcalm => ?_) ?_
    · exact Option.isSome_of_eq_some (hpolicies hcalm)
    · rintro _ u - hafter
      refine hr.writes_pure fun w' hw hcalm => ?_
      obtain rfl := hr.alone hcalm _ _ hw
      obtain ⟨id, rfl⟩ := hafter hcalm
      have hempty : (found.filter fun p => p.1 = main) = [] := by
        refine List.filter_eq_nil_iff.2 fun p hp h => ?_
        exact hmain (List.mem_map.2 ⟨p, hp, of_decide_eq_true h⟩)
      refine ⟨[(main, id)], ?_, List.cons_ne_nil _ _, fun p hp => List.mem_singleton.1 hp ▸ rfl⟩
      show (w.changePolicies name _).policies name = _
      rw [policies_changePolicies, if_pos rfl, hpolicies hcalm, hempty]
      rfl

/-- While it is calm what was read of an environment is what is there. -/
private theorem Writer.found_policies (hr : Writer host faults rely calm repositoryName config) {name : Text}
    {u : RepositorySettings} {state : Option EnvironmentState} {found : PolicyIds}
    (h : EnvironmentSeen host rely name w u state found) (hcalm : calm) :
    policyIds ((u.policies name).getD []) = found := by
  obtain ⟨⟨-, rfl⟩, v, -, hv, hnone⟩ | ⟨payload, -, ⟨v, -, hv, hpayload⟩, hpolicies⟩ := h
  · obtain rfl := hr.alone hcalm _ _ hv
    unfold RepositorySettings.policies
    rw [hnone]
    rfl
  · by_cases hcustom : payload.customBranchPolicies = true
    · rw [if_pos hcustom] at hpolicies
      obtain ⟨v', -, hv', hseen⟩ := hpolicies
      obtain rfl := hr.alone hcalm _ _ hv'
      exact hseen
    · rw [if_neg hcustom] at hpolicies
      obtain rfl := hr.alone hcalm _ _ hv
      obtain ⟨e, he, rfl⟩ := Option.map_eq_some_iff.1 hpayload
      have hnone : e.policies = none := by simpa [GitHubHost.payload] using hcustom
      unfold RepositorySettings.policies
      rw [he, hpolicies, Option.bind_some, hnone]
      rfl

private theorem Writer.writes_upsertEnvironment (hr : Writer host faults rely calm repositoryName config) {name : Text}
    (hname : name ∈ [llmName, productionName]) (hconventional : calm → Conventional w) :
    Writes host faults rely calm config (upsertEnvironment (ownerEnvironment name (owner host))) w fun _ w' =>
      calm → OwnerReviews host name w' ∧ MainOnly name w' := by
  unfold upsertEnvironment
  refine hr.writes_bind (hr.writes_of_reads hr.reads_environment) ?_
  rintro ⟨state, found⟩ u hu ⟨hwu, hseen⟩
  dsimp only at hseen ⊢
  by_cases hstate : state = some (ownerEnvironment name (owner host))
  · rw [if_pos hstate]
    subst hstate
    refine hr.writes_pure fun w' hw _ => ?_
    have hend := hr.toReader.environmentSeen hseen (hr.refl w) hw
    exact hend.reached (fun v hv => (hr.progress v w' hv).reviews name hname)
      fun v hv => (hr.progress v w' hv).mainOnly name hname
  · rw [if_neg hstate]
    -- no pattern has two policies, so that every policy was found
    have hfound : calm → (u.policies name).getD [] = found.items := by
      intro hcalm
      rw [← hr.found_policies hseen hcalm]
      refine (KeyedList.items_ofList ?_).symm
      cases hcurrent : u.policies name with
      | none => exact List.nodup_nil
      | some current => exact (hu.conventional (hconventional hcalm)).policies name hname current hcurrent
    refine hr.writes_bind (hr.writes_call (fun _ _ => ⟨hname, rfl, rfl, rfl⟩) fun hcalm r hmem => ?_) ?_
    · rw [List.mem_singleton.1 hmem]
      exact hr.reviewer hcalm
    rintro _ u₁ - hput
    have hreviews : calm → OwnerReviews host name u₁ := by
      intro hcalm
      obtain ⟨id, rfl⟩ := hput hcalm
      exact ownerReviews_setEnvironment ((hu.conventional (hconventional hcalm)).environments name hname)
    refine hr.writes_bind (hr.writes_deletePolicies hname found.items
      ((sortBy_perm _ _).nodup_iff.2 (List.Nodup.of_map _ found.nodup)) (fun p hp => mem_sortBy.1 hp) fun hcalm => ?_)
      ?_
    · obtain ⟨id, rfl⟩ := hput hcalm
      show (u.setEnvironment name _).policies name = _
      rw [policies_setEnvironment, if_pos rfl]
      refine congrArg some ((hfound hcalm).trans ?_)
      symm
      exact List.filter_eq_self.2 fun p hp => decide_eq_true (Or.inr (mem_sortBy.2 hp))
    · intro _ u₂ h₂ hdeleted
      refine hr.writes_bind (hr.writes_createPolicies hname hdeleted) ?_
      intro _ u₃ h₃ hcreated
      refine hr.writes_pure fun w' hw hcalm => ?_
      obtain rfl := hr.alone hcalm _ _ hw
      exact ⟨(h₂.trans h₃).reviews name hname (hreviews hcalm), hcreated hcalm⟩

private theorem Writer.writes_applyEnvironment (hr : Writer host faults rely calm repositoryName config) {name : Text}
    (hname : name ∈ [llmName, productionName]) (hconventional : calm → Conventional w) :
    Writes host faults rely calm config (applyEnvironment (ownerEnvironment name (owner host))) w fun _ w' =>
      calm → OwnerReviews host name w' ∧ MainOnly name w' := by
  unfold applyEnvironment
  refine hr.writes_bind (hr.writes_of_reads hr.reads_getEnvironment) ?_
  rintro state u hu ⟨hwu, policies, hseen⟩
  refine hr.writes_recordIf (fun _ => hr.writes_upsertEnvironment hname fun hcalm =>
    hu.conventional (hconventional hcalm)) fun h hcalm => ?_
  rw [not_not.1 h] at hseen
  exact hseen.reached (fun v hv => (hr.progress v u hv).reviews name hname)
    fun v hv => (hr.progress v u hv).mainOnly name hname

/-! ### Variables, secret and protection -/

private theorem Writer.writes_applyVariables (hr : Writer host faults rely calm repositoryName config)
    {currentVariables : Text → Option Text} {vs : List (Text × Text)} (hvs : ∀ v ∈ vs, v ∈ config.providerVariables)
    (henvironment : calm → OwnerReviews host llmName w)
    (hcurrent : calm → ∀ v ∈ vs, currentVariables v.1 = some v.2 → w.envVariables llmName v.1 = some v.2) :
    Writes host faults rely calm config (applyVariables currentVariables vs) w fun _ w' =>
      calm → ∀ v ∈ vs, w'.envVariables llmName v.1 = some v.2 := by
  induction vs generalizing w with
  | nil => exact hr.writes_pure fun _ _ _ v hv => absurd hv List.not_mem_nil
  | cons v vs ih =>
    obtain ⟨name, value⟩ := v
    unfold applyVariables
    have hv : (name, value) ∈ config.providerVariables := hvs _ List.mem_cons_self
    have hfirst : Writes host faults rely calm config (recordIf (currentVariables name ≠ some value)
        (setVariable name value llmName)) w fun _ w' => calm → w'.envVariables llmName name = some value := by
      refine hr.writes_recordIf (fun _ => ?_) fun h hcalm => hcurrent hcalm _ List.mem_cons_self (not_not.1 h)
      refine hr.writes_bind (hr.writes_call (fun _ _ => ⟨rfl, hv⟩) fun hcalm => ?_) ?_
      · obtain ⟨e, he, -⟩ := henvironment hcalm
        exact Option.isSome_of_eq_some he
      · rintro _ u - hafter
        refine hr.writes_pure fun w' hw hcalm => ?_
        obtain rfl := hr.alone hcalm _ _ hw
        obtain ⟨id, rfl⟩ := hafter hcalm
        simp [SettingsCall.after, RepositorySettings.setVariable]
    refine hr.writes_bind hfirst ?_
    intro _ u hu hsettled
    refine (ih (fun v' hv' => hvs v' (List.mem_cons_of_mem _ hv'))
      (fun hcalm => hu.reviews llmName (by simp) (henvironment hcalm)) ?_).mono ?_
    · intro hcalm v' hv' h
      exact hu.providerVariables v' (hvs v' (List.mem_cons_of_mem _ hv'))
        (hcurrent hcalm v' (List.mem_cons_of_mem _ hv') h)
    · intro _ w' hw hrest hcalm
      exact List.forall_mem_cons.2 ⟨hw.providerVariables _ hv (hsettled hcalm), hrest hcalm⟩

/-- The key that a run was given, if it asks for one. -/
def BootstrapRun.key (run : BootstrapRun) : Text := (run.apiKey.or run.apiKeyProvider).getD []

private theorem Writer.writes_applySecret (hr : Writer host faults rely calm repositoryName config) (run : BootstrapRun)
    (needsSecret : Bool) (henvironment : calm → OwnerReviews host llmName w)
    (hneeds : calm → needsSecret = true → run.key ≠ [])
    (hpresent : calm → needsSecret = false → (w.secrets llmName secretName).isSome) :
    Writes host faults rely calm config (run.applySecret needsSecret) w fun _ w' =>
      calm → (w'.secrets llmName secretName).isSome := by
  unfold BootstrapRun.applySecret
  split
  · rename_i hneeded
    refine hr.writes_ofResult_bind (fun e he hcalm => hneeds hcalm hneeded (of_failIf_eq_error he).1) fun _ _ => ?_
    refine hr.writes_record ?_
    refine hr.writes_bind (hr.writes_call (fun _ _ => ⟨rfl, rfl⟩) fun hcalm => ?_) ?_
    · obtain ⟨e, he, -⟩ := henvironment hcalm
      exact Option.isSome_of_eq_some he
    · rintro _ u - hafter
      refine hr.writes_pure fun w' hw hcalm => ?_
      obtain rfl := hr.alone hcalm _ _ hw
      obtain ⟨id, rfl⟩ := hafter hcalm
      simp [SettingsCall.after, RepositorySettings.setSecret]
  · rename_i hneeded
    refine hr.writes_pure fun w' hw hcalm => ?_
    obtain rfl := hr.alone hcalm _ _ hw
    exact hpresent hcalm (Bool.eq_false_iff.2 hneeded)

private theorem Writer.writes_applyProtection (hr : Writer host faults rely calm repositoryName config) :
    Writes host faults rely calm config BootstrapRun.applyProtection w fun _ w' =>
      calm → w'.protection main = some (bootstrapProtection (w'.protection main)) := by
  unfold BootstrapRun.applyProtection
  refine hr.writes_bind (hr.writes_of_reads (hr.reads_call rfl fun _ => trivial)) ?_
  rintro current u - ⟨-, v, -, hv, -, heq⟩
  have hcurrent : current = v.protection main := heq
  -- the count that was read is still the one that the bootstrap keeps
  have hsame : ∀ u', rely u u' → bootstrapProtection current = bootstrapProtection (u'.protection main) := by
    intro u' hu'
    rw [hcurrent]
    exact bootstrapProtection_congr (hr.progress _ _ (hr.trans _ _ _ hv hu')).reviewCount.symm
  refine hr.writes_recordIf (fun _ => ?_) fun h hcalm => ?_
  · refine hr.writes_bind (hr.writes_call (fun u' hu' => ⟨rfl, congrArg _ (hsame u' hu')⟩) fun _ => trivial) ?_
    rintro _ u₁ - hafter
    refine hr.writes_pure fun w' hw hcalm => ?_
    obtain rfl := hr.alone hcalm _ _ hw
    obtain ⟨id, rfl⟩ := hafter hcalm
    have hmain : (SettingsCall.after id u (.putProtection main (bootstrapProtection current).payload)).protection main =
        some (bootstrapProtection current) := by
      simp [SettingsCall.after, state_payload_bootstrapProtection]
    rw [hmain, bootstrapProtection_congr (reviewCount_bootstrapProtection _)]
  · obtain rfl := hr.alone hcalm _ _ hv
    rw [hcurrent] at h
    exact not_not.1 h

/-! ### Runs -/

private theorem Writer.writes_converge (hr : Writer host faults rely calm repositoryName config) {run : BootstrapRun}
    (hconfig : run.plan.config = config) {needsSecret : Bool} (hneeds : calm → needsSecret = true → run.key ≠ [])
    (hpresent : calm → needsSecret = false → (w.secrets llmName secretName).isSome)
    (hconventional : calm → Conventional w) :
    Writes host faults rely calm config (run.converge repositoryName (owner host) needsSecret) w fun _ w' =>
      Reached host config w' := by
  unfold BootstrapRun.converge
  rw [hconfig]
  -- each write makes its part as desired, and what comes after it is progress
  refine hr.writes_bind (hr.writes_of_reads (hr.reads_call rfl fun _ => trivial)) ?_
  rintro currentLabels w₁ p₁ ⟨-, v₁, -, hv₁, -, hseen₁⟩
  refine hr.writes_bind (hr.writes_applyLabels (fun _ hd => hd) (fun hcalm d _ h => ?_)
    fun hcalm => p₁.conventional (hconventional hcalm)) fun _ w₂ p₂ hlabels => ?_
  · rw [← hr.alone hcalm _ _ hv₁]
    exact RepositorySettings.listedLabels_eq_some.1 ((congrFun hseen₁ d.name).symm.trans h)
  refine hr.writes_bind (hr.writes_of_reads (hr.reads_call rfl fun _ => trivial)) ?_
  rintro currentActions w₃ p₃ ⟨-, v₃, -, hv₃, -, hseen₃⟩
  refine hr.writes_bind (hr.writes_applyActions fun hcalm => ?_) fun _ w₄ p₄ hactions => ?_
  · rw [← hr.alone hcalm _ _ hv₃]
    exact hseen₃
  have p₁₄ := (p₁.trans p₂).trans (p₃.trans p₄)
  refine hr.writes_bind (hr.writes_applyEnvironment (by simp) fun hcalm => p₁₄.conventional (hconventional hcalm))
    fun _ w₅ p₅ hllm => ?_
  refine hr.writes_bind (hr.writes_of_reads (hr.reads_call rfl fun hcalm => ?_)) ?_
  · obtain ⟨⟨e, he, -⟩, -⟩ := hllm hcalm
    exact Option.isSome_of_eq_some he
  rintro currentVariables w₆ p₆ ⟨-, v₆, -, hv₆, -, hseen₆⟩
  refine hr.writes_bind (hr.writes_applyVariables (fun v hv => mem_sortBy.1 hv)
    (fun hcalm => p₆.reviews llmName (by simp) (hllm hcalm).1) fun hcalm v _ h => ?_) fun _ w₇ p₇ hvariables => ?_
  · rw [← hr.alone hcalm _ _ hv₆]
    exact (congrFun hseen₆ v.1).symm.trans h
  have p₁₇ := (p₁₄.trans p₅).trans (p₆.trans p₇)
  refine hr.writes_bind (hr.writes_applyEnvironment (by simp) fun hcalm => p₁₇.conventional (hconventional hcalm))
    fun _ w₈ p₈ hproduction => ?_
  have p₅₈ := (p₆.trans p₇).trans p₈
  refine hr.writes_bind (hr.writes_applySecret run needsSecret
    (fun hcalm => p₅₈.reviews llmName (by simp) (hllm hcalm).1) hneeds
    fun hcalm h => (p₁₇.trans p₈).secret (hpresent hcalm h)) fun _ w₉ p₉ hsecret => ?_
  refine hr.writes_bind hr.writes_applyProtection fun _ w₁₀ p₁₀ hprotection => ?_
  -- the progress up to the end keeps what every write has reached
  have hreached : calm → Reached host config w₁₀ := by
    intro hcalm
    have p₅₁₀ := (p₅₈.trans p₉).trans p₁₀
    have p₈₁₀ := p₉.trans p₁₀
    have p₂₁₀ := ((p₃.trans p₄).trans p₅).trans p₅₁₀
    refine ⟨fun d hd => p₂₁₀.labels d hd (hlabels hcalm d hd), (p₅.trans p₅₁₀).actions (hactions hcalm), ?_, ?_, ?_,
      p₁₀.secret (hsecret hcalm), hprotection hcalm⟩
    · simp [p₅₁₀.reviews llmName (by simp) (hllm hcalm).1, p₈₁₀.reviews productionName (by simp) (hproduction hcalm).1]
    · simp [p₅₁₀.mainOnly llmName (by simp) (hllm hcalm).2,
        p₈₁₀.mainOnly productionName (by simp) (hproduction hcalm).2]
    · exact fun v hv => (p₈.trans p₈₁₀).providerVariables v hv (hvariables hcalm v (mem_sortBy.2 hv))
  refine hr.writes_bind (hr.writes_of_reads (hr.reads_plan config)) ?_
  rintro _ w₁₁ - ⟨hw₁₁, readings, rfl, hbetween⟩ s
  refine Session.guards_ofResult fun w' hw => ⟨hr.progress _ _ hw, ?_⟩
  have hnoop_iff : ((readings.plan host config).items.filter fun item => item.action ≠ .noop) = [] ↔
      ∀ item ∈ (readings.plan host config).items, item.action = .noop := by
    simp [List.filter_eq_nil_iff]
  -- a plan with nothing left has read the desired state; while the run is calm it is such a plan
  by_cases hnoop : ∀ item ∈ (readings.plan host config).items, item.action = .noop
  · rw [failIf, if_neg (not_not.2 (hnoop_iff.2 hnoop))]
    exact (hr.progress _ _ hw).reached (hbetween.reached (fun u hu => hr.progress u w₁₁ hu) hnoop)
  · rw [failIf, if_pos (hnoop ∘ hnoop_iff.1)]
    intro hcalm
    refine hnoop (hbetween.noop fun u hu => ?_).1
    rw [← hr.alone hcalm _ _ hu]
    exact hreached hcalm

/-- A run of the bootstrap makes only calls that are progress, and leaves the desired state when it succeeds; while it
is calm it succeeds. -/
theorem Writer.writes_apply (hr : Writer host faults rely calm repositoryName config) {run : BootstrapRun}
    (hconfig : run.plan.config = config) (hrepository : calm → run.plan.repository = repositoryName)
    (hkey : calm → run.key ≠ [] ∨ run.replaceSecret = false ∧ (w.environments llmName).isSome ∧
      (w.secrets llmName secretName).isSome)
    (hconventional : calm → Conventional w) :
    Writes host faults rely calm config (run.apply repositoryName) w fun _ w' => Reached host config w' := by
  unfold BootstrapRun.apply
  rw [hconfig]
  refine hr.writes_ofResult_bind (fun e he hcalm => (of_failIf_eq_error he).1 (hrepository hcalm)) fun _ _ => ?_
  refine hr.writes_bind (hr.writes_of_reads (hr.reads_plan config)) ?_
  rintro _ u hu ⟨-, readings, rfl, hbetween⟩
  -- while the run is calm, the secret it has read is the one that is kept
  have hneeds : calm → (!readings.secretNames secretName || run.replaceSecret) = true → run.key ≠ [] := by
    intro hcalm hneeded
    rcases hkey hcalm with h | ⟨hkeep, henvironment, hsecret⟩
    · exact h
    · exfalso
      have hllm : readings.llm ≠ none := by
        intro hnone
        obtain ⟨-, v, hv, -, hmissing⟩ | ⟨payload, hstate, -⟩ := hbetween.llm
        · obtain rfl := hr.alone hcalm _ _ hv
          rw [hmissing] at henvironment
          cases henvironment
        · rw [hnone] at hstate
          cases hstate
      obtain ⟨v, hv, -, hseen⟩ := hbetween.secretNames hllm
      obtain rfl := hr.alone hcalm _ _ hv
      rw [hseen, hsecret, hkeep] at hneeded
      cases hneeded
  have hpresent : (!readings.secretNames secretName || run.replaceSecret) = false →
      (u.secrets llmName secretName).isSome := by
    intro hnot
    have hread : readings.secretNames secretName = true := by
      simpa using (Bool.or_eq_false_iff.1 hnot).1
    have hllm : readings.llm ≠ none := fun hnone => by simp [hbetween.noSecret hnone] at hread
    obtain ⟨v, -, hv, hseen⟩ := hbetween.secretNames hllm
    exact (hr.progress _ _ hv).secret (hseen ▸ hread)
  refine hr.writes_ofResult_bind (fun e he hcalm => ?_) fun _ _ => ?_
  · obtain ⟨⟨hneeded, hkey, hprovider⟩, -⟩ := of_failIf_eq_error he
    exact hneeds hcalm hneeded (by simp [BootstrapRun.key, hkey, hprovider])
  have hconverge : Writes host faults rely calm config (tryCatch (run.converge repositoryName (owner host)
      (!readings.secretNames secretName || run.replaceSecret)) BootstrapRun.asPartial) u fun _ w' =>
        Reached host config w' := by
    intro s
    refine Session.guards_tryCatch hr.refl (hr.writes_converge hconfig hneeds (fun _ => hpresent)
      (fun hcalm => hu.conventional (hconventional hcalm)) s) ?_ ?_
    · exact fun _ s' v v' hP hv => ⟨hP.1.trans (hr.progress _ _ hv), (hr.progress _ _ hv).reached hP.2⟩
    · intro e s' v hP
      refine Session.guards_get_bind ?_
      exact Session.guards_throw fun v' hv => ⟨hP.1.trans (hr.progress _ _ hv), hP.2⟩
  refine hr.writes_bind hconverge fun _ v _ hreached s => ?_
  refine Session.guards_get_bind ?_
  exact Session.guards_pure fun w' hw => ⟨hr.progress _ _ hw, (hr.progress _ _ hw).reached hreached⟩

end Writes

end Bootstrap

end ArdOssie
