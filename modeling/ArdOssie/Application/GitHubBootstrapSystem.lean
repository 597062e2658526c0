import ArdOssie.Application.GitHubBootstrapRuns

/-!
# The repository commands together

Runs of the bootstrap and of the review protection in one repository, in any order of their calls and with calls that
fail at will.
-/

namespace ArdOssie

namespace Bootstrap

open GitHubCli

variable {host : GitHubHost} {config : BootstrapConfig} {w w' : RepositorySettings}

/-! ### The desired state is only read -/

section Steady

variable {faults : Prop} {rely : RepositorySettings → RepositorySettings → Prop}
variable {allowed : SettingsCall → RepositorySettings → Prop} {repositoryName : Text}

private theorem ended_false {α : Type} {r : Workflow α} : Ended False (fun _ _ => True) r w := by
  cases r with
  | ok a => trivial
  | error e => exact not_false

private theorem reads_recordIf {p : Prop} [Decidable p] (hp : ¬ p) {m : GitHubSession MutationRecord} :
    Reads host faults rely allowed False (recordIf p m) w fun _ _ => True := by
  unfold recordIf
  rw [if_neg hp]
  exact reads_pure fun _ _ => trivial

private theorem Reader.reads_applyLabels (hr : Reader host faults rely allowed False repositoryName)
    {currentLabels : Text → Option LabelState} {ls : List LabelState}
    (h : ∀ d ∈ ls, currentLabels d.name = some d) :
    Reads host faults rely allowed False (applyLabels currentLabels ls) w fun _ _ => True := by
  induction ls generalizing w with
  | nil => exact reads_pure fun _ _ => trivial
  | cons d ls ih =>
    exact hr.reads_bind (reads_recordIf (not_not.2 (h d List.mem_cons_self))) fun _ _ _ _ =>
      ih fun d' hd' => h d' (List.mem_cons_of_mem _ hd')

private theorem Reader.reads_applyVariables (hr : Reader host faults rely allowed False repositoryName)
    {currentVariables : Text → Option Text} {vs : List (Text × Text)} (h : ∀ v ∈ vs, currentVariables v.1 = some v.2) :
    Reads host faults rely allowed False (applyVariables currentVariables vs) w fun _ _ => True := by
  induction vs generalizing w with
  | nil => exact reads_pure fun _ _ => trivial
  | cons v vs ih =>
    exact hr.reads_bind (reads_recordIf (not_not.2 (h v List.mem_cons_self))) fun _ _ _ _ =>
      ih fun v' hv' => h v' (List.mem_cons_of_mem _ hv')

private theorem Reader.reads_applyEnvironment (hr : Reader host faults rely allowed False repositoryName)
    (hreached : ∀ u, rely w u → Reached host config u) {name : Text} (hname : name ∈ [llmName, productionName]) :
    Reads host faults rely allowed False (applyEnvironment (ownerEnvironment name (owner host))) w fun _ _ => True := by
  refine hr.reads_bind hr.reads_getEnvironment fun state u hu hseen => ?_
  obtain ⟨policies, hseen⟩ := hseen
  exact reads_recordIf (not_not.2 (hseen.eq_ownerEnvironment (fun v hv => (hreached v hv).reviews name hname)
    fun v hv => (hreached v hv).mainOnly name hname))

private theorem Reader.reads_converge (hr : Reader host faults rely allowed False repositoryName)
    (hreached : ∀ u, rely w u → Reached host config u) {run : BootstrapRun} (hconfig : run.plan.config = config) :
    Reads host faults rely allowed False (run.converge repositoryName (owner host) false) w fun _ _ => True := by
  have hlater : ∀ {u}, rely w u → ∀ u', rely u u' → Reached host config u' := fun hu u' hu' =>
    hreached u' (hr.trans _ _ _ hu hu')
  unfold BootstrapRun.converge
  rw [hconfig]
  refine hr.reads_bind (hr.reads_call rfl False.elim) fun currentLabels w₁ h₁ hseen₁ => ?_
  refine hr.reads_bind (hr.reads_applyLabels ?_) fun _ w₂ h₂ _ => ?_
  · obtain ⟨v, hv, -, -, rfl⟩ := hseen₁
    exact fun d hd => RepositorySettings.listedLabels_eq_some.2 ((hreached v hv).labels d hd)
  have s₂ := hr.trans _ _ _ h₁ h₂
  refine hr.reads_bind (hr.reads_call rfl False.elim) fun currentActions w₃ h₃ hseen₃ => ?_
  refine hr.reads_bind (reads_recordIf ?_) fun _ w₄ h₄ _ => ?_
  · obtain ⟨v, hv, -, -, rfl⟩ := hseen₃
    exact not_not.2 (hlater s₂ v hv).actions
  have s₄ := hr.trans _ _ _ (hr.trans _ _ _ s₂ h₃) h₄
  refine hr.reads_bind (hr.reads_applyEnvironment (hlater s₄) (by simp)) fun _ w₅ h₅ _ => ?_
  have s₅ := hr.trans _ _ _ s₄ h₅
  refine hr.reads_bind (hr.reads_call rfl False.elim) fun currentVariables w₆ h₆ hseen₆ => ?_
  refine hr.reads_bind (hr.reads_applyVariables ?_) fun _ w₇ h₇ _ => ?_
  · obtain ⟨v, hv, -, -, rfl⟩ := hseen₆
    exact fun d hd => (hlater s₅ v hv).providerVariables d (mem_sortBy.1 hd)
  have s₇ := hr.trans _ _ _ (hr.trans _ _ _ s₅ h₆) h₇
  refine hr.reads_bind (hr.reads_applyEnvironment (hlater s₇) (by simp)) fun _ w₈ h₈ _ => ?_
  have s₈ := hr.trans _ _ _ s₇ h₈
  refine hr.reads_bind (reads_pure fun _ _ => trivial) fun _ w₉ h₉ (_ : True) => ?_
  have s₉ := hr.trans _ _ _ s₈ h₉
  have hprotection : Reads host faults rely allowed False BootstrapRun.applyProtection w₉ fun _ _ => True := by
    refine hr.reads_bind (hr.reads_call rfl False.elim) fun current u hu hseen => reads_recordIf ?_
    obtain ⟨v, hv, -, -, rfl⟩ := hseen
    exact not_not.2 (hlater s₉ v hv).protection
  refine hr.reads_bind hprotection fun _ w₁₀ h₁₀ _ => ?_
  have s₁₀ := hr.trans _ _ _ s₉ h₁₀
  refine hr.reads_bind (hr.reads_plan config) fun p w₁₁ h₁₁ hp s => ?_
  exact Session.guards_ofResult fun w' hw => ⟨rfl, hw, ended_false⟩

/-- A run that starts in the desired state, which stays, makes no mutation. -/
private theorem Reader.steady_apply (hr : Reader host faults rely allowed False repositoryName)
    (hreached : ∀ u, rely w u → Reached host config u) {run : BootstrapRun} (hconfig : run.plan.config = config)
    (hreplace : run.replaceSecret = false) :
    Session.Guards (SettingsExec host faults) rely allowed (run.apply repositoryName) [] w fun r s' w' =>
      s' = [] ∧ rely w w' ∧ ∀ result, r = .ok result → result.status = .noop ∧ result.mutations = [] := by
  unfold BootstrapRun.apply
  rw [hconfig]
  refine Session.guards_ofResult_bind (fun e w' _ hw => ⟨rfl, hw, fun _ h => (by cases h)⟩) fun _ _ => ?_
  refine Session.guards_bind hr.refl (hr.reads_plan config []) ?_ ?_
  · rintro e s' u u' ⟨rfl, hu, -⟩ hu'
    exact ⟨rfl, hr.trans _ _ _ hu hu', fun _ h => (by cases h)⟩
  · rintro p s' u ⟨rfl, hu, readings, rfl, hbetween⟩
    have hsecret : readings.secretNames secretName = true := (hbetween.noop hreached).2
    have hneeds : (!(readings.plan host config).secretPresent || run.replaceSecret) = false := by
      simp [Readings.plan, hsecret, hreplace]
    rw [hneeds]
    refine Session.guards_ofResult_bind (fun e w' _ hw => ⟨rfl, hr.trans _ _ _ hu hw, fun _ h => (by cases h)⟩)
      fun _ _ => ?_
    have hconverge := hr.reads_converge (fun v hv => hreached v (hr.trans _ _ _ hu hv)) hconfig []
    refine Session.guards_bind hr.refl (Session.guards_tryCatch (Q := fun r s' w' => s' = [] ∧ rely w w')
      hr.refl hconverge ?_ ?_) ?_ ?_
    · rintro _ s' v v' ⟨rfl, hv, -⟩ hv'
      exact ⟨rfl, hr.trans _ _ _ hu (hr.trans _ _ _ hv hv')⟩
    · rintro e s' v ⟨rfl, hv, -⟩
      refine Session.guards_get_bind ?_
      exact Session.guards_throw fun v' hv' => ⟨rfl, hr.trans _ _ _ hu (hr.trans _ _ _ hv hv')⟩
    · rintro e s' v v' ⟨rfl, hv⟩ hv'
      exact ⟨rfl, hr.trans _ _ _ hv hv', fun _ h => (by cases h)⟩
    · rintro _ s' v ⟨rfl, hv⟩
      refine Session.guards_get_bind ?_
      refine Session.guards_pure fun w' hw => ⟨rfl, hr.trans _ _ _ hv hw, ?_⟩
      rintro result ⟨⟩
      exact ⟨rfl, rfl⟩

end Steady

/-! ### Review protection -/

/-- The protection that asks for one review. -/
def reviewed : BranchProtectionState := { protection with requiredApprovingReviewCount := 1 }

/-- The main branch has the protection that asks for one review, as the adapter writes it. -/
def enabled (w : RepositorySettings) : RepositorySettings := w.setProtection main reviewed.payload

private theorem state_payload_reviewed : reviewed.payload.state = reviewed :=
  state_payload_bootstrapProtection (some reviewed)

@[simp] private theorem protection_enabled : (enabled w).protection main = some reviewed := by
  rw [enabled, protection_setProtection, state_payload_reviewed]

private theorem enabled_enabled : enabled (enabled w) = enabled w := by
  simp [enabled, RepositorySettings.setProtection]

/-- Asking for one review keeps the desired state. -/
private theorem Reached.enabled (h : Reached host config w) : Reached host config (enabled w) where
  labels := h.labels
  actions := h.actions
  reviews := h.reviews
  mainOnly := h.mainOnly
  providerVariables := h.providerVariables
  secret := h.secret
  protection := by
    rw [protection_enabled]
    rfl

/-- In the desired state the settings only change in that main asks for one review. -/
def Steady (w w' : RepositorySettings) : Prop := w' = w ∨ w' = enabled w

/-- Reads, and the call that asks for one review. -/
def SteadyCall (c : SettingsCall) (_ : RepositorySettings) : Prop :=
  c.isRead = true ∨ c = .putProtection main reviewed.payload

private theorem steady_reader (host : GitHubHost) (faults : Prop) (repositoryName : Text) :
    Reader host faults Steady SteadyCall False repositoryName where
  refl _ := Or.inl rfl
  trans w w' w'' h h' := by
    rcases h with rfl | rfl
    · exact h'
    · rcases h' with rfl | rfl
      · exact Or.inr rfl
      · exact Or.inr enabled_enabled
  reads _ _ h := Or.inl h
  faultless := False.elim
  alone := False.elim
  accepted := False.elim

private theorem steady_cooperation (host : GitHubHost) (faults : Prop) :
    Program.Cooperation (SettingsExec host faults) Steady SteadyCall fun _ _ => False where
  refl _ := Or.inl rfl
  trans := (steady_reader host faults []).trans
  call {c w r w'} hc hexec := by
    rcases hc with hread | rfl
    · exact Or.inl (hexec.read_world hread)
    · rcases hexec.world_cases with rfl | ⟨-, id, rfl⟩
      · exact Or.inl rfl
      · exact Or.inr rfl
  environment := False.elim

private theorem Steady.reached (h : Steady w w') (hw : Reached host config w) : Reached host config w' := by
  rcases h with rfl | rfl
  · exact hw
  · exact hw.enabled

private theorem Steady.reviewed (h : Steady w w') (hw : w.protection main = some reviewed) :
    w'.protection main = some Bootstrap.reviewed := by
  rcases h with rfl | rfl
  · exact hw
  · exact protection_enabled

/-- The call that asks for one review, recorded. -/
private theorem guards_recordReviewed (host : GitHubHost) (faults : Prop) (s : List MutationRecord) :
    Session.Guards (SettingsExec host faults) Steady SteadyCall (record (setBranchProtection main reviewed)) s w
      fun r _ w' => Steady w w' ∧ ∀ a, r = .ok a → w'.protection main = some reviewed := by
  have hcooperation := steady_cooperation host faults
  have hset : Session.Guards (SettingsExec host faults) Steady SteadyCall (setBranchProtection main reviewed) s w
      fun r _ w' => Steady w w' ∧ ∀ a, r = .ok a → w'.protection main = some reviewed := by
    refine Session.guards_ask_bind (fun _ _ => Or.inr rfl) ?_ ?_
    · intro u₁ e u₂ u₃ h₁ hexec h₂
      have hcall := hcooperation.call (Or.inr rfl) hexec
      exact ⟨hcooperation.trans _ _ _ h₁ (hcooperation.trans _ _ _ hcall h₂), fun _ h => (by cases h)⟩
    · intro u₁ v u₂ h₁ hexec
      have hcall := hcooperation.call (Or.inr rfl) hexec
      obtain ⟨-, -, id, rfl⟩ := hexec.ok_cases
      refine Session.guards_pure fun w' hw => ⟨hcooperation.trans _ _ _ h₁ (hcooperation.trans _ _ _ hcall hw), ?_⟩
      intro _ _
      exact hw.reviewed protection_enabled
  refine Session.guards_bind hcooperation.refl hset ?_ ?_
  · intro e s' u u' hP hu'
    exact ⟨hcooperation.trans _ _ _ hP.1 hu', fun _ h => (by cases h)⟩
  · intro _ s' u hP
    refine Session.guards_modify fun w' hw => ⟨hcooperation.trans _ _ _ hP.1 hw, fun _ _ => ?_⟩
    exact hw.reviewed (hP.2 _ rfl)

/-- A run that asks for reviews leaves main with one review; somebody other than the owner may give it. -/
private theorem guards_enableReviewProtection (faults : Prop) (fold : Text → Text) (repositoryName : Text)
    (s : List MutationRecord) :
    Session.Guards (SettingsExec host faults) Steady SteadyCall (enableReviewProtection fold repositoryName) s w
      fun r _ w' => Steady w w' ∧ ∀ result, r = .ok result → w'.protection main = some reviewed ∧
        result.eligibleReviewers =
          eligibleReviewers fold (ownerLogin host.repository.fullName) host.collaborators ∧
        result.eligibleReviewers ≠ [] := by
  have hr := steady_reader host faults repositoryName
  unfold enableReviewProtection
  refine Session.guards_bind hr.refl (hr.reads_requireRepository s) ?_ ?_
  · rintro e s' u u' ⟨rfl, hu, -⟩ hu'
    exact ⟨hr.trans _ _ _ hu hu', fun _ h => (by cases h)⟩
  rintro _ s₁ w₁ ⟨rfl, h₁, rfl⟩
  refine Session.guards_bind hr.refl (hr.reads_call rfl False.elim s₁) ?_ ?_
  · rintro e s' u u' ⟨rfl, hu, -⟩ hu'
    exact ⟨hr.trans _ _ _ h₁ (hr.trans _ _ _ hu hu'), fun _ h => (by cases h)⟩
  rintro _ s₂ w₂ ⟨rfl, h₂, -, -, -, -, rfl⟩
  have t₂ := hr.trans _ _ _ h₁ h₂
  refine Session.guards_ofResult_bind (fun e w' _ hw => ⟨hr.trans _ _ _ t₂ hw, fun _ h => (by cases h)⟩) ?_
  intro _ heligible
  have hne := failIf_eq_ok.1 heligible
  refine Session.guards_bind hr.refl (hr.reads_call rfl False.elim s₂) ?_ ?_
  · rintro e s' u u' ⟨rfl, hu, -⟩ hu'
    exact ⟨hr.trans _ _ _ t₂ (hr.trans _ _ _ hu hu'), fun _ h => (by cases h)⟩
  rintro current s₃ w₃ ⟨rfl, h₃, v, -, hv, -, hseen⟩
  have t₃ := hr.trans _ _ _ t₂ h₃
  cases current with
  | none => exact Session.guards_throw fun w' hw => ⟨hr.trans _ _ _ t₃ hw, fun _ h => (by cases h)⟩
  | some current =>
    refine Session.guards_ofResult_bind (fun e w' _ hw => ⟨hr.trans _ _ _ t₃ hw, fun _ h => (by cases h)⟩) ?_
    intro _ hcontract
    have hcontract' := not_or.1 (failIf_eq_ok.1 hcontract)
    have hreviewed : { current with requiredApprovingReviewCount := 1 } = reviewed := by
      rw [reviewed, ← not_not.1 hcontract'.2]
    by_cases hcount : current.requiredApprovingReviewCount = 1
    · rw [if_pos hcount]
      have hcurrent : current = reviewed := by
        rw [← hreviewed, ← hcount]
      refine Session.guards_pure fun w' hw => ⟨hr.trans _ _ _ t₃ hw, ?_⟩
      rintro _ ⟨⟩
      exact ⟨(hr.trans _ _ _ hv hw).reviewed (hseen.symm.trans (hcurrent ▸ rfl)), rfl, hne⟩
    · rw [if_neg hcount, hreviewed]
      refine Session.guards_bind hr.refl (guards_recordReviewed host faults s₃) ?_ ?_
      · intro e s' u u' hP hu'
        exact ⟨hr.trans _ _ _ t₃ (hr.trans _ _ _ hP.1 hu'), fun _ h => (by cases h)⟩
      · intro _ s' u hP
        refine Session.guards_pure fun w' hw => ⟨hr.trans _ _ _ t₃ (hr.trans _ _ _ hP.1 hw), ?_⟩
        rintro _ ⟨⟩
        exact ⟨hw.reviewed (hP.2 _ rfl), rfl, hne⟩

/-! ### Commands -/

/-- A command of the repository. -/
inductive Command where
  | bootstrap (run : BootstrapRun)
  | enableReviews (fold : Text → Text)

inductive CommandResult where
  | bootstrapped (result : BootstrapResult)
  | reviews (result : ReviewProtectionResult)

/-- The program of a command. -/
def Command.program (repositoryName : Text) (command : Command) :
    Program SettingsAnswer (Except WorkflowError CommandResult × List MutationRecord) :=
  Session.program (match command with
    | .bootstrap run => do
      let result ← run.apply repositoryName
      pure (.bootstrapped result)
    | .enableReviews fold => do
      let result ← enableReviewProtection fold repositoryName
      pure (.reviews result)) []

/-- Commands that run in one repository. -/
abbrev CommandSystem (ι : Type) :=
  Program.System SettingsAnswer (Except WorkflowError CommandResult × List MutationRecord) RepositorySettings ι

/-- What a command guarantees in the desired state. -/
def SteadyResult (host : GitHubHost) (command : Command) :
    Except WorkflowError CommandResult × List MutationRecord → RepositorySettings → Prop
  | (.ok (.bootstrapped result), mutations), _ => result.status = .noop ∧ result.mutations = [] ∧ mutations = []
  | (.ok (.reviews result), _), w => w.protection main = some reviewed ∧
      ∃ fold, command = .enableReviews fold ∧ result.eligibleReviewers =
        eligibleReviewers fold (ownerLogin host.repository.fullName) host.collaborators ∧ result.eligibleReviewers ≠ []
  | (.error _, _), _ => True

private theorem guards_command (host : GitHubHost) (faults : Prop) (repositoryName : Text) (hw : Reached host config w)
    {command : Command}
    (hcommand : ∀ run, command = .bootstrap run → run.plan.config = config ∧ run.replaceSecret = false) :
    Program.Guards (SettingsExec host faults) Steady SteadyCall (command.program repositoryName) w
      (SteadyResult host command) := by
  have hr := steady_reader host faults repositoryName
  cases command with
  | bootstrap run =>
    obtain ⟨hconfig, hreplace⟩ := hcommand run rfl
    refine Session.guards_bind hr.refl (Q := fun r s' w' => SteadyResult host (.bootstrap run) (r, s') w')
      (hr.steady_apply (fun u hu => hu.reached hw) hconfig hreplace) ?_ ?_
    · intro _ _ _ _ _ _
      trivial
    · rintro result s' u ⟨rfl, -, hresult⟩
      obtain ⟨hstatus, hmutations⟩ := hresult result rfl
      exact Session.guards_pure fun _ _ => ⟨hstatus, hmutations, rfl⟩
  | enableReviews fold =>
    refine Session.guards_bind hr.refl (Q := fun r s' w' => SteadyResult host (.enableReviews fold) (r, s') w')
      (guards_enableReviewProtection faults fold repositoryName []) ?_ ?_
    · intro _ _ _ _ _ _
      trivial
    · intro result s' u hP
      obtain ⟨hreviewed, heligible, hne⟩ := hP.2 result rfl
      exact Session.guards_pure fun _ hu => ⟨hu.reviewed hreviewed, fold, rfl, heligible, hne⟩

/-! ### The desired state is reached -/

private theorem allowed_of_isRead {c : SettingsCall} (h : c.isRead = true) : Allowed host config c w := by
  cases c <;> trivial

private theorem progress_writer (host : GitHubHost) (config : BootstrapConfig) (repositoryName : Text) :
    Writer host True (Progress host config) False repositoryName config where
  refl := Progress.refl host config
  trans _ _ _ h h' := h.trans h'
  reads _ _ := allowed_of_isRead
  faultless := False.elim
  alone := False.elim
  accepted := False.elim
  progress _ _ h := h
  reviewer := False.elim

/-- A run on its own without faults. -/
private theorem alone_writer {host : GitHubHost} (config : BootstrapConfig) {repositoryName : Text}
    (haccepted : Accepted host repositoryName)
    (hreviewer : host.accepts ((owner host).kind, (owner host).id) = true) :
    Writer host False Eq True repositoryName config where
  refl _ := rfl
  trans _ _ _ h h' := h.trans h'
  reads _ _ := allowed_of_isRead
  faultless _ := not_false
  alone _ _ _ h := h
  accepted _ := haccepted
  progress _ _ h := h ▸ Progress.refl host config _
  reviewer _ := hreviewer

/-- What a run of the bootstrap guarantees. -/
private theorem Writer.guards_bootstrap {faults calm : Prop} {rely : RepositorySettings → RepositorySettings → Prop}
    {repositoryName : Text} (hr : Writer host faults rely calm repositoryName config) {run : BootstrapRun}
    (hconfig : run.plan.config = config) (hrepository : calm → run.plan.repository = repositoryName)
    (hkey : calm → run.key ≠ [] ∨ run.replaceSecret = false ∧ (w.environments llmName).isSome ∧
      (w.secrets llmName secretName).isSome) (hconventional : calm → Conventional w) :
    Program.Guards (SettingsExec host faults) rely (Allowed host config)
      ((Command.bootstrap run).program repositoryName) w fun r w' =>
        Progress host config w w' ∧ Ended calm (fun _ => Reached host config) r.1 w' := by
  have hwrites : Writes host faults rely calm config (do
      let result ← run.apply repositoryName
      pure (CommandResult.bootstrapped result)) w fun _ => Reached host config :=
    hr.writes_bind (hr.writes_apply hconfig hrepository hkey hconventional) fun _ _ _ hreached =>
      hr.writes_pure fun _ hu => (hr.progress _ _ hu).reached hreached
  exact hwrites []

private theorem progress_cooperation (host : GitHubHost) (config : BootstrapConfig) :
    Program.Cooperation (SettingsExec host True) (Progress host config) (Allowed host config) fun _ _ => False where
  refl := Progress.refl host config
  trans _ _ _ h h' := h.trans h'
  call h hexec := h.progress hexec
  environment := False.elim

/-! ### An example -/

private def marketHost : GitHubHost where
  repository := ⟨"market/data".toList, true, false, main, "admin".toList⟩
  collaborators := [⟨"reviewer".toList, "write".toList⟩]
  userId _ := 1
  login _ _ := "market".toList
  accepts _ := true

private def marketConfig : BootstrapConfig := ⟨"default".toList, "https://provider".toList, none, none, 1⟩

private def marketRun : BootstrapRun :=
  ⟨⟨"market/data".toList, "market".toList, 1, marketConfig, false, []⟩, some "key".toList, none, false⟩

/-- A repository without any settings. -/
private def blank : RepositorySettings :=
  ⟨fun _ => none, ⟨"write".toList, false⟩, fun _ => none, fun _ _ => none, fun _ _ => none, fun _ => none⟩

private theorem marketHost_accepted : Accepted marketHost "market/data".toList := ⟨⟨rfl, rfl, rfl, rfl⟩, rfl⟩

private theorem conventional_blank : Conventional blank :=
  ⟨fun _ _ _ hl => (by cases hl), fun _ _ _ he => (by cases he), fun _ _ _ hp => (by cases hp)⟩

private theorem marketRun_key : marketRun.key ≠ [] := by decide

/-- A bootstrap of the blank repository. -/
private theorem exists_marketRun : ∃ result mutations w',
    Program.Alone (SettingsExec marketHost True) ((Command.bootstrap marketRun).program "market/data".toList) blank
      (.ok result, mutations) w' ∧ Reached marketHost marketConfig w' := by
  have hwriter := alone_writer marketConfig marketHost_accepted rfl
  obtain ⟨⟨r, mutations⟩, w', hrun⟩ := Program.exists_alone (SettingsExec.total marketHost False)
    ((Command.bootstrap marketRun).program "market/data".toList) blank
  have hended := ((hwriter.guards_bootstrap rfl (fun _ => rfl) (fun _ => Or.inl marketRun_key)
    fun _ => conventional_blank).of_alone
    hwriter.refl hrun).2
  cases r with
  | error e => exact absurd trivial hended
  | ok result => exact ⟨result, mutations, w', hrun.mono fun _ _ _ _ h => h.withFaults, hended⟩

/-! ### The commands together -/

/-- Runs of the bootstrap with one configuration reach the same state in every interleaving and with every failure of
calls: once one of them has ended without an error the settings are and stay in the desired state.  Meanwhile nothing
is undone that was as desired, and nothing is touched that the bootstrap does not manage. -/
theorem bootstraps_reach {ι : Type} [DecidableEq ι] {host : GitHubHost} {config : BootstrapConfig}
    {repositoryName : Text} {runs : ι → BootstrapRun} (hconfig : ∀ i, (runs i).plan.config = config)
    {s s' s'' : CommandSystem ι} (hstart : ∀ i, s.programs i = (Command.bootstrap (runs i)).program repositoryName)
    (hsteps : Program.System.Steps (SettingsExec host True) (fun _ _ => False) s s')
    (hlater : Program.System.Steps (SettingsExec host True) (fun _ _ => False) s' s'') :
    Progress host config s.world s''.world ∧
      ∀ i result mutations, s'.programs i = .done (.ok result, mutations) → Reached host config s''.world := by
  have hcooperation := progress_cooperation host config
  have hwriter := progress_writer host config repositoryName
  have hguards : ∀ i, Program.Guards (SettingsExec host True) (Progress host config) (Allowed host config)
      (s.programs i) s.world fun r w' =>
        Progress host config s.world w' ∧ Ended False (fun _ => Reached host config) r.1 w' := by
    intro i
    rw [hstart i]
    exact hwriter.guards_bootstrap (hconfig i) False.elim False.elim False.elim
  refine ⟨(Program.System.Steps.guards hcooperation (hsteps.trans hlater) hguards).1, ?_⟩
  intro i result mutations hdone
  exact (Program.System.Steps.ended hcooperation hsteps hlater hguards hdone).2

/-- Two runs of the bootstrap in the blank repository: the second one has found no label when the first one runs to its
end, and is refused the label that it would create. -/
theorem bootstraps_reach_two : ∃ s' : CommandSystem Bool, Program.System.Steps (SettingsExec marketHost True)
    (fun _ _ => False) ⟨blank, fun _ => (Command.bootstrap marketRun).program "market/data".toList⟩ s' ∧
      (∃ result mutations, s'.programs true = .done (.ok result, mutations)) ∧
        (∃ e mutations, s'.programs false = .done (.error e, mutations)) ∧
          Reached marketHost marketConfig s'.world := by
  obtain ⟨result, mutations, w', hrun, hreached⟩ := exists_marketRun
  have hrefused : ¬ (SettingsCall.createLabel (labels.head (by decide))).Possible marketHost w' := by
    intro hnone
    have hthere := hreached.labels _ (List.head_mem (by decide))
    exact absurd (hthere.symm.trans hnone) (Option.some_ne_none _)
  obtain ⟨s', hsteps, hdone, hraised⟩ : ∃ s' : CommandSystem Bool, Program.System.Steps (SettingsExec marketHost True)
      (fun _ _ => False) ⟨blank, fun _ => (Command.bootstrap marketRun).program "market/data".toList⟩ s' ∧
        s'.programs true = .done (.ok result, mutations) ∧
          ∃ e mutations, s'.programs false = .done (.error e, mutations) := by
    exact ⟨_, .head (.call false _ _ _ _ rfl (.answered .getRepository _ 0 trivial)) <|
      .head (.call false _ _ _ _ rfl (.answered (.getUser "market".toList) _ 0 trivial)) <|
      .head (.call false _ _ _ _ rfl (.answered .listLabels _ 0 trivial)) <|
      .head (.call false _ _ _ _ rfl (.answered .getActions _ 0 trivial)) <|
      .head (.call false _ _ _ _ rfl (.answered (.getEnvironment llmName) _ 0 trivial)) <|
      .head (.call false _ _ _ _ rfl (.answered (.getEnvironment productionName) _ 0 trivial)) <|
      .head (.call false _ _ _ _ rfl (.answered (.getProtection main) _ 0 trivial)) <|
      .head (.call false _ _ _ _ rfl (.answered .listLabels _ 0 trivial)) <|
      .head (.call false _ _ _ _ rfl (.answered .listLabels _ 0 trivial)) <|
      Relation.ReflTransGen.trans (hrun.steps (fun _ _ => False) _ true rfl) <|
      .single (.call false _ _ _ _ rfl (.refused (.createLabel _) _ (.transient "GITHUB_API_FAILED" []) hrefused)),
      rfl, _, _, rfl⟩
  exact ⟨s', hsteps, ⟨result, mutations, hdone⟩, hraised,
    (@bootstraps_reach Bool _ marketHost marketConfig _ (fun _ => marketRun) (fun _ => rfl) _ _ _ (fun _ => rfl) hsteps
      .refl).2 true result mutations hdone⟩

/-- From every conventional state, whatever interrupted runs have left, a run on its own without faults ends, and ends
without an error and in the desired state, if the owner may review. -/
theorem bootstrap_converges {host : GitHubHost} {config : BootstrapConfig} {repositoryName : Text} {run : BootstrapRun}
    (haccepted : Accepted host repositoryName) (hrepository : run.plan.repository = repositoryName)
    (hconfig : run.plan.config = config) {w : RepositorySettings}
    (hkey : run.key ≠ [] ∨ run.replaceSecret = false ∧ (w.environments llmName).isSome ∧
      (w.secrets llmName secretName).isSome)
    (hreviewer : host.accepts ((owner host).kind, (owner host).id) = true) (hconventional : Conventional w) :
    (∃ r w', Program.Alone (SettingsExec host False) ((Command.bootstrap run).program repositoryName) w r w') ∧
      ∀ r w', Program.Alone (SettingsExec host False) ((Command.bootstrap run).program repositoryName) w r w' →
        (∃ result, r.1 = .ok result) ∧ Reached host config w' ∧ Progress host config w w' := by
  have hwriter := alone_writer config haccepted hreviewer
  refine ⟨Program.exists_alone (SettingsExec.total host False) _ w, fun r w' hrun => ?_⟩
  obtain ⟨hprogress, hended⟩ :=
    (hwriter.guards_bootstrap hconfig (fun _ => hrepository) (fun _ => hkey) fun _ => hconventional).of_alone
      hwriter.refl hrun
  rcases r with ⟨e | result, mutations⟩
  · exact absurd trivial hended
  · exact ⟨⟨result, rfl⟩, hended, hprogress⟩

theorem bootstrap_converges_blank : ∃ r w', Program.Alone (SettingsExec marketHost False)
    ((Command.bootstrap marketRun).program "market/data".toList) blank r w' ∧ (∃ result, r.1 = .ok result) ∧
      Reached marketHost marketConfig w' := by
  obtain ⟨⟨r, w', hrun⟩, hall⟩ := @bootstrap_converges marketHost marketConfig _ marketRun marketHost_accepted rfl rfl
    blank (Or.inl marketRun_key) rfl conventional_blank
  exact ⟨r, w', hrun, (hall r w' hrun).1, (hall r w' hrun).2.1⟩

/-- In the desired state runs of the bootstrap and runs that ask for reviews do not get in each other's way, whatever
fails: the settings only ever change in that main asks for one review, every bootstrap that ends without an error made
no mutation, and once a run that asks for reviews has ended without an error main keeps asking for one. -/
theorem commands_steady {ι : Type} [DecidableEq ι] {host : GitHubHost} {config : BootstrapConfig}
    {repositoryName : Text} {commands : ι → Command}
    (hcommands : ∀ i run, commands i = .bootstrap run → run.plan.config = config ∧ run.replaceSecret = false)
    {s s' s'' : CommandSystem ι} (hstart : ∀ i, s.programs i = (commands i).program repositoryName)
    (hw : Reached host config s.world)
    (hsteps : Program.System.Steps (SettingsExec host True) (fun _ _ => False) s s')
    (hlater : Program.System.Steps (SettingsExec host True) (fun _ _ => False) s' s'') :
    (s''.world = s.world ∨ s''.world = enabled s.world) ∧
      ∀ i r, s'.programs i = .done r → SteadyResult host (commands i) r s''.world := by
  have hcooperation := steady_cooperation host True
  have hguards : ∀ i, Program.Guards (SettingsExec host True) Steady SteadyCall (s.programs i) s.world
      (SteadyResult host (commands i)) := by
    intro i
    rw [hstart i]
    exact guards_command host True repositoryName hw (hcommands i)
  exact ⟨(Program.System.Steps.guards hcooperation (hsteps.trans hlater) hguards).1, fun i r hdone =>
    Program.System.Steps.ended hcooperation hsteps hlater hguards hdone⟩

private def marketCommands (b : Bool) : Command := if b = true then .bootstrap marketRun else .enableReviews id

/-- A repository in the desired state that asks for no review. -/
private def settled : RepositorySettings where
  labels name := labels.find? fun label => label.name = name
  actions := actions
  environments name :=
    if name ∈ [llmName, productionName] then some ⟨name, [("User".toList, 1)], false, 0, some [(main, 1)]⟩ else none
  envVariables _ name := marketConfig.providerVariables.lookup name
  secrets _ _ := some "key".toList
  protections _ := some protection.payload

private theorem environments_settled {name : Text} (h : name ∈ [llmName, productionName]) :
    settled.environments name = some ⟨name, [("User".toList, 1)], false, 0, some [(main, 1)]⟩ := if_pos h

private theorem policies_settled {name : Text} (h : name ∈ [llmName, productionName]) :
    settled.policies name = some [(main, 1)] := by
  rw [RepositorySettings.policies, environments_settled h]
  rfl

private theorem reached_settled : Reached marketHost marketConfig settled where
  labels := by decide
  actions := rfl
  reviews _ hname :=
    ⟨_, environments_settled hname, rfl, sortBy_eq_self (List.pairwise_singleton _ _), rfl, rfl, rfl⟩
  mainOnly _ hname := ⟨_, policies_settled hname, List.cons_ne_nil _ _, by simp⟩
  providerVariables := by decide
  secret := rfl
  protection := by decide

private theorem conventional_settled : Conventional settled where
  labels _ _ _ hl := of_decide_eq_true (List.find?_some hl :)
  environments _ hname _ he := by
    rw [environments_settled hname] at he
    rw [← Option.some_inj.1 he]
  policies _ hname _ hp := by
    rw [policies_settled hname] at hp
    rw [← Option.some_inj.1 hp]
    exact List.nodup_singleton _

/-- A run that asks for reviews has read the protection when a bootstrap runs to its end, and then loses the answer to
its only change. -/
theorem commands_steady_two : ∃ s' : CommandSystem Bool, Program.System.Steps (SettingsExec marketHost True)
    (fun _ _ => False) ⟨settled, fun b => (marketCommands b).program "market/data".toList⟩ s' ∧
      (∃ result mutations, s'.programs true = .done (.ok (.bootstrapped result), mutations) ∧
        result.status = .noop ∧ result.mutations = []) ∧
          (∃ e mutations, s'.programs false = .done (.error e, mutations)) ∧
            s'.world.protection main = some reviewed ∧ (s'.world = settled ∨ s'.world = enabled settled) := by
  have hwriter := alone_writer marketConfig marketHost_accepted rfl
  obtain ⟨⟨r, mutations⟩, u, hrun⟩ := Program.exists_alone (SettingsExec.total marketHost False)
    ((Command.bootstrap marketRun).program "market/data".toList) settled
  have hended := ((hwriter.guards_bootstrap rfl (fun _ => rfl) (fun _ => Or.inl marketRun_key)
    fun _ => conventional_settled).of_alone hwriter.refl hrun).2
  have hcommands : ∀ b run, marketCommands b = .bootstrap run →
      run.plan.config = marketConfig ∧ run.replaceSecret = false := by
    intro b run h
    cases b with
    | false => cases h
    | true =>
      cases h
      exact ⟨rfl, rfl⟩
  have halone := hrun.mono fun _ _ _ _ h => h.withFaults
  obtain ⟨s', hsteps, hdone, hraised, hreviewed⟩ : ∃ s' : CommandSystem Bool, Program.System.Steps
      (SettingsExec marketHost True) (fun _ _ => False)
        ⟨settled, fun b => (marketCommands b).program "market/data".toList⟩ s' ∧
          s'.programs true = .done (r, mutations) ∧ (∃ e mutations, s'.programs false = .done (.error e, mutations)) ∧
            s'.world.protection main = some reviewed :=
    ⟨_, .head (.call false _ _ _ _ rfl (.answered .getRepository _ 0 trivial)) <|
      .head (.call false _ _ _ _ rfl (.answered .listCollaborators _ 0 trivial)) <|
      .head (.call false _ _ _ _ rfl (.answered (.getProtection main) _ 0 trivial)) <|
      Relation.ReflTransGen.trans (halone.steps (fun _ _ => False) _ true rfl) <|
      .single (.call false _ _ _ _ rfl (.lost (.putProtection main _) _ 0 (.transient "GITHUB_API_FAILED" []) trivial
        trivial)), rfl, ⟨_, _, rfl⟩, rfl⟩
  obtain ⟨hworld, hresults⟩ := @commands_steady Bool _ marketHost marketConfig _ marketCommands hcommands _ _ _
    (fun _ => rfl) reached_settled hsteps .refl
  have hsteady := hresults true _ hdone
  rcases r with e | result
  · exact absurd trivial hended
  · cases result with
    | bootstrapped result =>
      exact ⟨s', hsteps, ⟨result, mutations, hdone, hsteady.1, hsteady.2.1⟩, hraised, hreviewed, hworld⟩
    | reviews result =>
      obtain ⟨-, fold, hcommand, -⟩ := hsteady
      cases hcommand

end Bootstrap

end ArdOssie
