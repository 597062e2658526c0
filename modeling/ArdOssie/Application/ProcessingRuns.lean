import ArdOssie.Application.Processing

/-!
# Interrupted processing

A processing run that fails after its commit leaves a result file, and a reconciliation with that file publishes what an
uninterrupted run would have published, as long as the head of the branch is the commit.  Four calls of GitHub in a row
must not fail.
-/

namespace ArdOssie

namespace Processing

open Session (Runs runs_bind runs_pure runs_throw runs_modify runs_modify_bind runs_get_bind runs_ofResult
  runs_ofResult_bind runs_tryCatch runs_ask)

variable {mayFail : Call → World → WorkflowError → Prop} {s : RunState} {w : World}

/-- A call ends with an exception, or with its answer after it took effect. -/
theorem runs_call {c : Call} {Q : Except WorkflowError c.Value → RunState → World → Prop}
    (herror : ∀ e w', Exec mayFail c w (.error e) w' → Q (.error e) s w')
    (hok : ∀ fresh v, c.answer fresh w = some v → Q (.ok v) s { c.after fresh w with streak := 0 }) :
    Runs (Exec mayFail) (call c) s w Q := by
  refine runs_ask fun r w' hexec => ?_
  cases r with
  | error e => exact herror e w' hexec
  | ok v =>
    obtain ⟨fresh, hanswer, rfl⟩ := hexec.ok_cases
    exact hok fresh v hanswer

/-! ### The tracking pull request -/

/-- The tracking pull request is a draft to the default branch, and its head is that of the branch. -/
def Tracked (branch : Text) (prNumber : ℕ) (w : World) : Prop :=
  ∃ pull, w.pulls prNumber = some pull ∧ pull.headBranch = branch ∧ pull.draft = true ∧
    pull.baseBranch = w.defaultBranch ∧ w.branches branch = some pull.headSha

private theorem Tracked.after {branch : Text} {prNumber : ℕ} {w : World} (h : Tracked branch prNumber w) (c : Call)
    (fresh : Option GitCommitSha) (k : ℕ) : Tracked branch prNumber { c.after fresh w with streak := k } := by
  obtain ⟨pull, hpull, hbranch, hdraft, hbase, hhead⟩ := h
  cases c with
  | push pushed =>
    by_cases heq : branch = pushed
    · subst heq
      refine ⟨{ pull with headSha := w.checkout }, ?_, hbranch, hdraft, hbase, Function.update_self ..⟩
      show (w.pulls prNumber).map _ = _
      rw [hpull, Option.map_some, if_pos hbranch]
    · refine ⟨pull, ?_, hbranch, hdraft, hbase, (Function.update_of_ne heq ..).trans hhead⟩
      show (w.pulls prNumber).map _ = _
      rw [hpull, Option.map_some, if_neg (hbranch ▸ heq)]
  | _ => exact ⟨pull, hpull, hbranch, hdraft, hbase, hhead⟩

/-- What a run publishes for its outputs. -/
def Published (prNumber : ℕ) (o : Outputs) (w : World) : Prop :=
  w.statuses o.currentHead changesetContext = some (changesetState o.changesetId) ∧
    w.statuses o.currentHead qualityContext = some "success".toList ∧
    ∀ id, o.changesetId = some id → changesetDispatch prNumber w.defaultBranch o id ∈ w.dispatches

private theorem changesetContext_ne : changesetContext ≠ qualityContext := by decide

/-! ### What calls keep -/

/-- The checkout, the default branch and the tracking stay. -/
structure Keeps (w w' : World) : Prop where
  checkout : w'.checkout = w.checkout
  defaultBranch : w'.defaultBranch = w.defaultBranch
  tracked : ∀ branch prNumber, Tracked branch prNumber w → Tracked branch prNumber w'

private theorem Keeps.refl (w : World) : Keeps w w := ⟨rfl, rfl, fun _ _ h => h⟩

private theorem Keeps.trans {w w' w'' : World} (h : Keeps w w') (h' : Keeps w' w'') : Keeps w w'' :=
  ⟨h'.checkout.trans h.checkout, h'.defaultBranch.trans h.defaultBranch, fun branch prNumber ht =>
    h'.tracked branch prNumber (h.tracked branch prNumber ht)⟩

private theorem keeps_streak {w : World} (k : ℕ) : Keeps w { w with streak := k } := ⟨rfl, rfl, fun _ _ h => h⟩

/-- Every call but a commit keeps the checkout. -/
private theorem keeps_after {c : Call} (hc : ∀ key, c ≠ .commitAllowedPaths key) (fresh : Option GitCommitSha)
    (w : World) (k : ℕ) : Keeps w { c.after fresh w with streak := k } := by
  refine ⟨?_, ?_, fun branch prNumber h => h.after c fresh k⟩
  · cases c with
    | commitAllowedPaths key => exact absurd rfl (hc key)
    | _ => rfl
  · cases c <;> rfl

private theorem Exec.keeps {c : Call} (hc : ∀ key, c ≠ .commitAllowedPaths key) {r : Answer c} {w' : World}
    (h : Exec mayFail c w r w') : Keeps w w' := by
  cases r with
  | ok v =>
    obtain ⟨fresh, -, rfl⟩ := h.ok_cases
    exact keeps_after hc fresh w 0
  | error e =>
    rcases h.error_cases with ⟨-, rfl⟩ | ⟨-, rfl | ⟨fresh, rfl⟩⟩
    · exact Keeps.refl w'
    · exact keeps_streak _
    · exact keeps_after hc fresh w _

private theorem after_eq_of_isRead {c : Call} (h : c.isRead = true) (fresh : Option GitCommitSha) (w : World) :
    c.after fresh w = w := by
  cases c <;> first | rfl | cases h

theorem runs_read {c : Call} (hread : c.isRead = true) :
    Runs (Exec mayFail) (call c) s w fun r s' w' => s' = s ∧ (∃ k, w' = { w with streak := k }) ∧
      ∀ v, r = .ok v → ∃ fresh, c.answer fresh w = some v := by
  refine runs_call (fun e w' hexec => ⟨rfl, ?_, fun v h => (by cases h)⟩) fun fresh v hanswer => ⟨rfl, ⟨0, ?_⟩, ?_⟩
  · rcases hexec.error_cases with ⟨-, rfl⟩ | ⟨-, rfl | ⟨fresh, rfl⟩⟩
    · exact ⟨w'.streak, rfl⟩
    · exact ⟨_, rfl⟩
    · exact ⟨_, by rw [after_eq_of_isRead hread]⟩
  · rw [after_eq_of_isRead hread]
  · rintro _ ⟨⟩
    exact ⟨fresh, hanswer⟩

theorem runs_requireExpectedHead (run : ProcessingRun) (pull : TrackingPull) (base : Text) :
    Runs (Exec mayFail) (run.requireExpectedHead pull base) s w fun r s' w' =>
      s' = s ∧ (∃ k, w' = { w with streak := k }) ∧
      ∀ head, r = .ok head → head = run.expectedHead ∧ w.checkout = run.expectedHead ∧
        w.branches run.branch = some run.expectedHead ∧ pull.headSha = run.expectedHead ∧
          pull.headBranch = run.branch ∧ pull.draft = true ∧ pull.baseBranch = base := by
  unfold ProcessingRun.requireExpectedHead
  refine runs_bind (runs_read rfl) (fun e s' w' h => ⟨h.1, h.2.1, fun _ h => (by cases h)⟩) ?_
  rintro current s' w' ⟨rfl, ⟨k, rfl⟩, hcurrent⟩
  obtain ⟨fresh, hcurrent⟩ := hcurrent current rfl
  obtain rfl : w.checkout = current := Option.some_inj.1 hcurrent
  refine runs_bind (runs_read rfl) ?_ ?_
  · rintro e s'' w'' ⟨rfl, ⟨k', rfl⟩, -⟩
    exact ⟨rfl, ⟨k', rfl⟩, fun _ h => (by cases h)⟩
  rintro remote s'' w'' ⟨rfl, ⟨k', rfl⟩, hremote⟩
  obtain ⟨fresh', hremote⟩ := hremote remote rfl
  obtain rfl : w.branches run.branch = remote := Option.some_inj.1 hremote
  refine runs_ofResult_bind (fun e _ => ⟨rfl, ⟨k', rfl⟩, fun _ h => (by cases h)⟩) fun _ hheads => ?_
  refine runs_ofResult_bind (fun e _ => ⟨rfl, ⟨k', rfl⟩, fun _ h => (by cases h)⟩) fun _ hbase => ?_
  refine runs_pure ⟨rfl, ⟨k', rfl⟩, ?_⟩
  rintro _ ⟨⟩
  have hheads' := failIf_eq_ok.1 hheads
  simp only [not_or, not_not, Bool.not_eq_false] at hheads'
  obtain ⟨hcheckout, hbranch, hsha, hname, hdraft⟩ := hheads'
  exact ⟨hcheckout, hcheckout, hbranch, hsha, hname, hdraft, not_not.1 (failIf_eq_ok.1 hbase)⟩

/-- The pipeline changes the working tree only. -/
private theorem runs_pipeline (written : Worktree → Worktree) :
    Runs (Exec mayFail) (call (.processProduct written)) s w fun _ s' w' =>
      s' = s ∧ ∃ tree k, w' = { w with worktree := tree, streak := k } := by
  refine runs_call (fun e w' hexec => ⟨rfl, ?_⟩) fun fresh _ _ => ⟨rfl, written w.worktree, 0, rfl⟩
  rcases hexec.error_cases with ⟨-, rfl⟩ | ⟨-, rfl | ⟨fresh, rfl⟩⟩
  · exact ⟨w'.worktree, w'.streak, rfl⟩
  · exact ⟨w.worktree, _, rfl⟩
  · exact ⟨written w.worktree, _, rfl⟩

/-! ### Publication -/

/-- While a run publishes, the journal has its commit once there is one. -/
structure Publishing (run : ProcessingRun) (ref : Text) (s : RunState) (w : World) : Prop where
  tracked : Tracked run.branch run.prNumber w
  defaultBranch : w.defaultBranch = ref
  unfinished : s.partialOutputs = none
  journal : (∃ m ∈ s.mutations, m.resource = "commit") → w.checkout = s.currentHead ∧
    ∀ product changesetId, Journaled s.mutations (run.outputs product changesetId s.currentHead)

variable {run : ProcessingRun} {ref : Text}

private theorem Publishing.keeps {w' : World} (h : Publishing run ref s w) (hw : Keeps w w') :
    Publishing run ref s w' :=
  ⟨hw.tracked _ _ h.tracked, hw.defaultBranch.trans h.defaultBranch, h.unfinished, fun hm =>
    ⟨hw.checkout.trans (h.journal hm).1, (h.journal hm).2⟩⟩

/-- Another mutation in the journal. -/
private theorem Publishing.record {m : MutationRecord} (h : Publishing run ref s w) (hm : m.resource ≠ "commit") :
    Publishing run ref { s with mutations := s.mutations ++ [m] } w := by
  refine ⟨h.tracked, h.defaultBranch, h.unfinished, ?_⟩
  rintro ⟨m', hm', hcommit⟩
  have hold : m' ∈ s.mutations := by
    rcases List.mem_append.1 hm' with hold | hnew
    · exact hold
    · rw [List.mem_singleton.1 hnew] at hcommit
      exact absurd hcommit hm
  obtain ⟨hcheckout, hjournal⟩ := h.journal ⟨m', hold, hcommit⟩
  refine ⟨hcheckout, fun product changesetId => ?_⟩
  obtain ⟨⟨m₁, hm₁, htarget⟩, hhead⟩ := hjournal product changesetId
  refine ⟨⟨m₁, List.mem_append_left _ hm₁, htarget⟩, hhead.imp_right ?_⟩
  rintro ⟨m₂, hm₂, hcreate⟩
  exact ⟨m₂, List.mem_append_left _ hm₂, hcreate⟩

/-- The head that was checked, before there is a commit. -/
structure Checked (run : ProcessingRun) (ref : Text) (s : RunState) (w : World) : Prop where
  tracked : Tracked run.branch run.prNumber w
  defaultBranch : w.defaultBranch = ref
  unfinished : s.partialOutputs = none
  noMutations : s.mutations = []
  checkout : w.checkout = run.expectedHead

private theorem Checked.publishing {w' : World} (h : Checked run ref s w)
    (htracked : Tracked run.branch run.prNumber w') (hbase : w'.defaultBranch = w.defaultBranch) :
    Publishing run ref s w' := by
  refine ⟨htracked, hbase.trans h.defaultBranch, h.unfinished, ?_⟩
  rw [h.noMutations]
  rintro ⟨_, hm, -⟩
  exact absurd hm List.not_mem_nil

/-- The commit is journaled with its SHA, and as created if it is another than the head that was checked. -/
private theorem Checked.committed (h : Checked run ref s w) (key : Text) (fresh : Option GitCommitSha) :
    Publishing run ref
      { s with
        mutations := s.mutations ++
          [⟨"commit", (fresh.getD w.checkout).text, if fresh.isSome = true then "create" else "noop", none⟩]
        currentHead := fresh.getD w.checkout }
      { (Call.commitAllowedPaths key).after fresh w with streak := 0 } := by
  refine ⟨h.tracked.after _ fresh 0, h.defaultBranch, h.unfinished, fun _ => ⟨rfl, fun product changesetId => ?_⟩⟩
  rw [h.noMutations]
  refine ⟨⟨_, List.mem_singleton_self _, rfl, rfl⟩, ?_⟩
  cases fresh with
  | none => exact Or.inl h.checkout
  | some sha => exact Or.inr ⟨_, List.mem_singleton_self _, ⟨rfl, rfl⟩, rfl⟩

private theorem runs_commit (h : Checked run ref s w) (key : Text) :
    Runs (Exec mayFail) (call (.commitAllowedPaths key)) s w fun r s' w' => s' = s ∧
      (∀ e, r = .error e → Publishing run ref s w') ∧
      ∀ commit, r = .ok commit → ∃ fresh, commit = ⟨(fresh : Option GitCommitSha).getD w.checkout, fresh.isSome⟩ ∧
        w' = { (Call.commitAllowedPaths key).after fresh w with streak := 0 } := by
  refine runs_call (fun e w' hexec => ⟨rfl, fun _ _ => ?_, fun _ hr => (by cases hr)⟩)
    fun fresh v hanswer => ⟨rfl, fun _ hr => (by cases hr), ?_⟩
  · rcases hexec.error_cases with ⟨-, rfl⟩ | ⟨-, rfl | ⟨fresh, rfl⟩⟩
    · exact h.publishing h.tracked rfl
    · exact h.publishing h.tracked rfl
    · exact h.publishing (h.tracked.after _ fresh _) rfl
  · rintro _ ⟨⟩
    exact ⟨fresh, (Option.some_inj.1 hanswer).symm, rfl⟩

private theorem runs_keeping {c : Call} (hc : ∀ key, c ≠ .commitAllowedPaths key) (h : Publishing run ref s w) :
    Runs (Exec mayFail) (call c) s w fun _ s' w' => Publishing run ref s' w' :=
  runs_call (fun _ _ hexec => h.keeps (hexec.keeps hc)) fun fresh _ _ => h.keeps (keeps_after hc fresh w 0)

private theorem runs_pushIf (h : Publishing run ref s w) (created : Bool) :
    Runs (Exec mayFail) (run.pushIf created) s w fun _ s' w' => Publishing run ref s' w' := by
  unfold ProcessingRun.pushIf
  split
  · exact runs_keeping (fun _ hcall => (by cases hcall)) h
  · exact runs_pure h

private theorem runs_writeBack (h : Checked run ref s w) :
    Runs (Exec mayFail) run.writeBack s w fun _ s' w' => Publishing run ref s' w' := by
  unfold ProcessingRun.writeBack
  refine runs_bind (runs_commit h run.productKey) ?_ ?_
  · rintro e s' w' ⟨rfl, herror, -⟩
    exact herror e rfl
  rintro commit s' w' ⟨rfl, -, hcommit⟩
  obtain ⟨fresh, rfl, rfl⟩ := hcommit commit rfl
  refine runs_modify_bind ?_
  refine runs_bind (runs_pushIf (h.committed run.productKey fresh) fresh.isSome) (fun _ _ _ hp => hp) ?_
  intro _ s' w' hp
  refine runs_bind (runs_keeping (fun _ hcall => (by cases hcall)) hp) (fun _ _ _ hp => hp) ?_
  intro remote s'' w'' hp'
  exact runs_ofResult hp'

private theorem runs_writeBackIf (h : Checked run ref s w) :
    Runs (Exec mayFail) run.writeBackIf s w fun _ s' w' => Publishing run ref s' w' := by
  unfold ProcessingRun.writeBackIf
  split
  · exact runs_writeBack h
  · exact runs_pure (h.publishing h.tracked rfl)

private theorem runs_setStatus (h : Publishing run ref s w) (sha : GitCommitSha)
    (context state description targetUrl : Text) :
    Runs (Exec mayFail) (setStatus sha context state description targetUrl) s w fun r s' w' => s' = s ∧
      Publishing run ref s w' ∧ ∀ mutation, r = .ok mutation → mutation.resource ≠ "commit" ∧
        w' = { (Call.setStatus sha context state description targetUrl).after none w with streak := 0 } := by
  have hc : ∀ key, Call.setStatus sha context state description targetUrl ≠ .commitAllowedPaths key :=
    fun _ hcall => (by cases hcall)
  refine runs_bind (P := fun r s' w' => s' = s ∧ Publishing run ref s w' ∧ ∀ u, r = .ok u →
    w' = { (Call.setStatus sha context state description targetUrl).after none w with streak := 0 }) ?_ ?_ ?_
  · exact runs_call (fun e w' hexec => ⟨rfl, h.keeps (hexec.keeps hc), fun _ hr => (by cases hr)⟩)
      fun fresh v _ => ⟨rfl, h.keeps (keeps_after hc fresh w 0), fun _ _ => rfl⟩
  · rintro e s' w' ⟨rfl, hp, -⟩
    exact ⟨rfl, hp, fun _ hr => (by cases hr)⟩
  · rintro u s' w' ⟨rfl, hp, hw⟩
    refine runs_pure ⟨rfl, hp, ?_⟩
    rintro _ ⟨⟩
    exact ⟨of_decide_eq_true rfl, hw u rfl⟩

private theorem runs_dispatchWorkflow (h : Publishing run ref s w) (dispatch : WorkflowDispatch) :
    Runs (Exec mayFail) (dispatchWorkflow dispatch) s w fun r s' w' => s' = s ∧
      Publishing run ref s w' ∧ ∀ mutation, r = .ok mutation → mutation.resource ≠ "commit" ∧
        w' = { (Call.dispatchWorkflow dispatch).after none w with streak := 0 } := by
  have hc : ∀ key, Call.dispatchWorkflow dispatch ≠ .commitAllowedPaths key := fun _ hcall => (by cases hcall)
  refine runs_bind (P := fun r s' w' => s' = s ∧ Publishing run ref s w' ∧ ∀ u, r = .ok u →
    w' = { (Call.dispatchWorkflow dispatch).after none w with streak := 0 }) ?_ ?_ ?_
  · exact runs_call (fun e w' hexec => ⟨rfl, h.keeps (hexec.keeps hc), fun _ hr => (by cases hr)⟩)
      fun fresh v _ => ⟨rfl, h.keeps (keeps_after hc fresh w 0), fun _ _ => rfl⟩
  · rintro e s' w' ⟨rfl, hp, -⟩
    exact ⟨rfl, hp, fun _ hr => (by cases hr)⟩
  · rintro u s' w' ⟨rfl, hp, hw⟩
    refine runs_pure ⟨rfl, hp, ?_⟩
    rintro _ ⟨⟩
    exact ⟨of_decide_eq_true rfl, hw u rfl⟩

/-- Both statuses of a head are set. -/
private def StatusesSet (head : GitCommitSha) (changesetId : Option Text) (w : World) : Prop :=
  w.statuses head changesetContext = some (changesetState changesetId) ∧
    w.statuses head qualityContext = some "success".toList

private theorem statusesSet_after {head : GitCommitSha} {changesetId : Option Text} (w : World) (k k' : ℕ)
    (description description' targetUrl : Text) :
    StatusesSet head changesetId
      { (Call.setStatus head qualityContext "success".toList description' targetUrl).after none
          { (Call.setStatus head changesetContext (changesetState changesetId) description targetUrl).after none w with
            streak := k } with streak := k' } := by
  simp [StatusesSet, Call.after, Function.update_of_ne changesetContext_ne]

private theorem runs_dispatchChangeset {o : Outputs} (h : Publishing run ref s w)
    (hstatuses : StatusesSet o.currentHead o.changesetId w) :
    Runs (Exec mayFail) (run.dispatchChangeset ref o) s w fun r s' w' => Publishing run ref s' w' ∧
      (∀ u, r = .ok u → s'.currentHead = s.currentHead ∧ Published run.prNumber o w') := by
  unfold ProcessingRun.dispatchChangeset
  split
  · rename_i hnone
    exact runs_pure ⟨h, fun _ _ => ⟨rfl, hstatuses.1, hstatuses.2, fun id hid => by simp [hnone] at hid⟩⟩
  · rename_i id hid
    refine runs_bind (runs_dispatchWorkflow h _) ?_ ?_
    · rintro e s' w' ⟨rfl, hp, -⟩
      exact ⟨hp, fun _ hr => (by cases hr)⟩
    rintro mutation s' w' ⟨rfl, hp, hmutation⟩
    obtain ⟨hresource, rfl⟩ := hmutation mutation rfl
    refine runs_modify ?_
    refine ⟨hp.record hresource, fun _ _ => ⟨rfl, hstatuses.1, hstatuses.2, fun id' hid' => ?_⟩⟩
    obtain rfl : id = id' := Option.some_inj.1 (hid.symm.trans hid')
    refine List.mem_append_right _ (List.mem_singleton.2 ?_)
    show changesetDispatch run.prNumber w.defaultBranch o id = _
    rw [h.defaultBranch]

private theorem runs_publish (h : Checked run ref s w) (product : Text × Version) (changesetId : Option Text) :
    Runs (Exec mayFail) (run.publish ref product changesetId) s w fun r s' w' => Publishing run ref s' w' ∧
      ∀ u, r = .ok u → Published run.prNumber (run.outputs product changesetId s'.currentHead) w' := by
  unfold ProcessingRun.publish
  refine runs_bind (runs_writeBackIf h) (fun _ _ _ hp => ⟨hp, fun _ hr => (by cases hr)⟩) ?_
  intro _ s₁ w₁ hp₁
  refine runs_get_bind ?_
  refine runs_bind (runs_setStatus hp₁ _ _ _ _ _) ?_ ?_
  · rintro e s' w' ⟨rfl, hp, -⟩
    exact ⟨hp, fun _ hr => (by cases hr)⟩
  rintro mutation s' w₂ ⟨rfl, hp₂, hmutation⟩
  obtain ⟨hresource, rfl⟩ := hmutation mutation rfl
  refine runs_modify_bind ?_
  refine runs_bind (runs_setStatus (hp₂.record hresource) _ _ _ _ _) ?_ ?_
  · rintro e s'' w' ⟨rfl, hp, -⟩
    exact ⟨hp, fun _ hr => (by cases hr)⟩
  rintro mutation' s'' w₃ ⟨rfl, hp₃, hmutation'⟩
  obtain ⟨hresource', rfl⟩ := hmutation' mutation' rfl
  refine runs_modify_bind ?_
  refine Runs.mono (runs_dispatchChangeset (hp₃.record hresource') (statusesSet_after w₁ 0 0 ..)) ?_
  rintro r s₄ w₄ ⟨hp₄, hok⟩
  refine ⟨hp₄, fun u hr => ?_⟩
  obtain ⟨hhead, hpublished⟩ := hok u hr
  rw [hhead]
  exact hpublished

/-! ### Failures -/

/-- Adapters and the pipeline raise no partial failures. -/
def AdapterFailure (_ : Call) (_ : World) (e : WorkflowError) : Prop := e.exitCode ≠ .partialFailure

section Failures

variable {α β : Type}

/-- What is raised is no partial failure. -/
private def NotPartial (r : Except WorkflowError α) : Prop := ∀ e, r = .error e → e.exitCode ≠ .partialFailure

/-- Wherever it starts, the session raises no partial failure. -/
private def RaisesNotPartial (m : ProcessingSession α) : Prop :=
  ∀ s w, Runs (Exec AdapterFailure) m s w fun r _ _ => NotPartial r

private theorem raises_call {c : Call} (hc : ∀ w, ∃ v, c.answer none w = some v) : RaisesNotPartial (call c) := by
  refine fun s w => runs_call (fun e w' hexec => ?_) fun _ _ _ _ hr => (by cases hr)
  rintro _ ⟨⟩
  rcases hexec.error_cases with ⟨hrefused, -⟩ | ⟨hfailure, -⟩
  · obtain ⟨v, hv⟩ := hc w
    rw [hrefused none] at hv
    cases hv
  · exact hfailure

private theorem raises_bind {m : ProcessingSession β} {f : β → ProcessingSession α} (hm : RaisesNotPartial m)
    (hf : ∀ b, RaisesNotPartial (f b)) : RaisesNotPartial (m >>= f) := by
  refine fun s w => runs_bind (hm s w) ?_ fun b s' w' _ => hf b s' w'
  rintro e _ _ h _ ⟨⟩
  exact h e rfl

private theorem raises_pure (a : α) : RaisesNotPartial (pure a) := fun _ _ => runs_pure fun _ hr => (by cases hr)

private theorem raises_modify (change : RunState → RunState) :
    RaisesNotPartial (modify change : ProcessingSession PUnit) := fun _ _ => runs_modify fun _ hr => (by cases hr)

private theorem raises_setStatus (sha : GitCommitSha) (context state description targetUrl : Text) :
    RaisesNotPartial (setStatus sha context state description targetUrl) :=
  raises_bind (raises_call fun _ => ⟨_, rfl⟩) fun _ => raises_pure _

private theorem raises_writeBack (run : ProcessingRun) : RaisesNotPartial run.writeBack := by
  refine raises_bind (raises_call fun _ => ⟨_, rfl⟩) fun commit => raises_bind (raises_modify _) fun _ => ?_
  refine raises_bind ?_ fun _ => raises_bind (raises_call fun _ => ⟨_, rfl⟩) fun remote => fun s w => ?_
  · unfold ProcessingRun.pushIf
    split
    · exact raises_call fun _ => ⟨_, rfl⟩
    · exact raises_pure _
  · refine runs_ofResult fun e he => ?_
    obtain ⟨-, rfl⟩ := of_failIf_eq_error he
    exact of_decide_eq_true rfl

private theorem raises_dispatchChangeset (run : ProcessingRun) (ref : Text) (o : Outputs) :
    RaisesNotPartial (run.dispatchChangeset ref o) := by
  unfold ProcessingRun.dispatchChangeset
  split
  · exact raises_pure _
  · exact raises_bind (raises_bind (raises_call fun _ => ⟨_, rfl⟩) fun _ => raises_pure _) fun _ => raises_modify _

/-- So publication never ends with one. -/
private theorem raises_publish (run : ProcessingRun) (ref : Text) (product : Text × Version)
    (changesetId : Option Text) : RaisesNotPartial (run.publish ref product changesetId) := by
  have hwriteBack : RaisesNotPartial run.writeBackIf := by
    unfold ProcessingRun.writeBackIf
    split
    · exact raises_writeBack run
    · exact raises_pure _
  refine raises_bind hwriteBack fun _ => fun s w => runs_get_bind ?_
  refine raises_bind (raises_setStatus _ _ _ _ _) (fun _ => raises_bind (raises_modify _) fun _ => ?_) s w
  refine raises_bind (raises_setStatus _ _ _ _ _) fun _ => raises_bind (raises_modify _) fun _ => ?_
  exact raises_dispatchChangeset run ref _

end Failures

/-! ### The end of a run -/

/-- A run that carries its outputs in its exception was interrupted after its commit. -/
structure Interrupted (run : ProcessingRun) (r : Except WorkflowError Outputs) (s : RunState) (w : World)
    (o : Outputs) : Prop where
  tracked : Tracked run.branch run.prNumber w
  result : ∃ e, r = .error e ∧ e.exitCode = .partialFailure ∧ e.code = ProcessingRun.postCommitCode
  checkout : w.checkout = o.currentHead
  journaled : Journaled s.mutations o
  version : 1 ≤ o.version

/-- What a run ends with: its exception carries the outputs once the journal has a commit. -/
structure Ended (run : ProcessingRun) (r : Except WorkflowError Outputs) (s : RunState) (w : World) : Prop where
  published : ∀ o, r = .ok o → Published run.prNumber o w
  interrupted : ∀ e, r = .error e → (∃ m ∈ s.mutations, m.resource = "commit") →
    ∃ o, s.partialOutputs = some o ∧ Interrupted run r s w o

private theorem ended_of_uncommitted {e : WorkflowError} (h : ¬ ∃ m ∈ s.mutations, m.resource = "commit") :
    Ended run (.error e) s w := ⟨fun _ hr => (by cases hr), fun _ _ hcommit => absurd hcommit h⟩

/-- Nothing is in the journal before publication. -/
private theorem ended_of_started {e : WorkflowError} (head : GitCommitSha) (o : Option Outputs) :
    Ended run (.error e) ⟨[], head, o⟩ w := ended_of_uncommitted fun ⟨_, hm, _⟩ => absurd hm List.not_mem_nil

private theorem runs_asPartial (h : Publishing run ref s w) (product : Text × Version) (changesetId : Option Text)
    {error : WorkflowError} (herror : error.exitCode ≠ .partialFailure) :
    Runs (Exec AdapterFailure) (run.asPartial product changesetId error) s w fun r s' w' =>
      (∃ e, r = .error e ∧ Ended run (.error e) s' w') := by
  unfold ProcessingRun.asPartial
  refine runs_get_bind ?_
  split
  · rename_i huncommitted
    exact runs_throw ⟨error, rfl, ended_of_uncommitted (huncommitted.resolve_left herror)⟩
  · rename_i hpartial
    rw [not_or, not_not] at hpartial
    obtain ⟨hcheckout, hjournal⟩ := h.journal hpartial.2
    refine runs_modify_bind (runs_throw ⟨_, rfl, fun _ hr => (by cases hr), fun _ _ _ => ⟨_, rfl, ?_⟩⟩)
    exact ⟨h.tracked, ⟨_, rfl, rfl, rfl⟩, hcheckout, hjournal product changesetId, product.2.2.1⟩

/-- From a checked head, a run publishes its outputs, or it is interrupted. -/
private theorem runs_published (h : Checked run ref s w) (product : Text × Version) (changesetId : Option Text) :
    Runs (Exec AdapterFailure) (do
      tryCatch (run.publish ref product changesetId) (run.asPartial product changesetId)
      let s ← get
      pure (run.outputs product changesetId s.currentHead)) s w (Ended run) := by
  refine runs_bind (P := fun r s' w' => (∀ e, r = .error e → Ended run (.error e) s' w') ∧ ∀ u, r = .ok u →
    Published run.prNumber (run.outputs product changesetId s'.currentHead) w') ?_ ?_ ?_
  · have hpublish := (runs_publish h product changesetId).and (raises_publish run ref product changesetId s w)
    refine runs_tryCatch hpublish ?_ ?_
    · rintro u s' w' ⟨⟨-, hok⟩, -⟩
      exact ⟨fun _ hr => (by cases hr), fun u' _ => hok u rfl⟩
    · rintro e s' w' ⟨⟨hp, -⟩, herror⟩
      refine Runs.mono (runs_asPartial hp product changesetId (herror e rfl)) ?_
      rintro _ s'' w'' ⟨e', rfl, hended⟩
      refine ⟨?_, fun _ hr => (by cases hr)⟩
      rintro _ ⟨⟩
      exact hended
  · rintro e s' w' ⟨herror, -⟩
    exact herror e rfl
  · rintro u s' w' ⟨-, hok⟩
    refine runs_get_bind (runs_pure ⟨?_, fun _ hr => (by cases hr)⟩)
    rintro _ ⟨⟩
    exact hok u rfl

private theorem runs_process (run : ProcessingRun) (w : World) :
    Runs (Exec AdapterFailure) run.process ⟨[], run.expectedHead, none⟩ w (Ended run) := by
  unfold ProcessingRun.process
  refine runs_ofResult_bind (fun _ _ => ended_of_started ..) fun _ _ => ?_
  -- no call before the commit changes more than the working tree and the count of the failures
  refine runs_bind (runs_read rfl) ?_ ?_
  · rintro e s' w' ⟨rfl, -, -⟩
    exact ended_of_started ..
  rintro ref s' w' ⟨rfl, ⟨k, rfl⟩, href⟩
  obtain ⟨fresh, href⟩ := href ref rfl
  obtain rfl : w.defaultBranch = ref := Option.some_inj.1 href
  refine runs_bind (runs_read rfl) ?_ ?_
  · rintro e s' w' ⟨rfl, -, -⟩
    exact ended_of_started ..
  rintro pull s' w' ⟨rfl, ⟨k₁, rfl⟩, -⟩
  refine runs_bind (runs_requireExpectedHead run pull _) ?_ ?_
  · rintro e s' w' ⟨rfl, -, -⟩
    exact ended_of_started ..
  rintro head s' w' ⟨rfl, ⟨k₂, rfl⟩, -⟩
  refine runs_ofResult_bind (fun _ _ => ended_of_started ..) fun requested _ => ?_
  refine runs_ofResult_bind (fun _ _ => ended_of_started ..) fun _ _ => ?_
  refine runs_bind (runs_pipeline run.written) ?_ ?_
  · rintro e s' w' ⟨rfl, -⟩
    exact ended_of_started ..
  rintro _ s' w' ⟨rfl, tree, k', rfl⟩
  refine runs_ofResult_bind (fun _ _ => ended_of_started ..) fun product _ => ?_
  refine runs_ofResult_bind (fun _ _ => ended_of_started ..) fun changesetId _ => ?_
  refine runs_ofResult_bind (fun _ _ => ended_of_started ..) fun _ _ => ?_
  refine runs_bind (runs_read rfl) ?_ ?_
  · rintro e s' w' ⟨rfl, -, -⟩
    exact ended_of_started ..
  rintro again s' w' ⟨rfl, ⟨k₃, rfl⟩, hagain⟩
  obtain ⟨fresh', hagain⟩ := hagain again rfl
  refine runs_bind (runs_requireExpectedHead run again _) ?_ ?_
  · rintro e s' w' ⟨rfl, -, -⟩
    exact ended_of_started ..
  rintro current s' w' ⟨rfl, ⟨k₄, rfl⟩, hcurrent⟩
  obtain ⟨-, hcheckout, hbranch, hsha, hname, hdraft, hbase⟩ := hcurrent current rfl
  refine runs_ofResult_bind (fun _ _ => ended_of_started ..) fun _ _ => ?_
  -- the second check of the heads is the one that publication relies on
  have htracked : Tracked run.branch run.prNumber w :=
    ⟨again, hagain, hname, hdraft, hbase, hbranch.trans (congrArg some hsha.symm)⟩
  have hchecked : Checked run w.defaultBranch ⟨[], run.expectedHead, none⟩ { w with worktree := tree, streak := k₄ } :=
    ⟨htracked, rfl, rfl, rfl, hcheckout⟩
  exact runs_published hchecked product changesetId

/-! ### Retries -/

/-- The calls of GitHub may fail for a while, but not four times in a row. -/
def RetriedFailure (c : Call) (w : World) (e : WorkflowError) : Prop :=
  c.isGitHub = true ∧ w.streak < 3 ∧ e.exitCode = .transient

/-- One try of a call: it is answered after it took effect, or it fails and may be tried again. -/
private def Tries {α : Type} (c : Call) (f : c.Value → α) (s : RunState) (w : World) (r : Except WorkflowError α)
    (s' : RunState) (w' : World) : Prop :=
  s' = s ∧
    ((∃ fresh v, c.answer fresh w = some v ∧ r = .ok (f v) ∧ w' = { c.after fresh w with streak := 0 }) ∨
      ∃ e, r = .error e ∧ e.exitCode = .transient ∧ w.streak < 3 ∧
        (w' = { w with streak := w.streak + 1 } ∨ ∃ fresh, w' = { c.after fresh w with streak := w.streak + 1 }))

/-- A call is answered wherever `P` holds, and its tries keep `P`. -/
private structure Stable (c : Call) (P : World → Prop) : Prop where
  answered : ∀ w, P w → ∃ fresh v, c.answer fresh w = some v
  streak : ∀ w k, P w → P { w with streak := k }
  after : ∀ w fresh k, P w → P { c.after fresh w with streak := k }

private theorem stable_read {c : Call} {P : World → Prop} (hread : c.isRead = true)
    (hanswered : ∀ w, P w → ∃ fresh v, c.answer fresh w = some v)
    (hstreak : ∀ w k, P w → P { w with streak := k }) : Stable c P := by
  refine ⟨hanswered, hstreak, fun w fresh k hw => ?_⟩
  rw [after_eq_of_isRead hread]
  exact hstreak w k hw

section Retries

variable {α : Type} {c : Call} {f : c.Value → α} {P : World → Prop}

private theorem runs_tries (hP : Stable c P) (hw : P w) : Runs (Exec RetriedFailure) (call c) s w (Tries c id s w) := by
  obtain ⟨fresh₀, v₀, hanswer₀⟩ := hP.answered w hw
  refine runs_call (fun e w' hexec => ⟨rfl, Or.inr ⟨e, rfl, ?_⟩⟩) fun fresh v hanswer =>
    ⟨rfl, Or.inl ⟨fresh, v, hanswer, rfl, rfl⟩⟩
  rcases hexec.error_cases with ⟨hrefused, -⟩ | ⟨⟨-, hlt, htransient⟩, hw'⟩
  · rw [hrefused fresh₀] at hanswer₀
    cases hanswer₀
  · exact ⟨htransient, hlt, hw'⟩

private theorem runs_tries_map (hP : Stable c P) (hw : P w) (f : c.Value → α) :
    Runs (Exec RetriedFailure) (call c >>= fun v => pure (f v)) s w (Tries c f s w) := by
  refine runs_bind (runs_tries hP hw) ?_ ?_
  · rintro e s' w' ⟨rfl, ⟨fresh, v, -, hr, -⟩ | ⟨e', hr, herror⟩⟩
    · cases hr
    · obtain rfl : e = e' := Except.error.inj hr
      exact ⟨rfl, Or.inr ⟨e, rfl, herror⟩⟩
  · rintro v s' w' ⟨rfl, ⟨fresh, v', hanswer, hr, rfl⟩ | ⟨e', hr, -⟩⟩
    · obtain rfl : v = v' := Except.ok.inj hr
      exact runs_pure ⟨rfl, Or.inl ⟨fresh, v, hanswer, rfl, rfl⟩⟩
    · cases hr

/-- The last attempt comes after three failures in a row, so it is answered. -/
private theorem runs_retry {m : ProcessingSession α} (hP : Stable c P)
    (hm : ∀ w, P w → Runs (Exec RetriedFailure) m s w (Tries c f s w)) (attempts : ℕ) (w : World) (hw : P w)
    (hstreak : w.streak ≤ 3) (hattempts : 4 ≤ w.streak + attempts) :
    Runs (Exec RetriedFailure) (retry m attempts) s w fun r s' w' => s' = s ∧ ∃ w₀ fresh v, P w₀ ∧
      c.answer fresh w₀ = some v ∧ r = .ok (f v) ∧ w' = { c.after fresh w₀ with streak := 0 } := by
  -- the failures so far and the attempts that are left are four together
  induction attempts generalizing w with
  | zero => omega
  | succ attempts ih =>
    refine runs_tryCatch (hm w hw) ?_ ?_
    · rintro a s' w' ⟨rfl, ⟨fresh, v, hanswer, hr, rfl⟩ | ⟨e, hr, -⟩⟩
      · exact ⟨rfl, w, fresh, v, hw, hanswer, hr, rfl⟩
      · cases hr
    · rintro e s' w' ⟨rfl, ⟨fresh, v, -, hr, -⟩ | ⟨e', hr, htransient, hlt, hw'⟩⟩
      · cases hr
      obtain rfl : e = e' := Except.error.inj hr
      have hne : attempts ≠ 0 := by omega
      have hnext : 4 ≤ w.streak + 1 + attempts := by omega
      rw [if_pos ⟨htransient, hne⟩]
      rcases hw' with rfl | ⟨fresh, rfl⟩
      · exact ih _ (hP.streak w _ hw) hlt hnext
      · exact ih _ (hP.after w fresh _ hw) hlt hnext

/-- Before its first try no call has failed. -/
private theorem runs_retried {m : ProcessingSession α} (hP : Stable c P)
    (hm : ∀ w, P w → Runs (Exec RetriedFailure) m s w (Tries c f s w)) (hw : P w) (hstreak : w.streak = 0) :
    Runs (Exec RetriedFailure) (retry m retryAttempts) s w fun r s' w' => s' = s ∧ ∃ w₀ fresh v, P w₀ ∧
      c.answer fresh w₀ = some v ∧ r = .ok (f v) ∧ w' = { c.after fresh w₀ with streak := 0 } := by
  refine runs_retry hP hm retryAttempts w hw (by omega) ?_
  rw [hstreak]
  exact Nat.le_refl 4

end Retries

private theorem runs_ensureStatus {P : World → Prop} {sha : GitCommitSha} {context state description targetUrl : Text}
    (hget : Stable (.getStatus sha context) P) (hset : Stable (.setStatus sha context state description targetUrl) P)
    (hw : P w) (hstreak : w.streak = 0) :
    Runs (Exec RetriedFailure) (ensureStatus sha context state description targetUrl) s w fun r _ w' =>
      r = .ok ⟨⟩ ∧ P w' ∧ w'.streak = 0 ∧ w'.statuses sha context = some state := by
  unfold ensureStatus
  refine runs_bind (runs_retried hget (fun _ hw => runs_tries hget hw) hw hstreak) ?_ ?_
  · rintro e s' w' ⟨-, _, _, _, -, -, hr, -⟩
    cases hr
  rintro existing s' w' ⟨rfl, w₀, fresh, v, hw₀, hanswer, hr, rfl⟩
  obtain rfl : existing = v := Except.ok.inj hr
  obtain rfl : w₀.statuses sha context = existing := Option.some_inj.1 hanswer
  split
  · rename_i hexisting
    exact runs_pure ⟨rfl, hget.after w₀ fresh 0 hw₀, rfl, hexisting⟩
  refine runs_bind (runs_retried hset (fun _ hw => runs_tries_map hset hw _) (hget.after w₀ fresh 0 hw₀) rfl) ?_ ?_
  · rintro e s'' w' ⟨-, _, _, _, -, -, hr, -⟩
    cases hr
  rintro mutation s'' w' ⟨rfl, w₁, fresh', v, hw₁, -, -, rfl⟩
  refine runs_modify ?_
  exact ⟨rfl, hset.after w₁ fresh' 0 hw₁, rfl, by simp [Call.after]⟩

/-! ### Reconciliation -/

/-- The checkout and the tracked branch are at the head. -/
private structure Ready (branch : Text) (prNumber : ℕ) (head : GitCommitSha) (ref : Text) (w : World) : Prop where
  tracked : Tracked branch prNumber w
  checkout : w.checkout = head
  remote : w.branches branch = some head
  defaultBranch : w.defaultBranch = ref

section Ready

variable {branch : Text} {prNumber : ℕ} {head : GitCommitSha} {changesetId : Option Text}

private theorem Ready.streak (k : ℕ) (h : Ready branch prNumber head ref w) :
    Ready branch prNumber head ref { w with streak := k } := ⟨h.tracked, h.checkout, h.remote, h.defaultBranch⟩

private theorem Ready.setStatus {sha : GitCommitSha} {context state description targetUrl : Text}
    (fresh : Option GitCommitSha) (k : ℕ) (h : Ready branch prNumber head ref w) : Ready branch prNumber head ref
      { (Call.setStatus sha context state description targetUrl).after fresh w with streak := k } :=
  ⟨h.tracked, h.checkout, h.remote, h.defaultBranch⟩

private theorem stable_getPr : Stable (.getPr prNumber) (Ready branch prNumber head ref) := by
  refine stable_read rfl (fun w hw => ?_) fun w k hw => hw.streak k
  obtain ⟨pull, hpull, -⟩ := hw.tracked
  exact ⟨none, pull, hpull⟩

private theorem stable_changeset (state description targetUrl : Text) :
    Stable (.setStatus head changesetContext state description targetUrl) (Ready branch prNumber head ref) :=
  ⟨fun _ _ => ⟨none, (), rfl⟩, fun _ k hw => hw.streak k, fun _ fresh k hw => hw.setStatus fresh k⟩

/-- The status of the changeset is set. -/
private def ChangesetSet (branch : Text) (prNumber : ℕ) (head : GitCommitSha) (ref : Text) (changesetId : Option Text)
    (w : World) : Prop :=
  Ready branch prNumber head ref w ∧ w.statuses head changesetContext = some (changesetState changesetId)

private theorem stable_quality (state description targetUrl : Text) :
    Stable (.setStatus head qualityContext state description targetUrl)
      (ChangesetSet branch prNumber head ref changesetId) := by
  refine ⟨fun _ _ => ⟨none, (), rfl⟩, fun _ k hw => ⟨hw.1.streak k, hw.2⟩, fun w fresh k hw => ?_⟩
  refine ⟨hw.1.setStatus fresh k, ?_⟩
  simp only [Call.after, Function.update_self, Function.update_of_ne changesetContext_ne]
  exact hw.2

private theorem stable_dispatch (dispatch : WorkflowDispatch) :
    Stable (.dispatchWorkflow dispatch) fun w =>
      Ready branch prNumber head ref w ∧ StatusesSet head changesetId w :=
  ⟨fun _ _ => ⟨none, (), rfl⟩, fun _ k hw => ⟨hw.1.streak k, hw.2⟩, fun _ _ _ hw =>
    ⟨⟨hw.1.tracked, hw.1.checkout, hw.1.remote, hw.1.defaultBranch⟩, hw.2⟩⟩

end Ready

/-- Commands of git do not fail. -/
private theorem runs_gitRead {c : Call} (hread : c.isRead = true) (hgit : c.isGitHub = false) {v : c.Value}
    (hanswer : ∀ fresh, c.answer fresh w = some v) : Runs (Exec RetriedFailure) (call c) s w fun r s' w' =>
      s' = s ∧ r = .ok v ∧ w' = { w with streak := 0 } := by
  refine runs_call (fun e w' hexec => ?_) fun fresh v' hanswer' => ?_
  · rcases hexec.error_cases with ⟨hrefused, -⟩ | ⟨⟨hgithub, -⟩, -⟩
    · have hnone := hrefused none
      rw [hanswer none] at hnone
      cases hnone
    · rw [hgit] at hgithub
      cases hgithub
  · rw [after_eq_of_isRead hread]
    exact ⟨rfl, congrArg Except.ok (Option.some_inj.1 (hanswer'.symm.trans (hanswer fresh))), rfl⟩

/-- A check that holds. -/
private theorem runs_check_bind {α : Type} {Q : Except WorkflowError α → RunState → World → Prop} {p : Prop}
    [Decidable p] {error : WorkflowError} {f : Unit → ProcessingSession α} (hp : ¬ p)
    (h : Runs (Exec mayFail) (f ()) s w Q) : Runs (Exec mayFail) (Session.ofResult (failIf p error) >>= f) s w Q := by
  have hok : failIf p error = .ok () := failIf_eq_ok.2 hp
  rw [hok]
  exact runs_ofResult_bind (fun _ he => (by cases he)) fun _ _ => h

private theorem runs_reconciledDispatch {request : Reconciliation} {branch : Text} {prNumber : ℕ} {o : Outputs}
    (hw : Ready branch prNumber o.currentHead ref w ∧ StatusesSet o.currentHead o.changesetId w)
    (hstreak : w.streak = 0) :
    Runs (Exec RetriedFailure) (request.dispatchChangeset ref o) s w fun r _ w' =>
      r = .ok ⟨⟩ ∧ Published request.prNumber o w' := by
  unfold Reconciliation.dispatchChangeset
  split
  · rename_i hnone
    exact runs_pure ⟨rfl, hw.2.1, hw.2.2, fun id hid => by simp [hnone] at hid⟩
  · rename_i id hid
    refine runs_bind (runs_retried (stable_dispatch _) (fun _ hw => runs_tries_map (stable_dispatch _) hw _) hw hstreak)
      ?_ ?_
    · rintro e s' w' ⟨-, _, _, _, -, -, hr, -⟩
      cases hr
    rintro mutation s' w' ⟨rfl, w₀, fresh, v, hw₀, -, -, rfl⟩
    refine runs_modify ?_
    refine ⟨rfl, hw₀.2.1, hw₀.2.2, fun id' hid' => ?_⟩
    obtain rfl : id = id' := Option.some_inj.1 (hid.symm.trans hid')
    refine List.mem_append_right _ (List.mem_singleton.2 ?_)
    show changesetDispatch request.prNumber w₀.defaultBranch o id = _
    rw [hw₀.1.defaultBranch]

/-- With the result file of an interrupted run and the head of the run, a reconciliation publishes the outputs. -/
private theorem runs_reconcile {request : Reconciliation} {e : WorkflowError} {s₀ : RunState} {o : Outputs}
    (hrepository : request.repository = request.root)
    (hprior : request.prior = .ok (envelope request.invocationId e s₀)) (ho : s₀.partialOutputs = some o)
    (he : e.exitCode = .partialFailure ∧ e.code = ProcessingRun.postCommitCode) (hjournal : Journaled s₀.mutations o)
    (hversion : 1 ≤ o.version) (hw : Ready request.branch request.prNumber o.currentHead ref w)
    (hstreak : w.streak = 0) :
    Runs (Exec RetriedFailure) request.reconcile s w fun r _ w' => r = .ok o ∧ Published request.prNumber o w' := by
  have hcodes : (envelope request.invocationId e s₀).codes = [ProcessingRun.postCommitCode] :=
    congrArg (fun c => [c]) he.2
  have hexit : (envelope request.invocationId e s₀).failureExitCode = some (exitValue .partialFailure) :=
    congrArg (fun c => some (exitValue c)) he.1
  have hmutations : (envelope request.invocationId e s₀).mutations = s₀.mutations := by simp [envelope, ho]
  unfold Reconciliation.reconcile
  refine runs_check_bind (not_not.2 hrepository) ?_
  rw [hprior]
  refine runs_ofResult_bind (fun _ hr => (by cases hr)) ?_
  rintro _ ⟨⟩
  refine runs_check_bind (fun hne => hne rfl) ?_
  refine runs_check_bind (by rw [hcodes]; exact fun hmem => hmem (List.mem_singleton_self _)) ?_
  refine runs_check_bind (by rw [hcodes, hexit]; exact fun hne => hne.elim (· rfl) (· rfl)) ?_
  have hrequire : require (envelope request.invocationId e s₀).outputs Reconciliation.invalid = .ok o :=
    require_eq_ok.2 ho
  rw [hrequire]
  refine runs_ofResult_bind (fun _ hr => (by cases hr)) ?_
  rintro _ ⟨⟩
  refine runs_check_bind (by omega) ?_
  refine runs_bind (runs_retried stable_getPr (fun _ hw => runs_tries stable_getPr hw) hw hstreak) ?_ ?_
  · rintro e' s' w' ⟨-, _, _, _, -, -, hr, -⟩
    cases hr
  rintro pull s' w' ⟨rfl, w₀, fresh, v, hw₀, hpull, hr, rfl⟩
  obtain rfl : pull = v := Except.ok.inj hr
  refine runs_bind (runs_gitRead rfl rfl fun _ => rfl) ?_ ?_
  · rintro e' s'' w' ⟨-, hr, -⟩
    cases hr
  rintro current s'' w' ⟨rfl, hr, rfl⟩
  obtain rfl : current = w₀.checkout := Except.ok.inj hr
  refine runs_check_bind (fun hne => hne hw₀.checkout) ?_
  refine runs_bind (runs_gitRead rfl rfl fun _ => rfl) ?_ ?_
  · rintro e' s'' w' ⟨-, hr, -⟩
    cases hr
  rintro remote s'' w' ⟨rfl, hr, rfl⟩
  obtain rfl : remote = w₀.branches request.branch := Except.ok.inj hr
  obtain ⟨pull', hpull', hname, hdraft, hbase, hhead⟩ := hw₀.tracked
  obtain rfl : pull = pull' := Option.some_inj.1 (hpull.symm.trans hpull')
  have hsha : pull.headSha = o.currentHead := Option.some_inj.1 (hhead.symm.trans hw₀.remote)
  refine runs_check_bind (by simp [hw₀.remote, hsha, hname, hdraft]) ?_
  rw [hmutations]
  refine runs_check_bind (not_not.2 hjournal) ?_
  -- each retried call keeps what the ones before it published
  have hget : ∀ context, Stable (.getStatus o.currentHead context)
      (Ready request.branch request.prNumber o.currentHead ref) :=
    fun context => stable_read rfl (fun w _ => ⟨none, w.statuses o.currentHead context, rfl⟩) fun _ k hw => hw.streak k
  refine runs_bind (runs_ensureStatus (hget _) (stable_changeset ..) (hw₀.streak 0) rfl) ?_ ?_
  · rintro e' s₁ w₁ ⟨hr, -⟩
    cases hr
  rintro _ s₁ w₁ ⟨-, hw₁, hstreak₁, hset₁⟩
  have hget' : ∀ context, Stable (.getStatus o.currentHead context)
      (ChangesetSet request.branch request.prNumber o.currentHead ref o.changesetId) :=
    fun context => stable_read rfl (fun w _ => ⟨none, w.statuses o.currentHead context, rfl⟩) fun _ k hw =>
      ⟨hw.1.streak k, hw.2⟩
  refine runs_bind (runs_ensureStatus (hget' _) (stable_quality ..) ⟨hw₁, hset₁⟩ hstreak₁) ?_ ?_
  · rintro e' s₂ w₂ ⟨hr, -⟩
    cases hr
  rintro _ s₂ w₂ ⟨-, ⟨hw₂, hset₂⟩, hstreak₂, hquality⟩
  have href : pull.baseBranch = ref := hbase.trans hw₀.defaultBranch
  rw [href]
  refine runs_bind (runs_reconciledDispatch ⟨hw₂, hset₂, hquality⟩ hstreak₂) ?_ ?_
  · rintro e' s₃ w₃ ⟨hr, -⟩
    cases hr
  rintro _ s₃ w₃ ⟨-, hpublished⟩
  exact runs_pure ⟨rfl, hpublished⟩

/-! ### A run and its reconciliation -/

/-- Every call ends. -/
private theorem Exec.total (mayFail : Call → World → WorkflowError → Prop) (c : Call) (w : World) :
    ∃ r w', Exec mayFail c w r w' := by
  by_cases h : ∃ fresh v, c.answer fresh w = some v
  · obtain ⟨fresh, v, hanswer⟩ := h
    exact ⟨_, _, .answered c w fresh v hanswer⟩
  · have hrefused : ∀ fresh, c.answer fresh w = none := by
      intro fresh
      cases hanswer : c.answer fresh w with
      | none => rfl
      | some v => exact absurd ⟨fresh, v, hanswer⟩ h
    exact ⟨_, _, .refused c w (.transient "REQUEST_FAILED" []) hrefused⟩

/-- A run that returns has published its outputs.  A run that raises once its commit is in the journal leaves a result
file: while the head of the branch is the commit, every reconciliation with that file returns the outputs and has
published them, even when calls of GitHub fail for a while, as long as four in a row do not. -/
theorem process_reconcile {run : ProcessingRun} {w w₁ : World} {r : Except WorkflowError Outputs} {s : RunState}
    (hrun : Program.Alone (Exec AdapterFailure) run.program w (r, s) w₁) :
    (∀ o, r = .ok o → Published run.prNumber o w₁) ∧
      ∀ e, r = .error e → (∃ m ∈ s.mutations, m.resource = "commit") → ∃ o, s.partialOutputs = some o ∧
        (w₁.branches run.branch = some o.currentHead → ∀ request : Reconciliation,
          request.repository = request.root → request.branch = run.branch → request.prNumber = run.prNumber →
            request.prior = .ok (envelope request.invocationId e s) →
              (∃ r' w₂, Program.Alone (Exec RetriedFailure) request.program { w₁ with streak := 0 } r' w₂) ∧
                ∀ r' w₂, Program.Alone (Exec RetriedFailure) request.program { w₁ with streak := 0 } r' w₂ →
                  r'.1 = .ok o ∧ Published run.prNumber o w₂) := by
  have hended : Ended run r s w₁ := (runs_process run w).of_alone hrun
  refine ⟨hended.published, ?_⟩
  rintro e rfl hcommit
  obtain ⟨o, ho, htracked, ⟨e', he', hpartial⟩, hcheckout, hjournal, hversion⟩ := hended.interrupted e rfl hcommit
  obtain rfl : e = e' := Except.error.inj he'
  refine ⟨o, ho, fun hremote request hrepository hbranch hnumber hprior => ?_⟩
  have hready : Ready request.branch request.prNumber o.currentHead w₁.defaultBranch { w₁ with streak := 0 } := by
    rw [hbranch, hnumber]
    exact ⟨htracked, hcheckout, hremote, rfl⟩
  refine ⟨Program.exists_alone (Exec.total RetriedFailure) _ _, fun r' w₂ halone => ?_⟩
  rw [← hnumber]
  exact (runs_reconcile hrepository hprior ho hpartial hjournal hversion hready rfl).of_alone halone

/-! ### An example -/

def marketHead : GitCommitSha := ⟨List.replicate 40 'a', rfl, Or.inl rfl⟩

def marketCommit : GitCommitSha := ⟨List.replicate 40 'b', rfl, Or.inl rfl⟩

def marketProcessed : Text × Version :=
  ("prd_0198f6ca-2a11-78d1-8672-67d49e69f173".toList, ⟨1, one_isVersion⟩)

def marketRun : ProcessingRun :=
  ⟨['r'], ['r'], "market".toList, "ard/market".toList, 7, marketHead, true, [], .ok none, fun _ _ => some [],
    .ok marketProcessed, .ok none⟩

def marketWorld : World :=
  ⟨"main".toList, marketHead, fun _ => none, fun _ => some marketHead,
    fun _ => some ⟨"ard/market".toList, marketHead, "main".toList, true⟩, fun _ _ => none, [], 0⟩

def marketOutputs : Outputs := marketRun.outputs marketProcessed none marketCommit

def marketFailure : WorkflowError :=
  ⟨.partialFailure, ProcessingRun.postCommitCode, "processing commit succeeded but publication did not converge".toList⟩

def interruptedState : RunState :=
  ⟨[⟨"commit", marketCommit.text, "create", none⟩], marketCommit, some marketOutputs⟩

/-- The commit is pushed, no status is set. -/
def interruptedWorld : World :=
  { (Call.push "ard/market".toList).after none
      { marketWorld with checkout := marketCommit, worktree := marketRun.written marketWorld.worktree } with
    streak := 1 }

def marketReconciliation : Reconciliation :=
  ⟨['r'], ['r'], "ard/market".toList, 7, "run-1".toList, [],
    .ok (envelope "run-1".toList marketFailure interruptedState), .transient "PROCESSING_FAILED" []⟩

/-- The first status fails after the commit was created and pushed. -/
theorem marketRun_interrupted : Program.Alone (Exec AdapterFailure) marketRun.program marketWorld
    (.error marketFailure, interruptedState) interruptedWorld := by
  -- the checks before and after the pipeline, and the pipeline
  refine Program.Alone.call (.ok _) (.answered _ _ none _ rfl) ?_
  refine Program.Alone.call (.ok _) (.answered _ _ none _ rfl) ?_
  refine Program.Alone.call (.ok _) (.answered _ _ none _ rfl) ?_
  refine Program.Alone.call (.ok _) (.answered _ _ none _ rfl) ?_
  refine Program.Alone.call (.ok _) (.answered _ _ none _ rfl) ?_
  refine Program.Alone.call (.ok _) (.answered _ _ none _ rfl) ?_
  refine Program.Alone.call (.ok _) (.answered _ _ none _ rfl) ?_
  refine Program.Alone.call (.ok _) (.answered _ _ none _ rfl) ?_
  -- the commit, its push and the check of the remote branch
  refine Program.Alone.call (.ok _) (.answered _ _ (some marketCommit) _ rfl) ?_
  refine Program.Alone.call (.ok _) (.answered _ _ none _ rfl) ?_
  refine Program.Alone.call (.ok _) (.answered _ _ none _ rfl) ?_
  refine Program.Alone.call (.error (.transient "GITHUB_STATUS_FAILED" [])) (.failed _ _ _ (fun h => (by cases h))) ?_
  exact Program.Alone.done _ _

/-- A reconciliation publishes what the interrupted run did not. -/
theorem process_reconcile_interrupted : interruptedWorld.statuses marketCommit qualityContext = none ∧
    ∃ r w₂, Program.Alone (Exec RetriedFailure) marketReconciliation.program { interruptedWorld with streak := 0 } r
      w₂ ∧ r.1 = .ok marketOutputs ∧ Published 7 marketOutputs w₂ := by
  obtain ⟨o, ho, hreconciled⟩ := (process_reconcile marketRun_interrupted).2 marketFailure rfl
    ⟨_, List.mem_singleton_self _, rfl⟩
  obtain rfl : marketOutputs = o := Option.some_inj.1 ho
  obtain ⟨⟨r, w₂, halone⟩, hall⟩ := hreconciled rfl marketReconciliation rfl rfl rfl rfl
  exact ⟨rfl, r, w₂, halone, hall r w₂ halone⟩

end Processing

end ArdOssie
