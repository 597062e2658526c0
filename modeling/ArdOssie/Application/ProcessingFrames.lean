import ArdOssie.Application.ProcessingRuns

/-!
# What processing leaves alone

A processing run changes nothing unless the head that was validated is the head of the checkout, of the remote branch
and of its tracking pull request.  Then its pipeline writes in the working tree.  Besides that it writes to its own
branch only, and it announces the head of that branch only, wherever it ends.  A reconciliation announces the commit that
its result file journals, if that is the head.
-/

namespace ArdOssie

namespace Processing

open Session (Runs runs_bind runs_pure runs_throw runs_modify runs_modify_bind runs_get_bind runs_ofResult
  runs_ofResult_bind runs_tryCatch runs_ask)

variable {mayFail : Call → World → WorkflowError → Prop} {s : RunState} {w w' w'' : World}

/-! ### The effects of a run -/

/-- The head that was validated is the head everywhere. -/
def Matched (run : ProcessingRun) (w : World) : Prop :=
  w.checkout = run.expectedHead ∧ w.branches run.branch = some run.expectedHead ∧
    ∃ pull, w.pulls run.prNumber = some pull ∧ pull.headSha = run.expectedHead ∧ pull.headBranch = run.branch ∧
      pull.draft = true ∧ pull.baseBranch = w.defaultBranch

/-- Only the count of the failures differs. -/
def Untouched (w w' : World) : Prop := ∃ k, w' = { w with streak := k }

/-- At most a commit in the checkout and its push to the branch of the run lie between the two. -/
structure Written (run : ProcessingRun) (w w' : World) : Prop where
  readOnly : run.allowWriteback = false → Untouched w w'
  branch : w'.branches run.branch = w.branches run.branch ∨ w'.branches run.branch = some w'.checkout
  branches : ∀ branch, branch ≠ run.branch → w'.branches branch = w.branches branch
  pulls : ∀ number pull, w.pulls number = some pull → pull.headBranch ≠ run.branch → w'.pulls number = some pull
  worktree : w'.worktree = w.worktree
  defaultBranch : w'.defaultBranch = w.defaultBranch
  statuses : w'.statuses = w.statuses
  dispatches : w'.dispatches = w.dispatches

/-- Between the two lie statuses of one head, in the two contexts of a run, and some dispatches. -/
structure Announced (head : GitCommitSha) (state : Text) (new : List WorkflowDispatch) (w w' : World) : Prop where
  checkout : w'.checkout = w.checkout
  worktree : w'.worktree = w.worktree
  branches : w'.branches = w.branches
  pulls : w'.pulls = w.pulls
  defaultBranch : w'.defaultBranch = w.defaultBranch
  statuses : ∀ sha context, w'.statuses sha context = w.statuses sha context ∨ sha = head ∧
    (context = changesetContext ∧ w'.statuses sha context = some state ∨
      context = qualityContext ∧ w'.statuses sha context = some "success".toList)
  dispatches : w'.dispatches = w.dispatches ++ new

/-- The dispatches of a run: that of its changeset, or none. -/
def Dispatched (run : ProcessingRun) (ref : Text) (o : Outputs) (new : List WorkflowDispatch) : Prop :=
  new = [] ∨ ∃ id, o.changesetId = some id ∧ new = [changesetDispatch run.prNumber ref o id]

/-- What publication may have changed when it ends: nothing is announced but the head that the branch has. -/
def Publication (run : ProcessingRun) (product : Text × Version) (changesetId : Option Text) (w w' : World) : Prop :=
  ∃ written, Written run w written ∧ (Untouched written w' ∨
    written.branches run.branch = some written.checkout ∧ ∃ new,
      Dispatched run w.defaultBranch (run.outputs product changesetId written.checkout) new ∧
        Announced written.checkout (changesetState changesetId) new written w')

/-- The pipeline ended with the product, the changeset is the same before and after it, and the branch is its own. -/
structure Accepted (run : ProcessingRun) (product : Text × Version) (changesetId : Option Text) : Prop where
  binding : run.binding = .ok changesetId
  processed : run.processed = .ok product
  bindingAfter : run.bindingAfter = .ok changesetId
  branch : ∀ id, changesetId = some id → run.branch = "ard/".toList ++ id ++ '-' :: run.productKey

/-- The pipeline has written in the working tree. -/
def afterPipeline (run : ProcessingRun) (w : World) : World := { w with worktree := run.written w.worktree }

/-- What a run may have changed when it ends: once the heads match, what the pipeline writes in the working tree, and
then what it publishes when its product is accepted. -/
def Framed (run : ProcessingRun) (w w' : World) : Prop :=
  Untouched w w' ∨ Matched run w ∧ (Untouched (afterPipeline run w) w' ∨ ∃ product changesetId,
    Accepted run product changesetId ∧ Publication run product changesetId (afterPipeline run w) w')

private theorem Untouched.refl (w : World) : Untouched w w := ⟨w.streak, rfl⟩

private theorem Untouched.trans (h : Untouched w w') (h' : Untouched w' w'') : Untouched w w'' := by
  obtain ⟨k, rfl⟩ := h
  obtain ⟨k', rfl⟩ := h'
  exact ⟨k', rfl⟩

/-- Every call takes effect or changes nothing but the count of the failures. -/
private theorem Exec.effect {c : Call} {r : Answer c} (h : Exec mayFail c w r w') :
    Untouched w w' ∨ ∃ fresh k, w' = { c.after fresh w with streak := k } := by
  cases r with
  | ok v =>
    obtain ⟨fresh, -, rfl⟩ := h.ok_cases
    exact Or.inr ⟨fresh, 0, rfl⟩
  | error e =>
    rcases h.error_cases with ⟨-, rfl⟩ | ⟨-, rfl | ⟨fresh, rfl⟩⟩
    · exact Or.inl (Untouched.refl w')
    · exact Or.inl ⟨_, rfl⟩
    · exact Or.inr ⟨fresh, _, rfl⟩

private theorem runs_effect {c : Call} : Runs (Exec mayFail) (call c) s w fun _ s' w' =>
    s' = s ∧ (Untouched w w' ∨ ∃ fresh k, w' = { c.after fresh w with streak := k }) :=
  runs_ask fun _ _ hexec => ⟨rfl, hexec.effect⟩

/-! ### The artifacts -/

variable {run : ProcessingRun}

private theorem Written.refl (run : ProcessingRun) (w : World) : Written run w w :=
  ⟨fun _ => Untouched.refl w, Or.inl rfl, fun _ _ => rfl, fun _ _ hpull _ => hpull, rfl, rfl, rfl, rfl⟩

private theorem Written.untouched (h : Written run w w') (hw : Untouched w' w'') : Written run w w'' := by
  obtain ⟨k, rfl⟩ := hw
  exact ⟨fun hallow => (h.readOnly hallow).trans ⟨k, rfl⟩, h.branch, h.branches, h.pulls, h.worktree, h.defaultBranch,
    h.statuses, h.dispatches⟩

/-- A commit keeps every branch. -/
private theorem written_commit (hallow : run.allowWriteback = true) (key : Text) (fresh : Option GitCommitSha) (k : ℕ) :
    Written run w { (Call.commitAllowedPaths key).after fresh w with streak := k } := by
  refine ⟨fun h => ?_, Or.inl rfl, fun _ _ => rfl, fun _ _ hpull _ => hpull, rfl, rfl, rfl, rfl⟩
  rw [hallow] at h
  cases h

/-- A push to the branch of the run makes the checkout its head. -/
private theorem Written.push (h : Written run w w') (hallow : run.allowWriteback = true) (fresh : Option GitCommitSha)
    (k : ℕ) : Written run w { (Call.push run.branch).after fresh w' with streak := k } := by
  refine ⟨fun h => ?_, Or.inr (Function.update_self ..), fun branch hbranch => ?_, fun number pull hpull hbranch => ?_,
    h.worktree, h.defaultBranch, h.statuses, h.dispatches⟩
  · rw [hallow] at h
    cases h
  · exact (Function.update_of_ne hbranch ..).trans (h.branches branch hbranch)
  · show (w'.pulls number).map _ = _
    rw [h.pulls number pull hpull hbranch, Option.map_some, if_neg hbranch]

private theorem runs_writtenPush {w₀ : World} (h : Written run w₀ w) (hallow : run.allowWriteback = true)
    (created : Bool) : Runs (Exec mayFail) (run.pushIf created) s w fun _ s' w' =>
      s' = s ∧ Written run w₀ w' ∧ w'.checkout = w.checkout := by
  unfold ProcessingRun.pushIf
  split
  · refine runs_effect.mono ?_
    rintro _ s' w' ⟨rfl, ⟨k, rfl⟩ | ⟨fresh, k, rfl⟩⟩
    · exact ⟨rfl, h.untouched ⟨k, rfl⟩, rfl⟩
    · exact ⟨rfl, h.push hallow fresh k, rfl⟩
  · exact runs_pure ⟨rfl, h, rfl⟩

/-- The head that the run goes on with is that of the checkout and of the branch. -/
private def Settled (run : ProcessingRun) (s : RunState) (w : World) : Prop :=
  w.checkout = s.currentHead ∧ w.branches run.branch = some s.currentHead

private theorem runs_written (hallow : run.allowWriteback = true) :
    Runs (Exec mayFail) run.writeBack s w fun r s' w' => Written run w w' ∧ ∀ u, r = .ok u → Settled run s' w' := by
  unfold ProcessingRun.writeBack
  refine runs_bind (P := fun r s' w' => Written run w w' ∧ ∀ commit, r = .ok commit → w'.checkout = commit.sha) ?_
    (fun _ _ _ hp => ⟨hp.1, fun _ hr => (by cases hr)⟩) ?_
  · refine runs_call (fun e w' hexec => ⟨?_, fun _ hr => (by cases hr)⟩) fun fresh commit hanswer => ⟨?_, ?_⟩
    · rcases hexec.effect with hw | ⟨fresh, k, rfl⟩
      · exact (Written.refl run w).untouched hw
      · exact written_commit hallow run.productKey fresh k
    · exact written_commit hallow run.productKey fresh 0
    · rintro _ ⟨⟩
      rw [← Option.some_inj.1 hanswer]
      rfl
  rintro commit s₁ w₁ ⟨hwritten, hcheckout⟩
  have hcheckout₁ : w₁.checkout = commit.sha := hcheckout commit rfl
  refine runs_modify_bind ?_
  refine runs_bind (runs_writtenPush hwritten hallow commit.created)
    (fun _ _ _ hp => ⟨hp.2.1, fun _ hr => (by cases hr)⟩) ?_
  rintro _ s₂ w₂ ⟨rfl, hwritten₂, hcheckout₂⟩
  refine runs_bind (runs_read rfl) ?_ ?_
  · rintro e s₃ w₃ ⟨-, hw, -⟩
    exact ⟨hwritten₂.untouched hw, fun _ hr => (by cases hr)⟩
  rintro remote s₃ w₃ ⟨rfl, ⟨k, rfl⟩, hremote⟩
  obtain ⟨fresh, hremote⟩ := hremote remote rfl
  refine runs_ofResult ⟨hwritten₂.untouched ⟨k, rfl⟩, fun u hr => ⟨hcheckout₂.trans hcheckout₁, ?_⟩⟩
  exact (Option.some_inj.1 hremote).trans (not_not.1 (failIf_eq_ok.1 hr))

private theorem runs_writtenIf {w₀ : World} (hsettled : Settled run s w) (huntouched : Untouched w₀ w) :
    Runs (Exec mayFail) run.writeBackIf s w fun r s' w' => Written run w₀ w' ∧ ∀ u, r = .ok u → Settled run s' w' := by
  obtain ⟨k, rfl⟩ := huntouched
  unfold ProcessingRun.writeBackIf
  split
  · rename_i hallow
    refine (runs_written hallow).mono ?_
    rintro r s' w' ⟨hwritten, hok⟩
    refine ⟨⟨fun h => ?_, hwritten.branch, hwritten.branches, hwritten.pulls, hwritten.worktree, hwritten.defaultBranch,
      hwritten.statuses, hwritten.dispatches⟩, hok⟩
    rw [hallow] at h
    cases h
  · exact runs_pure ⟨(Written.refl run w₀).untouched ⟨k, rfl⟩, fun _ _ => hsettled⟩

/-! ### Announcements -/

variable {head : GitCommitSha} {state : Text} {new : List WorkflowDispatch}

private theorem Announced.refl (head : GitCommitSha) (state : Text) (w : World) : Announced head state [] w w :=
  ⟨rfl, rfl, rfl, rfl, rfl, fun _ _ => Or.inl rfl, (List.append_nil _).symm⟩

private theorem Announced.untouched (h : Announced head state new w w') (hw : Untouched w' w'') :
    Announced head state new w w'' := by
  obtain ⟨k, rfl⟩ := hw
  exact ⟨h.checkout, h.worktree, h.branches, h.pulls, h.defaultBranch, h.statuses, h.dispatches⟩

/-- A context of a run, with the state that the run sets in it. -/
private def IsAnnouncement (state context value : Text) : Prop :=
  context = changesetContext ∧ value = state ∨ context = qualityContext ∧ value = "success".toList

private theorem Announced.setStatus {context value description targetUrl : Text} (h : Announced head state new w w')
    (hvalue : IsAnnouncement state context value) (fresh : Option GitCommitSha) (k : ℕ) : Announced head state new w
      { (Call.setStatus head context value description targetUrl).after fresh w' with streak := k } := by
  refine ⟨h.checkout, h.worktree, h.branches, h.pulls, h.defaultBranch, fun sha context' => ?_, h.dispatches⟩
  show Function.update w'.statuses head (Function.update (w'.statuses head) context (some value)) sha context' = _ ∨
    sha = head ∧ (context' = changesetContext ∧
      Function.update w'.statuses head (Function.update (w'.statuses head) context (some value)) sha context' = _ ∨
        context' = qualityContext ∧
          Function.update w'.statuses head (Function.update (w'.statuses head) context (some value)) sha context' = _)
  by_cases hsha : sha = head
  · subst hsha
    rw [Function.update_self]
    by_cases hcontext : context' = context
    · subst hcontext
      rw [Function.update_self]
      exact Or.inr ⟨rfl, hvalue.imp (fun h => ⟨h.1, congrArg some h.2⟩) fun h => ⟨h.1, congrArg some h.2⟩⟩
    · rw [Function.update_of_ne hcontext]
      exact h.statuses sha context'
  · rw [Function.update_of_ne hsha]
    exact h.statuses sha context'

private theorem Announced.dispatch (h : Announced head state [] w w') (dispatch : WorkflowDispatch)
    (fresh : Option GitCommitSha) (k : ℕ) :
    Announced head state [dispatch] w { (Call.dispatchWorkflow dispatch).after fresh w' with streak := k } := by
  refine ⟨h.checkout, h.worktree, h.branches, h.pulls, h.defaultBranch, h.statuses, ?_⟩
  show w'.dispatches ++ [dispatch] = _
  rw [h.dispatches, List.append_nil]

private theorem runs_announce {w₀ : World} {context value description targetUrl : Text}
    (h : Announced head state new w₀ w) (hvalue : IsAnnouncement state context value) :
    Runs (Exec mayFail) (setStatus head context value description targetUrl) s w fun _ s' w' =>
      s' = s ∧ Announced head state new w₀ w' := by
  refine runs_bind (P := fun _ s' w' => s' = s ∧ Announced head state new w₀ w') ?_ (fun _ _ _ hp => hp) ?_
  · refine runs_effect.mono ?_
    rintro _ s' w' ⟨rfl, hw | ⟨fresh, k, rfl⟩⟩
    · exact ⟨rfl, h.untouched hw⟩
    · exact ⟨rfl, h.setStatus hvalue fresh k⟩
  · rintro _ s' w' hp
    exact runs_pure hp

private theorem runs_announceDispatch {w₀ : World} {ref : Text} {o : Outputs} (h : Announced head state [] w₀ w) :
    Runs (Exec mayFail) (run.dispatchChangeset ref o) s w fun _ _ w' =>
      ∃ new, Dispatched run ref o new ∧ Announced head state new w₀ w' := by
  unfold ProcessingRun.dispatchChangeset
  split
  · exact runs_pure ⟨[], Or.inl rfl, h⟩
  · rename_i id hid
    refine runs_bind (P := fun _ _ w' => ∃ new, Dispatched run ref o new ∧ Announced head state new w₀ w') ?_
      (fun _ _ _ hp => hp) fun _ _ _ hp => runs_modify hp
    refine runs_bind (P := fun _ _ w' => ∃ new, Dispatched run ref o new ∧ Announced head state new w₀ w') ?_
      (fun _ _ _ hp => hp) fun _ _ _ hp => runs_pure hp
    refine runs_effect.mono ?_
    rintro _ s' w' ⟨-, hw | ⟨fresh, k, rfl⟩⟩
    · exact ⟨[], Or.inl rfl, h.untouched hw⟩
    · exact ⟨_, Or.inr ⟨id, hid, rfl⟩, h.dispatch _ fresh k⟩

/-! ### Runs -/

/-- From the head that was checked, whatever fails. -/
private theorem runs_publication {w₀ : World} (hsettled : Settled run s w) (huntouched : Untouched w₀ w)
    (product : Text × Version) (changesetId : Option Text) :
    Runs (Exec mayFail) (run.publish w₀.defaultBranch product changesetId) s w fun _ _ w' =>
      Publication run product changesetId w₀ w' := by
  unfold ProcessingRun.publish
  refine runs_bind (runs_writtenIf hsettled huntouched) ?_ ?_
  · rintro e s₁ w₁ ⟨hwritten, -⟩
    exact ⟨w₁, hwritten, Or.inl (Untouched.refl w₁)⟩
  rintro _ s₁ w₁ ⟨hwritten, hok⟩
  obtain ⟨hcheckout, hbranch⟩ := hok ⟨⟩ rfl
  -- what is announced is the head that the branch has from here on
  have hhead : w₁.branches run.branch = some w₁.checkout := hbranch.trans (congrArg some hcheckout.symm)
  refine runs_get_bind ?_
  rw [← hcheckout]
  refine runs_bind (runs_announce (Announced.refl w₁.checkout (changesetState changesetId) w₁) (Or.inl ⟨rfl, rfl⟩))
    (fun _ _ w' hp => ⟨w₁, hwritten, Or.inr ⟨hhead, [], Or.inl rfl, hp.2⟩⟩) ?_
  rintro _ s₂ w₂ ⟨rfl, hannounced⟩
  refine runs_modify_bind ?_
  refine runs_bind (runs_announce hannounced (Or.inr ⟨rfl, rfl⟩))
    (fun _ _ w' hp => ⟨w₁, hwritten, Or.inr ⟨hhead, [], Or.inl rfl, hp.2⟩⟩) ?_
  rintro _ s₃ w₃ ⟨rfl, hannounced'⟩
  refine runs_modify_bind ?_
  refine (runs_announceDispatch hannounced').mono ?_
  rintro _ s₄ w₄ hdispatched
  exact ⟨w₁, hwritten, Or.inr ⟨hhead, hdispatched⟩⟩

/-- The exception clauses call nothing. -/
private theorem runs_asPartial_untouched (product : Text × Version) (changesetId : Option Text)
    (error : WorkflowError) :
    Runs (Exec mayFail) (run.asPartial product changesetId error) s w fun _ _ w' => w' = w := by
  unfold ProcessingRun.asPartial
  refine runs_get_bind ?_
  split
  · exact runs_throw rfl
  · exact runs_modify_bind (runs_throw rfl)

private theorem runs_framed (run : ProcessingRun) (w : World) :
    Runs (Exec mayFail) run.process ⟨[], run.expectedHead, none⟩ w fun _ _ w' => Framed run w w' := by
  unfold ProcessingRun.process
  refine runs_ofResult_bind (fun _ _ => Or.inl (Untouched.refl w)) fun _ _ => ?_
  refine runs_bind (runs_read rfl) (fun _ _ _ h => Or.inl h.2.1) ?_
  rintro ref s' w' ⟨rfl, ⟨k, rfl⟩, href⟩
  obtain ⟨fresh, href⟩ := href ref rfl
  obtain rfl : w.defaultBranch = ref := Option.some_inj.1 href
  refine runs_bind (runs_read rfl) (fun _ _ _ h => Or.inl (Untouched.trans ⟨k, rfl⟩ h.2.1)) ?_
  rintro pull s' w' ⟨rfl, ⟨k₁, rfl⟩, hpull⟩
  obtain ⟨fresh₁, hpull⟩ := hpull pull rfl
  refine runs_bind (runs_requireExpectedHead run pull _) (fun _ _ _ h => Or.inl (Untouched.trans ⟨k₁, rfl⟩ h.2.1)) ?_
  rintro head s' w' ⟨rfl, ⟨k₂, rfl⟩, hhead⟩
  -- from here on the heads are known to match
  have hmatched : Matched run w := by
    obtain ⟨-, hcheckout, hbranch, hsha, hname, hdraft, hbase⟩ := hhead head rfl
    exact ⟨hcheckout, hbranch, pull, hpull, hsha, hname, hdraft, hbase⟩
  refine runs_ofResult_bind (fun _ _ => Or.inl ⟨k₂, rfl⟩) fun requested hrequested => ?_
  refine runs_ofResult_bind (fun _ _ => Or.inl ⟨k₂, rfl⟩) fun _ hname => ?_
  have hpiped : ∀ w', Untouched (afterPipeline run w) w' → Framed run w w' := fun _ h => Or.inr ⟨hmatched, Or.inl h⟩
  refine runs_bind (P := fun r s' w' => s' = ⟨[], run.expectedHead, none⟩ ∧ Framed run w w' ∧
    ∀ u, r = .ok u → Untouched (afterPipeline run w) w') ?_ (fun _ _ _ h => h.2.1) ?_
  · refine runs_call (fun e w' hexec => ⟨rfl, ?_, fun _ hr => (by cases hr)⟩) fun _ _ _ =>
      ⟨rfl, hpiped _ ⟨0, rfl⟩, fun _ _ => ⟨0, rfl⟩⟩
    rcases hexec.effect with huntouched | ⟨fresh₂, k₃, rfl⟩
    · exact Or.inl (Untouched.trans ⟨k₂, rfl⟩ huntouched)
    · exact hpiped _ ⟨k₃, rfl⟩
  rintro _ s' w' ⟨rfl, -, htree⟩
  obtain ⟨k₃, rfl⟩ := htree ⟨⟩ rfl
  refine runs_ofResult_bind (fun _ _ => hpiped _ ⟨k₃, rfl⟩) fun product hproduct => ?_
  refine runs_ofResult_bind (fun _ _ => hpiped _ ⟨k₃, rfl⟩) fun changesetId hafter => ?_
  refine runs_ofResult_bind (fun _ _ => hpiped _ ⟨k₃, rfl⟩) fun _ hkept => ?_
  obtain rfl : changesetId = requested := not_not.1 (failIf_eq_ok.1 hkept)
  have haccepted : Accepted run product changesetId :=
    ⟨hrequested, hproduct, hafter, fun id hid => not_not.1 fun hne => failIf_eq_ok.1 hname ⟨id, hid, hne⟩⟩
  refine runs_bind (runs_read rfl) (fun _ _ _ h => hpiped _ (Untouched.trans ⟨k₃, rfl⟩ h.2.1)) ?_
  rintro again s' w' ⟨rfl, ⟨k₄, rfl⟩, -⟩
  refine runs_bind (runs_requireExpectedHead run again _)
    (fun _ _ _ h => hpiped _ (Untouched.trans ⟨k₄, rfl⟩ h.2.1)) ?_
  rintro current s' w' ⟨rfl, ⟨k₅, rfl⟩, hcurrent⟩
  obtain ⟨-, hcheckout, hbranch, -⟩ := hcurrent current rfl
  refine runs_ofResult_bind (fun _ _ => hpiped _ ⟨k₅, rfl⟩) fun _ _ => ?_
  -- every end from here on is one of publication
  have hframed : ∀ w', Publication run product changesetId (afterPipeline run w) w' → Framed run w w' :=
    fun w' hpublication => Or.inr ⟨hmatched, Or.inr ⟨product, changesetId, haccepted, hpublication⟩⟩
  refine runs_bind (P := fun _ _ w' => Framed run w w') ?_ (fun _ _ _ h => h) fun _ _ _ h => runs_get_bind (runs_pure h)
  refine runs_tryCatch (P := fun _ _ w' => Framed run w w') ?_ (fun _ _ _ h => h) ?_
  · have huntouched : Untouched (afterPipeline run w) { afterPipeline run w with streak := k₅ } := ⟨k₅, rfl⟩
    refine (runs_publication ⟨hcheckout, hbranch⟩ huntouched product changesetId).mono ?_
    exact fun _ _ w' hpublication => hframed w' hpublication
  · rintro e s₁ w₁ h
    refine (runs_asPartial_untouched product changesetId e).mono ?_
    rintro _ _ w₂ rfl
    exact h

/-- Whatever call fails, and however the run ends: nothing changes unless the heads match, besides the working tree
nothing is written without the permission to, and nothing but the head of its own branch is announced. -/
theorem process_frame {run : ProcessingRun} {w w' : World} {r : Except WorkflowError Outputs × RunState}
    (h : Program.Alone (Exec mayFail) run.program w r w') : Framed run w w' := by
  obtain ⟨result, s⟩ := r
  exact (runs_framed run w).of_alone h

/-- The run that is interrupted after its push. -/
theorem process_frame_interrupted : Framed marketRun marketWorld interruptedWorld :=
  process_frame marketRun_interrupted

/-! ### Reconciliation -/

/-- The result file is one of a run that was interrupted after its commit, and that commit is the head everywhere. -/
def Resumed (request : Reconciliation) (o : Outputs) (pull : TrackingPull) (w : World) : Prop :=
  (∃ prior, request.prior = .ok prior ∧ prior.invocationId = some request.invocationId ∧
      prior.codes = [ProcessingRun.postCommitCode] ∧ prior.failureExitCode = some (exitValue .partialFailure) ∧
        prior.outputs = some o ∧ Journaled prior.mutations o) ∧
    w.checkout = o.currentHead ∧ w.branches request.branch = some o.currentHead ∧
      w.pulls request.prNumber = some pull ∧ pull.headSha = o.currentHead ∧ pull.headBranch = request.branch ∧
        pull.draft = true

/-- The dispatches of a reconciliation: a dispatch that took effect before it failed is made again. -/
def Redispatched (request : Reconciliation) (ref : Text) (o : Outputs) (new : List WorkflowDispatch) : Prop :=
  new = [] ∨ ∃ id k, o.changesetId = some id ∧ k ≤ retryAttempts ∧
    new = List.replicate k (changesetDispatch request.prNumber ref o id)

/-- What a reconciliation may have changed when it ends. -/
def Republished (request : Reconciliation) (w w' : World) : Prop :=
  Untouched w w' ∨ ∃ o pull new, Resumed request o pull w ∧ Redispatched request pull.baseBranch o new ∧
    Announced o.currentHead (changesetState o.changesetId) new w w'

/-- What every attempt keeps is kept by all of them, counting the attempts, and the result is that of an attempt. -/
private theorem runs_attempts {α : Type} {m : ProcessingSession α} {I : ℕ → World → Prop} {V : α → Prop}
    (hmono : ∀ k k' w, k ≤ k' → I k w → I k' w)
    (hattempt : ∀ k s w, I k w → Runs (Exec mayFail) m s w fun r s' w' =>
      s' = s ∧ I (k + 1) w' ∧ ∀ v, r = .ok v → V v) (n k : ℕ) (s : RunState) (w : World) (h : I k w) :
    Runs (Exec mayFail) (retry m n) s w fun r s' w' => s' = s ∧ I (k + n) w' ∧ ∀ v, r = .ok v → V v := by
  induction n generalizing k s w with
  | zero => exact runs_throw ⟨rfl, h, fun _ hr => (by cases hr)⟩
  | succ n ih =>
    unfold retry
    refine runs_tryCatch (hattempt k s w h) ?_ ?_
    · rintro v s' w' ⟨rfl, h', hv⟩
      exact ⟨rfl, hmono _ _ _ (by omega) h', hv⟩
    · rintro e s' w' ⟨rfl, h', -⟩
      split
      · refine (ih (k + 1) s' w' h').mono ?_
        rintro r s'' w'' ⟨rfl, h'', hv⟩
        exact ⟨rfl, hmono _ _ _ (by omega) h'', hv⟩
      · exact runs_throw ⟨rfl, hmono _ _ _ (by omega) h', fun _ hr => (by cases hr)⟩

/-- A property that every attempt keeps. -/
private theorem runs_retry_keeps {α : Type} {m : ProcessingSession α} {P : World → Prop}
    (hattempt : ∀ s w, P w → Runs (Exec mayFail) m s w fun _ s' w' => s' = s ∧ P w') (n : ℕ) (h : P w) :
    Runs (Exec mayFail) (retry m n) s w fun _ s' w' => s' = s ∧ P w' := by
  refine (runs_attempts (I := fun _ w => P w) (V := fun _ => True) (fun _ _ _ _ h => h) ?_ n 0 s w h).mono
    fun _ _ _ h => ⟨h.1, h.2.1⟩
  exact fun _ s w h => (hattempt s w h).mono fun _ _ _ h => ⟨h.1, h.2, fun _ _ => trivial⟩

/-- The pull request is read, with no other effect. -/
private theorem runs_retriedPull (number n : ℕ) :
    Runs (Exec mayFail) (retry (call (.getPr number)) n) s w fun r s' w' =>
      s' = s ∧ Untouched w w' ∧ ∀ pull, r = .ok pull → w.pulls number = some pull := by
  refine runs_attempts (I := fun _ w' => Untouched w w') (fun _ _ _ _ h => h) ?_ n 0 s w (Untouched.refl w)
  rintro _ s w' ⟨k, rfl⟩
  refine (runs_read rfl).mono ?_
  rintro r s' w' ⟨rfl, hw, hanswer⟩
  refine ⟨rfl, Untouched.trans ⟨k, rfl⟩ hw, fun pull hr => ?_⟩
  obtain ⟨fresh, hpull⟩ := hanswer pull hr
  exact hpull

private theorem runs_ensured {w₀ : World} {context value description targetUrl : Text}
    (h : Announced head state new w₀ w) (hvalue : IsAnnouncement state context value) :
    Runs (Exec mayFail) (ensureStatus head context value description targetUrl) s w fun _ _ w' =>
      Announced head state new w₀ w' := by
  unfold ensureStatus
  refine runs_bind (P := fun _ _ w' => Announced head state new w₀ w') ?_ (fun _ _ _ hp => hp) ?_
  · refine Runs.mono (runs_retry_keeps (P := Announced head state new w₀) ?_ retryAttempts h) fun _ _ _ hp => hp.2
    intro s w h
    refine (runs_read rfl).mono ?_
    rintro _ s' w' ⟨rfl, hw, -⟩
    exact ⟨rfl, h.untouched hw⟩
  · intro existing s' w' h'
    split
    · exact runs_pure h'
    · refine runs_bind (P := fun _ _ w' => Announced head state new w₀ w') ?_ (fun _ _ _ hp => hp) fun _ _ _ hp =>
        runs_modify hp
      refine Runs.mono (runs_retry_keeps (P := Announced head state new w₀) ?_ retryAttempts h') fun _ _ _ hp => hp.2
      exact fun _ _ h => runs_announce h hvalue

/-- One attempt of a dispatch, after those that took effect although they failed. -/
private theorem Announced.dispatchAgain {k : ℕ} {dispatch : WorkflowDispatch}
    (h : Announced head state (List.replicate k dispatch) w w') (fresh : Option GitCommitSha) (streak : ℕ) :
    Announced head state (List.replicate (k + 1) dispatch) w
      { (Call.dispatchWorkflow dispatch).after fresh w' with streak := streak } := by
  refine ⟨h.checkout, h.worktree, h.branches, h.pulls, h.defaultBranch, h.statuses, ?_⟩
  show w'.dispatches ++ [dispatch] = _
  rw [h.dispatches, List.replicate_succ', List.append_assoc]

private theorem runs_redispatch {request : Reconciliation} {w₀ : World} {ref : Text} {o : Outputs}
    (h : Announced head state [] w₀ w) : Runs (Exec mayFail) (request.dispatchChangeset ref o) s w fun _ _ w' =>
      ∃ new, Redispatched request ref o new ∧ Announced head state new w₀ w' := by
  unfold Reconciliation.dispatchChangeset
  split
  · exact runs_pure ⟨[], Or.inl rfl, h⟩
  rename_i id hid
  let dispatch : WorkflowDispatch := changesetDispatch request.prNumber ref o id
  let Attempted (k : ℕ) (w : World) : Prop := ∃ j ≤ k, Announced head state (List.replicate j dispatch) w₀ w
  refine runs_bind (P := fun _ _ w' => ∃ new, Redispatched request ref o new ∧ Announced head state new w₀ w') ?_
    (fun _ _ _ hp => hp) fun _ _ _ hp => runs_modify hp
  have hattempt : ∀ k s w, Attempted k w → Runs (Exec mayFail) (dispatchWorkflow dispatch) s w fun r s' w' =>
      s' = s ∧ Attempted (k + 1) w' ∧ ∀ v, r = .ok v → True := by
    rintro k s w ⟨j, hj, hannounced⟩
    refine runs_bind (P := fun _ s' w' => s' = s ∧ Attempted (k + 1) w') (runs_effect.mono ?_)
      (fun _ _ _ hp => ⟨hp.1, hp.2, fun _ _ => trivial⟩) fun _ _ _ hp => runs_pure ⟨hp.1, hp.2, fun _ _ => trivial⟩
    rintro _ s' w' ⟨rfl, hw | ⟨fresh, streak, rfl⟩⟩
    · exact ⟨rfl, j, Nat.le_succ_of_le hj, hannounced.untouched hw⟩
    · exact ⟨rfl, j + 1, Nat.succ_le_succ hj, hannounced.dispatchAgain fresh streak⟩
  have hmono : ∀ k k' w, k ≤ k' → Attempted k w → Attempted k' w :=
    fun _ _ _ hk ⟨j, hj, hannounced⟩ => ⟨j, Nat.le_trans hj hk, hannounced⟩
  refine (runs_attempts hmono hattempt retryAttempts 0 s w ⟨0, Nat.le_refl 0, h⟩).mono ?_
  rintro _ s' w' ⟨-, ⟨j, hj, hannounced⟩, -⟩
  exact ⟨_, Or.inr ⟨id, j, hid, (Nat.zero_add retryAttempts) ▸ hj, rfl⟩, hannounced⟩

private theorem runs_republished (request : Reconciliation) (s : RunState) (w : World) :
    Runs (Exec mayFail) request.reconcile s w fun _ _ w' => Republished request w w' := by
  unfold Reconciliation.reconcile
  have huntouched : Republished request w w := Or.inl (Untouched.refl w)
  -- the repository and the result file are checked before anything is called
  refine runs_ofResult_bind (fun _ _ => huntouched) fun _ _ => ?_
  refine runs_ofResult_bind (fun _ _ => huntouched) fun prior hprior => ?_
  refine runs_ofResult_bind (fun _ _ => huntouched) fun _ hinvocation => ?_
  refine runs_ofResult_bind (fun _ _ => huntouched) fun _ _ => ?_
  refine runs_ofResult_bind (fun _ _ => huntouched) fun _ hcodes => ?_
  refine runs_ofResult_bind (fun _ _ => huntouched) fun o ho => ?_
  refine runs_ofResult_bind (fun _ _ => huntouched) fun _ _ => ?_
  have hcodes' := failIf_eq_ok.1 hcodes
  rw [not_or, not_not, not_not] at hcodes'
  -- then the heads are compared with it
  refine runs_bind (runs_retriedPull request.prNumber retryAttempts) (fun _ _ _ h => Or.inl h.2.1) ?_
  rintro pull s₁ w₁ ⟨rfl, ⟨k₁, rfl⟩, hpull⟩
  refine runs_bind (runs_read rfl) (fun _ _ _ h => Or.inl (Untouched.trans ⟨k₁, rfl⟩ h.2.1)) ?_
  rintro current s₂ w₂ ⟨rfl, ⟨k₂, rfl⟩, hcurrent⟩
  obtain ⟨fresh, hcurrent⟩ := hcurrent current rfl
  have hcurrent' : w.checkout = current := Option.some_inj.1 hcurrent
  refine runs_ofResult_bind (fun _ _ => Or.inl ⟨k₂, rfl⟩) fun _ hcheckout => ?_
  refine runs_bind (runs_read rfl) (fun _ _ _ h => Or.inl (Untouched.trans ⟨k₂, rfl⟩ h.2.1)) ?_
  rintro remote s₃ w₃ ⟨rfl, ⟨k₃, rfl⟩, hremote⟩
  obtain ⟨fresh', hremote⟩ := hremote remote rfl
  have hremote' : w.branches request.branch = remote := Option.some_inj.1 hremote
  refine runs_ofResult_bind (fun _ _ => Or.inl ⟨k₃, rfl⟩) fun _ hheads => ?_
  refine runs_ofResult_bind (fun _ _ => Or.inl ⟨k₃, rfl⟩) fun _ hjournal => ?_
  have hheads' := failIf_eq_ok.1 hheads
  simp only [not_or, not_not, Bool.not_eq_false] at hheads'
  obtain ⟨hbranch, hsha, hname, hdraft⟩ := hheads'
  have hresumed : Resumed request o pull w :=
    ⟨⟨prior, hprior, not_not.1 (failIf_eq_ok.1 hinvocation), hcodes'.1, hcodes'.2, require_eq_ok.1 ho,
      not_not.1 (failIf_eq_ok.1 hjournal)⟩, hcurrent'.trans (not_not.1 (failIf_eq_ok.1 hcheckout)),
      hremote'.trans hbranch, hpull pull rfl, hsha, hname, hdraft⟩
  have hrepublished : ∀ w', Announced o.currentHead (changesetState o.changesetId) [] w w' → Republished request w w' :=
    fun w' h => Or.inr ⟨o, pull, [], hresumed, Or.inl rfl, h⟩
  refine runs_bind (runs_ensured ((Announced.refl o.currentHead (changesetState o.changesetId) w).untouched ⟨k₃, rfl⟩)
    (Or.inl ⟨rfl, rfl⟩)) (fun _ _ w' h => hrepublished w' h) fun _ s₄ w₄ hannounced => ?_
  refine runs_bind (runs_ensured hannounced (Or.inr ⟨rfl, rfl⟩)) (fun _ _ w' h => hrepublished w' h)
    fun _ s₅ w₅ hannounced' => ?_
  refine runs_bind (P := fun _ _ w' => Republished request w w') ?_ (fun _ _ _ h => h) fun _ _ _ h => runs_pure h
  refine (runs_redispatch hannounced').mono ?_
  rintro _ _ w' ⟨new, hnew, hannounced''⟩
  exact Or.inr ⟨o, pull, new, hresumed, hnew, hannounced''⟩

/-- Whatever call fails, and however a reconciliation ends: it changes nothing unless the result file journals the
commit that is the head everywhere, and then it only sets the two statuses of that head and makes its dispatch. -/
theorem reconcile_frame {request : Reconciliation} {w w' : World} {r : Except WorkflowError Outputs × RunState}
    (h : Program.Alone (Exec mayFail) request.program w r w') : Republished request w w' := by
  obtain ⟨result, s⟩ := r
  exact (runs_republished request _ w).of_alone h

private def marketStatus (context : Text) (w : World) : World :=
  (Call.setStatus marketCommit context "success".toList [] []).after none w

private def reconciledWorld : World :=
  { marketStatus qualityContext (marketStatus changesetContext (marketStatus changesetContext interruptedWorld)) with
    streak := 0 }

/-- The answer to the first status is lost, and the status is set again. -/
private theorem marketReconciliation_returns : ∃ s, Program.Alone (Exec AdapterFailure)
    marketReconciliation.program interruptedWorld (.ok marketOutputs, s) reconciledWorld := by
  apply Exists.intro
  -- the pull request and the heads
  refine Program.Alone.call (.ok _) (.answered _ _ none _ rfl) ?_
  refine Program.Alone.call (.ok _) (.answered _ _ none _ rfl) ?_
  refine Program.Alone.call (.ok _) (.answered _ _ none _ rfl) ?_
  -- the two statuses
  refine Program.Alone.call (.ok _) (.answered _ _ none _ rfl) ?_
  refine Program.Alone.call (.error (.transient "GITHUB_STATUS_FAILED" []))
    (.lost _ _ none _ (fun h => (by cases h))) ?_
  refine Program.Alone.call (.ok _) (.answered _ _ none _ rfl) ?_
  refine Program.Alone.call (.ok _) (.answered _ _ none _ rfl) ?_
  refine Program.Alone.call (.ok _) (.answered _ _ none _ rfl) ?_
  exact Program.Alone.done _ _

/-- A reconciliation that sets one of the statuses twice. -/
theorem reconcile_frame_interrupted : reconciledWorld.statuses marketCommit qualityContext = some "success".toList ∧
    Republished marketReconciliation interruptedWorld reconciledWorld := by
  obtain ⟨s, hreturns⟩ := marketReconciliation_returns
  exact ⟨by decide, reconcile_frame hreturns⟩

end Processing

end ArdOssie
