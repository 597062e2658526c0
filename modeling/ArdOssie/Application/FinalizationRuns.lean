import ArdOssie.Application.Finalization

/-!
# Repeated finalization

A finalization that returns has reached its aim, whatever failed finalizations of the same request did before it, and
another one changes nothing.
-/

namespace ArdOssie

namespace Finalizing

open Session (Runs runs_bind runs_pure runs_throw runs_modify runs_get_bind runs_ofResult_bind runs_ask)

variable {faults : Prop} {s : List MutationRecord} {w : Board}

/-! ### Calls -/

/-- One call is answered after it took effect, or it fails where there are faults. -/
private theorem runs_call (c : Call) : Runs (Exec faults) (call c) s w fun r s' w' => s' = s ∧
    ((∃ fresh, c.IsFresh fresh w ∧ r = .ok (c.answer fresh w) ∧ w' = c.after fresh w) ∨
      faults ∧ (∃ e, r = .error e) ∧ (w' = w ∨ ∃ fresh, c.IsFresh fresh w ∧ w' = c.after fresh w)) := by
  refine runs_ask fun r w' hexec => ⟨rfl, ?_⟩
  cases hexec with
  | answered fresh h => exact Or.inl ⟨fresh, h, rfl, rfl⟩
  | failed e h => exact Or.inr ⟨h, ⟨e, rfl⟩, Or.inl rfl⟩
  | lost fresh e h hfresh => exact Or.inr ⟨h, ⟨e, rfl⟩, Or.inr ⟨fresh, hfresh, rfl⟩⟩

private theorem after_eq_of_isRead {c : Call} (h : c.isRead = true) (fresh : ℕ) (w : Board) : c.after fresh w = w := by
  cases c <;> first | rfl | cases h

private theorem runs_read {c : Call} (h : c.isRead = true) : Runs (Exec faults) (call c) s w fun r s' w' =>
    s' = s ∧ w' = w ∧ ((∃ fresh, r = .ok (c.answer fresh w)) ∨ faults ∧ ∃ e, r = .error e) := by
  refine (runs_call c).mono ?_
  rintro r s' w' ⟨rfl, ⟨fresh, -, rfl, rfl⟩ | ⟨hfaults, he, rfl | ⟨fresh, -, rfl⟩⟩⟩
  · exact ⟨rfl, after_eq_of_isRead h fresh w, Or.inl ⟨fresh, rfl⟩⟩
  · exact ⟨rfl, rfl, Or.inr ⟨hfaults, he⟩⟩
  · exact ⟨rfl, after_eq_of_isRead h fresh w, Or.inr ⟨hfaults, he⟩⟩

/-! ### Labels -/

private theorem movedLabels_movedLabels (add remove current : Finset Text) :
    movedLabels add remove (movedLabels add remove current) = movedLabels add remove current := by
  ext label
  simp only [movedLabels, Finset.mem_union, Finset.mem_sdiff]
  tauto

namespace Finalization

variable (request : Finalization) (succeeded : Bool)

/-- The labels after a finalization. -/
def labelsAfter (labels : ℕ → Finset Text) : ℕ → Finset Text :=
  match request.issueNumber with
  | none => labels
  | some issue =>
    Function.update labels issue (movedLabels (addedLabels succeeded) (removedLabels succeeded) (labels issue))

private theorem labelsAfter_labelsAfter (labels : ℕ → Finset Text) :
    request.labelsAfter succeeded (request.labelsAfter succeeded labels) = request.labelsAfter succeeded labels := by
  unfold labelsAfter
  cases request.issueNumber with
  | none => rfl
  | some issue => simp [movedLabels_movedLabels]

private theorem runs_updateLabels : Runs (Exec faults) (request.updateLabels succeeded) s w fun r s' w' =>
    (w'.comments = w.comments ∧ w'.statuses = w.statuses) ∧
      (w'.labels = w.labels ∨ w'.labels = request.labelsAfter succeeded w.labels) ∧
      (∀ u, r = .ok u → w'.labels = request.labelsAfter succeeded w.labels ∧
        (request.labelsAfter succeeded w.labels = w.labels → s' = s)) ∧
      ∀ e, r = .error e → faults := by
  unfold updateLabels labelsAfter
  cases request.issueNumber with
  | none => exact runs_pure ⟨⟨rfl, rfl⟩, Or.inl rfl, fun _ _ => ⟨rfl, fun _ => rfl⟩, fun _ he => (by cases he)⟩
  | some issue =>
    refine runs_bind (P := fun r s' w' => s' = s ∧ (w'.comments = w.comments ∧ w'.statuses = w.statuses) ∧
      (w'.labels = w.labels ∨ w'.labels = Function.update w.labels issue
        (movedLabels (addedLabels succeeded) (removedLabels succeeded) (w.labels issue))) ∧
      (∀ mutations, r = .ok mutations → w'.labels = Function.update w.labels issue
          (movedLabels (addedLabels succeeded) (removedLabels succeeded) (w.labels issue)) ∧
        (movedLabels (addedLabels succeeded) (removedLabels succeeded) (w.labels issue) = w.labels issue →
          mutations = [])) ∧
      ∀ e, r = .error e → faults) ?_ ?_ ?_
    · -- the labels are read, and written only when they differ
      refine runs_bind (runs_read rfl) ?_ ?_
      · rintro e s' w' ⟨rfl, rfl, ⟨fresh, hr⟩ | ⟨hfaults, -⟩⟩
        · cases hr
        · exact ⟨rfl, ⟨rfl, rfl⟩, Or.inl rfl, fun _ hr => (by cases hr), fun _ _ => hfaults⟩
      rintro current s' w' ⟨rfl, rfl, ⟨fresh, hr⟩ | ⟨-, e, hr⟩⟩
      swap
      · cases hr
      obtain rfl : current = w'.labels issue := Except.ok.inj hr
      split
      · rename_i hsame
        refine runs_pure ⟨rfl, ⟨rfl, rfl⟩, Or.inl rfl, fun mutations hr => ⟨?_, fun _ => ?_⟩, fun _ hr => (by cases hr)⟩
        · rw [hsame, Function.update_eq_self]
        · exact (Except.ok.inj hr).symm
      · rename_i hmoved
        refine runs_bind (runs_call _) ?_ ?_
        · rintro e s' w' ⟨rfl, ⟨fresh, -, hr, -⟩ | ⟨hfaults, -, hw⟩⟩
          · cases hr
          refine ⟨rfl, ?_⟩
          rcases hw with rfl | ⟨fresh, -, rfl⟩
          · exact ⟨⟨rfl, rfl⟩, Or.inl rfl, fun _ hr => (by cases hr), fun _ _ => hfaults⟩
          · exact ⟨⟨rfl, rfl⟩, Or.inr rfl, fun _ hr => (by cases hr), fun _ _ => hfaults⟩
        · rintro u s' w' ⟨rfl, ⟨fresh, -, -, rfl⟩ | ⟨-, ⟨e, hr⟩, -⟩⟩
          · exact runs_pure ⟨rfl, ⟨rfl, rfl⟩, Or.inr rfl, fun _ _ => ⟨rfl, fun hsame => absurd hsame hmoved⟩,
              fun _ hr => (by cases hr)⟩
          · cases hr
    · rintro e s' w' ⟨rfl, hframe, hlabels, -, hfaults⟩
      exact ⟨hframe, hlabels, fun _ hr => (by cases hr), fun _ _ => hfaults e rfl⟩
    · rintro mutations s' w' ⟨rfl, hframe, hlabels, hok, -⟩
      obtain ⟨hlabels', hsame⟩ := hok mutations rfl
      refine runs_modify ⟨hframe, hlabels, fun _ _ => ⟨hlabels', fun hupdate => ?_⟩, fun _ hr => (by cases hr)⟩
      have hmoved : Function.update w.labels issue
          (movedLabels (addedLabels succeeded) (removedLabels succeeded) (w.labels issue)) issue = w.labels issue :=
        congrFun hupdate issue
      rw [Function.update_self] at hmoved
      rw [hsame hmoved, List.append_nil]

end Finalization

/-! ### The managed comment -/

private theorem isManaged_rendered (id : ℕ) (body : Text) : Comment.isManaged ⟨id, rendered body⟩ = true :=
  List.isPrefixOf_iff_prefix.2 ⟨'\n' :: body, rfl⟩

private theorem putItems_eq_self {c : Comment} {l : List Comment} (h : l.find? (fun a => a.id = c.id) = some c) :
    KeyedList.putItems Comment.id c l = l := by
  induction l with
  | nil => cases h
  | cons b l ih =>
    unfold KeyedList.putItems
    by_cases hb : b.id = c.id
    · rw [List.find?_cons_of_pos (by simpa using hb)] at h
      rw [if_pos hb, Option.some_inj.1 h]
    · rw [List.find?_cons_of_neg (by simpa using hb)] at h
      rw [if_neg hb, ih h]

private theorem put_eq_self {comments : KeyedList Comment.id} {c : Comment} (h : comments.get c.id = some c) :
    comments.put c = comments := KeyedList.ext (putItems_eq_self h)

/-- The managed comment has the text; it is the only one, and the other comments stay. -/
def Upserted (text : Text) (comments comments' : KeyedList Comment.id) : Prop :=
  ∃ id, (∀ c ∈ comments.items, c.isManaged = true → c.id = id) ∧
    (∀ c, comments.get id = some c → c.isManaged = true) ∧ comments' = comments.put ⟨id, text⟩

/-- The comment that is there is kept. -/
private theorem Upserted.again {body : Text} {comments comments' comments'' : KeyedList Comment.id}
    (h : Upserted (rendered body) comments comments') (h' : Upserted (rendered body) comments' comments'') :
    comments'' = comments' := by
  obtain ⟨id, -, -, rfl⟩ := h
  obtain ⟨id', hunique, -, rfl⟩ := h'
  have hmem : ⟨id, rendered body⟩ ∈ (comments.put ⟨id, rendered body⟩).items := KeyedList.mem_put.2 (Or.inl rfl)
  obtain rfl : id = id' := hunique _ hmem (isManaged_rendered id body)
  exact put_eq_self (KeyedList.get_put_self comments _)

/-- The managed comment is as desired afterwards. -/
private theorem Upserted.self {body : Text} {comments comments' : KeyedList Comment.id}
    (h : Upserted (rendered body) comments comments') : Upserted (rendered body) comments' comments' := by
  obtain ⟨id, hunique, -, rfl⟩ := h
  refine ⟨id, fun c hc hmanaged => ?_, fun c hc => ?_, (put_eq_self (KeyedList.get_put_self comments _)).symm⟩
  · rcases KeyedList.mem_put.1 hc with rfl | ⟨hc, -⟩
    · rfl
    · exact hunique c hc hmanaged
  · have hget : some c = some ⟨id, rendered body⟩ := hc.symm.trans (KeyedList.get_put_self comments ⟨id, rendered body⟩)
    rw [Option.some_inj.1 hget]
    exact isManaged_rendered id body

private theorem Upserted.length_le_one {text : Text} {comments comments' : KeyedList Comment.id}
    (h : Upserted text comments comments') : (comments.items.filter Comment.isManaged).length ≤ 1 := by
  obtain ⟨id, hunique, -, -⟩ := h
  have hnodup : ((comments.items.filter Comment.isManaged).map Comment.id).Nodup :=
    comments.nodup.sublist (List.filter_sublist.map Comment.id)
  have hids : ∀ c ∈ comments.items.filter Comment.isManaged, c.id = id := fun c hc =>
    hunique c (List.mem_filter.1 hc).1 (List.mem_filter.1 hc).2
  match hfilter : comments.items.filter Comment.isManaged with
  | [] => simp
  | [c] => simp
  | c :: c' :: rest =>
    rw [hfilter] at hnodup hids
    have hne : c.id ≠ c'.id := by
      intro heq
      simp [heq] at hnodup
    exact absurd ((hids c (by simp)).trans (hids c' (by simp)).symm) hne

/-- The comments of one pull request change so. -/
def Commented (text : Text) (pull : ℕ) (comments comments' : ℕ → KeyedList Comment.id) : Prop :=
  ∃ after, Upserted text (comments pull) after ∧ comments' = Function.update comments pull after

private theorem upserted_of_nil {body : Text} {comments : KeyedList Comment.id} {fresh : ℕ}
    (h : comments.items.filter Comment.isManaged = []) (hfresh : comments.get fresh = none) :
    Upserted (rendered body) comments (comments.put ⟨fresh, rendered body⟩) := by
  refine ⟨fresh, fun c hc hmanaged => ?_, fun c hc => ?_, rfl⟩
  · exact absurd hmanaged (List.filter_eq_nil_iff.1 h c hc)
  · rw [hfresh] at hc
    cases hc

private theorem upserted_of_singleton {body : Text} {comments : KeyedList Comment.id} {c : Comment}
    (h : comments.items.filter Comment.isManaged = [c]) :
    Upserted (rendered body) comments (comments.put ⟨c.id, rendered body⟩) := by
  have hc : c ∈ comments.items ∧ c.isManaged = true := List.mem_filter.1 (h ▸ List.mem_singleton_self c)
  refine ⟨c.id, fun c' hc' hmanaged => ?_, fun c' hc' => ?_, rfl⟩
  · have hmem : c' ∈ comments.items.filter Comment.isManaged := List.mem_filter.2 ⟨hc', hmanaged⟩
    rw [h] at hmem
    rw [List.mem_singleton.1 hmem]
  · rw [KeyedList.get_key hc.1] at hc'
    rw [← Option.some_inj.1 hc']
    exact hc.2

/-- The managed comment of comments that are as desired. -/
private theorem Upserted.filter {body : Text} {comments : KeyedList Comment.id}
    (h : Upserted (rendered body) comments comments) :
    ∃ id, comments.items.filter Comment.isManaged ≠ [] ∧
      ∀ c, comments.items.filter Comment.isManaged = [c] → c = ⟨id, rendered body⟩ := by
  obtain ⟨id, -, -, hput⟩ := h
  have hmem : ⟨id, rendered body⟩ ∈ comments.items := hput ▸ KeyedList.mem_put.2 (Or.inl rfl)
  have hfilter : ⟨id, rendered body⟩ ∈ comments.items.filter Comment.isManaged :=
    List.mem_filter.2 ⟨hmem, isManaged_rendered id body⟩
  refine ⟨id, List.ne_nil_of_mem hfilter, fun c hc => ?_⟩
  rw [hc] at hfilter
  exact (List.mem_singleton.1 hfilter).symm

private theorem runs_upsertPrComment (pull : ℕ) (body : Text) :
    Runs (Exec faults) (upsertPrComment pull body) s w fun r s' w' => s' = s ∧
      (w'.labels = w.labels ∧ w'.statuses = w.statuses) ∧
      (w'.comments = w.comments ∨ Commented (rendered body) pull w.comments w'.comments) ∧
      (∀ mutation, r = .ok mutation → Commented (rendered body) pull w.comments w'.comments ∧
        (Upserted (rendered body) (w.comments pull) (w.comments pull) → mutation.action = "noop")) ∧
      ∀ e, r = .error e → faults ∨ 2 ≤ ((w.comments pull).items.filter Comment.isManaged).length := by
  unfold upsertPrComment
  refine runs_bind (runs_read rfl) ?_ ?_
  · rintro e s' w' ⟨rfl, rfl, ⟨fresh, hr⟩ | ⟨hfaults, -⟩⟩
    · cases hr
    · exact ⟨rfl, ⟨rfl, rfl⟩, Or.inl rfl, fun _ hr => (by cases hr), fun _ _ => Or.inl hfaults⟩
  rintro comments s' w' ⟨rfl, rfl, ⟨fresh, hr⟩ | ⟨-, e, hr⟩⟩
  swap
  · cases hr
  obtain rfl : comments = w'.comments pull := Except.ok.inj hr
  split
  · -- there is no managed comment
    rename_i hnil
    refine runs_bind (runs_call _) ?_ ?_
    · rintro e s' w ⟨rfl, ⟨fresh, -, hr, -⟩ | ⟨hfaults, -, hw⟩⟩
      · cases hr
      refine ⟨rfl, ?_⟩
      rcases hw with rfl | ⟨fresh, hfresh, rfl⟩
      · exact ⟨⟨rfl, rfl⟩, Or.inl rfl, fun _ hr => (by cases hr), fun _ _ => Or.inl hfaults⟩
      · exact ⟨⟨rfl, rfl⟩, Or.inr ⟨_, upserted_of_nil hnil hfresh, rfl⟩, fun _ hr => (by cases hr),
          fun _ _ => Or.inl hfaults⟩
    · rintro id s' w ⟨rfl, ⟨fresh, hfresh, hr, rfl⟩ | ⟨-, ⟨e, hr⟩, -⟩⟩
      swap
      · cases hr
      obtain rfl : id = fresh := Except.ok.inj hr
      have hcommented : Commented (rendered body) pull w'.comments
          (Function.update w'.comments pull ((w'.comments pull).put ⟨id, rendered body⟩)) :=
        ⟨_, upserted_of_nil hnil hfresh, rfl⟩
      refine runs_pure ⟨rfl, ⟨rfl, rfl⟩, Or.inr hcommented, fun _ _ => ⟨hcommented, fun hdesired => ?_⟩,
        fun _ hr => (by cases hr)⟩
      obtain ⟨_, hne, -⟩ := hdesired.filter
      exact absurd hnil hne
  · -- there is one; it is kept when it has the text
    rename_i c hsingle
    have hc : c ∈ (w'.comments pull).items := (List.mem_filter.1 (hsingle ▸ List.mem_singleton_self c)).1
    split
    · rename_i hbody
      have hself : (w'.comments pull).put ⟨c.id, rendered body⟩ = w'.comments pull := by
        rw [← hbody]
        exact put_eq_self (KeyedList.get_key hc)
      have hupserted : Upserted (rendered body) (w'.comments pull) (w'.comments pull) := by
        have h : Upserted (rendered body) (w'.comments pull) ((w'.comments pull).put ⟨c.id, rendered body⟩) :=
          upserted_of_singleton hsingle
        rwa [hself] at h
      have hcommented : Commented (rendered body) pull w'.comments w'.comments :=
        ⟨_, hupserted, (Function.update_eq_self pull w'.comments).symm⟩
      refine runs_pure ⟨rfl, ⟨rfl, rfl⟩, Or.inl rfl, fun mutation hr => ⟨hcommented, fun _ => ?_⟩,
        fun _ hr => (by cases hr)⟩
      rw [← Except.ok.inj hr]
      rfl
    · rename_i hbody
      have hcommented : Commented (rendered body) pull w'.comments
          (Function.update w'.comments pull ((w'.comments pull).put ⟨c.id, rendered body⟩)) :=
        ⟨_, upserted_of_singleton hsingle, rfl⟩
      refine runs_bind (runs_call _) ?_ ?_
      · rintro e s' w ⟨rfl, ⟨fresh, -, hr, -⟩ | ⟨hfaults, -, hw⟩⟩
        · cases hr
        refine ⟨rfl, ?_⟩
        rcases hw with rfl | ⟨fresh, -, rfl⟩
        · exact ⟨⟨rfl, rfl⟩, Or.inl rfl, fun _ hr => (by cases hr), fun _ _ => Or.inl hfaults⟩
        · exact ⟨⟨rfl, rfl⟩, Or.inr hcommented, fun _ hr => (by cases hr), fun _ _ => Or.inl hfaults⟩
      · rintro u s' w ⟨rfl, ⟨fresh, -, -, rfl⟩ | ⟨-, ⟨e, hr⟩, -⟩⟩
        swap
        · cases hr
        refine runs_pure ⟨rfl, ⟨rfl, rfl⟩, Or.inr hcommented, fun _ _ => ⟨hcommented, fun hdesired => ?_⟩,
          fun _ hr => (by cases hr)⟩
        obtain ⟨_, -, hunique⟩ := hdesired.filter
        exact absurd (congrArg Comment.body (hunique c hsingle)) hbody
  · -- there are more
    rename_i hnil hsingle
    refine runs_throw ⟨rfl, ⟨rfl, rfl⟩, Or.inl rfl, fun _ hr => (by cases hr), fun _ _ => Or.inr ?_⟩
    match hfilter : (w'.comments pull).items.filter Comment.isManaged with
    | [] => exact absurd hfilter hnil
    | [c] => exact absurd hfilter (hsingle c)
    | _ :: _ :: _ => simp

namespace Finalization

variable (request : Finalization) (prior : Option PriorResult)

/-- The comments after a finalization. -/
def CommentsAfter (comments comments' : ℕ → KeyedList Comment.id) : Prop :=
  match request.prNumber with
  | none => comments' = comments
  | some pull => Commented (rendered (request.summary prior)) pull comments comments'

/-- There is more than one managed comment. -/
def Ambiguous (comments : ℕ → KeyedList Comment.id) : Prop :=
  ∃ pull, request.prNumber = some pull ∧ 2 ≤ ((comments pull).items.filter Comment.isManaged).length

private theorem CommentsAfter.again {comments comments' comments'' : ℕ → KeyedList Comment.id}
    (h : request.CommentsAfter prior comments comments') (h' : request.CommentsAfter prior comments' comments'') :
    comments'' = comments' := by
  unfold CommentsAfter at h h'
  cases hpull : request.prNumber with
  | none =>
    rw [hpull] at h'
    exact h'
  | some pull =>
    rw [hpull] at h h'
    obtain ⟨c, hc, rfl⟩ := h
    obtain ⟨c', hc', rfl⟩ := h'
    rw [Function.update_self] at hc'
    rw [hc.again hc', Function.update_idem]

private theorem runs_updateComment : Runs (Exec faults) (request.updateComment prior) s w fun r s' w' =>
    (w'.labels = w.labels ∧ w'.statuses = w.statuses) ∧
      (w'.comments = w.comments ∨ request.CommentsAfter prior w.comments w'.comments) ∧
      (∀ u, r = .ok u → request.CommentsAfter prior w.comments w'.comments ∧
        (request.CommentsAfter prior w.comments w.comments → ∀ m ∈ s', m ∈ s ∨ m.action = "noop")) ∧
      ∀ e, r = .error e → faults ∨ request.Ambiguous w.comments := by
  unfold updateComment CommentsAfter Ambiguous
  cases request.prNumber with
  | none =>
    exact runs_pure ⟨⟨rfl, rfl⟩, Or.inl rfl, fun _ _ => ⟨rfl, fun _ _ hm => Or.inl hm⟩, fun _ he => (by cases he)⟩
  | some pull =>
    refine runs_bind (runs_upsertPrComment pull _) ?_ ?_
    · rintro e s' w' ⟨rfl, hframe, hcomments, -, herror⟩
      exact ⟨hframe, hcomments, fun _ hr => (by cases hr), fun _ _ => (herror e rfl).imp_right fun h => ⟨pull, rfl, h⟩⟩
    · rintro mutation s' w' ⟨rfl, hframe, hcomments, hok, -⟩
      obtain ⟨hcommented, hnoop⟩ := hok mutation rfl
      refine runs_modify ⟨hframe, hcomments, fun _ _ => ⟨hcommented, fun hdesired m hm => ?_⟩,
        fun _ hr => (by cases hr)⟩
      rcases List.mem_append.1 hm with hm | hm
      · exact Or.inl hm
      · obtain ⟨c, hc, hself⟩ := hdesired
        have hsame : w.comments pull = c := (congrFun hself pull).trans (Function.update_self ..)
        rw [List.mem_singleton.1 hm]
        refine Or.inr (hnoop ?_)
        rwa [← hsame] at hc

/-! ### Statuses -/

variable (succeeded : Bool) (head : Option Text)

def statusAfter (existing : Option Text) : Option Text :=
  if request.Settled succeeded existing then existing else some (stateText succeeded)

private theorem statusAfter_statusAfter (existing : Option Text) :
    request.statusAfter succeeded (request.statusAfter succeeded existing) =
      request.statusAfter succeeded existing := by
  by_cases h : request.Settled succeeded existing
  · rw [statusAfter, statusAfter, if_pos h, if_pos h]
  · have hsettled : request.Settled succeeded (some (stateText succeeded)) := Or.inl rfl
    rw [statusAfter, statusAfter, if_neg h, if_pos hsettled]

/-- The statuses after a finalization. -/
def statusesAfter (statuses : Text → Text → Option Text) (sha context : Text) : Option Text :=
  if request.publishedHead succeeded head = some sha ∧ (context = changesetContext ∨ context = qualityContext) then
    request.statusAfter succeeded (statuses sha context)
  else statuses sha context

private theorem statusesAfter_statusesAfter (statuses : Text → Text → Option Text) :
    request.statusesAfter succeeded head (request.statusesAfter succeeded head statuses) =
      request.statusesAfter succeeded head statuses := by
  funext sha context
  unfold statusesAfter
  split
  · exact request.statusAfter_statusAfter succeeded _
  · rfl

/-- One status of a board. -/
private def withStatus (w : Board) (sha context : Text) (status : Option Text) : Board :=
  { w with statuses := Function.update w.statuses sha (Function.update (w.statuses sha) context status) }

private theorem withStatus_self (w : Board) (sha context : Text) :
    withStatus w sha context (w.statuses sha context) = w := by
  simp [withStatus]

private theorem runs_updateStatus (sha context : Text) :
    Runs (Exec faults) (request.updateStatus succeeded sha context) s w fun r s' w' =>
      (w' = w ∨ w' = withStatus w sha context (request.statusAfter succeeded (w.statuses sha context))) ∧
        (∀ u, r = .ok u → w' = withStatus w sha context (request.statusAfter succeeded (w.statuses sha context)) ∧
          (request.statusAfter succeeded (w.statuses sha context) = w.statuses sha context → s' = s)) ∧
        ∀ e, r = .error e → faults := by
  unfold updateStatus
  refine runs_bind (runs_read rfl) ?_ ?_
  · rintro e s' w' ⟨rfl, rfl, ⟨fresh, hr⟩ | ⟨hfaults, -⟩⟩
    · cases hr
    · exact ⟨Or.inl rfl, fun _ hr => (by cases hr), fun _ _ => hfaults⟩
  rintro existing s' w' ⟨rfl, rfl, ⟨fresh, hr⟩ | ⟨-, e, hr⟩⟩
  swap
  · cases hr
  obtain rfl : existing = w'.statuses sha context := Except.ok.inj hr
  split
  · rename_i hsettled
    refine runs_pure ⟨Or.inl rfl, fun _ _ => ⟨?_, fun _ => rfl⟩, fun _ hr => (by cases hr)⟩
    rw [statusAfter, if_pos hsettled, withStatus_self]
  · rename_i hsettled
    have hafter : request.statusAfter succeeded (w'.statuses sha context) = some (stateText succeeded) :=
      if_neg hsettled
    refine runs_bind (P := fun r s'' w'' => s'' = s' ∧ (w'' = w' ∨
      w'' = withStatus w' sha context (some (stateText succeeded))) ∧
      (∀ mutation, r = .ok mutation → w'' = withStatus w' sha context (some (stateText succeeded))) ∧
        ∀ e, r = .error e → faults) ?_ ?_ ?_
    · refine runs_bind (runs_call _) ?_ ?_
      · rintro e s'' w'' ⟨rfl, ⟨fresh, -, hr, -⟩ | ⟨hfaults, -, hw⟩⟩
        · cases hr
        · exact ⟨rfl, hw.imp_right fun ⟨fresh, _, hw⟩ => hw, fun _ hr => (by cases hr), fun _ _ => hfaults⟩
      · rintro u s'' w'' ⟨rfl, ⟨fresh, -, -, rfl⟩ | ⟨-, ⟨e, hr⟩, -⟩⟩
        · exact runs_pure ⟨rfl, Or.inr rfl, fun _ _ => rfl, fun _ hr => (by cases hr)⟩
        · cases hr
    · rintro e s'' w'' ⟨rfl, hw, -, hfaults⟩
      rw [hafter]
      exact ⟨hw, fun _ hr => (by cases hr), fun _ _ => hfaults e rfl⟩
    · rintro mutation s'' w'' ⟨rfl, hw, hok, -⟩
      rw [hafter]
      refine runs_modify ⟨hw, fun _ _ => ⟨hok mutation rfl, fun hsame => ?_⟩, fun _ hr => (by cases hr)⟩
      exact absurd (Or.inl hsame.symm) hsettled

private theorem statuses_withStatus (w : Board) (sha context sha' context' : Text) (status : Option Text) :
    (withStatus w sha context status).statuses sha' context' =
      if sha' = sha ∧ context' = context then status else w.statuses sha' context' := by
  unfold withStatus
  by_cases hsha : sha' = sha
  · subst hsha
    by_cases hcontext : context' = context
    · simp [hcontext]
    · simp [hcontext]
  · simp [hsha]

private theorem changesetContext_ne : changesetContext ≠ qualityContext := by decide

/-- The board after the first of the two statuses. -/
private def withChangeset (w : Board) (sha : Text) : Board :=
  withStatus w sha changesetContext (request.statusAfter succeeded (w.statuses sha changesetContext))

private theorem statuses_changeset {sha : Text} (h : request.publishedHead succeeded head = some sha)
    (sha' context' : Text) :
    (request.withChangeset succeeded w sha).statuses sha' context' = w.statuses sha' context' ∨
      (request.withChangeset succeeded w sha).statuses sha' context' =
        request.statusesAfter succeeded head w.statuses sha' context' := by
  unfold withChangeset
  rw [statuses_withStatus, statusesAfter]
  by_cases hplace : sha' = sha ∧ context' = changesetContext
  · obtain ⟨rfl, rfl⟩ := hplace
    right
    rw [if_pos ⟨rfl, rfl⟩, if_pos ⟨h, Or.inl rfl⟩]
  · exact Or.inl (if_neg hplace)

private theorem statuses_both {sha : Text} (h : request.publishedHead succeeded head = some sha) :
    (withStatus (request.withChangeset succeeded w sha) sha qualityContext
      (request.statusAfter succeeded (w.statuses sha qualityContext))).statuses =
        request.statusesAfter succeeded head w.statuses := by
  unfold withChangeset
  funext sha' context'
  rw [statuses_withStatus, statuses_withStatus, statusesAfter, h]
  by_cases hsha : sha' = sha
  · subst hsha
    by_cases hquality : context' = qualityContext
    · simp [hquality]
    · by_cases hchangeset : context' = changesetContext
      · simp [hchangeset, changesetContext_ne]
      · simp [hquality, hchangeset]
  · simp [hsha, Ne.symm hsha]

private theorem runs_updateStatuses : Runs (Exec faults) (request.updateStatuses succeeded head) s w fun r s' w' =>
    (w'.labels = w.labels ∧ w'.comments = w.comments) ∧
      (∀ sha context, w'.statuses sha context = w.statuses sha context ∨
        w'.statuses sha context = request.statusesAfter succeeded head w.statuses sha context) ∧
      (∀ u, r = .ok u → w'.statuses = request.statusesAfter succeeded head w.statuses ∧
        (request.statusesAfter succeeded head w.statuses = w.statuses → s' = s)) ∧
      ∀ e, r = .error e → faults := by
  unfold updateStatuses
  cases hhead : request.publishedHead succeeded head with
  | none =>
    have hsame : request.statusesAfter succeeded head w.statuses = w.statuses := by
      funext sha context
      simp [statusesAfter, hhead]
    exact runs_pure ⟨⟨rfl, rfl⟩, fun _ _ => Or.inl rfl, fun _ _ => ⟨hsame.symm, fun _ => rfl⟩,
      fun _ hr => (by cases hr)⟩
  | some sha =>
    have hboth := request.statuses_both succeeded head (w := w) hhead
    -- the first status is settled before the second one, so that an error leaves a part of both
    refine runs_bind (request.runs_updateStatus succeeded sha changesetContext) ?_ ?_
    · rintro e s' w' ⟨rfl | rfl, -, hfaults⟩
      · exact ⟨⟨rfl, rfl⟩, fun _ _ => Or.inl rfl, fun _ hr => (by cases hr), fun _ _ => hfaults e rfl⟩
      · exact ⟨⟨rfl, rfl⟩, request.statuses_changeset succeeded head hhead, fun _ hr => (by cases hr),
          fun _ _ => hfaults e rfl⟩
    rintro u s' w₁ ⟨-, hok, -⟩
    obtain ⟨hw₁, hsame₁⟩ := hok u rfl
    obtain rfl : w₁ = request.withChangeset succeeded w sha := hw₁
    refine (request.runs_updateStatus succeeded sha qualityContext).mono ?_
    have hquality : (request.withChangeset succeeded w sha).statuses sha qualityContext =
        w.statuses sha qualityContext := by
      unfold withChangeset
      rw [statuses_withStatus, if_neg (fun h => changesetContext_ne h.2.symm)]
    rw [hquality]
    rintro r s'' w₂ ⟨hw₂, hok₂, hfaults⟩
    have hpart : ∀ sha' context', w₂.statuses sha' context' = w.statuses sha' context' ∨
        w₂.statuses sha' context' = request.statusesAfter succeeded head w.statuses sha' context' := by
      rcases hw₂ with rfl | rfl
      · exact request.statuses_changeset succeeded head hhead
      · exact fun sha' context' => Or.inr (congrFun (congrFun hboth sha') context')
    have hframe : w₂.labels = w.labels ∧ w₂.comments = w.comments := by
      rcases hw₂ with rfl | rfl
      · exact ⟨rfl, rfl⟩
      · exact ⟨rfl, rfl⟩
    refine ⟨hframe, hpart, fun u' hr => ?_, hfaults⟩
    obtain ⟨rfl, hsame₂⟩ := hok₂ u' hr
    refine ⟨hboth, fun hsame => ?_⟩
    have hvalue : ∀ context, context = changesetContext ∨ context = qualityContext →
        request.statusAfter succeeded (w.statuses sha context) = w.statuses sha context := by
      intro context hcontext
      have hplace : request.statusesAfter succeeded head w.statuses sha context = w.statuses sha context :=
        congrFun (congrFun hsame sha) context
      rwa [statusesAfter, if_pos ⟨hhead, hcontext⟩] at hplace
    rw [hsame₂ (hvalue qualityContext (Or.inr rfl)), hsame₁ (hvalue changesetContext (Or.inl rfl))]

/-! ### A finalization -/

/-- What a finalization that returns has done. -/
structure Completed (w w' : Board) : Prop where
  labels : w'.labels = request.labelsAfter (request.succeeded prior) w.labels
  comments : request.CommentsAfter prior w.comments w'.comments
  statuses : w'.statuses = request.statusesAfter (request.succeeded prior) head w.statuses

/-- What a finalization has done at any time. -/
structure Toward (w w' : Board) : Prop where
  labels : w'.labels = w.labels ∨ w'.labels = request.labelsAfter (request.succeeded prior) w.labels
  comments : w'.comments = w.comments ∨ request.CommentsAfter prior w.comments w'.comments
  statuses : ∀ sha context, w'.statuses sha context = w.statuses sha context ∨
    w'.statuses sha context = request.statusesAfter (request.succeeded prior) head w.statuses sha context

section Steps

variable {request : Finalization} {prior : Option PriorResult} {head : Option Text} {w w' w'' : Board}

private theorem statusesAfter_congr {statuses statuses' : Text → Text → Option Text} {sha context : Text}
    {succeeded : Bool} (h : statuses' sha context = statuses sha context) :
    request.statusesAfter succeeded head statuses' sha context =
      request.statusesAfter succeeded head statuses sha context := by
  rw [statusesAfter, statusesAfter, h]

private theorem statusesAfter_again {statuses statuses' : Text → Text → Option Text} {sha context : Text}
    {succeeded : Bool} (h : statuses' sha context = request.statusesAfter succeeded head statuses sha context) :
    request.statusesAfter succeeded head statuses' sha context =
      request.statusesAfter succeeded head statuses sha context :=
  (statusesAfter_congr h).trans (congrFun (congrFun (request.statusesAfter_statusesAfter succeeded head statuses) sha)
    context)

theorem Toward.refl (w : Board) : request.Toward prior head w w := ⟨Or.inl rfl, Or.inl rfl, fun _ _ => Or.inl rfl⟩

theorem Toward.trans (h : request.Toward prior head w w') (h' : request.Toward prior head w' w'') :
    request.Toward prior head w w'' := by
  refine ⟨?_, ?_, fun sha context => ?_⟩
  · rcases h'.labels with hlabels' | hlabels'
    · rw [hlabels']
      exact h.labels
    · rcases h.labels with hlabels | hlabels
      · exact Or.inr (hlabels'.trans (by rw [hlabels]))
      · exact Or.inr (hlabels'.trans (by rw [hlabels, labelsAfter_labelsAfter]))
  · rcases h'.comments with hcomments' | hcomments'
    · rw [hcomments']
      exact h.comments
    · rcases h.comments with hcomments | hcomments
      · exact Or.inr (hcomments ▸ hcomments')
      · rw [hcomments.again request prior hcomments']
        exact Or.inr hcomments
  · rcases h'.statuses sha context with hstatus' | hstatus'
    · rw [hstatus']
      exact h.statuses sha context
    · rcases h.statuses sha context with hstatus | hstatus
      · exact Or.inr (hstatus'.trans (statusesAfter_congr hstatus))
      · exact Or.inr (hstatus'.trans (statusesAfter_again hstatus))

/-- What came before a finalization that returns was on its way. -/
theorem Completed.of_toward (h : request.Toward prior head w w') (h' : request.Completed prior head w' w'') :
    request.Completed prior head w w'' := by
  refine ⟨?_, ?_, ?_⟩
  · rcases h.labels with hlabels | hlabels
    · rw [h'.labels, hlabels]
    · rw [h'.labels, hlabels, labelsAfter_labelsAfter]
  · rcases h.comments with hcomments | hcomments
    · exact hcomments ▸ h'.comments
    · rw [hcomments.again request prior h'.comments]
      exact hcomments
  · funext sha context
    rw [h'.statuses]
    rcases h.statuses sha context with hstatus | hstatus
    · exact statusesAfter_congr hstatus
    · exact statusesAfter_again hstatus

/-- In the state that a finalization leaves there is nothing left to do. -/
theorem Completed.steady (h : request.Completed prior head w w') : request.Completed prior head w' w' := by
  refine ⟨?_, ?_, ?_⟩
  · rw [h.labels, labelsAfter_labelsAfter]
  · have hcomments := h.comments
    unfold CommentsAfter at hcomments ⊢
    cases hpull : request.prNumber with
    | none => rfl
    | some pull =>
      rw [hpull] at hcomments
      obtain ⟨c, hc, hupdate⟩ := hcomments
      have hself : w'.comments pull = c := by
        rw [hupdate, Function.update_self]
      exact ⟨c, hself ▸ hc.self, by rw [← hself, Function.update_eq_self]⟩
  · rw [h.statuses, statusesAfter_statusesAfter]

theorem Toward.eq_of_steady (h : request.Toward prior head w w') (hsteady : request.Completed prior head w w) :
    w' = w := by
  have hlabels : w'.labels = w.labels := h.labels.elim id fun hlabels => hlabels.trans hsteady.labels.symm
  have hcomments : w'.comments = w.comments := h.comments.elim id (hsteady.comments.again request prior)
  have hstatuses : w'.statuses = w.statuses := by
    funext sha context
    exact (h.statuses sha context).elim id fun hstatus =>
      hstatus.trans (congrFun (congrFun hsteady.statuses.symm sha) context)
  cases w
  cases w'
  simp only [Board.mk.injEq]
  exact ⟨hlabels, hcomments, hstatuses⟩

/-- A finalization that returns has found one managed comment at most. -/
theorem Completed.not_ambiguous (h : request.Completed prior head w w') : ¬ request.Ambiguous w.comments := by
  rintro ⟨pull, hpull, hlength⟩
  have hcomments := h.comments
  rw [CommentsAfter, hpull] at hcomments
  obtain ⟨c, hc, -⟩ := hcomments
  have hle := hc.length_le_one
  omega

end Steps

private theorem runs_finalize {prior : Option PriorResult} {head : Option Text} (hprior : request.prior = .ok prior)
    (hhead : request.knownHead prior = .ok head) (w : Board) :
    Runs (Exec faults) request.finalize [] w fun r _ w' => request.Toward prior head w w' ∧
      (∀ result, r = .ok result → request.Completed prior head w w' ∧
        (request.Completed prior head w w → result.status = .noop)) ∧
      ∀ e, r = .error e → faults ∨ request.Ambiguous w.comments ∨ request.repository ≠ request.root := by
  unfold finalize
  refine runs_ofResult_bind (fun e he => ?_) fun _ _ => ?_
  · exact ⟨Toward.refl w, fun _ hr => (by cases hr), fun _ _ => Or.inr (Or.inr (of_failIf_eq_error he).1)⟩
  rw [hprior]
  refine runs_ofResult_bind (fun _ hr => (by cases hr)) ?_
  rintro _ ⟨⟩
  rw [hhead]
  refine runs_ofResult_bind (fun _ hr => (by cases hr)) ?_
  rintro _ ⟨⟩
  refine runs_bind (request.runs_updateLabels _) ?_ ?_
  · rintro e s₁ w₁ ⟨⟨hcomments, hstatuses⟩, hlabels, -, hfaults⟩
    exact ⟨⟨hlabels, Or.inl hcomments, fun sha context => Or.inl (by rw [hstatuses])⟩, fun _ hr => (by cases hr),
      fun _ _ => Or.inl (hfaults e rfl)⟩
  rintro u s₁ w₁ ⟨⟨hcomments₁, hstatuses₁⟩, -, hok₁, -⟩
  obtain ⟨hlabels₁, hsame₁⟩ := hok₁ u rfl
  refine runs_bind (request.runs_updateComment prior) ?_ ?_
  · rintro e s₂ w₂ ⟨⟨hlabels, hstatuses⟩, hcomments, -, herror⟩
    rw [hcomments₁] at hcomments herror
    exact ⟨⟨Or.inr (hlabels.trans hlabels₁), hcomments, fun sha context => Or.inl (by rw [hstatuses, hstatuses₁])⟩,
      fun _ hr => (by cases hr), fun _ _ => (herror e rfl).imp_right Or.inl⟩
  rintro u' s₂ w₂ ⟨⟨hlabels₂, hstatuses₂⟩, -, hok₂, -⟩
  obtain ⟨hcomments₂, hnoop₂⟩ := hok₂ u' rfl
  rw [hcomments₁] at hcomments₂ hnoop₂
  refine runs_bind (request.runs_updateStatuses _ head) ?_ ?_
  · rintro e s₃ w₃ ⟨⟨hlabels, hcomments⟩, hstatuses, -, hfaults⟩
    rw [hstatuses₂, hstatuses₁] at hstatuses
    exact ⟨⟨Or.inr (hlabels.trans (hlabels₂.trans hlabels₁)), Or.inr (hcomments ▸ hcomments₂), hstatuses⟩,
      fun _ hr => (by cases hr), fun _ _ => Or.inl (hfaults e rfl)⟩
  rintro u'' s₃ w₃ ⟨⟨hlabels₃, hcomments₃⟩, hstatuses₃, hok₃, -⟩
  obtain ⟨hstatuses, hsame₃⟩ := hok₃ u'' rfl
  rw [hstatuses₂, hstatuses₁] at hstatuses₃ hstatuses hsame₃
  have hcompleted : request.Completed prior head w w₃ :=
    ⟨hlabels₃.trans (hlabels₂.trans hlabels₁), hcomments₃ ▸ hcomments₂, hstatuses⟩
  refine runs_get_bind (runs_pure ⟨⟨Or.inr hcompleted.labels, Or.inr hcompleted.comments, hstatuses₃⟩,
    fun result hr => ⟨hcompleted, fun hsteady => ?_⟩, fun _ hr => (by cases hr)⟩)
  -- a board that is as desired leaves one mutation at most, that of the comment that is kept
  have hnoop : ¬ ∃ m ∈ s₃, m.action ≠ "noop" := by
    rintro ⟨m, hm, haction⟩
    rw [hsame₃ hsteady.statuses.symm] at hm
    rcases hnoop₂ hsteady.comments m hm with hm | hm
    · rw [hsame₁ hsteady.labels.symm] at hm
      cases hm
    · exact haction hm
  rw [← Except.ok.inj hr]
  exact if_neg hnoop

/-- A finalization that returns has loaded its request. -/
private theorem runs_loaded (w : Board) : Runs (Exec faults) request.finalize [] w fun r _ _ =>
    ∀ result, r = .ok result → request.repository = request.root ∧
      ∃ prior head, request.prior = .ok prior ∧ request.knownHead prior = .ok head := by
  by_cases hrepository : request.repository = request.root
  swap
  · unfold finalize
    refine runs_ofResult_bind (fun _ _ _ hr => (by cases hr)) fun u hu => ?_
    exact absurd hrepository (failIf_eq_ok.1 hu)
  cases hprior : request.prior with
  | error e =>
    unfold finalize
    refine runs_ofResult_bind (fun _ _ _ hr => (by cases hr)) fun _ _ => ?_
    rw [hprior]
    exact runs_ofResult_bind (fun _ _ _ hr => (by cases hr)) fun _ hr => (by cases hr)
  | ok prior =>
    cases hhead : request.knownHead prior with
    | error e =>
      unfold finalize
      refine runs_ofResult_bind (fun _ _ _ hr => (by cases hr)) fun _ _ => ?_
      rw [hprior]
      refine runs_ofResult_bind (fun _ hr => (by cases hr)) ?_
      rintro _ ⟨⟩
      rw [hhead]
      exact runs_ofResult_bind (fun _ _ _ hr => (by cases hr)) fun _ hr => (by cases hr)
    | ok head =>
      exact (request.runs_finalize hprior hhead w).mono fun _ _ _ _ _ _ => ⟨hrepository, prior, head, rfl, hhead⟩

/-- Each head that the request or the result file gives is forty lowercase hexadecimal digits, and the two are one head
where both are given. -/
structure HeadsAgree (prior : Option PriorResult) : Prop where
  requested : ∀ t, request.expectedHead = some t → t.length = 40 ∧ ∀ c ∈ t, isLowerHex c = true
  reported : ∀ t, priorHead prior = some t → t.length = 40 ∧ ∀ c ∈ t, isLowerHex c = true
  same : ∀ t t', request.expectedHead = some t → priorHead prior = some t' → t = t'

private theorem isHead_iff {t : Text} : isHead t = true ↔ t.length = 40 ∧ ∀ c ∈ t, isLowerHex c = true := by
  unfold isHead
  rw [Bool.and_eq_true, List.all_eq_true, beq_iff_eq, and_comm]

private theorem length_eraseDups_le_one {l : List Text} :
    l.eraseDups.length ≤ 1 ↔ ∀ t ∈ l, ∀ t' ∈ l, t = t' := by
  constructor
  · intro hlength t ht t' ht'
    rw [← List.mem_eraseDups] at ht ht'
    obtain ⟨a, ha⟩ := List.length_eq_one_iff.1 (le_antisymm hlength (List.length_pos_of_mem ht))
    rw [ha, List.mem_singleton] at ht ht'
    rw [ht, ht']
  · intro hsame
    have hnodup := nodup_eraseDups l
    match herase : l.eraseDups with
    | [] => simp
    | [t] => simp
    | t :: t' :: rest =>
      have hmem : ∀ a ∈ t :: t' :: rest, a ∈ l := fun a ha => List.mem_eraseDups.1 (herase ▸ ha)
      rw [herase, hsame t (hmem t (by simp)) t' (hmem t' (by simp))] at hnodup
      simp at hnodup

/-- The heads that are given are known exactly when they are well formed and agree. -/
private theorem exists_knownHead_iff {prior : Option PriorResult} :
    (∃ head, request.knownHead prior = .ok head) ↔ request.HeadsAgree prior := by
  have hknown : (∃ head, request.knownHead prior = .ok head) ↔
      (∀ t ∈ request.expectedHead.toList ++ (priorHead prior).toList, isHead t = true) ∧
        (request.expectedHead.toList ++ (priorHead prior).toList).eraseDups.length ≤ 1 := by
    unfold knownHead
    simp only [failIf_bind_eq_ok, pure_eq_ok, not_exists, not_and, Bool.not_eq_false, not_lt]
    exact ⟨fun ⟨_, hheads, hlength, _⟩ => ⟨hheads, hlength⟩, fun ⟨hheads, hlength⟩ => ⟨_, hheads, hlength, rfl⟩⟩
  rw [hknown, length_eraseDups_le_one]
  simp only [List.mem_append, Option.mem_toList, isHead_iff]
  constructor
  · rintro ⟨hheads, hsame⟩
    exact ⟨fun t ht => hheads t (Or.inl ht), fun t ht => hheads t (Or.inr ht),
      fun t t' ht ht' => hsame t (Or.inl ht) t' (Or.inr ht')⟩
  · intro h
    refine ⟨fun t ht => ht.elim (h.requested t) (h.reported t), ?_⟩
    rintro t (ht | ht) t' (ht' | ht')
    · exact Option.mem_unique ht ht'
    · exact h.same t t' ht ht'
    · exact (h.same t' t ht' ht).symm
    · exact Option.mem_unique ht ht'

/-- Every call ends. -/
private theorem exec_total (faults : Prop) (c : Call) (w : Board) : ∃ r w', Exec faults c w r w' := by
  cases c with
  | postComment pull body =>
    obtain ⟨fresh, hfresh⟩ := Infinite.exists_notMem_finset ((w.comments pull).items.map Comment.id).toFinset
    refine ⟨_, _, .answered _ w fresh (KeyedList.get_eq_none.2 fun c hc hid => hfresh ?_)⟩
    exact List.mem_toFinset.2 (List.mem_map.2 ⟨c, hc, hid⟩)
  | _ => exact ⟨_, _, .answered _ w 0 trivial⟩

/-- One finalization of the request, with failing calls. -/
def FinalizedOnce (w w' : Board) : Prop := ∃ r, Program.Alone (Exec True) request.program w r w'

end Finalization

variable {request : Finalization}

private theorem toward_of_finalized {prior : Option PriorResult} {head : Option Text}
    (hprior : request.prior = .ok prior) (hhead : request.knownHead prior = .ok head) {w w' : Board}
    (h : Relation.ReflTransGen request.FinalizedOnce w w') : request.Toward prior head w w' := by
  induction h with
  | refl => exact Finalization.Toward.refl w
  | tail _ hstep ih =>
    obtain ⟨⟨r, mutations⟩, hrun⟩ := hstep
    exact ih.trans ((request.runs_finalize hprior hhead _).of_alone hrun).1

/-- After any finalizations of a request with failing calls, one that returns has done what a single one does, and
another finalization changes nothing. -/
theorem finalize_completes {w w₁ w₂ : Board} (hearlier : Relation.ReflTransGen request.FinalizedOnce w w₁)
    {result : FinalResult} {mutations : List MutationRecord}
    (hrun : Program.Alone (Exec True) request.program w₁ (.ok result, mutations) w₂) :
    ∃ prior head, request.prior = .ok prior ∧ request.knownHead prior = .ok head ∧
      request.Completed prior head w w₂ ∧ ∀ r w₃, Program.Alone (Exec True) request.program w₂ r w₃ →
        w₃ = w₂ ∧ ∀ result', r.1 = .ok result' → result'.status = .noop := by
  obtain ⟨-, prior, head, hprior, hhead⟩ := (request.runs_loaded w₁).of_alone hrun result rfl
  have hcompleted : request.Completed prior head w₁ w₂ :=
    (((request.runs_finalize hprior hhead w₁).of_alone hrun).2.1 result rfl).1
  refine ⟨prior, head, hprior, hhead, hcompleted.of_toward (toward_of_finalized hprior hhead hearlier), ?_⟩
  rintro ⟨r, mutations'⟩ w₃ hagain
  obtain ⟨htoward, hok, -⟩ := (request.runs_finalize hprior hhead w₂).of_alone hagain
  exact ⟨htoward.eq_of_steady hcompleted.steady, fun result' hr => (hok result' hr).2 hcompleted.steady⟩

private theorem returns_of_unique (hrepository : request.repository = request.root) {prior : Option PriorResult}
    {head : Option Text} (hprior : request.prior = .ok prior) (hhead : request.knownHead prior = .ok head) {w : Board}
    (hunique : ¬ request.Ambiguous w.comments) {r : Except WorkflowError FinalResult} {mutations : List MutationRecord}
    {w' : Board} (hrun : Program.Alone (Exec False) request.program w (r, mutations) w') :
    ∃ result, r = .ok result := by
  cases r with
  | ok result => exact ⟨result, rfl⟩
  | error e =>
    rcases ((request.runs_finalize hprior hhead w).of_alone hrun).2.2 e rfl with hfaults | hambiguous | hother
    · exact hfaults.elim
    · exact absurd hambiguous hunique
    · exact absurd hrepository hother

/-- Without failing calls a finalization ends, and it returns exactly when the repository is its own, the result file is
read, the heads are well formed and agree, and there is one managed comment at most. -/
theorem finalize_returns_iff (request : Finalization) (w : Board) :
    (∃ r w', Program.Alone (Exec False) request.program w r w') ∧
      ∀ r w', Program.Alone (Exec False) request.program w r w' →
        ((∃ result, r.1 = .ok result) ↔ request.repository = request.root ∧
          ∃ prior, request.prior = .ok prior ∧ request.HeadsAgree prior ∧ ¬ request.Ambiguous w.comments) := by
  refine ⟨Program.exists_alone (Finalization.exec_total False) request.program w, ?_⟩
  rintro ⟨r, mutations⟩ w' hrun
  constructor
  · rintro ⟨result, rfl⟩
    obtain ⟨hrepository, prior, head, hprior, hhead⟩ := (request.runs_loaded w).of_alone hrun result rfl
    have hcompleted := (((request.runs_finalize hprior hhead w).of_alone hrun).2.1 result rfl).1
    exact ⟨hrepository, prior, hprior, request.exists_knownHead_iff.1 ⟨head, hhead⟩, hcompleted.not_ambiguous⟩
  · rintro ⟨hrepository, prior, hprior, hagree, hunique⟩
    obtain ⟨head, hhead⟩ := request.exists_knownHead_iff.2 hagree
    exact returns_of_unique hrepository hprior hhead hunique hrun

/-! ### An example -/

private def exampleHead : Text := List.replicate 40 'a'

private def failedRequest : Finalization :=
  ⟨['r'], ['r'], .failure, .ok none, some 3, some 7, some exampleHead, [], false, false⟩

/-- The issue is being processed, and of the statuses only that of the quality gate is settled. -/
private def startedBoard : Board where
  labels _ := {processingLabel}
  comments _ := KeyedList.empty Comment.id
  statuses _ context := if context = qualityContext then some "success".toList else some "pending".toList

/-- The board when the first finalization stops: the label is moved and the comment is there. -/
private def interruptedBoard : Board :=
  Call.after 5 (Call.after 0 startedBoard (.putLabels 3 {failedLabel}))
    (.postComment 7 (rendered (failedRequest.summary none)))

private theorem failedRequest_interrupted :
    Relation.ReflTransGen failedRequest.FinalizedOnce startedBoard interruptedBoard :=
  .single ⟨_, .call (.ok {processingLabel}) (.answered (.getLabels 3) startedBoard 0 trivial) <|
    .call (.ok ()) (.answered (.putLabels 3 {failedLabel}) startedBoard 0 trivial) <|
    .call (.ok (KeyedList.empty Comment.id)) (.answered (.listComments 7) _ 0 trivial) <|
    .call (.error (.transient "GITHUB_FAILED" [])) (.lost (.postComment 7 _) _ 5 _ trivial rfl) (.done _ _)⟩

private theorem interruptedBoard_returns : ∃ result mutations w,
    Program.Alone (Exec True) failedRequest.program interruptedBoard (.ok result, mutations) w := by
  have hhead : failedRequest.knownHead none = .ok (some exampleHead) := by decide
  have hunique : ¬ failedRequest.Ambiguous interruptedBoard.comments := by
    rintro ⟨pull, hpull, hlength⟩
    obtain rfl : 7 = pull := Option.some_inj.1 hpull
    revert hlength
    decide
  obtain ⟨⟨r, mutations⟩, w, hrun⟩ :=
    Program.exists_alone (Finalization.exec_total False) failedRequest.program interruptedBoard
  obtain ⟨result, rfl⟩ := returns_of_unique rfl rfl hhead hunique hrun
  refine ⟨result, mutations, w, hrun.mono fun c u r u' hexec => ?_⟩
  cases hexec with
  | answered fresh h => exact .answered _ _ fresh h
  | failed e h => exact h.elim
  | lost fresh e h => exact h.elim

/-- A finalization loses the answer to its comment and is run again: there is one comment, the open status is settled
and the other one is kept, and a third finalization changes nothing. -/
theorem finalize_completes_interrupted :
    ∃ w : Board, w.labels 3 = {failedLabel} ∧ w.labels 4 = {processingLabel} ∧
      (∃ id, (w.comments 7).items = [⟨id, rendered (failedRequest.summary none)⟩]) ∧
      w.statuses exampleHead changesetContext = some "failure".toList ∧
      w.statuses exampleHead qualityContext = some "success".toList ∧
      ∀ r w', Program.Alone (Exec True) failedRequest.program w r w' → w' = w := by
  obtain ⟨result, mutations, w, hrun⟩ := interruptedBoard_returns
  obtain ⟨prior, head, hprior, hhead, hcompleted, hagain⟩ := finalize_completes failedRequest_interrupted hrun
  obtain rfl : none = prior := Except.ok.inj hprior
  have hknown : failedRequest.knownHead none = .ok (some exampleHead) := by decide
  obtain rfl : some exampleHead = head := Except.ok.inj (hknown.symm.trans hhead)
  refine ⟨w, ?_, ?_, ?_, ?_, ?_, fun r w' h => (hagain r w' h).1⟩
  · rw [hcompleted.labels]
    decide
  · rw [hcompleted.labels]
    rfl
  · obtain ⟨comments, ⟨id, -, -, hput⟩, hcomments⟩ := hcompleted.comments
    refine ⟨id, ?_⟩
    rw [hcomments, Function.update_self, hput]
    rfl
  · rw [hcompleted.statuses]
    decide
  · rw [hcompleted.statuses]
    decide

end Finalizing

end ArdOssie
