import ArdOssie.Library.KeyedList
import ArdOssie.Library.Results
import ArdOssie.Pipeline.Drafts
import ArdOssie.Pipeline.NamedRecords

/-!
# Metrics

The metrics that a model suggests become records of the product.  A suggestion that matches a record by name or alias
keeps its identifier and renames it; the records without a suggestion stay as they are, those with an excluded name are
left out.
-/

namespace ArdOssie

structure MetricSuggestion where
  name : Text
  expression : Text
  description : Option Text
  synonyms : List Text
  confidence : ℚ
  evidence : List Evidence
  confidence_mem : 0 ≤ confidence ∧ confidence ≤ 1
  evidence_ne : evidence ≠ []

structure MetricIR where
  metricId : MetricId
  name : Text
  expression : Text
  description : Option Text
  synonyms : List Text
  evidence : List Evidence
  evidence_ne : evidence ≠ []

/-- The variables of the loop of `_build_metrics`. -/
structure MetricState where
  recordsById : KeyedList fun r : MetricRecord => r.id
  metrics : List MetricIR
  seenNames : List Text

section Build

variable (platform : Platform)

/-- The name and the aliases of a record, folded. -/
def identityKeys (record : MetricRecord) : List Text :=
  platform.casefold record.name :: record.aliases.map platform.casefold

/-- `_validate_metric_name_collisions` -/
def validateMetricNameCollisions (suggestions : List MetricSuggestion) (existing : List MetricRecord)
    (excludedNames : List Text) : PyResult Unit := do
  let acceptedNames := suggestions.map fun s => platform.casefold s.name.strip
  let excludedKeys := excludedNames.map platform.casefold
  raiseIf (¬ acceptedNames.Nodup ∨ ∃ k ∈ acceptedNames, k ∈ excludedKeys) (.valueError "LLM_METRIC_NAME_DUPLICATE")
  existing.forM fun record =>
    raiseIf ((∃ k ∈ identityKeys platform record, k ∈ acceptedNames) ∧
      ∃ k ∈ identityKeys platform record, k ∈ excludedKeys) (.valueError "LLM_METRIC_NAME_DUPLICATE")

/-- The records whose name and aliases are not excluded. -/
def keptMetrics (existing : List MetricRecord) (excludedNames : List Text) : List MetricRecord :=
  existing.filter fun record => ∀ k ∈ identityKeys platform record, k ∉ excludedNames.map platform.casefold

/-- One round of the loop of `_build_metrics`. -/
def buildMetric (existing : List MetricRecord) (s : MetricState) (suggestion : MetricSuggestion) (newId : MetricId) :
    PyResult MetricState :=
  if suggestion.confidence < 7 / 10 then .ok s
  else do
    let name := suggestion.name.strip
    let nameKey := platform.casefold name
    raiseIf (nameKey ∈ s.seenNames) (.valueError ("LLM_METRIC_NAME_DUPLICATE: " ++ String.ofList suggestion.name))
    let matched := answeringRecord platform existing name
    raiseIf (∃ m ∈ matched, m.status = .retired) (.valueError ("RETIRED_METRIC_REUSE: " ++
      String.ofList ((matched.map fun m => m.id.text).getD [])))
    let record := reconciledRecord platform existing name newId
    return ⟨s.recordsById.put record,
      s.metrics ++ [⟨record.id, name, suggestion.expression.strip, suggestion.description, suggestion.synonyms,
        suggestion.evidence, suggestion.evidence_ne⟩], s.seenNames ++ [nameKey]⟩

/-- `_build_metrics`; `newId i` is the identifier that `new_id` gives for the suggestion `i`. -/
def buildMetrics (suggestions : List MetricSuggestion) (existingProduct : Option (ProductRecord platform))
    (excludedNames : List Text) (newId : ℕ → MetricId) : PyResult (List MetricIR × List MetricRecord) := do
  let records := (existingProduct.map fun p => p.metrics).getD []
  validateMetricNameCollisions platform suggestions records excludedNames
  let existing := keptMetrics platform records excludedNames
  let s ← suggestions.zipIdx.foldlM (fun s p => buildMetric platform existing s p.1 (newId p.2))
    ⟨KeyedList.ofList _ existing, [], []⟩
  return (sortBy (fun m => m.metricId) s.metrics, sortBy (fun r => r.id) s.recordsById.items)

end Build

/-! ### A run of the loop -/

section Run

variable {platform : Platform} {existing : List MetricRecord} {newId : ℕ → MetricId}

/-- The names of the suggestions that are taken, with the identifiers for new records. -/
def assignedNames (newId : ℕ → MetricId) (suggestions : List (MetricSuggestion × ℕ)) : List (Text × MetricId) :=
  (suggestions.filter fun p => ¬ p.1.confidence < 7 / 10).map fun p => (p.1.name.strip, newId p.2)

/-- What the loop has written when no suggestion was refused. -/
private structure MetricRun (platform : Platform) (existing : List MetricRecord) (assigned : List (Text × MetricId))
    (s s' : MetricState) : Prop where
  records : s'.recordsById = (assigned.map fun a => reconciledRecord platform existing a.1 a.2).foldl
    KeyedList.put s.recordsById
  ids : s'.metrics.map (·.metricId) =
    s.metrics.map (·.metricId) ++ assigned.map fun a => (reconciledRecord platform existing a.1 a.2).id
  seen : s'.seenNames = s.seenNames ++ assigned.map fun a => platform.casefold a.1
  nodup : s.seenNames.Nodup → s'.seenNames.Nodup
  active : ∀ a ∈ assigned, ∀ m, answeringRecord platform existing a.1 = some m → m.status ≠ .retired

private theorem metricRun_step {s s' : MetricState} {p : MetricSuggestion × ℕ}
    (h : buildMetric platform existing s p.1 (newId p.2) = .ok s') :
    MetricRun platform existing (assignedNames newId [p]) s s' := by
  unfold buildMetric at h
  split at h
  · next hlow =>
    -- an uncertain suggestion is passed over
    cases h
    have hnone : assignedNames newId [p] = [] := by
      have hneg : ¬ (decide (¬ p.1.confidence < 7 / 10)) = true := by
        rw [decide_eq_true_eq, not_not]
        exact hlow
      rw [assignedNames, List.filter_cons, if_neg hneg]
      rfl
    rw [hnone]
    exact ⟨rfl, by simp, by simp, id, fun a ha => absurd ha List.not_mem_nil⟩
  · next hhigh =>
    obtain ⟨hseen, h⟩ := raiseIf_bind_eq_ok.1 h
    obtain ⟨hretired, h⟩ := raiseIf_bind_eq_ok.1 h
    cases pure_eq_ok.1 h
    have hone : assignedNames newId [p] = [(p.1.name.strip, newId p.2)] := by
      rw [assignedNames, List.filter_cons, if_pos (decide_eq_true hhigh)]
      rfl
    rw [hone]
    refine ⟨rfl, by simp, rfl, ?_, ?_⟩
    · intro hnodup
      exact hnodup.append (List.nodup_singleton _) (by simpa using hseen)
    · intro a ha m hm hstatus
      rw [List.mem_singleton.1 ha] at hm
      exact hretired ⟨m, hm, hstatus⟩

private theorem metricRun_append {l l' : List (Text × MetricId)} {s s₁ s' : MetricState}
    (h : MetricRun platform existing l s s₁) (h' : MetricRun platform existing l' s₁ s') :
    MetricRun platform existing (l ++ l') s s' := by
  refine ⟨?_, ?_, ?_, fun hs => h'.nodup (h.nodup hs), ?_⟩
  · rw [h'.records, h.records, List.map_append, List.foldl_append]
  · rw [h'.ids, h.ids, List.map_append, List.append_assoc]
  · rw [h'.seen, h.seen, List.map_append, List.append_assoc]
  · intro a ha
    rcases List.mem_append.1 ha with ha | ha
    · exact h.active a ha
    · exact h'.active a ha

private theorem metricRun_of_foldlM {suggestions : List (MetricSuggestion × ℕ)} {s s' : MetricState}
    (h : suggestions.foldlM (fun s p => buildMetric platform existing s p.1 (newId p.2)) s = .ok s') :
    MetricRun platform existing (assignedNames newId suggestions) s s' := by
  induction suggestions generalizing s with
  | nil =>
    cases pure_eq_ok.1 h
    exact ⟨rfl, by simp [assignedNames], by simp [assignedNames], id, fun a ha => absurd ha List.not_mem_nil⟩
  | cons p suggestions ih =>
    rw [List.foldlM_cons] at h
    obtain ⟨s₁, hstep, hrest⟩ := bind_eq_ok.1 h
    have happend : assignedNames newId (p :: suggestions) =
        assignedNames newId [p] ++ assignedNames newId suggestions := by
      rw [assignedNames, assignedNames, assignedNames, ← List.map_append, ← List.filter_append, List.singleton_append]
    rw [happend]
    exact metricRun_append (metricRun_step hstep) (ih hrest)

end Run

/-! ### The reconciled metrics -/

section Reconciled

variable {platform : Platform} {suggestions : List MetricSuggestion} {existingProduct : Option (ProductRecord platform)}
  {excludedNames : List Text} {newId : ℕ → MetricId} {built : List MetricIR × List MetricRecord}

/-- The metrics of the existing product. -/
def existingMetrics (existingProduct : Option (ProductRecord platform)) : List MetricRecord :=
  (existingProduct.map fun p => p.metrics).getD []

/-- The names of the suggestions with enough confidence. -/
def acceptedNames (suggestions : List MetricSuggestion) : List Text :=
  (suggestions.filter fun s => ¬ s.confidence < 7 / 10).map fun s => s.name.strip

/-- The identifiers and the names of the records are distinct, the records that are not excluded are there, and no
metric has the identifier of a retired one. -/
structure MetricsReconciled (platform : Platform) (existing : List MetricRecord) (excludedNames : List Text)
    (built : List MetricIR × List MetricRecord) : Prop where
  unique : NamedIdsUnique platform built.2
  kept : ∀ r ∈ existing, (∀ k ∈ identityKeys platform r, k ∉ excludedNames.map platform.casefold) →
    r.id ∈ built.2.map NamedRecord.id
  retired : ∀ r ∈ existing, r.status = .retired → r.id ∉ built.1.map (·.metricId)

theorem existingMetrics_unique : NamedIdsUnique platform (existingMetrics existingProduct) := by
  cases existingProduct with
  | none => exact ⟨List.nodup_nil, List.nodup_nil⟩
  | some p => exact p.metrics_unique

private theorem keptMetrics_sublist {existing : List MetricRecord} :
    (keptMetrics platform existing excludedNames).Sublist existing := List.filter_sublist

private theorem keptMetrics_unique {existing : List MetricRecord} (h : NamedIdsUnique platform existing) :
    NamedIdsUnique platform (keptMetrics platform existing excludedNames) :=
  ⟨h.1.sublist (keptMetrics_sublist.map _), h.2.sublist (keptMetrics_sublist.map _)⟩

private theorem assignedNames_fst : (assignedNames newId suggestions.zipIdx).map Prod.fst = acceptedNames suggestions := by
  have hfst : suggestions = suggestions.zipIdx.map Prod.fst := (List.zipIdx_map_fst 0 suggestions).symm
  unfold assignedNames acceptedNames
  conv_rhs => rw [hfst]
  rw [List.map_map, List.filter_map, List.map_map]
  rfl

private theorem assignedNames_snd :
    ((assignedNames newId suggestions.zipIdx).map Prod.snd).Sublist ((List.range suggestions.length).map newId) := by
  have hsnd : List.range suggestions.length = suggestions.zipIdx.map Prod.snd := by
    rw [List.zipIdx_map_snd, List.range_eq_range']
  unfold assignedNames
  rw [hsnd, List.map_map, List.map_map]
  exact List.filter_sublist.map _

private theorem reconciled_foldl_put {existing : List MetricRecord} {assigned : List (Text × MetricId)}
    (hids : (existing.map NamedRecord.id).Nodup) :
    Reconciled platform existing assigned ((assigned.map fun a => reconciledRecord platform existing a.1 a.2).foldl
      KeyedList.put (KeyedList.ofList (fun r : MetricRecord => r.id) existing)).items := by
  intro i name
  simp only [KeyedList.mem_foldl_put, KeyedList.items_ofList hids]
  rw [← exists_last_written_iff]
  constructor
  · rintro ⟨r, hlast | ⟨hr, hnone⟩, hid, hname⟩
    · exact Or.inl ⟨r, hlast, hid, hname⟩
    · exact Or.inr ⟨r, hr, hid, hname, fun a ha => hid ▸ hnone _ (List.mem_map_of_mem ha)⟩
  · rintro (⟨r, hlast, hid, hname⟩ | ⟨e, he, rfl, rfl, hnone⟩)
    · exact ⟨r, Or.inl hlast, hid, hname⟩
    · exact ⟨e, Or.inr ⟨he, List.forall_mem_map.2 hnone⟩, rfl, rfl⟩

/-- The suggested metrics are reconciled exactly when every name that a record takes over is given up by its record. -/
theorem buildMetrics_iff (h : buildMetrics platform suggestions existingProduct excludedNames newId = .ok built)
    (hfresh : FreshIds (existingMetrics existingProduct) ((List.range suggestions.length).map newId)) :
    MetricsReconciled platform (existingMetrics existingProduct) excludedNames built ↔
      NamesReplaced platform (keptMetrics platform (existingMetrics existingProduct) excludedNames)
        (acceptedNames suggestions) := by
  have hunique : NamedIdsUnique platform (existingMetrics existingProduct) := existingMetrics_unique
  unfold buildMetrics at h
  rw [← existingMetrics] at h
  obtain ⟨_, -, h⟩ := bind_eq_ok.1 h
  obtain ⟨s, hs, h⟩ := bind_eq_ok.1 h
  cases pure_eq_ok.1 h
  have hrun := metricRun_of_foldlM hs
  have hkept : NamedIdsUnique platform (keptMetrics platform (existingMetrics existingProduct) excludedNames) :=
    keptMetrics_unique hunique
  have hnew : FreshIds (keptMetrics platform (existingMetrics existingProduct) excludedNames)
      ((assignedNames newId suggestions.zipIdx).map Prod.snd) :=
    ⟨hfresh.nodup.sublist assignedNames_snd, fun i hi hmem =>
      hfresh.unused i (assignedNames_snd.subset hi) ((keptMetrics_sublist.map _).subset hmem)⟩
  have hnames : ((assignedNames newId suggestions.zipIdx).map fun a => platform.casefold a.1).Nodup := by
    have hseen := hrun.nodup List.nodup_nil
    rwa [hrun.seen, List.nil_append] at hseen
  have hrecords := @reconciled_foldl_put platform _ (assignedNames newId suggestions.zipIdx) hkept.1
  rw [← hrun.records] at hrecords
  have hiff := nodup_names_iff hkept hnew hnames s.recordsById.nodup hrecords
  rw [assignedNames_fst] at hiff
  rw [← hiff]
  constructor
  · exact fun hreconciled => nodup_map_sortBy.1 hreconciled.unique.2
  · intro hnodup
    refine ⟨⟨nodup_map_sortBy.2 s.recordsById.nodup, nodup_map_sortBy.2 hnodup⟩, ?_, ?_⟩
    · intro r hr hexcluded
      refine ((sortBy_perm _ _).map _).mem_iff.2 ?_
      rw [hrun.records, KeyedList.mem_keys_foldl_put, KeyedList.items_ofList hkept.1]
      exact Or.inl (List.mem_map_of_mem (List.mem_filter.2 ⟨hr, decide_eq_true hexcluded⟩))
    · intro r hr hretired hmem
      rw [((sortBy_perm _ _).map _).mem_iff, hrun.ids, List.map_nil, List.nil_append] at hmem
      obtain ⟨a, ha, haid⟩ := List.mem_map.1 hmem
      have hunused : a.2 ∉ (existingMetrics existingProduct).map NamedRecord.id :=
        hfresh.unused a.2 (assignedNames_snd.subset (List.mem_map_of_mem ha))
      cases hmatch : answeringRecord platform
          (keptMetrics platform (existingMetrics existingProduct) excludedNames) a.1 with
      | none =>
        rw [reconciledRecord_id_of_none hmatch] at haid
        exact hunused (haid ▸ List.mem_map_of_mem hr)
      | some m =>
        rw [reconciledRecord_id_of_some hmatch] at haid
        have hm := keptMetrics_sublist.subset (answeringRecord_mem hmatch)
        have heq : m = r := List.inj_on_of_nodup_map hunique.1 hm hr haid
        exact hrun.active a ha m hmatch (heq ▸ hretired)

end Reconciled

/-! ### A name that is an alias -/

private def grossId : MetricId := ⟨"met_0198f6ca-2a11-78d1-8672-67d49e69f160".toList, by decide⟩

private def revenueId : MetricId := ⟨"met_0198f6ca-2a11-78d1-8672-67d49e69f161".toList, by decide⟩

private def newMetricId : MetricId := ⟨"met_0198f6ca-2a11-78d1-8672-67d49e69f162".toList, by decide⟩

/-- A product with two metrics; the first one has the given aliases. -/
def grossProduct (aliases : List Text) : ProductRecord .ascii :=
  ⟨⟨"prd_0198f6ca-2a11-78d1-8672-67d49e69f163".toList, by decide⟩, ⟨"sales".toList, Eq.refl true⟩, ⟨1, one_isVersion⟩, .active,
    none, [], none, [⟨grossId, "gross".toList, aliases, .active⟩, ⟨revenueId, "revenue".toList, [], .active⟩], [],
    ⟨show [grossId, revenueId].Nodup by decide, show ["gross".toList, "revenue".toList].Nodup by decide⟩, namedIdsUnique_nil⟩

/-- A certain suggestion of a metric. -/
def suggestedMetric (name : Text) : MetricSuggestion :=
  ⟨name, "SUM(amount)".toList, none, [], 1, [⟨sha256 [], .semanticDocument, [], none⟩], one_mem_unit, List.cons_ne_nil _ _⟩

private def grossIds : ℕ → MetricId := fun _ => newMetricId

theorem buildMetrics_iff_margin : ∃ built,
    buildMetrics .ascii [suggestedMetric "margin".toList] (some (grossProduct [])) [] grossIds = .ok built ∧
      (MetricsReconciled .ascii (existingMetrics (some (grossProduct []))) [] built ↔
        NamesReplaced .ascii (keptMetrics .ascii (existingMetrics (some (grossProduct []))) [])
          (acceptedNames [suggestedMetric "margin".toList])) := by
  have hrun : (buildMetrics .ascii [suggestedMetric "margin".toList] (some (grossProduct [])) []
      grossIds).toOption.any (fun _ => true) = true := by decide +kernel
  obtain ⟨built, hbuilt, -⟩ := exists_of_any_toOption hrun
  exact ⟨built, hbuilt, buildMetrics_iff hbuilt ⟨List.nodup_singleton _, by decide⟩⟩

/-- A suggestion that is the alias of one metric and the name of another one: both records then have the name. -/
theorem alias_takes_name : ∃ built,
    buildMetrics .ascii [suggestedMetric "revenue".toList] (some (grossProduct ["revenue".toList])) [] grossIds =
        .ok built ∧
      ¬ MetricsReconciled .ascii (existingMetrics (some (grossProduct ["revenue".toList]))) [] built := by
  have hrun : (buildMetrics .ascii [suggestedMetric "revenue".toList] (some (grossProduct ["revenue".toList])) []
      grossIds).toOption.any (fun built => ¬ NamedIdsUnique .ascii built.2) = true := by decide +kernel
  obtain ⟨built, hbuilt, hnames⟩ := exists_of_any_toOption hrun
  exact ⟨built, hbuilt, fun h => of_decide_eq_true hnames h.unique⟩

end ArdOssie
