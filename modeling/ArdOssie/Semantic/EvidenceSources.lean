import ArdOssie.Semantic.EvidenceDocuments
import ArdOssie.Library.Binary64
import ArdOssie.Library.Lists

/-!
# Regions of the embedded text

The atoms of a page are grouped into lines, and every line with a box and a visible character becomes a region; a line
without them is given to the region before it.
-/

namespace ArdOssie

/-- `BASELINE_TOLERANCE` -/
def baselineTolerance : ℚ := binary64 (35 / 100)

/-- `_same_baseline` -/
def sameBaseline (first second : Option SourceBox) : Bool :=
  match first, second with
  | some first, some second =>
    let overlap := max 0 (binary64 (min first.top second.top - max first.bottom second.bottom))
    let minimumHeight := min (binary64 (first.top - first.bottom)) (binary64 (second.top - second.bottom))
    decide (0 < minimumHeight ∧ baselineTolerance ≤ binary64 (overlap / minimumHeight))
  | _, _ => true

/-! ### Lines of a page -/

/-- The groups of `_embedded_regions` while its first loop runs. -/
structure Grouping where
  groups : List (List EvidenceAtom)
  current : List EvidenceAtom
  lastVisible : Option EvidenceAtom

namespace Grouping

/-- The atom starts a new group. -/
def startsGroup (s : Grouping) (atom : EvidenceAtom) : Bool :=
  !s.current.isEmpty && atom.kind != .lineBreak &&
    match s.lastVisible with
    | some last => !sameBaseline last.bbox atom.bbox
    | none => false

/-- `groups.append(current)` -/
def newGroup (s : Grouping) : Grouping := ⟨s.groups ++ [s.current], [], s.lastVisible⟩

/-- `current.append(atom)`, and the end of the group at a line break. -/
def push (s : Grouping) (atom : EvidenceAtom) : Grouping :=
  if atom.kind = .lineBreak then ⟨s.groups ++ [s.current ++ [atom]], [], none⟩
  else ⟨s.groups, s.current ++ [atom], if atom.bbox.isSome then some atom else s.lastVisible⟩

/-- The body of the first loop. -/
def step (s : Grouping) (atom : EvidenceAtom) : Grouping :=
  if s.startsGroup atom then s.newGroup.push atom else s.push atom

/-- The groups after the loop. -/
def finish (s : Grouping) : List (List EvidenceAtom) :=
  if s.current = [] then s.groups else s.groups ++ [s.current]

end Grouping

/-- The groups of the atoms of a page. -/
def atomGroups (atoms : List EvidenceAtom) : List (List EvidenceAtom) :=
  (atoms.foldl Grouping.step ⟨[], [], none⟩).finish

section Regions

variable (platform : Platform) (sourceHash : Sha256)

/-- The group has a box and a visible character. -/
def isRegionGroup (group : List EvidenceAtom) : Bool :=
  (unionBoxes (group.filterMap (·.bbox))).isSome && group.any fun a => !a.isSpace

/-- `previous.model_copy(update={"atom_ids": …})` -/
def EvidenceRegion.withAtoms (previous : EvidenceRegion) (group : List EvidenceAtom) : EvidenceRegion :=
  { previous with
    atomIds := previous.atomIds ++ group.map (·.atomId)
    nonempty := previous.nonempty.imp_left fun h hnil => h (List.append_eq_nil_iff.1 hnil).1 }

/-- The region of a group that starts with `first`. -/
def groupRegion (first : EvidenceAtom) (rest : List EvidenceAtom) (bbox : SourceBox) : EvidenceRegion where
  regionId := makeEvidenceId platform "region_" [sourceHash.hexdigest, Text.decimal first.page, first.atomId.text,
    ((first :: rest).getLast (List.cons_ne_nil _ _)).atomId.text]
  page := first.page
  bbox := bbox
  atomIds := (first :: rest).map (·.atomId)
  hypothesisIds := []
  authority := .embedded
  requiresReview := false
  page_pos := first.page_pos
  review h := by cases h
  nonempty := Or.inl (by simp)

/-- The body of the second loop. -/
def addGroup (result : List EvidenceRegion) (group : List EvidenceAtom) : List EvidenceRegion :=
  match unionBoxes (group.filterMap (·.bbox)), group with
  | some bbox, first :: rest =>
    if group.any fun a => !a.isSpace then result ++ [groupRegion platform sourceHash first rest bbox]
    else match result.getLast? with
      | some previous => result.dropLast ++ [previous.withAtoms group]
      | none => result
  | _, _ =>
    match result.getLast? with
    | some previous => result.dropLast ++ [previous.withAtoms group]
    | none => result

/-- `_embedded_regions` -/
def embeddedRegions (atoms : List EvidenceAtom) : List EvidenceRegion :=
  (atomGroups atoms).foldl (addGroup platform sourceHash) []

end Regions

/-! ### What the regions own -/

namespace Grouping

/-- The same state after earlier groups. -/
private def after (gs : List (List EvidenceAtom)) (s : Grouping) : Grouping := { s with groups := gs ++ s.groups }

private theorem step_after (gs : List (List EvidenceAtom)) (s : Grouping) (a : EvidenceAtom) :
    (s.after gs).step a = (s.step a).after gs := by
  have hstart : (s.after gs).startsGroup a = s.startsGroup a := rfl
  unfold step
  rw [hstart]
  by_cases hnew : s.startsGroup a = true <;> by_cases hbreak : a.kind = .lineBreak <;>
    simp [hnew, hbreak, push, newGroup, after]

private theorem finish_after (gs : List (List EvidenceAtom)) (s : Grouping) (atoms : List EvidenceAtom) :
    (atoms.foldl step (s.after gs)).finish = gs ++ (atoms.foldl step s).finish := by
  induction atoms generalizing s with
  | nil =>
    by_cases h : s.current = []
    · simp [finish, after, h]
    · simp [finish, after, h]
  | cons a atoms ih => rw [List.foldl_cons, List.foldl_cons, step_after, ih]

private theorem flatten_finish (s : Grouping) (atoms : List EvidenceAtom) :
    (atoms.foldl step s).finish.flatten = s.groups.flatten ++ s.current ++ atoms := by
  induction atoms generalizing s with
  | nil =>
    by_cases h : s.current = []
    · simp [finish, h]
    · simp [finish, h]
  | cons a atoms ih =>
    rw [List.foldl_cons, ih]
    by_cases hnew : s.startsGroup a = true <;> by_cases hbreak : a.kind = .lineBreak <;>
      simp [step, hnew, hbreak, push, newGroup]

private theorem ne_nil_of_mem_finish {s : Grouping} (h : ∀ g ∈ s.groups, g ≠ []) (atoms : List EvidenceAtom) :
    ∀ g ∈ (atoms.foldl step s).finish, g ≠ [] := by
  induction atoms generalizing s with
  | nil =>
    by_cases hcurrent : s.current = []
    · simpa [finish, hcurrent] using h
    · intro g hg
      simp only [List.foldl_nil, finish, hcurrent, ↓reduceIte, List.mem_append, List.mem_singleton] at hg
      rcases hg with hg | rfl
      · exact h g hg
      · exact hcurrent
  | cons a atoms ih =>
    have hpush : ∀ s : Grouping, (∀ g ∈ s.groups, g ≠ []) → ∀ g ∈ (s.push a).groups, g ≠ [] := by
      intro s hs
      by_cases hbreak : a.kind = .lineBreak
      · simpa [push, hbreak, or_imp, forall_and] using hs
      · simpa [push, hbreak] using hs
    rw [List.foldl_cons]
    refine ih ?_
    unfold step
    split
    · rename_i hnew
      have hcurrent : s.current ≠ [] := fun hnil => by simp [startsGroup, hnil] at hnew
      refine hpush _ fun g hg => ?_
      rcases List.mem_append.1 hg with hg | hg
      · exact h g hg
      · exact List.mem_singleton.1 hg ▸ hcurrent
    · exact hpush s h

end Grouping

/-- The groups are the atoms of the page in order. -/
theorem flatten_atomGroups (atoms : List EvidenceAtom) : (atomGroups atoms).flatten = atoms := by
  rw [atomGroups, Grouping.flatten_finish]
  rfl

theorem ne_nil_of_mem_atomGroups (atoms : List EvidenceAtom) : ∀ g ∈ atomGroups atoms, g ≠ [] :=
  Grouping.ne_nil_of_mem_finish (by simp) atoms

/-- The atoms up to the first line break or the first change of the baseline. -/
def firstLineFrom (last : Option SourceBox) : List EvidenceAtom → List EvidenceAtom
  | [] => []
  | a :: atoms =>
    if a.kind = .lineBreak then [a]
    else if sameBaseline last a.bbox then a :: firstLineFrom (a.bbox <|> last) atoms
    else []

/-- The first line of a page. -/
def firstLine (atoms : List EvidenceAtom) : List EvidenceAtom := firstLineFrom none atoms

namespace Grouping

private theorem push_box (s : Grouping) (a : EvidenceAtom) (hbreak : a.kind ≠ .lineBreak) :
    (s.push a).lastVisible.bind (·.bbox) = (a.bbox <|> s.lastVisible.bind (·.bbox)) := by
  cases hbox : a.bbox with
  | none => simp [push, hbreak, hbox]
  | some box => simp [push, hbreak, hbox]

private theorem startsGroup_eq (s : Grouping) (a : EvidenceAtom) (hcurrent : s.current ≠ [])
    (hbreak : a.kind ≠ .lineBreak) :
    s.startsGroup a = !sameBaseline (s.lastVisible.bind (·.bbox)) a.bbox := by
  cases hlast : s.lastVisible with
  | none => simp [startsGroup, hlast, sameBaseline]
  | some last => simp [startsGroup, hlast, hcurrent, hbreak]

/-- The first group is the first line. -/
private theorem head_finish (s : Grouping) (hs : s.groups = []) (hlast : s.current = [] → s.lastVisible = none)
    (atoms : List EvidenceAtom) (hne : s.current ++ atoms ≠ []) :
    (atoms.foldl step s).finish.head? =
      some (s.current ++ firstLineFrom (s.lastVisible.bind (·.bbox)) atoms) := by
  induction atoms generalizing s with
  | nil =>
    have hcurrent : s.current ≠ [] := by simpa using hne
    simp [finish, hs, hcurrent, firstLineFrom]
  | cons a atoms ih =>
    rw [List.foldl_cons, firstLineFrom]
    by_cases hbreak : a.kind = .lineBreak
    · have hstep : s.step a = Grouping.after [s.current ++ [a]] ⟨[], [], none⟩ := by
        simp [step, startsGroup, hbreak, push, after, hs]
      rw [hstep, finish_after, if_pos hbreak]
      rfl
    · rw [if_neg hbreak]
      by_cases hsame : sameBaseline (s.lastVisible.bind (·.bbox)) a.bbox = true
      · have hstep : s.step a = s.push a := by
          by_cases hcurrent : s.current = []
          · simp [step, startsGroup, hcurrent]
          · simp [step, startsGroup_eq s a hcurrent hbreak, hsame]
        have hpush : (s.push a).groups = [] ∧ (s.push a).current = s.current ++ [a] := by
          simp [push, hbreak, hs]
        rw [hstep, if_pos hsame, ih (s.push a) hpush.1 (fun h => by simp [hpush.2] at h) (by simp [hpush.2]),
          push_box s a hbreak, hpush.2]
        simp
      · have hcurrent : s.current ≠ [] := by
          intro hnil
          rw [hlast hnil] at hsame
          exact hsame rfl
        have hstep : s.step a = Grouping.after [s.current] (push ⟨[], [], s.lastVisible⟩ a) := by
          simp [step, startsGroup_eq s a hcurrent hbreak, hsame, push, hbreak, newGroup, after, hs]
        rw [hstep, finish_after, if_neg hsame]
        simp

end Grouping

theorem head_atomGroups {atoms : List EvidenceAtom} (h : atoms ≠ []) :
    (atomGroups atoms).head? = some (firstLine atoms) :=
  Grouping.head_finish ⟨[], [], none⟩ rfl (fun _ => rfl) atoms (by simpa using h)

/-! ### Owners of the atoms -/

/-- The regions own the atoms, each once and in the order of the page. -/
def OwnsInOrder (regions : List EvidenceRegion) (atoms : List EvidenceAtom) : Prop :=
  regions.flatMap (·.atomIds) = atoms.map (·.atomId)

instance (regions : List EvidenceRegion) (atoms : List EvidenceAtom) : Decidable (OwnsInOrder regions atoms) :=
  inferInstanceAs (Decidable (_ = _))

section Owners

variable (platform : Platform) (sourceHash : Sha256)

theorem unionBoxes_isSome {boxes : List SourceBox} : (unionBoxes boxes).isSome ↔ boxes ≠ [] := by
  cases boxes <;> simp [unionBoxes]

theorem isRegionGroup_iff {group : List EvidenceAtom} :
    isRegionGroup group ↔ (∃ a ∈ group, a.bbox.isSome) ∧ ∃ a ∈ group, a.isSpace = false := by
  have hbox : group.filterMap (·.bbox) ≠ [] ↔ ∃ a ∈ group, a.bbox.isSome := by
    rw [Ne, List.filterMap_eq_nil_iff]
    simp [Option.isSome_iff_ne_none]
  rw [isRegionGroup, Bool.and_eq_true, unionBoxes_isSome, hbox, List.any_eq_true]
  simp

private theorem addGroup_of_region (result : List EvidenceRegion) {group : List EvidenceAtom}
    (h : isRegionGroup group) : ∃ r : EvidenceRegion, r.atomIds = group.map (·.atomId) ∧
      addGroup platform sourceHash result group = result ++ [r] := by
  rw [isRegionGroup, Bool.and_eq_true] at h
  obtain ⟨bbox, hbox⟩ := Option.isSome_iff_exists.1 h.1
  cases group with
  | nil => simp at h
  | cons first rest =>
    refine ⟨groupRegion platform sourceHash first rest bbox, rfl, ?_⟩
    simp only [addGroup, hbox]
    rw [if_pos h.2]

private theorem addGroup_of_not_region {result : List EvidenceRegion} {group : List EvidenceAtom}
    (h : ¬ isRegionGroup group) : addGroup platform sourceHash result group =
      match result.getLast? with
      | some previous => result.dropLast ++ [previous.withAtoms group]
      | none => result := by
  unfold addGroup
  split
  · rename_i bbox first rest hbox
    have hany : ¬ ((first :: rest).any fun a => !a.isSpace) = true := by
      simpa [isRegionGroup, hbox] using h
    rw [if_neg hany]
  · rfl

/-- After the first region every group is owned. -/
private theorem foldl_addGroup_owns {result : List EvidenceRegion} (hne : result ≠ [])
    (groups : List (List EvidenceAtom)) :
    (groups.foldl (addGroup platform sourceHash) result).flatMap (·.atomIds) =
      result.flatMap (·.atomIds) ++ groups.flatten.map (·.atomId) := by
  induction groups generalizing result with
  | nil => simp
  | cons group groups ih =>
    rw [List.foldl_cons]
    by_cases hregion : isRegionGroup group = true
    · obtain ⟨r, hr, hadd⟩ := addGroup_of_region platform sourceHash result hregion
      rw [hadd, ih (by simp)]
      simp [hr]
    · obtain ⟨init, previous, rfl⟩ := (List.eq_nil_or_concat' result).resolve_left hne
      rw [addGroup_of_not_region platform sourceHash hregion]
      simp only [List.getLast?_append, List.getLast?_singleton, Option.some_or, List.dropLast_concat]
      rw [ih (by simp)]
      simp [EvidenceRegion.withAtoms]

/-- The groups before the first region are lost, and all others are owned. -/
theorem embeddedRegions_ownership (atoms : List EvidenceAtom) :
    (embeddedRegions platform sourceHash atoms).flatMap (·.atomIds) =
      ((atomGroups atoms).dropWhile fun g => !isRegionGroup g).flatten.map (·.atomId) := by
  unfold embeddedRegions
  induction atomGroups atoms with
  | nil => rfl
  | cons group groups ih =>
    rw [List.foldl_cons, List.dropWhile_cons]
    by_cases hregion : isRegionGroup group = true
    · obtain ⟨r, hr, hadd⟩ := addGroup_of_region platform sourceHash [] hregion
      rw [hadd, foldl_addGroup_owns platform sourceHash (by simp)]
      simp [hregion, hr]
    · rw [addGroup_of_not_region platform sourceHash hregion]
      simpa [hregion] using ih

private theorem owns_iff_head (atoms : List EvidenceAtom) (hne : atoms ≠ []) :
    OwnsInOrder (embeddedRegions platform sourceHash atoms) atoms ↔ isRegionGroup (firstLine atoms) := by
  have hflat := flatten_atomGroups atoms
  have hhead := head_atomGroups hne
  have hnonempty := ne_nil_of_mem_atomGroups atoms
  unfold OwnsInOrder
  rw [embeddedRegions_ownership]
  cases hgroups : atomGroups atoms with
  | nil =>
    rw [hgroups] at hhead
    cases hhead
  | cons group groups =>
    rw [hgroups] at hflat hhead hnonempty
    cases Option.some_inj.1 hhead
    rw [List.dropWhile_cons]
    by_cases hregion : isRegionGroup (firstLine atoms) = true
    · simp only [hregion, Bool.not_true, Bool.false_eq_true, ↓reduceIte, iff_true]
      rw [hflat]
    · -- a lost group makes the list of owned atoms shorter than the page
      simp only [hregion, Bool.not_false, ↓reduceIte, Bool.false_eq_true, iff_false]
      intro heq
      have hlength := congrArg List.length heq
      have hparts := congrArg (fun l => l.flatten.length)
        (List.takeWhile_append_dropWhile (p := fun g => !isRegionGroup g) (l := groups))
      rw [List.flatten_append, List.length_append] at hparts
      have hfirst := List.length_pos_iff.2 (hnonempty (firstLine atoms) (by simp))
      have htotal := congrArg List.length hflat
      simp only [List.length_map, List.flatten_cons, List.length_append] at hlength htotal
      omega

/-- The regions of a page with a visible boxed character own all its atoms in order, and evidence of the page passes
the checks of the owners, exactly when the first line has a box and a visible character. -/
theorem embeddedRegions_owns_iff (atoms : List EvidenceAtom)
    (hvisible : ∃ a ∈ atoms, a.isSpace = false ∧ a.bbox.isSome) :
    (OwnsInOrder (embeddedRegions platform sourceHash atoms) atoms ∧
        ∀ e : EvidenceFields, e.atoms = atoms → (e.atoms.map (·.atomId)).Nodup →
          e.regions = embeddedRegions platform sourceHash atoms → e.checkOwnership = .ok ()) ↔
      (∃ a ∈ firstLine atoms, a.bbox.isSome) ∧ ∃ a ∈ firstLine atoms, a.isSpace = false := by
  have hne : atoms ≠ [] := by
    obtain ⟨a, ha, -⟩ := hvisible
    exact List.ne_nil_of_mem ha
  rw [← isRegionGroup_iff, ← owns_iff_head platform sourceHash atoms hne]
  refine and_iff_left_of_imp fun howns e hatoms hids hregions => ?_
  have hownership : e.ownership = e.atoms.map (·.atomId) := by
    rw [EvidenceFields.ownership, hregions, hatoms]
    exact howns
  refine EvidenceFields.checkOwnership_eq_ok.2 ⟨?_, fun i => ?_⟩
  · rw [hownership]
    exact hids
  · rw [hownership]

/-- A character of a page as an atom. -/
def embeddedAtom (number : ℕ) (c : Char) (kind : AtomKind) (bbox : Option SourceBox)
    (h : kind.Allows [c]) : EvidenceAtom where
  atomId := ⟨Fin.ofNat _ number⟩
  ordinal := number
  page := 1
  bbox := bbox
  text := [c]
  kind := kind
  authority := .embedded
  sourceObject := 0
  sourceIndex := number
  confidence := .one
  page_pos := Nat.one_pos
  text_ne := List.cons_ne_nil _ _
  length_le := by simp
  kind_allows := h

/-- A page with one visible character before a line break. -/
def visibleFirstPage : List EvidenceAtom :=
  [embeddedAtom 0 'A' .character (some .page) AtomKind.allows_letter, embeddedAtom 1 '\n' .lineBreak none (by decide)]

/-- A page that starts with a line break. -/
def breakFirstPage : List EvidenceAtom :=
  [embeddedAtom 0 '\n' .lineBreak none (by decide), embeddedAtom 1 'A' .character (some .page) (by decide)]

theorem embeddedRegions_owns_visibleFirst :
    OwnsInOrder (embeddedRegions .ascii (sha256 []) visibleFirstPage) visibleFirstPage :=
  ((embeddedRegions_owns_iff .ascii (sha256 []) visibleFirstPage (by decide)).2
    (by decide)).1

/-- The line break at the start of a page is lost. -/
theorem embeddedRegions_loses_breakFirst :
    (∃ a ∈ breakFirstPage, a.isSpace = false ∧ a.bbox.isSome) ∧
      ¬ OwnsInOrder (embeddedRegions .ascii (sha256 []) breakFirstPage) breakFirstPage := by
  refine ⟨by decide, fun h => ?_⟩
  have hfirst := (owns_iff_head .ascii (sha256 []) breakFirstPage (by decide)).1 h
  exact absurd hfirst (by decide)

end Owners

end ArdOssie
