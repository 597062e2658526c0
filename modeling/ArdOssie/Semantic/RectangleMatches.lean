import ArdOssie.Base
import ArdOssie.Library.IntervalTree
import ArdOssie.Library.Lists
import ArdOssie.Semantic.SourceBox

/-!
# Bounded rectangle matching

`boundedRectangleMatches` reports, for each query box, at most `limit` item boxes that overlap it.  It is a plane
sweep in the horizontal coordinate: the active items and the active queries are kept in two interval trees over the
vertical coordinate.  Degenerate boxes are matched by equality, outside the sweep.

The invariant of the sweep (`SweepInvariant`) relates the state to the list of the events handled so far: an item is
active when it was started and not ended, a query is active when moreover its result is below the limit, and the
result of a query has the size of the minimum of the limit and the number of overlapping pairs started so far.
-/

namespace ArdOssie

/-- The kinds of events; at equal coordinates the ends come first, and the items before the queries. -/
inductive EventKind where
  | itemEnd
  | queryEnd
  | itemStart
  | queryStart
  deriving DecidableEq, Repr

/-- The number of the kind in the sort key. -/
def EventKind.rank : EventKind → ℕ
  | itemEnd => 0
  | queryEnd => 1
  | itemStart => 2
  | queryStart => 3

/-- An event of the sweep. -/
structure SweepEvent where
  coordinate : ℚ
  kind : EventKind
  index : ℕ
  box : SourceBox
  deriving DecidableEq

namespace SweepEvent

/-- The order of the events: coordinate, kind, index. -/
def sortKey (e : SweepEvent) : ℚ ×ₗ ℕ ×ₗ ℕ := toLex (e.coordinate, toLex (e.kind.rank, e.index))

/-- The sweep leaves an item at its right edge. -/
def itemEnd (p : ℕ × SourceBox) : SweepEvent := ⟨p.2.right, .itemEnd, p.1, p.2⟩

/-- The sweep leaves a query at its right edge. -/
def queryEnd (p : ℕ × SourceBox) : SweepEvent := ⟨p.2.right, .queryEnd, p.1, p.2⟩

/-- The sweep enters an item at its left edge. -/
def itemStart (p : ℕ × SourceBox) : SweepEvent := ⟨p.2.left, .itemStart, p.1, p.2⟩

/-- The sweep enters a query at its left edge. -/
def queryStart (p : ℕ × SourceBox) : SweepEvent := ⟨p.2.left, .queryStart, p.1, p.2⟩

end SweepEvent

open SweepEvent

/-- The state of the sweep: the results, the two trees, and the keys of their entries. -/
structure SweepState where
  matched : Dict ℕ (List ℕ)
  activeItems : IntervalTree ℚ ℕ
  activeQueries : IntervalTree ℚ ℕ
  itemKeys : Dict ℕ (ℚ ×ₗ ℕ)
  queryKeys : Dict ℕ (ℚ ×ₗ ℕ)

/-- The key of a box in the trees. -/
def boxKey (p : ℕ × SourceBox) : ℚ ×ₗ ℕ := toLex (p.2.bottom, p.1)

/-- The entry of a box in the trees. -/
def boxEntry (p : ℕ × SourceBox) : IntervalEntry ℚ ℕ := ⟨boxKey p, p.2.top, p.1⟩

/-- Report a starting item to one active query; a query that reaches the limit is no longer active. -/
def reportItem (limit itemIndex : ℕ) (s : SweepState) (queryIndex : ℕ) : PyResult SweepState := do
  let found ← Dict.getItem s.matched queryIndex
  let found := found ++ [itemIndex]
  let s := { s with matched := s.matched.insert queryIndex found }
  if limit ≤ found.length then
    let key ← Dict.getItem s.queryKeys queryIndex
    return { s with
      queryKeys := s.queryKeys.erase queryIndex
      activeQueries := s.activeQueries.delete key }
  else return s

/-- Handle one event. -/
def sweepStep (limit : ℕ) (s : SweepState) (e : SweepEvent) : PyResult SweepState :=
  match e.kind with
  | .itemEnd =>
    match s.itemKeys.lookup e.index with
    | none => return s
    | some key => return { s with itemKeys := s.itemKeys.erase e.index, activeItems := s.activeItems.delete key }
  | .queryEnd =>
    match s.queryKeys.lookup e.index with
    | none => return s
    | some key =>
      return { s with queryKeys := s.queryKeys.erase e.index, activeQueries := s.activeQueries.delete key }
  | .itemStart => do
    let overlappingQueries := s.activeQueries.query e.box.bottom e.box.top none []
    let s ← overlappingQueries.foldlM (reportItem limit e.index) s
    return { s with
      activeItems := s.activeItems.insert (boxEntry (e.index, e.box))
      itemKeys := s.itemKeys.insert e.index (boxKey (e.index, e.box)) }
  | .queryStart => do
    let overlappingItems := s.activeItems.query e.box.bottom e.box.top (some limit) []
    let found ← Dict.getItem s.matched e.index
    let found := found ++ overlappingItems
    let s := { s with matched := s.matched.insert e.index found }
    if found.length < limit then
      return { s with
        activeQueries := s.activeQueries.insert (boxEntry (e.index, e.box))
        queryKeys := s.queryKeys.insert e.index (boxKey (e.index, e.box)) }
    else return s

/-- The boxes that take part in the sweep. -/
def properBoxes (boxes : List (ℕ × SourceBox)) : List (ℕ × SourceBox) :=
  boxes.filter fun p => !boxIsDegenerate p.2

/-- The events of the sweep, in order. -/
def sweepEvents (items queries : List (ℕ × SourceBox)) : List SweepEvent :=
  sortBy sortKey
    ((properBoxes items).flatMap (fun p => [itemEnd p, itemStart p]) ++
      (properBoxes queries).flatMap fun p => [queryEnd p, queryStart p])

/-- The indexes of the degenerate items with the given coordinates. -/
def degenerateItems (items : List (ℕ × SourceBox)) (coordinates : ℚ × ℚ × ℚ × ℚ) : List ℕ :=
  (items.filter fun p => boxIsDegenerate p.2 && decide (boxCoordinates p.2 = coordinates)).map Prod.fst

/-- The results before the sweep: a degenerate query has its matches, the other queries have none. -/
def initialMatches (items queries : List (ℕ × SourceBox)) (limit : ℕ) : Dict ℕ (List ℕ) :=
  Dict.ofList (queries.map fun p =>
    (p.1, if boxIsDegenerate p.2 then (degenerateItems items (boxCoordinates p.2)).take limit else []))

/-- `_bounded_rectangle_matches` -/
def boundedRectangleMatches (items queries : List (ℕ × SourceBox)) (limit : ℤ) : PyResult (Dict ℕ (List ℕ)) :=
  if limit ≤ 0 then return Dict.ofList (queries.map fun p => (p.1, []))
  else do
    let s ← (sweepEvents items queries).foldlM (sweepStep limit.toNat)
      ⟨initialMatches items queries limit.toNat, .nil, .nil, ∅, ∅⟩
    return s.matched

/-! ### The trees of active boxes -/

/-- A tree and the keys of its entries represent a set of active boxes. -/
structure ActiveTree (tree : IntervalTree ℚ ℕ) (keys : Dict ℕ (ℚ ×ₗ ℕ)) (active : Set (ℕ × SourceBox)) : Prop where
  ordered : tree.SearchOrdered
  augmented : tree.Augmented
  mem_iff : ∀ e, e ∈ tree.toList ↔ ∃ p ∈ active, boxEntry p = e
  lookup_iff : ∀ i k, keys.lookup i = some k ↔ ∃ p ∈ active, p.1 = i ∧ boxKey p = k
  index_inj : ∀ p ∈ active, ∀ q ∈ active, p.1 = q.1 → p = q

private theorem index_eq_of_boxKey {p q : ℕ × SourceBox} (h : boxKey p = boxKey q) : p.1 = q.1 := by
  simp only [boxKey, EmbeddingLike.apply_eq_iff_eq, Prod.mk.injEq] at h
  exact h.2

namespace ActiveTree

variable {tree : IntervalTree ℚ ℕ} {keys : Dict ℕ (ℚ ×ₗ ℕ)} {active : Set (ℕ × SourceBox)}

theorem empty : ActiveTree .nil ∅ ∅ where
  ordered := by simp [IntervalTree.SearchOrdered]
  augmented := trivial
  mem_iff := by simp
  lookup_iff := by simp
  index_inj := by simp

/-- A box with a new index is added. -/
theorem insert (h : ActiveTree tree keys active) {p : ℕ × SourceBox} (hp : ∀ q ∈ active, q.1 ≠ p.1) :
    ActiveTree (tree.insert (boxEntry p)) (keys.insert p.1 (boxKey p)) (insert p active) where
  ordered := by
    refine h.ordered.insert fun e he hkey => ?_
    obtain ⟨q, hq, rfl⟩ := (h.mem_iff e).1 he
    exact hp q hq (index_eq_of_boxKey hkey)
  augmented := h.augmented.insert
  mem_iff e := by
    rw [IntervalTree.mem_insert, h.mem_iff]
    constructor
    · rintro (rfl | ⟨q, hq, rfl⟩)
      · exact ⟨p, Set.mem_insert _ _, rfl⟩
      · exact ⟨q, Set.mem_insert_of_mem _ hq, rfl⟩
    · rintro ⟨q, rfl | hq, rfl⟩
      · exact Or.inl rfl
      · exact Or.inr ⟨q, hq, rfl⟩
  lookup_iff i k := by
    by_cases hi : i = p.1
    · subst hi
      rw [AList.lookup_insert, Option.some_inj]
      constructor
      · rintro rfl; exact ⟨p, Set.mem_insert _ _, rfl, rfl⟩
      · rintro ⟨q, rfl | hq, h1, rfl⟩
        · rfl
        · exact absurd h1 (hp q hq)
    · rw [AList.lookup_insert_ne hi, h.lookup_iff]
      constructor
      · rintro ⟨q, hq, rfl, rfl⟩; exact ⟨q, Set.mem_insert_of_mem _ hq, rfl, rfl⟩
      · rintro ⟨q, rfl | hq, rfl, rfl⟩
        · exact absurd rfl hi
        · exact ⟨q, hq, rfl, rfl⟩
  index_inj q hq q' hq' hqq' := by
    rcases hq with rfl | hq <;> rcases hq' with rfl | hq'
    · rfl
    · exact absurd hqq'.symm (hp q' hq')
    · exact absurd hqq' (hp q hq)
    · exact h.index_inj q hq q' hq' hqq'

/-- The box with a given index is removed. -/
theorem delete (h : ActiveTree tree keys active) {i : ℕ} {key : ℚ ×ₗ ℕ} (hk : keys.lookup i = some key) :
    ActiveTree (tree.delete key) (keys.erase i) {p ∈ active | p.1 ≠ i} := by
  obtain ⟨p, hp, rfl, rfl⟩ := (h.lookup_iff _ _).1 hk
  refine ⟨h.ordered.delete, h.augmented.delete, fun e => ?_, fun j k => ?_, fun q hq q' hq' hqq' => ?_⟩
  · rw [IntervalTree.toList_delete h.ordered, List.mem_filter, h.mem_iff, decide_eq_true_eq]
    constructor
    · rintro ⟨⟨q, hq, rfl⟩, hne⟩
      exact ⟨q, ⟨hq, fun hqp => hne (by rw [h.index_inj q hq p hp hqp]; rfl)⟩, rfl⟩
    · rintro ⟨q, ⟨hq, hqp⟩, rfl⟩
      exact ⟨⟨q, hq, rfl⟩, fun hkey => hqp (index_eq_of_boxKey hkey)⟩
  · by_cases hj : j = p.1
    · subst hj
      rw [AList.lookup_erase]
      constructor
      · intro hnone; cases hnone
      · rintro ⟨q, ⟨-, hqp⟩, hq, -⟩; exact absurd hq hqp
    · rw [AList.lookup_erase_ne hj, h.lookup_iff]
      constructor
      · rintro ⟨q, hq, rfl, rfl⟩; exact ⟨q, ⟨hq, hj⟩, rfl, rfl⟩
      · rintro ⟨q, ⟨hq, -⟩, rfl, rfl⟩; exact ⟨q, hq, rfl, rfl⟩
  · exact h.index_inj q hq.1 q' hq'.1 hqq'

theorem eq_of_lookup_none (h : ActiveTree tree keys active) {i : ℕ} (hk : keys.lookup i = none) :
    {p ∈ active | p.1 ≠ i} = active := by
  ext p
  refine ⟨fun hp => hp.1, fun hp => ⟨hp, ?_⟩⟩
  rintro rfl
  rw [(h.lookup_iff _ _).2 ⟨p, hp, rfl, rfl⟩] at hk
  cases hk

theorem lookup_of_mem (h : ActiveTree tree keys active) {p : ℕ × SourceBox} (hp : p ∈ active) :
    keys.lookup p.1 = some (boxKey p) := (h.lookup_iff _ _).2 ⟨p, hp, rfl, rfl⟩

private theorem entry_nodup (h : ActiveTree tree keys active) : (tree.toList.map (·.index)).Nodup := by
  rw [List.Nodup, List.pairwise_map]
  refine h.ordered.imp_of_mem fun {e e'} he he' hlt hidx => ?_
  obtain ⟨p, hp, rfl⟩ := (h.mem_iff e).1 he
  obtain ⟨q, hq, rfl⟩ := (h.mem_iff e').1 he'
  rw [h.index_inj p hp q hq hidx] at hlt
  exact lt_irrefl _ hlt

/-- A query without a limit finds, once each, the active boxes whose vertical interval meets the given one. -/
theorem query_spec (h : ActiveTree tree keys active) (bottom top : ℚ) :
    (tree.query bottom top none []).Nodup ∧
      ∀ i, i ∈ tree.query bottom top none [] ↔ ∃ p ∈ active, p.1 = i ∧ p.2.bottom < top ∧ bottom < p.2.top := by
  rw [IntervalTree.query_eq h.augmented]
  simp only [IntervalTree.appendUpTo, List.nil_append]
  refine ⟨h.entry_nodup.sublist (List.filter_sublist.map _), fun i => ?_⟩
  simp only [List.mem_map, List.mem_filter, h.mem_iff, decide_eq_true_eq]
  constructor
  · rintro ⟨e, ⟨⟨p, hp, rfl⟩, hmeet⟩, rfl⟩
    exact ⟨p, hp, rfl, hmeet⟩
  · rintro ⟨p, hp, rfl, hmeet⟩
    exact ⟨boxEntry p, ⟨⟨p, hp, rfl⟩, hmeet⟩, rfl⟩

/-- A query with a limit finds the first boxes of the query without a limit. -/
theorem query_limit (h : ActiveTree tree keys active) (bottom top : ℚ) (limit : ℕ) :
    tree.query bottom top (some limit) [] = (tree.query bottom top none []).take limit := by
  rw [IntervalTree.query_eq h.augmented, IntervalTree.query_eq h.augmented]
  simp [IntervalTree.appendUpTo]

end ActiveTree

/-! ### Reporting an item to the active queries -/

private theorem reportItem_spec {limit item i : ℕ} {s : SweepState} {active : Set (ℕ × SourceBox)} {found : List ℕ}
    (hact : ActiveTree s.activeQueries s.queryKeys active) (hi : ∃ q ∈ active, q.1 = i)
    (hfound : s.matched.lookup i = some found) :
    ∃ s', reportItem limit item s i = .ok s' ∧ s'.activeItems = s.activeItems ∧ s'.itemKeys = s.itemKeys ∧
      s'.matched = s.matched.insert i (found ++ [item]) ∧
      ActiveTree s'.activeQueries s'.queryKeys {q ∈ active | q.1 = i → found.length + 1 < limit} := by
  obtain ⟨q, hq, rfl⟩ := hi
  unfold reportItem
  rw [Dict.getItem_eq_ok.2 hfound]
  simp only [bind, Except.bind, List.length_append, List.length_singleton, pure, Except.pure]
  by_cases hlim : limit ≤ found.length + 1
  · have hset : {p ∈ active | p.1 = q.1 → found.length + 1 < limit} = {p ∈ active | p.1 ≠ q.1} := by
      ext p
      simp [not_lt.2 hlim]
    simp only [hlim, ↓reduceIte, Dict.getItem_eq_ok.2 (hact.lookup_of_mem hq), hset]
    exact ⟨_, rfl, rfl, rfl, rfl, hact.delete (hact.lookup_of_mem hq)⟩
  · have hset : {p ∈ active | p.1 = q.1 → found.length + 1 < limit} = active := by
      ext p
      simp [not_le.1 hlim]
    simp only [hlim, ↓reduceIte, hset]
    exact ⟨_, rfl, rfl, rfl, rfl, hact⟩

/-- Every query of the list receives the item, and the queries that reach the limit are no longer active. -/
private theorem reportItems_spec (limit item : ℕ) {L : List ℕ} (hL : L.Nodup) {s : SweepState}
    {active : Set (ℕ × SourceBox)} (hact : ActiveTree s.activeQueries s.queryKeys active)
    (hsub : ∀ i ∈ L, ∃ q ∈ active, q.1 = i) (hfound : ∀ i ∈ L, ∃ found, s.matched.lookup i = some found) :
    ∃ s', L.foldlM (reportItem limit item) s = .ok s' ∧ s'.activeItems = s.activeItems ∧ s'.itemKeys = s.itemKeys ∧
      (∀ i ∉ L, s'.matched.lookup i = s.matched.lookup i) ∧
      (∀ i ∈ L, ∀ found, s.matched.lookup i = some found → s'.matched.lookup i = some (found ++ [item])) ∧
      ActiveTree s'.activeQueries s'.queryKeys
        {q ∈ active | q.1 ∈ L → ∀ found, s.matched.lookup q.1 = some found → found.length + 1 < limit} := by
  induction L generalizing s active with
  | nil => exact ⟨s, rfl, rfl, rfl, by simp, by simp, by simpa using hact⟩
  | cons i L ih =>
    obtain ⟨hiL, hL⟩ := List.nodup_cons.1 hL
    obtain ⟨found, hf⟩ := hfound i (by simp)
    obtain ⟨s₁, h₁, hitems, hkeys, hmatched, hact₁⟩ := reportItem_spec hact (hsub i (by simp)) hf
    have hlookup : ∀ j, j ≠ i → s₁.matched.lookup j = s.matched.lookup j := fun j hj => by
      rw [hmatched, AList.lookup_insert_ne hj]
    have hne : ∀ j ∈ L, j ≠ i := fun j hj hji => hiL (hji ▸ hj)
    obtain ⟨s', h', hitems', hkeys', hout, hin, hact'⟩ := ih hL hact₁
      (fun j hj => by
        obtain ⟨q, hq, rfl⟩ := hsub j (by simp [hj])
        exact ⟨q, ⟨hq, fun hqi => absurd hqi (hne _ hj)⟩, rfl⟩)
      (fun j hj => by rw [hlookup j (hne j hj)]; exact hfound j (by simp [hj]))
    refine ⟨s', ?_, hitems'.trans hitems, hkeys'.trans hkeys, fun j hj => ?_, fun j hj found' hf' => ?_, ?_⟩
    · rw [List.foldlM_cons, h₁]; exact h'
    · simp only [List.mem_cons, not_or] at hj
      rw [hout j hj.2, hlookup j hj.1]
    · rcases List.mem_cons.1 hj with rfl | hj
      · rw [hout j hiL, hmatched, AList.lookup_insert]
        rw [hf, Option.some_inj] at hf'
        rw [hf']
      · exact hin j hj found' (by rw [hlookup j (hne j hj)]; exact hf')
    · convert hact' using 1
      ext q
      simp only [Set.mem_ofPred_eq, List.mem_cons]
      constructor
      · rintro ⟨hq, hlim⟩
        refine ⟨⟨hq, fun hqi => hlim (Or.inl hqi) _ (by rw [hqi]; exact hf)⟩, fun hqL f hf' => ?_⟩
        exact hlim (Or.inr hqL) f (by rw [← hlookup _ (hne _ hqL)]; exact hf')
      · rintro ⟨⟨hq, hqi⟩, hlim⟩
        refine ⟨hq, fun hqL f hf' => ?_⟩
        rcases hqL with rfl | hqL
        · rw [hf, Option.some_inj] at hf'
          rw [← hf']
          exact hqi rfl
        · exact hlim hqL f (by rw [hlookup _ (hne _ hqL)]; exact hf')

/-! ### The invariant of the sweep -/

/-- Indexed boxes with distinct indexes and positive areas. -/
structure SweepBoxes (boxes : List (ℕ × SourceBox)) : Prop where
  nodup : (boxes.map Prod.fst).Nodup
  left_lt : ∀ p ∈ boxes, p.2.left < p.2.right

theorem SweepBoxes.index_inj {boxes : List (ℕ × SourceBox)} (h : SweepBoxes boxes) :
    ∀ p ∈ boxes, ∀ q ∈ boxes, p.1 = q.1 → p = q := fun _ hp _ hq => List.inj_on_of_nodup_map h.nodup hp hq

/-- The items that overlap a query, once both were started. -/
def reportable (items : List (ℕ × SourceBox)) (done : List SweepEvent) (q : ℕ × SourceBox) :
    List (ℕ × SourceBox) :=
  items.filter fun p => decide (itemStart p ∈ done ∧ queryStart q ∈ done ∧ p.2.Overlaps q.2)

/-- A result holds, once each, as many indexes of a list of boxes as the limit allows. -/
structure Reported (limit : ℕ) (pool : List (ℕ × SourceBox)) (found : List ℕ) : Prop where
  nodup : found.Nodup
  length_eq : found.length = min limit pool.length
  sound : ∀ i ∈ found, ∃ p ∈ pool, p.1 = i

/-- The state of the sweep after the events `done`; the results of the other queries are the initial ones. -/
structure SweepInvariant (initial : Dict ℕ (List ℕ)) (limit : ℕ) (items queries : List (ℕ × SourceBox))
    (done : List SweepEvent) (s : SweepState) : Prop where
  activeItems : ActiveTree s.activeItems s.itemKeys {p | p ∈ items ∧ itemStart p ∈ done ∧ itemEnd p ∉ done}
  activeQueries : ActiveTree s.activeQueries s.queryKeys
    {q | q ∈ queries ∧ queryStart q ∈ done ∧ queryEnd q ∉ done ∧ (reportable items done q).length < limit}
  matched : ∀ q ∈ queries, ∃ found, s.matched.lookup q.1 = some found ∧ Reported limit (reportable items done q) found
  frame : ∀ i, (∀ q ∈ queries, q.1 ≠ i) → s.matched.lookup i = initial.lookup i

/-- The next event of the sweep after the events `done`. -/
structure NextEvent (items queries : List (ℕ × SourceBox)) (done : List SweepEvent) (e : SweepEvent) : Prop where
  fresh : e ∉ done
  before : ∀ e' ∈ done, e'.sortKey ≤ e.sortKey
  itemEnds : ∀ p ∈ items, itemEnd p ∉ done → e.sortKey ≤ (itemEnd p).sortKey
  queryEnds : ∀ q ∈ queries, queryEnd q ∉ done → e.sortKey ≤ (queryEnd q).sortKey

section Step

variable {initial : Dict ℕ (List ℕ)} {limit : ℕ} {items queries : List (ℕ × SourceBox)} {done : List SweepEvent}
  {s : SweepState}

private theorem coordinate_le {e e' : SweepEvent} (h : e.sortKey ≤ e'.sortKey) : e.coordinate ≤ e'.coordinate := by
  rcases (Prod.Lex.toLex_le_toLex).1 h with h | h
  · exact h.le
  · exact h.1.le

/-- At one coordinate an event of a smaller kind comes first. -/
private theorem coordinate_lt {e e' : SweepEvent} (h : e.sortKey ≤ e'.sortKey) (hr : e'.kind.rank < e.kind.rank) :
    e.coordinate < e'.coordinate := by
  rcases (Prod.Lex.toLex_le_toLex).1 h with h | h
  · exact h
  · rcases (Prod.Lex.toLex_le_toLex).1 h.2 with h' | h'
    · exact absurd h' (lt_asymm hr)
    · exact absurd h'.1 hr.ne'

private theorem itemStart_inj {p q : ℕ × SourceBox} : itemStart p = itemStart q ↔ p = q := by
  cases p; cases q; simp [itemStart]; grind

private theorem queryStart_inj {p q : ℕ × SourceBox} : queryStart p = queryStart q ↔ p = q := by
  cases p; cases q; simp [queryStart]; grind

private theorem itemEnd_inj {p q : ℕ × SourceBox} : itemEnd p = itemEnd q ↔ p = q := by
  cases p; cases q; simp [itemEnd]; grind

private theorem queryEnd_inj {p q : ℕ × SourceBox} : queryEnd p = queryEnd q ↔ p = q := by
  cases p; cases q; simp [queryEnd]; grind

private theorem mem_reportable {p q : ℕ × SourceBox} :
    p ∈ reportable items done q ↔ p ∈ items ∧ itemStart p ∈ done ∧ queryStart q ∈ done ∧ p.2.Overlaps q.2 := by
  rw [reportable, List.mem_filter, decide_eq_true_eq]

/-- Only the start of an item or of the query itself changes what is reportable to the query. -/
private theorem reportable_append {e : SweepEvent} {q : ℕ × SourceBox}
    (hi : ∀ p ∈ items, p.2.Overlaps q.2 → queryStart q ∈ done ++ [e] → itemStart p ≠ e) (hq : queryStart q ≠ e) :
    reportable items (done ++ [e]) q = reportable items done q := by
  refine List.filter_congr fun p hp => ?_
  simp only [decide_eq_decide, List.mem_append, List.mem_singleton, hq, or_false]
  constructor
  · rintro ⟨h1 | h1, h2, h3⟩
    · exact ⟨h1, h2, h3⟩
    · exact absurd h1 (hi p hp h3 (by simp [h2]))
  · rintro ⟨h1, h2, h3⟩
    exact ⟨Or.inl h1, h2, h3⟩

private theorem step_itemEnd (hs : SweepInvariant initial limit items queries done s) (hi : SweepBoxes items)
    {p : ℕ × SourceBox} (hp : p ∈ items) :
    ∃ s', sweepStep limit s (itemEnd p) = .ok s' ∧ SweepInvariant initial limit items queries (done ++ [itemEnd p]) s' := by
  have hrep : ∀ q, reportable items (done ++ [itemEnd p]) q = reportable items done q := fun q =>
    reportable_append (fun p' _ _ _ => by simp [itemStart, itemEnd]) (by simp [queryStart, itemEnd])
  have hstart : ∀ p', itemStart p' ∈ done ++ [itemEnd p] ↔ itemStart p' ∈ done := by simp [itemStart, itemEnd]
  have hqs : ∀ q, queryStart q ∈ done ++ [itemEnd p] ↔ queryStart q ∈ done := by simp [queryStart, itemEnd]
  have hqe : ∀ q, queryEnd q ∈ done ++ [itemEnd p] ↔ queryEnd q ∈ done := by simp [queryEnd, itemEnd]
  have hset : {p' | p' ∈ items ∧ itemStart p' ∈ done ++ [itemEnd p] ∧ itemEnd p' ∉ done ++ [itemEnd p]} =
      {p' ∈ {p' | p' ∈ items ∧ itemStart p' ∈ done ∧ itemEnd p' ∉ done} | p'.1 ≠ p.1} := by
    ext p'
    simp only [Set.mem_ofPred_eq, hstart, List.mem_append, List.mem_singleton, not_or, itemEnd_inj]
    constructor
    · rintro ⟨h1, h2, h3, h4⟩
      exact ⟨⟨h1, h2, h3⟩, fun h => h4 (hi.index_inj p' h1 p hp h)⟩
    · rintro ⟨⟨h1, h2, h3⟩, h4⟩
      exact ⟨h1, h2, h3, fun h => h4 (by rw [h])⟩
  have hq : ∀ s' : SweepState, s'.activeQueries = s.activeQueries → s'.queryKeys = s.queryKeys →
      s'.matched = s.matched → ActiveTree s'.activeItems s'.itemKeys
        {p' ∈ {p' | p' ∈ items ∧ itemStart p' ∈ done ∧ itemEnd p' ∉ done} | p'.1 ≠ p.1} →
      SweepInvariant initial limit items queries (done ++ [itemEnd p]) s' := by
    intro s' h1 h2 h3 h4
    refine ⟨by rw [hset]; exact h4, ?_, ?_, by rw [h3]; exact hs.frame⟩
    · simp only [hqs, hqe, hrep, h1, h2]; exact hs.activeQueries
    · simp only [hrep, h3]; exact hs.matched
  simp only [sweepStep, itemEnd]
  split
  · rename_i hnone
    exact ⟨s, rfl, hq s rfl rfl rfl (by rw [hs.activeItems.eq_of_lookup_none hnone]; exact hs.activeItems)⟩
  · rename_i key hkey
    exact ⟨_, rfl, hq _ rfl rfl rfl (hs.activeItems.delete hkey)⟩

private theorem step_queryEnd (hs : SweepInvariant initial limit items queries done s) (hq : SweepBoxes queries)
    {q : ℕ × SourceBox} (hqm : q ∈ queries) :
    ∃ s', sweepStep limit s (queryEnd q) = .ok s' ∧ SweepInvariant initial limit items queries (done ++ [queryEnd q]) s' := by
  have hrep : ∀ q', reportable items (done ++ [queryEnd q]) q' = reportable items done q' := fun q' =>
    reportable_append (fun p' _ _ _ => by simp [itemStart, queryEnd]) (by simp [queryStart, queryEnd])
  have his : ∀ p', itemStart p' ∈ done ++ [queryEnd q] ↔ itemStart p' ∈ done := by simp [itemStart, queryEnd]
  have hie : ∀ p', itemEnd p' ∈ done ++ [queryEnd q] ↔ itemEnd p' ∈ done := by simp [itemEnd, queryEnd]
  have hqs : ∀ q', queryStart q' ∈ done ++ [queryEnd q] ↔ queryStart q' ∈ done := by simp [queryStart, queryEnd]
  have hset : {q' | q' ∈ queries ∧ queryStart q' ∈ done ++ [queryEnd q] ∧ queryEnd q' ∉ done ++ [queryEnd q] ∧
        (reportable items (done ++ [queryEnd q]) q').length < limit} =
      {q' ∈ {q' | q' ∈ queries ∧ queryStart q' ∈ done ∧ queryEnd q' ∉ done ∧
        (reportable items done q').length < limit} | q'.1 ≠ q.1} := by
    ext q'
    simp only [Set.mem_ofPred_eq, hqs, hrep, List.mem_append, List.mem_singleton, not_or, queryEnd_inj]
    constructor
    · rintro ⟨h1, h2, ⟨h3, h4⟩, h5⟩
      exact ⟨⟨h1, h2, h3, h5⟩, fun h => h4 (hq.index_inj q' h1 q hqm h)⟩
    · rintro ⟨⟨h1, h2, h3, h5⟩, h4⟩
      exact ⟨h1, h2, ⟨h3, fun h => h4 (by rw [h])⟩, h5⟩
  have hi : ∀ s' : SweepState, s'.activeItems = s.activeItems → s'.itemKeys = s.itemKeys → s'.matched = s.matched →
      ActiveTree s'.activeQueries s'.queryKeys
        {q' ∈ {q' | q' ∈ queries ∧ queryStart q' ∈ done ∧ queryEnd q' ∉ done ∧
          (reportable items done q').length < limit} | q'.1 ≠ q.1} →
      SweepInvariant initial limit items queries (done ++ [queryEnd q]) s' := by
    intro s' h1 h2 h3 h4
    refine ⟨?_, by rw [hset]; exact h4, ?_, by rw [h3]; exact hs.frame⟩
    · simp only [his, hie, h1, h2]; exact hs.activeItems
    · simp only [hrep, h3]; exact hs.matched
  simp only [sweepStep, queryEnd]
  split
  · rename_i hnone
    exact ⟨s, rfl, hi s rfl rfl rfl (by rw [hs.activeQueries.eq_of_lookup_none hnone]; exact hs.activeQueries)⟩
  · rename_i key hkey
    exact ⟨_, rfl, hi _ rfl rfl rfl (hs.activeQueries.delete hkey)⟩

/-- A result at the limit stays complete when more items become reportable. -/
private theorem Reported.mono {pool pool' : List (ℕ × SourceBox)} {found : List ℕ} (h : Reported limit pool found)
    (hsub : pool ⊆ pool') (hlim : limit ≤ pool.length) (hlen : pool.length ≤ pool'.length) :
    Reported limit pool' found := by
  refine ⟨h.nodup, ?_, fun i hi => ?_⟩
  · have := h.length_eq
    omega
  · obtain ⟨p, hp, hpi⟩ := h.sound i hi
    exact ⟨p, hsub hp, hpi⟩

/-- The start of an overlapping item makes that item reportable, and nothing else. -/
private theorem reportable_itemStart_perm (hi : SweepBoxes items) {p q : ℕ × SourceBox} (hp : p ∈ items)
    (hfresh : itemStart p ∉ done) (hq : queryStart q ∈ done) (hov : p.2.Overlaps q.2) :
    (reportable items (done ++ [itemStart p]) q).Perm (p :: reportable items done q) := by
  have hn : items.Nodup := List.Nodup.of_map _ hi.nodup
  have hnot : p ∉ reportable items done q := fun h => hfresh (mem_reportable.1 h).2.1
  unfold reportable at hnot ⊢
  rw [List.perm_ext_iff_of_nodup (hn.filter _) (List.nodup_cons.2 ⟨hnot, hn.filter _⟩)]
  intro p'
  have hqs : queryStart q ∈ done ++ [itemStart p] ↔ queryStart q ∈ done := by simp [queryStart, itemStart]
  rw [← reportable, ← reportable, List.mem_cons, mem_reportable, mem_reportable, hqs, List.mem_append, List.mem_singleton, itemStart_inj]
  constructor
  · rintro ⟨h1, h2 | rfl, h3, h4⟩
    · exact Or.inr ⟨h1, h2, h3, h4⟩
    · exact Or.inl rfl
  · rintro (rfl | ⟨h1, h2, h3, h4⟩)
    · exact ⟨hp, Or.inr rfl, hq, hov⟩
    · exact ⟨h1, Or.inl h2, h3, h4⟩

/-- The active queries that a starting item meets vertically are the started queries that it overlaps and whose
result is below the limit. -/
private theorem mem_overlappingQueries (hs : SweepInvariant initial limit items queries done s) (hi : SweepBoxes items)
    (hq : SweepBoxes queries) {p : ℕ × SourceBox} (hp : p ∈ items)
    (hnext : NextEvent items queries done (itemStart p)) {q : ℕ × SourceBox} (hqm : q ∈ queries) :
    q.1 ∈ s.activeQueries.query p.2.bottom p.2.top none [] ↔
      queryStart q ∈ done ∧ p.2.Overlaps q.2 ∧ (reportable items done q).length < limit := by
  rw [(hs.activeQueries.query_spec _ _).2]
  constructor
  · rintro ⟨q', ⟨hq', h1, h2, h3⟩, hidx, h4, h5⟩
    obtain rfl := hq.index_inj q' hq' q hqm hidx
    have h6 : p.2.left < q'.2.right := coordinate_lt (hnext.queryEnds q' hq' h2)
      (by simp [queryEnd, itemStart, EventKind.rank])
    have h7 : q'.2.left ≤ p.2.left := coordinate_le (hnext.before _ h1)
    exact ⟨h1, ⟨⟨h6, h7.trans_lt (hi.left_lt p hp)⟩, h5, h4⟩, h3⟩
  · rintro ⟨h1, h2, h3⟩
    refine ⟨q, ⟨hqm, h1, fun h4 => ?_, h3⟩, rfl, h2.2.2, h2.2.1⟩
    exact absurd (coordinate_le (hnext.before _ h4)) (not_le.2 h2.1.1)

private theorem step_itemStart (hs : SweepInvariant initial limit items queries done s) (hi : SweepBoxes items)
    (hq : SweepBoxes queries) {p : ℕ × SourceBox} (hp : p ∈ items)
    (hnext : NextEvent items queries done (itemStart p)) :
    ∃ s', sweepStep limit s (itemStart p) = .ok s' ∧
      SweepInvariant initial limit items queries (done ++ [itemStart p]) s' := by
  have hL : ∀ {q}, q ∈ queries → _ := mem_overlappingQueries hs hi hq hp hnext
  have hend : itemEnd p ∉ done := fun h =>
    absurd (coordinate_le (hnext.before _ h)) (not_le.2 (hi.left_lt p hp))
  obtain ⟨s₁, h₁, hitems, hkeys, hout, hin, hact⟩ := reportItems_spec limit p.1
    (hs.activeQueries.query_spec p.2.bottom p.2.top).1 hs.activeQueries
    (fun i h => by
      obtain ⟨q, hqa, hqi, -⟩ := ((hs.activeQueries.query_spec p.2.bottom p.2.top).2 i).1 h
      exact ⟨q, hqa, hqi⟩)
    (fun i h => by
      obtain ⟨q, hqa, rfl, -⟩ := ((hs.activeQueries.query_spec p.2.bottom p.2.top).2 i).1 h
      obtain ⟨found, hfound, -⟩ := hs.matched q hqa.1
      exact ⟨found, hfound⟩)
  have hqs : ∀ q, queryStart q ∈ done ++ [itemStart p] ↔ queryStart q ∈ done := by simp [queryStart, itemStart]
  have hqe : ∀ q, queryEnd q ∈ done ++ [itemStart p] ↔ queryEnd q ∈ done := by simp [queryEnd, itemStart]
  have hie : ∀ p', itemEnd p' ∈ done ++ [itemStart p] ↔ itemEnd p' ∈ done := by simp [itemEnd, itemStart]
  have hsame : ∀ q, ¬ (queryStart q ∈ done ∧ p.2.Overlaps q.2) →
      reportable items (done ++ [itemStart p]) q = reportable items done q := fun q hno =>
    reportable_append (fun p' _ hov hstart hpp => hno ⟨(hqs q).1 hstart, itemStart_inj.1 hpp ▸ hov⟩)
      (by simp [queryStart, itemStart])
  refine ⟨{ s₁ with
      activeItems := s₁.activeItems.insert (boxEntry p)
      itemKeys := s₁.itemKeys.insert p.1 (boxKey p) }, ?_, ?_, ?_, ?_, fun i hne => ?_⟩
  · simp only [sweepStep, itemStart, bind, Except.bind] at h₁ ⊢
    rw [h₁]
    rfl
  · -- the item joins the active items
    have hset : {p' | p' ∈ items ∧ itemStart p' ∈ done ++ [itemStart p] ∧ itemEnd p' ∉ done ++ [itemStart p]} =
        insert p {p' | p' ∈ items ∧ itemStart p' ∈ done ∧ itemEnd p' ∉ done} := by
      ext p'
      simp only [Set.mem_ofPred_eq, Set.mem_insert_iff, hie, List.mem_append, List.mem_singleton, itemStart_inj]
      constructor
      · rintro ⟨h1, h2 | rfl, h3⟩
        · exact Or.inr ⟨h1, h2, h3⟩
        · exact Or.inl rfl
      · rintro (rfl | ⟨h1, h2, h3⟩)
        · exact ⟨hp, Or.inr rfl, hend⟩
        · exact ⟨h1, Or.inl h2, h3⟩
    simp only [hset, hitems, hkeys]
    refine hs.activeItems.insert fun p' hp' hidx => hnext.fresh ?_
    rw [← hi.index_inj p' hp'.1 p hp hidx]
    exact hp'.2.1
  · -- the queries that reach the limit leave the active queries
    convert hact using 1
    ext q
    simp only [Set.mem_ofPred_eq, hqs, hqe]
    constructor
    · rintro ⟨h1, h2, h3, h4⟩
      by_cases hov : p.2.Overlaps q.2
      · have hlen := (reportable_itemStart_perm hi hp hnext.fresh h2 hov).length_eq
        rw [List.length_cons] at hlen
        refine ⟨⟨h1, h2, h3, by omega⟩, fun _ found hfound => ?_⟩
        obtain ⟨found', hfound', hrep⟩ := hs.matched q h1
        rw [hfound, Option.some_inj] at hfound'
        have := hrep.length_eq
        rw [← hfound'] at this
        omega
      · rw [hsame q fun h => hov h.2] at h4
        exact ⟨⟨h1, h2, h3, h4⟩, fun hmem => absurd ((hL h1).1 hmem).2.1 hov⟩
    · rintro ⟨⟨h1, h2, h3, h4⟩, h5⟩
      refine ⟨h1, h2, h3, ?_⟩
      by_cases hov : p.2.Overlaps q.2
      · obtain ⟨found, hfound, hrep⟩ := hs.matched q h1
        have hlen := (reportable_itemStart_perm hi hp hnext.fresh h2 hov).length_eq
        have hlt := h5 ((hL h1).2 ⟨h2, hov, h4⟩) found hfound
        have := hrep.length_eq
        rw [List.length_cons] at hlen
        omega
      · rw [hsame q fun h => hov h.2]
        exact h4
  · -- the results of the overlapping queries grow by the item
    intro q hqm
    obtain ⟨found, hfound, hrep⟩ := hs.matched q hqm
    by_cases hov : queryStart q ∈ done ∧ p.2.Overlaps q.2
    · have hperm := reportable_itemStart_perm hi hp hnext.fresh hov.1 hov.2
      have hlen := hperm.length_eq
      rw [List.length_cons] at hlen
      by_cases hlim : (reportable items done q).length < limit
      · refine ⟨found ++ [p.1], hin q.1 ((hL hqm).2 ⟨hov.1, hov.2, hlim⟩) found hfound, ?_, ?_, ?_⟩
        · rw [List.nodup_append]
          refine ⟨hrep.nodup, by simp, fun i hif j hj hij => ?_⟩
          obtain ⟨p', hp', hidx⟩ := hrep.sound i hif
          rw [List.mem_singleton] at hj
          obtain ⟨hp'm, hst, -⟩ := mem_reportable.1 hp'
          rw [hi.index_inj p' hp'm p hp (by rw [hidx, hij, hj])] at hst
          exact hnext.fresh hst
        · have := hrep.length_eq
          rw [List.length_append, List.length_singleton]
          omega
        · intro i hif
          rcases List.mem_append.1 hif with hif | hif
          · obtain ⟨p', hp', hidx⟩ := hrep.sound i hif
            exact ⟨p', hperm.mem_iff.2 (List.mem_cons_of_mem _ hp'), hidx⟩
          · rw [List.mem_singleton] at hif
            exact ⟨p, hperm.mem_iff.2 (List.mem_cons_self), hif.symm⟩
      · have hnot : q.1 ∉ s.activeQueries.query p.2.bottom p.2.top none [] := fun h =>
          hlim ((hL hqm).1 h).2.2
        refine ⟨found, (hout q.1 hnot).trans hfound, hrep.mono (fun p' hp' => ?_) (not_lt.1 hlim) (by omega)⟩
        exact hperm.mem_iff.2 (List.mem_cons_of_mem _ hp')
    · have hnot : q.1 ∉ s.activeQueries.query p.2.bottom p.2.top none [] := fun h =>
        hov ⟨((hL hqm).1 h).1, ((hL hqm).1 h).2.1⟩
      exact ⟨found, (hout q.1 hnot).trans hfound, by rw [hsame q hov]; exact hrep⟩
  · refine (hout i fun hmem => ?_).trans (hs.frame i hne)
    obtain ⟨q, hqa, hidx, -⟩ := ((hs.activeQueries.query_spec p.2.bottom p.2.top).2 i).1 hmem
    exact hne q hqa.1 hidx

/-- The active items that a starting query meets vertically are the started items that it overlaps. -/
private theorem mem_overlappingItems (hs : SweepInvariant initial limit items queries done s) (hq : SweepBoxes queries)
    {q : ℕ × SourceBox} (hqm : q ∈ queries)
    (hnext : NextEvent items queries done (queryStart q)) (i : ℕ) :
    i ∈ s.activeItems.query q.2.bottom q.2.top none [] ↔
      i ∈ (reportable items (done ++ [queryStart q]) q).map Prod.fst := by
  have his : ∀ p, itemStart p ∈ done ++ [queryStart q] ↔ itemStart p ∈ done := by simp [queryStart, itemStart]
  rw [(hs.activeItems.query_spec _ _).2, List.mem_map]
  constructor
  · rintro ⟨p, ⟨hp, h1, h2⟩, rfl, h4, h5⟩
    have h6 : q.2.left < p.2.right := coordinate_lt (hnext.itemEnds p hp h2)
      (by simp [itemEnd, queryStart, EventKind.rank])
    have h7 : p.2.left ≤ q.2.left := coordinate_le (hnext.before _ h1)
    refine ⟨p, mem_reportable.2 ⟨hp, (his p).2 h1, by simp, ?_⟩, rfl⟩
    exact ⟨⟨h7.trans_lt (hq.left_lt q hqm), h6⟩, h4, h5⟩
  · rintro ⟨p, hp, rfl⟩
    obtain ⟨hp, h1, -, h2⟩ := mem_reportable.1 hp
    refine ⟨p, ⟨hp, (his p).1 h1, fun h4 => ?_⟩, rfl, h2.2.1, h2.2.2⟩
    exact absurd (coordinate_le (hnext.before _ h4)) (not_le.2 h2.1.2)

private theorem step_queryStart (hs : SweepInvariant initial limit items queries done s) (hi : SweepBoxes items)
    (hq : SweepBoxes queries) {q : ℕ × SourceBox} (hqm : q ∈ queries)
    (hnext : NextEvent items queries done (queryStart q)) :
    ∃ s', sweepStep limit s (queryStart q) = .ok s' ∧
      SweepInvariant initial limit items queries (done ++ [queryStart q]) s' := by
  have his : ∀ p, itemStart p ∈ done ++ [queryStart q] ↔ itemStart p ∈ done := by simp [queryStart, itemStart]
  have hie : ∀ p, itemEnd p ∈ done ++ [queryStart q] ↔ itemEnd p ∈ done := by simp [queryStart, itemEnd]
  have hqe : ∀ q', queryEnd q' ∈ done ++ [queryStart q] ↔ queryEnd q' ∈ done := by simp [queryStart, queryEnd]
  have hend : queryEnd q ∉ done := fun h =>
    absurd (coordinate_le (hnext.before _ h)) (not_le.2 (hq.left_lt q hqm))
  have hsame : ∀ q', q' ≠ q → reportable items (done ++ [queryStart q]) q' = reportable items done q' :=
    fun q' hne => reportable_append (fun p' _ _ _ => by simp [itemStart, queryStart])
      (fun h => hne (queryStart_inj.1 h))
  -- the result of the query is empty before its start, and complete after it
  obtain ⟨found, hfound, hrep⟩ := hs.matched q hqm
  have hnil : found = [] := by
    have hempty : reportable items done q = [] :=
      List.filter_eq_nil_iff.2 fun p _ => by simp [hnext.fresh]
    simpa [hempty] using hrep.length_eq
  subst hnil
  have hquery := hs.activeItems.query_spec q.2.bottom q.2.top
  have hcomplete : Reported limit (reportable items (done ++ [queryStart q]) q)
      (s.activeItems.query q.2.bottom q.2.top (some limit) []) := by
    rw [hs.activeItems.query_limit]
    have hperm : (s.activeItems.query q.2.bottom q.2.top none []).Perm
        ((reportable items (done ++ [queryStart q]) q).map Prod.fst) :=
      (List.perm_ext_iff_of_nodup hquery.1 (hi.nodup.sublist (List.filter_sublist.map _))).2
        (mem_overlappingItems hs hq hqm hnext)
    refine ⟨hquery.1.sublist (List.take_sublist _ _), ?_, fun i hif => ?_⟩
    · rw [List.length_take, hperm.length_eq, List.length_map]
    · simpa using List.mem_map.1 (hperm.mem_iff.1 (List.mem_of_mem_take hif))
  have hmatched : ∀ q' ∈ queries, ∃ found', (s.matched.insert q.1
      (s.activeItems.query q.2.bottom q.2.top (some limit) [])).lookup q'.1 = some found' ∧
        Reported limit (reportable items (done ++ [queryStart q]) q') found' := by
    intro q' hq'
    by_cases hne : q' = q
    · subst hne
      exact ⟨_, AList.lookup_insert _, hcomplete⟩
    · obtain ⟨found', hfound', hrep'⟩ := hs.matched q' hq'
      refine ⟨found', ?_, by rw [hsame q' hne]; exact hrep'⟩
      rw [AList.lookup_insert_ne fun h => hne (hq.index_inj q' hq' q hqm h)]
      exact hfound'
  have hframe : ∀ i, (∀ q' ∈ queries, q'.1 ≠ i) → (s.matched.insert q.1
      (s.activeItems.query q.2.bottom q.2.top (some limit) [])).lookup i = initial.lookup i := fun i hne => by
    rw [AList.lookup_insert_ne (hne q hqm).symm]
    exact hs.frame i hne
  have hitems : ActiveTree s.activeItems s.itemKeys
      {p | p ∈ items ∧ itemStart p ∈ done ++ [queryStart q] ∧ itemEnd p ∉ done ++ [queryStart q]} := by
    simp only [his, hie]
    exact hs.activeItems
  have hset : ∀ q', q' ≠ q → ((q' ∈ queries ∧ queryStart q' ∈ done ++ [queryStart q] ∧
      queryEnd q' ∉ done ++ [queryStart q] ∧ (reportable items (done ++ [queryStart q]) q').length < limit) ↔
      (q' ∈ queries ∧ queryStart q' ∈ done ∧ queryEnd q' ∉ done ∧ (reportable items done q').length < limit)) := by
    intro q' hne
    simp only [hqe, hsame q' hne, List.mem_append, List.mem_singleton, queryStart_inj, hne, or_false]
  have hlen := hcomplete.length_eq
  set result := s.activeItems.query q.2.bottom q.2.top (some limit) [] with hresult
  have hstep : sweepStep limit s (queryStart q) = .ok (if result.length < limit then
      { s with
        matched := s.matched.insert q.1 result
        activeQueries := s.activeQueries.insert (boxEntry q)
        queryKeys := s.queryKeys.insert q.1 (boxKey q) }
      else { s with matched := s.matched.insert q.1 result }) := by
    simp only [sweepStep, queryStart, bind, Except.bind, pure, Except.pure, Dict.getItem_eq_ok.2 hfound,
      List.nil_append, ← hresult]
    split <;> rfl
  rw [hstep]
  by_cases hlim : result.length < limit
  · simp only [hlim, ↓reduceIte]
    refine ⟨_, rfl, hitems, ?_, hmatched, hframe⟩
    convert hs.activeQueries.insert (p := q) (fun q' hq' hidx => hnext.fresh ?_) using 1
    · ext q'
      rw [Set.mem_insert_iff]
      by_cases hne : q' = q
      · subst hne
        simp only [Set.mem_ofPred_eq, true_or, iff_true, hqe]
        exact ⟨hqm, by simp, hend, by omega⟩
      · simp only [hne, false_or]
        exact hset q' hne
    · rw [← hq.index_inj q' hq'.1 q hqm hidx]
      exact hq'.2.1
  · simp only [hlim, ↓reduceIte]
    refine ⟨_, rfl, hitems, ?_, hmatched, hframe⟩
    convert hs.activeQueries using 1
    ext q'
    by_cases hne : q' = q
    · subst hne
      simp only [Set.mem_ofPred_eq, hnext.fresh, false_and, and_false, iff_false]
      rintro ⟨-, -, -, h⟩
      omega
    · exact hset q' hne

end Step

/-! ### The run of the sweep -/

section Run

variable {initial : Dict ℕ (List ℕ)} {limit : ℕ} {items queries : List (ℕ × SourceBox)}

private theorem mem_sweepEvents {e : SweepEvent} :
    e ∈ sweepEvents items queries ↔
      (∃ p ∈ properBoxes items, e = itemEnd p ∨ e = itemStart p) ∨
        ∃ q ∈ properBoxes queries, e = queryEnd q ∨ e = queryStart q := by
  simp [sweepEvents]

private theorem sweepBoxes_properBoxes {boxes : List (ℕ × SourceBox)} (h : (boxes.map Prod.fst).Nodup) :
    SweepBoxes (properBoxes boxes) where
  nodup := h.sublist (List.filter_sublist.map _)
  left_lt p hp := by
    rw [properBoxes, List.mem_filter, Bool.not_eq_true'] at hp
    exact (boxIsDegenerate_eq_false.1 hp.2).1

private theorem nodup_flatMap_events {boxes : List (ℕ × SourceBox)} (h : boxes.Nodup)
    {f g : ℕ × SourceBox → SweepEvent} (hf : ∀ p q, f p = f q → p = q) (hg : ∀ p q, g p = g q → p = q)
    (hfg : ∀ p q, f p ≠ g q) : (boxes.flatMap fun p => [f p, g p]).Nodup := by
  induction boxes with
  | nil => simp
  | cons p boxes ih =>
    obtain ⟨hp, hn⟩ := List.nodup_cons.1 h
    rw [List.flatMap_cons, List.nodup_append]
    refine ⟨by simp [hfg], ih hn, fun a ha b hb hab => ?_⟩
    obtain ⟨q, hq, hbq⟩ := List.mem_flatMap.1 hb
    subst hab
    simp only [List.mem_cons, List.not_mem_nil, or_false] at ha hbq
    rcases ha with rfl | rfl <;> rcases hbq with hbq | hbq
    · exact hp (hf p q hbq ▸ hq)
    · exact hfg p q hbq
    · exact hfg q p hbq.symm
    · exact hp (hg p q hbq ▸ hq)

private theorem nodup_sweepEvents (hi : (items.map Prod.fst).Nodup) (hq : (queries.map Prod.fst).Nodup) :
    (sweepEvents items queries).Nodup := by
  have hi' : (properBoxes items).Nodup := (List.Nodup.of_map _ hi).filter _
  have hq' : (properBoxes queries).Nodup := (List.Nodup.of_map _ hq).filter _
  rw [sweepEvents, (sortBy_perm _ _).nodup_iff, List.nodup_append]
  refine ⟨nodup_flatMap_events hi' (fun _ _ => itemEnd_inj.1) (fun _ _ => itemStart_inj.1) ?_,
    nodup_flatMap_events hq' (fun _ _ => queryEnd_inj.1) (fun _ _ => queryStart_inj.1) ?_, ?_⟩
  · simp [itemEnd, itemStart]
  · simp [queryEnd, queryStart]
  · rintro a ha b hb rfl
    simp only [List.mem_flatMap, List.mem_cons, List.not_mem_nil, or_false] at ha hb
    obtain ⟨p, -, rfl | rfl⟩ := ha <;> obtain ⟨q, -, h | h⟩ := hb <;>
      simp [itemEnd, itemStart, queryEnd, queryStart] at h

/-- One event keeps the invariant. -/
private theorem sweepStep_invariant (hi : (items.map Prod.fst).Nodup) (hq : (queries.map Prod.fst).Nodup)
    {done rest : List SweepEvent} {e : SweepEvent} (hsplit : sweepEvents items queries = done ++ e :: rest)
    {s : SweepState} (hs : SweepInvariant initial limit (properBoxes items) (properBoxes queries) done s) :
    ∃ s', sweepStep limit s e = .ok s' ∧
      SweepInvariant initial limit (properBoxes items) (properBoxes queries) (done ++ [e]) s' := by
  have hi' := sweepBoxes_properBoxes hi
  have hq' := sweepBoxes_properBoxes hq
  have hnodup := nodup_sweepEvents hi hq
  have hsorted := sortBy_pairwise_le sortKey
    ((properBoxes items).flatMap (fun p => [itemEnd p, itemStart p]) ++
      (properBoxes queries).flatMap fun p => [queryEnd p, queryStart p])
  rw [← sweepEvents, hsplit, List.pairwise_append, List.pairwise_cons] at hsorted
  rw [hsplit] at hnodup
  have hafter : ∀ e' ∈ sweepEvents items queries, e' ∉ done → e.sortKey ≤ e'.sortKey := by
    intro e' he' hnot
    rw [hsplit] at he'
    rcases List.mem_append.1 he' with h | h
    · exact absurd h hnot
    · rcases List.mem_cons.1 h with rfl | h
      · exact le_rfl
      · exact hsorted.2.1.1 e' h
  have hnext : NextEvent (properBoxes items) (properBoxes queries) done e :=
    { fresh := fun h => (List.nodup_append.1 hnodup).2.2 e h e (by simp) rfl
      before := fun e' he' => hsorted.2.2 e' he' e (by simp)
      itemEnds := fun p hp => hafter _ (mem_sweepEvents.2 (Or.inl ⟨p, hp, Or.inl rfl⟩))
      queryEnds := fun q hq => hafter _ (mem_sweepEvents.2 (Or.inr ⟨q, hq, Or.inl rfl⟩)) }
  have he : e ∈ sweepEvents items queries := by simp [hsplit]
  rcases mem_sweepEvents.1 he with ⟨p, hp, rfl | rfl⟩ | ⟨q, hqm, rfl | rfl⟩
  · exact step_itemEnd hs hi' hp
  · exact step_itemStart hs hi' hq' hp hnext
  · exact step_queryEnd hs hq' hqm
  · exact step_queryStart hs hi' hq' hqm hnext

/-- The remaining events keep the invariant. -/
private theorem sweep_invariant (hi : (items.map Prod.fst).Nodup) (hq : (queries.map Prod.fst).Nodup)
    {done rest : List SweepEvent} (hsplit : sweepEvents items queries = done ++ rest) {s : SweepState}
    (hs : SweepInvariant initial limit (properBoxes items) (properBoxes queries) done s) :
    ∃ s', rest.foldlM (sweepStep limit) s = .ok s' ∧
      SweepInvariant initial limit (properBoxes items) (properBoxes queries) (sweepEvents items queries) s' := by
  induction rest generalizing done s with
  | nil => exact ⟨s, rfl, by rw [hsplit, List.append_nil]; exact hs⟩
  | cons e rest ih =>
    obtain ⟨s₁, h₁, hs₁⟩ := sweepStep_invariant hi hq hsplit hs
    obtain ⟨s', h', hs'⟩ := ih (by rw [hsplit, List.append_assoc]; rfl) hs₁
    exact ⟨s', by rw [List.foldlM_cons, h₁]; exact h', hs'⟩

private theorem lookup_initialMatches (hq : (queries.map Prod.fst).Nodup) {q : ℕ × SourceBox} (hqm : q ∈ queries) :
    (initialMatches items queries limit).lookup q.1 =
      some (if boxIsDegenerate q.2 then (degenerateItems items (boxCoordinates q.2)).take limit else []) := by
  refine Dict.lookup_ofList (by simpa [Function.comp_def] using hq) ?_
  exact List.mem_map.2 ⟨q, hqm, rfl⟩

private theorem initial_invariant (items : List (ℕ × SourceBox)) (limit : ℕ) (hq : (queries.map Prod.fst).Nodup) :
    SweepInvariant (initialMatches items queries limit) limit (properBoxes items) (properBoxes queries) []
      ⟨initialMatches items queries limit, .nil, .nil, ∅, ∅⟩ where
  activeItems := by convert ActiveTree.empty using 1; ext p; simp
  activeQueries := by convert ActiveTree.empty using 1; ext q; simp
  matched q hqm := by
    rw [properBoxes, List.mem_filter, Bool.not_eq_true'] at hqm
    refine ⟨[], by rw [lookup_initialMatches hq hqm.1, hqm.2]; rfl, List.nodup_nil, ?_, by simp⟩
    simp [reportable]
  frame _ _ := rfl

/-- The boxes that overlap a degenerate box are the boxes equal to it. -/
private theorem degenerate_result {q : ℕ × SourceBox} (hd : boxIsDegenerate q.2 = true) :
    degenerateItems items (boxCoordinates q.2) = (items.filter fun p => boxesOverlap p.2 q.2).map Prod.fst := by
  unfold degenerateItems
  congr 1
  refine List.filter_congr fun p _ => ?_
  rw [Bool.eq_iff_iff, boxesOverlap_of_degenerate (Or.inr hd), Bool.and_eq_true, decide_eq_true_eq,
    boxCoordinates_inj]
  exact ⟨fun h => h.2, fun h => ⟨h ▸ hd, h⟩⟩

/-- The boxes that overlap a proper box are the proper boxes that meet it. -/
private theorem proper_result {q : ℕ × SourceBox} (hqm : q ∈ properBoxes queries) :
    reportable (properBoxes items) (sweepEvents items queries) q =
      items.filter fun p => boxesOverlap p.2 q.2 := by
  rw [reportable, properBoxes, List.filter_filter]
  refine List.filter_congr fun p hp => ?_
  have hd : boxIsDegenerate q.2 = false := by
    rw [properBoxes, List.mem_filter, Bool.not_eq_true'] at hqm
    exact hqm.2
  rw [Bool.eq_iff_iff, Bool.and_eq_true, decide_eq_true_eq, Bool.not_eq_true']
  by_cases hpd : boxIsDegenerate p.2 = true
  · rw [boxesOverlap_of_degenerate (Or.inl hpd), hpd]
    simp only [Bool.true_eq_false, and_false, false_iff]
    intro h
    rw [h, hd] at hpd
    cases hpd
  · rw [Bool.not_eq_true] at hpd
    rw [boxesOverlap_of_proper hpd hd]
    have hpm : p ∈ properBoxes items := List.mem_filter.2 ⟨hp, by simp [hpd]⟩
    have h1 : itemStart p ∈ sweepEvents items queries := mem_sweepEvents.2 (Or.inl ⟨p, hpm, Or.inr rfl⟩)
    have h2 : queryStart q ∈ sweepEvents items queries := mem_sweepEvents.2 (Or.inr ⟨q, hqm, Or.inr rfl⟩)
    simp [h1, h2, hpd]

/-- The matching agrees with the comparison of all pairs: it returns a result for every query, with distinct items
that overlap the query, as many as the limit and the number of overlapping items allow.  Boxes with an area overlap
when their open rectangles meet, other boxes when they are equal. -/
theorem boundedRectangleMatches_eq_all_pairs (items queries : List (ℕ × SourceBox)) (limit : ℤ)
    (hitems : (items.map Prod.fst).Nodup) (hqueries : (queries.map Prod.fst).Nodup) :
    ∃ result, boundedRectangleMatches items queries limit = .ok result ∧
      ∀ q ∈ queries, ∃ found, result.lookup q.1 = some found ∧ found.Nodup ∧
        found.length = min limit.toNat (items.filter fun p => boxesOverlap p.2 q.2).length ∧
        ∀ i ∈ found, ∃ p ∈ items, p.1 = i ∧ boxesOverlap p.2 q.2 = true ∧
          (if boxIsDegenerate p.2 = false ∧ boxIsDegenerate q.2 = false then p.2.Overlaps q.2 else p.2 = q.2) := by
  have hpair : ∀ p q : ℕ × SourceBox, boxesOverlap p.2 q.2 = true →
      (if boxIsDegenerate p.2 = false ∧ boxIsDegenerate q.2 = false then p.2.Overlaps q.2 else p.2 = q.2) := by
    intro p q h
    split
    · rename_i hd
      exact (boxesOverlap_of_proper hd.1 hd.2).1 h
    · rename_i hd
      refine (boxesOverlap_of_degenerate ?_).1 h
      rwa [not_and_or, Bool.not_eq_false, Bool.not_eq_false] at hd
  unfold boundedRectangleMatches
  by_cases hlim : limit ≤ 0
  · simp only [hlim, ↓reduceIte]
    refine ⟨_, rfl, fun q hqm => ⟨[], ?_, List.nodup_nil, ?_, by simp⟩⟩
    · exact Dict.lookup_ofList (by simpa [Function.comp_def] using hqueries) (List.mem_map.2 ⟨q, hqm, rfl⟩)
    · simp [Int.toNat_of_nonpos hlim]
  · simp only [hlim, ↓reduceIte]
    obtain ⟨s, hrun, hs⟩ := sweep_invariant hitems hqueries (List.nil_append _).symm
      (initial_invariant items limit.toNat hqueries)
    refine ⟨s.matched, by rw [hrun]; rfl, fun q hqm => ?_⟩
    by_cases hd : boxIsDegenerate q.2 = true
    · -- the sweep leaves the result of a degenerate query as it was
      have hframe := hs.frame q.1 fun q' hq' hidx => by
        rw [properBoxes, List.mem_filter] at hq'
        rw [List.inj_on_of_nodup_map hqueries hq'.1 hqm hidx, hd] at hq'
        exact absurd hq'.2 (by simp)
      rw [lookup_initialMatches hqueries hqm, hd, degenerate_result hd] at hframe
      refine ⟨_, hframe, ?_, by simp, fun i hi => ?_⟩
      · exact (hitems.sublist (List.filter_sublist.map _)).sublist (List.take_sublist _ _)
      · obtain ⟨p, hp, rfl⟩ := List.mem_map.1 (List.mem_of_mem_take hi)
        rw [List.mem_filter] at hp
        exact ⟨p, hp.1, rfl, hp.2, hpair p q hp.2⟩
    · have hqp : q ∈ properBoxes queries := List.mem_filter.2 ⟨hqm, by simpa using hd⟩
      obtain ⟨found, hfound, hrep⟩ := hs.matched q hqp
      rw [proper_result hqp] at hrep
      refine ⟨found, hfound, hrep.nodup, hrep.length_eq, fun i hi => ?_⟩
      obtain ⟨p, hp, hidx⟩ := hrep.sound i hi
      rw [List.mem_filter] at hp
      exact ⟨p, hp.1, hidx, hp.2, hpair p q hp.2⟩

/-- Two items that fill the page and a limit of one: the query gets one of them. -/
theorem boundedRectangleMatches_page :
    ∃ result, boundedRectangleMatches [(0, .page), (1, .page)] [(0, .page)] 1 = .ok result ∧
      ∃ found, result.lookup 0 = some found ∧ found.length = 1 := by
  obtain ⟨result, hresult, hall⟩ :=
    boundedRectangleMatches_eq_all_pairs [(0, .page), (1, .page)] [(0, .page)] 1 (by decide) (by decide)
  obtain ⟨found, hfound, -, hlen, -⟩ := hall (0, .page) (by simp)
  refine ⟨result, hresult, found, hfound, ?_⟩
  rw [hlen]
  decide +kernel

end Run

end ArdOssie
