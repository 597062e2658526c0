import Mathlib.Data.List.Sort
import Mathlib.Data.List.Nodup
import Mathlib.Data.List.Pairwise
import Mathlib.Data.Prod.Lex

/-!
# Lists: stable sorting by a key

`sortBy key l` is the stable sort of `l` by `key`.  Its value is determined by the permutation class of `l` as soon
as the keys are distinct.
-/

namespace ArdOssie

section SortBy

variable {β κ : Type} [LinearOrder κ] {key : β → κ} {l : List β}

/-- The stable sort of a list by a key. -/
def sortBy (key : β → κ) (l : List β) : List β := l.insertionSort (fun a b => key a ≤ key b)

theorem sortBy_perm (key : β → κ) (l : List β) : (sortBy key l).Perm l := List.perm_insertionSort _ _

@[simp] theorem mem_sortBy {x : β} : x ∈ sortBy key l ↔ x ∈ l := (sortBy_perm key l).mem_iff

@[simp] theorem sortBy_nil : sortBy key ([] : List β) = [] := by simp [sortBy]

@[simp] theorem length_sortBy : (sortBy key l).length = l.length := (sortBy_perm key l).length_eq

theorem sortBy_pairwise_le (key : β → κ) (l : List β) : (sortBy key l).Pairwise (fun a b => key a ≤ key b) :=
  have : Std.Total (fun a b : β => key a ≤ key b) := ⟨fun a b => le_total (key a) (key b)⟩
  have : IsTrans β (fun a b : β => key a ≤ key b) := ⟨fun _ _ _ h h' => le_trans h h'⟩
  List.pairwise_insertionSort _ _

/-- A list that is already in order is not changed. -/
theorem sortBy_eq_self (h : l.Pairwise (fun a b => key a ≤ key b)) : sortBy key l = l :=
  List.Pairwise.insertionSort_eq h

theorem nodup_map_sortBy {γ : Type} {f : β → γ} : ((sortBy key l).map f).Nodup ↔ (l.map f).Nodup :=
  ((sortBy_perm key l).map f).nodup_iff

/-- Sorting the images is sorting by the key of the image. -/
theorem sortBy_map {γ : Type} (key : β → κ) (f : γ → β) (l : List γ) :
    sortBy key (l.map f) = (sortBy (key ∘ f) l).map f :=
  (List.map_insertionSort _ _ f l fun _ _ _ _ => Iff.rfl).symm

/-- Sorting by distinct keys gives strictly increasing keys. -/
theorem sortBy_pairwise_lt (h : (l.map key).Nodup) : (sortBy key l).Pairwise (fun a b => key a < key b) := by
  have hn : (sortBy key l).Pairwise (fun a b => key a ≠ key b) := List.pairwise_map.1 (nodup_map_sortBy.2 h)
  exact ((sortBy_pairwise_le key l).and hn).imp fun hab => lt_of_le_of_ne hab.1 hab.2

/-- Two lists with strictly increasing keys and the same elements are equal. -/
theorem eq_of_pairwise_key_lt {L L' : List β} (h : L.Pairwise (fun a b => key a < key b))
    (h' : L'.Pairwise (fun a b => key a < key b)) (hp : L.Perm L') : L = L' :=
  hp.eq_of_pairwise (fun _ _ _ _ hab hba => absurd hba (lt_asymm hab)) h h'

/-- With distinct keys sorting forgets the order, and nothing else. -/
theorem sortBy_eq_sortBy_iff (h : (l.map key).Nodup) {l' : List β} : sortBy key l = sortBy key l' ↔ l.Perm l' := by
  constructor
  · intro heq
    exact (sortBy_perm key l).symm.trans (heq ▸ sortBy_perm key l')
  · intro hperm
    have h' : (l'.map key).Nodup := (hperm.map key).nodup_iff.1 h
    exact eq_of_pairwise_key_lt (sortBy_pairwise_lt h) (sortBy_pairwise_lt h')
      ((sortBy_perm key l).trans (hperm.trans (sortBy_perm key l').symm))

/-- The elements that satisfy `p` keep their order when they are already in order. -/
theorem filter_sortBy {p : β → Bool} (h : (l.filter p).Pairwise (fun a b => key a ≤ key b)) :
    (sortBy key l).filter p = l.filter p := by
  have : Std.Total (fun a b : β => key a ≤ key b) := ⟨fun a b => le_total (key a) (key b)⟩
  have : IsTrans β (fun a b : β => key a ≤ key b) := ⟨fun _ _ _ h h' => le_trans h h'⟩
  have hsub : (l.filter p).Sublist ((sortBy key l).filter p) := by
    have h1 := (List.sublist_insertionSort h List.filter_sublist).filter p
    rwa [List.filter_filter, show (fun a => p a && p a) = p by simp] at h1
  exact (hsub.eq_of_length ((sortBy_perm key l).filter p).length_eq.symm).symm

end SortBy

/-- Two maps agree on two lists when two other maps, which tell apart the same elements, do. -/
theorem map_eq_map_iff_of_iff {α β γ : Type} {f f' : α → β} {g g' : α → γ} (h : ∀ a b, f a = f' b ↔ g a = g' b)
    {l l' : List α} : l.map f = l'.map f' ↔ l.map g = l'.map g' := by
  induction l generalizing l' with
  | nil => cases l' <;> simp
  | cons a l ih =>
    cases l' with
    | nil => simp
    | cons b l' => rw [List.map_cons, List.map_cons, List.map_cons, List.map_cons, List.cons.injEq, List.cons.injEq, h, ih]

/-- Two permutations of each other with the same distinct keys in the same order are equal. -/
theorem eq_of_perm_of_map_eq {β κ : Type} {key : β → κ} {l l' : List β} (hperm : l.Perm l')
    (hkeys : l.map key = l'.map key) (hnodup : (l'.map key).Nodup) : l = l' := by
  refine List.ext_getElem hperm.length_eq fun i hi hi' => ?_
  have hkey : key l[i] = key l'[i] := by
    have h := congrArg (fun keys => keys[i]?) hkeys
    simpa [hi, hi'] using h
  exact List.inj_on_of_nodup_map hnodup (hperm.mem_iff.1 (List.getElem_mem hi)) (List.getElem_mem hi') hkey

/-- Two elements whose images share an element of a list without repetitions are equal. -/
theorem eq_of_mem_flatMap_nodup {β γ : Type} {f : β → List γ} {l : List β} (h : (l.flatMap f).Nodup) {a b : β}
    (ha : a ∈ l) (hb : b ∈ l) {i : γ} (hia : i ∈ f a) (hib : i ∈ f b) : a = b := by
  by_contra hne
  have hdisjoint : l.Pairwise fun a b => (f a).Disjoint (f b) := (List.nodup_flatMap.1 h).2
  have : Std.Symm fun a b : β => (f a).Disjoint (f b) := ⟨fun _ _ hd _ hx hy => hd hy hx⟩
  exact hdisjoint.forall ha hb hne hia hib

theorem nodup_eraseDups {β : Type} [BEq β] [LawfulBEq β] (l : List β) : l.eraseDups.Nodup := by
  induction h : l.length using Nat.strong_induction_on generalizing l with
  | _ n ih =>
    cases l with
    | nil => simp
    | cons b l =>
      rw [List.eraseDups_cons, List.nodup_cons]
      refine ⟨by simp, ih _ ?_ _ rfl⟩
      have := List.length_filter_le (fun c => !c == b) l
      rw [List.length_cons] at h
      omega

section MaxBy

variable {β κ : Type} [LinearOrder κ] {key : β → κ}

/-- The first element with the greatest key. -/
def maxBy (key : β → κ) : List β → Option β
  | [] => none
  | b :: l => some (l.foldl (fun best c => if key best < key c then c else best) b)

private theorem foldl_max_mem (b : β) (l : List β) :
    l.foldl (fun best c => if key best < key c then c else best) b ∈ b :: l := by
  induction l generalizing b with
  | nil => simp
  | cons c l ih =>
    rw [List.foldl_cons]
    have h := ih (if key b < key c then c else b)
    split_ifs at h ⊢ <;> simp only [List.mem_cons] at h ⊢ <;> tauto

theorem maxBy_mem {l : List β} {b : β} (h : maxBy key l = some b) : b ∈ l := by
  cases l with
  | nil => cases h
  | cons c l => exact Option.some_inj.1 h ▸ foldl_max_mem c l

theorem exists_maxBy {l : List β} (h : l ≠ []) : ∃ b, maxBy key l = some b := by
  cases l with
  | nil => exact absurd rfl h
  | cons c l => exact ⟨_, rfl⟩

end MaxBy

section Grouping

variable {β κ : Type} [DecidableEq κ]

/-- The elements of a list by key, the keys in the order of their first occurrence. -/
def groupByKey (key : β → κ) (l : List β) : List (κ × List β) :=
  (l.map key).eraseDups.map fun k => (k, l.filter fun b => key b = k)

/-- The elements with a key, key by key. -/
theorem flatMap_filter_perm {key : β → κ} {ks : List κ} (hks : ks.Nodup) {l : List β}
    (h : ∀ b ∈ l, key b ∈ ks) : (ks.flatMap fun k => l.filter fun b => key b = k).Perm l := by
  induction ks generalizing l with
  | nil =>
    have hnil : l = [] := List.eq_nil_iff_forall_not_mem.2 fun b hb => List.not_mem_nil (h b hb)
    rw [hnil]
    exact List.Perm.refl _
  | cons k ks ih =>
    obtain ⟨hk, hks⟩ := List.nodup_cons.1 hks
    have hrest : ∀ b ∈ l.filter fun b => key b ≠ k, key b ∈ ks := by
      intro b hb
      obtain ⟨hb, hne⟩ := List.mem_filter.1 hb
      exact (List.mem_cons.1 (h b hb)).resolve_left (of_decide_eq_true hne)
    have hsame : (ks.flatMap fun k' => l.filter fun b => key b = k') =
        ks.flatMap fun k' => (l.filter fun b => key b ≠ k).filter fun b => key b = k' := by
      refine List.flatMap_congr fun k' hk' => ?_
      rw [List.filter_filter]
      refine List.filter_congr fun b _ => ?_
      by_cases hb : key b = k'
      · have hne : k' ≠ k := fun heq => hk (heq ▸ hk')
        simp [hb, hne]
      · simp [hb]
    rw [List.flatMap_cons, hsame]
    refine ((ih hks hrest).append_left _).trans ?_
    simpa using List.filter_append_perm (fun b => decide (key b = k)) l

/-- Grouping keeps the elements. -/
theorem flatMap_groupByKey_perm (key : β → κ) (l : List β) :
    ((groupByKey key l).flatMap Prod.snd).Perm l := by
  unfold groupByKey
  rw [List.flatMap_map]
  exact flatMap_filter_perm (nodup_eraseDups _) fun b hb => List.mem_eraseDups.2 (List.mem_map_of_mem hb)

theorem nodup_keys_groupByKey (key : β → κ) (l : List β) :
    ((groupByKey key l).map Prod.fst).Nodup := by
  unfold groupByKey
  rw [List.map_map]
  simpa [Function.comp_def] using nodup_eraseDups (l.map key)

end Grouping

section Folds

variable {σ β : Type} {f : σ → β → σ} {P Q : σ → Prop} {l : List β} {s : σ}

theorem foldl_keeps (hstep : ∀ s, ∀ b ∈ l, P s → P (f s b)) (hs : P s) : P (l.foldl f s) := by
  induction l generalizing s with
  | nil => exact hs
  | cons b l ih => exact ih (fun s c hc => hstep s c (List.mem_cons_of_mem _ hc)) (hstep s b List.mem_cons_self hs)

/-- What one element brings about is there after the fold when the other ones neither prevent nor undo it. -/
theorem foldl_reaches {a : β} (ha : a ∈ l) (hreach : ∀ s, Q s → P (f s a)) (hkeep : ∀ s, ∀ b ∈ l, P s → P (f s b))
    (hwait : ∀ s, ∀ b ∈ l, b ≠ a → Q s → Q (f s b)) (hs : Q s) : P (l.foldl f s) := by
  induction l generalizing s with
  | nil => exact absurd ha List.not_mem_nil
  | cons b l ih =>
    have hkeep' := fun s c (hc : c ∈ l) => hkeep s c (List.mem_cons_of_mem _ hc)
    by_cases hb : b = a
    · rw [List.foldl_cons, hb]
      exact foldl_keeps hkeep' (hreach s hs)
    · have hrest : a ∈ l := (List.mem_cons.1 ha).resolve_left fun heq => hb heq.symm
      exact ih hrest hkeep' (fun s c hc => hwait s c (List.mem_cons_of_mem _ hc)) (hwait s b List.mem_cons_self hb hs)

end Folds

end ArdOssie
