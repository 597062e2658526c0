import ArdOssie.Adapters.Workspace
import ArdOssie.Library.Histories
import ArdOssie.Registry.ChangeSets

/-!
# Commits and trees

The trees of commits and of a checkout.  A merge takes each path from the side that changed it, a restore takes the
selected paths from another tree, and what git sees of a working tree leaves out ignored files that it does not track.
-/

namespace ArdOssie

/-! ### Trees -/

/-- A file or a link in a tree. -/
inductive GitEntry where
  | file (content : List ℕ) (executable : Bool)
  | link (target : List ℕ)
  deriving DecidableEq

/-- What is in the file system for an entry. -/
def GitEntry.fileEntry : GitEntry → FileEntry
  | .file content _ => .file content
  | .link _ => .symlink

/-- The files and links of a tree, with a list of the paths at which there is something. -/
structure GitTree where
  entry : List Text → Option GitEntry
  paths : List (List Text)
  complete : ∀ p, entry p ≠ none → p ∈ paths
  proper : ∀ p, entry p ≠ none → p ≠ [] ∧ ProperPath p
  leaf : ∀ p q, entry p ≠ none → entry q ≠ none → p <+: q → p = q

namespace GitTree

/-- What the file system has at a path: a file, a link, or a directory on the way to one. -/
def fileEntry (t : GitTree) (p : List Text) : Option FileEntry :=
  match t.entry p with
  | some e => some e.fileEntry
  | none => if p ≠ [] ∧ ∃ q ∈ t.paths, t.entry q ≠ none ∧ p <+: q then some .directory else none

/-- Something is at a path only if the path leads to a file or a link. -/
private theorem exists_of_fileEntry {t : GitTree} {p : List Text} (h : t.fileEntry p ≠ none) :
    p ≠ [] ∧ ∃ q ∈ t.paths, t.entry q ≠ none ∧ p <+: q := by
  unfold fileEntry at h
  cases hp : t.entry p with
  | some e =>
    have hne : t.entry p ≠ none := by
      rw [hp]
      exact Option.some_ne_none e
    exact ⟨(t.proper p hne).1, p, t.complete p hne, hne, List.prefix_rfl⟩
  | none =>
    rw [hp] at h
    exact (ite_ne_right_iff.1 h).1

/-- The files of the tree below a root. -/
def workspace (t : GitTree) (root : List Text) (hroot : ProperPath root) : Workspace where
  root := root
  entry := t.fileEntry
  paths := t.paths.flatMap Workspace.prefixes
  complete p hp := by
    obtain ⟨hne, q, hq, -, hpq⟩ := exists_of_fileEntry hp
    exact List.mem_flatMap.2 ⟨q, hq, Workspace.mem_prefixes.2 ⟨hpq, hne⟩⟩
  root_proper := hroot
  names_proper p hp := by
    obtain ⟨-, q, -, hq, hpq⟩ := exists_of_fileEntry hp
    exact fun part hpart => (t.proper q hq).2 part (hpq.subset hpart)

variable {t source worktree base ours theirs : GitTree} {p q : List Text}

theorem fileEntry_of_some {e : GitEntry} (h : t.entry p = some e) : t.fileEntry p = some e.fileEntry := by
  unfold fileEntry
  rw [h]

/-- A file of the file system is a file of the tree. -/
theorem entry_of_file {content : List ℕ} (h : t.fileEntry p = some (.file content)) :
    ∃ executable, t.entry p = some (.file content executable) := by
  cases hp : t.entry p with
  | some e =>
    rw [fileEntry_of_some hp] at h
    cases e with
    | file content' executable =>
      cases h
      exact ⟨executable, rfl⟩
    | link target => cases h
  | none =>
    unfold fileEntry at h
    rw [hp] at h
    dsimp only at h
    split at h
    · cases h
    · cases h

/-- The paths at which two trees differ. -/
def changes (before after : GitTree) : List (List Text) :=
  (before.paths ++ after.paths).eraseDups.filter fun p => before.entry p ≠ after.entry p

theorem mem_changes {before after : GitTree} : p ∈ before.changes after ↔ before.entry p ≠ after.entry p := by
  unfold changes
  rw [List.mem_filter, decide_eq_true_eq, List.mem_eraseDups, List.mem_append]
  refine ⟨fun h => h.2, fun h => ⟨?_, h⟩⟩
  by_cases hbefore : before.entry p = none
  · exact Or.inr (after.complete p fun hafter => h (hbefore.trans hafter.symm))
  · exact Or.inl (before.complete p hbefore)

/-! ### The working tree as git sees it -/

section Seen

variable (ignored : List Text → Bool) (clean : List Text → GitEntry → GitEntry)

/-- What git would add at a path: a file as the head has it is not changed, another one is converted, and one that is
not tracked may be ignored. -/
def seenEntry (head worktree : GitTree) (p : List Text) : Option GitEntry :=
  match worktree.entry p with
  | none => none
  | some e =>
    if head.entry p = some e then some e
    else if head.entry p = none ∧ ignored p = true then none
    else some (clean p e)

private theorem worktree_of_seenEntry {head : GitTree} (h : seenEntry ignored clean head worktree p ≠ none) :
    worktree.entry p ≠ none := by
  unfold seenEntry at h
  split at h
  · exact absurd rfl h
  · rename_i e hentry
    rw [hentry]
    exact Option.some_ne_none e

/-- The working tree as git sees it. -/
def seen (head worktree : GitTree) : GitTree where
  entry := seenEntry ignored clean head worktree
  paths := worktree.paths
  complete p hp := worktree.complete p (worktree_of_seenEntry ignored clean hp)
  proper p hp := worktree.proper p (worktree_of_seenEntry ignored clean hp)
  leaf p q hp hq := worktree.leaf p q (worktree_of_seenEntry ignored clean hp) (worktree_of_seenEntry ignored clean hq)

variable {ignored clean} {head : GitTree}

/-- A path that is neither ignored nor converted is seen as it is. -/
theorem seen_of_plain (hignored : ignored p = false) (hclean : ∀ e, clean p e = e) :
    (seen ignored clean head worktree).entry p = worktree.entry p := by
  show seenEntry ignored clean head worktree p = _
  unfold seenEntry
  split
  · rename_i hentry
    exact hentry.symm
  · rename_i e hentry
    simp [hentry, hignored, hclean]

/-- A path as the head has it is seen as it is. -/
theorem seen_of_head (h : worktree.entry p = head.entry p) :
    (seen ignored clean head worktree).entry p = worktree.entry p := by
  show seenEntry ignored clean head worktree p = _
  unfold seenEntry
  split
  · rename_i hentry
    exact hentry.symm
  · rename_i e hentry
    rw [← h, hentry, if_pos rfl]

/-- Where there is nothing, nothing is seen. -/
theorem seen_of_none (h : worktree.entry p = none) : (seen ignored clean head worktree).entry p = worktree.entry p := by
  show seenEntry ignored clean head worktree p = _
  unfold seenEntry
  rw [h]

end Seen

/-! ### Merging -/

section Merging

variable (combine : Option GitEntry → Option GitEntry → Option GitEntry → Option (Option GitEntry))

/-- The merge at a path; `none` is a conflict. -/
def mergedEntry (base ours theirs : GitTree) (p : List Text) : Option (Option GitEntry) :=
  threeWay combine (base.entry p) (ours.entry p) (theirs.entry p)

private theorem mergedEntry_of_none (hbase : base.entry p = none) (hours : ours.entry p = none)
    (htheirs : theirs.entry p = none) : mergedEntry combine base ours theirs p = some none := by
  unfold mergedEntry threeWay
  rw [hbase, hours, htheirs, if_pos rfl]

private theorem exists_of_mergedEntry (h : (mergedEntry combine base ours theirs p).join ≠ none) :
    base.entry p ≠ none ∨ ours.entry p ≠ none ∨ theirs.entry p ≠ none := by
  by_contra hnot
  rw [not_or, not_or, not_not, not_not, not_not] at hnot
  rw [mergedEntry_of_none combine hnot.1 hnot.2.1 hnot.2.2] at h
  exact h rfl

/-- There is no conflict at a path, nor a file in the place of a directory. -/
def Mergeable (base ours theirs : GitTree) : Prop :=
  (∀ p ∈ base.paths ++ ours.paths ++ theirs.paths, mergedEntry combine base ours theirs p ≠ none) ∧
    ∀ p ∈ base.paths ++ ours.paths ++ theirs.paths, ∀ q ∈ base.paths ++ ours.paths ++ theirs.paths,
      (mergedEntry combine base ours theirs p).join ≠ none → (mergedEntry combine base ours theirs q).join ≠ none →
        p <+: q → p = q

instance (base ours theirs : GitTree) : Decidable (Mergeable combine base ours theirs) :=
  inferInstanceAs (Decidable (_ ∧ _))

private theorem mem_paths_of_mergedEntry (h : (mergedEntry combine base ours theirs p).join ≠ none) :
    p ∈ base.paths ++ ours.paths ++ theirs.paths := by
  rw [List.mem_append, List.mem_append]
  rcases exists_of_mergedEntry combine h with hbase | hours | htheirs
  · exact Or.inl (Or.inl (base.complete p hbase))
  · exact Or.inl (Or.inr (ours.complete p hours))
  · exact Or.inr (theirs.complete p htheirs)

/-- The merge of two trees by the one that both come from. -/
def merge (base ours theirs : GitTree) : Option GitTree :=
  if h : Mergeable combine base ours theirs then
    some {
      entry := fun p => (mergedEntry combine base ours theirs p).join
      paths := base.paths ++ ours.paths ++ theirs.paths
      complete := fun _ hp => mem_paths_of_mergedEntry combine hp
      proper := fun p hp => by
        rcases exists_of_mergedEntry combine hp with hbase | hours | htheirs
        · exact base.proper p hbase
        · exact ours.proper p hours
        · exact theirs.proper p htheirs
      leaf := fun p q hp hq => h.2 p (mem_paths_of_mergedEntry combine hp) q (mem_paths_of_mergedEntry combine hq)
        hp hq }
  else none

variable {combine}

/-- A path that this side did not change is as on the other side. -/
theorem merge_eq_theirs (h : merge combine base ours theirs = some t) (hours : ours.entry p = base.entry p) :
    t.entry p = theirs.entry p := by
  unfold merge at h
  split at h
  · cases h
    show (mergedEntry combine base ours theirs p).join = theirs.entry p
    unfold mergedEntry threeWay
    rw [if_pos hours, Option.join_some]
  · cases h

end Merging

/-! ### Restoring -/

section Restoring

variable (selected : List Text → Bool)

/-- The path is in the way of a selected one. -/
def Blocked (source : GitTree) (p : List Text) : Prop :=
  ∃ q ∈ source.paths, selected q = true ∧ source.entry q ≠ none ∧ (p <+: q ∨ q <+: p)

instance (source : GitTree) (p : List Text) : Decidable (Blocked selected source p) :=
  inferInstanceAs (Decidable (∃ q ∈ source.paths, _))

/-- The selected paths as in the source, also if there is nothing; what is in their way is removed. -/
def restoredEntry (source worktree : GitTree) (p : List Text) : Option GitEntry :=
  if selected p = true then source.entry p
  else if Blocked selected source p then none
  else worktree.entry p

private theorem restoredEntry_ne_none (h : restoredEntry selected source worktree p ≠ none) :
    selected p = true ∧ source.entry p ≠ none ∨
      ¬ Blocked selected source p ∧ selected p = false ∧ worktree.entry p ≠ none := by
  unfold restoredEntry at h
  split at h
  · rename_i hselected
    exact Or.inl ⟨hselected, h⟩
  · rename_i hselected
    split at h
    · exact absurd rfl h
    · rename_i hfree
      exact Or.inr ⟨hfree, Bool.eq_false_iff.2 hselected, h⟩

/-- `git restore --worktree` -/
def restore (source worktree : GitTree) : GitTree where
  entry := restoredEntry selected source worktree
  paths := source.paths ++ worktree.paths
  complete p hp := by
    rw [List.mem_append]
    rcases restoredEntry_ne_none selected hp with ⟨-, hsource⟩ | ⟨-, -, hworktree⟩
    · exact Or.inl (source.complete p hsource)
    · exact Or.inr (worktree.complete p hworktree)
  proper p hp := by
    rcases restoredEntry_ne_none selected hp with ⟨-, hsource⟩ | ⟨-, -, hworktree⟩
    · exact source.proper p hsource
    · exact worktree.proper p hworktree
  leaf p q hp hq hpq := by
    rcases restoredEntry_ne_none selected hp with ⟨hselected, hsource⟩ | ⟨hfree, -, hworktree⟩
    · rcases restoredEntry_ne_none selected hq with ⟨-, hsource'⟩ | ⟨hfree', -, -⟩
      · exact source.leaf p q hsource hsource' hpq
      · exact absurd ⟨p, source.complete p hsource, hselected, hsource, Or.inr hpq⟩ hfree'
    · rcases restoredEntry_ne_none selected hq with ⟨hselected', hsource'⟩ | ⟨-, -, hworktree'⟩
      · exact absurd ⟨q, source.complete q hsource', hselected', hsource', Or.inl hpq⟩ hfree
      · exact worktree.leaf p q hworktree hworktree' hpq

variable {selected}

theorem restore_selected (h : selected p = true) : (restore selected source worktree).entry p = source.entry p := by
  show restoredEntry selected source worktree p = _
  unfold restoredEntry
  rw [if_pos h]

/-- What is not selected stays, or is in the way. -/
theorem restore_other (h : selected p = false) :
    (restore selected source worktree).entry p = worktree.entry p ∨
      Blocked selected source p ∧ (restore selected source worktree).entry p = none := by
  show restoredEntry selected source worktree p = _ ∨ _ ∧ restoredEntry selected source worktree p = none
  unfold restoredEntry
  rw [h, if_neg (by decide)]
  by_cases hblocked : Blocked selected source p
  · rw [if_pos hblocked]
    exact Or.inr ⟨hblocked, rfl⟩
  · rw [if_neg hblocked]
    exact Or.inl rfl

end Restoring

end GitTree

end ArdOssie
