import ArdOssie.Adapters.Workspace
import ArdOssie.Library.FileTrees
import ArdOssie.Library.Lists
import ArdOssie.Library.Results

/-!
# Promotion of directories

Staged directories take the places of their targets, one after the other; a target that is there is first moved to a
backup beside it.  When an operation of the file system fails, the installed directories are removed and the backups
are moved back.
-/

namespace ArdOssie

open FileTree Workspace

/-- The files, by the resolved paths: no link leads to a path. -/
abbrev Files := FileTree Text FileEntry

/-- The variables of `_promote_directories`, the files and the number of operations that were made. -/
structure Promotion where
  tree : Files
  clock : ℕ
  backups : List (List Text × List Text)
  installed : List (List Text)

/-- An operation that fails, and the paths that it has dealt with until then. -/
structure Fault where
  step : ℕ
  reached : List Text → Bool

section Model

variable (fault : Option Fault) (follows : List Text → Bool)

/-- An operation on the files: it is the one that fails, or it has its result. -/
def attempt (s : Promotion) (interrupted : Files) (result : PyResult Files) : Except (PyError × Promotion) Promotion :=
  if fault.any (fun f => f.step = s.clock) then .error (osError, { s with tree := interrupted, clock := s.clock + 1 })
  else match result with
    | .ok tree => .ok { s with tree := tree, clock := s.clock + 1 }
    | .error e => .error (e, { s with clock := s.clock + 1 })

/-- An operation that only reads the files. -/
def query (s : Promotion) : Except (PyError × Promotion) Promotion := attempt fault s s.tree (.ok s.tree)

def isSymlink (p : List Text) (tree : Files) : Bool := tree.lookup p = some .symlink

/-- `path.exists()`, which follows a link. -/
def pathExists (p : List Text) (tree : Files) : Bool := if isSymlink p tree then follows p else tree.holds p

def isDirectory (p : List Text) (tree : Files) : Bool :=
  tree.holds p && (tree.lookup p = none || tree.lookup p = some .directory)

/-- The parents of a path that are missing. -/
def missingParents (p : List Text) (tree : Files) : Files :=
  ((prefixes p.dropLast).filter fun q => !tree.holds q).map fun q => (q, .directory)

/-- `path.parent.mkdir(parents=True, exist_ok=True)` -/
def makeParents (p : List Text) (tree : Files) : PyResult Files := do
  raiseIf (∃ q ∈ prefixes p.dropLast, tree.holds q = true ∧ isDirectory q tree = false) osError
  return tree ++ missingParents p tree

/-- `shutil.rmtree(path)` -/
def rmtree (p : List Text) (tree : Files) : PyResult Files := do
  raiseIf (isDirectory p tree = false) osError
  return tree.removeTree p

/-- `os.replace(source, target)` -/
def replacePath (source target : List Text) (tree : Files) : PyResult Files :=
  if tree.holds source = false ∨ isDirectory target.dropLast tree = false ∧ target.dropLast ≠ [] then .error osError
  else if source = target then .ok tree
  else if source <+: target then .error osError
  else if isDirectory source tree then
    if tree.holds target = false ∨ tree.subtree target = [([], .directory)] then .ok (tree.moveTree source target)
    else .error osError
  else if isDirectory target tree then .error osError
  else .ok (tree.moveTree source target)

/-- `target.with_name(f".{target.name}.backup-{token}")` -/
def backupPath (token : Text) (target : List Text) : List Text :=
  target.dropLast ++ ['.' :: (target.getLastD [] ++ ".backup-".toList ++ token)]

/-- An error that leaves the files as they are. -/
def raiseAt (condition : Prop) [Decidable condition] (e : PyError) (s : Promotion) :
    Except (PyError × Promotion) Unit :=
  if condition then .error (e, s) else .ok ()

/-- A backup that was left over is removed. -/
def clearBackup (backup : List Text) (s : Promotion) : Except (PyError × Promotion) Promotion := do
  let s ← query fault s
  if pathExists follows backup s.tree then
    attempt fault s (s.tree.filter fun e => !(backup <+: e.1 && (fault.any fun f => f.reached e.1)))
      (rmtree backup s.tree)
  else return s

/-- A target that is there is moved to its backup. -/
def moveAside (target backup : List Text) (s : Promotion) : Except (PyError × Promotion) Promotion := do
  let s ← query fault s
  if pathExists follows target s.tree then do
    let s ← attempt fault s s.tree (replacePath target backup s.tree)
    return { s with backups := s.backups ++ [(target, backup)] }
  else return s

/-- A staged directory takes the place of its target. -/
def install (candidate target : List Text) (s : Promotion) : Except (PyError × Promotion) Promotion := do
  let s ← attempt fault s s.tree (replacePath candidate target s.tree)
  return { s with installed := s.installed ++ [target] }

/-- One round of the loop of `_promote_directories`. -/
def promoteDirectory (token : Text) (s : Promotion) (directory : List Text × List Text) :
    Except (PyError × Promotion) Promotion := do
  let (candidate, target) := directory
  let s ← attempt fault s (s.tree ++ (missingParents target s.tree).filter fun e => fault.any fun f => f.reached e.1)
    (makeParents target s.tree)
  raiseAt (target = []) (.valueError "PosixPath('/') has an empty name") s
  let backup := backupPath token target
  let s ← query fault s
  raiseAt (isSymlink target s.tree = true) (.valueError "SYMLINK_NOT_ALLOWED") s
  let s ← query fault s
  raiseAt (isSymlink backup s.tree = true) (.valueError "SYMLINK_NOT_ALLOWED") s
  let s ← clearBackup fault follows backup s
  let s ← moveAside fault follows target backup s
  install fault candidate target s

/-- An installed directory is removed. -/
def removeInstalled (tree : Files) (target : List Text) : Files :=
  if pathExists follows target tree then tree.removeTree target else tree

/-- A backup is moved back. -/
def restoreBackup (tree : Files) (p : List Text × List Text) : Files :=
  if pathExists follows p.2 tree then tree.moveTree p.2 p.1 else tree

/-- The rollback, whose operations succeed. -/
def rollback (s : Promotion) : Files :=
  s.backups.reverse.foldl (restoreBackup follows) (s.installed.reverse.foldl (removeInstalled follows) s.tree)

/-- The backup of a promoted directory is removed. -/
def dropBackup (s : Promotion) (p : List Text × List Text) : Except (PyError × Promotion) Promotion :=
  clearBackup fault follows p.2 s

/-- The loop of `_promote_directories`. -/
def promoteAll (token : Text) (tree : Files) (directories : List (List Text × List Text)) :
    Except (PyError × Promotion) Promotion :=
  directories.foldlM (promoteDirectory fault follows token) ⟨tree, 0, [], []⟩

/-- `_promote_directories`: how it ends, and the files then. -/
def promoteDirectories (token : Text) (tree : Files) (directories : List (List Text × List Text)) :
    PyResult Unit × Files :=
  match promoteAll fault follows token tree directories with
  | .error (e, s) => (.error e, rollback follows s)
  | .ok s =>
    match s.backups.foldlM (dropBackup fault follows) s with
    | .error (e, s) => (.error e, s.tree)
    | .ok s => (.ok (), s.tree)

end Model

/-! ### Separate paths -/

/-- The staged path, the target and the backup of a promotion. -/
def promotionPaths (token : Text) (d : List Text × List Text) : List (List Text) := [d.1, d.2, backupPath token d.2]

/-- No path of the promotions is another one or lies below it, and no staged path is a link. -/
structure SeparatePaths (token : Text) (tree : Files) (directories : List (List Text × List Text)) : Prop where
  unrelated : (directories.flatMap (promotionPaths token)).Pairwise Unrelated
  staged : ∀ d ∈ directories, isSymlink d.1 tree = false

section Proofs

variable {fault : Option Fault} {follows : List Text → Bool} {token : Text} {tree₀ : Files}
  {directories : List (List Text × List Text)} {s : Promotion} {d : List Text × List Text} {p q : List Text}

private theorem unrelated_of_ne (h : SeparatePaths token tree₀ directories) {d' : List Text × List Text}
    (hd : d ∈ directories) (hd' : d' ∈ directories) (hp : p ∈ promotionPaths token d)
    (hq : q ∈ promotionPaths token d') (hne : p ≠ q) : Unrelated p q :=
  have : Std.Symm (Unrelated (α := Text)) := ⟨fun _ _ hab => hab.symm⟩
  h.unrelated.forall (List.mem_flatMap.2 ⟨d, hd, hp⟩) (List.mem_flatMap.2 ⟨d', hd', hq⟩) hne

private theorem nodup_paths (h : SeparatePaths token tree₀ directories) :
    (directories.flatMap (promotionPaths token)).Nodup := h.unrelated.imp fun hab => hab.ne

private theorem unrelated_of_directories (h : SeparatePaths token tree₀ directories) {d' : List Text × List Text}
    (hd : d ∈ directories) (hd' : d' ∈ directories) (hne : d ≠ d') (hp : p ∈ promotionPaths token d)
    (hq : q ∈ promotionPaths token d') : Unrelated p q := by
  refine unrelated_of_ne h hd hd' hp hq ?_
  rintro rfl
  exact hne (eq_of_mem_flatMap_nodup (nodup_paths h) hd hd' hp hq)

private theorem unrelated_own (h : SeparatePaths token tree₀ directories) (hd : d ∈ directories) :
    Unrelated d.1 d.2 ∧ Unrelated d.1 (backupPath token d.2) ∧ Unrelated d.2 (backupPath token d.2) := by
  have hsub : (promotionPaths token d).Sublist (directories.flatMap (promotionPaths token)) :=
    List.sublist_flatten_of_mem (List.mem_map_of_mem hd)
  have hpair := h.unrelated.sublist hsub
  simp only [promotionPaths, List.pairwise_cons, List.mem_cons, List.not_mem_nil, or_false, forall_eq_or_imp,
    forall_eq] at hpair
  exact ⟨hpair.1.1, hpair.1.2, hpair.2.1⟩

variable (token tree₀) in
/-- The promotion of a directory has not begun. -/
structure Untouched (d : List Text × List Text) (s : Promotion) : Prop where
  staged : s.tree.subtree d.1 = tree₀.subtree d.1
  target : s.tree.subtree d.2 = tree₀.subtree d.2
  notInstalled : d.2 ∉ s.installed
  notRecorded : (d.2, backupPath token d.2) ∉ s.backups

variable (token tree₀) in
/-- What was at the target of a directory is at its backup. -/
structure BackedUp (d : List Text × List Text) (s : Promotion) : Prop where
  plain : isSymlink d.2 tree₀ = false
  backup : s.tree.subtree (backupPath token d.2) = tree₀.subtree d.2
  recorded : (d.2, backupPath token d.2) ∈ s.backups ∨ tree₀.subtree d.2 = []

variable (token tree₀) in
structure SetAside (d : List Text × List Text) (s : Promotion) : Prop extends BackedUp token tree₀ d s where
  staged : s.tree.subtree d.1 = tree₀.subtree d.1
  target : s.tree.subtree d.2 = []

variable (token tree₀) in
structure Promoted (d : List Text × List Text) (s : Promotion) : Prop extends BackedUp token tree₀ d s where
  target : s.tree.subtree d.2 = tree₀.subtree d.1
  installed : d.2 ∈ s.installed

variable (token tree₀) in
/-- The rollback gives the target of a directory its content. -/
def Recoverable (d : List Text × List Text) (s : Promotion) : Prop :=
  Untouched token tree₀ d s ∨ SetAside token tree₀ d s ∨ Promoted token tree₀ d s

variable (token directories) in
/-- Between the states only one directory was worked on. -/
structure WorkedOn (d : List Text × List Text) (s s' : Promotion) : Prop where
  others : ∀ d' ∈ directories, d' ≠ d → ∀ p ∈ promotionPaths token d', s'.tree.subtree p = s.tree.subtree p
  keptInstalled : s.installed ⊆ s'.installed
  keptBackups : s.backups ⊆ s'.backups
  addedInstalled : ∀ p ∈ s'.installed, p ∈ s.installed ∨ p = d.2
  addedBackups : ∀ b ∈ s'.backups, b ∈ s.backups ∨ b = (d.2, backupPath token d.2)

private theorem WorkedOn.refl (d : List Text × List Text) (s : Promotion) : WorkedOn token directories d s s where
  others _ _ _ _ _ := rfl
  keptInstalled _ hp := hp
  keptBackups _ hb := hb
  addedInstalled _ hp := Or.inl hp
  addedBackups _ hb := Or.inl hb

variable {d' : List Text × List Text} {s s' : Promotion}

private theorem mem_promotionPaths : d.1 ∈ promotionPaths token d ∧ d.2 ∈ promotionPaths token d ∧
    backupPath token d.2 ∈ promotionPaths token d := by
  simp [promotionPaths]

section Others

variable (hsep : SeparatePaths token tree₀ directories) (hd : d ∈ directories) (hd' : d' ∈ directories) (hne : d' ≠ d)
  (hwork : WorkedOn token directories d s s')

include hsep hd hd' hne in
private theorem target_ne : d'.2 ≠ d.2 :=
  (unrelated_of_directories hsep hd' hd hne mem_promotionPaths.2.1 mem_promotionPaths.2.1).ne

include hsep hd hd' hne hwork

private theorem Untouched.others (h : Untouched token tree₀ d' s) : Untouched token tree₀ d' s' where
  staged := (hwork.others d' hd' hne _ mem_promotionPaths.1).trans h.staged
  target := (hwork.others d' hd' hne _ mem_promotionPaths.2.1).trans h.target
  notInstalled hp := by
    rcases hwork.addedInstalled _ hp with hin | heq
    · exact h.notInstalled hin
    · exact target_ne hsep hd hd' hne heq
  notRecorded hb := by
    rcases hwork.addedBackups _ hb with hin | heq
    · exact h.notRecorded hin
    · exact target_ne hsep hd hd' hne (congrArg Prod.fst heq)

omit hsep hd

private theorem Promoted.others (h : Promoted token tree₀ d' s) : Promoted token tree₀ d' s' where
  plain := h.plain
  backup := (hwork.others d' hd' hne _ mem_promotionPaths.2.2).trans h.backup
  recorded := h.recorded.imp_left fun hb => hwork.keptBackups hb
  target := (hwork.others d' hd' hne _ mem_promotionPaths.2.1).trans h.target
  installed := hwork.keptInstalled h.installed

end Others

/-! ### One round -/

private theorem attempt_settles {interrupted : Files} {result : PyResult Files} {P F : Promotion → Prop}
    (hok : ∀ tree, result = .ok tree → P ⟨tree, s.clock + 1, s.backups, s.installed⟩)
    (hcut : F ⟨interrupted, s.clock + 1, s.backups, s.installed⟩)
    (hkept : F ⟨s.tree, s.clock + 1, s.backups, s.installed⟩) :
    Settles (attempt fault s interrupted result) P fun e => F e.2 := by
  unfold attempt
  split
  · exact hcut
  · cases result with
    | ok tree => exact hok tree rfl
    | error e => exact hkept

private theorem query_settles {P F : Promotion → Prop} (hok : P ⟨s.tree, s.clock + 1, s.backups, s.installed⟩)
    (hcut : F ⟨s.tree, s.clock + 1, s.backups, s.installed⟩) : Settles (query fault s) P fun e => F e.2 := by
  refine attempt_settles ?_ hcut hcut
  intro tree htree
  cases htree
  exact hok

private theorem raiseAt_settles {condition : Prop} [Decidable condition] {e : PyError} {F : Promotion → Prop} (hF : F s) :
    Settles (raiseAt condition e s) (fun _ => ¬ condition) fun e => F e.2 := by
  unfold raiseAt
  split
  · exact hF
  · assumption

/-- Equal contents are both links or both not. -/
private theorem isSymlink_congr {tree tree' : Files} (h : tree'.subtree p = tree.subtree q) :
    isSymlink p tree' = isSymlink q tree := by
  unfold isSymlink
  rw [← lookup_subtree, h, lookup_subtree]

/-- A path that is no link and does not exist has nothing at it or below. -/
private theorem subtree_of_not_exists {tree : Files} (hlink : isSymlink p tree = false)
    (h : ¬ pathExists follows p tree = true) : tree.subtree p = [] := by
  unfold pathExists at h
  rw [hlink, if_neg (by decide)] at h
  exact holds_eq_false.1 (Bool.eq_false_iff.2 h)

private theorem replacePath_ok {source target : List Text} {tree tree' : Files} (hne : Unrelated source target)
    (h : replacePath source target tree = .ok tree') : tree' = tree.moveTree source target := by
  unfold replacePath at h
  rw [if_neg hne.ne, if_neg hne.1] at h
  split_ifs at h
  · exact (Except.ok.inj h).symm
  · exact (Except.ok.inj h).symm

private theorem subtree_makeParents (hsep : SeparatePaths token tree₀ directories) (hd : d ∈ directories)
    (hd' : d' ∈ directories) (hp : p ∈ promotionPaths token d') {tree added : Files}
    (hadded : ∀ e ∈ added, e ∈ missingParents d.2 tree) : (tree ++ added).subtree p = tree.subtree p := by
  have hnil : added.subtree p = [] := by
    refine subtree_eq_nil fun e he hprefix => ?_
    obtain ⟨q, hq, rfl⟩ := List.mem_map.1 (hadded e he)
    have hbelow : p <+: d.2.dropLast := hprefix.trans (mem_prefixes.1 (List.mem_filter.1 hq).1).1
    by_cases heq : p = d.2
    · have hlen := hbelow.length_le
      rw [heq, List.length_dropLast] at hlen
      have hroot : d.2 = [] := List.length_eq_zero_iff.1 (by omega)
      exact (unrelated_own hsep hd).1.2 (hroot ▸ List.nil_prefix)
    · exact (unrelated_of_ne hsep hd' hd hp mem_promotionPaths.2.1 heq).1 (hbelow.trans (List.dropLast_prefix _))
  rw [subtree_append, hnil, List.append_nil]

variable (token tree₀ directories) in
/-- The round of a directory began at the first state and has moved nothing yet. -/
private structure Ready (d : List Text × List Text) (s s' : Promotion) : Prop where
  work : WorkedOn token directories d s s'
  untouched : Untouched token tree₀ d s'

variable (token tree₀ directories) in
/-- The round of a directory began at the first state and stopped where the directory can be recovered. -/
structure Stopped (d : List Text × List Text) (s s' : Promotion) : Prop where
  work : WorkedOn token directories d s s'
  recoverable : Recoverable token tree₀ d s'

section Round

variable {s₀ : Promotion} (hsep : SeparatePaths token tree₀ directories) (hd : d ∈ directories)

include hsep hd

/-- A change of the files at the backup alone. -/
private theorem Ready.withTree (h : Ready token tree₀ directories d s₀ s) (tree : Files) (clock : ℕ)
    (htree : ∀ d' ∈ directories, ∀ p ∈ promotionPaths token d', p ≠ backupPath token d.2 →
      tree.subtree p = s.tree.subtree p) :
    Ready token tree₀ directories d s₀ ⟨tree, clock, s.backups, s.installed⟩ where
  work :=
    { others := fun d' hd' hne p hp => by
        have hbackup := unrelated_of_directories hsep hd' hd hne hp mem_promotionPaths.2.2
        exact (htree d' hd' p hp hbackup.ne).trans (h.work.others d' hd' hne p hp)
      keptInstalled := h.work.keptInstalled
      keptBackups := h.work.keptBackups
      addedInstalled := h.work.addedInstalled
      addedBackups := h.work.addedBackups }
  untouched :=
    { staged := (htree d hd _ mem_promotionPaths.1 (unrelated_own hsep hd).2.1.ne).trans h.untouched.staged
      target := (htree d hd _ mem_promotionPaths.2.1 (unrelated_own hsep hd).2.2.ne).trans h.untouched.target
      notInstalled := h.untouched.notInstalled
      notRecorded := h.untouched.notRecorded }

private theorem clearBackup_settles (h : Ready token tree₀ directories d s₀ s)
    (hlink : isSymlink (backupPath token d.2) s.tree = false) :
    Settles (clearBackup fault follows (backupPath token d.2) s)
      (fun s' => Ready token tree₀ directories d s₀ s' ∧ s'.tree.subtree (backupPath token d.2) = [])
      fun e => Ready token tree₀ directories d s₀ e.2 := by
  have hkept := h.withTree hsep hd s.tree (s.clock + 1) fun _ _ _ _ _ => rfl
  have hfilter (keep : List Text × FileEntry → Bool) (hkeep : ∀ e, keep e = false → backupPath token d.2 <+: e.1) :
      Ready token tree₀ directories d s₀ ⟨s.tree.filter keep, s.clock + 2, s.backups, s.installed⟩ := by
    refine h.withTree hsep hd _ _ fun d' hd' p hp hne => subtree_filter fun e he => ?_
    have hp := unrelated_of_ne hsep hd' hd hp mem_promotionPaths.2.2 hne
    by_contra hdrop
    exact hp.not_prefix he (hkeep e (Bool.eq_false_iff.2 hdrop))
  unfold clearBackup
  refine Settles.bind (P := fun s' => s' = ⟨s.tree, s.clock + 1, s.backups, s.installed⟩)
    (query_settles rfl hkept) fun s₁ hs₁ => ?_
  rw [hs₁]
  dsimp only
  by_cases hexists : pathExists follows (backupPath token d.2) s.tree = true
  · rw [if_pos hexists]
    refine attempt_settles ?_ ?_ ?_
    · intro tree htree
      obtain ⟨-, htree⟩ := raiseIf_bind_eq_ok.1 htree
      cases pure_eq_ok.1 htree
      refine ⟨hfilter _ fun e he => ?_, subtree_removeTree_self⟩
      simpa using he
    · refine hfilter _ fun e he => ?_
      simp only [Bool.not_eq_false', Bool.and_eq_true, decide_eq_true_eq] at he
      exact he.1
    · exact h.withTree hsep hd s.tree (s.clock + 2) fun _ _ _ _ _ => rfl
  · rw [if_neg hexists]
    exact ⟨hkept, subtree_of_not_exists hlink hexists⟩

private theorem moveAside_settles (h : Ready token tree₀ directories d s₀ s) (hplain : isSymlink d.2 tree₀ = false)
    (hclear : s.tree.subtree (backupPath token d.2) = []) :
    Settles (moveAside fault follows d.2 (backupPath token d.2) s)
      (fun s' => WorkedOn token directories d s₀ s' ∧ SetAside token tree₀ d s')
      fun e => Ready token tree₀ directories d s₀ e.2 := by
  obtain ⟨hstagedTarget, hstagedBackup, htargetBackup⟩ := unrelated_own hsep hd
  have hkept (clock : ℕ) := h.withTree hsep hd s.tree clock fun _ _ _ _ _ => rfl
  unfold moveAside
  refine Settles.bind (P := fun s' => s' = ⟨s.tree, s.clock + 1, s.backups, s.installed⟩)
    (query_settles rfl (hkept _)) fun s₁ hs₁ => ?_
  rw [hs₁]
  dsimp only
  by_cases hexists : pathExists follows d.2 s.tree = true
  · rw [if_pos hexists]
    refine Settles.bind (P := fun s' =>
      s' = ⟨s.tree.moveTree d.2 (backupPath token d.2), s.clock + 2, s.backups, s.installed⟩)
      (attempt_settles ?_ (hkept _) (hkept _)) fun s₂ hs₂ => ?_
    · intro tree htree
      rw [replacePath_ok htargetBackup htree]
    · rw [hs₂]
      refine ⟨⟨?_, h.work.keptInstalled, ?_, h.work.addedInstalled, ?_⟩, ⟨hplain, ?_, ?_⟩, ?_, ?_⟩
      · intro d' hd' hne p hp
        have htarget := unrelated_of_directories hsep hd' hd hne hp mem_promotionPaths.2.1
        have hbackup := unrelated_of_directories hsep hd' hd hne hp mem_promotionPaths.2.2
        exact (subtree_moveTree htarget hbackup).trans (h.work.others d' hd' hne p hp)
      · exact fun b hb => List.mem_append_left _ (h.work.keptBackups hb)
      · intro b hb
        rcases List.mem_append.1 hb with hold | hnew
        · exact h.work.addedBackups b hold
        · exact Or.inr (List.mem_singleton.1 hnew)
      · exact (subtree_moveTree_target htargetBackup).trans h.untouched.target
      · exact Or.inl (List.mem_append_right _ (List.mem_singleton_self _))
      · exact (subtree_moveTree hstagedTarget hstagedBackup).trans h.untouched.staged
      · exact subtree_moveTree_source htargetBackup
  · rw [if_neg hexists]
    have hlink := (isSymlink_congr h.untouched.target).trans hplain
    have hnone : s.tree.subtree d.2 = [] := subtree_of_not_exists hlink hexists
    have hbefore : tree₀.subtree d.2 = [] := h.untouched.target.symm.trans hnone
    exact ⟨(hkept _).work, ⟨hplain, hclear.trans hbefore.symm, Or.inr hbefore⟩, h.untouched.staged, hnone⟩

private theorem install_settles (hwork : WorkedOn token directories d s₀ s) (h : SetAside token tree₀ d s) :
    Settles (install fault d.1 d.2 s) (fun s' => WorkedOn token directories d s₀ s' ∧ Promoted token tree₀ d s')
      fun e => Stopped token tree₀ directories d s₀ e.2 := by
  obtain ⟨hstagedTarget, hstagedBackup, htargetBackup⟩ := unrelated_own hsep hd
  have hkept : Stopped token tree₀ directories d s₀ ⟨s.tree, s.clock + 1, s.backups, s.installed⟩ :=
    ⟨⟨hwork.others, hwork.keptInstalled, hwork.keptBackups, hwork.addedInstalled, hwork.addedBackups⟩,
      Or.inr (Or.inl ⟨⟨h.plain, h.backup, h.recorded⟩, h.staged, h.target⟩)⟩
  unfold install
  refine Settles.bind (P := fun s' => s' = ⟨s.tree.moveTree d.1 d.2, s.clock + 1, s.backups, s.installed⟩)
    (attempt_settles ?_ hkept hkept) fun s₁ hs₁ => ?_
  · intro tree htree
    rw [replacePath_ok hstagedTarget htree]
  · rw [hs₁]
    refine ⟨⟨?_, ?_, hwork.keptBackups, ?_, hwork.addedBackups⟩, ⟨h.plain, ?_, h.recorded⟩, ?_, ?_⟩
    · intro d' hd' hne p hp
      have hstaged := unrelated_of_directories hsep hd' hd hne hp mem_promotionPaths.1
      have htarget := unrelated_of_directories hsep hd' hd hne hp mem_promotionPaths.2.1
      exact (subtree_moveTree hstaged htarget).trans (hwork.others d' hd' hne p hp)
    · exact fun p hp => List.mem_append_left _ (hwork.keptInstalled hp)
    · intro p hp
      rcases List.mem_append.1 hp with hold | hnew
      · exact hwork.addedInstalled p hold
      · exact Or.inr (List.mem_singleton.1 hnew)
    · exact (subtree_moveTree hstagedBackup.symm htargetBackup.symm).trans h.backup
    · exact (subtree_moveTree_target hstagedTarget).trans h.staged
    · exact List.mem_append_right _ (List.mem_singleton_self _)

/-- A round promotes its directory or leaves it so that it can be recovered, and works on no other one. -/
theorem promoteDirectory_settles (h : Untouched token tree₀ d s) :
    Settles (promoteDirectory fault follows token s d)
      (fun s' => WorkedOn token directories d s s' ∧ Promoted token tree₀ d s')
      fun e => Stopped token tree₀ directories d s e.2 := by
  have hready : Ready token tree₀ directories d s s := ⟨WorkedOn.refl d s, h⟩
  have hrecover (s' : Promotion) (h' : Ready token tree₀ directories d s s') :
      Stopped token tree₀ directories d s s' := ⟨h'.work, Or.inl h'.untouched⟩
  unfold promoteDirectory
  dsimp only
  refine Settles.bind (P := fun s' => Ready token tree₀ directories d s s')
    (attempt_settles ?_ (hrecover _ ?_) (hrecover _ ?_)) fun s₁ h₁ => ?_
  · intro tree htree
    obtain ⟨-, htree⟩ := raiseIf_bind_eq_ok.1 htree
    cases pure_eq_ok.1 htree
    exact hready.withTree hsep hd _ _ fun d' hd' p hp _ => subtree_makeParents hsep hd hd' hp fun _ he => he
  · exact hready.withTree hsep hd _ _ fun d' hd' p hp _ =>
      subtree_makeParents hsep hd hd' hp fun _ he => (List.mem_filter.1 he).1
  · exact hready.withTree hsep hd _ _ fun _ _ _ _ _ => rfl
  refine Settles.bind (raiseAt_settles (hrecover _ h₁)) fun _ _ => ?_
  have hquery (s' : Promotion) (h' : Ready token tree₀ directories d s s') :
      Ready token tree₀ directories d s ⟨s'.tree, s'.clock + 1, s'.backups, s'.installed⟩ :=
    h'.withTree hsep hd _ _ fun _ _ _ _ _ => rfl
  refine Settles.bind (query_settles (hquery s₁ h₁) (hrecover _ (hquery s₁ h₁))) fun s₂ h₂ => ?_
  refine Settles.bind (raiseAt_settles (hrecover _ h₂)) fun _ htarget => ?_
  refine Settles.bind (P := fun s' => Ready token tree₀ directories d s s' ∧ s'.tree = s₂.tree)
    (query_settles ⟨hquery s₂ h₂, rfl⟩ (hrecover _ (hquery s₂ h₂))) fun s₃ ⟨h₃, htree⟩ => ?_
  refine Settles.bind (raiseAt_settles (hrecover _ h₃)) fun _ hbackup => ?_
  have hplain : isSymlink d.2 tree₀ = false :=
    (isSymlink_congr h₂.untouched.target).symm.trans (Bool.eq_false_iff.2 htarget)
  refine Settles.bind ((clearBackup_settles hsep hd h₃ (Bool.eq_false_iff.2 hbackup)).mono (fun _ h => h)
    fun e he => hrecover _ he) fun s₄ ⟨h₄, hclear⟩ => ?_
  refine Settles.bind ((moveAside_settles hsep hd h₄ hplain hclear).mono (fun _ h => h)
    fun e he => hrecover _ he) fun s₅ ⟨hwork, haside⟩ => ?_
  exact install_settles hsep hd hwork haside

end Round

/-! ### The rollback -/

private theorem subtree_removeInstalled {tree : Files} (h : Unrelated p q) :
    (removeInstalled follows tree q).subtree p = tree.subtree p := by
  unfold removeInstalled
  split
  · exact subtree_removeTree h
  · rfl

private theorem subtree_removeInstalled_self {tree : Files} (hlink : isSymlink p tree = false) :
    (removeInstalled follows tree p).subtree p = [] := by
  unfold removeInstalled
  split
  · exact subtree_removeTree_self
  · rename_i hexists
    exact subtree_of_not_exists hlink hexists

private theorem subtree_restoreBackup {tree : Files} {b : List Text × List Text} (ht : Unrelated p b.1)
    (hb : Unrelated p b.2) : (restoreBackup follows tree b).subtree p = tree.subtree p := by
  unfold restoreBackup
  split
  · exact subtree_moveTree hb ht
  · rfl

private theorem isSymlink_of_nil {tree : Files} (h : tree.subtree p = []) : isSymlink p tree = false := by
  unfold isSymlink
  rw [← lookup_subtree, h]
  rfl

/-- The content at a backup goes to its target. -/
private theorem subtree_restoreBackup_self {tree : Files} {target backup : List Text} (hne : Unrelated target backup)
    (hlink : isSymlink backup tree = false) (htarget : tree.subtree target = []) :
    (restoreBackup follows tree (target, backup)).subtree target = tree.subtree backup ∧
      (restoreBackup follows tree (target, backup)).subtree backup = [] := by
  unfold restoreBackup
  dsimp only
  split
  · exact ⟨subtree_moveTree_target hne.symm, subtree_moveTree_source hne.symm⟩
  · rename_i hexists
    have hnil := subtree_of_not_exists hlink hexists
    exact ⟨htarget.trans hnil.symm, hnil⟩

/-- A backup that is gone is not restored. -/
private theorem restoreBackup_of_nil {tree : Files} {target backup : List Text} (h : tree.subtree backup = []) :
    restoreBackup follows tree (target, backup) = tree := by
  unfold restoreBackup pathExists
  rw [isSymlink_of_nil h, holds_eq_false.2 h]
  rfl

variable (token directories) in
/-- What was installed and backed up belongs to the directories. -/
structure Registered (s : Promotion) : Prop where
  installed : ∀ p ∈ s.installed, ∃ d ∈ directories, p = d.2
  backups : ∀ b ∈ s.backups, ∃ d ∈ directories, b = (d.2, backupPath token d.2)

private theorem Registered.workedOn (h : Registered token directories s) (hd : d ∈ directories)
    (hwork : WorkedOn token directories d s s') : Registered token directories s' where
  installed p hp := by
    rcases hwork.addedInstalled p hp with hold | heq
    · exact h.installed p hold
    · exact ⟨d, hd, heq⟩
  backups b hb := by
    rcases hwork.addedBackups b hb with hold | heq
    · exact h.backups b hold
    · exact ⟨d, hd, heq⟩

section Rollback

variable (hsep : SeparatePaths token tree₀ directories) (hreg : Registered token directories s) (hd : d ∈ directories)

include hsep hreg hd

private theorem unrelated_of_installed (hp : p ∈ promotionPaths token d) (hq : q ∈ s.installed) (hne : p ≠ q) :
    Unrelated p q := by
  obtain ⟨d', hd', rfl⟩ := hreg.installed q hq
  exact unrelated_of_ne hsep hd hd' hp mem_promotionPaths.2.1 hne

private theorem unrelated_of_backups {b : List Text × List Text} (hp : p ∈ promotionPaths token d) (hb : b ∈ s.backups)
    (hne : b ≠ (d.2, backupPath token d.2)) : Unrelated p b.1 ∧ Unrelated p b.2 := by
  obtain ⟨d', hd', rfl⟩ := hreg.backups b hb
  have hdirs : d ≠ d' := by
    rintro rfl
    exact hne rfl
  exact ⟨unrelated_of_directories hsep hd hd' hdirs hp mem_promotionPaths.2.1,
    unrelated_of_directories hsep hd hd' hdirs hp mem_promotionPaths.2.2⟩

/-- The first loop of the rollback leaves the backups and what was not installed. -/
private theorem subtree_foldl_removeInstalled (hp : p ∈ promotionPaths token d) (hnot : p ∉ s.installed) :
    (s.installed.reverse.foldl (removeInstalled follows) s.tree).subtree p = s.tree.subtree p := by
  refine foldl_keeps (P := fun tree => subtree p tree = s.tree.subtree p) (fun tree q hq htree => ?_) rfl
  have hq := List.mem_reverse.1 hq
  have hne : p ≠ q := fun heq => hnot (heq ▸ hq)
  exact (subtree_removeInstalled (unrelated_of_installed hsep hreg hd hp hq hne)).trans htree

/-- The second loop leaves a target without a backup. -/
private theorem subtree_foldl_restoreBackup {tree : Files} (hp : p ∈ promotionPaths token d)
    (hnot : (d.2, backupPath token d.2) ∉ s.backups) :
    (s.backups.reverse.foldl (restoreBackup follows) tree).subtree p = tree.subtree p := by
  refine foldl_keeps (P := fun tree' => subtree p tree' = tree.subtree p) (fun tree' b hb htree => ?_) rfl
  have hb := List.mem_reverse.1 hb
  have hne : b ≠ (d.2, backupPath token d.2) := fun heq => hnot (heq ▸ hb)
  obtain ⟨htarget, hbackup⟩ := unrelated_of_backups hsep hreg hd hp hb hne
  exact (subtree_restoreBackup htarget hbackup).trans htree

/-- The second loop brings back what is at the backup of a target. -/
private theorem subtree_foldl_restoreBackup_self {tree : Files} (h : BackedUp token tree₀ d s)
    (hbackup : tree.subtree (backupPath token d.2) = tree₀.subtree d.2) (htarget : tree.subtree d.2 = []) :
    (s.backups.reverse.foldl (restoreBackup follows) tree).subtree d.2 = tree₀.subtree d.2 := by
  by_cases hin : (d.2, backupPath token d.2) ∈ s.backups
  · have hown := (unrelated_own hsep hd).2.2
    have hother {p : List Text} (hp : p ∈ promotionPaths token d) (tree' : Files) (b : List Text × List Text)
        (hb : b ∈ s.backups.reverse) (hne : b ≠ (d.2, backupPath token d.2)) :
        (restoreBackup follows tree' b).subtree p = tree'.subtree p := by
      obtain ⟨ht, hb⟩ := unrelated_of_backups hsep hreg hd hp (List.mem_reverse.1 hb) hne
      exact subtree_restoreBackup ht hb
    have hrestored := foldl_reaches (f := restoreBackup follows)
      (P := fun tree' => subtree d.2 tree' = tree₀.subtree d.2 ∧ subtree (backupPath token d.2) tree' = [])
      (Q := fun tree' => subtree (backupPath token d.2) tree' = tree₀.subtree d.2 ∧ subtree d.2 tree' = [])
      (List.mem_reverse.2 hin) ?_ ?_ ?_ ⟨hbackup, htarget⟩
    · exact hrestored.1
    · intro tree' ⟨hb, ht⟩
      have hlink : isSymlink (backupPath token d.2) tree' = false := (isSymlink_congr hb).trans h.plain
      obtain ⟨htarget', hbackup'⟩ := subtree_restoreBackup_self hown hlink ht
      exact ⟨htarget'.trans hb, hbackup'⟩
    · intro tree' b hb ⟨ht, hgone⟩
      by_cases hne : b = (d.2, backupPath token d.2)
      · rw [hne, restoreBackup_of_nil hgone]
        exact ⟨ht, hgone⟩
      · exact ⟨(hother mem_promotionPaths.2.1 tree' b hb hne).trans ht,
          (hother mem_promotionPaths.2.2 tree' b hb hne).trans hgone⟩
    · intro tree' b hb hne ⟨hkept, ht⟩
      exact ⟨(hother mem_promotionPaths.2.2 tree' b hb hne).trans hkept,
        (hother mem_promotionPaths.2.1 tree' b hb hne).trans ht⟩
  · rw [subtree_foldl_restoreBackup hsep hreg hd mem_promotionPaths.2.1 hin, htarget]
    exact (h.recorded.resolve_left hin).symm

/-- The rollback gives a target the content that it had. -/
theorem subtree_rollback (h : Recoverable token tree₀ d s) :
    (rollback follows s).subtree d.2 = tree₀.subtree d.2 := by
  unfold rollback
  have hbackup : backupPath token d.2 ∉ s.installed := by
    intro hin
    obtain ⟨d', hd', heq⟩ := hreg.installed _ hin
    by_cases hne : d = d'
    · subst hne
      exact (unrelated_own hsep hd).2.2.ne heq.symm
    · exact (unrelated_of_directories hsep hd hd' hne mem_promotionPaths.2.2 mem_promotionPaths.2.1).ne heq
  have hphase (hback : BackedUp token tree₀ d s)
      (hgone : (s.installed.reverse.foldl (removeInstalled follows) s.tree).subtree d.2 = []) :
      (s.backups.reverse.foldl (restoreBackup follows)
        (s.installed.reverse.foldl (removeInstalled follows) s.tree)).subtree d.2 = tree₀.subtree d.2 :=
    subtree_foldl_restoreBackup_self hsep hreg hd hback
      ((subtree_foldl_removeInstalled hsep hreg hd mem_promotionPaths.2.2 hbackup).trans hback.backup) hgone
  have hremoved (hin : d.2 ∈ s.installed) (hlink : isSymlink d.2 s.tree = false) :
      (s.installed.reverse.foldl (removeInstalled follows) s.tree).subtree d.2 = [] := by
    refine foldl_reaches (P := fun tree => subtree d.2 tree = []) (Q := fun tree => isSymlink d.2 tree = false)
      (List.mem_reverse.2 hin) (fun tree hlink => subtree_removeInstalled_self hlink) ?_ ?_ hlink
    · intro tree q hq hnil
      by_cases hne : d.2 = q
      · rw [← hne]
        exact subtree_removeInstalled_self (isSymlink_of_nil hnil)
      · have hother := unrelated_of_installed hsep hreg hd mem_promotionPaths.2.1 (List.mem_reverse.1 hq) hne
        exact (subtree_removeInstalled hother).trans hnil
    · intro tree q hq hne hlink
      have hother := unrelated_of_installed hsep hreg hd mem_promotionPaths.2.1 (List.mem_reverse.1 hq) (Ne.symm hne)
      exact (isSymlink_congr (subtree_removeInstalled hother)).trans hlink
  rcases h with huntouched | haside | hpromoted
  · rw [subtree_foldl_restoreBackup hsep hreg hd mem_promotionPaths.2.1 huntouched.notRecorded,
      subtree_foldl_removeInstalled hsep hreg hd mem_promotionPaths.2.1 huntouched.notInstalled]
    exact huntouched.target
  · refine hphase haside.toBackedUp ?_
    by_cases hin : d.2 ∈ s.installed
    · exact hremoved hin (isSymlink_of_nil haside.target)
    · exact (subtree_foldl_removeInstalled hsep hreg hd mem_promotionPaths.2.1 hin).trans haside.target
  · have hlink := (isSymlink_congr hpromoted.target).trans (hsep.staged d hd)
    exact hphase hpromoted.toBackedUp (hremoved hpromoted.installed hlink)

end Rollback

/-! ### The whole promotion -/

variable (token tree₀ directories) in
/-- The rounds of the first directories were made. -/
structure PromotedUpTo (done : List (List Text × List Text)) (s : Promotion) : Prop where
  promoted : ∀ d ∈ done, Promoted token tree₀ d s
  untouched : ∀ d ∈ directories, d ∉ done → Untouched token tree₀ d s
  registered : Registered token directories s

private theorem nodup_directories (h : SeparatePaths token tree₀ directories) : directories.Nodup := by
  refine (List.nodup_flatMap.1 (nodup_paths h)).2.imp fun {d d'} hdisjoint heq => ?_
  subst heq
  exact hdisjoint mem_promotionPaths.1 mem_promotionPaths.1

/-- The loop promotes every directory or stops where each one can be recovered. -/
theorem promoteAll_settles (hsep : SeparatePaths token tree₀ directories) :
    Settles (promoteAll fault follows token tree₀ directories) (PromotedUpTo token tree₀ directories directories)
      fun e => Registered token directories e.2 ∧ ∀ d ∈ directories, Recoverable token tree₀ d e.2 := by
  refine settles_foldlM (I := PromotedUpTo token tree₀ directories) (fun done d rest s hl hI => ?_) ?_
  · have hd : d ∈ directories := by simp [hl]
    have hdone : ∀ d' ∈ done, d' ∈ directories ∧ d' ≠ d := by
      intro d' hd'
      have hnodup := nodup_directories hsep
      rw [hl] at hnodup
      refine ⟨by simp [hl, hd'], ?_⟩
      exact (List.nodup_append.1 hnodup).2.2 d' hd' d List.mem_cons_self
    have hnew : d ∉ done := fun hin => (hdone d hin).2 rfl
    refine (promoteDirectory_settles hsep hd (hI.untouched d hd hnew)).mono ?_ ?_
    · intro s' ⟨hwork, hpromoted⟩
      refine ⟨?_, ?_, hI.registered.workedOn hd hwork⟩
      · intro d' hd'
        rcases List.mem_append.1 hd' with hold | hlast
        · obtain ⟨hin, hne⟩ := hdone d' hold
          exact (hI.promoted d' hold).others hin hne hwork
        · exact List.mem_singleton.1 hlast ▸ hpromoted
      · intro d' hd' hnot
        simp only [List.mem_append, List.mem_singleton, not_or] at hnot
        exact (hI.untouched d' hd' hnot.1).others hsep hd hd' hnot.2 hwork
    · intro e hstopped
      refine ⟨hI.registered.workedOn hd hstopped.work, fun d' hd' => ?_⟩
      by_cases heq : d' = d
      · exact heq ▸ hstopped.recoverable
      by_cases hold : d' ∈ done
      · exact Or.inr (Or.inr ((hI.promoted d' hold).others hd' heq hstopped.work))
      · exact Or.inl ((hI.untouched d' hd' hold).others hsep hd hd' heq hstopped.work)
  · exact ⟨by simp, fun d _ _ => ⟨rfl, rfl, by simp, by simp⟩, ⟨by simp, by simp⟩⟩

/-- The removal of a backup, which may fail on the way, leaves the paths that are unrelated to it. -/
private theorem dropBackup_settles {b : List Text × List Text} (h : Unrelated p b.2) :
    Settles (dropBackup fault follows s b) (fun s' => s'.tree.subtree p = s.tree.subtree p)
      fun e => e.2.tree.subtree p = s.tree.subtree p := by
  unfold dropBackup clearBackup
  refine Settles.bind (P := fun s' => s'.tree = s.tree)
    (query_settles (F := fun s' => subtree p s'.tree = s.tree.subtree p) rfl rfl) fun s₁ hs₁ => ?_
  split
  · refine attempt_settles (F := fun s' => subtree p s'.tree = s.tree.subtree p) ?_ ?_ ?_
    · intro tree htree
      obtain ⟨-, htree⟩ := raiseIf_bind_eq_ok.1 htree
      cases pure_eq_ok.1 htree
      exact (subtree_removeTree h).trans (congrArg _ hs₁)
    · refine (subtree_filter fun e he => ?_).trans (congrArg _ hs₁)
      simp [h.not_prefix he]
    · exact congrArg _ hs₁
  · exact congrArg _ hs₁

/-- The removal of the backups leaves the targets. -/
private theorem dropBackups_settles (hsep : SeparatePaths token tree₀ directories)
    (hreg : Registered token directories s) (hd : d ∈ directories) :
    Settles (s.backups.foldlM (dropBackup fault follows) s) (fun s' => s'.tree.subtree d.2 = s.tree.subtree d.2)
      fun e => e.2.tree.subtree d.2 = s.tree.subtree d.2 := by
  refine settles_foldlM (I := fun _ (s' : Promotion) => s'.tree.subtree d.2 = s.tree.subtree d.2)
    (fun done b rest s' hl hI => ?_) rfl
  obtain ⟨d', hd', rfl⟩ := hreg.backups b (by simp [hl])
  have hother : Unrelated d.2 (backupPath token d'.2) := by
    by_cases hne : d = d'
    · exact hne ▸ (unrelated_own hsep hd).2.2
    · exact unrelated_of_directories hsep hd hd' hne mem_promotionPaths.2.1 mem_promotionPaths.2.2
  exact (dropBackup_settles hother).mono (fun _ h => h.trans hI) fun _ h => h.trans hI

/-- When the loop fails every target has the content that it had, and when it is through every target has the staged
content, also when a backup cannot be removed then. -/
theorem promoteDirectories_atomic (h : SeparatePaths token tree₀ directories) :
    (∀ e s, promoteAll fault follows token tree₀ directories = .error (e, s) →
      (promoteDirectories fault follows token tree₀ directories).1 = .error e ∧
        ∀ d ∈ directories,
          (promoteDirectories fault follows token tree₀ directories).2.subtree d.2 = tree₀.subtree d.2) ∧
      (∀ s, promoteAll fault follows token tree₀ directories = .ok s →
        ∀ d ∈ directories,
          (promoteDirectories fault follows token tree₀ directories).2.subtree d.2 = tree₀.subtree d.1) ∧
      ((promoteDirectories fault follows token tree₀ directories).1 = .ok () →
        ∀ d ∈ directories,
          (promoteDirectories fault follows token tree₀ directories).2.subtree d.2 = tree₀.subtree d.1) := by
  -- a failure of the loop is rolled back; after it only the removal of a backup can fail
  have hrun : Settles (promoteAll fault follows token tree₀ directories) _ _ := promoteAll_settles h
  unfold promoteDirectories
  cases hloop : promoteAll fault follows token tree₀ directories with
  | error e =>
    rw [hloop] at hrun
    refine ⟨?_, by simp, by simp⟩
    intro e' s he
    cases he
    exact ⟨rfl, fun d hd => subtree_rollback h hrun.1 hd (hrun.2 d hd)⟩
  | ok s =>
    rw [hloop] at hrun
    have hstaged : ∀ d ∈ directories, Settles (s.backups.foldlM (dropBackup fault follows) s)
        (fun s' => s'.tree.subtree d.2 = tree₀.subtree d.1) fun e => e.2.tree.subtree d.2 = tree₀.subtree d.1 := by
      intro d hd
      have htarget := (hrun.promoted d hd).target
      exact (dropBackups_settles h hrun.registered hd).mono (fun _ h => h.trans htarget) fun _ h => h.trans htarget
    dsimp only
    cases hdrop : s.backups.foldlM (dropBackup fault follows) s with
    | error e =>
      rw [hdrop] at hstaged
      exact ⟨by simp, fun _ _ => hstaged, by simp⟩
    | ok s' =>
      rw [hdrop] at hstaged
      exact ⟨by simp, fun _ _ => hstaged, fun _ => hstaged⟩

end Proofs

private def stagedTree : Files :=
  [(["a".toList], .directory), (["a".toList, "f".toList], .file [1]), (["b".toList], .directory),
    (["b".toList, "f".toList], .file [2]), (["t".toList], .directory), (["t".toList, "f".toList], .file [3])]

private def stagedDirectories : List (List Text × List Text) :=
  [(["a".toList], ["t".toList]), (["b".toList], ["u".toList])]

private theorem separate_stagedDirectories : SeparatePaths "x".toList stagedTree stagedDirectories where
  unrelated := by decide +kernel
  staged := by decide +kernel

/-- The move of the last staged directory fails. -/
theorem promoteDirectories_atomic_interrupted :
    let run := promoteDirectories (some ⟨12, fun _ => false⟩) (fun _ => false) "x".toList stagedTree stagedDirectories
    raised run.1 = some osError ∧ ∀ d ∈ stagedDirectories, run.2.subtree d.2 = stagedTree.subtree d.2 := by
  refine ⟨by decide +kernel, ?_⟩
  cases hloop : promoteAll (some ⟨12, fun _ => false⟩) (fun _ => false) "x".toList stagedTree stagedDirectories with
  | error e => exact ((promoteDirectories_atomic separate_stagedDirectories).1 e.1 e.2 hloop).2
  | ok s =>
    have hfails : (promoteAll (some ⟨12, fun _ => false⟩) (fun _ => false) "x".toList stagedTree
        stagedDirectories).toOption.isNone = true := by decide +kernel
    rw [hloop] at hfails
    cases hfails

/-- Two directories with one target: the second round removes the backup of the first one, and when its last step fails
the target gets the content of the first staged directory. -/
theorem target_promoted_twice :
    let run := promoteDirectories (some ⟨14, fun _ => false⟩) (fun _ => false) "x".toList stagedTree
      [(["a".toList], ["t".toList]), (["b".toList], ["t".toList])]
    raised run.1 = some osError ∧ run.2.subtree ["t".toList] = [([], .directory), (["f".toList], .file [1])] ∧
      stagedTree.subtree ["t".toList] = [([], .directory), (["f".toList], .file [3])] := by
  decide +kernel

end ArdOssie
