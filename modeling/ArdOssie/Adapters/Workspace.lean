import ArdOssie.Adapters.Filesystem
import Mathlib.Data.List.Infix

/-!
# Writing into a workspace

The file operations of code that writes below a root without a path policy: such code follows links, and what it does
then depends on where they lead.  On a path that crosses no link an operation has its effect at the path itself.
-/

namespace ArdOssie

/-- Names as the system has them. -/
def ProperPath (p : List Text) : Prop := ∀ part ∈ p, part ≠ "..".toList ∧ '\x00' ∉ part

instance (p : List Text) : Decidable (ProperPath p) := inferInstanceAs (Decidable (∀ part ∈ p, _))

/-- The files below a root, with a list of the paths at which there is something. -/
structure Workspace where
  root : List Text
  entry : List Text → Option FileEntry
  paths : List (List Text)
  complete : ∀ p, entry p ≠ none → p ∈ paths
  root_proper : ProperPath root
  names_proper : ∀ p, entry p ≠ none → ProperPath p

/-- The operations on paths that cross a link. -/
structure LinkedPaths where
  isFile : Workspace → List Text → Bool
  read : Workspace → List Text → PyResult (List ℕ)
  makeDirs : Workspace → List Text → PyResult Workspace
  write : Workspace → List Text → List ℕ → PyResult Workspace
  removeFiles : Workspace → List Text → List Text → PyResult Workspace

namespace Workspace

/-- An operation of the system fails. -/
def osError : PyError := .valueError "OSError"

/-- The path and its parents below the root. -/
def prefixes (p : List Text) : List (List Text) := p.inits.filter fun q => q ≠ []

theorem mem_prefixes {p q : List Text} : q ∈ prefixes p ↔ q <+: p ∧ q ≠ [] := by
  unfold prefixes
  rw [List.mem_filter, List.mem_inits, decide_eq_true_eq]

/-- The workspace under the path policy. -/
def checkout (w : Workspace) : Checkout := ⟨w.root, w.entry⟩

section Operations

variable (links : LinkedPaths) (w : Workspace)

/-- The path is a link, or leads through one. -/
def crossesLink (p : List Text) : Bool := (prefixes p).any fun q => w.entry q = some .symlink

/-- Put an entry at a path. -/
def put (p : List Text) (e : FileEntry) : Workspace :=
  if hp : ProperPath p then
    { root := w.root
      entry := Function.update w.entry p (some e)
      paths := p :: w.paths
      complete := fun q hq => by
        by_cases h : q = p
        · exact h ▸ List.mem_cons_self
        · rw [Function.update_of_ne h] at hq
          exact List.mem_cons_of_mem _ (w.complete q hq)
      root_proper := w.root_proper
      names_proper := fun q hq => by
        by_cases h : q = p
        · exact h ▸ hp
        · rw [Function.update_of_ne h] at hq
          exact w.names_proper q hq }
  else w

/-- Take the entry at a path away. -/
def remove (p : List Text) : Workspace where
  root := w.root
  entry := Function.update w.entry p none
  paths := w.paths
  complete q hq := by
    by_cases h : q = p
    · rw [h, Function.update_self] at hq
      exact absurd rfl hq
    · rw [Function.update_of_ne h] at hq
      exact w.complete q hq
  root_proper := w.root_proper
  names_proper q hq := by
    by_cases h : q = p
    · rw [h, Function.update_self] at hq
      exact absurd rfl hq
    · rw [Function.update_of_ne h] at hq
      exact w.names_proper q hq

/-- `path.is_file()` -/
def isFile (p : List Text) : Bool :=
  if w.crossesLink p then links.isFile w p else w.checkout.isFile p

/-- `path.read_bytes()` -/
def readBytes (p : List Text) : PyResult (List ℕ) :=
  if w.crossesLink p then links.read w p
  else match w.entry p with
    | some (.file content) => .ok content
    | _ => .error osError

/-- `path.mkdir(parents=True, exist_ok=True)` -/
def makeDirs (p : List Text) : PyResult Workspace := do
  if w.crossesLink p then links.makeDirs w p
  else do
    raiseIf (¬ ProperPath p ∨ ∃ q ∈ prefixes p, w.entry q ≠ none ∧ w.entry q ≠ some .directory) osError
    pure ((prefixes p).foldl (fun w q => if w.entry q = none then w.put q .directory else w) w)

/-- `os.replace` of a new file in the directory of the path, which replaces a link at the path. -/
def replaceFile (p : List Text) (content : List ℕ) : PyResult Workspace := do
  if w.crossesLink p.dropLast then links.write w p content
  else do
    raiseIf (¬ ProperPath p ∨ w.entry p.dropLast ≠ some .directory ∨ w.entry p = some .directory) osError
    pure (w.put p (.file content))

/-- `path.write_bytes(content)`, which follows a link at the path. -/
def writeBytes (p : List Text) (content : List ℕ) : PyResult Workspace := do
  if w.crossesLink p then links.write w p content
  else do
    raiseIf (¬ ProperPath p ∨ w.entry p.dropLast ≠ some .directory ∨ w.entry p = some .directory) osError
    pure (w.put p (.file content))

/-- `folder.iterdir()` -/
def children (folder : List Text) : List (List Text) :=
  w.paths.filter fun p => p ≠ [] ∧ p.dropLast = folder ∧ w.entry p ≠ none

/-- `for previous in folder.iterdir(): if previous.is_file() and previous != keep: previous.unlink()` -/
def removeFiles (folder keep : List Text) : PyResult Workspace := do
  if w.crossesLink folder then links.removeFiles w folder keep
  else pure ((w.children folder).foldl (fun w p => if w.isFile links p = true ∧ p ≠ keep then w.remove p else w) w)

end Operations

/-! ### Effects -/

/-- What an operation leaves: there are no new links, other files stay and directories stay; files are written at some
paths and removed at others, and directories are made at some. -/
structure Effect (w v : Workspace) (written removed made : List Text → Prop) : Prop where
  root : v.root = w.root
  links : ∀ q, v.entry q = some .symlink → w.entry q = some .symlink
  files : ∀ q c, v.entry q = some (.file c) → ¬ written q → w.entry q = some (.file c)
  kept : ∀ q c, w.entry q = some (.file c) → ¬ written q → ¬ removed q → v.entry q = some (.file c)
  directories : ∀ q, w.entry q = some .directory → v.entry q = some .directory
  made : ∀ q, v.entry q = some .directory → ¬ made q → w.entry q = some .directory

theorem Effect.trans {w v u : Workspace} {written removed made written' removed' made' : List Text → Prop}
    (h : Effect w v written removed made) (h' : Effect v u written' removed' made') :
    Effect w u (fun q => written q ∨ written' q) (fun q => removed q ∨ removed' q) fun q => made q ∨ made' q where
  root := h'.root.trans h.root
  links q hq := h.links q (h'.links q hq)
  files q c hq hw := h.files q c (h'.files q c hq (not_or.1 hw).2) (not_or.1 hw).1
  kept q c hq hw hr := h'.kept q c (h.kept q c hq (not_or.1 hw).1 (not_or.1 hr).1) (not_or.1 hw).2 (not_or.1 hr).2
  directories q hq := h'.directories q (h.directories q hq)
  made q hq hm := h.made q (h'.made q hq (not_or.1 hm).2) (not_or.1 hm).1

theorem Effect.mono {w v : Workspace} {written removed made written' removed' made' : List Text → Prop}
    (h : Effect w v written removed made) (hwritten : ∀ q, written q → written' q)
    (hremoved : ∀ q, removed q → removed' q) (hmade : ∀ q, made q → made' q) :
    Effect w v written' removed' made' where
  root := h.root
  links := h.links
  files q c hq hw := h.files q c hq fun hq' => hw (hwritten q hq')
  kept q c hq hw hr := h.kept q c hq (fun hq' => hw (hwritten q hq')) fun hq' => hr (hremoved q hq')
  directories := h.directories
  made q hq hm := h.made q hq fun hq' => hm (hmade q hq')

theorem Effect.crossesLink {w v : Workspace} {written removed made : List Text → Prop}
    (h : Effect w v written removed made) {p : List Text} (hp : w.crossesLink p = false) : v.crossesLink p = false := by
  unfold Workspace.crossesLink at hp ⊢
  rw [List.any_eq_false] at hp ⊢
  intro q hq hlink
  exact hp q hq (decide_eq_true (h.links q (of_decide_eq_true hlink)))

theorem crossesLink_of_prefix {w : Workspace} {p q : List Text} (hp : w.crossesLink p = false) (hq : q <+: p) :
    w.crossesLink q = false := by
  unfold crossesLink at hp ⊢
  rw [List.any_eq_false] at hp ⊢
  intro r hr
  obtain ⟨hinit, hne⟩ := mem_prefixes.1 hr
  exact hp r (mem_prefixes.2 ⟨hinit.trans hq, hne⟩)

variable {links : LinkedPaths} {w v : Workspace}

theorem entry_put {p : List Text} (hp : ProperPath p) (e : FileEntry) (q : List Text) :
    (w.put p e).entry q = if q = p then some e else w.entry q := by
  unfold put
  rw [dif_pos hp]
  exact Function.update_apply ..

theorem root_put (p : List Text) (e : FileEntry) : (w.put p e).root = w.root := by
  unfold put
  split
  · rfl
  · rfl

/-- Directories are made where there is nothing. -/
private theorem entry_makeDirs_fold (l : List (List Text)) (hl : ∀ p ∈ l, ProperPath p) (w : Workspace)
    (q : List Text) :
    (l.foldl (fun w q => if w.entry q = none then w.put q .directory else w) w).entry q =
      if q ∈ l ∧ w.entry q = none then some .directory else w.entry q := by
  induction l generalizing w with
  | nil => simp
  | cons p l ih =>
    rw [List.foldl_cons, ih fun p' h => hl p' (List.mem_cons_of_mem _ h)]
    by_cases hp : w.entry p = none
    · rw [if_pos hp, entry_put (hl p List.mem_cons_self)]
      by_cases hq : q = p
      · subst hq
        simp [hp]
      · simp [hq]
    · rw [if_neg hp]
      by_cases hq : q = p
      · subst hq
        simp [hp]
      · simp [hq]

private theorem root_makeDirs_fold (l : List (List Text)) (w : Workspace) :
    (l.foldl (fun w q => if w.entry q = none then w.put q .directory else w) w).root = w.root := by
  induction l generalizing w with
  | nil => rfl
  | cons p l ih =>
    rw [List.foldl_cons, ih]
    split
    · exact root_put p _
    · rfl

/-- The path and its parents are directories then, and nothing else changes. -/
theorem makeDirs_eq_ok {p : List Text} (hp : w.crossesLink p = false) (h : w.makeDirs links p = .ok v) :
    ProperPath p ∧ (∀ q ∈ prefixes p, v.entry q = some .directory) ∧
      Effect w v (fun _ => False) (fun _ => False) fun q => q ∈ prefixes p := by
  unfold makeDirs at h
  rw [hp, if_neg (by decide)] at h
  obtain ⟨hcheck, h⟩ := raiseIf_bind_eq_ok.1 h
  cases pure_eq_ok.1 h
  rw [not_or] at hcheck
  obtain ⟨hproper, hdirs⟩ := hcheck
  have hentry := entry_makeDirs_fold (prefixes p)
    (fun q hq part hpart => not_not.1 hproper part ((mem_prefixes.1 hq).1.subset hpart)) w
  have hinit : ∀ q ∈ prefixes p, w.entry q = none ∨ w.entry q = some .directory := by
    intro q hq
    by_contra hnot
    exact hdirs ⟨q, hq, fun hn => hnot (Or.inl hn), fun hd => hnot (Or.inr hd)⟩
  refine ⟨not_not.1 hproper, fun q hq => ?_, ?_⟩
  · rw [hentry]
    rcases hinit q hq with hnone | hdirectory
    · rw [if_pos ⟨hq, hnone⟩]
    · rw [if_neg (fun hboth => by rw [hdirectory] at hboth; cases hboth.2), hdirectory]
  · constructor
    · exact root_makeDirs_fold (prefixes p) w
    · intro q hq
      rw [hentry] at hq
      split at hq
      · cases hq
      · exact hq
    · intro q c hq _
      rw [hentry] at hq
      split at hq
      · cases hq
      · exact hq
    · intro q c hq _ _
      rw [hentry, if_neg (fun hboth => by rw [hq] at hboth; cases hboth.2), hq]
    · intro q hq
      rw [hentry, if_neg (fun hboth => by rw [hq] at hboth; cases hboth.2), hq]
    · intro q hq hmade
      rwa [hentry, if_neg fun hboth => hmade hboth.1] at hq

theorem effect_put {p : List Text} {content : List ℕ} (hproper : ProperPath p) (hp : w.entry p ≠ some .directory) :
    Effect w (w.put p (.file content)) (· = p) (fun _ => False) fun _ => False := by
  have hentry : ∀ q, q ≠ p → (w.put p (.file content)).entry q = w.entry q := by
    intro q hq
    rw [entry_put hproper, if_neg hq]
  have hself : (w.put p (.file content)).entry p = some (.file content) := by
    rw [entry_put hproper, if_pos rfl]
  constructor
  · exact root_put p _
  · intro q hq
    by_cases h : q = p
    · rw [h, hself] at hq
      cases hq
    · rwa [hentry q h] at hq
  · intro q c hq h
    rwa [hentry q h] at hq
  · intro q c hq h _
    rw [hentry q h, hq]
  · intro q hq
    have h : q ≠ p := fun h => hp (h ▸ hq)
    rw [hentry q h, hq]
  · intro q hq _
    by_cases h : q = p
    · rw [h, hself] at hq
      cases hq
    · rwa [hentry q h] at hq

/-- A file is written at the path. -/
theorem replaceFile_eq_ok {p : List Text} {content : List ℕ} (hp : w.crossesLink p.dropLast = false)
    (h : w.replaceFile links p content = .ok v) :
    ProperPath p ∧ v.entry p = some (.file content) ∧ Effect w v (· = p) (fun _ => False) fun _ => False := by
  unfold replaceFile at h
  rw [hp, if_neg (by decide)] at h
  obtain ⟨hcheck, h⟩ := raiseIf_bind_eq_ok.1 h
  cases pure_eq_ok.1 h
  rw [not_or, not_or] at hcheck
  have hproper := not_not.1 hcheck.1
  exact ⟨hproper, by rw [entry_put hproper, if_pos rfl], effect_put hproper hcheck.2.2⟩

theorem writeBytes_eq_ok {p : List Text} {content : List ℕ} (hp : w.crossesLink p = false)
    (h : w.writeBytes links p content = .ok v) :
    ProperPath p ∧ v.entry p = some (.file content) ∧ Effect w v (· = p) (fun _ => False) fun _ => False := by
  unfold writeBytes at h
  rw [hp, if_neg (by decide)] at h
  obtain ⟨hcheck, h⟩ := raiseIf_bind_eq_ok.1 h
  cases pure_eq_ok.1 h
  rw [not_or, not_or] at hcheck
  have hproper := not_not.1 hcheck.1
  exact ⟨hproper, by rw [entry_put hproper, if_pos rfl], effect_put hproper hcheck.2.2⟩

theorem isFile_iff {p : List Text} : w.checkout.isFile p = true ↔ ∃ c, w.entry p = some (.file c) := by
  show (match w.entry p with
    | some (.file _) => true
    | _ => false) = true ↔ _
  cases h : w.entry p with
  | none => simp
  | some e => cases e <;> simp

/-- A child of a directory that is no link crosses none. -/
theorem crossesLink_child {p : List Text} (hp : w.crossesLink p.dropLast = false)
    (hlink : w.entry p ≠ some .symlink) : w.crossesLink p = false := by
  unfold crossesLink at hp ⊢
  rw [List.any_eq_false] at hp ⊢
  intro q hq
  obtain ⟨⟨rest, hrest⟩, hne⟩ := mem_prefixes.1 hq
  by_cases hnil : rest = []
  · rw [hnil, List.append_nil] at hrest
    rw [hrest]
    exact fun h => hlink (of_decide_eq_true h)
  · refine hp q (mem_prefixes.2 ⟨⟨rest.dropLast, ?_⟩, hne⟩)
    rw [← hrest, List.dropLast_append_of_ne_nil hnil]

private theorem entry_removeFiles_fold {folder keep : List Text} (l : List (List Text))
    (hl : ∀ p ∈ l, p.dropLast = folder) (u : Workspace) (hfolder : u.crossesLink folder = false)
    (hchildren : ∀ p ∈ l, u.entry p ≠ some .symlink) (q : List Text) :
    (l.foldl (fun w p => if w.isFile links p = true ∧ p ≠ keep then w.remove p else w) u).entry q =
      if q ∈ l ∧ u.checkout.isFile q = true ∧ q ≠ keep then none else u.entry q := by
  induction l generalizing u with
  | nil => simp
  | cons p l ih =>
    have hp : u.isFile links p = u.checkout.isFile p := by
      have hcross : u.crossesLink p = false :=
        crossesLink_child (by rw [hl p List.mem_cons_self]; exact hfolder) (hchildren p List.mem_cons_self)
      unfold isFile
      rw [hcross, if_neg (by decide)]
    have hl' : ∀ p' ∈ l, p'.dropLast = folder := fun p' h => hl p' (List.mem_cons_of_mem _ h)
    have hchildren' : ∀ p' ∈ l, u.entry p' ≠ some .symlink := fun p' h => hchildren p' (List.mem_cons_of_mem _ h)
    rw [List.foldl_cons, hp]
    by_cases hremove : u.checkout.isFile p = true ∧ p ≠ keep
    · rw [if_pos hremove]
      have hentry : ∀ q, (u.remove p).entry q = if q = p then none else u.entry q := fun q =>
        Function.update_apply ..
      have hlinks : ∀ q, (u.remove p).entry q = some .symlink → u.entry q = some .symlink := by
        intro q hq
        rw [hentry] at hq
        split at hq
        · cases hq
        · exact hq
      have hfolder' : (u.remove p).crossesLink folder = false := by
        unfold crossesLink at hfolder ⊢
        rw [List.any_eq_false] at hfolder ⊢
        exact fun q hq hlink => hfolder q hq (decide_eq_true (hlinks q (of_decide_eq_true hlink)))
      rw [ih hl' (u.remove p) hfolder' (fun p' h hlink => hchildren' p' h (hlinks p' hlink))]
      by_cases hq : q = p
      · subst hq
        have hnone : (u.remove q).entry q = none := Function.update_self ..
        rw [hnone, ite_self, if_pos ⟨List.mem_cons_self, hremove⟩]
      · have hsame : (u.remove p).entry q = u.entry q := Function.update_of_ne hq ..
        have hfile : (u.remove p).checkout.isFile q = u.checkout.isFile q := by
          rw [Bool.eq_iff_iff, isFile_iff, isFile_iff, hsame]
        rw [hsame, hfile]
        simp [hq]
    · rw [if_neg hremove, ih hl' u hfolder hchildren']
      by_cases hq : q = p
      · subst hq
        rw [if_neg fun h => hremove h.2, if_neg fun h => hremove h.2]
      · simp [hq]

private theorem root_removeFiles_fold {keep : List Text} (l : List (List Text)) (u : Workspace) :
    (l.foldl (fun w p => if w.isFile links p = true ∧ p ≠ keep then w.remove p else w) u).root = u.root := by
  induction l generalizing u with
  | nil => rfl
  | cons p l ih =>
    rw [List.foldl_cons, ih]
    split
    · rfl
    · rfl

/-- Of the files in the folder, only the one to keep is left. -/
theorem removeFiles_eq_ok {folder keep : List Text} (hfolder : w.crossesLink folder = false)
    (hchildren : ∀ p, p ≠ [] → p.dropLast = folder → w.entry p ≠ some .symlink)
    (h : w.removeFiles links folder keep = .ok v) :
    Effect w v (fun _ => False) (fun q => q ≠ [] ∧ q.dropLast = folder ∧ q ≠ keep) (fun _ => False) ∧
      ∀ q c, q ≠ [] → q.dropLast = folder → q ≠ keep → v.entry q ≠ some (.file c) := by
  unfold removeFiles at h
  rw [hfolder, if_neg (by decide)] at h
  cases pure_eq_ok.1 h
  have hmem : ∀ p, p ∈ w.children folder ↔ p ≠ [] ∧ p.dropLast = folder ∧ w.entry p ≠ none := by
    intro p
    unfold children
    rw [List.mem_filter, decide_eq_true_eq]
    exact ⟨fun h => h.2, fun h => ⟨w.complete p h.2.2, h⟩⟩
  have hentry := @entry_removeFiles_fold links folder keep (w.children folder)
    (fun p hp => ((hmem p).1 hp).2.1) w hfolder fun p hp => hchildren p ((hmem p).1 hp).1 ((hmem p).1 hp).2.1
  refine ⟨⟨root_removeFiles_fold _ w, ?_, ?_, ?_, ?_, ?_⟩, ?_⟩
  · intro q hq
    rw [hentry] at hq
    split at hq
    · cases hq
    · exact hq
  · intro q c hq _
    rw [hentry] at hq
    split at hq
    · cases hq
    · exact hq
  · intro q c hq _ hkept
    rw [hentry, if_neg fun hall => hkept ⟨((hmem q).1 hall.1).1, ((hmem q).1 hall.1).2.1, hall.2.2⟩, hq]
  · intro q hq
    rw [hentry, if_neg fun hall => by
      obtain ⟨c, hc⟩ := isFile_iff.1 hall.2.1
      rw [hq] at hc
      cases hc]
    exact hq
  · intro q hq _
    rw [hentry] at hq
    split at hq
    · cases hq
    · exact hq
  · intro q c hne hfolder' hkeep hq
    rw [hentry] at hq
    split at hq
    · cases hq
    · rename_i hnot
      exact hnot ⟨(hmem q).2 ⟨hne, hfolder', by rw [hq]; exact Option.some_ne_none _⟩, isFile_iff.2 ⟨c, hq⟩, hkeep⟩

/-! ### The path policy -/

/-- A proper path without links that leads to something passes the policy. -/
theorem resolveRead_of_entry {path : FilePath} {p : List Text} (hproper : ProperPath p)
    (hnul : ∀ part ∈ path.parts, '\x00' ∉ part)
    (hpath : (if path.absolute then path.parts else w.root ++ path.parts) = w.root ++ p)
    (hcross : w.crossesLink p = false) (hentry : w.entry p ≠ none) : w.checkout.resolveRead path = .ok p := by
  have hcandidate : w.checkout.lexicalCandidate path = .ok p :=
    Checkout.lexicalCandidate_of_proper (fun h => (w.root_proper _ h).1 rfl) (fun h => (hproper _ h).1 rfl) hnul hpath
  have hlinks : w.checkout.crossesSymlink [] p = false := by
    refine Checkout.crossesSymlink_eq_false fun q hq hne hlink => ?_
    unfold crossesLink at hcross
    rw [List.any_eq_false] at hcross
    exact hcross q (mem_prefixes.2 ⟨hq, hne⟩) (decide_eq_true hlink)
  unfold Checkout.resolveRead Checkout.rejectSymlinks
  rw [hcandidate, ok_bind, hlinks]
  exact failIf_bind_eq_ok.2 ⟨by decide, failIf_bind_eq_ok.2 ⟨hentry, rfl⟩⟩

/-! ### Operations that succeed -/

theorem makeDirs_total (links : LinkedPaths) {p : List Text} (hp : w.crossesLink p = false) (hproper : ProperPath p)
    (hdirs : ∀ q ∈ prefixes p, w.entry q = none ∨ w.entry q = some .directory) :
    ∃ v, w.makeDirs links p = .ok v := by
  unfold makeDirs
  rw [hp, if_neg (by decide)]
  refine ⟨_, raiseIf_bind_eq_ok.2 ⟨?_, rfl⟩⟩
  rintro (h | ⟨q, hq, hnone, hdirectory⟩)
  · exact h hproper
  · rcases hdirs q hq with h | h
    · exact hnone h
    · exact hdirectory h

theorem replaceFile_total (links : LinkedPaths) {p : List Text} (content : List ℕ) (hp : w.crossesLink p.dropLast = false)
    (hproper : ProperPath p) (hparent : w.entry p.dropLast = some .directory) (h : w.entry p ≠ some .directory) :
    ∃ v, w.replaceFile links p content = .ok v := by
  unfold replaceFile
  rw [hp, if_neg (by decide)]
  refine ⟨_, raiseIf_bind_eq_ok.2 ⟨?_, rfl⟩⟩
  rintro (hnot | hnot | hdirectory)
  · exact hnot hproper
  · exact hnot hparent
  · exact h hdirectory

theorem writeBytes_total (links : LinkedPaths) {p : List Text} (content : List ℕ) (hp : w.crossesLink p = false)
    (hproper : ProperPath p) (hparent : w.entry p.dropLast = some .directory) (h : w.entry p ≠ some .directory) :
    ∃ v, w.writeBytes links p content = .ok v := by
  unfold writeBytes
  rw [hp, if_neg (by decide)]
  refine ⟨_, raiseIf_bind_eq_ok.2 ⟨?_, rfl⟩⟩
  rintro (hnot | hnot | hdirectory)
  · exact hnot hproper
  · exact hnot hparent
  · exact h hdirectory

theorem removeFiles_total (links : LinkedPaths) {folder : List Text} (keep : List Text) (hp : w.crossesLink folder = false) :
    ∃ v, w.removeFiles links folder keep = .ok v := by
  unfold removeFiles
  rw [hp, if_neg (by decide)]
  exact ⟨_, rfl⟩

end Workspace

end ArdOssie
