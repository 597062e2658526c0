import ArdOssie.Application.Contracts
import ArdOssie.Utf8
import Mathlib.Algebra.Order.BigOperators.Group.List
import Mathlib.Algebra.Order.Group.Nat

/-!
# Repository paths

The checkout of a repository and the paths that its services may read and write.  A path below the root is the list
of its parts; a path that has passed the policy has no link on its way, so that it names what it says.
-/

namespace ArdOssie

/-- A path: absolute or relative, with its parts. -/
structure FilePath where
  absolute : Bool
  parts : List Text
  deriving DecidableEq

/-- `Path(text)` -/
def FilePath.ofText (t : Text) : FilePath :=
  ⟨t.head? = some '/', (t.splitOn '/').filter fun part => part ≠ [] ∧ part ≠ ['.']⟩

/-- What is at a path. -/
inductive FileEntry where
  | file (content : List ℕ)
  | directory
  | symlink
  deriving DecidableEq

/-- The files below the root of a repository. -/
structure Checkout where
  root : List Text
  entry : List Text → Option FileEntry

namespace Checkout

variable (checkout : Checkout)

/-- `path.is_file()` of a path that has passed the policy -/
def isFile (parts : List Text) : Bool :=
  match checkout.entry parts with
  | some (.file _) => true
  | _ => false

/-- `os.path.abspath` -/
def abspath (parts : List Text) : List Text :=
  parts.foldl (fun done part => if part = "..".toList then done.dropLast else done ++ [part]) []

/-- `RepositoryPaths._lexical_candidate`, below the root -/
def lexicalCandidate (path : FilePath) : Workflow (List Text) := do
  failIf (path.parts.any fun part => '\x00' ∈ part) (.security "INVALID_PATH" "path contains NUL".toList)
  let candidate := abspath (if path.absolute then path.parts else checkout.root ++ path.parts)
  failIf (¬ checkout.root <+: candidate)
    (.security "PATH_OUTSIDE_REPOSITORY" "path resolves outside the repository".toList)
  pure (candidate.drop checkout.root.length)

/-- A link lies on the way to a path. -/
def crossesSymlink (done : List Text) : List Text → Bool
  | [] => false
  | part :: parts =>
    match checkout.entry (done ++ [part]) with
    | some .symlink => true
    | some _ => crossesSymlink (done ++ [part]) parts
    | none => false

/-- `RepositoryPaths._reject_symlinks` -/
def rejectSymlinks (parts : List Text) : Workflow Unit :=
  failIf (checkout.crossesSymlink [] parts) (.security "SYMLINK_NOT_ALLOWED" "path contains a symlink".toList)

/-- `RepositoryPaths.resolve_write` -/
def resolveWrite (path : FilePath) : Workflow (List Text) := do
  let relative ← checkout.lexicalCandidate path
  failIf (".git".toList ∈ relative)
    (.security "GIT_METADATA_WRITE_NOT_ALLOWED" "writes below .git are forbidden".toList)
  checkout.rejectSymlinks relative
  pure relative

/-- `RepositoryPaths.resolve_read` -/
def resolveRead (path : FilePath) : Workflow (List Text) := do
  let relative ← checkout.lexicalCandidate path
  checkout.rejectSymlinks relative
  failIf (checkout.entry relative = none) (.security "READ_PATH_NOT_FOUND" "read path does not exist".toList)
  pure relative

/-! ### Resolved paths -/

/-- The bytes of some names, each with one separator. -/
def weight (parts : List Text) : ℕ := (parts.map fun part => part.utf8.length + 1).sum

theorem weight_append (parts parts' : List Text) : weight (parts ++ parts') = weight parts + weight parts' := by
  simp [weight]

theorem weight_le_of_sublist {parts parts' : List Text} (h : parts.Sublist parts') : weight parts ≤ weight parts' :=
  (h.map _).sum_le_sum fun _ _ => Nat.zero_le _

private theorem weight_abspath (parts : List Text) : weight (abspath parts) ≤ weight parts := by
  have hfold : ∀ done, weight (parts.foldl (fun done part =>
      if part = "..".toList then done.dropLast else done ++ [part]) done) ≤ weight done + weight parts := by
    induction parts with
    | nil => exact fun done => Nat.le_refl _
    | cons part parts ih =>
      intro done
      have hcons : weight (part :: parts) = weight [part] + weight parts := weight_append [part] parts
      rw [List.foldl_cons, hcons]
      refine (ih _).trans ?_
      split
      · have hdrop := weight_le_of_sublist (List.dropLast_sublist done)
        omega
      · rw [weight_append]
        omega
  have h := hfold []
  rwa [show weight [] = 0 from rfl, Nat.zero_add] at h

private theorem abspath_eq_append {parts parts' : List Text} (h : "..".toList ∉ parts') :
    abspath (parts ++ parts') = abspath parts ++ parts' := by
  unfold abspath
  rw [List.foldl_append]
  generalize List.foldl _ [] parts = done
  induction parts' generalizing done with
  | nil => simp
  | cons part parts' ih =>
    simp only [List.mem_cons, not_or] at h
    rw [List.foldl_cons, if_neg (Ne.symm h.1), ih h.2, List.append_assoc]
    rfl

private theorem dotdot_notMem_abspath (parts : List Text) : "..".toList ∉ abspath parts := by
  unfold abspath
  have hfold : ∀ done : List Text, "..".toList ∉ done → "..".toList ∉ parts.foldl (fun done part =>
      if part = "..".toList then done.dropLast else done ++ [part]) done := by
    induction parts with
    | nil => exact fun done h => h
    | cons part parts ih =>
      intro done hdone
      rw [List.foldl_cons]
      refine ih _ ?_
      split
      · exact fun hmem => hdone (List.dropLast_subset done hmem)
      · rename_i hpart
        rw [List.mem_append, List.mem_singleton]
        rintro (hmem | heq)
        · exact hdone hmem
        · exact hpart heq.symm
  exact hfold [] List.not_mem_nil

variable {checkout}

theorem lexicalCandidate_eq_ok {path : FilePath} {relative : List Text}
    (h : checkout.lexicalCandidate path = .ok relative) :
    abspath (if path.absolute then path.parts else checkout.root ++ path.parts) = checkout.root ++ relative := by
  unfold lexicalCandidate at h
  obtain ⟨-, h⟩ := failIf_bind_eq_ok.1 h
  obtain ⟨hbelow, h⟩ := failIf_bind_eq_ok.1 h
  cases pure_eq_ok.1 h
  obtain ⟨rest, hrest⟩ := not_not.1 hbelow
  rw [← hrest, List.drop_left]

theorem resolveWrite_eq_ok {path : FilePath} {relative : List Text} (h : checkout.resolveWrite path = .ok relative) :
    abspath (if path.absolute then path.parts else checkout.root ++ path.parts) = checkout.root ++ relative := by
  unfold resolveWrite at h
  obtain ⟨candidate, hcandidate, h⟩ := bind_eq_ok.1 h
  obtain ⟨-, h⟩ := failIf_bind_eq_ok.1 h
  obtain ⟨_, -, h⟩ := bind_eq_ok.1 h
  cases pure_eq_ok.1 h
  exact lexicalCandidate_eq_ok hcandidate

theorem abspath_of_proper {parts : List Text} (h : "..".toList ∉ parts) : abspath parts = parts := by
  have hself : abspath ([] ++ parts) = abspath [] ++ parts := abspath_eq_append h
  rwa [List.nil_append] at hself

/-- A relative path without `..` resolves to itself. -/
theorem resolveWrite_relative {parts relative : List Text} (hparts : "..".toList ∉ parts)
    (h : checkout.resolveWrite ⟨false, parts⟩ = .ok relative) : relative = parts := by
  have hcandidate : abspath (checkout.root ++ parts) = checkout.root ++ relative := resolveWrite_eq_ok h
  have hroot : abspath checkout.root = checkout.root := by
    apply abspath_of_proper
    exact fun hmem => dotdot_notMem_abspath (checkout.root ++ parts) (hcandidate ▸ List.mem_append_left _ hmem)
  rw [abspath_eq_append hparts, hroot] at hcandidate
  exact (List.append_cancel_left hcandidate).symm

/-- A path below a proper root is its own candidate. -/
theorem lexicalCandidate_of_proper {path : FilePath} {parts : List Text} (hroot : "..".toList ∉ checkout.root)
    (hparts : "..".toList ∉ parts) (hnul : ∀ part ∈ path.parts, '\x00' ∉ part)
    (hpath : (if path.absolute then path.parts else checkout.root ++ path.parts) = checkout.root ++ parts) :
    checkout.lexicalCandidate path = .ok parts := by
  have habspath : abspath (checkout.root ++ parts) = checkout.root ++ parts := by
    apply abspath_of_proper
    rw [List.mem_append, not_or]
    exact ⟨hroot, hparts⟩
  unfold lexicalCandidate
  refine failIf_bind_eq_ok.2 ⟨?_, ?_⟩
  · rw [List.any_eq_true]
    rintro ⟨part, hpart, hmem⟩
    exact hnul part hpart (of_decide_eq_true hmem)
  · rw [hpath, habspath]
    refine failIf_bind_eq_ok.2 ⟨not_not.2 (List.prefix_append ..), ?_⟩
    rw [List.drop_left]
    rfl

/-- A path without links on its way crosses none. -/
theorem crossesSymlink_eq_false {done parts : List Text}
    (h : ∀ q, q <+: parts → q ≠ [] → checkout.entry (done ++ q) ≠ some .symlink) :
    checkout.crossesSymlink done parts = false := by
  induction parts generalizing done with
  | nil => rfl
  | cons part parts ih =>
    unfold crossesSymlink
    have hfirst := h [part] ⟨parts, rfl⟩ (List.cons_ne_nil _ _)
    split
    · rename_i hlink
      exact absurd hlink hfirst
    · refine ih fun q hq hne => ?_
      have hnext := h (part :: q) (List.cons_prefix_cons.2 ⟨rfl, hq⟩) (List.cons_ne_nil _ _)
      rwa [List.append_cons] at hnext
    · rfl

/-- What a resolved path is, when it is a proper one below the root. -/
theorem resolveRead_eq_ok {path : FilePath} {parts relative : List Text} (hroot : "..".toList ∉ checkout.root)
    (hparts : "..".toList ∉ parts)
    (hpath : (if path.absolute then path.parts else checkout.root ++ path.parts) = checkout.root ++ parts)
    (h : checkout.resolveRead path = .ok relative) : relative = parts := by
  unfold resolveRead at h
  obtain ⟨candidate, hcandidate, h⟩ := bind_eq_ok.1 h
  obtain ⟨_, -, h⟩ := bind_eq_ok.1 h
  obtain ⟨-, h⟩ := failIf_bind_eq_ok.1 h
  cases pure_eq_ok.1 h
  have heq := lexicalCandidate_eq_ok hcandidate
  have habspath : abspath (checkout.root ++ parts) = checkout.root ++ parts := by
    apply abspath_of_proper
    rw [List.mem_append, not_or]
    exact ⟨hroot, hparts⟩
  rw [hpath, habspath] at heq
  exact (List.append_cancel_left heq).symm

/-- A resolved path crosses no link. -/
theorem crossesSymlink_of_resolveRead {path : FilePath} {relative : List Text}
    (h : checkout.resolveRead path = .ok relative) : checkout.crossesSymlink [] relative = false := by
  unfold resolveRead at h
  obtain ⟨candidate, -, h⟩ := bind_eq_ok.1 h
  obtain ⟨_, hreject, h⟩ := bind_eq_ok.1 h
  obtain ⟨-, h⟩ := failIf_bind_eq_ok.1 h
  cases pure_eq_ok.1 h
  exact Bool.not_eq_true _ ▸ failIf_eq_ok.1 hreject

/-- A resolved path has no more bytes than the path that is given. -/
theorem weight_resolveWrite {path : FilePath} {relative : List Text} (h : checkout.resolveWrite path = .ok relative) :
    weight relative ≤ weight path.parts := by
  have hcandidate := congrArg weight (resolveWrite_eq_ok h)
  rw [weight_append] at hcandidate
  cases habsolute : path.absolute with
  | true =>
    rw [habsolute, if_pos rfl] at hcandidate
    have hle := weight_abspath path.parts
    omega
  | false =>
    rw [habsolute, if_neg (by decide)] at hcandidate
    have hle := weight_abspath (checkout.root ++ path.parts)
    rw [weight_append] at hle
    omega

end Checkout

/-- Names that are joined by separators have one separator less than names. -/
theorem weight_eq_length {parts : List Text} (h : parts ≠ []) :
    Checkout.weight parts = (Text.utf8 (['/'].intercalate parts)).length + 1 := by
  induction parts with
  | nil => exact absurd rfl h
  | cons part parts ih =>
    have hcons : Checkout.weight (part :: parts) = part.utf8.length + 1 + Checkout.weight parts := List.sum_cons
    cases parts with
    | nil =>
      rw [List.intercalate_singleton]
      exact hcons
    | cons part' parts =>
      have hslash : Text.utf8Char '/' = [0x2f] := by decide
      rw [hcons, ih (List.cons_ne_nil _ _), List.intercalate_cons_cons, Utf8.utf8_append, Utf8.utf8_append,
        Utf8.utf8_cons, hslash]
      simp only [List.length_append, List.length_cons, List.length_nil, Utf8.utf8_nil]
      omega

/-- The names of a path have the bytes of its text, but for some separators. -/
theorem weight_ofText (t : Text) : Checkout.weight (FilePath.ofText t).parts ≤ t.utf8.length + 1 := by
  refine (Checkout.weight_le_of_sublist List.filter_sublist).trans (Nat.le_of_eq ?_)
  rw [weight_eq_length (List.splitOn_ne_nil _ _), List.intercalate_splitOn]

/-- A character of joined names is the separator or in a name. -/
theorem mem_intercalate {c separator : Char} {t : List Text} (h : c ∈ [separator].intercalate t) :
    c = separator ∨ ∃ part ∈ t, c ∈ part := by
  induction t with
  | nil => cases h
  | cons part t ih =>
    cases t with
    | nil =>
      rw [List.intercalate_singleton] at h
      exact Or.inr ⟨part, List.mem_cons_self, h⟩
    | cons part' t =>
      rw [List.intercalate_cons_cons, List.mem_append, List.mem_append, List.mem_singleton] at h
      rcases h with (hpart | hseparator) | hrest
      · exact Or.inr ⟨part, List.mem_cons_self, hpart⟩
      · exact Or.inl hseparator
      · rcases ih hrest with hseparator | ⟨other, hother, hmem⟩
        · exact Or.inl hseparator
        · exact Or.inr ⟨other, List.mem_cons_of_mem _ hother, hmem⟩

/-- The path of a text that joins proper names. -/
theorem ofText_intercalate {parts : List Text} (hne : parts ≠ [])
    (h : ∀ part ∈ parts, part ≠ [] ∧ '/' ∉ part ∧ part ≠ ['.']) :
    FilePath.ofText (['/'].intercalate parts) = ⟨false, parts⟩ := by
  have hsplit : List.splitOn '/' (['/'].intercalate parts) = parts :=
    List.splitOn_intercalate '/' (fun part hpart => (h part hpart).2.1) hne
  have hfilter : parts.filter (fun part => part ≠ [] ∧ part ≠ ['.']) = parts :=
    List.filter_eq_self.2 fun part hpart => decide_eq_true ⟨(h part hpart).1, (h part hpart).2.2⟩
  have hhead : (['/'].intercalate parts).head? ≠ some '/' := by
    obtain ⟨part, parts, rfl⟩ := List.exists_cons_of_ne_nil hne
    obtain ⟨hpart, hslash, -⟩ := h part List.mem_cons_self
    obtain ⟨c, part, rfl⟩ := List.exists_cons_of_ne_nil hpart
    have hfirst : (['/'].intercalate ((c :: part) :: parts)).head? = some c := by
      cases parts with
      | nil => rw [List.intercalate_singleton, List.head?_cons]
      | cons part' parts => rw [List.intercalate_cons_cons, List.append_assoc, List.cons_append, List.head?_cons]
    rw [hfirst]
    intro hc
    rw [Option.some_inj.1 hc] at hslash
    exact hslash List.mem_cons_self
  unfold FilePath.ofText
  rw [hsplit, hfilter]
  simp [hhead]

end ArdOssie
