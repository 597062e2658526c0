import ArdOssie.Adapters.Filesystem
import ArdOssie.Adapters.Subprocess

/-!
# Changed paths

The paths that differ between the merge base of two revisions and the head, as the command line of git lists them.
-/

namespace ArdOssie

/-- `_REF` -/
def isRef (t : Text) : Bool :=
  match t with
  | [] => false
  | c :: t => c.isAlphanum && t.all fun d => d.isAlphanum || d ∈ ['.', '_', '/', '-']

/-- `_SHA` -/
def isSha (t : Text) : Bool := t.length = 40 && t.all fun c => c.isDigit || ('a' ≤ c && c ≤ 'f')

/-- `_validate_ref` -/
def validateRef (value : Text) : Workflow Unit :=
  failIf (¬ isRef value = true ∨ "..".toList <:+: value ∨ "//".toList <:+: value ∨ ['@', '{'] <:+: value ∨
      "/".toList <:+ value ∨ ".".toList <:+ value ∨ ".lock".toList <:+ value)
    (.conflict "INVALID_GIT_REF" (value.take 80))

/-- `_validate_revision` -/
def validateRevision (value : Text) : Workflow Unit := if value = "HEAD".toList then .ok () else validateRef value

/-- `_validated_sha` -/
def validatedSha (platform : Platform) (value : Text) : Workflow Text := do
  let normalized := platform.casefold value.strip
  failIf (¬ isSha normalized = true) (.conflict "INVALID_GIT_SHA" (normalized.take 80))
  pure normalized

/-- `_split_paths` -/
def splitPaths (value : Text) : List Text :=
  (if '\x00' ∈ value then value.splitOn '\x00' else value.splitLines).filter fun record => record ≠ []

/-! ### Records that end with NUL -/

section Records

/-- Some records, each with a NUL at its end. -/
def nulJoined (records : List Text) : Text := records.flatMap fun record => record ++ ['\x00']

private theorem splitOn_nulJoined {records : List Text} (h : ∀ r ∈ records, '\x00' ∉ r) {last : Text}
    (hlast : '\x00' ∉ last) : List.splitOn '\x00' (nulJoined records ++ last) = records ++ [last] := by
  induction records with
  | nil => exact List.splitOn_eq_singleton hlast
  | cons record records ih =>
    have hcons : nulJoined (record :: records) ++ last = record ++ '\x00' :: (nulJoined records ++ last) := by
      simp [nulJoined]
    rw [hcons, List.splitOn_append_cons_self_of_not_mem (h record List.mem_cons_self),
      ih fun r hr => h r (List.mem_cons_of_mem _ hr)]
    rfl

/-- The records that are read before a last one without NUL. -/
theorem splitPaths_append {records : List Text} (hne : records ≠ []) (h : ∀ r ∈ records, r ≠ [] ∧ '\x00' ∉ r)
    {last : Text} (hlast : '\x00' ∉ last) :
    splitPaths (nulJoined records ++ last) = records ++ [last].filter fun record => record ≠ [] := by
  have hnul : '\x00' ∈ nulJoined records ++ last := by
    obtain ⟨record, records, rfl⟩ := List.exists_cons_of_ne_nil hne
    simp [nulJoined]
  unfold splitPaths
  rw [if_pos hnul, splitOn_nulJoined (fun r hr => (h r hr).2) hlast, List.filter_append]
  congr 1
  exact List.filter_eq_self.2 fun r hr => decide_eq_true (h r hr).1

/-- Complete records are read back. -/
theorem splitPaths_nulJoined {records : List Text} (h : ∀ r ∈ records, r ≠ [] ∧ '\x00' ∉ r) :
    splitPaths (nulJoined records) = records := by
  by_cases hne : records = []
  · rw [hne]
    rfl
  · have hsplit := splitPaths_append hne h (List.not_mem_nil (a := '\x00'))
    simpa using hsplit

/-- Where a prefix of some records ends: in a record, or before its NUL. -/
theorem nulJoined_eq_append_cons {records : List Text} {before after : Text} {c : Char}
    (h : nulJoined records = before ++ c :: after) : ∃ done record rest part, records = done ++ record :: rest ∧
      before = nulJoined done ++ part ∧
        (part = record ∧ c = '\x00' ∧ after = nulJoined rest ∨ ∃ missing, record = part ++ c :: missing) := by
  induction records generalizing before with
  | nil => simp [nulJoined] at h
  | cons record records ih =>
    have hcons : nulJoined (record :: records) = record ++ '\x00' :: nulJoined records := by simp [nulJoined]
    rw [hcons] at h
    rcases List.append_eq_append_iff.1 h with ⟨more, hbefore, hrest⟩ | ⟨missing, hrecord, hrest⟩
    · -- the prefix reaches the NUL of the first record
      cases more with
      | nil =>
        obtain ⟨hc, hafter⟩ := List.cons.inj hrest
        refine ⟨[], record, records, record, rfl, ?_, Or.inl ⟨rfl, hc.symm, hafter.symm⟩⟩
        rw [hbefore]
        simp [nulJoined]
      | cons d more =>
        obtain ⟨rfl, hjoined⟩ := List.cons.inj hrest
        obtain ⟨done, record', rest, part, rfl, hmore, hend⟩ := ih hjoined
        refine ⟨record :: done, record', rest, part, rfl, ?_, hend⟩
        rw [hbefore, hmore]
        simp [nulJoined]
    · cases missing with
      | nil =>
        obtain ⟨hc, hafter⟩ := List.cons.inj hrest
        refine ⟨[], record, records, record, rfl, ?_, Or.inl ⟨rfl, hc, hafter⟩⟩
        rw [hrecord]
        simp [nulJoined]
      | cons d missing =>
        obtain ⟨rfl, -⟩ := List.cons.inj hrest
        exact ⟨[], record, records, before, rfl, rfl, Or.inr ⟨missing, hrecord⟩⟩

private theorem mem_splitLinesFrom {line t x : Text} (h : x ∈ Text.splitLinesFrom line t) :
    x = line ++ t ∧ Text.splitLinesFrom line t = [x] ∨ x.utf8.length < (line ++ t).utf8.length := by
  have hpos : ∀ c : Char, 1 ≤ (Text.utf8Char c).length := fun c => (Utf8.utf8Char_length c).1
  fun_induction Text.splitLinesFrom line t with
  | case1 => cases h
  | case2 line hne =>
    rw [List.mem_singleton] at h
    exact Or.inl ⟨by rw [h, List.append_nil], by rw [h]⟩
  | case3 line t ih =>
    right
    have hreturn := hpos '\r'
    simp only [Utf8.utf8_append, Utf8.utf8_cons, List.length_append]
    rcases List.mem_cons.1 h with rfl | hrest
    · omega
    · rcases ih hrest with ⟨rfl, -⟩ | hlt
      · omega
      · rw [List.nil_append] at hlt
        omega
  | case4 line c t _ hbreak ih =>
    right
    have hc := hpos c
    simp only [Utf8.utf8_append, Utf8.utf8_cons, List.length_append]
    rcases List.mem_cons.1 h with rfl | hrest
    · omega
    · rcases ih hrest with ⟨rfl, -⟩ | hlt
      · omega
      · rw [List.nil_append] at hlt
        omega
  | case5 line c t _ hbreak ih =>
    have hline : line ++ c :: t = line ++ [c] ++ t := by simp
    rw [hline]
    exact ih h

/-- A line is the whole text, or has fewer bytes. -/
theorem mem_splitLines {t x : Text} (h : x ∈ t.splitLines) :
    x = t ∧ t.splitLines = [t] ∨ x.utf8.length < t.utf8.length := by
  rcases mem_splitLinesFrom h with ⟨hx, hlines⟩ | hlt
  · have hx : x = t := hx
    exact Or.inl ⟨hx, hx ▸ hlines⟩
  · exact Or.inr hlt

end Records

/-! ### The command line -/

/-- A repository, the runner of its commands, and the processes that the commands start. -/
structure GitCli where
  platform : Platform
  runner : SubprocessRunner
  checkout : Checkout
  process : List Text → Workflow CommandOutput
  /-- `repr` of a text -/
  repr : Text → Text

structure ChangedPaths where
  mergeBase : Text
  paths : List (List Text)
  deriving DecidableEq

namespace GitCli

variable (cli : GitCli)

/-- `GitCli._git` -/
def git (arguments : List Text) : Workflow CommandResult := do
  let output ← cli.process ("git".toList :: arguments)
  cli.runner.run cli.repr [] 60 output

/-- The first text that is not empty. -/
def firstText (texts : List Text) (default : Text) : Text := (texts.find? fun t => t ≠ []).getD default

/-- `GitCli._require_success` -/
def requireSuccess (result : CommandResult) (code : String) : Workflow Unit :=
  failIf (result.returncode ≠ 0)
    (.transient code (firstText [result.stderr, result.stdout] "git command failed".toList))

/-- `GitCli._repository_relative` -/
def repositoryRelative (value : Text) : Workflow (List Text) := cli.checkout.resolveWrite (.ofText value)

/-- The arguments of the listing of changed paths. -/
def diffArguments (mergeBase headRef : Text) : List Text :=
  ["diff".toList, "--name-only".toList, "-z".toList, mergeBase ++ "...".toList ++ headRef]

/-- `GitCli.changed_paths` -/
def changedPaths (baseRef headRef : Text) : Workflow ChangedPaths := do
  validateRevision baseRef
  validateRevision headRef
  let merge ← cli.git ["merge-base".toList, headRef, baseRef]
  failIf (merge.returncode ≠ 0)
    (.conflict "MERGE_BASE_NOT_FOUND" (firstText [merge.stderr] "merge base unavailable".toList))
  let mergeBase ← validatedSha cli.platform merge.stdout
  let diff ← cli.git (diffArguments mergeBase headRef)
  requireSuccess diff "CHANGED_PATHS_FAILED"
  let paths ← (splitPaths diff.stdout).mapM cli.repositoryRelative
  pure ⟨mergeBase, paths.eraseDups⟩

/-- The listing that a successful call reads, and the paths that it returns. -/
theorem changedPaths_eq_ok {baseRef headRef : Text} {changed : ChangedPaths}
    (h : cli.changedPaths baseRef headRef = .ok changed) : ∃ output paths,
      cli.process ("git".toList :: diffArguments changed.mergeBase headRef) = .ok output ∧ output.returncode = 0 ∧
        (splitPaths (cli.runner.sanitize [] (output.stdout.flatten.take cli.runner.maxOutputBytes))).mapM
          cli.repositoryRelative = .ok paths ∧ ∀ q, q ∈ changed.paths ↔ q ∈ paths := by
  unfold changedPaths at h
  obtain ⟨_, -, h⟩ := bind_eq_ok.1 h
  obtain ⟨_, -, h⟩ := bind_eq_ok.1 h
  obtain ⟨merge, -, h⟩ := bind_eq_ok.1 h
  obtain ⟨-, h⟩ := failIf_bind_eq_ok.1 h
  obtain ⟨mergeBase, -, h⟩ := bind_eq_ok.1 h
  obtain ⟨diff, hdiff, h⟩ := bind_eq_ok.1 h
  obtain ⟨_, hsuccess, h⟩ := bind_eq_ok.1 h
  obtain ⟨paths, hpaths, h⟩ := bind_eq_ok.1 h
  cases pure_eq_ok.1 h
  obtain ⟨output, houtput, hrun⟩ := bind_eq_ok.1 hdiff
  obtain ⟨hcode, hstdout⟩ := cli.runner.run_eq_ok hrun
  have hzero := not_not.1 (failIf_eq_ok.1 hsuccess)
  refine ⟨output, paths, houtput, hcode ▸ hzero, ?_, fun q => by simp⟩
  rwa [hstdout] at hpaths

end GitCli

end ArdOssie
