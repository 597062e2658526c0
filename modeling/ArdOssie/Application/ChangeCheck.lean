import ArdOssie.Adapters.GitCli

/-!
# Mixed changes

A change must not touch repository code and the data of products at once.  Two services read the changed paths and
reject such a change; they see what the listing of git gives them within the output bound of the runner: a renamed
file only under its new name, no name that is not UTF-8, and nothing beyond the bound.
-/

namespace ArdOssie

/-! ### The services -/

/-- The path lies under `products` or `registry`. -/
def isDataPath (parts : List Text) : Bool :=
  match parts with
  | [] => false
  | part :: _ => part = "products".toList || part = "registry".toList

/-- `DetectProductService.run` with the code after the check for mixed changes. -/
def detectProduct {α : Type} (cli : GitCli) (baseRef headRef : Text) (rest : ChangedPaths → Workflow α) :
    Workflow α := do
  let changed ← cli.changedPaths baseRef headRef
  failIf (changed.paths.any fun path => "..".toList ∈ path)
    (.security "UNSAFE_CHANGED_PATH" "changed path is outside the repository".toList)
  failIf (changed.paths.any isDataPath = true ∧ changed.paths.any (fun path => !isDataPath path) = true)
    (.validation "MIXED_CODE_AND_ARD_CHANGES" "direct changes cannot mix ARD data with repository code".toList)
  rest changed

/-- `RepositoryCheckService._safe_relative` -/
def safeRelative (checkout : Checkout) (path : List Text) : Workflow (List Text) := do
  let relative ← checkout.resolveWrite ⟨false, path⟩
  failIf ("..".toList ∈ path ∨ relative ≠ path)
    (.security "REPOSITORY_CHANGED_PATH_UNSAFE" "changed path is outside the repository".toList)
  pure relative

/-- `RepositoryCheckService.run` between the checks of the head and the verifiers. -/
def repositoryCheck {α : Type} (cli : GitCli) (baseRef headRef : Text) (checks : Workflow Unit)
    (rest : ChangedPaths → Workflow α) : Workflow α := do
  checks
  let changed ← cli.changedPaths baseRef headRef
  let relatives ← changed.paths.mapM (safeRelative cli.checkout)
  failIf (relatives.any isDataPath = true ∧ relatives.any (fun path => !isDataPath path) = true)
    (.validation "MIXED_CODE_AND_ARD_DATA_NOT_ALLOWED" "repository code and ARD data cannot change together".toList)
  rest changed

/-! ### Trees and listings -/

/-- A path in a tree: names that are bytes without `/` and NUL. -/
structure GitPath where
  parts : List (List ℕ)
  nonempty : parts ≠ []
  wellFormed : ∀ part ∈ parts, part ≠ [] ∧ 0 ∉ part ∧ 0x2f ∉ part ∧ part ≠ [0x2e] ∧ part ≠ [0x2e, 0x2e]
  deriving DecidableEq

namespace GitPath

def bytes (p : GitPath) : List ℕ := [0x2f].intercalate p.parts

/-- All names are UTF-8. -/
def IsText (p : GitPath) : Prop := ∃ t : List Text, t.map Text.utf8 = p.parts

/-- The path lies under `products` or `registry`. -/
def IsData (p : GitPath) : Prop :=
  p.parts.head? = some (Text.utf8 "products".toList) ∨ p.parts.head? = some (Text.utf8 "registry".toList)

end GitPath

section Listing

variable {β : Type} {base head : GitPath → Option β}

/-- What `git diff --name-only -z` lists: every changed path but the sources of the detected renames. -/
structure DiffListing (base head : GitPath → Option β) where
  names : List GitPath
  renames : List (GitPath × GitPath)
  nodup : names.Nodup
  removed : ∀ r ∈ renames, base r.1 ≠ none ∧ head r.1 = none
  added : ∀ r ∈ renames, base r.2 = none ∧ head r.2 ≠ none
  mem_names : ∀ p, p ∈ names ↔ base p ≠ head p ∧ ∀ r ∈ renames, r.1 ≠ p

namespace DiffListing

variable (listing : DiffListing base head)

/-- The bytes that git writes. -/
def output : List ℕ := listing.names.flatMap fun p => p.bytes ++ [0]

/-- The names fit in the bound; the last NUL may be cut unless the only name would then be read as several lines. -/
def Fits (maximum : ℕ) : Prop :=
  listing.output.length ≤ maximum ∨ listing.output.length = maximum + 1 ∧
    ∀ p (t : Text), listing.names = [p] → t.utf8 = p.bytes → t.splitLines = [t]

end DiffListing

/-- Every changed path is among the given ones. -/
def Covers (base head : GitPath → Option β) (paths : List (List Text)) : Prop :=
  ∀ p, base p ≠ head p → ∃ q ∈ paths, q.map Text.utf8 = p.parts

/-- The change touches data and code. -/
def Mixed (base head : GitPath → Option β) : Prop :=
  (∃ p, base p ≠ head p ∧ p.IsData) ∧ ∃ p, base p ≠ head p ∧ ¬ p.IsData

end Listing

/-! ### Names that are texts -/

namespace GitPath

/-- The text of a path whose names are texts. -/
def textOf (t : List Text) : Text := ['/'].intercalate t

private theorem utf8_slash : Text.utf8Char '/' = [0x2f] := by decide

theorem utf8_textOf {p : GitPath} {t : List Text} (h : t.map Text.utf8 = p.parts) : (textOf t).utf8 = p.bytes := by
  unfold textOf bytes
  rw [← h]
  clear h
  induction t with
  | nil => rfl
  | cons part t ih =>
    cases t with
    | nil => simp [List.intercalate_singleton]
    | cons part' t =>
      rw [List.intercalate_cons_cons, Utf8.utf8_append, Utf8.utf8_append, ih, Utf8.utf8_cons, utf8_slash]
      simp only [List.map_cons]
      rw [List.intercalate_cons_cons]
      rfl

private theorem mem_utf8 {c : Char} {t : Text} (h : c ∈ t) {b : ℕ} (hb : b ∈ Text.utf8Char c) : b ∈ t.utf8 :=
  List.mem_flatMap.2 ⟨c, h, hb⟩

/-- The names of such a path are proper. -/
theorem proper_of_text {p : GitPath} {t : List Text} (h : t.map Text.utf8 = p.parts) :
    t ≠ [] ∧ ∀ part ∈ t, part ≠ [] ∧ '/' ∉ part ∧ '\x00' ∉ part ∧ part ≠ ['.'] ∧ part ≠ "..".toList := by
  constructor
  · rintro rfl
    exact p.nonempty h.symm
  · intro part hpart
    obtain ⟨hne, hnul, hslash, hdot, hdots⟩ := p.wellFormed part.utf8 (h ▸ List.mem_map_of_mem hpart)
    refine ⟨?_, ?_, ?_, ?_, ?_⟩
    · rintro rfl
      exact hne rfl
    · exact fun hmem => hslash (mem_utf8 hmem (by decide))
    · exact fun hmem => hnul (mem_utf8 hmem (by decide))
    · rintro rfl
      exact hdot (by decide)
    · rintro rfl
      exact hdots (by decide)

/-- The text of such a path resolves to its names. -/
theorem resolve_textOf {p : GitPath} {t : List Text} (h : t.map Text.utf8 = p.parts) {checkout : Checkout}
    {relative : List Text} (hresolve : checkout.resolveWrite (.ofText (textOf t)) = .ok relative) : relative = t := by
  obtain ⟨hne, hproper⟩ := proper_of_text h
  unfold textOf at hresolve
  rw [ofText_intercalate hne fun part hpart => ⟨(hproper part hpart).1, (hproper part hpart).2.1,
    (hproper part hpart).2.2.2.1⟩] at hresolve
  exact Checkout.resolveWrite_relative (fun hmem => (hproper _ hmem).2.2.2.2 rfl) hresolve

/-- A text that resolves to the names of a path has at least its bytes. -/
theorem length_le_of_resolve {p : GitPath} {checkout : Checkout} {q : Text} {relative : List Text}
    (hresolve : checkout.resolveWrite (.ofText q) = .ok relative) (h : relative.map Text.utf8 = p.parts) :
    p.bytes.length ≤ q.utf8.length := by
  have hweight := (Checkout.weight_resolveWrite hresolve).trans (weight_ofText q)
  rw [weight_eq_length (proper_of_text h).1] at hweight
  rw [← utf8_textOf h]
  exact Nat.le_of_succ_le_succ hweight

theorem nul_notMem_textOf {p : GitPath} {t : List Text} (h : t.map Text.utf8 = p.parts) : '\x00' ∉ textOf t := by
  intro hmem
  rcases mem_intercalate hmem with hslash | ⟨part, hpart, hnul⟩
  · exact absurd hslash (by decide)
  · exact ((proper_of_text h).2 part hpart).2.2.1 hnul

theorem textOf_ne_nil {p : GitPath} {t : List Text} (h : t.map Text.utf8 = p.parts) : textOf t ≠ [] := by
  intro hnil
  have hweight := weight_eq_length (proper_of_text h).1
  obtain ⟨part, t, rfl⟩ := List.exists_cons_of_ne_nil (proper_of_text h).1
  obtain ⟨c, part, rfl⟩ := List.exists_cons_of_ne_nil ((proper_of_text h).2 part List.mem_cons_self).1
  have hbytes := (Utf8.utf8Char_length c).1
  unfold textOf at hnil
  rw [hnil] at hweight
  simp only [Checkout.weight, List.map_cons, List.sum_cons, Utf8.utf8_cons, Utf8.utf8_nil, List.length_append,
    List.length_nil] at hweight
  omega

/-- A path is determined by its bytes. -/
theorem bytes_injective : Function.Injective bytes := by
  intro p p' h
  have hsplit : ∀ p : GitPath, List.splitOn 0x2f p.bytes = p.parts := fun p =>
    List.splitOn_intercalate 0x2f (fun part hpart => (p.wellFormed part hpart).2.2.1) p.nonempty
  have hparts : p.parts = p'.parts := by rw [← hsplit p, ← hsplit p', h]
  cases p
  cases p'
  cases hparts
  rfl

end GitPath

/-! ### What is read -/

section Reading

open GitPath

/-- Names of paths as texts. -/
abbrev TextNames (names : List GitPath) (ts : List (List Text)) : Prop :=
  List.Forall₂ (fun (p : GitPath) t => t.map Text.utf8 = p.parts) names ts

private theorem exists_textNames {names : List GitPath} (h : ∀ p ∈ names, p.IsText) : ∃ ts, TextNames names ts := by
  induction names with
  | nil => exact ⟨[], .nil⟩
  | cons p names ih =>
    obtain ⟨t, ht⟩ := h p List.mem_cons_self
    obtain ⟨ts, hts⟩ := ih fun p' hp' => h p' (List.mem_cons_of_mem _ hp')
    exact ⟨t :: ts, .cons ht hts⟩

variable {names : List GitPath} {ts : List (List Text)}

private theorem utf8_records (h : TextNames names ts) : (ts.map textOf).map Text.utf8 = names.map bytes := by
  induction h with
  | nil => rfl
  | cons hp _ ih => rw [List.map_cons, List.map_cons, List.map_cons, utf8_textOf hp, ih]

private theorem utf8_nulJoined (h : TextNames names ts) :
    (nulJoined (ts.map textOf)).utf8 = names.flatMap fun p => p.bytes ++ [0] := by
  have hnul : Text.utf8Char '\x00' = [0] := by decide
  induction h with
  | nil => rfl
  | cons hp _ ih =>
    rw [List.map_cons, nulJoined, List.flatMap_cons, Utf8.utf8_append, Utf8.utf8_append, Utf8.utf8_cons, hnul,
      utf8_textOf hp, List.flatMap_cons]
    exact congrArg (_ ++ ·) ih

private theorem proper_records (h : TextNames names ts) : ∀ r ∈ ts.map textOf, r ≠ [] ∧ '\x00' ∉ r := by
  intro r hr
  obtain ⟨t, ht, rfl⟩ := List.mem_map.1 hr
  obtain ⟨p, -, hp⟩ := exists_of_forall₂_right h ht
  exact ⟨textOf_ne_nil hp, nul_notMem_textOf hp⟩

private theorem nodup_records (h : TextNames names ts) (hnames : names.Nodup) : (ts.map textOf).Nodup := by
  refine List.Nodup.of_map Text.utf8 ?_
  rw [utf8_records h]
  exact hnames.map bytes_injective

/-- A listed name resolves to the path that it names. -/
private theorem bytes_of_resolve (h : TextNames names ts) {checkout : Checkout} {x : Text} (hx : x ∈ ts.map textOf)
    {q : List Text} (hresolve : checkout.resolveWrite (.ofText x) = .ok q) {p : GitPath}
    (hq : q.map Text.utf8 = p.parts) : x.utf8 = p.bytes ∧ p ∈ names := by
  obtain ⟨t, ht, rfl⟩ := List.mem_map.1 hx
  obtain ⟨p', hp', hparts⟩ := exists_of_forall₂_right h ht
  have hqt : q = t := resolve_textOf hparts hresolve
  have hbytes : p'.bytes = p.bytes := by
    unfold bytes
    rw [← hparts, ← hq, hqt]
  have hsame : p' = p := bytes_injective hbytes
  rw [utf8_textOf hparts, hsame]
  exact ⟨rfl, hsame ▸ hp'⟩

variable {runner : SubprocessRunner}

/-- Names within the bound are read back. -/
private theorem read_of_le (h : TextNames names ts)
    (hle : (nulJoined (ts.map textOf)).utf8.length ≤ runner.maxOutputBytes) :
    splitPaths (runner.sanitize [] ((nulJoined (ts.map textOf)).utf8.take runner.maxOutputBytes)) =
      ts.map textOf := by
  rw [List.take_of_length_le hle, runner.sanitize_utf8_of_le hle, splitPaths_nulJoined (proper_records h)]

/-- Of names beyond the bound, the first ones are read, and the next one whole or cut. -/
private theorem read_of_lt (h : TextNames names ts)
    (hlt : runner.maxOutputBytes < (nulJoined (ts.map textOf)).utf8.length) :
    ∃ done record rest, ts.map textOf = done ++ record :: rest ∧
      ((∀ x ∈ splitPaths (runner.sanitize [] ((nulJoined (ts.map textOf)).utf8.take runner.maxOutputBytes)),
          x ∈ done ∨ x.utf8.length < record.utf8.length) ∨
        splitPaths (runner.sanitize [] ((nulJoined (ts.map textOf)).utf8.take runner.maxOutputBytes)) =
            done ++ [record] ∧
          (rest = [] → (nulJoined (ts.map textOf)).utf8.length = runner.maxOutputBytes + 1) ∧
          (done = [] → record.splitLines = [record])) := by
  obtain ⟨before, c, after, part, missing, tail, hjoined, hc, hmissing, hbound, hread, htail⟩ :=
    runner.sanitize_utf8_take hlt
  obtain ⟨done, record, rest, w, hrecords, hbefore, hend⟩ := nulJoined_eq_append_cons hjoined
  have hproper := proper_records h
  rw [hrecords] at hproper
  have hdone : ∀ r ∈ done, r ≠ [] ∧ '\x00' ∉ r := fun r hr => hproper r (List.mem_append_left _ hr)
  obtain ⟨hrecordNe, hrecordNul⟩ := hproper record (by simp)
  refine ⟨done, record, rest, hrecords, ?_⟩
  rw [hread, hbefore, List.append_assoc]
  rcases hend with ⟨rfl, rfl, hafter⟩ | ⟨more, hrecord⟩
  · -- only NULs are missing from the record on
    have hnul : Text.utf8Char '\x00' = [0] := by decide
    have hpart : part = [] := by
      rw [hnul] at hc
      cases part with
      | nil => rfl
      | cons b part =>
        have htailNil := (List.cons.inj hc).2
        exact absurd (List.append_eq_nil_iff.1 htailNil.symm).2 hmissing
    have hnone : tail = [] := by
      rcases htail with hnone | ⟨-, hthree⟩
      · exact hnone
      · rw [hpart] at hthree
        cases hthree
    rw [hnone, List.append_nil]
    have hlength : rest = [] → (nulJoined (ts.map textOf)).utf8.length = runner.maxOutputBytes + 1 := by
      rintro rfl
      rw [hjoined, hafter, Utf8.utf8_append, Utf8.utf8_cons, hnul, hbound, hpart]
      simp [nulJoined]
    by_cases hne : done = []
    · rw [hne]
      show (∀ x ∈ splitPaths w, _) ∨ splitPaths w = _ ∧ _
      have hsplit : splitPaths w = w.splitLines.filter fun r => r ≠ [] := by
        unfold splitPaths
        rw [if_neg hrecordNul]
      by_cases hlines : w.splitLines = [w]
      · right
        refine ⟨?_, hlength, fun _ => hlines⟩
        rw [hsplit, hlines]
        simp [hrecordNe]
      · left
        intro x hx
        rw [hsplit] at hx
        rcases mem_splitLines (List.mem_of_mem_filter hx) with ⟨-, hwhole⟩ | hshort
        · exact absurd hwhole hlines
        · exact Or.inr hshort
    · right
      refine ⟨?_, hlength, fun hnil => absurd hnil hne⟩
      rw [splitPaths_append hne hdone hrecordNul]
      simp [hrecordNe]
  · -- the record is cut
    left
    have hshort : (w ++ tail).utf8.length < record.utf8.length := by
      have hchar := congrArg List.length hc
      have hpos : 1 ≤ missing.length := List.length_pos_iff.2 hmissing
      have hmark : (Text.utf8 ['\ufffd']).length = 3 := by decide
      rw [List.length_append] at hchar
      rw [hrecord, Utf8.utf8_append, Utf8.utf8_append, Utf8.utf8_cons, List.length_append, List.length_append,
        List.length_append]
      rcases htail with rfl | ⟨rfl, hthree⟩
      · rw [Utf8.utf8_nil, List.length_nil]
        omega
      · omega
    have hnul : '\x00' ∉ w ++ tail := by
      rw [List.mem_append]
      rintro (hw | hmark)
      · exact hrecordNul (hrecord ▸ List.mem_append_left _ hw)
      · rcases htail with rfl | ⟨rfl, -⟩
        · cases hmark
        · exact absurd hmark (by decide)
    intro x hx
    by_cases hne : done = []
    · rw [hne] at hx
      have hx : x ∈ splitPaths (w ++ tail) := hx
      unfold splitPaths at hx
      rw [if_neg hnul] at hx
      rcases mem_splitLines (List.mem_of_mem_filter hx) with ⟨rfl, -⟩ | hline
      · exact Or.inr hshort
      · exact Or.inr (hline.trans hshort)
    · rw [splitPaths_append hne hdone hnul] at hx
      rcases List.mem_append.1 hx with hmem | hlast
      · exact Or.inl hmem
      · rw [List.mem_singleton.1 (List.mem_of_mem_filter hlast)]
        exact Or.inr hshort

end Reading

/-! ### Complete classification -/

section Complete

variable {β : Type} {base head : GitPath → Option β}

/-- The services reject a change of data and code, whatever they do after the check. -/
def RejectsMixed (base head : GitPath → Option β) (cli : GitCli) (baseRef headRef : Text) : Prop :=
  Mixed base head → ∀ (α : Type) (rest : ChangedPaths → Workflow α) (a : α),
    detectProduct cli baseRef headRef rest ≠ .ok a ∧
      ∀ checks, repositoryCheck cli baseRef headRef checks rest ≠ .ok a

private theorem isDataPath_iff {q : List Text} {p : GitPath} (h : q.map Text.utf8 = p.parts) :
    isDataPath q = true ↔ p.IsData := by
  unfold GitPath.IsData
  rw [← h]
  cases q with
  | nil => simp [isDataPath]
  | cons part q =>
    simp only [isDataPath, Bool.or_eq_true, decide_eq_true_eq, List.map_cons, List.head?_cons, Option.some_inj]
    rw [Utf8.utf8_injective.eq_iff, Utf8.utf8_injective.eq_iff]

/-- Paths that cover a mixed change are mixed. -/
private theorem mixed_paths {paths : List (List Text)} (hcovers : Covers base head paths) (hmixed : Mixed base head) :
    paths.any isDataPath = true ∧ paths.any (fun path => !isDataPath path) = true := by
  obtain ⟨⟨p, hp, hdata⟩, p', hp', hcode⟩ := hmixed
  obtain ⟨q, hq, hqp⟩ := hcovers p hp
  obtain ⟨q', hq', hqp'⟩ := hcovers p' hp'
  constructor
  · exact List.any_eq_true.2 ⟨q, hq, (isDataPath_iff hqp).2 hdata⟩
  · refine List.any_eq_true.2 ⟨q', hq', ?_⟩
    rw [Bool.not_eq_true']
    exact Bool.eq_false_iff.2 fun h => hcode ((isDataPath_iff hqp').1 h)

private theorem safeRelative_eq_ok {checkout : Checkout} {path relative : List Text}
    (h : safeRelative checkout path = .ok relative) : relative = path := by
  unfold safeRelative at h
  obtain ⟨resolved, -, h⟩ := bind_eq_ok.1 h
  obtain ⟨hsafe, h⟩ := failIf_bind_eq_ok.1 h
  cases pure_eq_ok.1 h
  exact not_not.1 fun hne => hsafe (Or.inr hne)

theorem rejectsMixed_of_covers {cli : GitCli} {baseRef headRef : Text} {changed : ChangedPaths}
    (h : cli.changedPaths baseRef headRef = .ok changed) (hcovers : Covers base head changed.paths) :
    RejectsMixed base head cli baseRef headRef := by
  intro hmixed α rest a
  obtain ⟨hdata, hcode⟩ := mixed_paths hcovers hmixed
  constructor
  · intro hrun
    unfold detectProduct at hrun
    rw [h, ok_bind] at hrun
    obtain ⟨-, hrun⟩ := failIf_bind_eq_ok.1 hrun
    exact (failIf_bind_eq_ok.1 hrun).1 ⟨hdata, hcode⟩
  · intro checks hrun
    unfold repositoryCheck at hrun
    obtain ⟨_, -, hrun⟩ := bind_eq_ok.1 hrun
    rw [h, ok_bind] at hrun
    obtain ⟨relatives, hrelatives, hrun⟩ := bind_eq_ok.1 hrun
    have hsame : relatives = changed.paths := by
      have hall := (mapM_eq_ok.1 hrelatives).imp fun path relative hr => (safeRelative_eq_ok hr).symm
      exact (List.forall₂_eq_eq_eq ▸ hall : changed.paths = relatives).symm
    rw [hsame] at hrun
    exact (failIf_bind_eq_ok.1 hrun).1 ⟨hdata, hcode⟩

variable {listing : DiffListing base head}

section Texts

variable {ts : List (List Text)}

/-- A changed path is read from some record. -/
private theorem exists_commandRecord {cli : GitCli} {records : List Text} {paths : List (List Text)}
    (hpaths : records.mapM cli.repositoryRelative = .ok paths) (hcovers : Covers base head paths) {p : GitPath}
    (hp : base p ≠ head p) : ∃ x ∈ records, ∃ q, cli.checkout.resolveWrite (.ofText x) = .ok q ∧
      q.map Text.utf8 = p.parts := by
  obtain ⟨q, hq, hparts⟩ := hcovers p hp
  obtain ⟨x, hx, hresolve⟩ := mem_of_mapM_eq_ok hpaths hq
  exact ⟨x, hx, q, hresolve, hparts⟩

/-- Records that are listed names cover the change only without renames. -/
private theorem renames_eq_nil (hts : TextNames listing.names ts) {cli : GitCli} {records : List Text}
    (hrecords : ∀ x ∈ records, x ∈ ts.map GitPath.textOf) {paths : List (List Text)}
    (hpaths : records.mapM cli.repositoryRelative = .ok paths) (hcovers : Covers base head paths) :
    listing.renames = [] := by
  rw [List.eq_nil_iff_forall_not_mem]
  intro r hr
  obtain ⟨hbase, hhead⟩ := listing.removed r hr
  obtain ⟨x, hx, q, hresolve, hparts⟩ := exists_commandRecord hpaths hcovers (p := r.1) (by rw [hhead]; exact hbase)
  have hlisted := (bytes_of_resolve hts (hrecords x hx) hresolve hparts).2
  exact ((listing.mem_names r.1).1 hlisted).2 r hr rfl

/-- Records that are listed names and cover the change are all names. -/
private theorem mem_of_covers (hts : TextNames listing.names ts) {cli : GitCli} {records : List Text}
    (hrecords : ∀ x ∈ records, x ∈ ts.map GitPath.textOf) {paths : List (List Text)}
    (hpaths : records.mapM cli.repositoryRelative = .ok paths) (hcovers : Covers base head paths) {r : Text}
    (hr : r ∈ ts.map GitPath.textOf) : r ∈ records := by
  obtain ⟨t, ht, rfl⟩ := List.mem_map.1 hr
  obtain ⟨p, hp, hparts⟩ := exists_of_forall₂_right hts ht
  obtain ⟨x, hx, q, hresolve, hq⟩ := exists_commandRecord hpaths hcovers ((listing.mem_names p).1 hp).1
  have hbytes := (bytes_of_resolve hts (hrecords x hx) hresolve hq).1
  rw [← GitPath.utf8_textOf hparts] at hbytes
  exact Utf8.utf8_injective hbytes ▸ hx

/-- Names that fit are read back. -/
private theorem read_of_fits (hts : TextNames listing.names ts) {runner : SubprocessRunner}
    (hfits : listing.Fits runner.maxOutputBytes) :
    splitPaths (runner.sanitize [] (listing.output.take runner.maxOutputBytes)) = ts.map GitPath.textOf := by
  have houtput : (nulJoined (ts.map GitPath.textOf)).utf8 = listing.output := utf8_nulJoined hts
  rcases hfits with hle | ⟨hlength, hlines⟩
  · rw [← houtput] at hle ⊢
    exact read_of_le hts hle
  · rcases List.eq_nil_or_concat (ts.map GitPath.textOf) with hnil | ⟨done, record, hconcat⟩
    · rw [hnil] at houtput
      rw [← houtput] at hlength
      simp [nulJoined] at hlength
    have hproper := proper_records hts
    rw [List.concat_eq_append] at hconcat
    rw [hconcat] at hproper houtput ⊢
    have hlast : nulJoined (done ++ [record]) = (nulJoined done ++ record) ++ ['\x00'] := by simp [nulJoined]
    have hnul : Text.utf8 ['\x00'] = [0] := by decide
    rw [hlast, Utf8.utf8_append, hnul] at houtput
    have hbound : (nulJoined done ++ record).utf8.length = runner.maxOutputBytes := by
      rw [← houtput, List.length_append] at hlength
      simpa using hlength
    rw [← houtput, List.take_left' hbound, runner.sanitize_utf8_of_le (Nat.le_of_eq hbound)]
    obtain ⟨hrecordNe, hrecordNul⟩ := hproper record (by simp)
    by_cases hne : done = []
    · rw [hne] at hconcat ⊢
      show splitPaths record = [record]
      have hsingle : ∃ p, listing.names = [p] ∧ record.utf8 = p.bytes := by
        have hbytes := utf8_records hts
        rw [hconcat] at hbytes
        obtain ⟨p, hp⟩ := List.length_eq_one_iff.1 (show listing.names.length = 1 by
          rw [← List.length_map (f := GitPath.bytes), ← hbytes]
          rfl)
        rw [hp] at hbytes
        exact ⟨p, hp, (List.cons.inj hbytes).1⟩
      obtain ⟨p, hp, hbytes⟩ := hsingle
      unfold splitPaths
      rw [if_neg hrecordNul, hlines p record hp hbytes]
      simp [hrecordNe]
    · rw [splitPaths_append hne (fun r hr => hproper r (List.mem_append_left _ hr)) hrecordNul]
      simp [hrecordNe]

/-- The paths that are read cover the change only if nothing is renamed and the names fit. -/
private theorem fits_of_covers (hts : TextNames listing.names ts) {cli : GitCli} {paths : List (List Text)}
    (hpaths : (splitPaths (cli.runner.sanitize [] (listing.output.take cli.runner.maxOutputBytes))).mapM
      cli.repositoryRelative = .ok paths) (hcovers : Covers base head paths) :
    listing.renames = [] ∧ listing.Fits cli.runner.maxOutputBytes := by
  have houtput : (nulJoined (ts.map GitPath.textOf)).utf8 = listing.output := utf8_nulJoined hts
  by_cases hle : listing.output.length ≤ cli.runner.maxOutputBytes
  · have hread := read_of_fits hts (Or.inl hle : listing.Fits cli.runner.maxOutputBytes)
    rw [hread] at hpaths
    exact ⟨renames_eq_nil hts (fun x hx => hx) hpaths hcovers, Or.inl hle⟩
  · have hlt := Nat.lt_of_not_le hle
    rw [← houtput] at hlt
    obtain ⟨done, record, rest, hrecords, hcases⟩ := read_of_lt hts hlt
    rw [houtput] at hcases
    have hnodup := nodup_records hts listing.nodup
    rw [hrecords] at hnodup
    have hrecord : record ∈ ts.map GitPath.textOf := by simp [hrecords]
    obtain ⟨t, ht, htext⟩ := List.mem_map.1 hrecord
    obtain ⟨p, hp, hparts⟩ := exists_of_forall₂_right hts ht
    have hbytes : record.utf8 = p.bytes := htext ▸ GitPath.utf8_textOf hparts
    rcases hcases with hshort | ⟨hread, hlength, hlines⟩
    · -- the record that is cut cannot be read
      obtain ⟨x, hx, q, hresolve, hq⟩ := exists_commandRecord hpaths hcovers ((listing.mem_names p).1 hp).1
      rcases hshort x hx with hdone | hlength
      · have hmem : x ∈ ts.map GitPath.textOf := hrecords ▸ List.mem_append_left _ hdone
        have hsame : x = record :=
          Utf8.utf8_injective ((bytes_of_resolve hts hmem hresolve hq).1.trans hbytes.symm)
        have hdisjoint := List.disjoint_of_nodup_append hnodup
        exact absurd List.mem_cons_self (hdisjoint (hsame ▸ hdone))
      · have hge := GitPath.length_le_of_resolve hresolve hq
        rw [← hbytes] at hge
        omega
    · rw [hread] at hpaths
      have hlisted : ∀ x ∈ done ++ [record], x ∈ ts.map GitPath.textOf := by
        intro x hx
        rw [hrecords]
        rcases List.mem_append.1 hx with hdone | hlast
        · exact List.mem_append_left _ hdone
        · exact List.mem_append_right _ (List.mem_singleton.1 hlast ▸ List.mem_cons_self)
      have hrest : rest = [] := by
        rw [List.eq_nil_iff_forall_not_mem]
        intro r hr
        have hread := mem_of_covers hts hlisted hpaths hcovers (r := r) (by simp [hrecords, hr])
        have hsplit : (done ++ [record] ++ rest).Nodup := by simpa using hnodup
        exact List.disjoint_of_nodup_append hsplit hread hr
      refine ⟨renames_eq_nil hts hlisted hpaths hcovers, Or.inr ⟨houtput ▸ hlength hrest, ?_⟩⟩
      intro p' t' hsingle htext'
      have hlines' := utf8_records hts
      rw [hsingle, hrecords, hrest] at hlines'
      cases done with
      | nil =>
        have hsame : record = t' := Utf8.utf8_injective ((List.cons.inj hlines').1.trans htext'.symm)
        exact hsame ▸ hlines rfl
      | cons d done => simp at hlines'

end Texts

/-- The paths that are read cover the change exactly if nothing is renamed, all names are texts, and they fit. -/
private theorem covers_iff_of_read {cli : GitCli} {paths : List (List Text)}
    (hpaths : (splitPaths (cli.runner.sanitize [] (listing.output.take cli.runner.maxOutputBytes))).mapM
      cli.repositoryRelative = .ok paths) :
    Covers base head paths ↔ listing.renames = [] ∧ (∀ p ∈ listing.names, p.IsText) ∧
      listing.Fits cli.runner.maxOutputBytes := by
  constructor
  · intro hcovers
    have htext : ∀ p ∈ listing.names, p.IsText := by
      intro p hp
      obtain ⟨q, -, hq⟩ := hcovers p ((listing.mem_names p).1 hp).1
      exact ⟨q, hq⟩
    obtain ⟨ts, hts⟩ := exists_textNames htext
    obtain ⟨hrenames, hfits⟩ := fits_of_covers hts hpaths hcovers
    exact ⟨hrenames, htext, hfits⟩
  · rintro ⟨hrenames, htext, hfits⟩ p hp
    obtain ⟨ts, hts⟩ := exists_textNames htext
    have hname : p ∈ listing.names := (listing.mem_names p).2 ⟨hp, by simp [hrenames]⟩
    obtain ⟨t, ht, hparts⟩ := exists_of_forall₂_left hts hname
    rw [read_of_fits hts hfits] at hpaths
    obtain ⟨q, hq, hresolve⟩ := exists_of_mapM_eq_ok hpaths (List.mem_map_of_mem ht)
    exact ⟨q, hq, by rw [GitPath.resolve_textOf hparts hresolve, hparts]⟩

/-- The changed paths are complete, and mixed changes are rejected, exactly if git detects no rename, all names are
UTF-8, and the listing fits in the output bound of the runner. -/
theorem changedPaths_complete_iff {cli : GitCli} {baseRef headRef : Text} {changed : ChangedPaths}
    (h : cli.changedPaths baseRef headRef = .ok changed) (listing : DiffListing base head)
    (hlisting : ∀ output, cli.process ("git".toList :: GitCli.diffArguments changed.mergeBase headRef) = .ok output →
      output.returncode = 0 → output.stdout.flatten = listing.output) :
    Covers base head changed.paths ∧ RejectsMixed base head cli baseRef headRef ↔
      listing.renames = [] ∧ (∀ p ∈ listing.names, p.IsText) ∧ listing.Fits cli.runner.maxOutputBytes := by
  obtain ⟨output, paths, houtput, hcode, hpaths, hmem⟩ := cli.changedPaths_eq_ok h
  rw [hlisting output houtput hcode] at hpaths
  rw [← covers_iff_of_read hpaths]
  have hsame : Covers base head changed.paths ↔ Covers base head paths := by simp only [Covers, hmem]
  rw [← hsame]
  exact ⟨fun hboth => hboth.1, fun hcovers => ⟨hcovers, rejectsMixed_of_covers h hcovers⟩⟩

/-! ### A file that moves into the data -/

private def toolPath : GitPath := ⟨[Text.utf8 "tools".toList, Text.utf8 "a".toList], by decide, by decide⟩

private def sourcePath : GitPath :=
  ⟨["products", "sales", "sources", "a"].map fun part => Text.utf8 part.toList, by decide, by decide⟩

/-- A tree with one file. -/
private def treeOf (p : GitPath) (q : GitPath) : Option ℕ := if q = p then some 0 else none

private def movedListing : DiffListing (treeOf toolPath) (treeOf sourcePath) where
  names := [sourcePath]
  renames := [(toolPath, sourcePath)]
  nodup := by decide
  removed := by decide
  added := by decide
  mem_names p := by
    by_cases htool : p = toolPath
    · subst htool
      decide
    · by_cases hsource : p = sourcePath
      · subst hsource
        decide
      · simp [treeOf, htool, hsource]

/-- The head of a change that modifies the tool and adds the source. -/
private def mixedHead (p : GitPath) : Option ℕ := if p = toolPath then some 1 else treeOf sourcePath p

private def mixedListing : DiffListing (treeOf toolPath) mixedHead where
  names := [sourcePath, toolPath]
  renames := []
  nodup := by decide
  removed := by decide
  added := by decide
  mem_names p := by
    by_cases htool : p = toolPath
    · subst htool
      decide
    · by_cases hsource : p = sourcePath
      · subst hsource
        decide
      · simp [treeOf, mixedHead, htool, hsource]

private def exampleSha : Text := List.replicate 40 'a'

/-- A repository in which git writes the given listing. -/
private def exampleCli (output : List ℕ) : GitCli where
  platform := .ascii
  runner := ⟨1048576, by decide, by decide⟩
  checkout := ⟨["repo".toList], fun _ => none⟩
  process arguments := .ok ⟨0, [if "merge-base".toList ∈ arguments then exampleSha.utf8 else output], [], false⟩
  repr := id

private def sourceChange : ChangedPaths := ⟨exampleSha, [["products", "sales", "sources", "a"].map String.toList]⟩

/-- A tool that becomes a source is listed under its new name only, and the mixed change is accepted. -/
theorem changedPaths_moved :
    (exampleCli movedListing.output).changedPaths "main".toList "HEAD".toList = .ok sourceChange ∧
      Mixed (treeOf toolPath) (treeOf sourcePath) ∧
        ¬ Covers (treeOf toolPath) (treeOf sourcePath) sourceChange.paths ∧
          detectProduct (exampleCli movedListing.output) "main".toList "HEAD".toList (fun changed => .ok changed) =
            .ok sourceChange := by
  refine ⟨by decide +kernel, ⟨⟨sourcePath, by decide, Or.inl (by decide)⟩, toolPath, by decide, ?_⟩, ?_,
    by decide +kernel⟩
  · unfold GitPath.IsData
    decide
  · intro hcovers
    obtain ⟨q, hq, hparts⟩ := hcovers toolPath (by decide)
    rw [List.mem_singleton.1 hq] at hparts
    exact absurd hparts (by decide)

/-- A change that modifies a tool and adds a source is covered, and so it is rejected. -/
theorem changedPaths_added :
    Mixed (treeOf toolPath) mixedHead ∧
      Covers (treeOf toolPath) mixedHead
        [["products", "sales", "sources", "a"].map String.toList, ["tools", "a"].map String.toList] ∧
      RejectsMixed (treeOf toolPath) mixedHead (exampleCli mixedListing.output) "main".toList "HEAD".toList := by
  have hrun : (exampleCli mixedListing.output).changedPaths "main".toList "HEAD".toList = .ok ⟨exampleSha,
      [["products", "sales", "sources", "a"].map String.toList, ["tools", "a"].map String.toList]⟩ := by
    decide +kernel
  refine ⟨⟨⟨sourcePath, by decide, Or.inl (by decide)⟩, toolPath, by decide, ?_⟩,
    (changedPaths_complete_iff hrun mixedListing ?_).2 ⟨rfl, ?_, Or.inl (by decide)⟩⟩
  · unfold GitPath.IsData
    decide
  · intro output houtput _
    cases houtput
    decide
  · intro p hp
    rcases List.mem_cons.1 hp with rfl | hp
    · exact ⟨["products", "sales", "sources", "a"].map String.toList, by decide⟩
    · rw [List.mem_singleton.1 hp]
      exact ⟨["tools", "a"].map String.toList, by decide⟩

end Complete

end ArdOssie
