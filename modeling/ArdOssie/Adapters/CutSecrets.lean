import ArdOssie.Adapters.Subprocess

/-!
# Secrets at the capture limit

The output of a command is captured beyond the bound of the returned text, so that no secret is cut at the bound.  A mask
is shorter than a long secret, though: it moves text from the end of the capture into the bound, and with it a secret
that the capture has cut.
-/

namespace ArdOssie

/-! ### Places between the occurrences -/

namespace Text

/-- Whether no occurrence that is replaced runs across the place after a number of characters. -/
def isBetween (old : Text) : ℕ → ℕ → Text → Bool
  | skip, 0, _ => skip == 0
  | _, _ + 1, [] => false
  | 0, p + 1, c :: t => if old <+: c :: t then isBetween old (old.length - 1) p t else isBetween old 0 p t
  | skip + 1, p + 1, _ :: t => isBetween old skip p t

section Between

variable {old : Text}

theorem le_of_isBetween {skip p : ℕ} {t : Text} (h : isBetween old skip p t = true) : skip ≤ p := by
  fun_induction isBetween old skip p t with
  | case1 skip t =>
    rw [beq_iff_eq] at h
    omega
  | case2 => cases h
  | case3 => omega
  | case4 => omega
  | case5 skip p c t ih =>
    have := ih h
    omega

theorem isBetween_skip {skip : ℕ} {t : Text} (h : skip ≤ t.length) : isBetween old skip skip t = true := by
  induction skip generalizing t with
  | zero => rfl
  | succ skip ih =>
    cases t with
    | nil => simp at h
    | cons c t => exact ih (by simpa using h)

/-- The places beyond a place between occurrences are those of the rest of the text. -/
theorem isBetween_add {skip p : ℕ} {t : Text} (h : isBetween old skip p t = true) (q : ℕ) :
    isBetween old skip (p + q) t = isBetween old 0 q (t.drop p) := by
  fun_induction isBetween old skip p t with
  | case1 skip t =>
    rw [beq_iff_eq] at h
    rw [h, Nat.zero_add, List.drop_zero]
  | case2 => cases h
  | case3 p c t hstarts ih =>
    rw [Nat.succ_add, isBetween, if_pos hstarts, List.drop_succ_cons, ih h]
  | case4 p c t hstarts ih =>
    rw [Nat.succ_add, isBetween, if_neg hstarts, List.drop_succ_cons, ih h]
  | case5 skip p c t ih =>
    rw [Nat.succ_add, isBetween, List.drop_succ_cons, ih h]

theorem prefix_take_iff {old t : Text} {n : ℕ} : old <+: t.take n ↔ old <+: t ∧ old.length ≤ n := by
  constructor
  · intro h
    exact ⟨h.trans (List.take_prefix n t), h.length_le.trans (List.length_take_le n t)⟩
  · rintro ⟨⟨rest, rfl⟩, hle⟩
    rw [List.take_append, List.take_of_length_le hle]
    exact List.prefix_append _ _

/-- A place between occurrences is one when the text ends later, but not before it. -/
theorem isBetween_take (hold : old ≠ []) {skip p : ℕ} {t : Text} (h : isBetween old skip p t = true) {n : ℕ}
    (hn : p ≤ n) : isBetween old skip p (t.take n) = true := by
  have hpos : 0 < old.length := List.length_pos_iff.2 hold
  fun_induction isBetween old skip p t generalizing n with
  | case1 skip t => exact h
  | case2 => cases h
  | case3 p c t hstarts ih =>
    obtain ⟨n, rfl⟩ : ∃ k, n = k + 1 := ⟨n - 1, by omega⟩
    have hle := le_of_isBetween h
    have hstarts' : old <+: c :: t.take n := by
      rw [← List.take_succ_cons, prefix_take_iff]
      exact ⟨hstarts, by omega⟩
    rw [List.take_succ_cons, isBetween, if_pos hstarts']
    exact ih h (by omega)
  | case4 p c t hstarts ih =>
    obtain ⟨n, rfl⟩ : ∃ k, n = k + 1 := ⟨n - 1, by omega⟩
    have hstarts' : ¬ old <+: c :: t.take n := by
      rw [← List.take_succ_cons, prefix_take_iff]
      exact fun hboth => hstarts hboth.1
    rw [List.take_succ_cons, isBetween, if_neg hstarts']
    exact ih h (by omega)
  | case5 skip p c t ih =>
    obtain ⟨n, rfl⟩ : ∃ k, n = k + 1 := ⟨n - 1, by omega⟩
    rw [List.take_succ_cons, isBetween]
    exact ih h (by omega)

/-- The replacement can be done on both sides of a place between occurrences. -/
theorem replaceFrom_split (hold : old ≠ []) (new : Text) {skip p : ℕ} {t : Text} (h : isBetween old skip p t = true) :
    replaceFrom old new skip t = replaceFrom old new skip (t.take p) ++ replaceFrom old new 0 (t.drop p) := by
  have hpos : 0 < old.length := List.length_pos_iff.2 hold
  fun_induction isBetween old skip p t with
  | case1 skip t =>
    rw [beq_iff_eq] at h
    subst h
    rw [List.take_zero, List.drop_zero, replaceFrom, List.nil_append]
  | case2 => cases h
  | case3 p c t hstarts ih =>
    have hle := le_of_isBetween h
    have hstarts' : old <+: c :: t.take p := by
      rw [← List.take_succ_cons, prefix_take_iff]
      exact ⟨hstarts, by omega⟩
    rw [List.take_succ_cons, List.drop_succ_cons, replaceFrom, if_pos hstarts, replaceFrom, if_pos hstarts', ih h,
      List.append_assoc]
  | case4 p c t hstarts ih =>
    have hstarts' : ¬ old <+: c :: t.take p := by
      rw [← List.take_succ_cons, prefix_take_iff]
      exact fun hboth => hstarts hboth.1
    rw [List.take_succ_cons, List.drop_succ_cons, replaceFrom, if_neg hstarts, replaceFrom, if_neg hstarts', ih h,
      List.cons_append]
  | case5 skip p c t ih =>
    rw [List.take_succ_cons, List.drop_succ_cons, replaceFrom, replaceFrom, ih h]

theorem replace_split (hold : old ≠ []) (new : Text) {p : ℕ} {t : Text} (h : isBetween old 0 p t = true) :
    replace t old new = replace (t.take p) old new ++ replace (t.drop p) old new := replaceFrom_split hold new h

/-- A text shorter than what is replaced is kept. -/
theorem replace_of_length_lt {t : Text} (new : Text) (h : t.length < old.length) : replace t old new = t := by
  induction t with
  | nil => rfl
  | cons c t ih =>
    have hstarts : ¬ old <+: c :: t := fun hstarts => absurd hstarts.length_le (by omega)
    have hrest : replaceFrom old new 0 t = t := ih (by rw [List.length_cons] at h; omega)
    rw [replace, replaceFrom, if_neg hstarts, hrest]

theorem replaceFrom_skip (old new : Text) {skip : ℕ} {t : Text} :
    replaceFrom old new skip t = replaceFrom old new 0 (t.drop skip) := by
  induction skip generalizing t with
  | zero => rfl
  | succ skip ih =>
    cases t with
    | nil => simp [replaceFrom]
    | cons c t => rw [replaceFrom, ih, List.drop_succ_cons]

theorem replace_of_start (hold : old ≠ []) (new : Text) {t : Text} (h : old <+: t) :
    replace t old new = new ++ replace (t.drop old.length) old new := by
  have hpos : 0 < old.length := List.length_pos_iff.2 hold
  cases t with
  | nil => exact absurd (List.prefix_nil.1 h) hold
  | cons c t =>
    have hdrop : (c :: t).drop old.length = t.drop (old.length - 1) := by
      obtain ⟨n, hn⟩ : ∃ n, old.length = n + 1 := ⟨old.length - 1, by omega⟩
      rw [hn, List.drop_succ_cons, Nat.add_sub_cancel]
    rw [replace, replaceFrom, if_pos h, replaceFrom_skip, hdrop]
    rfl

/-- After the last place between occurrences up to a limit, an occurrence runs across the limit. -/
theorem cut_of_not_isBetween (hold : old ≠ []) {p limit : ℕ} {t : Text} (hp : isBetween old 0 p t = true)
    (hlt : p < limit) (hlimit : limit ≤ t.length) (h : ∀ q, p < q → q ≤ limit → isBetween old 0 q t = false) :
    old <+: t.drop p ∧ limit < p + old.length := by
  have hpos : 0 < old.length := List.length_pos_iff.2 hold
  have hrest : ∀ k, 0 < k → k ≤ limit - p → isBetween old 0 k (t.drop p) = false := by
    intro k hk hle
    rw [← isBetween_add hp]
    exact h _ (by omega) (by omega)
  obtain ⟨c, u, hu⟩ : ∃ c u, t.drop p = c :: u := by
    refine List.exists_cons_of_ne_nil fun hnil => ?_
    rw [List.drop_eq_nil_iff] at hnil
    omega
  have hstarts : old <+: c :: u := by
    by_contra hstarts
    have hone := hrest 1 (by omega) (by omega)
    rw [hu, isBetween, if_neg hstarts] at hone
    cases hone
  refine ⟨hu ▸ hstarts, Nat.lt_of_not_le fun hle => ?_⟩
  have hall := hrest old.length hpos (by omega)
  obtain ⟨n, hn⟩ : ∃ n, old.length = n + 1 := ⟨old.length - 1, by omega⟩
  have hlength : n ≤ u.length := by
    have hle := hstarts.length_le
    rw [List.length_cons] at hle
    omega
  rw [hu, hn, isBetween, if_pos hstarts, hn, Nat.add_sub_cancel, isBetween_skip hlength] at hall
  cases hall

end Between

/-- The last place up to a limit between the occurrences in both texts. -/
def lastBetween (old t t' : Text) (limit : ℕ) : ℕ :=
  Nat.findGreatest (fun p => isBetween old 0 p t = true ∧ isBetween old 0 p t' = true) limit

theorem isBetween_lastBetween (old t t' : Text) (limit : ℕ) :
    isBetween old 0 (lastBetween old t t' limit) t = true ∧ isBetween old 0 (lastBetween old t t' limit) t' = true :=
  Nat.findGreatest_spec (P := fun p => isBetween old 0 p t = true ∧ isBetween old 0 p t' = true) (Nat.zero_le limit)
    ⟨rfl, rfl⟩

theorem lastBetween_le (old t t' : Text) (limit : ℕ) : lastBetween old t t' limit ≤ limit := Nat.findGreatest_le limit

end Text

/-! ### Masking two texts with one beginning -/

/-- The order in which `_redact` masks the secrets. -/
def maskingOrder (secrets : List Text) : List Text :=
  sortBy (fun s : Text => OrderDual.toDual s.length) (secrets.filter fun s => s ≠ [])

/-- How many characters two masked texts share for sure when the texts share a number of characters: before every secret
is masked, they are cut at the last place that no occurrence in one of the texts runs across. -/
def settledLength : List Text → Text → Text → ℕ → ℕ
  | [], _, _, shared => shared
  | secret :: secrets, t, t', shared =>
    settledLength secrets (t.replace secret "***".toList) (t'.replace secret "***".toList)
      (Text.replace (t.take (Text.lastBetween secret t t' shared)) secret "***".toList).length

theorem redact_eq (secrets : List Text) (value : Text) :
    redact secrets value =
      (maskingOrder secrets).foldl (fun redacted secret => redacted.replace secret "***".toList) value := rfl

theorem maskingOrder_ne_nil {secrets : List Text} : ∀ s ∈ maskingOrder secrets, s ≠ [] := by
  intro s hs
  exact of_decide_eq_true (List.mem_filter.1 (mem_sortBy.1 hs)).2

/-- The masked texts share what is settled. -/
theorem take_settledLength {secrets : List Text} (hsecrets : ∀ s ∈ secrets, s ≠ []) {t t' : Text} {shared : ℕ}
    (ht : shared ≤ t.length) (ht' : shared ≤ t'.length) (h : t.take shared = t'.take shared) :
    settledLength secrets t t' shared ≤
        (secrets.foldl (fun redacted secret => redacted.replace secret "***".toList) t').length ∧
      (secrets.foldl (fun redacted secret => redacted.replace secret "***".toList) t).take
          (settledLength secrets t t' shared) =
        (secrets.foldl (fun redacted secret => redacted.replace secret "***".toList) t').take
          (settledLength secrets t t' shared) := by
  induction secrets generalizing t t' shared with
  | nil => exact ⟨ht', h⟩
  | cons secret secrets ih =>
    obtain ⟨hsecret, hsecrets⟩ := List.forall_mem_cons.1 hsecrets
    obtain ⟨hbetween, hbetween'⟩ := Text.isBetween_lastBetween secret t t' shared
    have hle := Text.lastBetween_le secret t t' shared
    set place := Text.lastBetween secret t t' shared with hplace
    have hbegin : t.take place = t'.take place := by
      have htake := congrArg (List.take place) h
      rwa [List.take_take, List.take_take, min_eq_left hle] at htake
    have hsplit := Text.replace_split hsecret "***".toList hbetween
    have hsplit' := Text.replace_split hsecret "***".toList hbetween'
    rw [← hbegin] at hsplit'
    rw [List.foldl_cons, List.foldl_cons, settledLength, ← hplace]
    refine ih hsecrets ?_ ?_ ?_
    · rw [hsplit, List.length_append]
      omega
    · rw [hsplit', List.length_append]
      omega
    · rw [hsplit, hsplit', List.take_left, List.take_left]

/-! ### Texts of ASCII characters -/

private theorem mem_replaceFrom {old new t : Text} {skip : ℕ} {c : Char} (h : c ∈ Text.replaceFrom old new skip t) :
    c ∈ new ∨ c ∈ t := by
  fun_induction Text.replaceFrom old new skip t with
  | case1 => cases h
  | case2 d t hstarts ih =>
    rcases List.mem_append.1 h with h | h
    · exact Or.inl h
    · exact (ih h).imp_right (List.mem_cons_of_mem _)
  | case3 d t hstarts ih =>
    rcases List.mem_cons.1 h with rfl | h
    · exact Or.inr (List.mem_cons_self ..)
    · exact (ih h).imp_right (List.mem_cons_of_mem _)
  | case4 skip d t ih => exact (ih h).imp_right (List.mem_cons_of_mem _)

/-- The masks of a text of ASCII characters leave one. -/
private theorem ascii_of_all {t : Text} (h : (t.all fun c => c.toNat < 128) = true) : ∀ c ∈ t, c.toNat < 128 :=
  fun c hc => of_decide_eq_true (List.all_eq_true.1 h c hc)

theorem ascii_redact {secrets : List Text} {t : Text} (h : ∀ c ∈ t, c.toNat < 128) :
    ∀ c ∈ redact secrets t, c.toNat < 128 := by
  rw [redact_eq]
  generalize maskingOrder secrets = order
  induction order generalizing t with
  | nil => exact h
  | cons secret order ih =>
    refine ih fun c hc => ?_
    rcases mem_replaceFrom hc with hc | hc
    · exact ascii_of_all (by decide) c hc
    · exact h c hc

/-- An ASCII character has one byte, so that bytes and characters are cut at the same places. -/
theorem take_utf8_ascii {t : Text} (h : ∀ c ∈ t, c.toNat < 128) (n : ℕ) :
    t.utf8.length = t.length ∧ t.utf8.take n = Text.utf8 (t.take n) := by
  induction t generalizing n with
  | nil => simp
  | cons c t ih =>
    obtain ⟨hc, ht⟩ := List.forall_mem_cons.1 h
    have hchar : Text.utf8Char c = [c.toNat] := if_pos hc
    rw [Utf8.utf8_cons, hchar]
    refine ⟨by rw [List.length_append, (ih ht 0).1, List.length_cons, List.length_nil, List.length_cons]; omega, ?_⟩
    cases n with
    | zero => rfl
    | succ n => rw [List.singleton_append, List.take_succ_cons, (ih ht n).2, List.take_succ_cons, Utf8.utf8_cons, hchar,
        List.singleton_append]

theorem truncateUtf8_ascii {t : Text} (h : ∀ c ∈ t, c.toNat < 128) (maximum : ℕ) :
    truncateUtf8 maximum t = t.take maximum := by
  obtain ⟨hlength, htake⟩ := take_utf8_ascii h maximum
  unfold truncateUtf8
  rw [hlength, htake, Utf8.decode_utf8]
  split
  · rename_i hle
    rw [List.take_of_length_le hle]
  · rfl

/-! ### The returned text -/

namespace SubprocessRunner

variable (runner : SubprocessRunner)

/-- The text of a stream that is returned, or quoted when the command is stopped. -/
def shown (secrets : List Text) (chunks : List (List ℕ)) : Text :=
  runner.sanitize secrets (drainBounded (runner.captureLimit secrets) chunks)

/-- The captured part of a text of ASCII characters. -/
def captured (secrets : List Text) (text : Text) : Text := text.take (runner.captureLimit secrets)

/-- Of the masked captured part, nothing is returned beyond what it shares with the masked complete text for sure. -/
def Settled (secrets : List Text) (text : Text) : Prop :=
  min runner.maxOutputBytes (redact secrets (runner.captured secrets text)).length ≤
    settledLength (maskingOrder secrets) (runner.captured secrets text) text (runner.captured secrets text).length

/-- The last place of the captured part that no occurrence of an only secret runs across. -/
def cutPlace (secret text : Text) : ℕ :=
  Text.lastBetween secret text text (runner.captured [secret] text).length

/-- No occurrence of an only secret is cut, or the bound lies before the one that is cut once the occurrences before it
are masked, or what it shows up to the bound is also what the mask and the text behind it show. -/
def CutHidden (secret text : Text) : Prop :=
  let masked := Text.replace (text.take (runner.cutPlace secret text)) secret "***".toList
  runner.cutPlace secret text = (runner.captured [secret] text).length ∨ runner.maxOutputBytes ≤ masked.length ∨
    ((runner.captured [secret] text).drop (runner.cutPlace secret text)).take (runner.maxOutputBytes - masked.length) <+:
      "***".toList ++ Text.replace (text.drop (runner.cutPlace secret text + secret.length)) secret "***".toList

section Shown

variable {runner} {secrets : List Text} {chunks : List (List ℕ)} {text : Text}

theorem shown_eq (htext : ∀ c ∈ text, c.toNat < 128) (hchunks : chunks.flatten = text.utf8) :
    runner.shown secrets chunks = (redact secrets (runner.captured secrets text)).take runner.maxOutputBytes := by
  have hcaptured : ∀ c ∈ runner.captured secrets text, c.toNat < 128 := fun c hc => htext c (List.mem_of_mem_take hc)
  unfold shown sanitize
  rw [drainBounded_eq_take, hchunks, (take_utf8_ascii htext _).2, Utf8.decode_utf8]
  exact truncateUtf8_ascii (ascii_redact hcaptured) _

/-- What is settled is returned as it is in the masked complete text. -/
theorem shown_prefix_of_settled (htext : ∀ c ∈ text, c.toNat < 128) (hchunks : chunks.flatten = text.utf8)
    (h : runner.Settled secrets text) : runner.shown secrets chunks <+: redact secrets text := by
  have hlength : (runner.captured secrets text).length ≤ text.length := List.length_take_le' _ _
  have hshared : (runner.captured secrets text).take (runner.captured secrets text).length =
      text.take (runner.captured secrets text).length := by
    rw [List.take_length, captured, List.length_take, List.take_eq_take_iff]
    omega
  obtain ⟨hle, htake⟩ := take_settledLength (@maskingOrder_ne_nil secrets) (le_refl _) hlength hshared
  rw [← redact_eq, ← redact_eq] at htake
  have hbegin : (redact secrets (runner.captured secrets text)).take runner.maxOutputBytes =
      (redact secrets text).take
        (min runner.maxOutputBytes (redact secrets (runner.captured secrets text)).length) := by
    have hcut := congrArg
      (List.take (min runner.maxOutputBytes (redact secrets (runner.captured secrets text)).length)) htake
    rw [List.take_take, List.take_take, min_eq_left h] at hcut
    rw [← hcut, List.take_eq_take_iff]
    omega
  rw [shown_eq htext hchunks, hbegin]
  exact List.take_prefix _ _

private theorem redact_singleton {secret : Text} (hsecret : secret ≠ []) (t : Text) :
    redact [secret] t = t.replace secret "***".toList := by
  have horder : maskingOrder [secret] = [secret] := by simp [maskingOrder, sortBy, hsecret]
  rw [redact_eq, horder]
  rfl

private theorem take_prefix_iff {masked shown full : Text} (bound : ℕ) :
    (masked ++ shown).take bound <+: masked ++ full ↔
      bound ≤ masked.length ∨ shown.take (bound - masked.length) <+: full := by
  rw [List.take_append]
  by_cases hle : bound ≤ masked.length
  · have hzero : bound - masked.length = 0 := by omega
    rw [hzero, List.take_zero, List.append_nil]
    exact ⟨fun _ => Or.inl hle, fun _ => (List.take_prefix _ _).trans (List.prefix_append _ _)⟩
  · rw [List.take_of_length_le (Nat.le_of_not_le hle), List.prefix_append_right_inj]
    exact ⟨Or.inr, fun h => h.resolve_left hle⟩

/-- With an only secret, the returned text is a beginning of the masked complete text exactly when the cut of the secret
is hidden. -/
theorem shown_prefix_iff {secret : Text} (hsecret : secret ≠ []) (htext : ∀ c ∈ text, c.toNat < 128)
    (hchunks : chunks.flatten = text.utf8) :
    runner.shown [secret] chunks <+: redact [secret] text ↔ runner.CutHidden secret text := by
  rw [shown_eq htext hchunks, redact_singleton hsecret, redact_singleton hsecret, CutHidden]
  have hcaptured : runner.captured [secret] text = text.take (runner.captured [secret] text).length := by
    rw [captured, List.length_take, List.take_eq_take_iff]
    omega
  have hlength : (runner.captured [secret] text).length ≤ text.length := List.length_take_le' _ _
  have hbetween := (Text.isBetween_lastBetween secret text text (runner.captured [secret] text).length).1
  have hle := Text.lastBetween_le secret text text (runner.captured [secret] text).length
  have hlast : ∀ q, runner.cutPlace secret text < q → q ≤ (runner.captured [secret] text).length →
      Text.isBetween secret 0 q text = false := by
    intro q hlt hq
    have h := Nat.findGreatest_is_greatest hlt hq
    rwa [and_self_iff, Bool.not_eq_true] at h
  rw [← cutPlace] at hbetween hle
  generalize runner.cutPlace secret text = place at *
  generalize (runner.captured [secret] text).length = limit at *
  rw [hcaptured]
  have hsplit := Text.replace_split hsecret "***".toList hbetween
  have hsplitTake := Text.replace_split hsecret "***".toList (Text.isBetween_take hsecret hbetween hle)
  rw [List.take_take, min_eq_left hle] at hsplitTake
  rcases Nat.eq_or_lt_of_le hle with rfl | hlt
  · -- nothing is cut
    have hdrop : (text.take place).drop place = [] := List.drop_eq_nil_iff.2 (List.length_take_le _ _)
    rw [hsplitTake, hdrop, hsplit]
    refine ⟨fun _ => Or.inl rfl, fun _ => (List.take_prefix _ _).trans ?_⟩
    exact (List.prefix_append_right_inj _).2 List.nil_prefix
  · obtain ⟨hstarts, hcut⟩ := Text.cut_of_not_isBetween hsecret hbetween hlt hlength hlast
    have hshort : ((text.take limit).drop place).length < secret.length := by
      rw [List.length_drop, List.length_take, min_eq_left hlength]
      omega
    rw [hsplitTake, Text.replace_of_length_lt _ hshort, hsplit, Text.replace_of_start hsecret _ hstarts,
      List.drop_drop, take_prefix_iff]
    exact ⟨Or.inr, fun h => h.resolve_left hlt.ne⟩

end Shown

section Run

variable {runner} {repr : Text → Text} {secrets : List Text} {timeoutSeconds : ℕ} {output : CommandOutput}
  {stdout stderr : Text}

/-- A run returns, or quotes, two texts; each is a beginning of the masked complete output when all of it is settled, and
with an only secret exactly when the cut of the secret is hidden. -/
theorem run_masked (hstdout : output.stdout.flatten = stdout.utf8) (hstderr : output.stderr.flatten = stderr.utf8)
    (hascii : ∀ c ∈ stdout ++ stderr, c.toNat < 128) :
    ∃ shownStdout shownStderr,
      runner.run repr secrets timeoutSeconds output =
          (if output.timedOut = true then .error (.transient "COMMAND_TIMEOUT" ("command exceeded ".toList ++
            Text.decimal timeoutSeconds ++ " seconds".toList ++ timeoutEvidence repr shownStdout shownStderr))
          else .ok ⟨output.returncode, shownStdout, shownStderr⟩) ∧
      (runner.Settled secrets stdout → shownStdout <+: redact secrets stdout) ∧
      (runner.Settled secrets stderr → shownStderr <+: redact secrets stderr) ∧
      ∀ secret, secrets = [secret] → secret ≠ [] →
        (shownStdout <+: redact secrets stdout ↔ runner.CutHidden secret stdout) ∧
          (shownStderr <+: redact secrets stderr ↔ runner.CutHidden secret stderr) := by
  have hout : ∀ c ∈ stdout, c.toNat < 128 := fun c hc => hascii c (List.mem_append_left _ hc)
  have herr : ∀ c ∈ stderr, c.toNat < 128 := fun c hc => hascii c (List.mem_append_right _ hc)
  refine ⟨runner.shown secrets output.stdout, runner.shown secrets output.stderr, ?_,
    shown_prefix_of_settled hout hstdout, shown_prefix_of_settled herr hstderr, ?_⟩
  · unfold run
    by_cases htimedOut : output.timedOut = true
    · rw [if_pos htimedOut]
      simp only [failIf, if_pos htimedOut]
      rfl
    · rw [if_neg htimedOut]
      simp only [failIf, if_neg htimedOut]
      rfl
  · rintro secret rfl hsecret
    exact ⟨shown_prefix_iff hsecret hout hstdout, shown_prefix_iff hsecret herr hstderr⟩

end Run

/-- Two secrets, one of them across two chunks, and then a bound that cuts an only secret, which the mask before it
hides. -/
theorem run_masked_whole :
    (∃ shownStdout shownStderr,
      run ⟨10, by decide, by decide⟩ id ["sentinel-k".toList, "pw-9".toList] 5
          ⟨0, [Text.utf8 "by sent".toList, Text.utf8 "inel-k, pw-9 and more".toList], [Text.utf8 "pw-9".toList], false⟩ =
        .ok ⟨0, shownStdout, shownStderr⟩ ∧
      shownStdout <+: redact ["sentinel-k".toList, "pw-9".toList] "by sentinel-k, pw-9 and more".toList ∧
      shownStderr <+: redact ["sentinel-k".toList, "pw-9".toList] "pw-9".toList) ∧
    ∃ shownStdout shownStderr,
      run ⟨3, by decide, by decide⟩ id ["sentinel-k".toList] 5
          ⟨0, [Text.utf8 "sentinel-k sentinel-k".toList], [], false⟩ = .ok ⟨0, shownStdout, shownStderr⟩ ∧
      shownStdout <+: redact ["sentinel-k".toList] "sentinel-k sentinel-k".toList := by
  constructor
  · obtain ⟨shownStdout, shownStderr, hrun, hout, herr, -⟩ := @run_masked ⟨10, by decide, by decide⟩ id
      ["sentinel-k".toList, "pw-9".toList] 5
      ⟨0, [Text.utf8 "by sent".toList, Text.utf8 "inel-k, pw-9 and more".toList], [Text.utf8 "pw-9".toList], false⟩
      "by sentinel-k, pw-9 and more".toList "pw-9".toList (by decide) (by decide) (ascii_of_all (by decide))
    exact ⟨shownStdout, shownStderr, hrun, hout (by unfold Settled; decide +kernel),
      herr (by unfold Settled; decide +kernel)⟩
  · obtain ⟨shownStdout, shownStderr, hrun, -, -, honly⟩ := @run_masked ⟨3, by decide, by decide⟩ id
      ["sentinel-k".toList] 5 ⟨0, [Text.utf8 "sentinel-k sentinel-k".toList], [], false⟩
      "sentinel-k sentinel-k".toList [] (by decide) (by decide) (ascii_of_all (by decide))
    obtain ⟨hout, -⟩ := honly _ rfl (by decide)
    exact ⟨shownStdout, shownStderr, hrun, hout.2 (by unfold CutHidden; decide +kernel)⟩

/-- After a secret that is masked, a secret that the capture cuts is returned in part. -/
theorem cut_secret_shown :
    ¬ ∀ (runner : SubprocessRunner) (repr : Text → Text) (secrets : List Text) (timeoutSeconds : ℕ)
      (output : CommandOutput) (result : CommandResult) (stdout : Text),
        (∀ c ∈ stdout, c.toNat < 128) → output.stdout.flatten = stdout.utf8 →
          runner.run repr secrets timeoutSeconds output = .ok result → result.stdout <+: redact secrets stdout := by
  intro h
  have hrun := h ⟨10, by decide, by decide⟩ id ["sentinel-k".toList] 5
    ⟨0, [Text.utf8 "sentinel-k sentinel-k".toList], [], false⟩ ⟨0, "*** sentin".toList, []⟩ "sentinel-k sentinel-k".toList
    (ascii_of_all (by decide)) (by decide) (by decide)
  revert hrun
  decide

end SubprocessRunner

end ArdOssie
