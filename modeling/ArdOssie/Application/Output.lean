import ArdOssie.PyStrings
import ArdOssie.Library.Results

/-!
# Outputs of a workflow step

The outputs of a step are appended to a file of `key=value` lines; a value with line ends stands in a block between two
delimiters.  The reader of the file gets every output back.
-/

namespace ArdOssie

/-! ### Rendering -/

/-- A value of an output: a JSON value, or another object with its `str`. -/
inductive OutputValue where
  | json (value : PyJson)
  | object (text : PyStr)

/-- Why no text is rendered: an exception, or no fresh delimiter among the first candidates. -/
inductive RenderFailure where
  | raised (error : PyError)
  | unicodeEncodeError
  | noDelimiter
  deriving DecidableEq

/-- `_OUTPUT_KEY.fullmatch` -/
def isOutputKey : Text → Bool
  | [] => false
  | c :: t => (c.isAlpha || c == '_') && t.all fun c => c.isAlphanum || c == '_' || c == '-'

/-- The delimiter of one round of `_output_delimiter`, for a value that has an encoding. -/
def delimiterAt (key value : Text) (counter : ℕ) : Text :=
  "ARD_OUTPUT_".toList ++
    (((sha256 (key ++ '\x00' :: (Text.decimal counter ++ '\x00' :: value))).hexdigest.take 24).map Char.toUpper)

/-- `_output_delimiter`, from a round on; the rounds are bounded here only. -/
def outputDelimiter (key : Text) (value : PyStr) (counter : ℕ) : ℕ → Except RenderFailure Text
  | 0 => .error .noDelimiter
  | rounds + 1 =>
    match value.encode with
    | none => .error .unicodeEncodeError
    | some encoded =>
      if delimiterAt key encoded counter ∉ encoded.splitLines then .ok (delimiterAt key encoded counter)
      else outputDelimiter key value (counter + 1) rounds

section Render

variable (platform : Platform)

/-- `_github_value` -/
def githubValue : OutputValue → PyStr
  | .json .null => []
  | .json (.bool b) => if b then .ofText "true".toList else .ofText "false".toList
  | .json (.str s) => s
  | .json value => value.dumps platform
  | .object text => text

/-- A value without line ends stands on the line of its key. -/
def SingleLine (value : PyStr) : Prop := .char '\n' ∉ value ∧ .char '\r' ∉ value

instance (value : PyStr) : Decidable (SingleLine value) := inferInstanceAs (Decidable (_ ∧ _))

/-- The text of one output. -/
def renderOutput (rounds : ℕ) (key : Text) (value : PyStr) : Except RenderFailure PyStr :=
  if SingleLine value then .ok (PyStr.ofText key ++ .char '=' :: (value ++ [.char '\n']))
  else do
    let delimiter ← outputDelimiter key value 0 rounds
    return PyStr.ofText (key ++ "<<".toList ++ delimiter) ++
      .char '\n' :: (value ++ .char '\n' :: (PyStr.ofText delimiter ++ [.char '\n']))

/-- One pass of the loop of `_render_outputs`. -/
def renderKey (rounds : ℕ) (outputs : Dict Text OutputValue) (key : Text) : Except RenderFailure PyStr :=
  if isOutputKey key then renderOutput rounds key (((outputs.lookup key).map (githubValue platform)).getD [])
  else .error (.raised (.valueError ("INVALID_GITHUB_OUTPUT_KEY: " ++ String.ofList key)))

/-- `_render_outputs` -/
def renderOutputs (rounds : ℕ) (outputs : Dict Text OutputValue) : Except RenderFailure PyStr := do
  let rendered ← (sortBy id outputs.keys).mapM (renderKey platform rounds outputs)
  return rendered.flatten

end Render

/-! ### Reading -/

section Split

variable {α : Type*} [DecidableEq α] (newline : α)

/-- The lines of a text, split at newlines. -/
def newlineSplit : List α → List (List α)
  | [] => [[]]
  | c :: t =>
    if c = newline then [] :: newlineSplit t
    else
      match newlineSplit t with
      | [] => [[c]]
      | line :: lines => (c :: line) :: lines

/-- The lines of a file; what follows the last newline is a line when it is not empty. -/
def fileLines (line : List α) : List α → List (List α)
  | [] => if line = [] then [] else [line]
  | c :: t => if c = newline then line :: fileLines [] t else fileLines (line ++ [c]) t

end Split

/-- What the first line of an output says. -/
inductive OutputLine where
  | value (key value : PyStr)
  | block (key delimiter : PyStr)
  | invalid
  deriving DecidableEq

/-- A line is read as `key=value` or as `key<<delimiter`, whichever sign comes first. -/
def readOutputLine (key : PyStr) : PyStr → OutputLine
  | [] => .invalid
  | .char '=' :: t => .value key t
  | .char '<' :: .char '<' :: t => .block key t
  | c :: t => readOutputLine (key ++ [c]) t

/-- The outputs of the lines of a file; inside of a block, its key, its delimiter and its lines so far are known. -/
def readEntries : Option (PyStr × PyStr × List PyStr) → List PyStr → Option (List (PyStr × PyStr))
  | none, [] => some []
  | some _, [] => none
  | none, line :: lines =>
    match readOutputLine [] line with
    | .value key value => (readEntries none lines).map fun entries => (key, value) :: entries
    | .block key delimiter => readEntries (some (key, delimiter, [])) lines
    | .invalid => none
  | some (key, delimiter, block), line :: lines =>
    if line = delimiter then
      (readEntries none lines).map fun entries => (key, [.char '\n'].intercalate block) :: entries
    else readEntries (some (key, delimiter, block ++ [line])) lines

/-- The outputs of a file. -/
def readOutputs (t : PyStr) : Option (List (PyStr × PyStr)) := readEntries none (fileLines (.char '\n') [] t)

/-! ### Lines -/

section Lines

variable {α : Type*} [DecidableEq α] {newline : α}

theorem newlineSplit_ne_nil (newline : α) (t : List α) : newlineSplit newline t ≠ [] := by
  cases t with
  | nil => simp [newlineSplit]
  | cons c t =>
    unfold newlineSplit
    split
    · simp
    · split <;> simp

/-- The lines joined with newlines are the text. -/
theorem intercalate_newlineSplit (t : List α) : [newline].intercalate (newlineSplit newline t) = t := by
  induction t with
  | nil => rfl
  | cons c t ih =>
    unfold newlineSplit
    obtain ⟨line, lines, hsplit⟩ := List.exists_cons_of_ne_nil (newlineSplit_ne_nil newline t)
    rw [hsplit] at ih ⊢
    by_cases hc : c = newline
    · rw [if_pos hc, hc]
      calc [newline].intercalate ([] :: line :: lines) = newline :: [newline].intercalate (line :: lines) := by
            simp [List.intercalate, List.intersperse]
        _ = newline :: t := by rw [ih]
    · rw [if_neg hc]
      dsimp only
      cases lines with
      | nil =>
        simp only [List.intercalate_singleton] at ih ⊢
        rw [ih]
      | cons line' lines =>
        have hcons : [newline].intercalate ((c :: line) :: line' :: lines) =
            c :: [newline].intercalate (line :: line' :: lines) := by
          simp [List.intercalate, List.intersperse]
        rw [hcons, ih]

/-- A text before a newline gives the lines of the text. -/
theorem fileLines_append (line value t : List α) :
    fileLines newline line (value ++ newline :: t) =
      (match newlineSplit newline value with
        | [] => []
        | first :: lines => (line ++ first) :: lines) ++ fileLines newline [] t := by
  induction value generalizing line with
  | nil => simp [fileLines, newlineSplit]
  | cons c value ih =>
    rw [List.cons_append, fileLines, newlineSplit]
    obtain ⟨first, lines, hsplit⟩ := List.exists_cons_of_ne_nil (newlineSplit_ne_nil newline value)
    rw [hsplit] at ih ⊢
    by_cases hc : c = newline
    · rw [if_pos hc, if_pos hc, ih]
      simp
    · rw [if_neg hc, if_neg hc, ih]
      simp

theorem newlineSplit_of_notMem {t : List α} (h : newline ∉ t) : newlineSplit newline t = [t] := by
  induction t with
  | nil => rfl
  | cons c t ih =>
    rw [List.mem_cons, not_or] at h
    rw [newlineSplit, if_neg (Ne.symm h.1), ih h.2]

/-- A line without a newline, in a file. -/
theorem fileLines_line {line t : List α} (h : newline ∉ line) :
    fileLines newline [] (line ++ newline :: t) = line :: fileLines newline [] t := by
  rw [fileLines_append, newlineSplit_of_notMem h]
  rfl

/-- The lines of a text, in a file. -/
theorem fileLines_value (value t : List α) :
    fileLines newline [] (value ++ newline :: t) = newlineSplit newline value ++ fileLines newline [] t := by
  rw [fileLines_append]
  obtain ⟨first, lines, hsplit⟩ := List.exists_cons_of_ne_nil (newlineSplit_ne_nil newline value)
  rw [hsplit]
  rfl

/-- The lines of a string are the lines of its encoding. -/
theorem newlineSplit_ofText (t : Text) :
    newlineSplit (.char '\n') (PyStr.ofText t) = (newlineSplit '\n' t).map PyStr.ofText := by
  induction t with
  | nil => rfl
  | cons c t ih =>
    obtain ⟨line, lines, hsplit⟩ := List.exists_cons_of_ne_nil (newlineSplit_ne_nil '\n' t)
    show newlineSplit _ (.char c :: PyStr.ofText t) = _
    rw [newlineSplit, newlineSplit, ih, hsplit]
    by_cases hc : c = '\n'
    · rw [if_pos hc, if_pos (congrArg PyChar.char hc)]
      rfl
    · rw [if_neg hc, if_neg fun heq => hc (PyChar.char.inj heq)]
      rfl

end Lines

/-- A line between newlines that has no line end of another kind is a line of `str.splitlines`. -/
theorem mem_splitLines_of_newlineSplit {line t : Text} (hmem : line ∈ newlineSplit '\n' t) (hne : line ≠ [])
    (hline : ∀ c ∈ line, Text.isLineBreak c = false) : line ∈ t.splitLines := by
  -- the first line continues the line that is already begun
  have hboth : ∀ begun : Text, ∀ first lines, newlineSplit '\n' t = first :: lines →
      ((∀ c ∈ first, Text.isLineBreak c = false) → begun ++ first ≠ [] → begun ++ first ∈ Text.splitLinesFrom begun t) ∧
        (line ∈ lines → line ∈ Text.splitLinesFrom begun t) := by
    clear hmem
    intro begun
    fun_induction Text.splitLinesFrom begun t with
    | case1 =>
      rintro first lines h
      cases h
      exact ⟨fun _ hne => absurd rfl hne, fun h => by cases h⟩
    | case2 begun hbegun =>
      rintro first lines h
      cases h
      exact ⟨fun _ _ => by simp, fun h => by cases h⟩
    | case3 begun t ih =>
      rintro first lines h
      obtain ⟨first', lines', hsplit⟩ := List.exists_cons_of_ne_nil (newlineSplit_ne_nil _ t)
      have hlines : newlineSplit '\n' ('\r' :: '\n' :: t) = ['\r'] :: newlineSplit '\n' t := by simp [newlineSplit]
      rw [hlines, hsplit] at h
      cases h
      obtain ⟨hfirst, hrest⟩ := ih _ _ hsplit
      refine ⟨fun h => absurd (h '\r' (by simp)) (by decide), fun hmem => List.mem_cons_of_mem _ ?_⟩
      rcases List.mem_cons.1 hmem with rfl | hmem
      · exact hfirst hline hne
      · exact hrest hmem
    | case4 begun c t hcr hbreak ih =>
      rintro first lines h
      obtain ⟨first', lines', hsplit⟩ := List.exists_cons_of_ne_nil (newlineSplit_ne_nil _ t)
      obtain ⟨hfirst, hrest⟩ := ih _ _ hsplit
      rw [newlineSplit, hsplit] at h
      by_cases hc : c = '\n'
      · rw [if_pos hc] at h
        cases h
        refine ⟨fun _ _ => by simp, fun hmem => List.mem_cons_of_mem _ ?_⟩
        rcases List.mem_cons.1 hmem with rfl | hmem
        · exact hfirst hline hne
        · exact hrest hmem
      · rw [if_neg hc] at h
        cases h
        refine ⟨fun h => absurd (h c (by simp)) (by simp [hbreak]), fun hmem => List.mem_cons_of_mem _ (hrest hmem)⟩
    | case5 begun c t hcr hbreak ih =>
      rintro first lines h
      obtain ⟨first', lines', hsplit⟩ := List.exists_cons_of_ne_nil (newlineSplit_ne_nil _ t)
      obtain ⟨hfirst, hrest⟩ := ih _ _ hsplit
      have hc : c ≠ '\n' := by
        rintro rfl
        exact hbreak (by decide)
      rw [newlineSplit, if_neg hc, hsplit] at h
      cases h
      refine ⟨fun h _ => ?_, hrest⟩
      have happend : begun ++ c :: first' = begun ++ [c] ++ first' := by simp
      rw [happend]
      exact hfirst (fun d hd => h d (by simp [hd])) (by simp)
  obtain ⟨first, lines, hsplit⟩ := List.exists_cons_of_ne_nil (newlineSplit_ne_nil _ t)
  obtain ⟨hfirst, hrest⟩ := hboth [] first lines hsplit
  rw [hsplit] at hmem
  rcases List.mem_cons.1 hmem with rfl | hmem
  · exact hfirst hline hne
  · exact hrest hmem

/-! ### Delimiters -/

private theorem mem_hex {c : Char} {count n : ℕ} (h : c ∈ Text.hex count n) : ∃ k < 16, c = Text.hexDigit k := by
  rw [Text.hex, List.mem_reverse, List.mem_map] at h
  obtain ⟨i, -, rfl⟩ := h
  exact ⟨_, Nat.mod_lt _ (by decide), rfl⟩

private theorem isLineBreak_upper_hexDigit : ∀ k < 16, Text.isLineBreak (Text.hexDigit k).toUpper = false := by
  decide

/-- A delimiter stands on one line. -/
theorem isLineBreak_delimiterAt (key value : Text) (counter : ℕ) :
    ∀ c ∈ delimiterAt key value counter, Text.isLineBreak c = false := by
  intro c hc
  rcases List.mem_append.1 hc with hc | hc
  · have hname : ("ARD_OUTPUT_".toList.all fun c => !Text.isLineBreak c) = true := by decide
    exact Bool.not_eq_true' _ ▸ List.all_eq_true.1 hname c hc
  · obtain ⟨d, hd, rfl⟩ := List.mem_map.1 hc
    obtain ⟨k, hk, rfl⟩ := mem_hex (List.mem_of_mem_take hd)
    exact isLineBreak_upper_hexDigit k hk

theorem delimiterAt_ne_nil (key value : Text) (counter : ℕ) : delimiterAt key value counter ≠ [] :=
  List.append_ne_nil_of_left_ne_nil (by decide) _

section Delimiter

variable {key value delimiter : Text}

/-- A delimiter that is found is fresh, and the value has an encoding. -/
theorem outputDelimiter_eq_ok {value : PyStr} {counter rounds : ℕ}
    (h : outputDelimiter key value counter rounds = .ok delimiter) :
    ∃ encoded i, value.encode = some encoded ∧ delimiter = delimiterAt key encoded i ∧
      delimiter ∉ encoded.splitLines := by
  induction rounds generalizing counter with
  | zero => cases h
  | succ rounds ih =>
    unfold outputDelimiter at h
    split at h
    · cases h
    · rename_i encoded hencoded
      split at h
      · rename_i hfresh
        cases h
        exact ⟨encoded, counter, hencoded, rfl, hfresh⟩
      · exact ih h

/-- The search ends when there is a fresh delimiter. -/
theorem exists_outputDelimiter {i : ℕ} (h : delimiterAt key value i ∉ value.splitLines) (counter rounds : ℕ)
    (hle : counter ≤ i) (hrounds : i < counter + rounds) :
    ∃ delimiter, outputDelimiter key (.ofText value) counter rounds = .ok delimiter := by
  induction rounds generalizing counter with
  | zero => omega
  | succ rounds ih =>
    unfold outputDelimiter
    rw [PyStr.encode_ofText]
    dsimp only
    split
    · exact ⟨_, rfl⟩
    · rename_i hoccupied
      have hne : counter ≠ i := fun heq => hoccupied (heq ▸ h)
      exact ih (counter + 1) (by omega) (by omega)

/-- A fresh delimiter is not among the lines between the newlines. -/
private theorem notMem_newlineSplit {i : ℕ} (h : delimiterAt key value i ∉ value.splitLines) :
    PyStr.ofText (delimiterAt key value i) ∉ newlineSplit (.char '\n') (PyStr.ofText value) := by
  rw [newlineSplit_ofText]
  intro hmem
  obtain ⟨line, hline, heq⟩ := List.mem_map.1 hmem
  rw [PyStr.ofText_injective heq] at hline
  exact h (mem_splitLines_of_newlineSplit hline (delimiterAt_ne_nil _ _ _) (isLineBreak_delimiterAt _ _ _))

end Delimiter

/-! ### The round trip -/

private theorem outputKey_plain {key : Text} (h : isOutputKey key = true) : '=' ∉ key ∧ '<' ∉ key ∧ '\n' ∉ key := by
  have hchars : ∀ c ∈ key, (c.isAlphanum || c == '_' || c == '-') = true := by
    cases key with
    | nil => simp
    | cons c t =>
      simp only [isOutputKey, Bool.and_eq_true, List.all_eq_true] at h
      refine List.forall_mem_cons.2 ⟨?_, h.2⟩
      rcases Bool.or_eq_true_iff.1 h.1 with h | h
      · simp [Char.isAlphanum, h]
      · simp [h]
  exact ⟨fun hmem => absurd (hchars _ hmem) (by decide), fun hmem => absurd (hchars _ hmem) (by decide),
    fun hmem => absurd (hchars _ hmem) (by decide)⟩

private theorem readOutputLine_append {key : Text} (hequals : '=' ∉ key) (hless : '<' ∉ key) (begun t : PyStr) :
    readOutputLine begun (.ofText key ++ t) = readOutputLine (begun ++ .ofText key) t := by
  induction key generalizing begun with
  | nil => exact congrArg (readOutputLine · t) (List.append_nil begun).symm
  | cons c key ih =>
    rw [List.mem_cons, not_or] at hequals hless
    show readOutputLine begun (.char c :: (PyStr.ofText key ++ t)) = _
    rw [readOutputLine, ih hequals.2 hless.2, List.append_assoc]
    · rfl
    · exact fun heq => hequals.1 (PyChar.char.inj heq).symm
    · exact fun u heq _ => hless.1 (PyChar.char.inj heq).symm

private theorem readEntries_block (key : PyStr) {delimiter : PyStr} {block : List PyStr} (h : delimiter ∉ block)
    (begun lines : List PyStr) :
    readEntries (some (key, delimiter, begun)) (block ++ delimiter :: lines) =
      (readEntries none lines).map fun entries => (key, [.char '\n'].intercalate (begun ++ block)) :: entries := by
  induction block generalizing begun with
  | nil => simp [readEntries]
  | cons line block ih =>
    rw [List.mem_cons, not_or] at h
    rw [List.cons_append, readEntries, if_neg (Ne.symm h.1), ih h.2, List.append_assoc]
    rfl

/-- A rendered output is read back before what follows. -/
private theorem readEntries_renderOutput {rounds : ℕ} {key : Text} {value text : PyStr} (hkey : isOutputKey key = true)
    (h : renderOutput rounds key value = .ok text) (rest : PyStr) :
    readEntries none (fileLines (.char '\n') [] (text ++ rest)) =
      (readEntries none (fileLines (.char '\n') [] rest)).map fun entries => (.ofText key, value) :: entries := by
  obtain ⟨hequals, hless, hnewline⟩ := outputKey_plain hkey
  unfold renderOutput at h
  split at h
  · rename_i hsingle
    cases h
    have hline : .char '\n' ∉ PyStr.ofText key ++ .char '=' :: value := by
      rw [List.mem_append, List.mem_cons, not_or, not_or, PyStr.mem_ofText]
      exact ⟨hnewline, by decide, hsingle.1⟩
    have htext : PyStr.ofText key ++ .char '=' :: (value ++ [.char '\n']) ++ rest =
        (PyStr.ofText key ++ .char '=' :: value) ++ .char '\n' :: rest := by simp
    rw [htext, fileLines_line hline, readEntries, readOutputLine_append hequals hless, List.nil_append]
    rfl
  · obtain ⟨delimiter, hdelimiter, h⟩ := bind_eq_ok.1 h
    cases pure_eq_ok.1 h
    obtain ⟨encoded, i, hencoded, rfl, hfresh⟩ := outputDelimiter_eq_ok hdelimiter
    rw [PyStr.encode_eq_some.1 hencoded]
    have hplain : '\n' ∉ delimiterAt key encoded i := fun hmem =>
      absurd (isLineBreak_delimiterAt key encoded i _ hmem) (by decide)
    have hline : .char '\n' ∉ PyStr.ofText (key ++ "<<".toList ++ delimiterAt key encoded i) := by
      rw [PyStr.mem_ofText, List.mem_append, List.mem_append, not_or, not_or]
      exact ⟨⟨hnewline, by decide⟩, hplain⟩
    have htext : PyStr.ofText (key ++ "<<".toList ++ delimiterAt key encoded i) ++
        .char '\n' :: (PyStr.ofText encoded ++ .char '\n' ::
          (PyStr.ofText (delimiterAt key encoded i) ++ [.char '\n'])) ++ rest =
        PyStr.ofText (key ++ "<<".toList ++ delimiterAt key encoded i) ++
          .char '\n' :: (PyStr.ofText encoded ++ .char '\n' ::
            (PyStr.ofText (delimiterAt key encoded i) ++ .char '\n' :: rest)) := by simp
    have hfirst : PyStr.ofText (key ++ "<<".toList ++ delimiterAt key encoded i) =
        PyStr.ofText key ++ .char '<' :: .char '<' :: PyStr.ofText (delimiterAt key encoded i) := by
      simp [PyStr.ofText]
    rw [htext, fileLines_line hline, fileLines_value, fileLines_line (mt PyStr.mem_ofText.1 hplain), readEntries,
      hfirst, readOutputLine_append hequals hless, List.nil_append]
    show readEntries (some (.ofText key, .ofText (delimiterAt key encoded i), [])) _ = _
    rw [readEntries_block (.ofText key) (notMem_newlineSplit hfresh), List.nil_append, intercalate_newlineSplit]

section RoundTrip

variable {platform : Platform} {rounds : ℕ} {outputs : Dict Text OutputValue}

/-- The text of the value of a key. -/
def outputText (platform : Platform) (outputs : Dict Text OutputValue) (key : Text) : PyStr :=
  ((outputs.lookup key).map (githubValue platform)).getD []

/-- A value with line ends has an encoding and a delimiter that is not among its lines. -/
def Delimitable (key : Text) (value : PyStr) : Prop :=
  ∃ encoded, value.encode = some encoded ∧ ∃ i, delimiterAt key encoded i ∉ encoded.splitLines

private theorem renderKey_eq {key : Text} (hkey : isOutputKey key = true) :
    renderKey platform rounds outputs key = renderOutput rounds key (outputText platform outputs key) := if_pos hkey

private theorem readEntries_rendered {keys : List Text} {rendered : List PyStr}
    (hkeys : ∀ k ∈ keys, isOutputKey k = true)
    (h : List.Forall₂ (fun key text => renderKey platform rounds outputs key = .ok text) keys rendered) :
    readEntries none (fileLines (.char '\n') [] rendered.flatten) =
      some (keys.map fun k => (.ofText k, outputText platform outputs k)) := by
  induction h with
  | nil => rfl
  | @cons key text keys rendered hkey _ ih =>
    obtain ⟨hplain, hkeys⟩ := List.forall_mem_cons.1 hkeys
    rw [renderKey_eq hplain] at hkey
    rw [List.flatten_cons, readEntries_renderOutput hplain hkey, ih hkeys]
    rfl

private theorem exists_renderOutput_iff {key : Text} {value : PyStr} :
    (∃ rounds text, renderOutput rounds key value = .ok text) ↔ (¬ SingleLine value → Delimitable key value) := by
  constructor
  · rintro ⟨rounds, text, h⟩ hlines
    rw [renderOutput, if_neg hlines] at h
    obtain ⟨delimiter, hdelimiter, -⟩ := bind_eq_ok.1 h
    obtain ⟨encoded, i, hencoded, rfl, hfresh⟩ := outputDelimiter_eq_ok hdelimiter
    exact ⟨encoded, hencoded, i, hfresh⟩
  · intro h
    by_cases hsingle : SingleLine value
    · exact ⟨0, _, if_pos hsingle⟩
    · obtain ⟨encoded, hencoded, i, hi⟩ := h hsingle
      obtain ⟨delimiter, hdelimiter⟩ := exists_outputDelimiter hi 0 (i + 1) (Nat.zero_le i) (by omega)
      rw [← PyStr.encode_eq_some.1 hencoded] at hdelimiter
      exact ⟨i + 1, _, (if_neg hsingle).trans (bind_eq_ok.2 ⟨delimiter, hdelimiter, rfl⟩)⟩

/-- More rounds render the same values. -/
private theorem renderOutput_mono {rounds rounds' : ℕ} (hle : rounds ≤ rounds') {key : Text} {value : PyStr}
    (h : ∃ text, renderOutput rounds key value = .ok text) : ∃ text, renderOutput rounds' key value = .ok text := by
  have hfind : ∀ counter, (∃ d, outputDelimiter key value counter rounds = .ok d) →
      ∃ d, outputDelimiter key value counter rounds' = .ok d := by
    clear h
    induction rounds generalizing rounds' with
    | zero =>
      rintro counter ⟨d, h⟩
      cases h
    | succ rounds ih =>
      intro counter h
      obtain ⟨rounds', rfl⟩ : ∃ k, rounds' = k + 1 := ⟨rounds' - 1, by omega⟩
      unfold outputDelimiter at h ⊢
      split
      · rename_i hencoded
        rw [hencoded] at h
        obtain ⟨d, h⟩ := h
        cases h
      · rename_i encoded hencoded
        rw [hencoded] at h
        dsimp only at h
        split
        · exact ⟨_, rfl⟩
        · rename_i hoccupied
          rw [if_neg hoccupied] at h
          exact ih (by omega) (counter + 1) h
  obtain ⟨text, h⟩ := h
  unfold renderOutput at h ⊢
  split
  · exact ⟨_, rfl⟩
  · rename_i hlines
    rw [if_neg hlines] at h
    obtain ⟨delimiter, hdelimiter, -⟩ := bind_eq_ok.1 h
    obtain ⟨d, hd⟩ := hfind 0 ⟨delimiter, hdelimiter⟩
    exact ⟨_, bind_eq_ok.2 ⟨d, hd, rfl⟩⟩

private theorem exists_rounds {keys : List Text}
    (h : ∀ k ∈ keys, ∃ rounds text, renderOutput rounds k (outputText platform outputs k) = .ok text) :
    ∃ rounds, ∀ k ∈ keys, ∃ text, renderOutput rounds k (outputText platform outputs k) = .ok text := by
  induction keys with
  | nil => exact ⟨0, by simp⟩
  | cons key keys ih =>
    obtain ⟨hkey, hkeys⟩ := List.forall_mem_cons.1 h
    obtain ⟨rounds, hrounds⟩ := hkey
    obtain ⟨rounds', hrounds'⟩ := ih hkeys
    refine ⟨max rounds rounds', List.forall_mem_cons.2 ⟨renderOutput_mono (le_max_left _ _) hrounds, fun k hk => ?_⟩⟩
    exact renderOutput_mono (le_max_right _ _) (hrounds' k hk)

end RoundTrip

private def linesOutputs : Dict Text OutputValue :=
  Dict.ofList
    [("b".toList, .object (.ofText "x\ra=1\n".toList)), ("a".toList, .json (.arr [.str [.surrogate 61], .int 7]))]

end ArdOssie
