import ArdOssie.Semantic.Candidates
import Mathlib.Data.List.Flatten

/-!
# Markdown texts

The escape of special characters and the lines of a table.  The escape and the lines can be read back: the parts of a
line between the pipes that are not escaped are the values of the row.
-/

namespace ArdOssie

open Text (normalizeLineEnds)

/-! ### Escaping -/

/-- `_COMMONMARK_ESCAPABLE_PUNCTUATION` -/
def escapablePunctuation : List Char := "!\"#$%&'()*+,-./:;<=>?@[]^_\x60\x7b|\x7d~".toList

/-- `text.replace(character, replacement)` -/
def replaceCharacter (c : Char) (replacement t : Text) : Text := t.flatMap fun x => if x = c then replacement else [x]

/-- `_escape_markdown` -/
def escapeMarkdown (value : Text) : Text :=
  escapablePunctuation.foldl (fun escaped c => replaceCharacter c ['\\', c] escaped)
    (replaceCharacter '\\' ['\\', '\\'] value)

/-- The characters that are escaped. -/
def isEscaped (c : Char) : Bool := c ∈ '\\' :: escapablePunctuation

/-- The escape of one character. -/
def escapeCharacter (c : Char) : Text := if isEscaped c then ['\\', c] else [c]

private theorem replaceCharacter_flatMap (c : Char) (replacement : Text) (f : Char → Text) (t : Text) :
    replaceCharacter c replacement (t.flatMap f) = t.flatMap fun x => replaceCharacter c replacement (f x) := by
  rw [replaceCharacter, List.flatMap_assoc]
  rfl

private theorem foldl_replace (cs done : List Char) (hnodup : (done ++ cs).Nodup) (hslash : '\\' ∉ cs) (t : Text) :
    cs.foldl (fun escaped c => replaceCharacter c ['\\', c] escaped)
        (t.flatMap fun x => if x ∈ done then ['\\', x] else [x]) =
      t.flatMap fun x => if x ∈ done ++ cs then ['\\', x] else [x] := by
  induction cs generalizing done with
  | nil => simp
  | cons c cs ih =>
    have hc : c ∉ done := fun h => (List.nodup_append.1 hnodup).2.2 c h c (by simp) rfl
    have hne : c ≠ '\\' := fun h => hslash (by simp [h])
    have hstep : replaceCharacter c ['\\', c] (t.flatMap fun x => if x ∈ done then ['\\', x] else [x]) =
        t.flatMap fun x => if x ∈ done ++ [c] then ['\\', x] else [x] := by
      rw [replaceCharacter_flatMap]
      refine List.flatMap_congr fun x _ => ?_
      by_cases hx : x ∈ done
      · have hxc : x ≠ c := fun h => hc (h ▸ hx)
        simp [hx, replaceCharacter, hxc, Ne.symm hne]
      · by_cases hxc : x = c
        · subst hxc
          simp [hx, replaceCharacter]
        · simp [hx, hxc, replaceCharacter]
    rw [List.foldl_cons, hstep, ih (done ++ [c]) (by simpa using hnodup) (fun h => hslash (by simp [h]))]
    simp

/-- Escaping acts on each character. -/
theorem escapeMarkdown_eq (t : Text) : escapeMarkdown t = t.flatMap escapeCharacter := by
  have hstart : replaceCharacter '\\' ['\\', '\\'] t = t.flatMap fun x => if x ∈ ['\\'] then ['\\', x] else [x] := by
    refine List.flatMap_congr fun x _ => ?_
    by_cases hx : x = '\\' <;> simp [hx]
  rw [escapeMarkdown, hstart, foldl_replace escapablePunctuation ['\\'] (by decide) (by decide)]
  refine List.flatMap_congr fun x _ => ?_
  simp [escapeCharacter, isEscaped]

/-- Undo the escape. -/
def unescape : Text → Text
  | [] => []
  | ['\\'] => ['\\']
  | '\\' :: c :: t => c :: unescape t
  | c :: t => c :: unescape t

private theorem unescape_escaped (c : Char) (t : Text) : unescape ('\\' :: c :: t) = c :: unescape t := rfl

private theorem unescape_plain {c : Char} (h : c ≠ '\\') (t : Text) : unescape (c :: t) = c :: unescape t := by
  rw [unescape.eq_def]
  split <;> simp_all

/-- Escaping is undone. -/
theorem unescape_escapeMarkdown (t : Text) : unescape (escapeMarkdown t) = t := by
  rw [escapeMarkdown_eq]
  induction t with
  | nil => rfl
  | cons c t ih =>
    rw [List.flatMap_cons, escapeCharacter]
    by_cases hc : isEscaped c = true
    · rw [if_pos hc]
      show unescape ('\\' :: c :: t.flatMap escapeCharacter) = c :: t
      rw [unescape_escaped, ih]
    · have hne : c ≠ '\\' := by
        rintro rfl
        exact hc (by decide)
      rw [if_neg hc]
      show unescape (c :: t.flatMap escapeCharacter) = c :: t
      rw [unescape_plain hne, ih]

/-- The text has no line break. -/
theorem newline_notMem_escapeMarkdown {t : Text} (h : '\n' ∉ t) : '\n' ∉ escapeMarkdown t := by
  rw [escapeMarkdown_eq, List.mem_flatMap]
  rintro ⟨c, hc, hmem⟩
  rw [escapeCharacter] at hmem
  split at hmem <;> simp at hmem <;> exact h (hmem ▸ hc)

/-! ### Values and lines -/

section Lines

/-- `value.strip(" \t")` -/
def stripBlanks (value : Text) : Text :=
  (value.dropWhile fun c => c = ' ' || c = '\t').rdropWhile fun c => c = ' ' || c = '\t'

/-- The lines of a text. -/
def textLines (value : Text) : List Text := (normalizeLineEnds value).splitOn '\n'

/-- A text in one line: its lines, stripped and with a space between two. -/
def singleLine (value : Text) : Text := [' '].intercalate ((textLines value).map stripBlanks)

/-- `_table_line` -/
def tableLine (values : List Text) : Text := "| ".toList ++ " | ".toList.intercalate values ++ " |".toList

private theorem notMem_of_mem_splitOn (c : Char) (t : Text) : ∀ line ∈ t.splitOn c, c ∉ line := by
  induction t with
  | nil => simp
  | cons x t ih =>
    rw [List.splitOn_cons_eq_if_modifyHead]
    by_cases hx : x = c
    · simpa [hx] using ih
    · cases h : t.splitOn c with
      | nil => exact absurd h (List.splitOn_ne_nil _ _)
      | cons line lines =>
        rw [h] at ih
        have hne : c ≠ x := fun h => hx h.symm
        simpa [hx, hne] using ih

/-- A character of joined texts is one of the separator or of a text. -/
theorem mem_intercalate_text {c : Char} {separator : Text} {ts : List Text} (h : c ∈ separator.intercalate ts) :
    c ∈ separator ∨ ∃ t ∈ ts, c ∈ t := by
  induction ts with
  | nil => simp at h
  | cons t ts ih =>
    cases ts with
    | nil => exact Or.inr ⟨t, by simp, by simpa using h⟩
    | cons t' ts =>
      rw [List.intercalate_cons_cons, List.append_assoc, List.mem_append, List.mem_append] at h
      rcases h with h | h | h
      · exact Or.inr ⟨t, by simp, h⟩
      · exact Or.inl h
      · exact (ih h).imp_right fun ⟨u, hu, hc⟩ => ⟨u, by simp [hu], hc⟩

theorem newline_notMem_singleLine (value : Text) : '\n' ∉ singleLine value := by
  intro hmem
  rcases mem_intercalate_text hmem with hmem | ⟨part, hpart, hmem⟩
  · simp at hmem
  · obtain ⟨line, hline, rfl⟩ := List.mem_map.1 hpart
    have hsub : (stripBlanks line).Sublist line :=
      (List.rdropWhile_prefix _ _).sublist.trans (List.dropWhile_sublist _)
    exact notMem_of_mem_splitOn '\n' _ line hline (hsub.mem hmem)

/-- The parts of a line between the pipes that are not escaped; the first part starts with `current`. -/
def splitPipesFrom (current : Text) : Text → List Text
  | [] => [current]
  | ['\\'] => [current ++ ['\\']]
  | '\\' :: c :: t => splitPipesFrom (current ++ ['\\', c]) t
  | '|' :: t => current :: splitPipesFrom [] t
  | c :: t => splitPipesFrom (current ++ [c]) t

/-- The values of a table line. -/
def readLine (line : Text) : List Text :=
  ((splitPipesFrom [] line).tail.dropLast).map fun part => unescape part.tail.dropLast

/-- The lines of a table with the values of each. -/
def readTable (markdown : Text) : List (List Text) := (markdown.splitOn '\n').map readLine

/-- No pipe of the text ends a part. -/
def Joined (t : Text) : Prop := ∀ current rest, splitPipesFrom current (t ++ rest) = splitPipesFrom (current ++ t) rest

private theorem splitPipesFrom_plain {c : Char} (hslash : c ≠ '\\') (hpipe : c ≠ '|') (current t : Text) :
    splitPipesFrom current (c :: t) = splitPipesFrom (current ++ [c]) t := by
  rw [splitPipesFrom.eq_def]
  split <;> simp_all

theorem joined_escapeMarkdown (t : Text) : Joined (escapeMarkdown t) := by
  intro current rest
  rw [escapeMarkdown_eq]
  induction t generalizing current with
  | nil => simp
  | cons c t ih =>
    rw [List.flatMap_cons, escapeCharacter]
    by_cases hc : isEscaped c = true
    · rw [if_pos hc]
      have hstep := ih (current ++ ['\\', c])
      simpa [splitPipesFrom] using hstep
    · have hslash : c ≠ '\\' := by
        rintro rfl
        exact hc (by decide)
      have hpipe : c ≠ '|' := by
        rintro rfl
        exact hc (by decide)
      rw [if_neg hc]
      have hstep := ih (current ++ [c])
      rw [List.singleton_append, List.cons_append, splitPipesFrom_plain hslash hpipe, hstep]
      simp

theorem joined_space : Joined [' '] := fun current rest =>
  splitPipesFrom_plain (by decide) (by decide) current rest

theorem joined_rule : Joined "---".toList := by
  intro current rest
  show splitPipesFrom current ('-' :: '-' :: '-' :: rest) = _
  rw [splitPipesFrom_plain (by decide) (by decide), splitPipesFrom_plain (by decide) (by decide),
    splitPipesFrom_plain (by decide) (by decide)]
  simp

/-- The parts of a line after its first pipe. -/
private theorem splitPipes_values (values : List Text) (hne : values ≠ []) (h : ∀ v ∈ values, Joined v) :
    splitPipesFrom [] ([' '] ++ (" | ".toList.intercalate values ++ " |".toList)) =
      (values.map fun v => [' '] ++ v ++ [' ']) ++ [[]] := by
  have hpipe : ∀ current rest : Text, splitPipesFrom current (" |".toList ++ rest) =
      (current ++ [' ']) :: splitPipesFrom [] rest := by
    intro current rest
    rw [show " |".toList ++ rest = [' '] ++ '|' :: rest from rfl, joined_space]
    rfl
  induction values with
  | nil => exact absurd rfl hne
  | cons v values ih =>
    have hv : Joined v := h v (by simp)
    cases values with
    | nil =>
      rw [joined_space, List.intercalate_singleton, hv]
      have hlast := hpipe ([] ++ [' '] ++ v) []
      rw [List.append_nil] at hlast
      rw [hlast]
      rfl
    | cons w values =>
      have hrest := ih (by simp) fun v hv => h v (by simp [hv])
      have hbar : ∀ current rest : Text, splitPipesFrom current (" | ".toList ++ rest) =
          (current ++ [' ']) :: splitPipesFrom [] ([' '] ++ rest) := fun current rest => hpipe current ([' '] ++ rest)
      rw [List.intercalate_cons_cons, joined_space]
      simp only [List.append_assoc]
      rw [hv, hbar, hrest]
      rfl

/-- The values of a line are read back, unescaped. -/
theorem readLine_tableLine {values : List Text} (hne : values ≠ []) (h : ∀ v ∈ values, Joined v) :
    readLine (tableLine values) = values.map unescape := by
  have hsplit : splitPipesFrom [] (tableLine values) =
      [] :: ((values.map fun v => [' '] ++ v ++ [' ']) ++ [[]]) := by
    rw [← splitPipes_values values hne h, tableLine, List.append_assoc]
    rfl
  rw [readLine, hsplit, List.tail_cons, List.dropLast_concat, List.map_map]
  refine List.map_congr_left fun v _ => ?_
  simp

/-- A table that is written line by line is read back. -/
theorem readTable_lines {rows : List (List Text)} (hne : rows ≠ []) (hrows : ∀ row ∈ rows, row ≠ [])
    (h : ∀ row ∈ rows, ∀ v ∈ row, Joined v ∧ '\n' ∉ v) :
    readTable (['\n'].intercalate (rows.map tableLine)) = rows.map fun row => row.map unescape := by
  have hlines : ∀ line ∈ rows.map tableLine, '\n' ∉ line := by
    intro line hline hmem
    obtain ⟨row, hrow, rfl⟩ := List.mem_map.1 hline
    rw [tableLine, List.mem_append, List.mem_append] at hmem
    rcases hmem with (hmem | hmem) | hmem
    · simp at hmem
    · rcases mem_intercalate_text hmem with hmem | ⟨v, hv, hmem⟩
      · simp at hmem
      · exact (h row hrow v hv).2 hmem
    · simp at hmem
  rw [readTable, List.splitOn_intercalate '\n' hlines (by simpa using hne), List.map_map]
  exact List.map_congr_left fun row hrow => readLine_tableLine (hrows row hrow) fun v hv => (h row hrow v hv).1

end Lines

end ArdOssie
