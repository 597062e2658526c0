import ArdOssie.Base
import ArdOssie.Library.Sha256
import Mathlib.Data.List.DropRight

/-!
# Texts, hashes and identifiers

A text is a list of Unicode scalar values.  An identifier such as `span_…` carries sixteen hexadecimal digits of a
hash and is modelled by their number; the identifiers of one kind are compared as their digits are.
-/

namespace ArdOssie

/-- A string of the program. -/
abbrev Text := List Char

namespace Text

/-- `str.isspace` of one character. -/
def isSpace (c : Char) : Bool :=
  let n := c.toNat
  (9 ≤ n && n ≤ 13) || (28 ≤ n && n ≤ 32) || n == 0x85 || n == 0xa0 || n == 0x1680 ||
    (0x2000 ≤ n && n ≤ 0x200a) || n == 0x2028 || n == 0x2029 || n == 0x202f || n == 0x205f || n == 0x3000

/-- `str.strip` -/
def strip (t : Text) : Text := (t.dropWhile isSpace).rdropWhile isSpace

@[simp] theorem strip_strip (t : Text) : strip (strip t) = strip t := by
  have hdrop : (strip t).dropWhile isSpace = strip t := by
    rw [List.dropWhile_eq_self_iff]
    intro hpos
    have hinit : strip t <+: t.dropWhile isSpace := List.rdropWhile_prefix isSpace _
    have hne : t.dropWhile isSpace ≠ [] := by
      intro hnil
      rw [hnil, List.prefix_nil] at hinit
      rw [hinit] at hpos
      exact absurd hpos (Nat.lt_irrefl 0)
    have hhead := List.dropWhile_get_zero_not isSpace t (List.length_pos_iff.2 hne)
    rw [List.get_eq_getElem] at hhead
    rwa [hinit.getElem hpos]
  show ((strip t).dropWhile isSpace).rdropWhile isSpace = strip t
  rw [hdrop]
  exact List.rdropWhile_idempotent _ _

/-- The characters of a text that are not whitespace. -/
def withoutWhitespace (t : Text) : Text := t.filter fun c => !isSpace c

/-- The characters at which `str.splitlines` ends a line. -/
def isLineBreak (c : Char) : Bool :=
  c.toNat ∈ [0xa, 0xb, 0xc, 0xd, 0x1c, 0x1d, 0x1e, 0x85, 0x2028, 0x2029]

/-- The lines of a text whose first line starts with `line`. -/
def splitLinesFrom (line : Text) : Text → List Text
  | [] => if line = [] then [] else [line]
  | '\r' :: '\n' :: t => line :: splitLinesFrom [] t
  | c :: t => if isLineBreak c then line :: splitLinesFrom [] t else splitLinesFrom (line ++ [c]) t

/-- `str.splitlines` -/
def splitLines (t : Text) : List Text := splitLinesFrom [] t

theorem isSpace_of_isLineBreak {c : Char} (h : isLineBreak c = true) : isSpace c = true := by
  simp only [isLineBreak, List.mem_cons, List.not_mem_nil, or_false, decide_eq_true_eq] at h
  simp only [isSpace, Bool.or_eq_true, Bool.and_eq_true, decide_eq_true_eq, beq_iff_eq]
  omega

theorem withoutWhitespace_append (t u : Text) :
    withoutWhitespace (t ++ u) = withoutWhitespace t ++ withoutWhitespace u := List.filter_append ..

theorem withoutWhitespace_cons (c : Char) (t : Text) :
    withoutWhitespace (c :: t) = if isSpace c then withoutWhitespace t else c :: withoutWhitespace t := by
  rw [withoutWhitespace, List.filter_cons]
  cases isSpace c <;> rfl

private theorem mem_line {line t x : Text} (hline : ∀ c ∈ line, isLineBreak c = false)
    (h : x ∈ splitLinesFrom line t) : ∀ c ∈ x, (c ∈ line ∨ c ∈ t) ∧ isLineBreak c = false := by
  fun_induction splitLinesFrom line t with
  | case1 => cases h
  | case2 line hne =>
    cases List.mem_singleton.1 h
    exact fun c hc => ⟨Or.inl hc, hline c hc⟩
  | case3 line t ih =>
    intro c hc
    rcases List.mem_cons.1 h with rfl | h
    · exact ⟨Or.inl hc, hline c hc⟩
    · have hmem := ih (by simp) h c hc
      simp only [List.not_mem_nil, false_or] at hmem
      exact ⟨Or.inr (by simp [hmem.1]), hmem.2⟩
  | case4 line d t _ hbreak ih =>
    intro c hc
    rcases List.mem_cons.1 h with rfl | h
    · exact ⟨Or.inl hc, hline c hc⟩
    · have hmem := ih (by simp) h c hc
      simp only [List.not_mem_nil, false_or] at hmem
      exact ⟨Or.inr (by simp [hmem.1]), hmem.2⟩
  | case5 line d t _ hbreak ih =>
    intro c hc
    have hlonger : ∀ c ∈ line ++ [d], isLineBreak c = false := by
      rw [Bool.not_eq_true] at hbreak
      exact List.forall_mem_append.2 ⟨hline, List.forall_mem_singleton.2 hbreak⟩
    have hmem := ih hlonger h c hc
    simp only [List.mem_append, List.mem_singleton] at hmem
    exact ⟨by simp; tauto, hmem.2⟩

/-- A line has characters of the text that end no line. -/
theorem of_mem_splitLines {t line : Text} (h : line ∈ t.splitLines) :
    ∀ c ∈ line, c ∈ t ∧ isLineBreak c = false := by
  intro c hc
  have hmem := mem_line (by simp) h c hc
  simpa using hmem

theorem withoutWhitespace_splitLinesFrom (line t : Text) :
    (splitLinesFrom line t).flatMap withoutWhitespace = withoutWhitespace (line ++ t) := by
  fun_induction splitLinesFrom line t with
  | case1 => rfl
  | case2 line hne => simp
  | case3 line t ih =>
    rw [List.flatMap_cons, ih, List.nil_append, withoutWhitespace_append, withoutWhitespace_cons, if_pos (by decide),
      withoutWhitespace_cons, if_pos (by decide)]
  | case4 line c t _ hbreak ih =>
    rw [List.flatMap_cons, ih, List.nil_append, withoutWhitespace_append, withoutWhitespace_cons,
      if_pos (isSpace_of_isLineBreak hbreak)]
  | case5 line c t _ hbreak ih =>
    rw [ih, List.append_assoc, List.singleton_append]

theorem splitLinesFrom_append {a : Text} (ha : ∀ c ∈ a, isLineBreak c = false) (line t : Text) :
    splitLinesFrom line (a ++ t) = splitLinesFrom (line ++ a) t := by
  induction a generalizing line with
  | nil => simp
  | cons c a ih =>
    have hc := ha c (by simp)
    rw [List.cons_append, splitLinesFrom]
    · rw [if_neg (by simp [hc]), ih (fun d hd => ha d (by simp [hd])), List.append_assoc]
      rfl
    · rintro u rfl -
      exact absurd hc (by decide)

/-- `text.replace("\r\n", "\n").replace("\r", "\n")` -/
def normalizeLineEnds : Text → Text
  | [] => []
  | '\r' :: '\n' :: t => '\n' :: normalizeLineEnds t
  | c :: t => (if c = '\r' then '\n' else c) :: normalizeLineEnds t

/-- The bytes of a character in UTF-8. -/
def utf8Char (c : Char) : List ℕ :=
  let n := c.toNat
  if n < 0x80 then [n]
  else if n < 0x800 then [0xc0 + n / 64, 0x80 + n % 64]
  else if n < 0x10000 then [0xe0 + n / 4096, 0x80 + n / 64 % 64, 0x80 + n % 64]
  else [0xf0 + n / 262144, 0x80 + n / 4096 % 64, 0x80 + n / 64 % 64, 0x80 + n % 64]

/-- `str.encode("utf-8")` -/
def utf8 (t : Text) : List ℕ := t.flatMap utf8Char

/-- A hexadecimal digit. -/
def hexDigit (n : ℕ) : Char := if n < 10 then Char.ofNat (48 + n) else Char.ofNat (87 + n)

/-- The last `count` hexadecimal digits of a number. -/
def hex (count n : ℕ) : Text := ((List.range count).map fun i => hexDigit (n / 16 ^ i % 16)).reverse

/-- `str` of a natural number. -/
def decimal (n : ℕ) : Text := Nat.toDigits 10 n

end Text

/-- The parts of the standard library that rest on tables or on machine arithmetic: Unicode normalisation and case
folding, the decimal digits of a regular expression, and the shortest decimal form of a float. -/
structure Platform where
  nfc : Text → Text
  casefold : Text → Text
  isDecimal : Char → Bool
  floatRepr : ℚ → Text

/-- The standard library on ASCII text and on integral floats. -/
def Platform.ascii : Platform :=
  ⟨id, List.map Char.toLower, Char.isDigit, fun q => Text.decimal q.num.natAbs ++ ['.', '0']⟩

/-- A SHA-256 digest, written with 64 hexadecimal digits. -/
structure Sha256 where
  value : Fin (2 ^ 256)
  deriving DecidableEq

namespace Sha256

/-- `hexdigest()` -/
def hexdigest (h : Sha256) : Text := Text.hex 64 h.value

/-- The first sixteen hexadecimal digits. -/
def prefix16 (h : Sha256) : Fin (2 ^ 64) :=
  ⟨h.value / 2 ^ 192, Nat.div_lt_of_lt_mul (by have := h.value.isLt; omega)⟩

end Sha256

/-- `hashlib.sha256(text.encode("utf-8")).hexdigest()` -/
def sha256 (t : Text) : Sha256 := ⟨Fin.ofNat _ (Sha256.digest t.utf8)⟩

/-- The identifier `span_…` of a source span. -/
structure SpanId where
  value : Fin (2 ^ 64)
  deriving DecidableEq

/-- The text of a span identifier. -/
def SpanId.text (i : SpanId) : Text := "span_".toList ++ Text.hex 16 i.value

/-- `make_span_id` -/
def makeSpanId (sourceHash : Sha256) (ordinal : ℕ) : SpanId :=
  ⟨(sha256 (sourceHash.hexdigest ++ ':' :: Text.decimal ordinal)).prefix16⟩

end ArdOssie
