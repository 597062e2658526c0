import ArdOssie.Library.RegexLanguages
import ArdOssie.Library.Windows
import Mathlib.Data.List.Forall2

/-!
# Repository checks

The scan of a file for secrets reads it in chunks and searches each chunk together with the last 512 bytes before it.
-/

namespace ArdOssie

section SecretPatterns

open Regex

/-- The characters of a literal. -/
private def literalChars (t : String) : List (Char → Bool) := t.toList.map fun c d => d == c

/-- A literal, given with its last character. -/
private def literal (t : String) (last : Char) : Regex := sequence (char fun d => d == last) ((literalChars t).map char)

private def isTokenChar (c : Char) : Bool := c.isAlphanum || c == '_' || c == '-'

private def isKeyChar (c : Char) : Bool := c.isDigit || c.isUpper

/-- `gh[pousr]_[A-Za-z0-9]{36,255}` -/
def githubTokenPattern : Regex :=
  sequence (repeated (char Char.isAlphanum) 35 219 (char Char.isAlphanum))
    ((literalChars "gh" ++ (fun c => "pousr".toList.contains c) :: literalChars "_").map char)

/-- `sk-[A-Za-z0-9_-]{20,}` -/
def apiKeyPattern : Regex :=
  sequence (star (char isTokenChar)) ((literalChars "sk-" ++ List.replicate 20 isTokenChar).map char)

/-- `AKIA[0-9A-Z]{16}` -/
def accessKeyPattern : Regex :=
  sequence (char isKeyChar) ((literalChars "AKIA" ++ List.replicate 15 isKeyChar).map char)

/-- `-----BEGIN (?:RSA |EC |OPENSSH )?PRIVATE KEY-----` -/
def privateKeyPattern : Regex :=
  sequence (seq (opt (alt (literal "RSA" ' ') (alt (literal "EC" ' ') (literal "OPENSSH" ' '))))
    (literal "PRIVATE KEY----" '-')) ((literalChars "-----BEGIN ").map char)

/-- `_SECRET_PATTERNS` -/
def secretPatterns : List Regex := [githubTokenPattern, apiKeyPattern, accessKeyPattern, privateKeyPattern]

/-- `_SECRET_SCAN_OVERLAP_BYTES` -/
def secretScanOverlapBytes : ℕ := 512

/-- `any(pattern.search(content) for pattern in _SECRET_PATTERNS)`; a byte is searched as the character of its number -/
def containsSecret (content : List ℕ) : Bool := secretPatterns.any fun r => r.occursIn (content.map Char.ofNat)

/-- `_stream_contains_secret` of the chunks that are read -/
def streamContainsSecret (chunks : List (List ℕ)) : Bool := scanWindows containsSecret secretScanOverlapBytes [] chunks

/-! ### Every secret has a short one inside -/

/-- Every text of the expression has a part of the expression that fits a window. -/
private def ShortInside (r : Regex) : Prop :=
  ∀ w, r.Accepts w → ∃ v, v <:+: w ∧ v.length ≤ secretScanOverlapBytes + 1 ∧ r.Accepts v

private theorem shortInside_of_maxLength {r : Regex} {n : ℕ} (hn : r.maxLength = some n)
    (hle : n ≤ secretScanOverlapBytes + 1) : ShortInside r :=
  fun w h => ⟨w, List.infix_rfl, (length_le_of_accepts hn h).trans hle, h⟩

/-- An unbounded end may be left out. -/
private theorem shortInside_apiKeyPattern : ShortInside apiKeyPattern := by
  intro w h
  obtain ⟨u, v, rfl, hu, -⟩ := accepts_sequence_chars.1 h
  refine ⟨u, List.infix_append_left, ?_, accepts_sequence_chars.2 ⟨u, [], (List.append_nil u).symm, hu, ?_⟩⟩
  · rw [← hu.length_eq]
    decide
  · intro x hx
    cases hx

private theorem simple_literal (t : String) (last : Char) : (literal t last).Simple := by
  refine simple_sequence trivial fun r hr => ?_
  obtain ⟨accepts, -, rfl⟩ := List.mem_map.1 hr
  trivial

private theorem simple_secretPatterns : ∀ r ∈ secretPatterns, r.Simple := by
  have hchars (last : Regex) (hlast : last.Simple) (accepted : List (Char → Bool)) :
      (sequence last (accepted.map char)).Simple := by
    refine simple_sequence hlast fun r hr => ?_
    obtain ⟨accepts, -, rfl⟩ := List.mem_map.1 hr
    trivial
  unfold secretPatterns
  simp only [List.forall_mem_cons, List.not_mem_nil, false_implies, implies_true, and_true]
  refine ⟨hchars _ (simple_repeated ?_ ?_ 35 219) _, hchars _ ?_ _, hchars _ ?_ _, hchars _ ?_ _⟩
  · trivial
  · trivial
  · trivial
  · trivial
  · exact ⟨⟨simple_literal _ _, simple_literal _ _, simple_literal _ _⟩, simple_literal _ _⟩

/-- No pattern matches without reading a byte. -/
private theorem not_accepts_nil : ∀ r ∈ secretPatterns, ¬ r.Accepts [] := by
  have hchars (last : Regex) (accepted : List (Char → Bool)) (hne : accepted ≠ []) :
      ¬ (sequence last (accepted.map char)).Accepts [] := by
    intro h
    obtain ⟨u, v, hw, hu, -⟩ := accepts_sequence_chars.1 h
    obtain ⟨rfl, rfl⟩ := List.append_eq_nil_iff.1 hw.symm
    exact hne (List.length_eq_zero_iff.1 hu.length_eq)
  unfold secretPatterns
  simp only [List.forall_mem_cons, List.not_mem_nil, false_implies, implies_true, and_true]
  exact ⟨hchars _ _ (by simp), hchars _ _ (by simp), hchars _ _ (by simp [literalChars]), hchars _ _ (by simp [literalChars])⟩

private theorem shortInside_secretPatterns : ∀ r ∈ secretPatterns, ShortInside r := by
  unfold secretPatterns
  simp only [List.forall_mem_cons, List.not_mem_nil, false_implies, implies_true, and_true]
  refine ⟨shortInside_of_maxLength (n := 259) ?_ (by decide), shortInside_apiKeyPattern,
    shortInside_of_maxLength (n := 20) ?_ (by decide), shortInside_of_maxLength (n := 35) ?_ (by decide)⟩
  · decide +kernel
  · decide +kernel
  · decide +kernel

end SecretPatterns

private theorem containsSecret_iff {content : List ℕ} : containsSecret content = true ↔
    ∃ r ∈ secretPatterns, ∃ v, v <:+: content ∧ r.Accepts (v.map Char.ofNat) := by
  rw [containsSecret, List.any_eq_true]
  refine exists_congr fun r => and_congr_right fun hr => ?_
  rw [Regex.occursIn_iff_accepts (simple_secretPatterns r hr) (not_accepts_nil r hr)]
  constructor
  · rintro ⟨w, hw, haccepts⟩
    obtain ⟨v, hv, rfl⟩ := List.infix_map_iff.1 hw
    exact ⟨v, hv, haccepts⟩
  · rintro ⟨v, hv, haccepts⟩
    exact ⟨_, hv.map _, haccepts⟩

/-- A content has a secret exactly when a part of it that fits a window has one. -/
theorem foundWithin_containsSecret : FoundWithin containsSecret (secretScanOverlapBytes + 1) := by
  intro content
  constructor
  · intro h
    obtain ⟨r, hr, v, hv, haccepts⟩ := containsSecret_iff.1 h
    obtain ⟨w, hw, hlength, haccepts⟩ := shortInside_secretPatterns r hr _ haccepts
    obtain ⟨u, hu, rfl⟩ := List.infix_map_iff.1 hw
    rw [List.length_map] at hlength
    exact ⟨u, hu.trans hv, hlength, containsSecret_iff.2 ⟨r, hr, u, List.infix_rfl, haccepts⟩⟩
  · rintro ⟨w, hw, -, h⟩
    obtain ⟨r, hr, v, hv, haccepts⟩ := containsSecret_iff.1 h
    exact containsSecret_iff.2 ⟨r, hr, v, hv.trans hw, haccepts⟩

/-- The scan of non-empty chunks finds a secret exactly when some pattern matches somewhere in the whole. -/
theorem streamContainsSecret_eq {chunks : List (List ℕ)} (h : ∀ c ∈ chunks, c ≠ []) :
    streamContainsSecret chunks =
      secretPatterns.any fun r => r.occursIn (chunks.flatten.map Char.ofNat) :=
  scanWindows_eq foundWithin_containsSecret (by decide +kernel) h

/-- An access key that is cut by the end of a chunk is found. -/
theorem streamContainsSecret_eq_cut :
    streamContainsSecret (["..AKI", "A0123456789", "ABCDEF."].map fun t => t.toList.map Char.toNat) = true :=
  (streamContainsSecret_eq (by decide)).trans (by decide +kernel)

end ArdOssie
