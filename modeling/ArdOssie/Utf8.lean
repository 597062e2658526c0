import ArdOssie.Text

/-!
# Decoding UTF-8

A decoder that never fails: what stands for a malformed part is a parameter.  On the bytes of a text that end too
early it returns the characters that are complete, and at most one mark for the last one.
-/

namespace ArdOssie

namespace Utf8

/-- An open sequence: the bytes that are missing after the next one, the bounds of the next one, and the bits so far. -/
structure Pending where
  more : ℕ
  low : ℕ
  high : ℕ
  bits : ℕ

section Decoder

variable (mark : Text)

/-- The characters and the open sequence after a byte that begins anew. -/
def begin (b : ℕ) : Text × Option Pending :=
  if b < 0x80 then ([Char.ofNat b], none)
  else if b < 0xc2 then (mark, none)
  else if b < 0xe0 then ([], some ⟨0, 0x80, 0xbf, b - 0xc0⟩)
  else if b < 0xf0 then
    ([], some ⟨1, if b = 0xe0 then 0xa0 else 0x80, if b = 0xed then 0x9f else 0xbf, b - 0xe0⟩)
  else if b < 0xf5 then
    ([], some ⟨2, if b = 0xf0 then 0x90 else 0x80, if b = 0xf4 then 0x8f else 0xbf, b - 0xf0⟩)
  else (mark, none)

/-- The characters and the open sequence after one more byte. -/
def advance : Option Pending → ℕ → Text × Option Pending
  | none, b => begin mark b
  | some p, b =>
    if p.low ≤ b ∧ b ≤ p.high then
      match p.more with
      | 0 => ([Char.ofNat (p.bits * 64 + (b - 0x80))], none)
      | more + 1 => ([], some ⟨more, 0x80, 0xbf, p.bits * 64 + (b - 0x80)⟩)
    else (mark ++ (begin mark b).1, (begin mark b).2)

/-- The characters of the bytes that follow an open sequence. -/
def decodeFrom : Option Pending → List ℕ → Text
  | none, [] => []
  | some _, [] => mark
  | open?, b :: bytes => (advance mark open? b).1 ++ decodeFrom (advance mark open? b).2 bytes

/-- `bytes.decode("utf-8", errors)` with a mark for every malformed part -/
def decode (bytes : List ℕ) : Text := decodeFrom mark none bytes

end Decoder

variable {mark : Text}

theorem decodeFrom_cons (s : Option Pending) (b : ℕ) (bytes : List ℕ) :
    decodeFrom mark s (b :: bytes) = (advance mark s b).1 ++ decodeFrom mark (advance mark s b).2 bytes := by
  cases s <;> rfl

/-! ### Bytes of one character -/

private theorem decode_char {b : ℕ} (h : b < 0x80) (bytes : List ℕ) :
    decodeFrom mark none (b :: bytes) = Char.ofNat b :: decodeFrom mark none bytes := by
  have hbegin : begin mark b = ([Char.ofNat b], none) := if_pos h
  rw [decodeFrom_cons, advance, hbegin]
  rfl

private theorem decode_two {b : ℕ} (h : 0xc2 ≤ b ∧ b < 0xe0) (bytes : List ℕ) :
    decodeFrom mark none (b :: bytes) = decodeFrom mark (some ⟨0, 0x80, 0xbf, b - 0xc0⟩) bytes := by
  have hbegin : begin mark b = ([], some ⟨0, 0x80, 0xbf, b - 0xc0⟩) := by
    unfold begin
    rw [if_neg (by omega), if_neg (by omega), if_pos h.2]
  rw [decodeFrom_cons, advance, hbegin]
  rfl

private theorem decode_three {b : ℕ} (h : 0xe0 ≤ b ∧ b < 0xf0) (bytes : List ℕ) :
    decodeFrom mark none (b :: bytes) = decodeFrom mark
      (some ⟨1, if b = 0xe0 then 0xa0 else 0x80, if b = 0xed then 0x9f else 0xbf, b - 0xe0⟩) bytes := by
  have hbegin : begin mark b =
      ([], some ⟨1, if b = 0xe0 then 0xa0 else 0x80, if b = 0xed then 0x9f else 0xbf, b - 0xe0⟩) := by
    unfold begin
    rw [if_neg (by omega), if_neg (by omega), if_neg (by omega), if_pos h.2]
  rw [decodeFrom_cons, advance, hbegin]
  rfl

private theorem decode_four {b : ℕ} (h : 0xf0 ≤ b ∧ b < 0xf5) (bytes : List ℕ) :
    decodeFrom mark none (b :: bytes) = decodeFrom mark
      (some ⟨2, if b = 0xf0 then 0x90 else 0x80, if b = 0xf4 then 0x8f else 0xbf, b - 0xf0⟩) bytes := by
  have hbegin : begin mark b =
      ([], some ⟨2, if b = 0xf0 then 0x90 else 0x80, if b = 0xf4 then 0x8f else 0xbf, b - 0xf0⟩) := by
    unfold begin
    rw [if_neg (by omega), if_neg (by omega), if_neg (by omega), if_neg (by omega), if_pos h.2]
  rw [decodeFrom_cons, advance, hbegin]
  rfl

private theorem decode_next {more low high bits b : ℕ} (h : low ≤ b ∧ b ≤ high) (bytes : List ℕ) :
    decodeFrom mark (some ⟨more + 1, low, high, bits⟩) (b :: bytes) =
      decodeFrom mark (some ⟨more, 0x80, 0xbf, bits * 64 + (b - 0x80)⟩) bytes := by
  have hadvance : advance mark (some ⟨more + 1, low, high, bits⟩) b =
      ([], some ⟨more, 0x80, 0xbf, bits * 64 + (b - 0x80)⟩) := if_pos h
  rw [decodeFrom_cons, hadvance]
  rfl

private theorem decode_last {low high bits b : ℕ} (h : low ≤ b ∧ b ≤ high) (bytes : List ℕ) :
    decodeFrom mark (some ⟨0, low, high, bits⟩) (b :: bytes) =
      Char.ofNat (bits * 64 + (b - 0x80)) :: decodeFrom mark none bytes := by
  have hadvance : advance mark (some ⟨0, low, high, bits⟩) b = ([Char.ofNat (bits * 64 + (b - 0x80))], none) := if_pos h
  rw [decodeFrom_cons, hadvance]
  rfl

/-- The second byte of three is in the bounds that the first one sets. -/
private theorem bounds_three {n : ℕ} (hvalid : n < 0xd800 ∨ 0xdfff < n) (hlow : ¬ n < 0x800) (hhigh : n < 0x10000) :
    (if 0xe0 + n / 4096 = 0xe0 then 0xa0 else 0x80) ≤ 0x80 + n / 64 % 64 ∧
      0x80 + n / 64 % 64 ≤ if 0xe0 + n / 4096 = 0xed then 0x9f else 0xbf := by
  split_ifs <;> omega

/-- The second byte of four is in the bounds that the first one sets. -/
private theorem bounds_four {n : ℕ} (hvalid : n < 0x110000) (hlow : ¬ n < 0x10000) :
    (if 0xf0 + n / 262144 = 0xf0 then 0x90 else 0x80) ≤ 0x80 + n / 4096 % 64 ∧
      0x80 + n / 4096 % 64 ≤ if 0xf0 + n / 262144 = 0xf4 then 0x8f else 0xbf := by
  split_ifs <;> omega

private theorem toNat_valid (c : Char) : (c.toNat < 0xd800 ∨ 0xdfff < c.toNat) ∧ c.toNat < 0x110000 := by
  have hvalid : c.toNat < 0xd800 ∨ 0xdfff < c.toNat ∧ c.toNat < 0x110000 := c.valid
  omega

/-- A complete character is decoded. -/
theorem decode_utf8Char (c : Char) (bytes : List ℕ) :
    decodeFrom mark none (Text.utf8Char c ++ bytes) = c :: decodeFrom mark none bytes := by
  obtain ⟨hscalar, hbound⟩ := toNat_valid c
  have hback : Char.ofNat c.toNat = c := Char.ofNat_toNat c
  unfold Text.utf8Char
  generalize c.toNat = n at *
  simp only []
  split_ifs with h₁ h₂ h₃
  · rw [List.singleton_append, decode_char h₁, hback]
  · have hbits : (0xc0 + n / 64 - 0xc0) * 64 + (0x80 + n % 64 - 0x80) = n := by omega
    show decodeFrom mark none (_ :: _ :: bytes) = _
    rw [decode_two (by omega), decode_last (by omega), hbits, hback]
  · have hbits : ((0xe0 + n / 4096 - 0xe0) * 64 + (0x80 + n / 64 % 64 - 0x80)) * 64 + (0x80 + n % 64 - 0x80) = n := by
      omega
    show decodeFrom mark none (_ :: _ :: _ :: bytes) = _
    rw [decode_three (by omega), decode_next (bounds_three hscalar h₂ h₃), decode_last (by omega), hbits, hback]
  · have hbits : (((0xf0 + n / 262144 - 0xf0) * 64 + (0x80 + n / 4096 % 64 - 0x80)) * 64 +
        (0x80 + n / 64 % 64 - 0x80)) * 64 + (0x80 + n % 64 - 0x80) = n := by omega
    show decodeFrom mark none (_ :: _ :: _ :: _ :: bytes) = _
    rw [decode_four (by omega), decode_next (bounds_four hbound h₃), decode_next (by omega), decode_last (by omega),
      hbits, hback]

/-- The bytes of a character that are cut off leave one mark. -/
theorem decode_partial {c : Char} {part rest : List ℕ} (h : Text.utf8Char c = part ++ rest) (hpart : part ≠ [])
    (hrest : rest ≠ []) : decodeFrom mark none part = mark := by
  obtain ⟨hscalar, hbound⟩ := toNat_valid c
  unfold Text.utf8Char at h
  generalize c.toNat = n at *
  obtain ⟨b, part, rfl⟩ := List.exists_cons_of_ne_nil hpart
  simp only [List.cons_append] at h
  split_ifs at h with h₁ h₂ h₃
  · exact absurd (List.append_eq_nil_iff.1 (List.cons.inj h).2.symm).2 hrest
  · obtain ⟨rfl, htail⟩ := List.cons.inj h
    rw [decode_two (by omega)]
    cases part with
    | nil => rfl
    | cons b part => exact absurd (List.append_eq_nil_iff.1 (List.cons.inj htail).2.symm).2 hrest
  · obtain ⟨rfl, htail⟩ := List.cons.inj h
    rw [decode_three (by omega)]
    cases part with
    | nil => rfl
    | cons b part =>
      obtain ⟨rfl, hlast⟩ := List.cons.inj htail
      rw [decode_next (bounds_three hscalar h₂ h₃)]
      cases part with
      | nil => rfl
      | cons b part => exact absurd (List.append_eq_nil_iff.1 (List.cons.inj hlast).2.symm).2 hrest
  · obtain ⟨rfl, htail⟩ := List.cons.inj h
    rw [decode_four (by omega)]
    cases part with
    | nil => rfl
    | cons b part =>
      obtain ⟨rfl, hmiddle⟩ := List.cons.inj htail
      rw [decode_next (bounds_four hbound h₃)]
      cases part with
      | nil => rfl
      | cons b part =>
        obtain ⟨rfl, hlast⟩ := List.cons.inj hmiddle
        rw [decode_next (by omega)]
        cases part with
        | nil => rfl
        | cons b part => exact absurd (List.append_eq_nil_iff.1 (List.cons.inj hlast).2.symm).2 hrest

/-! ### Texts -/

theorem decodeFrom_utf8_append (t : Text) (bytes : List ℕ) :
    decodeFrom mark none (t.utf8 ++ bytes) = t ++ decodeFrom mark none bytes := by
  induction t with
  | nil => rfl
  | cons c t ih =>
    rw [Text.utf8, List.flatMap_cons, List.append_assoc, decode_utf8Char]
    exact congrArg (c :: ·) ih

/-- The bytes of a text are decoded to the text. -/
@[simp] theorem decode_utf8 (t : Text) : decode mark t.utf8 = t := by
  have h : decodeFrom mark none (t.utf8 ++ []) = t ++ decodeFrom mark none [] := decodeFrom_utf8_append t []
  rwa [List.append_nil, decodeFrom, List.append_nil] at h

theorem utf8_injective : Function.Injective Text.utf8 :=
  Function.LeftInverse.injective (g := decode []) decode_utf8

@[simp] theorem utf8_append (t t' : Text) : (t ++ t').utf8 = t.utf8 ++ t'.utf8 := List.flatMap_append

@[simp] theorem utf8_cons (c : Char) (t : Text) : Text.utf8 (c :: t) = Text.utf8Char c ++ t.utf8 := rfl

@[simp] theorem utf8_nil : Text.utf8 [] = [] := rfl

theorem utf8Char_length (c : Char) : 1 ≤ (Text.utf8Char c).length ∧ (Text.utf8Char c).length ≤ 4 := by
  unfold Text.utf8Char
  simp only []
  split_ifs <;> simp

/-- The first bytes of a text are the text, or the bytes of its first characters and of a part of the next one. -/
theorem take_utf8 (t : Text) (n : ℕ) : t.utf8.length ≤ n ∨
    ∃ (before : Text) (c : Char) (after : Text) (part rest : List ℕ), t = before ++ c :: after ∧
      t.utf8.take n = before.utf8 ++ part ∧ Text.utf8Char c = part ++ rest ∧ rest ≠ [] := by
  induction t generalizing n with
  | nil => exact Or.inl (Nat.zero_le n)
  | cons c t ih =>
    by_cases hc : (Text.utf8Char c).length ≤ n
    · rcases ih (n - (Text.utf8Char c).length) with hall | ⟨before, d, after, part, rest, rfl, htake, hd, hrest⟩
      · left
        rw [utf8_cons, List.length_append]
        omega
      · refine Or.inr ⟨c :: before, d, after, part, rest, rfl, ?_, hd, hrest⟩
        rw [utf8_cons, List.take_append, htake, List.take_of_length_le hc, utf8_cons, List.append_assoc]
    · refine Or.inr ⟨[], c, t, (Text.utf8Char c).take n, (Text.utf8Char c).drop n, rfl, ?_,
        (List.take_append_drop _ _).symm, ?_⟩
      · rw [utf8_cons, List.take_append_of_le_length (by omega)]
        rfl
      · rw [Ne, List.drop_eq_nil_iff]
        exact hc

/-- The text of bytes that end within or after a character. -/
theorem decode_utf8_append_part {t : Text} {c : Char} {part rest : List ℕ} (h : Text.utf8Char c = part ++ rest)
    (hrest : rest ≠ []) : decode mark (t.utf8 ++ part) = t ++ if part = [] then [] else mark := by
  unfold decode
  rw [decodeFrom_utf8_append]
  by_cases hpart : part = []
  · rw [if_pos hpart, hpart]
    rfl
  · rw [if_neg hpart, decode_partial h hpart hrest]

end Utf8

end ArdOssie
