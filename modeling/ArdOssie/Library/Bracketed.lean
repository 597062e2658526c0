import Mathlib.Data.List.Basic
import Mathlib.Data.List.Nodup

/-!
# Bracketed texts

Texts in which commas and closing brackets stand only inside brackets or quotes.  Such a text followed by a comma or a
closing bracket determines where it ends, so that a list of them can be read back from the comma-separated form.
-/

namespace ArdOssie

namespace Bracketed

/-- Inside or outside of a quoted part; after a backslash the next character stands for itself. -/
inductive Mode where
  | plain
  | quoted
  | escaped
  deriving DecidableEq

/-- A comma or a closing bracket. -/
def isDelimiter (c : Char) : Bool := c = ',' || c = ']' || c = '}'

/-- The depth and the mode after a character. -/
def next : ℕ × Mode → Char → ℕ × Mode
  | (depth, .escaped), _ => (depth, .quoted)
  | (depth, .quoted), c => if c = '"' then (depth, .plain) else if c = '\\' then (depth, .escaped) else (depth, .quoted)
  | (depth, .plain), c =>
    if c = '"' then (depth, .quoted)
    else if c = '[' ∨ c = '{' then (depth + 1, .plain)
    else if c = ']' ∨ c = '}' then (depth - 1, .plain)
    else (depth, .plain)

/-- A delimiter that stands outside of all brackets and quotes. -/
def stops (s : ℕ × Mode) (c : Char) : Bool := s = (0, .plain) && isDelimiter c

/-- The state after a text; `none` when an open delimiter comes first. -/
def scan : ℕ × Mode → List Char → Option (ℕ × Mode)
  | s, [] => some s
  | s, c :: t => if stops s c then none else scan (next s c) t

theorem scan_append {s : ℕ × Mode} {t u : List Char} : scan s (t ++ u) = (scan s t).bind fun s' => scan s' u := by
  induction t generalizing s with
  | nil => rfl
  | cons c t ih =>
    rw [List.cons_append, scan, scan]
    by_cases hc : stops s c
    · rw [if_pos hc, if_pos hc]
      rfl
    · rw [if_neg hc, if_neg hc, ih]

/-- A text that leaves every depth as it finds it. -/
def Closed (t : List Char) : Prop := ∀ depth, scan (depth, .plain) t = some (depth, .plain)

theorem closed_nil : Closed [] := fun _ => rfl

theorem Closed.append {t u : List Char} (ht : Closed t) (hu : Closed u) : Closed (t ++ u) := by
  intro depth
  rw [scan_append, ht, Option.bind_some, hu]

/-- A character without a meaning of its own. -/
def isPlain (c : Char) : Bool := !(isDelimiter c || c = '[' || c = '{' || c = '"')

private theorem scan_plain {c : Char} (hc : isPlain c) (depth : ℕ) (t : List Char) :
    scan (depth, .plain) (c :: t) = scan (depth, .plain) t := by
  simp only [isPlain, isDelimiter, Bool.not_eq_true', Bool.or_eq_false_iff, decide_eq_false_iff_not] at hc
  obtain ⟨⟨⟨⟨⟨hcomma, hbracket⟩, hbrace⟩, hopen⟩, hopen'⟩, hquote⟩ := hc
  have hstop : stops (depth, .plain) c = false := by simp [stops, isDelimiter, hcomma, hbracket, hbrace]
  have hnext : next (depth, .plain) c = (depth, .plain) := by simp [next, hquote, hopen, hopen', hbracket, hbrace]
  rw [scan, hstop, hnext]
  rfl

theorem closed_of_plain {t : List Char} (h : ∀ c ∈ t, isPlain c) : Closed t := by
  intro depth
  induction t with
  | nil => rfl
  | cons c t ih =>
    rw [scan_plain (h c (by simp))]
    exact ih fun c hc => h c (by simp [hc])

theorem Closed.cons {c : Char} {t : List Char} (hc : isPlain c) (ht : Closed t) : Closed (c :: t) := by
  intro depth
  rw [scan_plain hc, ht]

/-- A text in which commas may stand outside of brackets. -/
def ClosedInside (t : List Char) : Prop := ∀ depth, scan (depth + 1, .plain) t = some (depth + 1, .plain)

theorem Closed.inside {t : List Char} (h : Closed t) : ClosedInside t := fun depth => h (depth + 1)

theorem ClosedInside.comma {t u : List Char} (ht : ClosedInside t) (hu : ClosedInside u) :
    ClosedInside (t ++ ',' :: u) := by
  intro depth
  rw [scan_append, ht, Option.bind_some]
  exact hu depth

/-- Brackets around a text close it. -/
theorem closed_brackets {t : List Char} {left right : Char} (hleft : left = '[' ∨ left = '{')
    (hright : right = ']' ∨ right = '}') (ht : ClosedInside t) : Closed (left :: (t ++ [right])) := by
  intro depth
  have hopen : scan (depth, .plain) (left :: (t ++ [right])) = scan (depth + 1, .plain) (t ++ [right]) := by
    rcases hleft with rfl | rfl <;> simp [scan, stops, isDelimiter, next]
  rw [hopen, scan_append, ht, Option.bind_some]
  rcases hright with rfl | rfl <;> simp [scan, stops, next]

private theorem not_closed_delimiter {t a : List Char} {c : Char} (ht : Closed t) (hc : isDelimiter c) :
    ¬ Closed (t ++ c :: a) := by
  intro h
  have hscan := h 0
  rw [scan_append, ht, Option.bind_some, scan, if_pos (by simp [stops, hc])] at hscan
  cases hscan

/-- Two closed texts that are followed by a delimiter are equal when the whole texts are. -/
theorem eq_of_append_eq {t u : List Char} (ht : Closed t) (hu : Closed u) {c d : Char} (hc : isDelimiter c)
    (hd : isDelimiter d) {r s : List Char} (h : t ++ c :: r = u ++ d :: s) : t = u ∧ c :: r = d :: s := by
  rcases List.append_eq_append_iff.1 h with ⟨a, rfl, hrest⟩ | ⟨a, rfl, hrest⟩
  · cases a with
    | nil => exact ⟨(List.append_nil t).symm, hrest⟩
    | cons x a =>
      rw [List.cons_append] at hrest
      obtain ⟨rfl, -⟩ := List.cons.inj hrest
      exact absurd hu (not_closed_delimiter ht hc)
  · cases a with
    | nil => exact ⟨List.append_nil u, hrest.symm⟩
    | cons x a =>
      rw [List.cons_append] at hrest
      obtain ⟨rfl, -⟩ := List.cons.inj hrest
      exact absurd ht (not_closed_delimiter hu hd)

/-! ### Comma-separated texts -/

/-- The texts with commas between them. -/
def joined (items : List (List Char)) : List Char := (items.intersperse [',']).flatten

@[simp] theorem joined_nil : joined [] = [] := rfl

@[simp] theorem joined_singleton (t : List Char) : joined [t] = t := by simp [joined]

@[simp] theorem joined_cons_cons (t u : List Char) (items : List (List Char)) :
    joined (t :: u :: items) = t ++ ',' :: joined (u :: items) := by simp [joined]

theorem closedInside_joined {items : List (List Char)} (h : ∀ t ∈ items, Closed t) : ClosedInside (joined items) := by
  induction items with
  | nil => exact closed_nil.inside
  | cons t items ih =>
    cases items with
    | nil =>
      rw [joined_singleton]
      exact (h t (by simp)).inside
    | cons u items =>
      rw [joined_cons_cons]
      exact (h t (by simp)).inside.comma (ih fun v hv => h v (List.mem_cons_of_mem _ hv))

private theorem joined_ne_nil {t : List Char} {items : List (List Char)} (ht : t ≠ []) : joined (t :: items) ≠ [] := by
  cases items with
  | nil => rwa [joined_singleton]
  | cons u items => simp

/-- A list of closed texts can be read back from its comma-separated form and the closing bracket. -/
theorem joined_injective {items items' : List (List Char)} {right : Char} (hright : right = ']' ∨ right = '}')
    (h : ∀ t ∈ items, Closed t ∧ t ≠ []) (h' : ∀ t ∈ items', Closed t ∧ t ≠ [])
    (heq : joined items ++ [right] = joined items' ++ [right]) : items = items' := by
  have hdelimiter : isDelimiter right := by rcases hright with rfl | rfl <;> rfl
  have hcomma : right ≠ ',' := by rcases hright with rfl | rfl <;> decide
  induction items generalizing items' with
  | nil =>
    cases items' with
    | nil => rfl
    | cons u items' =>
      have hnil := List.append_cancel_right heq
      exact absurd hnil.symm (joined_ne_nil (h' u (by simp)).2)
  | cons t items ih =>
    cases items' with
    | nil =>
      have hnil := List.append_cancel_right heq
      exact absurd hnil (joined_ne_nil (h t (by simp)).2)
    | cons u items' =>
      have ht := (h t (by simp)).1
      have hu := (h' u (by simp)).1
      cases items with
      | nil =>
        cases items' with
        | nil => rw [joined_singleton, joined_singleton] at heq; rw [List.append_cancel_right heq]
        | cons v items' =>
          rw [joined_singleton, joined_cons_cons, List.append_assoc, List.cons_append] at heq
          have hrest := (eq_of_append_eq ht hu hdelimiter rfl heq).2
          exact absurd (List.cons.inj hrest).1 hcomma
      | cons v items =>
        rw [joined_cons_cons, List.append_assoc, List.cons_append] at heq
        cases items' with
        | nil =>
          rw [joined_singleton] at heq
          have hrest := (eq_of_append_eq ht hu rfl hdelimiter heq).2
          exact absurd (List.cons.inj hrest).1.symm hcomma
        | cons w items' =>
          rw [joined_cons_cons, List.append_assoc, List.cons_append] at heq
          obtain ⟨rfl, hrest⟩ := eq_of_append_eq ht hu rfl rfl heq
          rw [ih (fun x hx => h x (List.mem_cons_of_mem _ hx)) (fun x hx => h' x (List.mem_cons_of_mem _ hx))
            (List.cons.inj hrest).2]

end Bracketed

end ArdOssie
