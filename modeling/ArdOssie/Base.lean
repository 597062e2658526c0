import Mathlib

/-!
# Exceptions and dictionaries

The exceptions of the program that a caller can observe.  A function that may raise returns in `PyResult`; a
dictionary whose iteration order nothing depends on is an association list with distinct keys.
-/

namespace ArdOssie

/-- The exceptions of the program, with the code that the program gives them. -/
inductive PyError where
  | valueError (code : String)
  /-- A validation error of a record; it is a `ValueError` whose text is not a code. -/
  | validationError (codes : List String)
  | keyError
  | indexError
  | assertionError
  | stopIteration
  | providerError (code : String)
  deriving DecidableEq, Repr

/-- The result of code that may raise. -/
abbrev PyResult := Except PyError

/-- `if condition: raise error` -/
def raiseIf (condition : Prop) [Decidable condition] (error : PyError) : PyResult Unit :=
  if condition then .error error else .ok ()

theorem raiseIf_eq_ok {condition : Prop} [Decidable condition] {error : PyError} {u : Unit} :
    raiseIf condition error = .ok u ↔ ¬ condition := by
  unfold raiseIf
  split <;> simp_all

/-- The code after a check runs when the check passes. -/
theorem raiseIf_bind_eq_ok {α : Type} {condition : Prop} [Decidable condition] {error : PyError}
    {f : Unit → PyResult α} {a : α} : (raiseIf condition error >>= f) = .ok a ↔ ¬ condition ∧ f () = .ok a := by
  unfold raiseIf
  split <;> simp_all [bind, Except.bind]

/-! ### Named instances -/

instance text_lawfulBEq : LawfulBEq (List Char) := inferInstance

instance texts_lawfulBEq : LawfulBEq (List (List Char)) := inferInstance

instance place_lawfulBEq : LawfulBEq (ℕ × ℕ) := inferInstance

instance identifiers_neZero : NeZero (2 ^ 64) := inferInstance

instance hashes_neZero : NeZero (2 ^ 256) := inferInstance

instance rat_minEqOr : Std.MinEqOr ℚ := inferInstance

/-- One is a score. -/
theorem one_mem_unit : (0 : ℚ) ≤ 1 ∧ (1 : ℚ) ≤ 1 := ⟨zero_le_one, le_rfl⟩

/-- One is the height of a page. -/
theorem one_mem_height : (0 : ℚ) < 1 ∧ (1 : ℚ) ≤ 1 := ⟨zero_lt_one, le_rfl⟩

/-! ### Dictionaries -/

/-- A dictionary. -/
abbrev Dict (κ ν : Type) := AList (fun _ : κ => ν)

/-- The exception of a result. -/
def raised {α : Type} : PyResult α → Option PyError
  | .error e => some e
  | .ok _ => none

theorem raised_eq_some {α : Type} {r : PyResult α} {e : PyError} : raised r = some e ↔ r = .error e := by
  cases r <;> simp [raised]

namespace Dict

variable {κ ν : Type} [DecidableEq κ]

/-- `dictionary[key]`. -/
def getItem (d : Dict κ ν) (k : κ) : PyResult ν :=
  match d.lookup k with
  | some v => .ok v
  | none => .error .keyError

theorem getItem_eq_ok {d : Dict κ ν} {k : κ} {v : ν} : getItem d k = .ok v ↔ d.lookup k = some v := by
  unfold getItem
  split <;> simp_all

/-- The dictionary of a list of pairs; a later pair replaces an earlier one with the same key. -/
def ofList (l : List (κ × ν)) : Dict κ ν := l.foldl (fun d p => d.insert p.1 p.2) ∅

/-- Inserting pairs leaves the other keys. -/
theorem lookup_foldl_insert (l : List (κ × ν)) (d : Dict κ ν) {k : κ} (hk : k ∉ l.map Prod.fst) :
    (l.foldl (fun d p => d.insert p.1 p.2) d : Dict κ ν).lookup k = d.lookup k := by
  induction l generalizing d with
  | nil => rfl
  | cons p l ih =>
    simp only [List.map_cons, List.mem_cons, not_or] at hk
    rw [List.foldl_cons, ih _ hk.2, AList.lookup_insert_ne hk.1]

/-- With distinct keys every inserted pair is in the dictionary. -/
theorem lookup_foldl_insert_of_mem {l : List (κ × ν)} (hl : (l.map Prod.fst).Nodup) (d : Dict κ ν) {k : κ} {v : ν}
    (h : (k, v) ∈ l) : (l.foldl (fun d p => d.insert p.1 p.2) d : Dict κ ν).lookup k = some v := by
  induction l generalizing d with
  | nil => cases h
  | cons p l ih =>
    obtain ⟨hp, hl⟩ := List.nodup_cons.1 hl
    rw [List.foldl_cons]
    rcases List.mem_cons.1 h with rfl | h
    · rw [lookup_foldl_insert l _ hp, AList.lookup_insert]
    · exact ih hl _ h

/-- With distinct keys every pair of the list is in the dictionary. -/
theorem lookup_ofList {l : List (κ × ν)} (hl : (l.map Prod.fst).Nodup) {k : κ} {v : ν} (h : (k, v) ∈ l) :
    (ofList l).lookup k = some v := lookup_foldl_insert_of_mem hl ∅ h

/-- A key that is not in the list is not in the dictionary. -/
theorem lookup_ofList_eq_none {l : List (κ × ν)} {k : κ} (h : k ∉ l.map Prod.fst) : (ofList l).lookup k = none :=
  lookup_foldl_insert l ∅ h

/-- Every entry of the dictionary is a pair of the list. -/
theorem mem_of_lookup_ofList {l : List (κ × ν)} {k : κ} {v : ν} (h : (ofList l).lookup k = some v) : (k, v) ∈ l := by
  have general : ∀ (l : List (κ × ν)) (d : Dict κ ν),
      (l.foldl (fun d p => d.insert p.1 p.2) d : Dict κ ν).lookup k = some v →
        (k, v) ∈ l ∨ d.lookup k = some v := by
    intro l
    induction l with
    | nil => exact fun d h => Or.inr h
    | cons p l ih =>
      intro d h
      rcases ih _ h with h | h
      · exact Or.inl (List.mem_cons_of_mem _ h)
      · by_cases hk : k = p.1
        · subst hk
          rw [AList.lookup_insert, Option.some_inj] at h
          exact Or.inl (by simp [← h])
        · rw [AList.lookup_insert_ne hk] at h
          exact Or.inr h
  rcases general l ∅ h with h | h
  · exact h
  · rw [AList.lookup_empty] at h
    cases h

/-- Every key of the list is in the dictionary. -/
theorem exists_lookup_ofList {l : List (κ × ν)} {k : κ} (h : k ∈ l.map Prod.fst) :
    ∃ v, (ofList l).lookup k = some v := by
  have general : ∀ (l : List (κ × ν)) (d : Dict κ ν), k ∈ l.map Prod.fst ∨ (∃ v, d.lookup k = some v) →
      ∃ v, (l.foldl (fun d p => d.insert p.1 p.2) d : Dict κ ν).lookup k = some v := by
    intro l
    induction l with
    | nil =>
      rintro d (h | h)
      · cases h
      · exact h
    | cons p l ih =>
      intro d h
      refine ih _ ?_
      by_cases hk : k = p.1
      · subst hk
        exact Or.inr ⟨p.2, AList.lookup_insert d⟩
      · refine h.imp (fun h => ?_) fun ⟨v, hv⟩ => ⟨v, by rw [AList.lookup_insert_ne hk]; exact hv⟩
        simpa [hk] using h
  exact general l ∅ (Or.inl h)

end Dict

end ArdOssie
