import Mathlib.Data.List.Basic

/-!
# Schemas of documents

A schema language for documents made of texts, arrays and objects.  The language is about any type of values with a
view of what a value is; `Schema.accepts` is the validator, and the rules say when each kind of schema accepts.
-/

namespace ArdOssie

/-- Renaming the keys injectively keeps what is under a key. -/
theorem lookup_map_of_injective {κ κ' α : Type} [DecidableEq κ] [DecidableEq κ'] {f : κ → κ'}
    (hf : Function.Injective f) (fields : List (κ × α)) (key : κ) :
    (fields.map fun p => (f p.1, p.2)).lookup (f key) = fields.lookup key := by
  induction fields with
  | nil => rfl
  | cons p fields ih =>
    rw [List.map_cons, List.lookup_cons, List.lookup_cons, ih]
    by_cases h : key = p.1
    · simp [h]
    · rw [beq_eq_false_iff_ne.2 h, beq_eq_false_iff_ne.2 fun heq => h (hf heq)]

/-- What a value of a document is, with its parts. -/
inductive DocumentView (κ α : Type) where
  | text (t : κ)
  | boolean (b : Bool)
  | array (items : List α)
  | object (fields : List (κ × α))
  | other

inductive Schema (κ : Type) where
  | text
  | oneText (values : List κ)
  | boolean
  | array (items : Schema κ) (minItems : ℕ)
  | object (properties : List (κ × Schema κ)) (required : List κ) (additional : Bool)
  | oneOf (options : List (Schema κ))

namespace Schema

variable {κ α : Type} [DecidableEq κ] (view : α → DocumentView κ α)

mutual

/-- The validator. -/
def accepts : Schema κ → α → Bool
  | text, v => match view v with
    | .text _ => true
    | _ => false
  | oneText values, v => match view v with
    | .text t => t ∈ values
    | _ => false
  | boolean, v => match view v with
    | .boolean _ => true
    | _ => false
  | array items minItems, v => match view v with
    | .array vs => minItems ≤ vs.length && vs.all (accepts items)
    | _ => false
  | object properties required additional, v => match view v with
    | .object fields => required.all (· ∈ fields.map Prod.fst) && fields.all (acceptsField properties additional)
    | _ => false
  | oneOf options, v => acceptsCount options v == 1

/-- A field has the schema of its property; without a property it is an additional field. -/
def acceptsField : List (κ × Schema κ) → Bool → κ × α → Bool
  | [], additional, _ => additional
  | property :: properties, additional, field =>
    if field.1 = property.1 then acceptsProperty property field.2 else acceptsField properties additional field

def acceptsProperty : κ × Schema κ → α → Bool
  | (_, schema), v => accepts schema v

/-- The number of options that accept the value. -/
def acceptsCount : List (Schema κ) → α → ℕ
  | [], _ => 0
  | option :: options, v => (if accepts option v then 1 else 0) + acceptsCount options v

end

variable {view} {v : α}

theorem accepts_text {t : κ} (h : view v = .text t) : accepts view text v = true := by
  rw [accepts, h]

theorem accepts_oneText {t : κ} (h : view v = .text t) {values : List κ} :
    accepts view (oneText values) v = true ↔ t ∈ values := by
  rw [accepts, h]
  exact decide_eq_true_iff

theorem accepts_array {vs : List α} (h : view v = .array vs) {items : Schema κ} {minItems : ℕ} :
    accepts view (array items minItems) v = true ↔
      minItems ≤ vs.length ∧ ∀ w ∈ vs, accepts view items w = true := by
  rw [accepts, h]
  simp

theorem acceptsField_eq (properties : List (κ × Schema κ)) (additional : Bool) (field : κ × α) :
    acceptsField view properties additional field =
      ((properties.lookup field.1).elim additional fun s => accepts view s field.2) := by
  induction properties with
  | nil => simp [acceptsField]
  | cons property properties ih =>
    obtain ⟨name, schema⟩ := property
    rw [acceptsField, List.lookup_cons]
    by_cases h : field.1 = name
    · simp [h, acceptsProperty]
    · rw [if_neg h, ih, beq_eq_false_iff_ne.2 h]

theorem accepts_object {fields : List (κ × α)} (h : view v = .object fields) {properties : List (κ × Schema κ)}
    {required : List κ} {additional : Bool} :
    accepts view (object properties required additional) v = true ↔
      (∀ name ∈ required, name ∈ fields.map Prod.fst) ∧
        ∀ field ∈ fields, ((properties.lookup field.1).elim additional fun s =>
          accepts view s field.2) = true := by
  rw [accepts, h]
  simp only [Bool.and_eq_true, List.all_eq_true, decide_eq_true_eq, acceptsField_eq]

/-- A value that is no text and that one of two options accepts, where the other option is `text`. -/
theorem accepts_oneOf_text {s : Schema κ} (hview : ∀ t, view v ≠ .text t)
    (h : accepts view s v = true) : accepts view (oneOf [text, s]) v = true := by
  have htext : accepts view text v = false := by
    rw [accepts]
    split
    · exact absurd ‹_› (hview _)
    · rfl
  rw [accepts, acceptsCount, acceptsCount, acceptsCount, htext, h]
  rfl

end Schema

end ArdOssie
