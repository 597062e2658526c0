import Mathlib.Logic.Basic

/-!
# Computations with a state and exceptions

What holds of the result and of the state when a computation ends, with an exception or without.  An exception keeps the
changes of the state that were made before it.
-/

namespace ArdOssie

/-- A computation that changes a state and may raise. -/
abbrev Attempt (σ ε α : Type) := ExceptT ε (StateM σ) α

namespace Attempt

variable {σ ε α β : Type}

/-- The result and the last state. -/
def outcome (m : Attempt σ ε α) (s : σ) : Except ε α × σ := m.run.run s

/-- A result that does not depend on the state. -/
def ofResult (r : Except ε α) : Attempt σ ε α := ExceptT.mk (pure r)

/-- A cleanup after an exception. -/
def cleanUp (clean : σ → σ) (m : Attempt σ ε α) : Attempt σ ε α := ExceptT.mk fun s =>
  match m.outcome s with
  | (.ok a, s') => (.ok a, s')
  | (.error e, s') => (.error e, clean s')

/-- The result and the last state of the computation are in a relation. -/
def Ends (m : Attempt σ ε α) (s : σ) (Q : Except ε α → σ → Prop) : Prop := Q (m.outcome s).1 (m.outcome s).2

variable {Q Q' : Except ε α → σ → Prop} {s : σ}

theorem Ends.mono {m : Attempt σ ε α} (h : m.Ends s Q) (hQ : ∀ r s', Q r s' → Q' r s') : m.Ends s Q' := hQ _ _ h

theorem ends_pure {a : α} (h : Q (.ok a) s) : Ends (pure a : Attempt σ ε α) s Q := h

theorem ends_throw {e : ε} (h : Q (.error e) s) : Ends (throw e : Attempt σ ε α) s Q := h

theorem ends_ofResult {r : Except ε α} (h : Q r s) : (ofResult r).Ends s Q := h

/-- The second computation starts in the last state of the first. -/
theorem ends_bind {m : Attempt σ ε β} {f : β → Attempt σ ε α} {P : Except ε β → σ → Prop} (hm : m.Ends s P)
    (herror : ∀ e s', P (.error e) s' → Q (.error e) s') (hf : ∀ b s', P (.ok b) s' → (f b).Ends s' Q) :
    (m >>= f).Ends s Q := by
  have hbind : (m >>= f).outcome s = match m.outcome s with
      | (.ok b, s') => (f b).outcome s'
      | (.error e, s') => (.error e, s') := by
    show (match m.outcome s with | (r, s') => StateT.run (ExceptT.bindCont f r) s') = _
    rcases m.outcome s with ⟨_ | _, s'⟩ <;> rfl
  unfold Ends at hm ⊢
  rw [hbind]
  rcases hrun : m.outcome s with ⟨r, s'⟩
  rw [hrun] at hm
  cases r with
  | ok b => exact hf b s' hm
  | error e => exact herror e s' hm

theorem ends_modify_bind {change : σ → σ} {f : PUnit → Attempt σ ε α} (h : (f ⟨⟩).Ends (change s) Q) :
    ((modify change : Attempt σ ε PUnit) >>= f).Ends s Q := h

theorem ends_get_bind {f : σ → Attempt σ ε α} (h : (f s).Ends s Q) : ((get : Attempt σ ε σ) >>= f).Ends s Q := h

/-- A result in front of a computation. -/
theorem ends_ofResult_bind {r : Except ε β} {f : β → Attempt σ ε α} (herror : ∀ e, r = .error e → Q (.error e) s)
    (hok : ∀ b, r = .ok b → (f b).Ends s Q) : (ofResult r >>= f).Ends s Q := by
  cases r with
  | ok b => exact hok b rfl
  | error e => exact herror e rfl

theorem ends_cleanUp {clean : σ → σ} {m : Attempt σ ε α} {P : Except ε α → σ → Prop} (hm : m.Ends s P)
    (herror : ∀ e s', P (.error e) s' → Q (.error e) (clean s')) (hok : ∀ a s', P (.ok a) s' → Q (.ok a) s') :
    (cleanUp clean m).Ends s Q := by
  have hclean : (cleanUp clean m).outcome s = match m.outcome s with
      | (.ok a, s') => (.ok a, s')
      | (.error e, s') => (.error e, clean s') := rfl
  unfold Ends at hm ⊢
  rw [hclean]
  rcases hrun : m.outcome s with ⟨r, s'⟩
  rw [hrun] at hm
  cases r with
  | ok a => exact hok a s' hm
  | error e => exact herror e s' hm

end Attempt

end ArdOssie
