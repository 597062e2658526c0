import ArdOssie.Library.Results
import Mathlib.Logic.Function.Basic
import Mathlib.Logic.Relation

/-!
# Programs in a shared world

A program calls its environment and goes on with the answers.  A call is one step of a world that other programs step
as well, so a program knows of the world only what no step can undo: what a program ensures is stated over a relation
that contains every step.
-/

namespace ArdOssie

/-- A program over calls with the given answers: it has ended, or it calls and goes on with the answer. -/
inductive Program {κ : Type} (Answer : κ → Type) (α : Type) : Type where
  | done (a : α)
  | call (c : κ) (next : Answer c → Program Answer α)

namespace Program

variable {κ : Type} {Answer : κ → Type} {α β ε W : Type}

def bind (f : α → Program Answer β) : Program Answer α → Program Answer β
  | done a => f a
  | call c next => call c fun r => (next r).bind f

instance : Monad (Program Answer) where
  pure := done
  bind p f := p.bind f

/-- One call. -/
def perform (c : κ) : Program Answer (Answer c) := call c done

/-! ### What a program ensures -/

/-- Steps of calls and of the environment stay within a relation that is reflexive and transitive. -/
structure Rely (exec : (c : κ) → W → Answer c → W → Prop) (env later : W → W → Prop) : Prop where
  refl : ∀ w, later w w
  trans : ∀ {w w' w''}, later w w' → later w' w'' → later w w''
  call : ∀ {c w r w'}, exec c w r w' → later w w'
  environment : ∀ {w w'}, env w w' → later w w'

section Ensures

variable (exec : (c : κ) → W → Answer c → W → Prop) (later : W → W → Prop)

/-- Started in a world, with others stepping in between, the program ends only with `Q`. -/
def Ensures : Program Answer α → W → (α → W → Prop) → Prop
  | done a, w, Q => ∀ w', later w w' → Q a w'
  | call c next, w, Q => ∀ w₁, later w w₁ → ∀ r w₂, exec c w₁ r w₂ → Ensures (next r) w₂ Q

/-- The program ensures `Q` if it ends without an exception. -/
def EnsuresOk (p : ExceptT ε (Program Answer) α) (w : W) (Q : α → W → Prop) : Prop :=
  Ensures exec later p.run w fun r w' => ∀ a, r = .ok a → Q a w'

variable {exec} {later} {env : W → W → Prop}

theorem Ensures.mono {p : Program Answer α} {w : W} {Q Q' : α → W → Prop} (h : Ensures exec later p w Q)
    (hQ : ∀ a w', Q a w' → Q' a w') : Ensures exec later p w Q' := by
  induction p generalizing w with
  | done a => exact fun w' hw => hQ a w' (h w' hw)
  | call c next ih => exact fun w₁ hw r w₂ hexec => ih r (h w₁ hw r w₂ hexec)

/-- What a program ensures it ensures in every later world. -/
theorem Ensures.keep (rely : Rely exec env later) {p : Program Answer α} {w w' : W} {Q : α → W → Prop}
    (h : Ensures exec later p w Q) (hw : later w w') : Ensures exec later p w' Q := by
  cases p with
  | done a => exact fun w₁ hw₁ => h w₁ (rely.trans hw hw₁)
  | call c next => exact fun w₁ hw₁ => h w₁ (rely.trans hw hw₁)

theorem ensures_bind (rely : Rely exec env later) {p : Program Answer α} {f : α → Program Answer β} {w : W}
    {Q : β → W → Prop} (h : Ensures exec later p w fun a w' => Ensures exec later (f a) w' Q) :
    Ensures exec later (p >>= f) w Q := by
  induction p generalizing w with
  | done a => exact h w (rely.refl w)
  | call c next ih => exact fun w₁ hw r w₂ hexec => ih r (h w₁ hw r w₂ hexec)

/-- The world in which a program ends is later than the one in which it starts. -/
theorem Ensures.and_later (rely : Rely exec env later) {p : Program Answer α} {w : W} {Q : α → W → Prop}
    (h : Ensures exec later p w Q) : Ensures exec later p w fun a w' => Q a w' ∧ later w w' := by
  have hframe : ∀ w₀, later w₀ w → Ensures exec later p w fun a w' => Q a w' ∧ later w₀ w' := by
    induction p generalizing w with
    | done a => exact fun w₀ h₀ w' hw => ⟨h w' hw, rely.trans h₀ hw⟩
    | call c next ih =>
      intro w₀ h₀ w₁ hw r w₂ hexec
      exact ih r (h w₁ hw r w₂ hexec) w₀ (rely.trans h₀ (rely.trans hw (rely.call hexec)))
  exact hframe w (rely.refl w)

theorem ensures_perform {c : κ} {w : W} {Q : Answer c → W → Prop}
    (h : ∀ w₁ r w₂ w₃, exec c w₁ r w₂ → later w₂ w₃ → Q r w₃) : Ensures exec later (perform c) w Q :=
  fun w₁ _ r w₂ hexec w₃ hw => h w₁ r w₂ w₃ hexec hw

/-- A program runs on what the program before it ensures, in a later world. -/
theorem ensuresOk_bind (rely : Rely exec env later) {p : ExceptT ε (Program Answer) α}
    {f : α → ExceptT ε (Program Answer) β} {w : W} {P : α → W → Prop} {Q : β → W → Prop}
    (h : EnsuresOk exec later p w P)
    (hf : ∀ a w', later w w' → P a w' → EnsuresOk exec later (f a) w' Q) :
    EnsuresOk exec later (p >>= f) w Q := by
  refine ensures_bind rely ((h.and_later rely).mono ?_)
  intro r w' ⟨hr, hw⟩
  cases r with
  | ok a => exact hf a w' hw (hr a rfl)
  | error e =>
    intro w'' _ b hb
    cases hb

theorem ensuresOk_throw {e : ε} {w : W} {Q : α → W → Prop} :
    EnsuresOk exec later (throw e : ExceptT ε (Program Answer) α) w Q := by
  intro w' _ b hb
  cases hb

theorem ensuresOk_pure {a : α} {w : W} {Q : α → W → Prop} (h : ∀ w', later w w' → Q a w') :
    EnsuresOk exec later (pure a : ExceptT ε (Program Answer) α) w Q := by
  intro w' hw b hb
  cases hb
  exact h w' hw

/-- A handler that always raises leaves what the program ensures. -/
theorem ensuresOk_tryCatch (rely : Rely exec env later) {p : ExceptT ε (Program Answer) α}
    {f : ε → ExceptT ε (Program Answer) α} {w : W} {Q : α → W → Prop} (h : EnsuresOk exec later p w Q)
    (hstable : ∀ a w w', later w w' → Q a w → Q a w') (hf : ∀ e w', EnsuresOk exec later (f e) w' Q) :
    EnsuresOk exec later (tryCatch p f) w Q := by
  refine ensures_bind rely (h.mono fun r w' hr => ?_)
  cases r with
  | ok a =>
    intro w'' hw b hb
    cases hb
    exact hstable a w' w'' hw (hr a rfl)
  | error e => exact hf e w'

end Ensures

/-! ### Interleaved programs -/

/-- Programs in one world. -/
structure System (Answer : κ → Type) (α W ι : Type) where
  world : W
  programs : ι → Program Answer α

namespace System

variable {ι : Type} [DecidableEq ι] (exec : (c : κ) → W → Answer c → W → Prop) (env : W → W → Prop)

/-- One program makes its next call, or the world changes by itself. -/
inductive Step (s : System Answer α W ι) : System Answer α W ι → Prop where
  | call (i : ι) (c : κ) (next : Answer c → Program Answer α) (r : Answer c) (w : W)
      (hprogram : s.programs i = .call c next) (hexec : exec c s.world r w) :
      Step s ⟨w, Function.update s.programs i (next r)⟩
  | environment (w : W) (henv : env s.world w) : Step s ⟨w, s.programs⟩

/-- Any number of steps. -/
abbrev Steps : System Answer α W ι → System Answer α W ι → Prop := Relation.ReflTransGen (Step exec env)

variable {exec} {env} {later : W → W → Prop}

theorem Step.within (rely : Rely exec env later) {s s' : System Answer α W ι} (h : Step exec env s s') :
    later s.world s'.world := by
  cases h with
  | call i c next r w _ hcall => exact rely.call hcall
  | environment w henv => exact rely.environment henv

/-- The world only changes as steps may change it. -/
theorem later_of_steps (rely : Rely exec env later) {s s' : System Answer α W ι} (h : Steps exec env s s') :
    later s.world s'.world := by
  induction h with
  | refl => exact rely.refl _
  | tail _ hstep ih => exact rely.trans ih (hstep.within rely)

/-- One step keeps what every program ensures. -/
theorem Step.ensures (rely : Rely exec env later) {s s' : System Answer α W ι} (h : Step exec env s s')
    {Q : ι → α → W → Prop} (hs : ∀ i, Ensures exec later (s.programs i) s.world (Q i)) (i : ι) :
    Ensures exec later (s'.programs i) s'.world (Q i) := by
  cases h with
  | call j c next r w hprogram hcall =>
    by_cases hi : i = j
    · subst hi
      have hnext := hs i
      rw [hprogram] at hnext
      show Ensures exec later (Function.update s.programs i (next r) i) w (Q i)
      rw [Function.update_self]
      exact hnext s.world (rely.refl _) r w hcall
    · show Ensures exec later (Function.update s.programs j (next r) i) w (Q i)
      rw [Function.update_of_ne hi]
      exact (hs i).keep rely (rely.call hcall)
  | environment w henv => exact (hs i).keep rely (rely.environment henv)

/-- A program that has ended in a run of the system has what it ensured at the start. -/
theorem of_steps (rely : Rely exec env later) {s s' : System Answer α W ι} (h : Steps exec env s s')
    {Q : ι → α → W → Prop} (hs : ∀ i, Ensures exec later (s.programs i) s.world (Q i)) {i : ι} {a : α}
    (hdone : s'.programs i = .done a) : Q i a s'.world := by
  have hensures : ∀ i, Ensures exec later (s'.programs i) s'.world (Q i) := by
    clear hdone
    induction h with
    | refl => exact hs
    | tail _ hstep ih => exact hstep.ensures rely ih
  have hend := hensures i
  rw [hdone] at hend
  exact hend s'.world (rely.refl _)

end System

/-! ### A program on its own -/

/-- The program runs to its end without another step in between. -/
inductive Alone (exec : (c : κ) → W → Answer c → W → Prop) : Program Answer α → W → α → W → Prop where
  | done (a : α) (w : W) : Alone exec (.done a) w a w
  | call {c : κ} {next : Answer c → Program Answer α} {w w₁ w₂ : W} {a : α} (r : Answer c)
      (hexec : exec c w r w₁) (h : Alone exec (next r) w₁ a w₂) : Alone exec (.call c next) w a w₂

/-- A run on its own is a run of a system. -/
theorem Alone.steps {ι : Type} [DecidableEq ι] {exec : (c : κ) → W → Answer c → W → Prop}
    {p : Program Answer α} {w w' : W} {a : α} (h : Alone exec p w a w') (env : W → W → Prop)
    (programs : ι → Program Answer α) (i : ι) (hp : programs i = p) : System.Steps exec env ⟨w, programs⟩ ⟨w', Function.update programs i (.done a)⟩ := by
  induction h generalizing programs with
  | done a w =>
    rw [← hp, Function.update_eq_self]
  | @call c next w w₁ w₂ a r hexec _ ih =>
    have hrest := ih (Function.update programs i (next r)) (Function.update_self ..)
    rw [Function.update_idem] at hrest
    exact .head (.call i c next r w₁ hp hexec) hrest

end Program

end ArdOssie
