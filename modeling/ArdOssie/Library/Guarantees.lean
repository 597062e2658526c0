import ArdOssie.Library.Programs

/-!
# Programs with guarantees

A program relies on what the others do to its world and guarantees that its own calls are right where they are made.
The programs of a system that rely on the guarantees of each other end with what each of them ensures on its own.
-/

namespace ArdOssie

namespace Program

variable {κ : Type} {Answer : κ → Type} {α β W : Type}

section Guards

variable (exec : (c : κ) → W → Answer c → W → Prop) (rely : W → W → Prop) (allowed : κ → W → Prop)

/-- Started in a world, with others stepping in between, the program makes only calls that are allowed where they are
made, and ends only with `Q`. -/
def Guards : Program Answer α → W → (α → W → Prop) → Prop
  | done a, w, Q => ∀ w', rely w w' → Q a w'
  | call c next, w, Q => ∀ w₁, rely w w₁ → allowed c w₁ ∧ ∀ r w₂, exec c w₁ r w₂ → Guards (next r) w₂ Q

/-- The steps of others stay within the relation that a program relies on, and so do the calls that are allowed. -/
structure Cooperation (env : W → W → Prop) : Prop where
  refl : ∀ w, rely w w
  trans : ∀ w w' w'', rely w w' → rely w' w'' → rely w w''
  call : ∀ {c w r w'}, allowed c w → exec c w r w' → rely w w'
  environment : ∀ {w w'}, env w w' → rely w w'

variable {exec} {rely} {allowed} {w : W}

theorem Guards.mono {p : Program Answer α} {Q Q' : α → W → Prop} (h : Guards exec rely allowed p w Q)
    (hQ : ∀ a w', Q a w' → Q' a w') : Guards exec rely allowed p w Q' := by
  induction p generalizing w with
  | done a => exact fun w' hw => hQ a w' (h w' hw)
  | call c next ih =>
    intro w₁ hw
    obtain ⟨hallowed, hnext⟩ := h w₁ hw
    exact ⟨hallowed, fun r w₂ hexec => ih r (hnext r w₂ hexec)⟩

/-- A program that ends with two things ends with both. -/
theorem Guards.and {p : Program Answer α} {Q Q' : α → W → Prop} (h : Guards exec rely allowed p w Q)
    (h' : Guards exec rely allowed p w Q') : Guards exec rely allowed p w fun a w' => Q a w' ∧ Q' a w' := by
  induction p generalizing w with
  | done a => exact fun w' hw => ⟨h w' hw, h' w' hw⟩
  | call c next ih =>
    intro w₁ hw
    obtain ⟨hallowed, hnext⟩ := h w₁ hw
    exact ⟨hallowed, fun r w₂ hexec => ih r (hnext r w₂ hexec) ((h' w₁ hw).2 r w₂ hexec)⟩

/-- What others do to the world does not change what a program guarantees. -/
theorem Guards.keep (trans : ∀ w w' w'', rely w w' → rely w' w'' → rely w w'') {p : Program Answer α} {w' : W}
    {Q : α → W → Prop} (h : Guards exec rely allowed p w Q) (hw : rely w w') : Guards exec rely allowed p w' Q := by
  cases p with
  | done a => exact fun w₁ hw₁ => h w₁ (trans _ _ _ hw hw₁)
  | call c next => exact fun w₁ hw₁ => h w₁ (trans _ _ _ hw hw₁)

theorem guards_bind (refl : ∀ w, rely w w) {p : Program Answer α} {f : α → Program Answer β} {Q : β → W → Prop}
    (h : Guards exec rely allowed p w fun a w' => Guards exec rely allowed (f a) w' Q) :
    Guards exec rely allowed (p >>= f) w Q := by
  induction p generalizing w with
  | done a => exact h w (refl w)
  | call c next ih =>
    intro w₁ hw
    obtain ⟨hallowed, hnext⟩ := h w₁ hw
    exact ⟨hallowed, fun r w₂ hexec => ih r (hnext r w₂ hexec)⟩

/-- A run of the program on its own ends with what the program ensures. -/
theorem Guards.of_alone (refl : ∀ w, rely w w) {p : Program Answer α} {w' : W} {a : α} {Q : α → W → Prop}
    (h : Guards exec rely allowed p w Q) (hrun : Alone exec p w a w') : Q a w' := by
  induction hrun with
  | done a w => exact h w (refl w)
  | call r hexec _ ih => exact ih ((h _ (refl _)).2 r _ hexec)

/-- A run on its own stays one when more answers are possible. -/
theorem Alone.mono {exec' : (c : κ) → W → Answer c → W → Prop} (hexec : ∀ c w r w', exec c w r w' → exec' c w r w')
    {p : Program Answer α} {w' : W} {a : α} (hrun : Alone exec p w a w') : Alone exec' p w a w' := by
  induction hrun with
  | done a w => exact .done a w
  | call r h _ ih => exact .call r (hexec _ _ _ _ h) ih

/-- A program has a run on its own when every call ends. -/
theorem exists_alone (htotal : ∀ c w, ∃ r w', exec c w r w') (p : Program Answer α) (w : W) :
    ∃ a w', Alone exec p w a w' := by
  induction p generalizing w with
  | done a => exact ⟨a, w, .done a w⟩
  | call c next ih =>
    obtain ⟨r, w₁, hexec⟩ := htotal c w
    obtain ⟨a, w', hrun⟩ := ih r w₁
    exact ⟨a, w', .call r hexec hrun⟩

namespace System

variable {ι : Type} [DecidableEq ι] {env : W → W → Prop} {Q : ι → α → W → Prop}

/-- One step of the system is one that every program relies on, and the programs keep what they guarantee. -/
theorem Step.guards (h : Cooperation exec rely allowed env) {s s' : System Answer α W ι} (hstep : Step exec env s s')
    (hs : ∀ i, Guards exec rely allowed (s.programs i) s.world (Q i)) :
    rely s.world s'.world ∧ ∀ i, Guards exec rely allowed (s'.programs i) s'.world (Q i) := by
  cases hstep with
  | call j c next r w hprogram hexec =>
    have hj := hs j
    rw [hprogram] at hj
    obtain ⟨hallowed, hnext⟩ := hj s.world (h.refl _)
    have hw : rely s.world w := h.call hallowed hexec
    refine ⟨hw, fun i => ?_⟩
    show Guards exec rely allowed (Function.update s.programs j (next r) i) w (Q i)
    by_cases hi : i = j
    · subst hi
      rw [Function.update_self]
      exact hnext r w hexec
    · rw [Function.update_of_ne hi]
      exact (hs i).keep h.trans hw
  | environment w henv =>
    have hw : rely s.world w := h.environment henv
    exact ⟨hw, fun i => (hs i).keep h.trans hw⟩

/-- In a run of the system the world only changes as the programs rely on. -/
theorem Steps.guards (h : Cooperation exec rely allowed env) {s s' : System Answer α W ι} (hsteps : Steps exec env s s')
    (hs : ∀ i, Guards exec rely allowed (s.programs i) s.world (Q i)) :
    rely s.world s'.world ∧ ∀ i, Guards exec rely allowed (s'.programs i) s'.world (Q i) := by
  induction hsteps with
  | refl => exact ⟨h.refl _, hs⟩
  | tail _ hstep ih =>
    obtain ⟨hw, hguards⟩ := hstep.guards h ih.2
    exact ⟨h.trans _ _ _ ih.1 hw, hguards⟩

/-- A program that has ended in a run of the system has what it ensures, in every later world. -/
theorem Steps.ended (h : Cooperation exec rely allowed env) {s s' s'' : System Answer α W ι}
    (hsteps : Steps exec env s s') (hlater : Steps exec env s' s'')
    (hs : ∀ i, Guards exec rely allowed (s.programs i) s.world (Q i)) {i : ι} {a : α}
    (hdone : s'.programs i = .done a) : Q i a s''.world := by
  have hguards := (Steps.guards h hsteps hs).2
  have hend := hguards i
  rw [hdone] at hend
  exact hend s''.world (Steps.guards h hlater hguards).1

end System

end Guards

end Program

/-! ### Programs with a state and exceptions -/

/-- A program that keeps a state of its own and may raise; an exception keeps the state. -/
abbrev Session {κ : Type} (Answer : κ → Type) (σ ε : Type) := ExceptT ε (StateT σ (Program Answer))

namespace Session

section Rules

variable {κ : Type} {Answer : κ → Type} {α β ε σ W : Type}

/-- The program of a session that starts in a state. -/
def program (m : Session Answer σ ε α) (s : σ) : Program Answer (Except ε α × σ) := m.run.run s

/-- A result that depends neither on the state nor on the world. -/
def ofResult (r : Except ε α) : Session Answer σ ε α := ExceptT.mk (pure r)

variable (exec : (c : κ) → W → Answer c → W → Prop) (rely : W → W → Prop) (allowed : κ → W → Prop)

/-- The session makes only calls that are allowed, and its result and its state are in a relation with the world when
it ends. -/
def Guards (m : Session Answer σ ε α) (s : σ) (w : W) (Q : Except ε α → σ → W → Prop) : Prop :=
  Program.Guards exec rely allowed (m.program s) w fun r w' => Q r.1 r.2 w'

variable {exec} {rely} {allowed} {s : σ} {w : W} {Q Q' : Except ε α → σ → W → Prop}

theorem Guards.mono {m : Session Answer σ ε α} (h : Guards exec rely allowed m s w Q)
    (hQ : ∀ r s' w', Q r s' w' → Q' r s' w') : Guards exec rely allowed m s w Q' :=
  Program.Guards.mono h fun _ _ => hQ _ _ _

theorem guards_ofResult {r : Except ε α} (h : ∀ w', rely w w' → Q r s w') :
    Guards exec rely allowed (ofResult r) s w Q := h

theorem guards_pure {a : α} (h : ∀ w', rely w w' → Q (.ok a) s w') :
    Guards exec rely allowed (pure a : Session Answer σ ε α) s w Q := h

theorem guards_throw {e : ε} (h : ∀ w', rely w w' → Q (.error e) s w') :
    Guards exec rely allowed (throw e : Session Answer σ ε α) s w Q := h

theorem guards_modify {change : σ → σ} {Q : Except ε PUnit → σ → W → Prop}
    (h : ∀ w', rely w w' → Q (.ok ⟨⟩) (change s) w') :
    Guards exec rely allowed (modify change : Session Answer σ ε PUnit) s w Q := h

theorem guards_modify_bind {change : σ → σ} {f : PUnit → Session Answer σ ε α}
    (h : Guards exec rely allowed (f ⟨⟩) (change s) w Q) :
    Guards exec rely allowed ((modify change : Session Answer σ ε PUnit) >>= f) s w Q := h

theorem guards_get_bind {f : σ → Session Answer σ ε α} (h : Guards exec rely allowed (f s) s w Q) :
    Guards exec rely allowed ((get : Session Answer σ ε σ) >>= f) s w Q := h

private theorem program_bind (m : Session Answer σ ε β) (f : β → Session Answer σ ε α) (s : σ) :
    (m >>= f).program s = m.program s >>= fun r => match r.1 with
      | .ok b => (f b).program r.2
      | .error e => .done (.error e, r.2) := by
  show Program.bind _ (m.program s) = Program.bind _ (m.program s)
  congr 1
  funext r
  rcases r with ⟨_ | _, _⟩ <;> rfl

private theorem program_tryCatch (m : Session Answer σ ε α) (f : ε → Session Answer σ ε α) (s : σ) :
    (tryCatch m f).program s = m.program s >>= fun r => match r.1 with
      | .ok a => .done (.ok a, r.2)
      | .error e => (f e).program r.2 := by
  show Program.bind _ (m.program s) = Program.bind _ (m.program s)
  congr 1
  funext r
  rcases r with ⟨_ | _, _⟩ <;> rfl

/-- The second session starts in the state of the first and in the world that it left. -/
theorem guards_bind (refl : ∀ w, rely w w) {m : Session Answer σ ε β} {f : β → Session Answer σ ε α}
    {P : Except ε β → σ → W → Prop} (h : Guards exec rely allowed m s w P)
    (herror : ∀ e s' w' w'', P (.error e) s' w' → rely w' w'' → Q (.error e) s' w'')
    (hok : ∀ b s' w', P (.ok b) s' w' → Guards exec rely allowed (f b) s' w' Q) :
    Guards exec rely allowed (m >>= f) s w Q := by
  unfold Guards
  rw [program_bind]
  refine Program.guards_bind refl (Program.Guards.mono h ?_)
  intro r w' hr
  rcases r with ⟨e | b, s'⟩
  · exact fun w'' hw => herror e s' w' w'' hr hw
  · exact hok b s' w' hr

theorem guards_tryCatch (refl : ∀ w, rely w w) {m : Session Answer σ ε α} {f : ε → Session Answer σ ε α}
    {P : Except ε α → σ → W → Prop} (h : Guards exec rely allowed m s w P)
    (hok : ∀ a s' w' w'', P (.ok a) s' w' → rely w' w'' → Q (.ok a) s' w'')
    (herror : ∀ e s' w', P (.error e) s' w' → Guards exec rely allowed (f e) s' w' Q) :
    Guards exec rely allowed (tryCatch m f) s w Q := by
  unfold Guards
  rw [program_tryCatch]
  refine Program.guards_bind refl (Program.Guards.mono h ?_)
  intro r w' hr
  rcases r with ⟨e | a, s'⟩
  · exact herror e s' w' hr
  · exact fun w'' hw => hok a s' w' w'' hr hw

/-- A result in front of a session. -/
theorem guards_ofResult_bind {r : Except ε β} {f : β → Session Answer σ ε α}
    (herror : ∀ e w', r = .error e → rely w w' → Q (.error e) s w')
    (hok : ∀ b, r = .ok b → Guards exec rely allowed (f b) s w Q) :
    Guards exec rely allowed (ofResult r >>= f) s w Q := by
  cases r with
  | ok b => exact hok b rfl
  | error e => exact fun w' hw => herror e w' rfl hw

end Rules

section Ask

variable {κ : Type} {Value : κ → Type} {α ε σ W : Type}

/-- One call; a call that fails raises. -/
def ask (c : κ) : Session (fun c => Except ε (Value c)) σ ε (Value c) :=
  ExceptT.mk fun s => .call c fun r => .done (r, s)

variable {exec : (c : κ) → W → Except ε (Value c) → W → Prop} {rely : W → W → Prop} {allowed : κ → W → Prop}
variable {s : σ} {w : W}

theorem guards_ask {c : κ} {Q : Except ε (Value c) → σ → W → Prop} (hallowed : ∀ w', rely w w' → allowed c w')
    (h : ∀ w₁ r w₂ w₃, rely w w₁ → exec c w₁ r w₂ → rely w₂ w₃ → Q r s w₃) :
    Guards exec rely allowed (ask c) s w Q :=
  fun w₁ hw => ⟨hallowed w₁ hw, fun r w₂ hexec w₃ hw' => h w₁ r w₂ w₃ hw hexec hw'⟩

/-- A call in front of a session: the session runs in the world that the call left. -/
theorem guards_ask_bind {c : κ} {f : Value c → Session (fun c => Except ε (Value c)) σ ε α}
    {Q : Except ε α → σ → W → Prop} (hallowed : ∀ w', rely w w' → allowed c w')
    (herror : ∀ w₁ e w₂ w₃, rely w w₁ → exec c w₁ (.error e) w₂ → rely w₂ w₃ → Q (.error e) s w₃)
    (hok : ∀ w₁ v w₂, rely w w₁ → exec c w₁ (.ok v) w₂ → Guards exec rely allowed (f v) s w₂ Q) :
    Guards exec rely allowed (ask c >>= f) s w Q := by
  intro w₁ hw
  refine ⟨hallowed w₁ hw, fun r w₂ hexec => ?_⟩
  cases r with
  | ok v => exact hok w₁ v w₂ hw hexec
  | error e => exact fun w₃ hw' => herror w₁ e w₂ w₃ hw hexec hw'

end Ask

/-! ### Sessions that run alone -/

section Runs

variable {κ : Type} {Answer : κ → Type} {α β ε σ W : Type} (exec : (c : κ) → W → Answer c → W → Prop)

/-- The session, run on its own, ends only with `Q`. -/
def Runs (m : Session Answer σ ε α) (s : σ) (w : W) (Q : Except ε α → σ → W → Prop) : Prop :=
  Guards exec Eq (fun _ _ => True) m s w Q

variable {exec} {s : σ} {w : W} {Q Q' : Except ε α → σ → W → Prop}

theorem Runs.of_alone {m : Session Answer σ ε α} (h : Runs exec m s w Q) {r : Except ε α} {s' : σ} {w' : W}
    (hrun : Program.Alone exec (m.program s) w (r, s') w') : Q r s' w' := by
  have hguards : Program.Guards exec Eq (fun _ _ => True) (m.program s) w fun r w' => Q r.1 r.2 w' := h
  exact hguards.of_alone (fun _ => rfl) hrun

theorem Runs.mono {m : Session Answer σ ε α} (h : Runs exec m s w Q) (hQ : ∀ r s' w', Q r s' w' → Q' r s' w') :
    Runs exec m s w Q' := Guards.mono h hQ

theorem Runs.and {m : Session Answer σ ε α} (h : Runs exec m s w Q) (h' : Runs exec m s w Q') :
    Runs exec m s w fun r s' w' => Q r s' w' ∧ Q' r s' w' := Program.Guards.and h h'

theorem runs_bind {m : Session Answer σ ε β} {f : β → Session Answer σ ε α} {P : Except ε β → σ → W → Prop}
    (h : Runs exec m s w P) (herror : ∀ e s' w', P (.error e) s' w' → Q (.error e) s' w')
    (hok : ∀ b s' w', P (.ok b) s' w' → Runs exec (f b) s' w' Q) : Runs exec (m >>= f) s w Q :=
  guards_bind (fun _ => rfl) h (fun e s' w' _ hP hw => hw ▸ herror e s' w' hP) hok

theorem runs_pure {a : α} (h : Q (.ok a) s w) : Runs exec (pure a : Session Answer σ ε α) s w Q :=
  guards_pure fun _ hw => hw ▸ h

theorem runs_throw {e : ε} (h : Q (.error e) s w) : Runs exec (throw e : Session Answer σ ε α) s w Q :=
  guards_throw fun _ hw => hw ▸ h

theorem runs_modify {change : σ → σ} {Q : Except ε PUnit → σ → W → Prop} (h : Q (.ok ⟨⟩) (change s) w) :
    Runs exec (modify change : Session Answer σ ε PUnit) s w Q := guards_modify fun _ hw => hw ▸ h

theorem runs_modify_bind {change : σ → σ} {f : PUnit → Session Answer σ ε α} (h : Runs exec (f ⟨⟩) (change s) w Q) :
    Runs exec ((modify change : Session Answer σ ε PUnit) >>= f) s w Q := guards_modify_bind h

theorem runs_get_bind {f : σ → Session Answer σ ε α} (h : Runs exec (f s) s w Q) :
    Runs exec ((get : Session Answer σ ε σ) >>= f) s w Q := guards_get_bind h

theorem runs_ofResult {r : Except ε α} (h : Q r s w) : Runs exec (ofResult r) s w Q :=
  guards_ofResult fun _ hw => hw ▸ h

theorem runs_ofResult_bind {r : Except ε β} {f : β → Session Answer σ ε α}
    (herror : ∀ e, r = .error e → Q (.error e) s w) (hok : ∀ b, r = .ok b → Runs exec (f b) s w Q) :
    Runs exec (ofResult r >>= f) s w Q := guards_ofResult_bind (fun e _ he hw => hw ▸ herror e he) hok

theorem runs_tryCatch {m : Session Answer σ ε α} {f : ε → Session Answer σ ε α} {P : Except ε α → σ → W → Prop}
    (h : Runs exec m s w P) (hok : ∀ a s' w', P (.ok a) s' w' → Q (.ok a) s' w')
    (herror : ∀ e s' w', P (.error e) s' w' → Runs exec (f e) s' w' Q) : Runs exec (tryCatch m f) s w Q :=
  guards_tryCatch (fun _ => rfl) h (fun a s' w' _ hP hw => hw ▸ hok a s' w' hP) herror

end Runs

section AskAlone

variable {κ : Type} {Value : κ → Type} {ε σ W : Type} {exec : (c : κ) → W → Except ε (Value c) → W → Prop}

/-- One call on its own ends with its answer. -/
theorem runs_ask {c : κ} {s : σ} {w : W} {Q : Except ε (Value c) → σ → W → Prop}
    (h : ∀ r w', exec c w r w' → Q r s w') : Runs exec (ask c) s w Q :=
  guards_ask (fun _ _ => trivial) fun _ r w₂ _ hw hexec hw' => by
    subst hw hw'
    exact h r w₂ hexec

end AskAlone

end Session

end ArdOssie
