import Mathlib.Data.List.Forall2

/-!
# Computations that may fail

Inversion lemmas for successful runs in `Except`: of a sequence, of a map over a list, and of a fold with an
invariant that may mention the elements still to come.
-/

namespace ArdOssie

variable {ε α β σ : Type}

theorem bind_eq_ok {x : Except ε α} {f : α → Except ε β} {b : β} :
    (x >>= f) = .ok b ↔ ∃ a, x = .ok a ∧ f a = .ok b := by
  cases x with
  | error e => simp [bind, Except.bind]
  | ok a => simp [bind, Except.bind]

theorem unit_bind_eq_ok {x : Except ε Unit} {f : Unit → Except ε β} {b : β} :
    (x >>= f) = .ok b ↔ x = .ok () ∧ f () = .ok b := by
  rw [bind_eq_ok]
  exact ⟨fun ⟨_, hx, hf⟩ => ⟨hx, hf⟩, fun ⟨hx, hf⟩ => ⟨(), hx, hf⟩⟩

@[simp] theorem ok_bind {a : α} {f : α → Except ε β} : ((.ok a : Except ε α) >>= f) = f a := rfl

theorem pure_eq_ok {a b : α} : (pure a : Except ε α) = .ok b ↔ a = b := by
  simp [pure, Except.pure]

theorem throw_ne_ok {e : ε} {b : α} : (throw e : Except ε α) ≠ .ok b := by
  rintro ⟨⟩

theorem mapError_eq_ok {ε' : Type} {x : Except ε α} {f : ε → ε'} {a : α} : x.mapError f = .ok a ↔ x = .ok a := by
  cases x <;> simp [Except.mapError]

/-- A test of the result of a computation passes only if there is a result. -/
theorem exists_of_any_toOption {x : Except ε α} {p : α → Bool} (h : x.toOption.any p = true) :
    ∃ a, x = .ok a ∧ p a = true := by
  cases x with
  | error e => cases h
  | ok a => exact ⟨a, rfl, h⟩

/-- A map over a list succeeds when it succeeds at every element. -/
theorem mapM_eq_ok {f : α → Except ε β} {l : List α} {l' : List β} :
    l.mapM f = .ok l' ↔ List.Forall₂ (fun a b => f a = .ok b) l l' := by
  induction l generalizing l' with
  | nil => simp [pure, Except.pure, eq_comm]
  | cons a l ih =>
    rw [List.mapM_cons, bind_eq_ok]
    simp only [bind_eq_ok, pure_eq_ok, ih]
    constructor
    · rintro ⟨b, hb, bs, hbs, rfl⟩
      exact List.Forall₂.cons hb hbs
    · rintro (_ | ⟨hb, hbs⟩)
      exact ⟨_, hb, _, hbs, rfl⟩

/-- A map over a list whose results are known. -/
theorem mapM_eq_map {f : α → Except ε β} {g : α → β} {l : List α} (h : ∀ a ∈ l, f a = .ok (g a)) :
    l.mapM f = .ok (l.map g) := by
  rw [mapM_eq_ok, List.forall₂_map_right_iff, List.forall₂_same]
  exact h

theorem mapM_total {f : α → Except ε β} {l : List α} (h : ∀ a ∈ l, ∃ b, f a = .ok b) :
    ∃ l', l.mapM f = .ok l' := by
  induction l with
  | nil => exact ⟨[], rfl⟩
  | cons a l ih =>
    obtain ⟨b, hb⟩ := h a (by simp)
    obtain ⟨bs, hbs⟩ := ih fun a' ha' => h a' (by simp [ha'])
    exact ⟨b :: bs, by rw [List.mapM_cons, hb, hbs]; rfl⟩

/-- A map over a list fails with the error that its failing elements have in common. -/
theorem mapM_eq_error {f : α → Except ε β} {l : List α} {e : ε}
    (h : ∀ a ∈ l, (∃ b, f a = .ok b) ∨ f a = .error e) (hfail : ∃ a ∈ l, f a = .error e) : l.mapM f = .error e := by
  induction l with
  | nil =>
    obtain ⟨a, ha, -⟩ := hfail
    cases ha
  | cons a l ih =>
    rw [List.mapM_cons]
    rcases h a (by simp) with ⟨b, hb⟩ | ha
    · have hrest : ∃ a' ∈ l, f a' = .error e := by
        obtain ⟨a', ha', hfail⟩ := hfail
        rcases List.mem_cons.1 ha' with rfl | ha'
        · rw [hb] at hfail
          cases hfail
        · exact ⟨a', ha', hfail⟩
      rw [hb, ih (fun a' ha' => h a' (by simp [ha'])) hrest]
      rfl
    · rw [ha]
      rfl

theorem exists_of_forall₂_left {R : α → β → Prop} {l : List α} {l' : List β} (h : List.Forall₂ R l l') {a : α}
    (ha : a ∈ l) : ∃ b ∈ l', R a b := by
  induction h with
  | nil => cases ha
  | cons hab _ ih =>
    rcases List.mem_cons.1 ha with rfl | ha
    · exact ⟨_, by simp, hab⟩
    · obtain ⟨b, hb, hab⟩ := ih ha
      exact ⟨b, by simp [hb], hab⟩

theorem exists_of_forall₂_right {R : α → β → Prop} {l : List α} {l' : List β} (h : List.Forall₂ R l l') {b : β}
    (hb : b ∈ l') : ∃ a ∈ l, R a b := by
  induction h with
  | nil => cases hb
  | cons hab _ ih =>
    rcases List.mem_cons.1 hb with rfl | hb
    · exact ⟨_, by simp, hab⟩
    · obtain ⟨a, ha, hab⟩ := ih hb
      exact ⟨a, by simp [ha], hab⟩

/-- Every result of a map over a list is the result at an element. -/
theorem mem_of_mapM_eq_ok {f : α → Except ε β} {l : List α} {l' : List β} (h : l.mapM f = .ok l') {b : β}
    (hb : b ∈ l') : ∃ a ∈ l, f a = .ok b := exists_of_forall₂_right (mapM_eq_ok.1 h) hb

/-- A map over a list has a result at every element. -/
theorem exists_of_mapM_eq_ok {f : α → Except ε β} {l : List α} {l' : List β} (h : l.mapM f = .ok l') {a : α}
    (ha : a ∈ l) : ∃ b ∈ l', f a = .ok b := exists_of_forall₂_left (mapM_eq_ok.1 h) ha

/-- A map over a numbered list succeeds when it does at every element and number. -/
theorem mapM_zipIdx_eq_ok {f : α × ℕ → Except ε β} {l : List α} {l' : List β}
    (h : List.Forall₂ (fun a b => ∀ i, f (a, i) = .ok b) l l') (k : ℕ) : (l.zipIdx k).mapM f = .ok l' := by
  induction h generalizing k with
  | nil => rfl
  | cons hab _ ih =>
    rw [List.zipIdx_cons, List.mapM_cons, hab k, ih (k + 1)]
    rfl

/-- An injective map keeps the elements of a list distinct. -/
theorem nodup_of_mapM_eq_ok {f : α → Except ε β} (hf : ∀ a a' b, f a = .ok b → f a' = .ok b → a = a')
    {l : List α} {l' : List β} (h : l.mapM f = .ok l') (hl : l.Nodup) : l'.Nodup := by
  have hall := mapM_eq_ok.1 h
  clear h
  induction hall with
  | nil => exact List.nodup_nil
  | @cons a b l l' hab hrest ih =>
    obtain ⟨ha, hl⟩ := List.nodup_cons.1 hl
    refine List.nodup_cons.2 ⟨fun hb => ?_, ih hl⟩
    obtain ⟨a', ha', hab'⟩ := mem_of_mapM_eq_ok (mapM_eq_ok.2 hrest) hb
    exact ha (hf a a' b hab hab' ▸ ha')

/-- A check of every element succeeds when it succeeds at each. -/
theorem forM_eq_ok {f : α → Except ε Unit} {l : List α} {u : Unit} :
    (forM l f : Except ε Unit) = .ok u ↔ ∀ a ∈ l, f a = .ok () := by
  induction l with
  | nil => simp [pure, Except.pure]
  | cons a l ih =>
    rw [List.forM_cons, bind_eq_ok]
    simp only [List.forall_mem_cons, ih, exists_and_right]
    exact and_congr_left fun _ => ⟨fun ⟨_, h⟩ => h, fun h => ⟨(), h⟩⟩

/-- A fold keeps an invariant over the elements still to come. -/
theorem foldlM_invariant {f : σ → α → Except ε σ} {P : List α → σ → Prop}
    (step : ∀ a rest s s', P (a :: rest) s → f s a = .ok s' → P rest s') {l : List α} {s s' : σ}
    (h : l.foldlM f s = .ok s') (hP : P l s) : P [] s' := by
  induction l generalizing s with
  | nil =>
    rw [List.foldlM_nil, pure_eq_ok] at h
    exact h ▸ hP
  | cons a l ih =>
    rw [List.foldlM_cons, bind_eq_ok] at h
    obtain ⟨s₁, h₁, h⟩ := h
    exact ih h (step a l s s₁ hP h₁)

/-- A fold whose steps succeed whatever the state succeeds when every step does. -/
theorem exists_foldlM_iff {f : σ → α → Except ε σ} {P : α → Prop} (step : ∀ s a, (∃ s', f s a = .ok s') ↔ P a)
    (l : List α) (s : σ) : (∃ s', l.foldlM f s = .ok s') ↔ ∀ a ∈ l, P a := by
  induction l generalizing s with
  | nil => exact iff_of_true ⟨s, rfl⟩ (by simp)
  | cons a l ih =>
    rw [List.foldlM_cons, List.forall_mem_cons, ← step s a]
    cases hstep : f s a with
    | error e => simp [bind, Except.bind]
    | ok s' => simpa using ih s'

theorem mapM_total_iff {f : α → Except ε β} {l : List α} :
    (∃ l', l.mapM f = .ok l') ↔ ∀ a ∈ l, ∃ b, f a = .ok b := by
  refine ⟨?_, mapM_total⟩
  rintro ⟨l', h⟩ a ha
  obtain ⟨b, -, hb⟩ := exists_of_mapM_eq_ok h ha
  exact ⟨b, hb⟩

theorem anyM_total {f : α → Except ε Bool} {l : List α} (h : ∀ a ∈ l, ∃ b, f a = .ok b) : ∃ b, l.anyM f = .ok b := by
  induction l with
  | nil => exact ⟨false, rfl⟩
  | cons a l ih =>
    obtain ⟨b, hb⟩ := h a (by simp)
    rw [List.anyM_cons, hb, ok_bind]
    cases b with
    | true => exact ⟨true, rfl⟩
    | false => exact ih fun a' ha' => h a' (by simp [ha'])

theorem of_anyM_eq_false {f : α → Except ε Bool} {l : List α} (h : l.anyM f = .ok false) :
    ∀ a ∈ l, f a = .ok false := by
  induction l with
  | nil => simp
  | cons a l ih =>
    rw [List.anyM_cons] at h
    obtain ⟨b, hb, h⟩ := bind_eq_ok.1 h
    cases b with
    | true => cases h
    | false => exact List.forall_mem_cons.2 ⟨hb, ih h⟩

theorem exists_map_iff {x : Except ε α} {f : α → β} : (∃ b, x.map f = .ok b) ↔ ∃ a, x = .ok a := by
  cases x <;> simp [Except.map]

/-! ### Two runs side by side -/

/-- Two computations fail with one error or have related results. -/
inductive Alike (R : α → β → Prop) : Except ε α → Except ε β → Prop where
  | error (e : ε) : Alike R (.error e) (.error e)
  | ok {a : α} {b : β} (h : R a b) : Alike R (.ok a) (.ok b)

section Alike

variable {τ α' β' : Type} {R : α → β → Prop}

theorem Alike.bind {S : α' → β' → Prop} {x : Except ε α} {y : Except ε β} {f : α → Except ε α'} {g : β → Except ε β'}
    (h : Alike R x y) (hf : ∀ a b, R a b → Alike S (f a) (g b)) : Alike S (x >>= f) (y >>= g) := by
  cases h with
  | error e => exact .error e
  | ok h => exact hf _ _ h

theorem Alike.refl (x : Except ε α) : Alike Eq x x := by
  cases x with
  | error e => exact .error e
  | ok a => exact .ok rfl

/-- Two folds over one list are alike when their steps are. -/
theorem Alike.foldlM {R : σ → τ → Prop} {f : σ → α → Except ε σ} {g : τ → α → Except ε τ}
    (step : ∀ a s t, R s t → Alike R (f s a) (g t a)) {s : σ} {t : τ} (h : R s t) (l : List α) :
    Alike R (l.foldlM f s) (l.foldlM g t) := by
  induction l generalizing s t with
  | nil => exact .ok h
  | cons a l ih =>
    rw [List.foldlM_cons, List.foldlM_cons]
    exact (step a s t h).bind fun s' t' h' => ih h'

end Alike

/-! ### Both ways a computation ends -/

/-- A result has `P` when it is a value and `F` when it is an exception. -/
def Settles (r : Except ε α) (P : α → Prop) (F : ε → Prop) : Prop :=
  match r with
  | .ok a => P a
  | .error e => F e

theorem Settles.bind {P : α → Prop} {Q : β → Prop} {F : ε → Prop} {r : Except ε α} {f : α → Except ε β}
    (h : Settles r P F) (hf : ∀ a, P a → Settles (f a) Q F) : Settles (r >>= f) Q F := by
  cases r with
  | ok a => exact hf a h
  | error e => exact h

theorem Settles.mono {P Q : α → Prop} {F G : ε → Prop} {r : Except ε α} (h : Settles r P F)
    (hP : ∀ a, P a → Q a) (hF : ∀ e, F e → G e) : Settles r Q G := by
  cases r with
  | ok a => exact hP a h
  | error e => exact hF e h

theorem settles_forM {f : α → Except ε Unit} {F : ε → Prop} {l : List α}
    (h : ∀ a ∈ l, Settles (f a) (fun _ => True) F) : Settles (l.forM f) (fun _ => True) F := by
  induction l with
  | nil => trivial
  | cons a l ih =>
    show Settles (f a >>= fun _ => l.forM f) _ _
    exact (h a List.mem_cons_self).bind fun _ _ => ih fun b hb => h b (List.mem_cons_of_mem _ hb)

/-- A fold keeps an invariant over the elements it has gone through. -/
theorem settles_foldlM {f : σ → α → Except ε σ} {I : List α → σ → Prop} {F : ε → Prop} {l : List α} {s : σ}
    (step : ∀ done a rest s, l = done ++ a :: rest → I done s → Settles (f s a) (I (done ++ [a])) F) (hs : I [] s) :
    Settles (l.foldlM f s) (I l) F := by
  have general : ∀ rest done s, l = done ++ rest → I done s → Settles (rest.foldlM f s) (I l) F := by
    intro rest
    induction rest with
    | nil =>
      intro done s hl hI
      rw [List.append_nil] at hl
      rw [hl]
      exact hI
    | cons a rest ih =>
      intro done s hl hI
      rw [List.foldlM_cons]
      refine (step done a rest s hl hI).bind fun s' hs' => ?_
      exact ih (done ++ [a]) s' (by rw [hl, List.append_assoc, List.singleton_append]) hs'
  exact general l [] s rfl hs

end ArdOssie
