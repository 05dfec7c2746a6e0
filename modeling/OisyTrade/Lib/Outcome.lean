import Mathlib.Tactic.Common

/-!
# Pre- and postconditions for computations that may trap

`Except ε` models code that either returns or aborts with an error.  `Outcome x E Q` says what
is known about a run of `x`: a returned value satisfies `Q`, and an error satisfies `E`.  With
`E := fun _ => False` it says that `x` returns.

The rules follow the structure of the code: `Outcome.bind` for sequencing, `expect_eq_ok` and
`assert_eq_ok` for checked steps, `mapM_forall₂` for a pass over a list.

`Agree R x y` compares two runs: they abort with the same error or return values related by `R`.
`Agree.bind` and `Agree.foldlM` are its rules.
-/

namespace Except

variable {ε α β : Type}

/-- A returned value satisfies `Q` and an error satisfies `E`. -/
def Outcome (x : Except ε α) (E : ε → Prop) (Q : α → Prop) : Prop :=
  match x with
  | .ok a => Q a
  | .error e => E e

/-- The error of a run that aborts. -/
def trap (x : Except ε α) : Option ε :=
  match x with
  | .ok _ => none
  | .error e => some e

@[simp] lemma outcome_ok {a : α} {E : ε → Prop} {Q : α → Prop} :
    (Except.ok a : Except ε α).Outcome E Q ↔ Q a := Iff.rfl

@[simp] lemma outcome_error {e : ε} {E : ε → Prop} {Q : α → Prop} :
    (Except.error e : Except ε α).Outcome E Q ↔ E e := Iff.rfl

@[simp] lemma outcome_pure {a : α} {E : ε → Prop} {Q : α → Prop} :
    (pure a : Except ε α).Outcome E Q ↔ Q a := Iff.rfl

/-- Unwrap an option, aborting with `e` when there is nothing in it. -/
def expect (o : Option α) (e : ε) : Except ε α :=
  match o with
  | some a => .ok a
  | none => .error e

/-- Abort with `e` unless `b` holds. -/
def assert (b : Bool) (e : ε) : Except ε Unit := if b then .ok () else .error e

-- The equations below are proved by `(rfl)`, so that `simp` records them as rewriting steps: the
-- kernel then compares the two sides of one bind instead of the unfolded programs around it.
@[simp] lemma expect_some (a : α) (e : ε) : expect (some a) e = .ok a := (rfl)

@[simp] lemma expect_none (e : ε) : (expect none e : Except ε α) = .error e := (rfl)

@[simp] lemma assert_true (e : ε) : assert true e = .ok () := (rfl)

@[simp] lemma assert_false (e : ε) : assert false e = .error e := (rfl)

@[simp] lemma bind_ok (a : α) (f : α → Except ε β) :
    ((Except.ok a : Except ε α) >>= f) = f a := (rfl)

@[simp] lemma bind_error (e : ε) (f : α → Except ε β) :
    ((Except.error e : Except ε α) >>= f) = .error e := (rfl)

lemma expect_eq_ok {o : Option α} {e : ε} {a : α} : expect o e = .ok a ↔ o = some a := by
  cases o <;> simp

lemma assert_eq_ok {b : Bool} {e : ε} {u : Unit} : assert b e = .ok u ↔ b = true := by
  cases b <;> simp

lemma bind_eq_ok {x : Except ε α} {f : α → Except ε β} {b : β} :
    (x >>= f) = .ok b ↔ ∃ a, x = .ok a ∧ f a = .ok b := by
  cases x <;> simp

lemma pure_eq_ok {a b : α} : (pure a : Except ε α) = .ok b ↔ a = b := by
  show (Except.ok a : Except ε α) = .ok b ↔ a = b
  simp

/-- The value of a computation that returns, and `d` otherwise. -/
def valueD (x : Except ε α) (d : α) : α :=
  match x with
  | .ok a => a
  | .error _ => d

lemma eq_ok_valueD {x : Except ε α} (d : α) (h : x.isOk = true) : x = .ok (x.valueD d) := by
  cases x with
  | ok a => rfl
  | error e => cases h

namespace Outcome

variable {x : Except ε α} {E E' : ε → Prop} {P Q : α → Prop} {R : β → Prop}

lemma mono (h : x.Outcome E P) (hE : ∀ e, E e → E' e) (hQ : ∀ a, P a → Q a) : x.Outcome E' Q := by
  cases x with
  | ok a => exact hQ a h
  | error e => exact hE e h

lemma bind {f : α → Except ε β} (h : x.Outcome E P) (hf : ∀ a, P a → (f a).Outcome E R) :
    (x >>= f).Outcome E R := by
  cases x with
  | ok a => exact hf a h
  | error e => exact h

lemma of_error {e : ε} (h : x.Outcome E Q) (hx : x = .error e) : E e := by subst hx; exact h

/-- What holds of the value may use where the value comes from. -/
lemma with_eq (h : x.Outcome E P) (hQ : ∀ a, x = .ok a → P a → Q a) : x.Outcome E Q := by
  cases x with
  | ok a => exact hQ a rfl h
  | error e => exact h

/-- A computation that cannot fail returns. -/
lemma returns (h : x.Outcome (fun _ => False) Q) : ∃ a, x = .ok a ∧ Q a := by
  cases x with
  | ok a => exact ⟨a, rfl, h⟩
  | error e => exact h.elim

end Outcome

/-- A map over keys that gives back the entry of each key. -/
lemma mapM_map_eq_ok {f : α → Except ε β} {key : β → α} {entries : List β}
    (h : ∀ e ∈ entries, f (key e) = .ok e) : (entries.map key).mapM f = .ok entries := by
  induction entries with
  | nil => rfl
  | cons e entries ih =>
      rw [List.map_cons, List.mapM_cons, h e List.mem_cons_self, Except.bind_ok,
        ih fun e' he' => h e' (List.mem_cons_of_mem _ he'), Except.bind_ok]
      rfl

/-- **A pass that goes through relates what it reads to what it returns.** -/
lemma mapM_forall₂ {f : α → Except ε β} {R : α → β → Prop} {l : List α}
    (h : ∀ a ∈ l, ∃ b, f a = .ok b ∧ R a b) :
    ∃ bs, l.mapM f = .ok bs ∧ List.Forall₂ R l bs := by
  induction l with
  | nil => exact ⟨[], rfl, .nil⟩
  | cons a l ih =>
      obtain ⟨b, hb, hR⟩ := h a List.mem_cons_self
      obtain ⟨bs, hbs, hall⟩ := ih fun a' ha' => h a' (List.mem_cons_of_mem _ ha')
      rw [List.mapM_cons, hb, Except.bind_ok, hbs, Except.bind_ok]
      exact ⟨_, rfl, .cons hR hall⟩

/-- A map whose every step returns returns. -/
lemma mapM_returns {f : α → Except ε β} {l : List α} (h : ∀ a ∈ l, ∃ b, f a = .ok b) :
    ∃ bs, l.mapM f = .ok bs := by
  obtain ⟨bs, hbs, -⟩ := mapM_forall₂ (R := fun _ _ => True) fun a ha =>
    (h a ha).imp fun _ hb => ⟨hb, trivial⟩
  exact ⟨bs, hbs⟩

/-! ## Two runs -/

/-- **Two runs agree**: they abort with the same error, or they return related values. -/
def Agree (R : α → β → Prop) (x : Except ε α) (y : Except ε β) : Prop :=
  match x, y with
  | .ok a, .ok b => R a b
  | .error e, .error e' => e = e'
  | _, _ => False

@[simp] lemma agree_ok {R : α → β → Prop} {a : α} {b : β} :
    Agree R (Except.ok a : Except ε α) (.ok b) ↔ R a b := Iff.rfl

lemma agree_eq {x y : Except ε α} (h : Agree Eq x y) : x = y := by
  cases x with
  | ok a =>
      cases y with
      | ok b => exact congrArg Except.ok h
      | error e => exact h.elim
  | error e =>
      cases y with
      | ok b => exact h.elim
      | error e' => exact congrArg Except.error h

namespace Agree

variable {γ δ : Type} {R : α → β → Prop} {S : γ → δ → Prop} {x : Except ε α} {y : Except ε β}

/-- What relates the values may use where they come from. -/
lemma with_eq {Q : α → β → Prop} (h : Agree R x y)
    (hR : ∀ a b, x = .ok a → y = .ok b → R a b → Q a b) : Agree Q x y := by
  cases x with
  | ok a =>
      cases y with
      | ok b => exact hR a b rfl rfl h
      | error e => exact h
  | error e =>
      cases y with
      | ok b => exact h
      | error e' => exact h

/-- **Sequencing.** -/
lemma bind {f : α → Except ε γ} {g : β → Except ε δ} (h : Agree R x y)
    (hfg : ∀ a b, R a b → Agree S (f a) (g b)) : Agree S (x >>= f) (y >>= g) := by
  cases x with
  | ok a =>
      cases y with
      | ok b => exact hfg a b h
      | error e => exact h.elim
  | error e =>
      cases y with
      | ok b => exact h.elim
      | error e' => exact h

/-- If one of two agreeing runs returns, both do. -/
lemma returns (h : Agree R x y) (hx : x.isOk = true) : ∃ a b, x = .ok a ∧ y = .ok b ∧ R a b := by
  cases x with
  | error e => cases hx
  | ok a =>
      cases y with
      | error e => exact h.elim
      | ok b => exact ⟨a, b, rfl, rfl, h⟩

/-- Runs that agree abort together, with the same error. -/
lemma error_iff (h : Agree R x y) (e : ε) : x = .error e ↔ y = .error e := by
  cases x with
  | ok a =>
      cases y with
      | ok b => exact ⟨nofun, nofun⟩
      | error e' => exact h.elim
  | error e₁ =>
      cases y with
      | ok b => exact h.elim
      | error e₂ =>
          obtain rfl : e₁ = e₂ := h
          exact ⟨fun he => congrArg _ (Except.error.inj he), fun he => congrArg _ (Except.error.inj he)⟩

/-- A run agrees with itself. -/
lemma self {R : α → α → Prop} (hR : ∀ a, x = .ok a → R a a) : Agree R x x := by
  cases x with
  | ok a => exact hR a rfl
  | error e => rfl

/-- Two runs that start with the same computation. -/
lemma andThen {f : α → Except ε γ} {g : α → Except ε δ} {x : Except ε α}
    (hfg : ∀ a, x = .ok a → Agree S (f a) (g a)) : Agree S (x >>= f) (x >>= g) := by
  cases x with
  | ok a => exact hfg a rfl
  | error e => rfl

/-- **Loops.**  Two folds over the same list agree if their iterations do. -/
lemma foldlM {f : α → γ → Except ε α} {g : β → γ → Except ε β} {l : List γ} {a : α} {b : β}
    (h : R a b) (hstep : ∀ a b x, R a b → Agree R (f a x) (g b x)) :
    Agree R (l.foldlM f a) (l.foldlM g b) := by
  induction l generalizing a b with
  | nil => exact h
  | cons x l ih =>
      rw [List.foldlM_cons, List.foldlM_cons]
      refine bind (hstep a b x h) ?_
      intro a' b' h'
      exact ih h'

end Agree

end Except
