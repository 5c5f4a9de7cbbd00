import Mathlib.Order.Basic

/-!
# Computations over a state that may raise

`Machine σ ε α` runs on a state `σ` and returns a value or raises an `ε`; what it did to the state
before it raised stays done, as in a method that assigns to its object and then throws.  `wp` is the
weakest precondition, with one postcondition for returning and one for raising.  `Moves R` says that
a computation takes the state only along `R`, however it ends; for a preorder `R` it is closed under
everything a program is built from.
-/

/-- A computation over a state that returns a value or raises. -/
def Machine (σ ε α : Type) : Type := σ → Except ε α × σ

namespace Machine

variable {σ ε α β : Type}

instance : Monad (Machine σ ε) where
  pure a := fun s => (.ok a, s)
  bind x f := fun s =>
    match x s with
    | (.ok a, s') => f a s'
    | (.error e, s') => (.error e, s')

/-- The state. -/
def read : Machine σ ε σ := fun s => (.ok s, s)

/-- Change the state. -/
def modify (f : σ → σ) : Machine σ ε Unit := fun s => (.ok (), f s)

def raise (e : ε) : Machine σ ε α := fun s => (.error e, s)

/-- A computation that does not see the state. -/
def lift (x : Except ε α) : Machine σ ε α := fun s => (x, s)

/-- `if bad: raise e`. -/
def raiseWhen (bad : Prop) [Decidable bad] (e : ε) : Machine σ ε Unit :=
  if bad then raise e else pure ()

/-- Run on a state of its own, made from the state around it and put back however the run ends. -/
def within {τ : Type} (enter : σ → τ) (leave : τ → σ) (x : Machine τ ε α) :
    Machine σ ε α := fun s =>
  match x (enter s) with
  | (r, t) => (r, leave t)

/-- `for a in l: body(a)`. -/
def each (l : List α) (body : α → Machine σ ε Unit) : Machine σ ε Unit :=
  match l with
  | [] => pure ()
  | a :: l => do
    body a
    each l body

/-! ## Running -/

variable {a : α} {body : α → Machine σ ε Unit} {e : ε} {l : List α}

section run

variable {x : Machine σ ε α} {f : α → Machine σ ε β} {s s' : σ}

theorem bind_of_ok (h : x s = (.ok a, s')) : (x >>= f) s = f a s' := by
  change (match x s with
    | (.ok a, s') => f a s'
    | (.error e, s') => (.error e, s')) = _
  rw [h]

theorem bind_of_error (h : x s = (.error e, s')) : (x >>= f) s = (.error e, s') := by
  change (match x s with
    | (.ok a, s') => f a s'
    | (.error e, s') => (.error e, s')) = _
  rw [h]

theorem each_cons_of_ok {u : Unit} (h : body a s = (.ok u, s')) :
    each (a :: l) body s = each l body s' :=
  bind_of_ok h

theorem each_cons_of_error (h : body a s = (.error e, s')) :
    each (a :: l) body s = (.error e, s') :=
  bind_of_error h

/-- A sequence that returned passed through a state between its parts. -/
theorem run_bind_eq_ok {b : β} :
    (x >>= f) s = (.ok b, s') ↔ ∃ a t, x s = (.ok a, t) ∧ f a t = (.ok b, s') := by
  rcases hx : x s with ⟨_ | a, t⟩
  · rw [bind_of_error hx]
    simp
  · rw [bind_of_ok hx]
    simp [and_assoc]

theorem each_append {l' : List α} :
    each (l ++ l') body s = (each l body >>= fun _ => each l' body) s := by
  induction l generalizing s with
  | nil => rfl
  | cons a l ih =>
    rw [List.cons_append, each, each]
    rcases hbody : body a s with ⟨_ | ⟨⟩, t⟩
    · rw [bind_of_error hbody, bind_of_error (bind_of_error hbody)]
    · rw [bind_of_ok hbody, ih]
      cases hrest : each l body t with
      | mk r u =>
        cases r with
        | error e => rw [bind_of_error hrest, bind_of_error ((bind_of_ok hbody).trans hrest)]
        | ok v => rw [bind_of_ok hrest, bind_of_ok ((bind_of_ok hbody).trans hrest)]

end run

/-! ## Weakest preconditions -/

/-- From `s` the computation returns with `Q` or raises with `E`. -/
def wp (x : Machine σ ε α) (Q : α → σ → Prop) (E : ε → σ → Prop) (s : σ) : Prop :=
  match x s with
  | (.ok a, s') => Q a s'
  | (.error e, s') => E e s'

variable {x : Machine σ ε α}

section wp

variable {Q Q' : α → σ → Prop} {R : β → σ → Prop} {E E' : ε → σ → Prop} {s : σ}

@[simp] theorem wp_pure : wp (pure a : Machine σ ε α) Q E s ↔ Q a s := Iff.rfl

@[simp] theorem wp_bind {f : α → Machine σ ε β} :
    wp (x >>= f) R E s ↔ wp x (fun a => wp (f a) R E) E s := by
  rw [wp, wp]
  change (match (match x s with
    | (.ok a, s') => f a s'
    | (.error e, s') => (.error e, s')) with
    | (.ok a, s') => R a s'
    | (.error e, s') => E e s') ↔ _
  rcases x s with ⟨_ | a, s'⟩
  · rfl
  · rfl

@[simp] theorem wp_read {Q : σ → σ → Prop} : wp (read : Machine σ ε σ) Q E s ↔ Q s s := Iff.rfl

@[simp] theorem wp_modify {f : σ → σ} {Q : Unit → σ → Prop} :
    wp (modify f : Machine σ ε Unit) Q E s ↔ Q () (f s) := Iff.rfl

@[simp] theorem wp_lift_ok : wp (lift (.ok a) : Machine σ ε α) Q E s ↔ Q a s := Iff.rfl

theorem wp_lift {x : Except ε α} (hok : ∀ a, x = .ok a → Q a s) (herror : ∀ e,
    x = .error e → E e s) : wp (lift x) Q E s := by
  cases x with
  | ok a => exact hok a rfl
  | error e => exact herror e rfl

theorem wp_raiseWhen {bad : Prop} [Decidable bad] {Q : Unit → σ → Prop} (hok : ¬ bad → Q () s)
    (hbad : bad → E e s) : wp (raiseWhen bad e) Q E s := by
  unfold raiseWhen
  split
  · next h => exact hbad h
  · next h => exact hok h

/-- Postconditions may be weakened. -/
theorem wp_mono (hQ : ∀ a s, Q a s → Q' a s) (hE : ∀ e s, E e s → E' e s) (h : wp x Q E s) :
    wp x Q' E' s := by
  unfold wp at h ⊢
  split at h
  · exact hQ _ _ h
  · exact hE _ _ h

/-- What holds of a run that returned. -/
theorem of_wp_ok {s' : σ} (h : wp x Q E s) (hx : x s = (.ok a, s')) : Q a s' := by
  rwa [wp, hx] at h

theorem of_wp_error {s' : σ} (h : wp x Q E s) (hx : x s = (.error e, s')) : E e s' := by
  rwa [wp, hx] at h

/-- What holds of a run, however it ended. -/
theorem of_wp {I : σ → Prop} (h : wp x (fun _ => I) (fun _ => I) s) : I (x s).2 := by
  unfold wp at h
  split at h
  · next heq => rwa [heq]
  · next heq => rwa [heq]

/-- **The loop rule over a list**: an invariant of the items still to come. -/
theorem wp_each {I : List α → σ → Prop}
    (step : ∀ a rest s, I (a :: rest) s → wp (body a) (fun _ => I rest) E s) (init : I l s) :
    wp (each l body) (fun _ => I []) E s := by
  induction l generalizing s with
  | nil => exact init
  | cons a l ih =>
    rw [each, wp_bind]
    exact wp_mono (fun _ _ hrest => ih hrest) (fun _ _ he => he) (step a l s init)

end wp

/-! ## Moving along a relation -/

/-- The computation takes the state along `R`, whether it returns or raises. -/
def Moves (R : σ → σ → Prop) (x : Machine σ ε α) : Prop :=
  ∀ s, wp x (fun _ => R s) (fun _ => R s) s

/-- A relation of the states alone. -/
theorem moves_of_state {R : σ → σ → Prop} (h : ∀ s, R s (x s).2) : Moves R x := by
  intro s
  unfold wp
  have hs := h s
  split
  · next heq => rwa [heq] at hs
  · next heq => rwa [heq] at hs

/-- A relation a program can be followed along. -/
structure IsPath (R : σ → σ → Prop) : Prop where
  refl : ∀ s, R s s
  trans : ∀ {s s' s''}, R s s' → R s' s'' → R s s''

namespace Moves

variable {R : σ → σ → Prop} (hR : IsPath R)

include hR

theorem pure (a : α) : Moves R (Pure.pure a : Machine σ ε α) := fun s => hR.refl s

theorem bind {f : α → Machine σ ε β} (hx : Moves R x) (hf : ∀ a, Moves R (f a)) :
    Moves R (x >>= f) := by
  intro s
  rw [wp_bind]
  refine wp_mono (fun a s' hs' => ?_) (fun _ _ he => he) (hx s)
  exact wp_mono (fun _ _ hs'' => hR.trans hs' hs'') (fun _ _ hs'' => hR.trans hs' hs'') (hf a s')

theorem each (hbody : ∀ a ∈ l, Moves R (body a)) : Moves R (Machine.each l body) := by
  induction l with
  | nil => exact pure hR ()
  | cons a l ih =>
    rw [Machine.each]
    exact bind hR (hbody a List.mem_cons_self) fun _ =>
      ih fun b hb => hbody b (List.mem_cons_of_mem a hb)

end Moves

end Machine
