import Mathlib.Algebra.BigOperators.Group.List.Basic
import Mathlib.Data.List.Perm.Basic

/-!
# Fallible computations

`Except ε` as the meaning of code that may raise.  Straight-line code is written with `do` and
`throwIf`; loops are `List.foldlM` and `List.mapM`.  The lemmas of this file take a computation
that returned apart: `bind_eq_ok` peels one statement, `throwIf_eq_ok` turns a check that let the
computation through into a fact, and `foldlM_invariant` is the rule for loops.
-/

namespace Result

variable {ε : Type} {α β σ : Type}

/-- `if c: raise e`. -/
def throwIf (c : Prop) [Decidable c] (e : ε) : Except ε Unit :=
  if c then .error e else .ok ⟨⟩

variable {e : ε}

@[simp] theorem throwIf_eq_ok {c : Prop} [Decidable c] {u : Unit} : throwIf c e = .ok u ↔ ¬ c := by
  unfold throwIf
  split <;> simp_all

variable {b : β} {x : Except ε α}

@[simp] theorem bind_eq_ok {f : α → Except ε β} :
    (x >>= f) = .ok b ↔ ∃ a, x = .ok a ∧ f a = .ok b := by
  cases x <;> simp [bind, Except.bind]

/-- A sequence raises in its first part or in its second. -/
theorem bind_eq_error {f : α → Except ε β} :
    (x >>= f) = .error e ↔ x = .error e ∨ ∃ a, x = .ok a ∧ f a = .error e := by
  cases x <;> simp [bind, Except.bind]

variable {a : α}

@[simp] theorem pure_eq_ok {b : α} : (pure a : Except ε α) = .ok b ↔ a = b := by
  simp [pure, Except.pure]

@[simp] theorem throw_eq_ok {b : α} : ¬ (throw e : Except ε α) = .ok b := by
  simp [throw, throwThe, MonadExceptOf.throw]

@[simp] theorem map_eq_ok {f : α → β} : (f <$> x) = .ok b ↔ ∃ a, x = .ok a ∧ f a = b := by
  cases x <;> simp [Functor.map, Except.map]

/-- The value of an optional lookup, or the exception the lookup raises. -/
def getOrThrow (o : Option α) (e : ε) : Except ε α :=
  match o with
  | some a => .ok a
  | none => .error e

@[simp] theorem getOrThrow_eq_ok {o : Option α} : getOrThrow o e = .ok a ↔ o = some a := by
  cases o <;> simp [getOrThrow]

/-- What a block returns: the rules that take it apart, for `simp`. -/
theorem eq_ok : (∀ {α β : Type} {x : Except ε α} {f : α → Except ε β} {b : β},
      (x >>= f) = .ok b ↔ ∃ a, x = .ok a ∧ f a = .ok b) ∧
    (∀ {α : Type} {a b : α}, (pure a : Except ε α) = .ok b ↔ a = b) ∧
    (∀ {α β : Type} {x : Except ε α} {f : α → β} {b : β},
      (f <$> x) = .ok b ↔ ∃ a, x = .ok a ∧ f a = b) ∧
    ∀ {α : Type} {o : Option α} {e : ε} {a : α}, getOrThrow o e = .ok a ↔ o = some a :=
  ⟨bind_eq_ok, pure_eq_ok, map_eq_ok, getOrThrow_eq_ok⟩

/-! ## Loops -/

variable {f : σ → α → Except ε σ} {s t : σ}

@[simp] theorem foldlM_nil_eq_ok : List.foldlM f s [] = .ok t ↔ s = t := by
  simp [List.foldlM, pure, Except.pure]

variable {l : List α}

@[simp] theorem foldlM_cons_eq_ok :
    List.foldlM f s (a :: l) = .ok t ↔ ∃ s', f s a = .ok s' ∧ List.foldlM f s' l = .ok t := by
  simp [List.foldlM]

theorem foldlM_snoc_eq_ok :
    List.foldlM f s (l ++ [a]) = .ok t ↔ ∃ s', List.foldlM f s l = .ok s' ∧ f s' a = .ok t := by
  simp only [List.foldlM_append, eq_ok, foldlM_cons_eq_ok, foldlM_nil_eq_ok, exists_eq_right]

/-- A loop that got through a list got through every prefix of it. -/
theorem exists_foldlM_of_prefix {l' : List α} (hl : l <+: l') (h : l'.foldlM f s = .ok t) :
    ∃ u, l.foldlM f s = .ok u := by
  obtain ⟨rest, rfl⟩ := hl
  rw [List.foldlM_append, bind_eq_ok] at h
  exact h.imp fun _ hu => hu.1

/-- The loop rule with the items already consumed: `P done s` is carried along the list. -/
theorem foldlM_invariant_done (P : List α → σ → Prop)
    (step : ∀ done a s s', a ∈ l → P done s → f s a = .ok s' → P (done ++ [a]) s') (init : P [] s)
    (h : List.foldlM f s l = .ok t) : P l t := by
  suffices H : ∀ (rest done : List α) (s : σ), rest ⊆ l → P done s →
      List.foldlM f s rest = .ok t → P (done ++ rest) t by
    simpa using H l [] s (List.Subset.refl l) init h
  intro rest
  induction rest with
  | nil =>
    intro done s _ hs ht
    rw [foldlM_nil_eq_ok] at ht
    simpa [← ht] using hs
  | cons a rest ih =>
    intro done s hrest hs ht
    obtain ⟨s', hs', ht'⟩ := foldlM_cons_eq_ok.1 ht
    have ha : a ∈ l := hrest List.mem_cons_self
    have htail : rest ⊆ l := fun b hb => hrest (List.mem_cons_of_mem a hb)
    simpa using ih (done ++ [a]) s' htail (step done a s s' ha hs hs') ht'

/-- **The loop rule**: what every iteration preserves holds after the loop. -/
theorem foldlM_invariant (P : σ → Prop) (step : ∀ s a s', a ∈ l → P s → f s a = .ok s' → P s')
    (init : P s) (h : List.foldlM f s l = .ok t) : P t :=
  foldlM_invariant_done (fun _ => P) (fun _ a s s' => step s a s') init h

variable {ε' : Type}

/-- **The rule for two loops over the same items**: what every pair of iterations preserves holds
after the loops. -/
theorem foldlM_invariant₂ {τ : Type} {g : τ → α → Except ε' τ} (P : σ → τ → Prop) {s' : σ}
    {t t' : τ} (step : ∀ s t a s' t', a ∈ l → P s t → f s a = .ok s' → g t a = .ok t' → P s' t')
    (init : P s t) (hf : List.foldlM f s l = .ok s') (hg : List.foldlM g t l = .ok t') :
    P s' t' := by
  induction l generalizing s t with
  | nil =>
    rw [foldlM_nil_eq_ok] at hf hg
    exact hf ▸ hg ▸ init
  | cons a l ih =>
    obtain ⟨u, hu, hf⟩ := foldlM_cons_eq_ok.1 hf
    obtain ⟨v, hv, hg⟩ := foldlM_cons_eq_ok.1 hg
    refine ih (fun s t b s' t' hb => step s t b s' t' (List.mem_cons_of_mem a hb)) ?_ hf hg
    exact step s t a u v List.mem_cons_self init hu hv

/-- An invariant that may speak about the items that are still to come. -/
theorem foldlM_invariant_rest (P : List α → σ → Prop)
    (step : ∀ a rest s s', P (a :: rest) s → f s a = .ok s' → P rest s') (init : P l s)
    (h : l.foldlM f s = .ok t) : P [] t := by
  induction l generalizing s with
  | nil =>
    rw [foldlM_nil_eq_ok] at h
    exact h ▸ init
  | cons a l ih =>
    obtain ⟨s', hs, ht⟩ := foldlM_cons_eq_ok.1 h
    exact ih (step a l s s' init hs) ht

/-- An item that a fold passes over might as well not be there. -/
theorem foldlM_of_neutral {x : α} (h : ∀ s, f s x = .ok s) (l₁ l₂ : List α) (s : σ) :
    (l₁ ++ x :: l₂).foldlM f s = (l₁ ++ l₂).foldlM f s := by
  rw [List.foldlM_append, List.foldlM_append]
  congr 1
  funext t
  rw [List.foldlM_cons, h t]
  rfl

/-- **The loop rule for termination without an exception**: if `P` lets every iteration through and
is carried along, the loop returns. -/
theorem foldlM_total (P : List α → σ → Prop)
    (step : ∀ done a rest s, done ++ a :: rest = l → P done s → ∃ s', f s a = .ok s' ∧
      P (done ++ [a]) s')
    (init : P [] s) : ∃ t, l.foldlM f s = .ok t ∧ P l t := by
  suffices H : ∀ (rest done : List α) (s : σ), done ++ rest = l → P done s →
      ∃ t, rest.foldlM f s = .ok t ∧ P (done ++ rest) t by
    simpa using H l [] s rfl init
  intro rest
  induction rest with
  | nil =>
    intro done s _ hs
    exact ⟨s, foldlM_nil_eq_ok.2 rfl, by simpa using hs⟩
  | cons a rest ih =>
    intro done s hl hs
    obtain ⟨s', hs', hP⟩ := step done a rest s hl hs
    obtain ⟨t, ht, hPt⟩ := ih (done ++ [a]) s' (by simpa using hl) hP
    exact ⟨t, foldlM_cons_eq_ok.2 ⟨s', hs', ht⟩, by simpa using hPt⟩

/-- **The simulation rule**: if every iteration of one loop is, seen through `π`, an iteration of
another, then so is the loop. -/
theorem foldlM_simulation {τ : Type} {g : τ → α → Except ε' τ} (π : σ → τ)
    (step : ∀ s a s', a ∈ l → f s a = .ok s' → g (π s) a = .ok (π s'))
    (h : List.foldlM f s l = .ok t) : List.foldlM g (π s) l = .ok (π t) := by
  refine foldlM_invariant_done (fun done u => List.foldlM g (π s) done = .ok (π u)) ?_
    (foldlM_nil_eq_ok.2 rfl) h
  intro done a u u' ha hdone hu
  exact foldlM_snoc_eq_ok.2 ⟨π u, hdone, step u a u' ha hu⟩

/-- A loop whose iterations check the item before they use it checks all items. -/
theorem foldlM_guarded_eq_ok {g : σ → α → Except ε σ} {P : α → Prop}
    (step : ∀ s a s', f s a = .ok s' ↔ P a ∧ g s a = .ok s') :
    l.foldlM f s = .ok t ↔ (∀ a ∈ l, P a) ∧ l.foldlM g s = .ok t := by
  induction l generalizing s with
  | nil => simp
  | cons a l ih =>
    simp only [foldlM_cons_eq_ok, step, ih, List.forall_mem_cons]
    constructor
    · rintro ⟨s', ⟨ha, hs'⟩, hl, ht⟩
      exact ⟨⟨ha, hl⟩, s', hs', ht⟩
    · rintro ⟨⟨ha, hl⟩, s', hs', ht⟩
      exact ⟨s', ⟨ha, hs'⟩, hl, ht⟩

variable {bs : List β}

@[simp] theorem mapM_nil_eq_ok {f : α → Except ε β} : List.mapM f [] = .ok bs ↔ [] = bs := by
  simp

variable {as : List α}

@[simp] theorem mapM_cons_eq_ok {f : α → Except ε β} : List.mapM f (a :: as) = .ok bs ↔
      ∃ b, f a = .ok b ∧ ∃ bs', List.mapM f as = .ok bs' ∧ b :: bs' = bs := by
  simp [List.mapM_cons]

theorem mapM_append_eq_ok {f : α → Except ε β} {as' : List α} : List.mapM f (as ++ as') = .ok bs ↔
      ∃ cs, List.mapM f as = .ok cs ∧ ∃ cs', List.mapM f as' = .ok cs' ∧ cs ++ cs' = bs := by
  simp only [List.mapM_append, eq_ok]

/-- A `mapM` relates its lists item by item. -/
theorem mapM_eq_ok {f : α → Except ε β} :
    List.mapM f as = .ok bs ↔ List.Forall₂ (fun a b => f a = .ok b) as bs := by
  induction as generalizing bs with
  | nil => rw [mapM_nil_eq_ok, List.forall₂_nil_left_iff, eq_comm]
  | cons a as ih =>
    simp only [mapM_cons_eq_ok, ih, List.forall₂_cons_left_iff, exists_and_left, @eq_comm _ _ bs]

theorem mapM_congr {f g : α → Except ε β} (h : ∀ a ∈ as, f a = g a) : as.mapM f = as.mapM g := by
  induction as with
  | nil => rfl
  | cons a as ih =>
    rw [List.mapM_cons, List.mapM_cons, h a List.mem_cons_self,
      ih fun a' ha' => h a' (List.mem_cons_of_mem a ha')]

variable {γ : Type}

/-- Two `mapM`s over the same items relate their results item by item. -/
theorem forall₂_of_mapM₂ {f : α → Except ε β} {g : α → Except ε' γ} {R : β → γ → Prop} {cs : List γ}
    (hR : ∀ a ∈ as, ∀ b c, f a = .ok b → g a = .ok c → R b c) (hf : List.mapM f as = .ok bs)
    (hg : List.mapM g as = .ok cs) : List.Forall₂ R bs cs := by
  induction as generalizing bs cs with
  | nil =>
    rw [mapM_nil_eq_ok] at hf hg
    exact hf ▸ hg ▸ .nil
  | cons a as ih =>
    obtain ⟨b, hb, bs', hbs, rfl⟩ := mapM_cons_eq_ok.1 hf
    obtain ⟨c, hc, cs', hcs, rfl⟩ := mapM_cons_eq_ok.1 hg
    refine .cons (hR a List.mem_cons_self b c hb hc) (ih (fun a' ha' => ?_) hbs hcs)
    exact hR a' (List.mem_cons_of_mem a ha')

/-- A `mapM` returns if its function does. -/
theorem exists_mapM {f : α → Except ε β} (h : ∀ a ∈ as, ∃ b, f a = .ok b) :
    ∃ bs, List.mapM f as = .ok bs := by
  induction as with
  | nil => exact ⟨[], mapM_nil_eq_ok.2 rfl⟩
  | cons a as ih =>
    obtain ⟨b, hb⟩ := h a List.mem_cons_self
    obtain ⟨bs, hbs⟩ := ih fun a' ha' => h a' (List.mem_cons_of_mem a ha')
    exact ⟨b :: bs, mapM_cons_eq_ok.2 ⟨b, hb, bs, hbs, rfl⟩⟩

/-- Inputs and results of a `mapM` belong to each other. -/
theorem mapM_related {f : α → Except ε β} (h : List.mapM f as = .ok bs) :
    (∀ b ∈ bs, ∃ a ∈ as, f a = .ok b) ∧ ∀ a ∈ as, ∃ b ∈ bs, f a = .ok b := by
  induction as generalizing bs with
  | nil =>
    rw [mapM_nil_eq_ok] at h
    simp [← h]
  | cons a as ih =>
    obtain ⟨b, hb, bs', hbs, rfl⟩ := mapM_cons_eq_ok.1 h
    obtain ⟨hresults, hinputs⟩ := ih hbs
    simp only [List.forall_mem_cons, List.exists_mem_cons_iff]
    exact ⟨⟨.inl hb, fun b hmem => .inr (hresults b hmem)⟩,
      .inl hb, fun a hmem => .inr (hinputs a hmem)⟩

/-- Every result of a `mapM` comes from one of its inputs. -/
theorem exists_of_mem_mapM {f : α → Except ε β} (h : List.mapM f as = .ok bs) (hb : b ∈ bs) :
    ∃ a ∈ as, f a = .ok b :=
  (mapM_related h).1 b hb

/-- Every input of a `mapM` has a result. -/
theorem exists_mem_of_mapM {f : α → Except ε β} (h : List.mapM f as = .ok bs) (ha : a ∈ as) :
    ∃ b ∈ bs, f a = .ok b :=
  (mapM_related h).2 a ha

variable {F : α → Except ε β}

/-- Inputs that are pairwise related have results that are. -/
theorem pairwise_of_mapM {R : α → α → Prop} {S : β → β → Prop}
    (hRS : ∀ a a' b b', R a a' → F a = .ok b → F a' = .ok b' → S b b') (hR : as.Pairwise R)
    (h : List.mapM F as = .ok bs) : bs.Pairwise S := by
  induction as generalizing bs with
  | nil =>
    rw [mapM_nil_eq_ok] at h
    exact h ▸ List.Pairwise.nil
  | cons a as ih =>
    obtain ⟨b, hb, bs', hbs, rfl⟩ := mapM_cons_eq_ok.1 h
    obtain ⟨ha, has⟩ := List.pairwise_cons.1 hR
    refine List.pairwise_cons.2 ⟨fun b' hb' => ?_, ih has hbs⟩
    obtain ⟨a', ha', hfa⟩ := exists_of_mem_mapM hbs hb'
    exact hRS a a' b b' (ha a' ha') hb hfa

/-- Two maps over the same inputs agree in what their results agree in item by item. -/
theorem map_eq_of_mapM {δ : Type} {G : α → Except ε γ} {f : β → δ} {g : γ → δ}
    (hfg : ∀ a b c, F a = .ok b → G a = .ok c → f b = g c) {cs : List γ}
    (hF : List.mapM F as = .ok bs) (hG : List.mapM G as = .ok cs) : bs.map f = cs.map g := by
  rw [← List.forall₂_eq_eq_eq, List.forall₂_map_left_iff, List.forall₂_map_right_iff]
  exact forall₂_of_mapM₂ (fun a _ => hfg a) hF hG

/-- What is read off the results of a `mapM` can be read off its inputs. -/
theorem map_of_mapM {f : α → γ} {g : β → γ} (hfg : ∀ a b, F a = .ok b → g b = f a)
    (h : List.mapM F as = .ok bs) : bs.map g = as.map f := by
  rw [eq_comm, ← List.forall₂_eq_eq_eq, List.forall₂_map_left_iff, List.forall₂_map_right_iff]
  exact (mapM_eq_ok.1 h).imp fun a b hab => (hfg a b hab).symm

/-- Adding up over the results of a `mapM` is adding up over its inputs. -/
theorem sum_map_of_mapM {M : Type} [AddMonoid M] {f : α → M} {g : β → M}
    (hfg : ∀ a b, F a = .ok b → g b = f a) (h : List.mapM F as = .ok bs) :
    (bs.map g).sum = (as.map f).sum :=
  congrArg List.sum (map_of_mapM hfg h)

/-- Two functions that agree on where the first one returns map a list to the same results. -/
theorem mapM_of_mapM {f : α → Except ε β} {g : α → Except ε' β}
    (hfg : ∀ a ∈ as, ∀ b, f a = .ok b → g a = .ok b) (h : List.mapM f as = .ok bs) :
    List.mapM g as = .ok bs := by
  have hall := (List.forall₂_and_left as bs).2 ⟨fun _ ha => ha, mapM_eq_ok.1 h⟩
  exact mapM_eq_ok.2 (hall.imp fun a b hab => hfg a hab.1 b hab.2)

/-- Items in another order are mapped to the results in another order. -/
theorem exists_mapM_of_perm {f : α → Except ε β} {as' : List α} (hperm : as.Perm as')
    (h : List.mapM f as = .ok bs) : ∃ bs', List.mapM f as' = .ok bs' ∧ bs.Perm bs' := by
  obtain ⟨bs', hbs', hperm'⟩ := List.perm_comp_forall₂ hperm.symm (mapM_eq_ok.1 h)
  exact ⟨bs', mapM_eq_ok.2 hbs', hperm'.symm⟩

/-- A loop of checks passes when every check does. -/
theorem forM_eq_ok {f : α → Except ε Unit} {u : Unit} :
    List.forM l f = .ok u ↔ ∀ a ∈ l, f a = .ok () := by
  induction l with
  | nil => simp [pure, Except.pure]
  | cons a l ih =>
    have hcons : List.forM (a :: l) f = (f a >>= fun _ => List.forM l f) := rfl
    rw [hcons, bind_eq_ok, List.forall_mem_cons, ← ih]
    constructor
    · rintro ⟨⟨⟩, ha, hl⟩; exact ⟨ha, hl⟩
    · rintro ⟨ha, hl⟩; exact ⟨(), ha, hl⟩

/-! ## Lists that grow at their end -/

section snoc

variable {xs : List α} {x y : α}

theorem mem_snoc : x ∈ xs ++ [y] ↔ x ∈ xs ∨ x = y := by
  rw [List.mem_append, List.mem_singleton]

theorem forall_mem_snoc {p : α → Prop} : (∀ x ∈ xs ++ [y], p x) ↔ (∀ x ∈ xs, p x) ∧ p y := by
  rw [List.forall_mem_append, List.forall_mem_singleton]

theorem sum_map_snoc {M : Type} [AddMonoid M] {f : α → M} :
    ((xs ++ [y]).map f).sum = (xs.map f).sum + f y := by
  rw [List.map_append, List.sum_append, List.map_singleton, List.sum_singleton]

end snoc

end Result
