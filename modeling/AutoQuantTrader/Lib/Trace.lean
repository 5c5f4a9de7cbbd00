import Mathlib.Data.List.Basic

/-!
# Runs of a labelled transition system

`Trace step s labels s'` is a run from `s` to `s'` that shows `labels`, in order.  An invariant of
every step holds along every run; it may also speak about the labels shown so far, or claim
something of each label.
-/

/-- A run and the labels it shows. -/
inductive Trace {σ ℓ : Type} (step : σ → ℓ → σ → Prop) (s : σ) : List ℓ → σ → Prop where
  | nil : Trace step s [] s
  | snoc {labels : List ℓ} {label : ℓ} {s' s'' : σ} (hrun : Trace step s labels s')
      (hstep : step s' label s'') : Trace step s (labels ++ [label]) s''

namespace Trace

variable {σ ℓ : Type} {step : σ → ℓ → σ → Prop} {s s' s'' : σ} {labels labels' : List ℓ}

theorem single {label : ℓ} (h : step s label s') : Trace step s [label] s' := snoc nil h

/-- **The invariant rule**, for an invariant that may speak about the labels shown so far. -/
theorem invariant_done (P : List ℓ → σ → Prop) (init : P [] s)
    (keeps : ∀ done s₁ label s₂, Trace step s done s₁ → P done s₁ → step s₁ label s₂ →
      P (done ++ [label]) s₂) (h : Trace step s labels s') : P labels s' := by
  induction h with
  | nil => exact init
  | snoc hrun hstep ih => exact keeps _ _ _ _ hrun ih hstep

/-- What every step keeps, a run keeps. -/
theorem invariant (P : σ → Prop) (init : P s)
    (keeps : ∀ s₁ label s₂, P s₁ → step s₁ label s₂ → P s₂) (h : Trace step s labels s') : P s' :=
  invariant_done (fun _ => P) init (fun _ _ _ _ _ hs hstep => keeps _ _ _ hs hstep) h

/-- From states of an invariant every step shows a label with `Q`. -/
theorem labels_of_invariant (P : σ → Prop) {Q : ℓ → Prop} (init : P s)
    (keeps : ∀ s₁ label s₂, P s₁ → step s₁ label s₂ → P s₂ ∧ Q label) (h : Trace step s labels s') :
    ∀ label ∈ labels, Q label := by
  refine (invariant_done (fun done s₁ => P s₁ ∧ ∀ label ∈ done, Q label) ⟨init, by simp⟩ ?_ h).2
  intro done s₁ label s₂ _ hdone hstep
  obtain ⟨hs, hlabel⟩ := keeps s₁ label s₂ hdone.1 hstep
  refine ⟨hs, fun l hl => ?_⟩
  rcases List.mem_append.1 hl with hold | hnew
  · exact hdone.2 l hold
  · rw [List.mem_singleton.1 hnew]
    exact hlabel

/-- A run over a list of labels in two parts passes through a state between them. -/
theorem exists_between (h : Trace step s (labels ++ labels') s'') :
    ∃ s', Trace step s labels s' ∧ Trace step s' labels' s'' := by
  generalize hall : labels ++ labels' = all at h
  induction h generalizing labels' with
  | nil =>
    obtain ⟨rfl, rfl⟩ := List.append_eq_nil_iff.1 hall
    exact ⟨s, nil, nil⟩
  | @snoc done label s₁ s₂ hrun hstep ih =>
    rcases List.eq_nil_or_concat' labels' with rfl | ⟨rest, last, rfl⟩
    · rw [List.append_nil] at hall
      exact ⟨s₂, hall ▸ snoc hrun hstep, nil⟩
    · rw [← List.append_assoc] at hall
      obtain ⟨rfl, hlast⟩ := List.append_inj' hall rfl
      obtain ⟨t, hfirst, hsecond⟩ := ih rfl
      rw [List.cons.inj hlast |>.1]
      exact ⟨t, hfirst, snoc hsecond hstep⟩

theorem eq_of_nil (h : Trace step s [] s') : s' = s := by
  generalize hlabels : [] = labels at h
  cases h with
  | nil => rfl
  | snoc _ _ => simp at hlabels

theorem step_of_single {label : ℓ} (h : Trace step s [label] s') : step s label s' := by
  rw [← List.nil_append [label]] at h
  generalize hlabels : [] ++ [label] = labels at h
  cases h with
  | nil => simp at hlabels
  | snoc hrun hstep =>
    obtain ⟨rfl, hlast⟩ := List.append_inj' hlabels rfl
    rw [List.cons.inj hlast |>.1]
    exact eq_of_nil hrun ▸ hstep

/-- The step of a run that showed a label. -/
theorem exists_step {label : ℓ} (h : Trace step s (labels ++ label :: labels') s'') :
    ∃ s₁ s₂, Trace step s labels s₁ ∧ step s₁ label s₂ ∧ Trace step s₂ labels' s'' := by
  obtain ⟨s₁, hbefore, hrest⟩ := exists_between h
  rw [← List.singleton_append] at hrest
  obtain ⟨s₂, hlabel, hafter⟩ := exists_between hrest
  exact ⟨s₁, s₂, hbefore, step_of_single hlabel, hafter⟩

end Trace
