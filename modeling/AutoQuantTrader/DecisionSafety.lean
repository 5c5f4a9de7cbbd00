import AutoQuantTrader.ApprovedInstallation

/-!
# Decisions are atomic

A decision of the engine projects the account, asks the strategy, has risk evaluate the batch and
installs it.  However it ends, the account is as it was before, or it holds every commitment of one
batch that was converted from that projection, approved on it and admitted by the limiter.
-/

namespace AutoQuantTrader.Engine

open Result Machine

variable {Z : EasternTime} {E : EngineEnv Z} {s s' s₁ : EngineState} {batch : DailyIntentBatch}
  {decision : DailyRiskDecision}

/-! ## What leaves the account alone -/

/-- The account is as it was, at the same instant. -/
def SameAccount (s s' : EngineState) : Prop := (s'.state, s'.now) = (s.state, s.now)

section frame

variable {α β : Type}

theorem wp_py {x : Py α} {Q : α → EngineState → Prop} {R : Fault → EngineState → Prop}
    (hok : ∀ a, x = .ok a → Q a s) (hbad : ∀ e, R e s) : wp (py x) Q R s := by
  cases x with
  | ok a => exact hok a rfl
  | error e => exact hbad _

end frame

/-- A projection shows the account at the point it is made. -/
theorem project_spec : wp (project E eventId stage)
    (fun account s' => account = s'.current.snapshot ∧ SameAccount s s' ∧
      E.accounting.project s'.state (context E s'.toEnginePoint eventId none)
        E.spec.executionPolicy = .ok s'.current)
    (fun _ => SameAccount s) s := by
  rw [project, wp_bind, point, wp_modify, wp_bind, wp_read, wp_bind]
  exact wp_py (fun t hproject => ⟨rfl, rfl, hproject⟩) fun _ => rfl

/-! ## Installation -/

/-- The account is as it was, or it has every commitment of one batch that risk approved on the
account as it was projected, with a request of the limiter left for each. -/
def Decides (E : EngineEnv Z) (s s' : EngineState) : Prop :=
  SameAccount s s' ∨ ∃ s₁ batch decision results, SameAccount s s₁ ∧
    ApprovedAt E s₁ batch decision ∧ batch.intents ≠ [] ∧
    SimulatedRequests.admits (SimulatedRequests.recent s₁.now s₁.requests)
      batch.intents.length true = true ∧
    InstallsAll E batch decision s₁.current.snapshot batch.intents s₁.state s₁.toEnginePoint
      s'.state results

/-- An installed batch is a run of own commands. -/
theorem InstallsAll.run {results : List AccountingTransition}
    (hport : E.accounting = personalAccounting E.hashes.toAccountingHashes Z)
    (h : InstallsAll E batch decision before intents state p state' results) :
    Run E.hashes.toAccountingHashes Z IsOwn state state' := by
  induction h with
  | nil => exact .refl
  | cons htry happlied hrest ih =>
    simp only [tryIntent, eq_ok, hport] at htry
    obtain ⟨submission, -, c, -, hadvance⟩ := htry
    exact .head ⟨_, _, _, _, fun event heq => by contradiction, hadvance, rfl⟩ ih

end AutoQuantTrader.Engine
