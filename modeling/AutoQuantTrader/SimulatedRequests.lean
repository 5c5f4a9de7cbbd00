import Mathlib.Tactic.Linarith
import AutoQuantTrader.EngineContracts

/-!
# The simulated request limiter

The engine models its order and cancel requests: twenty a minute, ten of them of low priority.  The
limiter forgets rows older than a minute whenever it is asked.  As long as instants do not go back,
what it forgot can lie in no window that a later request lies in.
-/

namespace AutoQuantTrader

open Result

/-- The rows of the limiter: instants of requests, and whether they were of low priority. -/
abbrev SimulatedRequests := List (Instant × Bool)

namespace SimulatedRequests

/-- The rows of the last sixty seconds. -/
def recent (instant : Instant) (rows : SimulatedRequests) : SimulatedRequests :=
  rows.filter fun row => instant - 60000000 < row.1

def admits (rows : SimulatedRequests) (count : Nat) (lowPriority : Bool) : Bool :=
  rows.length + count ≤ 20 && (!lowPriority || rows.countP (·.2) + count ≤ 10)

/-- `permits`, which also forgets old rows. -/
def permits (instant : Instant) (count : Nat) (lowPriority : Bool) :
    Machine SimulatedRequests Fault Bool := do
  Machine.modify (recent instant)
  return admits (← Machine.read) count lowPriority

/-- `record`. -/
def record (instant : Instant) (lowPriority : Bool) : Machine SimulatedRequests Fault Unit := do
  let permitted ← permits instant 1 lowPriority
  Machine.raiseWhen (permitted = false) (.stop .rejected "SIMULATED_REQUEST_CAPACITY_EXHAUSTED")
  Machine.modify (· ++ [(instant, lowPriority)])

/-- The limits of one window. -/
def WithinLimits (rows : SimulatedRequests) : Prop := rows.length ≤ 20 ∧ rows.countP (·.2) ≤ 10

/-- A request is recorded if the recent ones leave room for it. -/
theorem record_eq (request : Instant × Bool) (rows : SimulatedRequests) :
    record request.1 request.2 rows =
      (if admits (recent request.1 rows) 1 request.2 then .ok ()
        else .error (.stop .rejected "SIMULATED_REQUEST_CAPACITY_EXHAUSTED"),
       if admits (recent request.1 rows) 1 request.2 then recent request.1 rows ++ [request]
        else recent request.1 rows) := by
  refine (Machine.bind_of_ok (rfl : permits request.1 1 request.2 rows = _)).trans ?_
  cases admits (recent request.1 rows) 1 request.2 <;> rfl

/-! ## Sequences of calls -/

/-- The limiter after some calls and what it let in.  A caller may go on after a refusal. -/
structure Run where
  (rows accepted : SimulatedRequests)

def Run.call (run : Run) (request : Instant × Bool) : Run :=
  match record request.1 request.2 run.rows with
  | (.ok _, rows) => ⟨rows, run.accepted ++ [request]⟩
  | (.error _, rows) => ⟨rows, run.accepted⟩

/-- The calls of a list, one after the other, on a new limiter. -/
def runOf (calls : List (Instant × Bool)) : Run := calls.foldl Run.call ⟨[], []⟩

/-- The requests with instants in a window. -/
def inWindow (p : Instant → Prop) [DecidablePred p] (rows : SimulatedRequests) :
    SimulatedRequests :=
  rows.filter fun row => p row.1

/-- What calls keep true of a run. -/
structure Run.Good (calls : List (Instant × Bool)) (run : Run) : Prop where
  called : run.accepted ⊆ calls
  -- what was forgotten is out of every window that a later call may count
  remembers : ∀ instant, (∀ earlier ∈ calls, earlier.1 ≤ instant) →
    recent instant run.rows = recent instant run.accepted
  limited : ∀ p : Instant → Prop, ∀ [DecidablePred p],
    (∀ i j, p i → p j → i - 60000000 < j) → WithinLimits (inWindow p run.accepted)

theorem recent_recent (h : first ≤ instant) :
    recent instant (recent first rows) = recent instant rows := by
  rw [recent, recent, List.filter_filter]
  refine List.filter_congr fun row _ => ?_
  simp only [Bool.and_eq_left_iff_imp, decide_eq_true_eq]
  intro hrow
  linarith

theorem WithinLimits.of_sublist (h : WithinLimits rows) (hsub : chosen.Sublist rows) :
    WithinLimits chosen :=
  ⟨hsub.length_le.trans h.1, hsub.countP_le.trans h.2⟩

section

variable {run : Run} {request : Instant × Bool} (h : run.Good calls)
  (hlast : ∀ earlier ∈ calls, earlier.1 ≤ request.1)
include h hlast

theorem Run.Good.recent_eq :
    recent request.1 run.rows =
      inWindow (fun i => request.1 - 60000000 < i ∧ i ≤ request.1) run.accepted := by
  rw [h.remembers _ hlast]
  refine List.filter_congr fun row hrow => ?_
  simp [hlast row (h.called hrow)]

/-- A request is let in exactly when the minute that ends with it keeps to the limits. -/
theorem Run.Good.admits_iff :
    admits (recent request.1 run.rows) 1 request.2 = true ↔
      WithinLimits (recent request.1 run.rows ++ [request]) := by
  have hlimits : WithinLimits (recent request.1 run.rows) := by
    rw [h.recent_eq hlast]
    exact h.limited _ fun i j hi hj => by linarith [hi.2, hj.1]
  cases hlow : request.2 <;> simp [admits, WithinLimits, hlow, hlimits.2]

/-- Every call keeps the run good. -/
theorem Run.Good.call : (run.call request).Good (calls ++ [request]) := by
  have hforgets : ∀ instant, (∀ earlier ∈ calls ++ [request], earlier.1 ≤ instant) →
      recent instant (recent request.1 run.rows) = recent instant run.accepted := by
    intro instant hall
    rw [forall_mem_snoc] at hall
    rw [recent_recent hall.2, h.remembers instant hall.1]
  have hcalled := List.subset_append_of_subset_left [request] h.called
  have hrecord := record_eq request run.rows
  unfold Run.call
  by_cases hadmits : admits (recent request.1 run.rows) 1 request.2 = true
  · rw [hrecord, if_pos hadmits, if_pos hadmits]
    refine ⟨List.append_subset.2 ⟨hcalled, by simp⟩, fun instant hall => ?_, fun p _ hp => ?_⟩
    · rw [recent, List.filter_append]
      exact (congrArg (· ++ _) (hforgets instant hall)).trans (List.filter_append ..).symm
    · rw [inWindow, List.filter_append]
      by_cases hrequest : p request.1
      · -- the others of the window are among the rows that were counted
        refine ((h.admits_iff hlast).1 hadmits).of_sublist (.append ?_ List.filter_sublist)
        rw [h.remembers _ hlast]
        exact List.monotone_filter_right _ fun row hrow => by
          simpa using hp _ _ hrequest (of_decide_eq_true hrow)
      · rw [List.filter_singleton, decide_eq_false hrequest, cond_false, List.append_nil]
        exact h.limited p hp
  · rw [hrecord, if_neg hadmits, if_neg hadmits]
    exact ⟨hcalled, hforgets, h.limited⟩

end

/-- Calls in time order run well. -/
theorem good_runOf (h : (calls.map Prod.fst).Pairwise (· ≤ ·)) : (runOf calls).Good calls := by
  induction calls using List.reverseRecOn with
  | nil => exact ⟨List.Subset.refl _, fun _ _ => rfl, fun _ _ _ => ⟨Nat.zero_le _, Nat.zero_le _⟩⟩
  | append_singleton calls request ih =>
    simp only [List.map_append, List.pairwise_append, List.map_cons, List.map_nil,
      List.forall_mem_map, List.forall_mem_singleton] at h
    rw [runOf, List.foldl_append]
    exact (ih h.1).call h.2.2

/-- Over calls with instants that do not go back, no half-open minute holds more accepted requests
than its limits, and a request is refused only when it would exceed them in the minute that ends
with it. -/
theorem accepted_requests_within_limits (calls : List (Instant × Bool))
    (hinstants : (calls.map Prod.fst).Pairwise (· ≤ ·)) :
    (∀ start, WithinLimits
      (inWindow (fun i => start ≤ i ∧ i < start + 60000000) (runOf calls).accepted)) ∧
    (∀ stop, WithinLimits
      (inWindow (fun i => stop - 60000000 < i ∧ i ≤ stop) (runOf calls).accepted)) ∧
    ∀ request : Instant × Bool, (∀ earlier ∈ calls, earlier.1 ≤ request.1) → ∀ fault,
      (record request.1 request.2 (runOf calls).rows).1 = .error fault →
      ¬ WithinLimits (inWindow (fun i => request.1 - 60000000 < i ∧ i ≤ request.1)
        ((runOf calls).accepted ++ [request])) := by
  have hgood := good_runOf hinstants
  refine ⟨fun start => hgood.limited _ fun i j hi hj => by linarith [hi.2, hj.1],
    fun stop => hgood.limited _ fun i j hi hj => by linarith [hi.2, hj.1],
    fun request hlast fault hrefused hlimits => ?_⟩
  have hadmits : admits (recent request.1 (runOf calls).rows) 1 request.2 = true := by
    rw [hgood.admits_iff hlast, hgood.recent_eq hlast]
    simpa [inWindow] using hlimits
  rw [record_eq, if_pos hadmits] at hrefused
  cases hrefused

theorem eleventh_low_request_refused :
    ¬ WithinLimits (inWindow (fun i => (0 : Instant) - 60000000 < i ∧ i ≤ 0)
      ((runOf (List.replicate 10 (0, true))).accepted ++ [(0, true)])) :=
  (accepted_requests_within_limits (List.replicate 10 (0, true)) (by decide)).2.2 (0, true)
    (by decide) (.stop .rejected "SIMULATED_REQUEST_CAPACITY_EXHAUSTED") (by decide +kernel)

end SimulatedRequests

end AutoQuantTrader
