import AutoQuantTrader.DecimalBounds
import AutoQuantTrader.RiskDecisions

/-!
# What single-use approvals reserve

Every decision is recorded under its intent, and the cash that an account has reserved is what its
approved decisions reserve.  An approval leaves the buffer in place, so no run of calls can reserve
more than the capacity without the buffer.
-/

namespace AutoQuantTrader

open Result Machine

variable {H : RiskHashes} {limits : RiskLimits} {intent : OrderIntent}
  {snapshot : RiskAccountSnapshot} {s s' : RiskDecisionStore} {decision : RiskDecision}
  {event : RiskEvent} {events : List RiskEvent} {t : Instant}

/-! ## Decisions -/

/-- What the policy decides about an intent. -/
structure Evaluated (H : RiskHashes) (limits : RiskLimits) (intent : OrderIntent) (available : ℚ)
    (decision : RiskDecision) : Prop where
  intentId : decision.val.intentId = intent.val.intentId
  payload : decision.val.intentPayloadHash = H.intentPayloadHash intent
  buffer : decision.val.status = .approved →
    limits.val.minimumCashBuffer ≤ available - decision.val.reservedCash

theorem cashBuffer_of_approved
    (h : phase0Status (phase0Rules intent limits notional remaining t) = .approved) :
    limits.val.minimumCashBuffer ≤ remaining := by
  unfold phase0Status at h
  split at h
  · next hall =>
    simp only [phase0Rules, List.all_cons, List.all_nil, Bool.and_true, Bool.and_eq_true,
      decide_eq_true_eq] at hall
    exact hall.2.2.2.2.1
  · cases h

/-- A decision is the evaluation of its intent. -/
theorem evaluateRiskDecision_spec
    (h : evaluateRiskDecision H intent limits available t = .ok decision) :
    Evaluated H limits intent available decision := by
  simp only [evaluateRiskDecision, Py.eq_ok, canonicalPersistedDecimal_eq_ok] at h
  obtain ⟨_, -, _, -, _, ⟨-, rfl⟩, notional, -, required, -, remaining, hremaining, hdecision⟩ := h
  refine ⟨congrArg (·.intentId) hdecision, congrArg (·.intentPayloadHash) hdecision,
    fun happroved => ?_⟩
  have hstatus : phase0Status (phase0Rules intent limits notional remaining t) = .approved :=
    (congrArg (·.status) hdecision).symm.trans happroved
  have hreserved : decision.val.reservedCash = required := by
    rw [hdecision]
    exact if_pos hstatus
  rw [hreserved, ← exactDecimalSubtract_eq hremaining]
  exact cashBuffer_of_approved hstatus

/-- What a decision reserves is an amount, and a rejection reserves nothing. -/
theorem RiskDecision.reservedCash_spec (decision : RiskDecision) :
    isPersisted decision.val.reservedCash ∧ 0 ≤ decision.val.reservedCash ∧
      (decision.val.status ≠ .approved → decision.val.reservedCash = 0) := by
  have h := decision.passes
  simp only [RiskDecisionFields.postInit, Py.eq_ok, canonicalPersistedDecimal_eq_ok, not_and,
    not_lt] at h
  obtain ⟨_, -, _, hnonneg, _, ⟨hpersisted, -⟩, _, -, _, -, _, -, hrejected⟩ := h
  refine ⟨hpersisted, hnonneg, fun hstatus => hrejected ?_⟩
  cases hs : decision.val.status with
  | approved => exact absurd hs hstatus
  | rejected => rfl

/-! ## What a call does -/

/-- The capacity that a snapshot finds, and what is reserved from it. -/
structure FindsCapacity (s : RiskDecisionStore) (snapshot : RiskAccountSnapshot)
    (capacity reserved : ℚ) : Prop where
  available : capacity = snapshot.val.availableCash
  known : s.snapshots.get? snapshot.val.accountId = none ∧ reserved = 0 ∨
    s.snapshots.get? snapshot.val.accountId = some (snapshot.val.version, capacity, reserved)

/-- The store with one more decision and its cash reserved. -/
def RiskDecisionStore.publish (s : RiskDecisionStore) (intent : OrderIntent)
    (snapshot : RiskAccountSnapshot) (capacity reserved : ℚ) (decision : RiskDecision) :
    RiskDecisionStore :=
  { RiskRepository.record intent snapshot decision s with
    snapshots := s.snapshots.set snapshot.val.accountId
      (snapshot.val.version, capacity, reserved + decision.val.reservedCash) }

/-- What `authorize` can do. -/
inductive RiskDecides (H : RiskHashes) (limits : RiskLimits) (s : RiskDecisionStore)
    (intent : OrderIntent) (snapshot : RiskAccountSnapshot) (decision : RiskDecision) :
    RiskDecisionStore → Prop where
  | repeated {decisionId : Str} (hid : s.intentDecisions.get? intent.val.intentId = some decisionId)
      (hknown : s.decisions.get? decisionId = some decision)
      (hpayload : decision.val.intentPayloadHash = H.intentPayloadHash intent) :
      RiskDecides H limits s intent snapshot decision s
  | published {capacity reserved : ℚ} (hnew : s.intentDecisions.get? intent.val.intentId = none)
      (hfree : s.decisions.get? decision.val.decisionId = none)
      (hcapacity : FindsCapacity s snapshot capacity reserved)
      (hevaluated : Evaluated H limits intent (capacity - reserved) decision) :
      RiskDecides H limits s intent snapshot decision
        (s.publish intent snapshot capacity reserved decision)

/-- What a call can do: one that raises has changed nothing. -/
inductive RiskChange (H : RiskHashes) (limits : RiskLimits) (s : RiskDecisionStore) :
    RiskCall → Except PyError RiskAnswer → RiskDecisionStore → Prop where
  | raised {call : RiskCall} (e : PyError) : RiskChange H limits s call (.error e) s
  | decided {intent : OrderIntent} {snapshot : RiskAccountSnapshot} {t : Instant}
      {decision : RiskDecision} {s' : RiskDecisionStore}
      (h : RiskDecides H limits s intent snapshot decision s') :
      RiskChange H limits s (.authorize intent snapshot t) (.ok (.decided decision)) s'
  | consumed {decisionId : Str} {intent : OrderIntent} {t : Instant} {decision : RiskDecision}
      (hknown : s.decisions.get? decisionId = some decision)
      (hvalid : validateConsumption H decision intent t = .ok ())
      (hunused : decisionId ∉ s.consumed) :
      RiskChange H limits s (.consume decisionId intent t) (.ok (.consumedAt t))
        { s with consumed := insert decisionId s.consumed }

/-- Decisions are recorded under their identity and under their intent, and what is reserved from
an account are amounts within its capacity without the buffer. -/
structure Consistent (limits : RiskLimits) (s : RiskDecisionStore) : Prop where
  named : ∀ id decision, s.decisions.get? id = some decision →
    decision.val.decisionId = id ∧ s.intentDecisions.get? decision.val.intentId = some id
  known : ∀ intentId id, s.intentDecisions.get? intentId = some id →
    ∃ decision, s.decisions.get? id = some decision ∧ decision.val.intentId = intentId
  within : ∀ account version capacity reserved,
    s.snapshots.get? account = some (version, capacity, reserved) →
    isPersisted capacity ∧ isPersisted reserved ∧ 0 ≤ reserved ∧
      reserved ≤ max 0 (capacity - limits.val.minimumCashBuffer)
  total : s.decisions.sumBy (fun _ decision => decision.val.reservedCash) =
    s.snapshots.sumBy fun _ account => account.2.2

variable {capacity reserved : ℚ} {decisionId : Str}

namespace RiskRepository

variable {α : Type} {Q : α → RiskDecisionStore → Prop} {E : PyError → RiskDecisionStore → Prop}

theorem wp_accountCapacity {Q : ℚ × ℚ → RiskDecisionStore → Prop}
    (hok : ∀ capacity reserved, FindsCapacity s snapshot capacity reserved →
      Q (capacity, reserved) s)
    (hbad : ∀ e, E e s) : wp (accountCapacity snapshot) Q E s := by
  rw [accountCapacity, wp_bind, wp_read]
  split
  · next hnone => exact hok _ _ ⟨rfl, .inl ⟨hnone, rfl⟩⟩
  · next version capacity reserved hsome =>
    rw [wp_bind]
    refine wp_refuse (fun hversion => ?_) (hbad _)
    rw [wp_bind]
    refine wp_refuse (fun hcapacity => ?_) (hbad _)
    exact hok _ _ ⟨not_not.1 hcapacity, .inr (by rw [hsome, not_not.1 hversion])⟩

theorem wp_priorDecision {Q : RiskDecision → RiskDecisionStore → Prop}
    (hok : ∀ decision, s.decisions.get? decisionId = some decision →
      decision.val.intentPayloadHash = H.intentPayloadHash intent → Q decision s)
    (hbad : ∀ e, E e s) : wp (priorDecision H intent snapshot decisionId) Q E s := by
  rw [priorDecision, wp_bind, wp_read, wp_bind]
  refine wp_lift (fun prior hprior => ?_) fun e _ => hbad e
  rw [wp_bind]
  refine wp_refuse (fun hpayload => ?_) (hbad _)
  rw [wp_bind]
  refine wp_lift (fun taken _ => ?_) fun e _ => hbad e
  rw [wp_bind]
  exact wp_refuse (fun _ => hok _ (getOrThrow_eq_ok.1 hprior) (not_not.1 hpayload)) (hbad _)

/-- Reserving the cash of a decision cannot fail. -/
theorem reservedWith_eq (h : isPersisted reserved) :
    reservedWith decision reserved = .ok (reserved + decision.val.reservedCash) := by
  obtain ⟨hpersisted, -, hrejected⟩ := decision.reservedCash_spec
  unfold reservedWith
  split
  · exact exactDecimalAdd_of_fits (Fits.mono h (by decide)) (Fits.mono hpersisted (by decide))
  · next hstatus => rw [hrejected hstatus, add_zero]; rfl

theorem wp_publish {Q : RiskDecision → RiskDecisionStore → Prop} (hpersisted : isPersisted reserved)
    (hfree : ∀ existing, s.decisions.get? decision.val.decisionId = some existing →
      existing ≠ decision)
    (hok : s.decisions.get? decision.val.decisionId = none →
      Q decision (s.publish intent snapshot capacity reserved decision))
    (hbad : ∀ e, E e s) : wp (publish intent snapshot capacity reserved decision) Q E s := by
  rw [publish, wp_bind, wp_read]
  split
  · next existing hexisting =>
    rw [wp_bind]
    exact wp_refuse (fun hsame => absurd (not_not.1 hsame) (hfree existing hexisting)) (hbad _)
  · next hnone =>
    rw [wp_bind, wp_modify, wp_bind, reservedWith_eq hpersisted, wp_lift_ok, wp_bind, wp_modify]
    exact hok hnone

/-- An authorization decides, or it raises and changes nothing. -/
theorem wp_authorize (hs : Consistent limits s) :
    wp (authorize H limits intent snapshot t)
      (RiskDecides H limits s intent snapshot) (fun _ s' => s' = s) s := by
  rw [authorize, wp_bind]
  refine wp_accountCapacity (fun capacity reserved hcapacity => ?_) fun _ => rfl
  rw [wp_bind, wp_read]
  split
  · next decisionId hid =>
    exact wp_priorDecision (fun decision hknown hpayload => .repeated hid hknown hpayload)
      fun _ => rfl
  · next hnew =>
    rw [wp_bind]
    refine wp_lift (fun unreserved hunreserved => ?_) fun _ _ => rfl
    rw [wp_bind]
    refine wp_lift (fun decision hdecision => ?_) fun _ _ => rfl
    have hevaluated := evaluateRiskDecision_spec hdecision
    rw [exactDecimalSubtract_eq hunreserved] at hevaluated
    have hpersisted : isPersisted reserved := by
      rcases hcapacity.known with ⟨-, rfl⟩ | hsome
      · exact Fits.zero
      · exact (hs.within _ _ _ _ hsome).2.1
    refine wp_publish hpersisted (fun existing hexisting hsame => ?_)
      (fun hfree => .published hnew hfree hcapacity hevaluated) fun _ => rfl
    -- a decision with the same identity that is the same is a decision on this intent
    have hid := (hs.named _ _ hexisting).2
    rw [hsame, hevaluated.intentId, hnew] at hid
    cases hid

/-- A consumption marks its decision, or it raises and changes nothing. -/
theorem wp_consume : wp (consume H decisionId intent t)
      (fun t' s' => t' = t ∧ s' = { s with consumed := insert decisionId s.consumed } ∧
        decisionId ∉ s.consumed ∧ ∃ decision, s.decisions.get? decisionId = some decision ∧
          validateConsumption H decision intent t = .ok ())
      (fun _ s' => s' = s) s := by
  rw [consume, wp_bind, wp_read, wp_bind]
  refine wp_lift (fun decision hdecision => ?_) fun _ _ => rfl
  rw [wp_bind]
  refine wp_lift (fun _ hvalid => ?_) fun _ _ => rfl
  rw [wp_bind]
  refine wp_refuse (fun hunused => ?_) rfl
  rw [wp_bind, wp_modify]
  exact ⟨rfl, rfl, hunused, decision, getOrThrow_eq_ok.1 hdecision, hvalid⟩

end RiskRepository

/-- Every step of a consistent store is a change by its call. -/
theorem RiskStep.change (hs : Consistent limits s) (h : RiskStep H limits s event s') :
    RiskChange H limits s event.call event.answer s' := by
  obtain ⟨call, answer⟩ := event
  have hwp : wp (call.run H limits)
      (fun a s' => RiskChange H limits s call (.ok a) s') (fun _ s' => s' = s) s := by
    cases call with
    | authorize intent snapshot t =>
      rw [RiskCall.run, wp_bind]
      exact wp_mono (fun _ _ h => .decided h) (fun _ _ h => h) (RiskRepository.wp_authorize hs)
    | consume decisionId intent t =>
      rw [RiskCall.run, wp_bind]
      refine wp_mono ?_ (fun _ _ h => h) (RiskRepository.wp_consume (H := H) (s := s))
      rintro _ _ ⟨rfl, rfl, hunused, decision, hknown, hvalid⟩
      exact .consumed hknown hvalid hunused
  have hrun : call.run H limits s = (answer, s') := h
  cases answer with
  | ok a =>
    have hchange := of_wp_ok hwp hrun
    exact hchange
  | error e =>
    have hsame := of_wp_error hwp hrun
    exact hsame ▸ .raised e

/-! ## The store stays consistent -/

theorem Consistent.empty : Consistent limits .empty := by
  refine ⟨?_, ?_, ?_, rfl⟩
  all_goals simp [RiskDecisionStore.empty]

/-- An approval leaves the buffer in place. -/
theorem Evaluated.within (h : Evaluated H limits intent (capacity - reserved) decision)
    (hreserved : reserved ≤ max 0 (capacity - limits.val.minimumCashBuffer)) :
    reserved + decision.val.reservedCash ≤ max 0 (capacity - limits.val.minimumCashBuffer) := by
  by_cases hstatus : decision.val.status = .approved
  · have hbuffer := h.buffer hstatus
    exact le_max_of_le_right (by linarith)
  · rw [decision.reservedCash_spec.2.2 hstatus, add_zero]
    exact hreserved

theorem minimumCashBuffer_nonneg (limits : RiskLimits) : 0 ≤ limits.val.minimumCashBuffer := by
  have h := limits.passes
  simp only [RiskLimitsFields.postInit, Py.eq_ok, not_or, not_lt] at h
  obtain ⟨_, -, _, -, _, -, _, -, _, ⟨h, -⟩, -⟩ := h
  exact h

theorem RiskAccountSnapshot.availableCash_spec (snapshot : RiskAccountSnapshot) :
    isPersisted snapshot.val.availableCash ∧ 0 ≤ snapshot.val.availableCash := by
  have h := snapshot.passes
  simp only [RiskAccountSnapshotFields.postInit, Py.eq_ok, canonicalPersistedDecimal_eq_ok,
    not_lt] at h
  obtain ⟨_, -, _, hnonneg, _, ⟨hpersisted, -⟩, -⟩ := h
  exact ⟨hpersisted, hnonneg⟩

/-- What a snapshot finds is within the capacity. -/
theorem FindsCapacity.within (h : FindsCapacity s snapshot capacity reserved)
    (hs : Consistent limits s) : isPersisted reserved ∧ 0 ≤ reserved ∧
      reserved ≤ max 0 (capacity - limits.val.minimumCashBuffer) := by
  rcases h.known with ⟨-, rfl⟩ | hsome
  · exact ⟨Fits.zero, le_rfl, le_max_left _ _⟩
  · exact (hs.within _ _ _ _ hsome).2

theorem FindsCapacity.elim_eq (h : FindsCapacity s snapshot capacity reserved) :
    (s.snapshots.get? snapshot.val.accountId).elim 0 (fun account => account.2.2) = reserved := by
  rcases h.known with ⟨hnone, rfl⟩ | hsome
  · rw [hnone]; rfl
  · rw [hsome]; rfl

theorem Consistent.published (hs : Consistent limits s)
    (hnew : s.intentDecisions.get? intent.val.intentId = none)
    (hfree : s.decisions.get? decision.val.decisionId = none)
    (hcapacity : FindsCapacity s snapshot capacity reserved)
    (hevaluated : Evaluated H limits intent (capacity - reserved) decision) :
    Consistent limits (s.publish intent snapshot capacity reserved decision) := by
  obtain ⟨hpersisted, hnonneg, hle⟩ := hcapacity.within hs
  obtain ⟨hcash, hcash_nonneg, -⟩ := decision.reservedCash_spec
  have hwithin := hevaluated.within hle
  refine ⟨fun id d hget => ?_, fun intentId id hget => ?_, fun account version c r hget => ?_, ?_⟩
  · simp only [RiskDecisionStore.publish, RiskRepository.record, Dict.get?_set] at hget ⊢
    split at hget
    · next hid =>
      cases hget
      rw [if_pos hevaluated.intentId, hid]
      exact ⟨rfl, rfl⟩
    · obtain ⟨hname, hintent⟩ := hs.named id d hget
      refine ⟨hname, ?_⟩
      split
      · next hsame =>
        rw [hsame, hnew] at hintent
        cases hintent
      · exact hintent
  · simp only [RiskDecisionStore.publish, RiskRepository.record, Dict.get?_set] at hget ⊢
    split at hget
    · next hid =>
      cases hget
      exact ⟨decision, if_pos rfl, hevaluated.intentId.trans hid.symm⟩
    · obtain ⟨d, hd, hintent⟩ := hs.known intentId id hget
      refine ⟨d, ?_, hintent⟩
      rw [if_neg, hd]
      rintro rfl
      rw [hfree] at hd
      cases hd
  · simp only [RiskDecisionStore.publish, Dict.get?_set] at hget
    split at hget
    · cases hget
      obtain ⟨hcapacity_persisted, hcapacity_nonneg⟩ := snapshot.availableCash_spec
      rw [← hcapacity.available] at hcapacity_persisted hcapacity_nonneg
      have hsum_nonneg : 0 ≤ reserved + decision.val.reservedCash := add_nonneg hnonneg hcash_nonneg
      refine ⟨hcapacity_persisted, ?_, hsum_nonneg, hwithin⟩
      refine (Fits.add hpersisted hcash).of_abs_lt ?_
      have hle_capacity : max 0 (capacity - limits.val.minimumCashBuffer) ≤ capacity :=
        max_le hcapacity_nonneg (sub_le_self _ (minimumCashBuffer_nonneg limits))
      rw [abs_of_nonneg hsum_nonneg]
      exact (hwithin.trans hle_capacity).trans_lt (lt_of_abs_lt hcapacity_persisted.2)
    · exact hs.within _ _ _ _ hget
  · simp only [RiskDecisionStore.publish, RiskRepository.record, Dict.sumBy_set, hfree, hs.total,
      hcapacity.elim_eq, Option.elim_none]
    linarith

/-- Every step keeps the store consistent. -/
theorem Consistent.step (hs : Consistent limits s) (h : RiskStep H limits s event s') :
    Consistent limits s' := by
  obtain ⟨call, answer⟩ := event
  cases h.change hs with
  | raised => exact hs
  | consumed => exact ⟨hs.named, hs.known, hs.within, hs.total⟩
  | decided hdecides =>
    cases hdecides with
    | repeated => exact hs
    | published hnew hfree hcapacity hevaluated =>
      exact hs.published hnew hfree hcapacity hevaluated

/-- The store of every run is consistent. -/
theorem Consistent.of_run (h : Trace (RiskStep H limits) .empty events s) : Consistent limits s :=
  h.invariant (Consistent limits) .empty fun _ _ _ hs hstep => hs.step hstep

/-! ## Capacity -/

/-- The cash that the approved decisions of a store reserve. -/
def RiskDecisionStore.totalReserved (s : RiskDecisionStore) : ℚ :=
  ((s.decisions.values.filter (·.val.status = .approved)).map (·.val.reservedCash)).sum

/-- A rejection reserves nothing, so all decisions together reserve what the approved ones do. -/
theorem RiskDecisionStore.totalReserved_eq (s : RiskDecisionStore) :
    s.totalReserved = s.decisions.sumBy fun _ decision => decision.val.reservedCash := by
  unfold totalReserved Dict.sumBy Dict.values
  induction s.decisions.entries with
  | nil => rfl
  | cons entry entries ih =>
    simp only [List.map_cons, List.sum_cons, ← ih]
    by_cases hstatus : entry.2.val.status = .approved
    · rw [List.filter_cons_of_pos (by simpa using hstatus), List.map_cons, List.sum_cons]
    · rw [List.filter_cons_of_neg (by simpa using hstatus),
        entry.2.reservedCash_spec.2.2 hstatus, zero_add]

/-- Every snapshot that an `authorize` of the run read is of the account and has the capacity. -/
def ReadsCapacity (account : Str) (capacity : ℚ) (events : List RiskEvent) : Prop :=
  ∀ event ∈ events, ∀ intent snapshot t, event.call = .authorize intent snapshot t →
    snapshot.val.accountId = account ∧ snapshot.val.availableCash = capacity

/-- Nothing is kept of another account or capacity. -/
theorem only_account (hreads : ReadsCapacity account capacity events)
    (h : Trace (RiskStep H limits) .empty events s) :
    ∀ entry ∈ s.snapshots.entries, entry.1 = account ∧ entry.2.2.1 = capacity := by
  induction h with
  | nil => simp [RiskDecisionStore.empty, Dict.empty]
  | @snoc events event s₁ s₂ hrun hstep ih =>
    have hold := ih fun e he => hreads e (List.mem_append_left _ he)
    have hevent := hreads event (by simp)
    have hchange := hstep.change (.of_run hrun)
    generalize hcall : event.call = call at hchange
    generalize event.answer = answer at hchange
    cases hchange with
    | raised => exact hold
    | consumed => exact hold
    | decided hdecides =>
      cases hdecides with
      | repeated => exact hold
      | published hnew hfree hcapacity hevaluated =>
        obtain ⟨haccount, havailable⟩ := hevent _ _ _ hcall
        rintro ⟨key, value⟩ hentry
        have hget := Dict.get?_eq_some.2 hentry
        simp only [RiskDecisionStore.publish, Dict.get?_set] at hget
        split at hget
        · next hkey =>
          cases hget
          exact ⟨hkey.trans haccount, hcapacity.available.trans havailable⟩
        · exact hold _ (Dict.get?_eq_some.1 hget)

/-- With one account of one capacity, the decisions reserve within it. -/
theorem totalReserved_le (hreads : ReadsCapacity account capacity events)
    (h : Trace (RiskStep H limits) .empty events s) :
    s.totalReserved ≤ max 0 (capacity - limits.val.minimumCashBuffer) := by
  have hs := Consistent.of_run h
  have honly := only_account hreads h
  have hnodup := s.snapshots.nodup
  rw [s.totalReserved_eq, hs.total, Dict.sumBy]
  cases hentries : s.snapshots.entries with
  | nil => exact le_max_left _ _
  | cons entry entries =>
    obtain ⟨key, version, c, reserved⟩ := entry
    rw [hentries] at honly hnodup
    obtain rfl : entries = [] := by
      cases entries with
      | nil => rfl
      | cons other rest =>
        have hsame : key = other.1 :=
          (honly _ List.mem_cons_self).1.trans (honly other (by simp)).1.symm
        simp [hsame] at hnodup
    obtain rfl : c = capacity := (honly _ List.mem_cons_self).2
    have hget : s.snapshots.get? key = some (version, c, reserved) :=
      Dict.get?_eq_some.2 (by simp [hentries])
    simpa using (hs.within _ _ _ _ hget).2.2.2

/-! ## Intents and approvals -/

/-- The intent that a call has decided, and the decision. -/
def RiskEvent.decided? (event : RiskEvent) : Option (OrderIntent × RiskDecision) :=
  match event.call, event.answer with
  | .authorize intent _ _, .ok (.decided decision) => some (intent, decision)
  | _, _ => none

/-- The approval that a call has consumed. -/
def RiskEvent.consumed? (event : RiskEvent) : Option Str :=
  match event.call, event.answer with
  | .consume decisionId _ _, .ok _ => some decisionId
  | _, _ => none

/-- Decisions that callers were told are those of the store, and the approvals consumed are
marked. -/
structure RiskHistory (H : RiskHashes) (events : List RiskEvent) (s : RiskDecisionStore) :
    Prop where
  told : ∀ event ∈ events, ∀ intent decision, event.decided? = some (intent, decision) →
    s.decisions.get? decision.val.decisionId = some decision ∧
      decision.val.intentId = intent.val.intentId
  issued : ∀ id decision, s.decisions.get? id = some decision → ∃ event ∈ events, ∃ intent,
    event.decided? = some (intent, decision) ∧
      decision.val.intentPayloadHash = H.intentPayloadHash intent
  once : (events.filterMap RiskEvent.consumed?).Nodup
  marked : ∀ id ∈ events.filterMap RiskEvent.consumed?, id ∈ s.consumed

/-- An event that consumes nothing. -/
theorem RiskHistory.append (h : RiskHistory H events s) (hnone : event.consumed? = none)
    (hconsumed : s'.consumed = s.consumed)
    (hkept : ∀ id decision, s.decisions.get? id = some decision →
      s'.decisions.get? id = some decision)
    (htold : ∀ intent decision, event.decided? = some (intent, decision) →
      s'.decisions.get? decision.val.decisionId = some decision ∧
        decision.val.intentId = intent.val.intentId)
    (hissued : ∀ id decision, s'.decisions.get? id = some decision →
      s.decisions.get? id = some decision ∨ ∃ intent, event.decided? = some (intent, decision) ∧
        decision.val.intentPayloadHash = H.intentPayloadHash intent) :
    RiskHistory H (events ++ [event]) s' := by
  have hsame : (events ++ [event]).filterMap RiskEvent.consumed? =
      events.filterMap RiskEvent.consumed? := by
    simp [List.filterMap_append, hnone]
  refine ⟨fun e he intent decision hd => ?_, fun id decision hget => ?_, hsame ▸ h.once,
    hsame ▸ hconsumed ▸ h.marked⟩
  · rcases List.mem_append.1 he with he | he
    · obtain ⟨hget, hid⟩ := h.told e he intent decision hd
      exact ⟨hkept _ _ hget, hid⟩
    · exact htold intent decision (List.mem_singleton.1 he ▸ hd)
  · rcases hissued id decision hget with hold | ⟨intent, hnew⟩
    · obtain ⟨e, he, hissue⟩ := h.issued id decision hold
      exact ⟨e, List.mem_append_left _ he, hissue⟩
    · exact ⟨event, by simp, intent, hnew⟩

/-- Every step extends the history by its event. -/
theorem RiskHistory.step (h : RiskHistory H events s) (hs : Consistent limits s)
    (hstep : RiskStep H limits s event s') : RiskHistory H (events ++ [event]) s' := by
  have hchange := hstep.change hs
  generalize hcall : event.call = call at hchange
  generalize hanswer : event.answer = answer at hchange
  cases hchange with
  | raised =>
    refine h.append (by simp [RiskEvent.consumed?, hanswer]) rfl (fun _ _ h => h) ?_ fun _ _ => .inl
    simp [RiskEvent.decided?, hanswer]
  | @consumed decisionId intent t decision hknown hvalid hunused =>
    have hnone : event.decided? = none := by simp [RiskEvent.decided?, hcall]
    have hnew : (events ++ [event]).filterMap RiskEvent.consumed? =
        events.filterMap RiskEvent.consumed? ++ [decisionId] := by
      simp [List.filterMap_append, RiskEvent.consumed?, hcall, hanswer]
    refine ⟨fun e he intent decision hd => ?_, fun id decision hget => ?_, ?_, fun id hid => ?_⟩
    · rcases List.mem_append.1 he with he | he
      · exact h.told e he intent decision hd
      · rw [List.mem_singleton.1 he, hnone] at hd
        cases hd
    · obtain ⟨e, he, hissue⟩ := h.issued id decision hget
      exact ⟨e, List.mem_append_left _ he, hissue⟩
    · rw [hnew, ← List.concat_eq_append, List.nodup_concat]
      exact ⟨fun hmem => hunused (h.marked _ hmem), h.once⟩
    · rw [hnew, List.mem_append, List.mem_singleton] at hid
      rw [Finset.mem_insert]
      exact hid.symm.imp_right (h.marked id)
  | @decided intent snapshot t decision _ hdecides =>
    have hnone : event.consumed? = none := by simp [RiskEvent.consumed?, hcall]
    have htold : event.decided? = some (intent, decision) := by
      simp [RiskEvent.decided?, hcall, hanswer]
    cases hdecides with
    | repeated hid hknown hpayload =>
      refine h.append hnone rfl (fun _ _ h => h) (fun intent' decision' hd => ?_) fun _ _ => .inl
      obtain ⟨rfl, rfl⟩ := Prod.mk.inj (Option.some.inj (htold.symm.trans hd))
      obtain ⟨known, hget, hintent⟩ := hs.known _ _ hid
      obtain rfl : known = decision := Option.some.inj (hget.symm.trans hknown)
      exact ⟨(hs.named _ _ hknown).1 ▸ hknown, hintent⟩
    | published hnew hfree hcapacity hevaluated =>
      refine h.append hnone rfl (fun id d hget => ?_) (fun intent' decision' hd => ?_)
        fun id d hget => ?_
      · rw [RiskDecisionStore.publish, RiskRepository.record, Dict.get?_set_of_ne _ _ _, hget]
        rintro rfl
        rw [hfree] at hget
        cases hget
      · obtain ⟨rfl, rfl⟩ := Prod.mk.inj (Option.some.inj (htold.symm.trans hd))
        exact ⟨Dict.get?_set_self _ _ _, hevaluated.intentId⟩
      · simp only [RiskDecisionStore.publish, RiskRepository.record, Dict.get?_set] at hget
        split at hget
        · cases hget
          exact .inr ⟨intent, htold, hevaluated.payload⟩
        · exact .inl hget

/-- Every run has a history. -/
theorem RiskHistory.of_run (h : Trace (RiskStep H limits) .empty events s) :
    RiskHistory H events s := by
  have hempty : RiskHistory H [] .empty := by
    refine ⟨by simp, fun id decision hget => ?_, List.nodup_nil, by simp⟩
    simp [RiskDecisionStore.empty] at hget
  exact h.invariant_done (RiskHistory H) hempty fun _ _ _ _ hrun hs hstep =>
    hs.step (.of_run hrun) hstep

/-- The intents that were decided have one decision each. -/
theorem RiskHistory.decision_unique (h : RiskHistory H events s) (hs : Consistent limits s)
    (he : event ∈ events) (he' : event' ∈ events) (hd : event.decided? = some (intent, decision))
    (hd' : event'.decided? = some (intent', decision'))
    (hsame : intent.val.intentId = intent'.val.intentId) : decision = decision' := by
  obtain ⟨hget, hid⟩ := h.told event he intent decision hd
  obtain ⟨hget', hid'⟩ := h.told event' he' intent' decision' hd'
  have hname := (hs.named _ _ hget).2
  have hname' := (hs.named _ _ hget').2
  rw [hid, hsame] at hname
  rw [hid', hname] at hname'
  rw [← Option.some.inj hname', hget] at hget'
  exact Option.some.inj hget'

/-- The consumption is of an approval given before, for the same payload and before it expires. -/
structure ConsumesApproval (H : RiskHashes) (before : List RiskEvent) (decisionId : Str)
    (intent : OrderIntent) (t : Instant) : Prop where
  approval : ∃ issue ∈ before, ∃ issued decision, issue.decided? = some (issued, decision) ∧
    decision.val.decisionId = decisionId ∧ decision.val.status = .approved ∧
    issued.val.intentId = intent.val.intentId ∧
    H.intentPayloadHash issued = H.intentPayloadHash intent ∧
    decision.val.evaluatedAt ≤ t ∧ t < decision.val.expiresAt
  fresh : t < intent.val.expiresAt

/-- A consumption is of an approval decided before. -/
theorem RiskHistory.consumes (h : RiskHistory H events s) (hs : Consistent limits s)
    (hstep : RiskStep H limits s event s') (hcall : event.call = .consume decisionId intent t)
    (hanswer : event.answer = .ok answer) : ConsumesApproval H events decisionId intent t := by
  have hchange := hstep.change hs
  rw [hcall, hanswer] at hchange
  cases hchange with
  | @consumed _ _ _ decision hknown hvalid hunused =>
    simp only [validateConsumption, Py.eq_ok, not_or, not_lt, not_le] at hvalid
    obtain ⟨_, hintent, _, hpayload, _, hstatus, _, ⟨-, hevaluated⟩, hexpires, hfresh⟩ := hvalid
    obtain ⟨issue, hissue, issued, hdecided, hissued⟩ := h.issued _ _ hknown
    have hid := (h.told issue hissue issued decision hdecided).2
    exact ⟨⟨issue, hissue, issued, decision, hdecided, (hs.named _ _ hknown).1, hstatus,
      hid.symm.trans hintent, hissued.symm.trans hpayload, hevaluated, hexpires⟩, hfresh⟩

/-- **Single-use approvals**, in every run of calls: what they reserve stays within the capacity
without the buffer, an intent has one decision, and an approval is consumed at most once, for the
payload it was given for and before it expires. -/
theorem single_use_approvals {account : Str} {capacity : ℚ}
    (h : Trace (RiskStep H limits) .empty events s)
    (hreads : ReadsCapacity account capacity events) :
    s.totalReserved ≤ max 0 (capacity - limits.val.minimumCashBuffer) ∧
      (∀ event ∈ events, ∀ event' ∈ events, ∀ intent intent' decision decision',
        event.decided? = some (intent, decision) → event'.decided? = some (intent', decision') →
        intent.val.intentId = intent'.val.intentId → decision = decision') ∧
      (events.filterMap RiskEvent.consumed?).Nodup ∧
      ∀ before event after decisionId intent t answer, events = before ++ event :: after →
        event.call = .consume decisionId intent t → event.answer = .ok answer →
        ConsumesApproval H before decisionId intent t := by
  have hs := Consistent.of_run h
  have history := RiskHistory.of_run h
  refine ⟨totalReserved_le hreads h, ?_, history.once, ?_⟩
  · intro event he event' he' intent intent' decision decision' hd hd' hsame
    exact history.decision_unique hs he he' hd hd' hsame
  · rintro before event after decisionId intent t answer rfl hcall hanswer
    obtain ⟨b, b', hbefore, hstep, -⟩ := h.exists_step
    exact (RiskHistory.of_run hbefore).consumes (.of_run hbefore) hstep hcall hanswer

/-! A small account: an intent to buy ten shares for 200, and a fee of one. -/

def sampleRiskIntent : Py OrderIntent :=
  plainIntent "intent" .buy 10

/-- The intent is authorized against a capacity, with a buffer of 10. -/
structure SampleAuthorization where
  intent : OrderIntent
  limits : RiskLimits
  snapshot : RiskAccountSnapshot
  decision : RiskDecision
  store : RiskDecisionStore

def sampleAuthorization (capacity : ℚ) : Py SampleAuthorization := do
  let intent ← sampleRiskIntent
  let limits ← (construct ⟨{Str.of "i1"}, 100, 1000, 10, 1, 30⟩ : Py RiskLimits)
  let snapshot ← (construct ⟨"account", "v1", capacity⟩ : Py RiskAccountSnapshot)
  let run := RiskRepository.authorize .plain limits intent snapshot 1 .empty
  let decision ← run.1
  return ⟨intent, limits, snapshot, decision, run.2⟩

theorem riskStep_of_authorize (h : RiskRepository.authorize H limits intent snapshot t s =
    (.ok decision, s')) :
    RiskStep H limits s ⟨.authorize intent snapshot t, .ok (.decided decision)⟩ s' :=
  Machine.bind_of_ok h

theorem riskStep_of_consume (h : RiskRepository.consume H decisionId intent t s = (.ok t', s')) :
    RiskStep H limits s ⟨.consume decisionId intent t, .ok (.consumedAt t')⟩ s' :=
  Machine.bind_of_ok h

/-- Without the buffer the capacity can be less than nothing, which is still reserved. -/
theorem reserved_exceeds_capacity : ∃ (limits : RiskLimits) (events : List RiskEvent)
    (s : RiskDecisionStore), Trace (RiskStep .plain limits) .empty events s ∧
      ReadsCapacity "account" 5 events ∧ ¬ s.totalReserved ≤ 5 - limits.val.minimumCashBuffer := by
  have h : (fun x => (x.store.totalReserved, x.limits.val.minimumCashBuffer)) <$>
      sampleAuthorization 5 = .ok (0, 10) := by decide +kernel
  simp only [sampleAuthorization, map_eq_ok, Result.bind_eq_ok, pure_eq_ok, construct_eq_ok] at h
  obtain ⟨_, ⟨intent, -, limits, -, snapshot, hsnapshot, decision, hdecision, rfl⟩, hvalues⟩ := h
  obtain ⟨hreserved, hbuffer⟩ := Prod.mk.inj hvalues
  refine ⟨limits, _, _, .single (riskStep_of_authorize (Prod.ext hdecision rfl)), ?_, ?_⟩
  · intro event hevent intent' snapshot' t' hcall
    rw [List.mem_singleton.1 hevent] at hcall
    injection hcall with _ hsame
    rw [← hsame, hsnapshot]
    exact ⟨rfl, rfl⟩
  · rw [hreserved, hbuffer]
    norm_num

/-- The approval of the sample is consumed, within the capacity. -/
def sampleApprovalConsumption : Py (SampleAuthorization × Instant × RiskDecisionStore) := do
  let x ← sampleAuthorization 1000
  let run := RiskRepository.consume .plain x.decision.val.decisionId x.intent 2 x.store
  let consumedAt ← run.1
  return (x, consumedAt, run.2)

theorem sample_single_use : ∃ (limits : RiskLimits) (issue event : RiskEvent)
    (s : RiskDecisionStore) (decisionId : Str) (intent : OrderIntent),
    Trace (RiskStep .plain limits) .empty [issue, event] s ∧ 0 < s.totalReserved ∧
      s.totalReserved ≤ max 0 (1000 - limits.val.minimumCashBuffer) ∧
      event.consumed? = some decisionId ∧
      ConsumesApproval .plain [issue] decisionId intent 2 := by
  have h : (fun x => (x.2.1, x.2.2.totalReserved)) <$> sampleApprovalConsumption =
      .ok (2, 201) := by decide +kernel
  simp only [sampleApprovalConsumption, sampleAuthorization, map_eq_ok, Result.bind_eq_ok,
    pure_eq_ok, construct_eq_ok] at h
  obtain ⟨_, ⟨_, ⟨intent, -, limits, -, snapshot, hsnapshot, decision, hdecision, rfl⟩, consumedAt,
    hconsumed, rfl⟩, hvalues⟩ := h
  have htrace : Trace (RiskStep .plain limits) .empty _ _ :=
    .snoc (.snoc .nil (riskStep_of_authorize (Prod.ext hdecision rfl)))
      (riskStep_of_consume (Prod.ext hconsumed rfl))
  obtain ⟨hle, -, -, hconsumes⟩ := single_use_approvals htrace
    (show ReadsCapacity "account" 1000 _ from by
      intro event hevent intent' snapshot' t' hcall
      rcases List.mem_cons.1 hevent with rfl | hevent
      · injection hcall with _ hsame
        rw [← hsame, hsnapshot]
        exact ⟨rfl, rfl⟩
      · rw [List.mem_singleton.1 hevent] at hcall
        cases hcall)
  refine ⟨limits, _, _, _, _, intent, htrace, ?_, hle, rfl,
    hconsumes [_] _ [] _ _ _ _ rfl rfl rfl⟩
  rw [(Prod.mk.inj hvalues).2]
  norm_num

end AutoQuantTrader
