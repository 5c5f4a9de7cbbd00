import AutoQuantTrader.AccountCoordinator
import AutoQuantTrader.Lib.Trace

/-!
# Fencing safety

`CoordinatorChange` lists everything a call can do to the state of an account.  Two invariants
follow from it: the current lease has the highest generation, and a fence that has lost its lease,
or whose lease was seen to have expired, never gets a receipt again (`Revoked`).
-/

namespace AutoQuantTrader

open Result Machine

variable {H : CoordinatorHashes} {policy : AccountLeasePolicy} {s s' : CoordinatorState}
  {event : CoordinatorEvent} {fence : AccountFence} {reading : Py Instant}

/-! ## What a call can do -/

/-- The lease, the generations and the releases are as they were, and time has not gone back. -/
structure CoordinatorState.Keeps (s s' : CoordinatorState) : Prop where
  currentLease : s'.currentLease = s.currentLease
  lastGeneration : s'.lastGeneration = s.lastGeneration
  releases : s'.releases = s.releases
  effect : s'.effectInProgress = s.effectInProgress
  observed : ∀ t ∈ s.lastObservedAt, ∃ t' ∈ s'.lastObservedAt, t ≤ t'

/-- The state at an instant that the clock has shown. -/
def CoordinatorState.at_ (s : CoordinatorState) (now : Instant) : CoordinatorState :=
  { s with lastObservedAt := some now }

/-- The instant does not go back behind what was observed. -/
def CoordinatorState.Follows (s : CoordinatorState) (now : Instant) : Prop :=
  ∀ t ∈ s.lastObservedAt, t ≤ now

theorem CoordinatorState.Keeps.refl (s : CoordinatorState) : s.Keeps s :=
  ⟨rfl, rfl, rfl, rfl, fun t ht => ⟨t, ht, le_rfl⟩⟩

variable {now : Instant}

theorem CoordinatorState.Follows.keeps (h : s.Follows now) : s.Keeps (s.at_ now) :=
  ⟨rfl, rfl, rfl, rfl, fun t ht => ⟨now, rfl, h t ht⟩⟩

/-- **What a call can do to the state of an account.** -/
inductive CoordinatorChange (s : CoordinatorState) : CoordinatorEvent →
    CoordinatorState → Prop where
  | raised {s' : CoordinatorState} (hkeeps : s.Keeps s') : CoordinatorChange s (.raised error) s'
  /-- The lease that is current already is returned. -/
  | returned {event : CoordinatorEvent} {s' : CoordinatorState}
      (hlease : event.lease? = some lease) (hreceipt : event.receipt? = none)
      (hcurrent : s.currentLease = some lease) (hkeeps : s.Keeps s') : CoordinatorChange s event s'
  | issued {now : Instant} (hfree : s.effectInProgress = false)
      (hcurrent : s.currentLease = none) (hfollows : s.Follows now)
      (hgeneration : lease.val.fencingGeneration = s.lastGeneration + 1) :
      CoordinatorChange s (.acquired lease)
        { s.at_ now with currentLease := some lease, lastGeneration := s.lastGeneration + 1 }
  | extended {now : Instant} (hfree : s.effectInProgress = false)
      (hcurrent : s.currentLease = some current) (hfollows : s.Follows now)
      (hvalid : now < current.val.expiresAt) (hfence : lease.fence = current.fence) :
      CoordinatorChange s (.renewed lease) { s.at_ now with currentLease := some lease }
  | checked (hcurrent : s.currentLease = some current)
      (hfollows : s.Follows receipt.val.validatedAt)
      (hvalid : receipt.val.validatedAt < current.val.expiresAt)
      (hfence : receipt.val.fence = current.fence) :
      CoordinatorChange s (.revalidated receipt) (s.at_ receipt.val.validatedAt)
  | entered (hfree : s.effectInProgress = false) (hcurrent : s.currentLease = some current)
      (hfollows : s.Follows receipt.val.validatedAt)
      (hvalid : receipt.val.validatedAt < current.val.expiresAt)
      (hfence : receipt.val.fence = current.fence) : CoordinatorChange s (.entered receipt)
        { s.at_ receipt.val.validatedAt with effectInProgress := true }
  /-- A release that was made before is returned again. -/
  | known (hknown : s.releases.get? key = some release) : CoordinatorChange s (.released release) s
  | handedOver {now : Instant} (hfree : s.effectInProgress = false)
      (hcurrent : s.currentLease = some current) (hfollows : s.Follows now)
        (hfence : release.fence = current.fence) :
      CoordinatorChange s (.released release)
        { s.at_ now with releases := s.releases.set key release, currentLease := none }
  | left : CoordinatorChange s .left (Coordinator.leaveFenced s)

namespace Coordinator

variable {E : PyError → CoordinatorState → Prop} {Q : Unit → CoordinatorState → Prop}

/-- The clock moves the state to a time that follows it, or raises. -/
theorem wp_trustedNow {Q : Instant → CoordinatorState → Prop}
    (hok : ∀ now, s.Follows now → Q now (s.at_ now)) (hbad : ∀ e, E e s) :
    wp (trustedNow reading) Q E s := by
  unfold trustedNow
  rw [wp_bind]
  refine wp_lift (fun now _ => ?_) (fun e _ => hbad e)
  rw [wp_bind, wp_read, wp_bind]
  refine wp_refuse (fun hfollows => ?_) (hbad _)
  rw [wp_bind, wp_modify, wp_pure]
  refine hok now fun t ht => ?_
  by_contra hlt
  exact hfollows ⟨t, ht, not_le.1 hlt⟩

theorem wp_requireExactFence {Q : AccountLease → CoordinatorState → Prop}
    (hok : ∀ current, s.currentLease = some current → fence = current.fence → Q current s)
    (hbad : ∀ e, E e s) : wp (requireExactFence fence) Q E s := by
  unfold requireExactFence
  rw [wp_bind, wp_read]
  split
  · exact hbad _
  · next current hcurrent =>
    rw [wp_bind]
    refine wp_refuse (fun hfence => ?_) (hbad _)
    exact hok current hcurrent (not_not.1 hfence)

theorem wp_requireNoEffectTransition (hok : s.effectInProgress = false → Q () s) (hbad : ∀ e,
    E e s) : wp requireNoEffectTransition Q E s := by
  unfold requireNoEffectTransition
  rw [wp_bind, wp_read]
  exact wp_refuse (fun hfree => hok (Bool.not_eq_true _ ▸ hfree)) (hbad _)

/-- A receipt shows the fence of a current lease that has not expired. -/
theorem wp_receipt {Q : AccountFenceReceipt → CoordinatorState → Prop}
    (hok : ∀ current r, s.currentLease = some current → now < current.val.expiresAt →
      r.val.fence = current.fence → r.val.validatedAt = now → fence = current.fence → Q r s)
    (hbad : ∀ e, E e s) : wp (receipt H policy fence now) Q E s := by
  unfold receipt
  rw [wp_bind]
  refine wp_requireExactFence (fun current hcurrent hfence => ?_) hbad
  rw [wp_bind]
  refine wp_refuse (fun hvalid => ?_) (hbad _)
  refine wp_lift (fun r hr => ?_) (fun e _ => hbad e)
  rw [construct_eq_ok] at hr
  exact hok current r hcurrent (not_le.1 hvalid) (by rw [hr]; exact hfence) (by rw [hr]) hfence

/-- An acquisition changes the coordinator as its event says. -/
theorem acquire_change : wp (acquire H policy ownerId reading)
    (fun lease => CoordinatorChange s (.acquired lease)) (fun e => CoordinatorChange s (.raised e))
    s := by
  unfold acquire
  rw [wp_bind]
  refine wp_refuse (fun _ => ?_) (.raised (.refl s))
  rw [wp_bind]
  refine wp_requireNoEffectTransition (fun hfree => ?_) (fun _ => .raised (.refl s))
  rw [wp_bind]
  refine wp_trustedNow (fun now hfollows => ?_) (fun _ => .raised (.refl s))
  rw [wp_bind, wp_read]
  split
  · next current hcurrent =>
    rw [wp_bind]
    refine wp_refuse (fun _ => ?_) (.raised hfollows.keeps)
    rw [wp_bind]
    refine wp_refuse (fun _ => ?_) (.raised hfollows.keeps)
    exact .returned rfl rfl hcurrent hfollows.keeps
  · next hcurrent =>
    rw [wp_bind]
    refine wp_lift (fun lease hlease => ?_) (fun _ _ => .raised hfollows.keeps)
    rw [newLease, construct_eq_ok] at hlease
    rw [wp_bind, wp_modify, wp_pure]
    exact .issued hfree hcurrent hfollows (by rw [hlease]; rfl)

theorem renew_change : wp (renew H policy fence reading)
    (fun lease => CoordinatorChange s (.renewed lease)) (fun e => CoordinatorChange s (.raised e))
    s := by
  unfold renew
  rw [wp_bind]
  refine wp_requireNoEffectTransition (fun hfree => ?_) (fun _ => .raised (.refl s))
  rw [wp_bind]
  refine wp_requireExactFence (fun current hcurrent hfence => ?_) (fun _ => .raised (.refl s))
  rw [wp_bind]
  refine wp_trustedNow (fun now hfollows => ?_) (fun _ => .raised (.refl s))
  rw [wp_bind]
  refine wp_refuse (fun hvalid => ?_) (.raised hfollows.keeps)
  split
  · exact .returned rfl rfl hcurrent hfollows.keeps
  · rw [wp_bind]
    refine wp_refuse (fun _ => ?_) (.raised hfollows.keeps)
    rw [wp_bind]
    refine wp_lift (fun lease hlease => ?_) (fun _ _ => .raised hfollows.keeps)
    rw [renewedLease, construct_eq_ok] at hlease
    rw [wp_bind, wp_modify, wp_pure]
    refine .extended hfree hcurrent hfollows (not_le.1 hvalid) (Checked.ext ?_)
    simp only [AccountLease.fence, hlease]

theorem revalidate_change : wp (revalidate H policy fence reading)
    (fun r => CoordinatorChange s (.revalidated r)) (fun e => CoordinatorChange s (.raised e))
    s := by
  unfold revalidate
  rw [wp_bind]
  refine wp_trustedNow (fun now hfollows => ?_) (fun _ => .raised (.refl s))
  refine wp_receipt (fun current r hcurrent hvalid hfence hat _ => ?_)
    (fun _ => .raised hfollows.keeps)
  subst hat
  exact .checked hcurrent hfollows hvalid hfence

theorem enterFenced_change : wp (enterFenced H policy fence reading)
    (fun r => CoordinatorChange s (.entered r)) (fun e => CoordinatorChange s (.raised e)) s := by
  unfold enterFenced
  rw [wp_bind, wp_read, wp_bind]
  refine wp_refuse (fun hfree => ?_) (.raised (.refl s))
  rw [wp_bind]
  refine wp_trustedNow (fun now hfollows => ?_) (fun _ => .raised (.refl s))
  rw [wp_bind]
  refine wp_receipt (fun current r hcurrent hvalid hfence hat _ => ?_)
    (fun _ => .raised hfollows.keeps)
  subst hat
  rw [wp_bind, wp_modify, wp_pure]
  exact .entered (Bool.not_eq_true _ ▸ hfree) hcurrent hfollows hvalid hfence

theorem release_change : wp (release H policy fence reading)
    (fun r => CoordinatorChange s (.released r)) (fun e => CoordinatorChange s (.raised e)) s := by
  unfold release
  rw [wp_bind, wp_read]
  split
  · next prior hprior => exact .known hprior
  · rw [wp_bind]
    refine wp_requireNoEffectTransition (fun hfree => ?_) (fun _ => .raised (.refl s))
    rw [wp_bind]
    refine wp_trustedNow (fun now hfollows => ?_) (fun _ => .raised (.refl s))
    rw [wp_bind]
    refine wp_requireExactFence (fun current hcurrent hfence => ?_)
      (fun _ => .raised hfollows.keeps)
    rw [wp_bind]
    refine wp_receipt (fun _ _ _ _ _ _ _ => ?_) (fun _ => .raised hfollows.keeps)
    rw [wp_bind, wp_modify, wp_pure]
    exact .handedOver hfree hcurrent hfollows hfence

end Coordinator

/-! ## Steps of the holders -/

section steps

variable {Holder : Type} {a a' : CoordinatedAccount Holder} {α : Type}
  {show_ : α → CoordinatorEvent} {x : CoordinatorM α}

theorem eventOf_of_ok (h : x s = (.ok v, s')) : eventOf show_ x s = (show_ v, s') := by
  unfold eventOf
  rw [h]

/-- Whatever a call answers, its event is a change of the state. -/
theorem eventOf_change
    (h : wp x (fun v => CoordinatorChange s (show_ v)) (fun e => CoordinatorChange s (.raised e)) s)
    (hrun : eventOf show_ x s = (event, s')) : CoordinatorChange s event s' := by
  unfold wp at h
  unfold eventOf at hrun
  split at h <;> next heq =>
    rw [heq] at hrun
    cases hrun
    exact h

/-- Every step changes the state as its call can. -/
theorem CoordinatorStep.change (h : CoordinatorStep H policy a event a') :
    CoordinatorChange a.coordinator event a'.coordinator := by
  cases h with
  | acquire _ hrun => exact eventOf_change Coordinator.acquire_change hrun
  | renew _ hrun => exact eventOf_change Coordinator.renew_change hrun
  | revalidate _ hrun => exact eventOf_change Coordinator.revalidate_change hrun
  | release _ hrun => exact eventOf_change Coordinator.release_change hrun
  | @enter _ fence reading _ _ _ hrun =>
    have hafter := of_wp_ok Coordinator.enterFenced_change hrun
    exact hafter
  | @refused _ fence reading _ _ _ hrun =>
    have hafter := of_wp_error Coordinator.enterFenced_change hrun
    exact hafter
  | leave _ => exact .left

theorem eventOf_quiet (hrun : eventOf show_ x s = (event, s')) (hleft : ∀ v, show_ v ≠ .left)
    (hentered : ∀ v r, show_ v ≠ .entered r) : event ≠ .left ∧ ∀ r, event ≠ .entered r := by
  unfold eventOf at hrun
  split at hrun <;> cases hrun
  · exact ⟨hleft _, hentered _⟩
  · exact ⟨by simp, by simp⟩

/-- Entering and leaving are the only steps that begin and end an effect. -/
theorem CoordinatorStep.effects (h : CoordinatorStep H policy a event a') :
    (∃ r effect, event = .entered r ∧ a'.effects = effect :: a.effects) ∨
      (event = .left ∧ ∃ effect, a.effects = effect :: a'.effects) ∨
      (event ≠ .left ∧ (∀ r, event ≠ .entered r) ∧ a'.effects = a.effects) := by
  cases h with
  | acquire _ hrun | renew _ hrun | revalidate _ hrun | release _ hrun =>
    obtain ⟨hleft, hentered⟩ := eventOf_quiet hrun (by simp) (by simp)
    exact .inr (.inr ⟨hleft, hentered, rfl⟩)
  | enter _ hrun => exact .inl ⟨_, _, rfl, rfl⟩
  | refused _ hrun => exact .inr (.inr ⟨by simp, by simp, rfl⟩)
  | leave heffects => exact .inr (.inl ⟨rfl, _, heffects⟩)

/-! ## Invariants -/

/-- The fence has lost its lease, or its lease was seen to have expired. -/
def CoordinatorState.Revoked (s : CoordinatorState) (fence : AccountFence) : Prop :=
  fence.val.fencingGeneration ≤ s.lastGeneration ∧
    ∀ lease ∈ s.currentLease, lease.fence = fence →
      ∃ t ∈ s.lastObservedAt, lease.val.expiresAt ≤ t

variable {lease : AccountLease}

theorem generation_of_fence (h : lease.fence = fence) :
    fence.val.fencingGeneration = lease.val.fencingGeneration := by
  rw [← h]
  rfl

/-- A fence that is revoked and current has expired before any instant that follows. -/
theorem CoordinatorState.Revoked.not_valid (h : s.Revoked fence)
    (hcurrent : s.currentLease = some lease) (hfollows : s.Follows now)
    (hvalid : now < lease.val.expiresAt) : lease.fence ≠ fence := by
  intro hfence
  obtain ⟨t, ht, hexpired⟩ := h.2 lease hcurrent hfence
  exact absurd (hexpired.trans (hfollows t ht)) (not_le.2 hvalid)

theorem CoordinatorState.Revoked.keeps (h : s.Revoked fence) (hkeeps : s.Keeps s') :
    s'.Revoked fence := by
  refine ⟨hkeeps.lastGeneration ▸ h.1, fun lease hlease hfence => ?_⟩
  rw [hkeeps.currentLease] at hlease
  obtain ⟨t, ht, hexpired⟩ := h.2 lease hlease hfence
  obtain ⟨t', ht', hle⟩ := hkeeps.observed t ht
  exact ⟨t', ht', hexpired.trans hle⟩

/-- **A revoked fence stays revoked, and no call gives a receipt for it.** -/
theorem CoordinatorState.Revoked.change (h : s.Revoked fence)
    (hchange : CoordinatorChange s event s') :
    s'.Revoked fence ∧ ∀ r ∈ event.receipt?, r.val.fence ≠ fence := by
  cases hchange with
  | raised hkeeps => exact ⟨h.keeps hkeeps, by simp [CoordinatorEvent.receipt?]⟩
  | returned hlease hreceipt hcurrent hkeeps => exact ⟨h.keeps hkeeps, by simp [hreceipt]⟩
  | issued hfree hcurrent hfollows hgeneration =>
    refine ⟨⟨h.1.trans (Nat.le_succ _), fun lease hlease hfence => ?_⟩,
      by simp [CoordinatorEvent.receipt?]⟩
    -- the new generation is above every generation issued before
    rw [← Option.some.inj hlease] at hfence
    have hlater := h.1
    rw [generation_of_fence hfence, hgeneration] at hlater
    exact absurd hlater (Nat.not_succ_le_self _)
  | extended hfree hcurrent hfollows hvalid hfence =>
    refine ⟨⟨h.1, fun lease hlease hsame => ?_⟩, by simp [CoordinatorEvent.receipt?]⟩
    rw [← Option.some.inj hlease, hfence] at hsame
    exact absurd hsame (h.not_valid hcurrent hfollows hvalid)
  | checked hcurrent hfollows hvalid hfence =>
    refine ⟨h.keeps hfollows.keeps, fun r hr hsame => ?_⟩
    rw [← Option.some.inj hr, hfence] at hsame
    exact h.not_valid hcurrent hfollows hvalid hsame
  | entered hfree hcurrent hfollows hvalid hfence =>
    have hobserved : (s.at_ _).Revoked fence := h.keeps hfollows.keeps
    refine ⟨hobserved, fun r hr hsame => ?_⟩
    rw [← Option.some.inj hr, hfence] at hsame
    exact h.not_valid hcurrent hfollows hvalid hsame
  | known hknown => exact ⟨h, by simp [CoordinatorEvent.receipt?]⟩
  | handedOver hfree hcurrent hfollows hfence =>
    exact ⟨⟨h.1, fun lease hlease => by cases hlease⟩, by simp [CoordinatorEvent.receipt?]⟩
  | left => exact ⟨h, by simp [CoordinatorEvent.receipt?]⟩

/-- The current lease is of the last generation, and what was released is revoked. -/
structure CoordinatorState.Consistent (s : CoordinatorState) : Prop where
  latest : ∀ lease ∈ s.currentLease, lease.val.fencingGeneration = s.lastGeneration
  released : ∀ key release, s.releases.get? key = some release → s.Revoked release.fence

/-- Every change keeps the state consistent. -/
theorem CoordinatorState.Consistent.change (h : s.Consistent)
    (hchange : CoordinatorChange s event s') : s'.Consistent := by
  have hrevoked {key : Str} {release : AccountLeaseRelease}
      (hget : s.releases.get? key = some release) : s'.Revoked release.fence :=
    ((h.released key release hget).change hchange).1
  have hkept (hkeeps : s.Keeps s') : s'.Consistent := by
    refine ⟨fun lease hlease => ?_, fun key release hget => ?_⟩
    · rw [hkeeps.currentLease] at hlease
      exact (h.latest lease hlease).trans hkeeps.lastGeneration.symm
    · rw [hkeeps.releases] at hget
      exact hrevoked hget
  cases hchange with
  | raised hkeeps => exact hkept hkeeps
  | returned _ _ _ hkeeps => exact hkept hkeeps
  | issued _ _ _ hgeneration =>
    refine ⟨fun lease hlease => ?_, fun key release hget => hrevoked hget⟩
    rw [← Option.some.inj hlease]
    exact hgeneration
  | extended _ hcurrent _ _ hfence =>
    refine ⟨fun lease hlease => ?_, fun key release hget => hrevoked hget⟩
    rw [← Option.some.inj hlease]
    exact (generation_of_fence hfence).symm.trans (h.latest _ hcurrent)
  | checked _ hfollows => exact hkept hfollows.keeps
  | entered _ _ hfollows => exact ⟨h.latest, fun key release hget => hrevoked hget⟩
  | known => exact h
  | @handedOver current release key now _ hcurrent _ hfence =>
    refine ⟨fun lease hlease => by simp at hlease, fun key' other hget => ?_⟩
    simp only [Dict.get?_set] at hget
    split at hget
    · rw [← Option.some.inj hget, hfence]
      exact ⟨(h.latest current hcurrent).le, fun lease hlease => by cases hlease⟩
    · exact hrevoked hget
  | left => exact ⟨h.latest, fun key release hget => hrevoked hget⟩

/-- The lease was handed out: its generation is over, or its fence is that of the current lease. -/
def CoordinatorState.Issued (s : CoordinatorState) (lease : AccountLease) : Prop :=
  lease.val.fencingGeneration < s.lastGeneration ∨
    lease.val.fencingGeneration = s.lastGeneration ∧
      ∀ current ∈ s.currentLease, lease.fence = current.fence

/-- An issued lease stays issued. -/
theorem CoordinatorState.Issued.change (h : s.Issued lease)
    (hchange : CoordinatorChange s event s') : s'.Issued lease := by
  have hkept (hkeeps : s.Keeps s') : s'.Issued lease := by
    unfold CoordinatorState.Issued
    rwa [hkeeps.currentLease, hkeeps.lastGeneration]
  cases hchange with
  | raised hkeeps => exact hkept hkeeps
  | returned _ _ _ hkeeps => exact hkept hkeeps
  | issued =>
    refine .inl (Nat.lt_succ_of_le ?_)
    rcases h with hover | ⟨hsame, _⟩
    · exact hover.le
    · exact hsame.le
  | extended _ hcurrent _ _ hfence =>
    refine h.imp_right fun ⟨hsame, hfences⟩ => ⟨hsame, fun current hnow => ?_⟩
    rw [← Option.some.inj hnow, hfence]
    exact hfences _ hcurrent
  | checked _ hfollows => exact hkept hfollows.keeps
  | entered => exact h
  | known => exact h
  | handedOver => exact h.imp_right fun ⟨hsame, _⟩ => ⟨hsame, fun current hnow => by simp at hnow⟩
  | left => exact h

/-- A lease that a call returns is the current one. -/
theorem CoordinatorChange.current (h : CoordinatorChange s event s')
    (hlease : event.lease? = some lease) : s'.currentLease = some lease := by
  cases h with
  | returned hreturned _ hcurrent hkeeps =>
    rw [hkeeps.currentLease, hcurrent, ← hreturned, hlease]
  | issued => exact hlease
  | extended => exact hlease
  | raised | checked | entered | known | handedOver | left => cases hlease

/-- A receipt is for the fence of the current lease, which had not expired at the reading of the
call itself. -/
theorem CoordinatorChange.receipt (h : CoordinatorChange s event s')
    (hr : event.receipt? = some r) :
    ∃ current, s.currentLease = some current ∧ s'.currentLease = some current ∧
      r.val.fence = current.fence ∧
      ∃ t, s'.lastObservedAt = some t ∧ t < current.val.expiresAt := by
  cases h with
  | checked hcurrent _ hvalid hfence =>
    exact ⟨_, hcurrent, hcurrent, Option.some.inj hr ▸ hfence, _, rfl, hvalid⟩
  | entered _ hcurrent _ hvalid hfence =>
    exact ⟨_, hcurrent, hcurrent, Option.some.inj hr ▸ hfence, _, rfl, hvalid⟩
  | returned _ hnone => cases hnone.symm.trans hr
  | raised | issued | extended | known | handedOver | left => cases hr

/-- A release that a call returns names a fence that is revoked. -/
theorem CoordinatorChange.released (hs : s.Consistent)
    (h : CoordinatorChange s (.released release) s') : s'.Revoked release.fence := by
  cases h with
  | returned hlease => cases hlease
  | known hknown => exact hs.released _ _ hknown
  | @handedOver current _ _ _ _ hcurrent _ hfence =>
    rw [hfence]
    exact ⟨(hs.latest current hcurrent).le, fun lease hlease => by simp at hlease⟩

/-- Only entering and leaving change whether an effect runs. -/
theorem CoordinatorChange.effect (h : CoordinatorChange s event s') (hleft : event ≠ .left)
    (hentered : ∀ r, event ≠ .entered r) : s'.effectInProgress = s.effectInProgress := by
  cases h with
  | raised hkeeps => exact hkeeps.effect
  | returned _ _ _ hkeeps => exact hkeeps.effect
  | entered => exact absurd rfl (hentered _)
  | left => exact absurd rfl hleft
  | issued | extended | checked | known | handedOver => rfl

/-- The part of the state that says who has the account. -/
def CoordinatorState.leaseState (s : CoordinatorState) :
    Option AccountLease × Nat × Dict Str AccountLeaseRelease :=
  (s.currentLease, s.lastGeneration, s.releases)

/-- While an effect runs a call leaves the lease as it is. -/
theorem CoordinatorChange.still (h : CoordinatorChange s event s')
    (hbusy : s.effectInProgress = true) : s'.leaseState = s.leaseState := by
  have hkept (hkeeps : s.Keeps s') : s'.leaseState = s.leaseState := by
    unfold CoordinatorState.leaseState
    rw [hkeeps.currentLease, hkeeps.lastGeneration, hkeeps.releases]
  cases h with
  | raised hkeeps => exact hkept hkeeps
  | returned _ _ _ hkeeps => exact hkept hkeeps
  | issued hfree => cases hfree.symm.trans hbusy
  | extended hfree => cases hfree.symm.trans hbusy
  | handedOver hfree => cases hfree.symm.trans hbusy
  | checked | entered | known | left => rfl

/-- One effect runs, and the state says so, or none does. -/
def CoordinatedAccount.Single (a : CoordinatedAccount Holder) : Prop :=
  a.effects.length = if a.coordinator.effectInProgress = true then 1 else 0

/-- No step starts a second effect. -/
theorem CoordinatedAccount.Single.step (h : a.Single)
    (hstep : CoordinatorStep H policy a event a') : a'.Single := by
  unfold CoordinatedAccount.Single at h ⊢
  have hchange := hstep.change
  rcases hstep.effects with ⟨r, effect, rfl, heffects⟩ | ⟨rfl, effect, heffects⟩ |
    ⟨hleft, hentered, heffects⟩
  · generalize a'.coordinator = t at hchange ⊢
    cases hchange with
    | returned _ hnone => cases hnone
    | entered hfree =>
      rw [hfree, if_neg (by simp)] at h
      rw [heffects, List.length_cons, h, if_pos rfl]
  · generalize a'.coordinator = t at hchange ⊢
    cases hchange with
    | returned hlease => cases hlease
    | left =>
      rw [heffects, List.length_cons] at h
      simp only [Coordinator.leaveFenced, Bool.false_eq_true, if_false]
      split at h <;> omega
  · rwa [heffects, hchange.effect hleft hentered]

/-! ## Runs -/

/-- What a run has brought about: `events` were shown, and the account is `a`. -/
structure CoordinatorHistory (events : List CoordinatorEvent) (a : CoordinatedAccount Holder) :
    Prop where
  consistent : a.coordinator.Consistent
  single : a.Single
  issued : ∀ lease ∈ events.filterMap CoordinatorEvent.lease?, a.coordinator.Issued lease
  ordered : (events.filterMap CoordinatorEvent.lease?).Pairwise fun first second =>
    first.fence = second.fence ∨ first.val.fencingGeneration < second.val.fencingGeneration
  released : ∀ release, .released release ∈ events → a.coordinator.Revoked release.fence

theorem CoordinatorHistory.initial (accountId : Str) :
    CoordinatorHistory [] (CoordinatedAccount.initial Holder accountId) where
  consistent := ⟨nofun, nofun⟩
  single := rfl
  issued := by simp
  ordered := .nil
  released := by simp

variable {events : List CoordinatorEvent}

/-- Every step extends the history by its event. -/
theorem CoordinatorHistory.step (h : CoordinatorHistory events a)
    (hstep : CoordinatorStep H policy a event a') : CoordinatorHistory (events ++ [event]) a' := by
  have hchange := hstep.change
  have hconsistent := h.consistent.change hchange
  -- a lease returned now is current, so what was handed out before has its fence or an older one
  have hnew (lease : AccountLease) (hlease : lease ∈ event.lease?) :
      a'.coordinator.Issued lease :=
    .inr ⟨hconsistent.latest lease (hchange.current hlease), fun current hcurrent =>
      congrArg _ (Option.some.inj ((hchange.current hlease).symm.trans hcurrent))⟩
  have hsplit : (events ++ [event]).filterMap CoordinatorEvent.lease? =
      events.filterMap CoordinatorEvent.lease? ++ event.lease?.toList := by
    rw [List.filterMap_append, List.filterMap_cons, List.filterMap_nil]
    cases event.lease? <;> rfl
  refine ⟨hconsistent, h.single.step hstep, ?_, ?_, ?_⟩
  · intro lease hlease
    rw [hsplit, List.mem_append, Option.mem_toList] at hlease
    exact hlease.elim (fun hold => (h.issued lease hold).change hchange) (hnew lease)
  · rw [hsplit, List.pairwise_append]
    refine ⟨h.ordered, by cases event.lease? <;> simp, fun first hfirst second hsecond => ?_⟩
    have hcurrent := hchange.current (Option.mem_toList.1 hsecond)
    rcases (h.issued first hfirst).change hchange with hover | ⟨_, hfences⟩
    · exact .inr (hover.trans_eq (hconsistent.latest second hcurrent).symm)
    · exact .inl (hfences second hcurrent)
  · intro release hrelease
    rw [List.mem_append, List.mem_singleton] at hrelease
    rcases hrelease with hold | rfl
    · exact ((h.released release hold).change hchange).1
    · exact hchange.released h.consistent

/-- What every run of the coordinator keeps. -/
theorem CoordinatorHistory.of_trace
    (h : Trace (CoordinatorStep H policy) (.initial Holder accountId) events a) :
    CoordinatorHistory events a :=
  h.invariant_done CoordinatorHistory (.initial accountId) fun _ _ _ _ _ hs hstep => hs.step hstep

/-- The holder of the fence has no claim to the account any more: its lease was seen to have
expired, or was released, or a lease of a higher generation was handed out. -/
inductive Outdated (events : List CoordinatorEvent) (a : CoordinatedAccount Holder)
    (fence : AccountFence) : Prop where
  | expired {lease : AccountLease} {t : Instant}
      (hcurrent : a.coordinator.currentLease = some lease)
      (hfence : lease.fence = fence) (hobserved : a.coordinator.lastObservedAt = some t)
      (hexpired : lease.val.expiresAt ≤ t)
  | released {release : AccountLeaseRelease} (hreleased : .released release ∈ events)
      (hfence : release.fence = fence)
  | superseded {lease : AccountLease} (hissued : lease ∈ events.filterMap CoordinatorEvent.lease?)
      (hhigher : fence.val.fencingGeneration < lease.val.fencingGeneration)

/-- An outdated fence is revoked. -/
theorem CoordinatorHistory.revoked (h : CoordinatorHistory events a)
    (houtdated : Outdated events a fence) : a.coordinator.Revoked fence := by
  cases houtdated with
  | @expired lease t hcurrent hfence hobserved hexpired =>
    refine ⟨?_, fun lease' hlease _ => ⟨t, hobserved, ?_⟩⟩
    · rw [generation_of_fence hfence]
      exact (h.consistent.latest lease hcurrent).le
    · rwa [← Option.some.inj (hcurrent.symm.trans hlease)]
  | released hreleased hfence => exact hfence ▸ h.released _ hreleased
  | superseded hissued hhigher =>
    have hlast : fence.val.fencingGeneration < a.coordinator.lastGeneration := by
      rcases h.issued _ hissued with hover | ⟨hsame, _⟩
      · exact hhigher.trans hover
      · exact hhigher.trans_eq hsame
    refine ⟨hlast.le, fun current hcurrent hfence => ?_⟩
    rw [generation_of_fence hfence, h.consistent.latest current hcurrent] at hlast
    exact absurd hlast (lt_irrefl _)

/-- A revoked fence never sees a receipt again. -/
theorem no_receipt_of_revoked (h : a.coordinator.Revoked fence)
    (hrun : Trace (CoordinatorStep H policy) a events a') :
    ∀ event ∈ events, ∀ r ∈ event.receipt?, r.val.fence ≠ fence :=
  hrun.labels_of_invariant (fun b => b.coordinator.Revoked fence) h
    fun _ _ _ hb hstep => hb.change hstep.change

/-- Until the effect is left the lease stays as it is. -/
theorem leaseState_of_effect (h : a.coordinator.effectInProgress = true)
    (hrun : Trace (CoordinatorStep H policy) a events a') (hleft : .left ∉ events) :
    a'.coordinator.leaseState = a.coordinator.leaseState := by
  refine (hrun.invariant_done (fun done b => .left ∉ done → b.coordinator.effectInProgress = true ∧
    b.coordinator.leaseState = a.coordinator.leaseState) (fun _ => ⟨h, rfl⟩) ?_ hleft).2
  intro done b event b' _ hb hstep hdone
  rw [List.mem_append, List.mem_singleton, not_or] at hdone
  obtain ⟨hbusy, hsame⟩ := hb hdone.1
  refine ⟨?_, (hstep.change.still hbusy).trans hsame⟩
  by_cases hentered : ∃ r, event = .entered r
  · obtain ⟨r, rfl⟩ := hentered
    have hchange := hstep.change
    generalize b'.coordinator = t at hchange ⊢
    cases hchange with
    | returned _ hnone => cases hnone
    | entered => rfl
  · exact (hstep.change.effect (Ne.symm hdone.2) fun r hr => hentered ⟨r, hr⟩).trans hbusy

/-- Fencing safety of an account after a run that showed `events`. -/
structure Fenced (H : CoordinatorHashes) (policy : AccountLeasePolicy)
    (events : List CoordinatorEvent) (a : CoordinatedAccount Holder) : Prop where
  /-- Of two leases the later has the higher generation, or is the same tenure. -/
  generations : (events.filterMap CoordinatorEvent.lease?).Pairwise fun first second =>
    first.fence = second.fence ∨ first.val.fencingGeneration < second.val.fencingGeneration
  /-- Receipts that could be given now are for one fence, which has the last generation. -/
  one_valid : ∀ {event event' b b'}, CoordinatorStep H policy a event b →
    CoordinatorStep H policy a event' b' → ∀ r ∈ event.receipt?, ∀ r' ∈ event'.receipt?,
      r.val.fence = r'.val.fence ∧
        r.val.fence.val.fencingGeneration = a.coordinator.lastGeneration
  /-- A call gives a receipt only for a lease that its own reading finds unexpired. -/
  unexpired : ∀ {event b}, CoordinatorStep H policy a event b → ∀ r ∈ event.receipt?,
    ∃ lease, b.coordinator.currentLease = some lease ∧ lease.fence = r.val.fence ∧
      ∃ t, b.coordinator.lastObservedAt = some t ∧ t < lease.val.expiresAt
  no_stale_receipt : ∀ {fence}, Outdated events a fence →
    ∀ {later b}, Trace (CoordinatorStep H policy) a later b →
      ∀ event ∈ later, ∀ r ∈ event.receipt?, r.val.fence ≠ fence
  lease_still : a.effects ≠ [] → ∀ {later b}, Trace (CoordinatorStep H policy) a later b →
    .left ∉ later → b.coordinator.leaseState = a.coordinator.leaseState
  no_nesting : a.effects.length ≤ 1

/-- **Fencing safety**, over every interleaving of the holders' calls and all clock readings. -/
theorem coordinator_fenced {accountId : Str} {events : List CoordinatorEvent}
    (h : Trace (CoordinatorStep H policy) (.initial Holder accountId) events a) :
    Fenced H policy events a := by
  have history := CoordinatorHistory.of_trace h
  have hsingle := history.single
  unfold CoordinatedAccount.Single at hsingle
  refine ⟨history.ordered, ?_, ?_,
    fun houtdated => no_receipt_of_revoked (history.revoked houtdated),
    fun heffects => leaseState_of_effect ?_, ?_⟩
  · intro event event' b b' hstep hstep' r hr r' hr'
    obtain ⟨current, hcurrent, -, hfence, -⟩ := hstep.change.receipt hr
    obtain ⟨current', hcurrent', -, hfence', -⟩ := hstep'.change.receipt hr'
    obtain rfl := Option.some.inj (hcurrent.symm.trans hcurrent')
    refine ⟨hfence.trans hfence'.symm, ?_⟩
    rw [generation_of_fence hfence.symm]
    exact history.consistent.latest current hcurrent
  · intro event b hstep r hr
    obtain ⟨current, -, hcurrent, hfence, hvalid⟩ := hstep.change.receipt hr
    exact ⟨current, hcurrent, hfence.symm, hvalid⟩
  · by_contra hfree
    rw [if_neg hfree] at hsingle
    exact heffects (List.eq_nil_of_length_eq_zero hsingle)
  · rw [hsingle]
    split <;> omega

end steps

def sampleLeasePolicy : AccountLeasePolicy :=
  ⟨{ policyId := "lease"
     policyVersion := "1"
     leaseTtl := 10
     maximumInFlightDuration := 2
     takeoverSafetyInterval := 5 }, by decide +kernel⟩

/-- A holder takes the account, runs an effect and lets go; the next one takes over. -/
def sampleHandover : CoordinatorM (AccountLease × AccountLease) := do
  let lease ← Coordinator.acquire .plain sampleLeasePolicy "first" (.ok 0)
  let _ ← Coordinator.enterFenced .plain sampleLeasePolicy lease.fence (.ok 1)
  Machine.modify Coordinator.leaveFenced
  let _ ← Coordinator.release .plain sampleLeasePolicy lease.fence (.ok 2)
  let next ← Coordinator.acquire .plain sampleLeasePolicy "second" (.ok 3)
  return (lease, next)

theorem sampleHandover_ok : ∃ lease next final,
    sampleHandover (.initial "account") = (.ok (lease, next), final) ∧
      lease.val.fencingGeneration = 1 ∧ next.val.fencingGeneration = 2 := by
  have hrun : (fun leases => (leases.1.val.fencingGeneration, leases.2.val.fencingGeneration)) <$>
      (sampleHandover (.initial "account")).1 = .ok (1, 2) := by
    decide +kernel
  rcases hresult : sampleHandover (.initial "account") with ⟨_ | ⟨lease, next⟩, final⟩
  · rw [hresult] at hrun
    cases hrun
  · rw [hresult] at hrun
    obtain ⟨hfirst, hnext⟩ := Prod.mk.inj (Except.ok.inj hrun)
    exact ⟨lease, next, final, rfl, hfirst, hnext⟩

/-- The old fence gets no receipt after the handover, and the new lease has a higher generation. -/
theorem handover_fenced : ∃ lease receipt release next a,
    Trace (CoordinatorStep .plain sampleLeasePolicy) (.initial Bool "account")
      [.acquired lease, .entered receipt, .left, .released release, .acquired next] a ∧
    lease.val.fencingGeneration = 1 ∧ next.val.fencingGeneration = 2 ∧
    ∀ {later b}, Trace (CoordinatorStep .plain sampleLeasePolicy) a later b →
      ∀ event ∈ later, ∀ r ∈ event.receipt?, r.val.fence ≠ lease.fence := by
  obtain ⟨lease, next, final, hrun, hfirst, hnext⟩ := sampleHandover_ok
  simp only [sampleHandover, Machine.run_bind_eq_ok] at hrun
  obtain ⟨_, s₁, hacquire, receipt, s₂, henter, _, s₃, hleave, release, s₄, hrelease,
    _, s₅, hsecond, hreturn⟩ := hrun
  cases hreturn
  cases hleave
  have hfree (s : CoordinatorState) : (⟨s, []⟩ : CoordinatedAccount Bool).admits false := by
    simp [CoordinatedAccount.admits]
  have step₁ : CoordinatorStep .plain sampleLeasePolicy _ _ _ :=
    .acquire (hfree (.initial "account")) (eventOf_of_ok hacquire)
  have step₂ : CoordinatorStep .plain sampleLeasePolicy _ _ _ :=
    .enter (hfree s₁) henter
  have step₃ : CoordinatorStep .plain sampleLeasePolicy ⟨s₂, [(false, lease.fence)]⟩ _ _ :=
    .leave rfl
  have step₄ : CoordinatorStep .plain sampleLeasePolicy _ _ _ :=
    .release (hfree (Coordinator.leaveFenced s₂)) (eventOf_of_ok hrelease)
  have step₅ : CoordinatorStep .plain sampleLeasePolicy _ _ _ :=
    .acquire (hfree s₄) (eventOf_of_ok hsecond)
  have htrace : Trace (CoordinatorStep .plain sampleLeasePolicy) (.initial Bool "account") _ _ :=
    .snoc (.snoc (.snoc (.snoc (.snoc .nil step₁) step₂) step₃) step₄) step₅
  refine ⟨lease, receipt, release, next, _, htrace, hfirst, hnext, fun hlater => ?_⟩
  refine (coordinator_fenced htrace).no_stale_receipt (.superseded (?_ : next ∈ _) ?_) hlater
  · simp [CoordinatorEvent.lease?]
  · rw [generation_of_fence rfl, hfirst, hnext]
    decide

end AutoQuantTrader
