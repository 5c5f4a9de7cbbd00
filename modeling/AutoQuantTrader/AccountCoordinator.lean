import AutoQuantTrader.Lib.Machine
import AutoQuantTrader.Lib.Trace
import AutoQuantTrader.Contracts

/-!
# The account coordinator

One holder at a time owns an account, by a lease that expires.  A fence is what a holder shows for
its lease; `enterFenced` checks it and begins an effect, during which the account's lock is held, so
that an effect is never overtaken by another owner.

The methods are computations on the state of one account, given what the clock shows; a reading that
is refused is an error.  A method runs under a reentrant lock: while an effect runs only its own
holder gets in, and `CoordinatorStep` lists what any number of holders can then do.
-/

namespace AutoQuantTrader

open Result

/-! ## Records -/

structure AccountLeasePolicyFields where
  (policyId policyVersion : Str)
  (leaseTtl maximumInFlightDuration takeoverSafetyInterval : Int)

/-- Durations are in microseconds. -/
def AccountLeasePolicyFields.postInit (p : AccountLeasePolicyFields) : Py Unit := do
  requireText p.policyId "coordinator policy ID"
  requireText p.policyVersion "coordinator policy version"
  raiseIf (p.leaseTtl ≤ 0) "lease_ttl must be a positive exact timedelta"
  raiseIf (p.maximumInFlightDuration ≤ 0)
    "maximum_in_flight_duration must be a positive exact timedelta"
  raiseIf (p.takeoverSafetyInterval ≤ 0)
    "takeover_safety_interval must be a positive exact timedelta"
  raiseIf (p.takeoverSafetyInterval ≤ p.maximumInFlightDuration)
    "takeover_safety_interval must exceed maximum_in_flight_duration"

abbrev AccountLeasePolicy := Checked AccountLeasePolicyFields.postInit

structure AccountFenceFields where
  (accountId ownerId leaseId : Str)
  fencingGeneration : Nat
deriving DecidableEq

def AccountFenceFields.postInit (f : AccountFenceFields) : Py Unit := do
  requireText f.accountId "fence account ID"
  requireText f.ownerId "fence owner ID"
  requireText f.leaseId "fence lease ID"
  raiseIf (f.fencingGeneration = 0) "fencing_generation must be a positive integer"

/-- Stable capability for one owner and monotonically fenced lease. -/
abbrev AccountFence := Checked AccountFenceFields.postInit

structure AccountLeaseFields where
  (accountId ownerId leaseId : Str)
  (fencingGeneration revisionNumber : Nat)
  previousLeaseSha256 : Option Str
  (acquiredAt heartbeatAt expiresAt : Instant)
  policySha256 : Str

def AccountLeaseFields.postInit (l : AccountLeaseFields) : Py Unit := do
  requireText l.accountId "lease account ID"
  requireText l.ownerId "lease owner ID"
  requireText l.leaseId "lease ID"
  raiseIf (l.fencingGeneration = 0) "fencing_generation must be a positive integer"
  raiseIf (l.revisionNumber = 0) "lease revision_number must be a positive integer"
  raiseIf (l.revisionNumber = 1 ∧ l.previousLeaseSha256 ≠ none)
    "lease acquisition revision cannot have a predecessor"
  raiseIf (l.revisionNumber ≠ 1 ∧ l.previousLeaseSha256 = none)
    "lease renewal revision requires a predecessor"
  raiseIf (l.heartbeatAt < l.acquiredAt) "lease heartbeat cannot precede acquisition"
  raiseIf (l.revisionNumber = 1 ∧ l.heartbeatAt ≠ l.acquiredAt)
    "lease acquisition revision heartbeat must equal acquisition"
  raiseIf (1 < l.revisionNumber ∧ l.heartbeatAt = l.acquiredAt)
    "lease renewal heartbeat must follow acquisition"
  raiseIf (l.expiresAt ≤ l.heartbeatAt) "lease expiry must follow its heartbeat"

/-- One immutable revision of a renewable account-coordinator lease. -/
abbrev AccountLease := Checked AccountLeaseFields.postInit

theorem AccountLease.fence_passes (l : AccountLease) :
    AccountFenceFields.postInit
      ⟨l.val.accountId, l.val.ownerId, l.val.leaseId, l.val.fencingGeneration⟩ = .ok () := by
  have hpasses := l.passes
  simp only [AccountLeaseFields.postInit, Py.eq_ok, requireText_eq_ok] at hpasses
  obtain ⟨_, haccount, _, howner, _, hlease, _, hgeneration, -⟩ := hpasses
  simp only [AccountFenceFields.postInit, Py.eq_ok, requireText_eq_ok]
  exact ⟨(), haccount, (), howner, (), hlease, hgeneration⟩

/-- The fence of a lease; the checks of a lease include those of its fence. -/
def AccountLease.fence (l : AccountLease) : AccountFence := ⟨_, l.fence_passes⟩

structure AccountFenceReceiptFields where
  fence : AccountFence
  (validatedAt validUntil : Instant)
  (policySha256 leaseSha256 : Str)
deriving DecidableEq

def AccountFenceReceiptFields.validate (r : AccountFenceReceiptFields) : Py Unit :=
  raiseIf (r.validUntil ≤ r.validatedAt) "fence receipt must be validated before lease expiry"

/-- Evidence that the current lease was checked at one trusted instant. -/
abbrev AccountFenceReceipt := Checked AccountFenceReceiptFields.validate

/-- Explicit clean handoff evidence for an unexpired current lease. -/
structure AccountLeaseRelease where
  fence : AccountFence
  releasedAt : Instant
  (policySha256 leaseSha256 : Str)

/-- The identifier and digest functions of the coordinator records. -/
structure CoordinatorHashes where
  canonicalId : CanonicalId
  policy : AccountLeasePolicy → Str
  fence : AccountFence → Str
  lease : AccountLease → Str

def CoordinatorHashes.plain : CoordinatorHashes where
  canonicalId := plainId
  policy p := plainId "policy" [.text p.val.policyId, .text p.val.policyVersion]
  fence f := plainId "fence" [.text f.val.leaseId]
  lease l := plainId "lease" [.text l.val.leaseId, .integer l.val.revisionNumber]

/-! ## The state of one account -/

structure CoordinatorState where
  accountId : Str
  currentLease : Option AccountLease
  effectInProgress : Bool
  lastGeneration : Nat
  lastObservedAt : Option Instant
  releases : Dict Str AccountLeaseRelease

def CoordinatorState.initial (accountId : Str) : CoordinatorState :=
  { accountId
    currentLease := none
    effectInProgress := false
    lastGeneration := 0
    lastObservedAt := none
    releases := .empty }

abbrev CoordinatorM := Machine CoordinatorState PyError

namespace Coordinator

/-- `_trusted_now`: the clock never goes back. -/
def trustedNow (reading : Py Instant) : CoordinatorM Instant := do
  let instant ← Machine.lift reading
  let s ← Machine.read
  refuse (∃ prior ∈ s.lastObservedAt, instant < prior) "coordinator clock cannot regress"
  Machine.modify fun s => { s with lastObservedAt := some instant }
  return instant

/-- `_require_exact_fence`. -/
def requireExactFence (fence : AccountFence) : CoordinatorM AccountLease := do
  let s ← Machine.read
  match s.currentLease with
  | none => Machine.raise (.valueError "account fence is no longer current")
  | some current => do
    refuse (fence ≠ current.fence) "account fence is no longer current"
    return current

/-- `_require_no_effect_transition`. -/
def requireNoEffectTransition : CoordinatorM Unit := do
  let s ← Machine.read
  refuse (s.effectInProgress = true)
    "account lease cannot transition during a fenced broker effect"

variable (H : CoordinatorHashes) (policy : AccountLeasePolicy)

/-- `_receipt`. -/
def receipt (fence : AccountFence) (now : Instant) : CoordinatorM AccountFenceReceipt := do
  let current ← requireExactFence fence
  refuse (current.val.expiresAt ≤ now) "account coordinator lease has expired"
  Machine.lift (construct {
    fence
    validatedAt := now
    validUntil := current.val.expiresAt
    policySha256 := H.policy policy
    leaseSha256 := H.lease current })

/-- The first lease of a new generation. -/
def newLease (s : CoordinatorState) (ownerId : Str) (now : Instant) : Py AccountLease :=
  construct {
    accountId := s.accountId
    ownerId
    leaseId := H.canonicalId "account-coordinator-lease"
      [.text s.accountId, .integer (s.lastGeneration + 1), .text ownerId, .instant now,
        .text (H.policy policy)]
    fencingGeneration := s.lastGeneration + 1
    revisionNumber := 1
    previousLeaseSha256 := none
    acquiredAt := now
    heartbeatAt := now
    expiresAt := now + policy.val.leaseTtl
    policySha256 := H.policy policy }

def acquire (ownerId : Str) (reading : Py Instant) : CoordinatorM AccountLease := do
  refuse (ownerId = "" ∨ ¬ isTrimmed ownerId) "coordinator owner ID must be non-empty and trimmed"
  requireNoEffectTransition
  let now ← trustedNow reading
  let s ← Machine.read
  match s.currentLease with
  | some current => do
    refuse (current.val.expiresAt ≤ now)
      "expired coordinator ownership requires durable reconciliation takeover"
    refuse (current.val.ownerId ≠ ownerId) "account already has an active coordinator owner"
    return current
  | none => do
    let lease ← Machine.lift (newLease H policy s ownerId now)
    Machine.modify fun s =>
      { s with currentLease := some lease, lastGeneration := s.lastGeneration + 1 }
    return lease

/-- The next revision of a lease. -/
def renewedLease (current : AccountLease) (now : Instant) : Py AccountLease :=
  construct { current.val with
    revisionNumber := current.val.revisionNumber + 1
    previousLeaseSha256 := some (H.lease current)
    heartbeatAt := now
    expiresAt := now + policy.val.leaseTtl }

def renew (fence : AccountFence) (reading : Py Instant) : CoordinatorM AccountLease := do
  requireNoEffectTransition
  let current ← requireExactFence fence
  let now ← trustedNow reading
  refuse (current.val.expiresAt ≤ now) "expired coordinator lease cannot be renewed"
  if now = current.val.heartbeatAt then return current
  else do
    refuse (now + policy.val.leaseTtl ≤ current.val.expiresAt)
      "lease renewal must extend the current expiry"
    let renewed ← Machine.lift (renewedLease H policy current now)
    Machine.modify fun s => { s with currentLease := some renewed }
    return renewed

def revalidate (fence : AccountFence) (reading : Py Instant) :
    CoordinatorM AccountFenceReceipt := do
  let now ← trustedNow reading
  receipt H policy fence now

/-- `run_fenced` up to the call of its operation. -/
def enterFenced (fence : AccountFence) (reading : Py Instant) :
    CoordinatorM AccountFenceReceipt := do
  let s ← Machine.read
  refuse (s.effectInProgress = true) "a fenced broker effect is already in progress"
  let now ← trustedNow reading
  let receipt ← receipt H policy fence now
  Machine.modify fun s => { s with effectInProgress := true }
  return receipt

/-- `run_fenced` after its operation, however that ended. -/
def leaveFenced (s : CoordinatorState) : CoordinatorState := { s with effectInProgress := false }

def release (fence : AccountFence) (reading : Py Instant) : CoordinatorM AccountLeaseRelease := do
  let s ← Machine.read
  match s.releases.get? (H.fence fence) with
  | some prior => return prior
  | none => do
    requireNoEffectTransition
    let now ← trustedNow reading
    let current ← requireExactFence fence
    let _ ← receipt H policy fence now
    let release : AccountLeaseRelease := ⟨fence, now, H.policy policy, H.lease current⟩
    Machine.modify fun s => { s with
      releases := s.releases.set (H.fence fence) release
      currentLease := none }
    return release

end Coordinator

/-! ## Holders -/

/-- The account with the effects that are running, the innermost first, and whose they are. -/
structure CoordinatedAccount (Holder : Type) where
  coordinator : CoordinatorState
  effects : List (Holder × AccountFence)

def CoordinatedAccount.initial (Holder : Type) (accountId : Str) : CoordinatedAccount Holder :=
  ⟨.initial accountId, []⟩

/-- The lock is free, or the holder has it. -/
def CoordinatedAccount.admits {Holder : Type} (a : CoordinatedAccount Holder) (holder : Holder) :
    Prop :=
  ∀ effect ∈ a.effects, effect.1 = holder

/-- What a holder sees of a call. -/
inductive CoordinatorEvent where
  | acquired (lease : AccountLease)
  | renewed (lease : AccountLease)
  | revalidated (receipt : AccountFenceReceipt)
  | released (release : AccountLeaseRelease)
  | entered (receipt : AccountFenceReceipt)
  | left
  | raised (error : PyError)

/-- The receipt a holder is given. -/
def CoordinatorEvent.receipt? : CoordinatorEvent → Option AccountFenceReceipt
  | .revalidated receipt => some receipt
  | .entered receipt => some receipt
  | _ => none

/-- The lease a holder is given. -/
def CoordinatorEvent.lease? : CoordinatorEvent → Option AccountLease
  | .acquired lease => some lease
  | .renewed lease => some lease
  | _ => none

/-- What a call shows and does to the state. -/
def eventOf {α : Type} (show_ : α → CoordinatorEvent) (x : CoordinatorM α) (s : CoordinatorState) :
    CoordinatorEvent × CoordinatorState :=
  match x s with
  | (.ok a, s') => (show_ a, s')
  | (.error e, s') => (.raised e, s')

/-- **One call of one holder**, with any reading of the clock.  An effect begins with `entered` and
ends with `left`; what its holder calls in between is reentrant. -/
inductive CoordinatorStep {Holder : Type} (H : CoordinatorHashes) (policy : AccountLeasePolicy)
    (a : CoordinatedAccount Holder) : CoordinatorEvent → CoordinatedAccount Holder → Prop where
  | acquire (hlock : a.admits holder) (hrun : eventOf .acquired
      (Coordinator.acquire H policy ownerId reading) a.coordinator = (event, s')) :
      CoordinatorStep H policy a event { a with coordinator := s' }
  | renew (hlock : a.admits holder) (hrun : eventOf .renewed
      (Coordinator.renew H policy fence reading) a.coordinator = (event, s')) :
      CoordinatorStep H policy a event { a with coordinator := s' }
  | revalidate (hlock : a.admits holder) (hrun : eventOf .revalidated
      (Coordinator.revalidate H policy fence reading) a.coordinator = (event, s')) :
      CoordinatorStep H policy a event { a with coordinator := s' }
  | release (hlock : a.admits holder) (hrun : eventOf .released
      (Coordinator.release H policy fence reading) a.coordinator = (event, s')) :
      CoordinatorStep H policy a event { a with coordinator := s' }
  | enter (hlock : a.admits holder)
      (hrun : Coordinator.enterFenced H policy fence reading a.coordinator = (.ok receipt, s')) :
      CoordinatorStep H policy a (.entered receipt) ⟨s', (holder, fence) :: a.effects⟩
  | refused (hlock : a.admits holder)
      (hrun : Coordinator.enterFenced H policy fence reading a.coordinator = (.error error, s')) :
      CoordinatorStep H policy a (.raised error) { a with coordinator := s' }
  | leave (heffects : a.effects = (holder, fence) :: rest) :
      CoordinatorStep H policy a .left ⟨Coordinator.leaveFenced a.coordinator, rest⟩

end AutoQuantTrader
