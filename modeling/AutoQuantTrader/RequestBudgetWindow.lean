import Mathlib.Tactic.Linarith
import AutoQuantTrader.Lib.RollingWindow
import AutoQuantTrader.RequestBudget

/-!
# What the request budget bounds

A permit is counted when it is issued and used later.  Two permits that are used within one window
count against each other when the later one is issued, whichever of them is used first, so the
ceilings on active permits bound the requests of every window.
-/

namespace AutoQuantTrader

open Result RollingWindow

variable {H : BudgetHashes} {policy : BrokerRequestBudgetPolicy} {demand : BrokerRequestDemand}
  {issuedAt : Instant} {active permits : List BrokerRequestPermit} {permit : BrokerRequestPermit}
  {previous : Option BrokerRequestPermit} {previousPolicy : Option BrokerRequestBudgetPolicy}

/-! ## What an accepted call has checked -/

theorem checked_ne_exhausted {α : Type} {x : Py α} {message : Str} :
    checked x ≠ .error (.exhausted message) := by
  cases x <;> simp [checked]

theorem requirePolicyBoundExpiry_eq (h : requirePolicyBoundExpiry permit policy = .ok u) :
    permit.val.expiresAt = permit.val.issuedAt + policy.val.permitTtl := by
  simp only [requirePolicyBoundExpiry, Py.eq_ok, shiftInstant_eq_ok] at h
  obtain ⟨_, ⟨-, rfl⟩, h⟩ := h
  exact h

/-- A permit that counts against one issued at an instant. -/
structure ActivePermit (H : BudgetHashes) (policy : BrokerRequestBudgetPolicy) (issuedAt : Instant)
    (permit : BrokerRequestPermit) : Prop where
  policySha256 : permit.val.policySha256 = H.policy policy
  expiresAt : permit.val.expiresAt = permit.val.issuedAt + policy.val.permitTtl
  recent : issuedAt - policy.val.windowDuration ≤ permit.val.expiresAt
  issued : permit.val.issuedAt ≤ issuedAt

/-- The latest permit of the account: the policy is changed after its window has drained, or it ends
the active history. -/
structure LatestPermit (H : BudgetHashes) (policy : BrokerRequestBudgetPolicy) (issuedAt : Instant)
    (active : List BrokerRequestPermit) (previous : BrokerRequestPermit)
    (previousPolicy : BrokerRequestBudgetPolicy) : Prop where
  expiresAt : previous.val.expiresAt = previous.val.issuedAt + previousPolicy.val.permitTtl
  issued : previous.val.issuedAt ≤ issuedAt
  follows : H.policy previousPolicy ≠ H.policy policy ∧ active = [] ∧
      previous.val.expiresAt + previousPolicy.val.windowDuration < issuedAt ∨
    H.policy previousPolicy = H.policy policy ∧ (active ≠ [] → active.getLast? = some previous)

/-- What `_validate_chain` lets through. -/
structure ValidChain (H : BudgetHashes) (policy : BrokerRequestBudgetPolicy) (issuedAt : Instant)
    (active : List BrokerRequestPermit) (previous : Option BrokerRequestPermit)
    (previousPolicy : Option BrokerRequestBudgetPolicy) : Prop where
  counted : ∀ permit ∈ active, ActivePermit H policy issuedAt permit
  sorted : (active.map (·.val.sequenceNumber)).Pairwise (· ≤ ·)
  unique : (active.map (·.val.sequenceNumber)).Nodup
  first : previous = none → active = []
  latest : ∀ permit ∈ previous, ∃ policy' ∈ previousPolicy,
    LatestPermit H policy issuedAt active permit policy'

theorem checkPrevious_spec {previous : BrokerRequestPermit}
    {previousPolicy : BrokerRequestBudgetPolicy}
    (h : checkPrevious H policy demand issuedAt lowerBound active previous previousPolicy = .ok u) :
    LatestPermit H policy issuedAt active previous previousPolicy := by
  simp only [checkPrevious, Py.eq_ok, not_lt] at h
  obtain ⟨_, -, _, -, _, hexpiry, _, hissued, _, -, h⟩ := h
  refine ⟨requirePolicyBoundExpiry_eq hexpiry, hissued, ?_⟩
  split at h
  · next hrotated =>
    simp only [Py.eq_ok, shiftInstant_eq_ok, not_le] at h
    obtain ⟨_, hempty, _, -, _, ⟨-, rfl⟩, hdrained⟩ := h
    exact .inl ⟨hrotated, hempty, hdrained⟩
  · next hsame =>
    refine .inr ⟨not_not.1 hsame, fun hne => ?_⟩
    rw [checkLatest, List.getLast?_eq_some_getLast hne] at h
    rw [List.getLast?_eq_some_getLast hne, not_not.1 (raiseIf_eq_ok.1 h)]

/-- An accepted chain is valid. -/
theorem validateChain_spec
    (h : validateChain H policy demand issuedAt active previous previousPolicy = .ok u) :
    ValidChain H policy issuedAt active previous previousPolicy := by
  simp only [validateChain, Py.eq_ok, shiftInstant_eq_ok, forM_eq_ok] at h
  obtain ⟨_, -, _, ⟨-, rfl⟩, _, hactive, _, hsorted, _, hunique, _, -, h⟩ := h
  refine ⟨fun permit hpermit => ?_, hsorted, hunique, ?_, ?_⟩
  · have hcheck := hactive permit hpermit
    simp only [checkActivePermit, Py.eq_ok, not_or, not_lt] at hcheck
    obtain ⟨_, -, _, hpolicy, _, hexpiry, hrecent, hissued⟩ := hcheck
    exact ⟨hpolicy, requirePolicyBoundExpiry_eq hexpiry, sub_eq_add_neg issuedAt _ ▸ hrecent,
      hissued⟩
  · rintro rfl
    simp only [Py.eq_ok] at h
    exact h.choose_spec.1
  · rintro permit rfl
    cases previousPolicy with
    | none => simp at h
    | some policy' => exact ⟨policy', rfl, checkPrevious_spec h⟩

/-- A permit that was issued. -/
structure Issued (H : BudgetHashes) (policy : BrokerRequestBudgetPolicy)
    (demand : BrokerRequestDemand) (issuedAt : Instant) (active : List BrokerRequestPermit)
    (previous : Option BrokerRequestPermit) (previousPolicy : Option BrokerRequestBudgetPolicy)
    (permit : BrokerRequestPermit) : Prop where
  chain : ValidChain H policy issuedAt active previous previousPolicy
  room : (active.length : Int) < policy.val.capacityFor permit.val.purpose
  issuedAt_eq : permit.val.issuedAt = issuedAt
  expiresAt : permit.val.expiresAt = permit.val.issuedAt + policy.val.permitTtl
  policySha256 : permit.val.policySha256 = H.policy policy
  sequenceNumber : permit.val.sequenceNumber = previous.elim 1 (·.val.sequenceNumber + 1)

/-- An issued permit extends a valid chain within its capacity. -/
theorem issueBrokerRequestPermit_spec
    (h : issueBrokerRequestPermit H policy demand issuedAt active previous previousPolicy =
      .ok permit) : Issued H policy demand issuedAt active previous previousPolicy permit := by
  simp only [issueBrokerRequestPermit, eq_ok, checked_eq_ok, throwIf_eq_ok, construct_eq_ok,
    shiftInstant_eq_ok, not_le] at h
  obtain ⟨_, -, _, hchain, _, hroom, _, ⟨-, rfl⟩, hpermit⟩ := h
  refine ⟨validateChain_spec hchain, ?_, ?_, ?_, ?_, ?_⟩
  all_goals rw [hpermit]
  exact hroom

/-- The permits that count against a new one have lower numbers. -/
theorem Issued.number_lt (h : Issued H policy demand issuedAt active previous previousPolicy permit)
    (hearlier : earlier ∈ active) : earlier.val.sequenceNumber < permit.val.sequenceNumber := by
  cases hprevious : previous with
  | none =>
    rw [h.chain.first hprevious] at hearlier
    cases hearlier
  | some last =>
    obtain ⟨policy', -, hlatest⟩ := h.chain.latest last hprevious
    have hne := List.ne_nil_of_mem hearlier
    rcases hlatest.follows with ⟨-, hempty, -⟩ | ⟨-, hlast⟩
    · exact absurd hempty hne
    · obtain ⟨before, rfl⟩ := List.getLast?_eq_some_iff.1 (hlast hne)
      have hsorted := h.chain.sorted
      rw [List.map_append, List.pairwise_append] at hsorted
      rw [h.sequenceNumber, hprevious, Option.elim_some, Nat.lt_succ_iff]
      rcases List.mem_append.1 hearlier with hmem | hmem
      · exact hsorted.2.2 _ (List.mem_map_of_mem hmem) _ (by simp)
      · rw [List.mem_singleton.1 hmem]

/-- A call is refused for capacity only if its chain is valid and full. -/
theorem full_of_exhausted
    (h : issueBrokerRequestPermit H policy demand issuedAt active previous previousPolicy =
      .error (.exhausted message)) :
    ValidChain H policy issuedAt active previous previousPolicy ∧
      policy.val.capacityFor demand.val.purpose ≤ active.length := by
  unfold issueBrokerRequestPermit at h
  rcases bind_eq_error.1 h with h | ⟨_, -, h⟩
  · exact absurd h checked_ne_exhausted
  rcases bind_eq_error.1 h with h | ⟨_, hchain, h⟩
  · exact absurd h checked_ne_exhausted
  refine ⟨validateChain_spec (checked_eq_ok.1 hchain), ?_⟩
  by_contra hroom
  rw [throwIf, if_neg hroom] at h
  rcases bind_eq_error.1 h with h | ⟨_, -, h⟩
  · cases h
  rcases bind_eq_error.1 h with h | ⟨_, -, h⟩
  · exact absurd h checked_ne_exhausted
  · exact absurd h checked_ne_exhausted

/-! ## One policy -/

/-- The complete set of earlier permits that may be used within a window of the new one. -/
def ReceivesActive (policy : BrokerRequestBudgetPolicy) (issuedAt : Instant)
    (permits active : List BrokerRequestPermit) : Prop :=
  ∀ permit, permit ∈ active ↔
    permit ∈ permits ∧ issuedAt - policy.val.windowDuration ≤ permit.val.expiresAt

/-- The permits that calls under one policy have issued, each of which received every earlier permit
that counts. -/
inductive IssuanceHistory (H : BudgetHashes) (policy : BrokerRequestBudgetPolicy) :
    List BrokerRequestPermit → Prop where
  | nil : IssuanceHistory H policy []
  | issued {permits active : List BrokerRequestPermit} {demand : BrokerRequestDemand}
      {issuedAt : Instant} {previous : Option BrokerRequestPermit}
      {previousPolicy : Option BrokerRequestBudgetPolicy} {permit : BrokerRequestPermit}
      (h : IssuanceHistory H policy permits)
        (hactive : ReceivesActive policy issuedAt permits active)
      (hissue : issueBrokerRequestPermit H policy demand issuedAt active previous previousPolicy =
        .ok permit) : IssuanceHistory H policy (permits ++ [permit])

/-- The earlier permit counts against the other. -/
def CountsAgainst (policy : BrokerRequestBudgetPolicy) (permit earlier : BrokerRequestPermit) :
    Prop :=
  permit.val.issuedAt - policy.val.windowDuration ≤ earlier.val.expiresAt

/-- Each permit was within its purpose's capacity when issued. -/
theorem IssuanceHistory.admitted (h : IssuanceHistory H policy permits) :
    Admitted (CountsAgainst policy) (fun permit => policy.val.capacityFor permit.val.purpose)
      permits := by
  induction h with
  | nil => exact .nil
  | issued h hactive hissue ih =>
    have hissued := issueBrokerRequestPermit_spec hissue
    refine .snoc ih (fun earlier hearlier hcounts => ?_) hissued.room
    exact (hactive earlier).2 ⟨hearlier, hissued.issuedAt_eq ▸ hcounts⟩

/-- No two permits are the same: a permit counts against itself, and those that count against a new
permit have lower numbers. -/
theorem IssuanceHistory.nodup (h : IssuanceHistory H policy permits) : permits.Nodup := by
  induction h with
  | nil => exact List.nodup_nil
  | @issued permits active demand issuedAt previous previousPolicy permit h hactive hissue ih =>
    rw [← List.concat_eq_append, List.nodup_concat]
    refine ⟨fun hmem => ?_, ih⟩
    have hissued := issueBrokerRequestPermit_spec hissue
    have hcounts : CountsAgainst policy permit permit := by
      obtain ⟨hwindow, httl, -⟩ := policy.spec
      rw [CountsAgainst, hissued.expiresAt]
      linarith
    have hself : permit ∈ active := (hactive permit).2 ⟨hmem, hissued.issuedAt_eq ▸ hcounts⟩
    exact absurd (hissued.number_lt hself) (lt_irrefl _)

/-- Requests that use what was issued, each permit at most once and while it is fresh. -/
structure UsesPermits {α : Type} (permitOf : α → BrokerRequestPermit) (issued : List α)
    (requests : List (α × Instant)) : Prop where
  once : (requests.map (·.1)).Nodup
  fresh : ∀ request ∈ requests,
    request.1 ∈ issued ∧ (permitOf request.1).val.isFresh request.2

/-- The requests of a closed window. -/
def requestsWithin {α : Type} (start duration : Int) (requests : List (α × Instant)) :
    List (α × Instant) :=
  requests.filter fun request => start ≤ request.2 ∧ request.2 ≤ start + duration

/-- Requests of one window whose purposes have capacities within a bound are no more than that. -/
theorem IssuanceHistory.requests_le (h : IssuanceHistory H policy permits)
    (huses : UsesPermits id permits requests) (start : Int) (chosen : BrokerRequestPurpose → Prop)
    [DecidablePred chosen] (hbound : 0 ≤ bound)
    (hcapacity : ∀ purpose, chosen purpose → policy.val.capacityFor purpose ≤ bound) :
    (((requestsWithin start policy.val.windowDuration requests).filter
      (chosen ·.1.val.purpose)).length : Int) ≤ bound := by
  have hspec {permit : BrokerRequestPermit} {t : Instant}
      (hmem : (permit, t) ∈ (requestsWithin start policy.val.windowDuration requests).filter
        (chosen ·.1.val.purpose)) :
      (permit, t) ∈ requests ∧ chosen permit.val.purpose ∧
        start ≤ t ∧ t ≤ start + policy.val.windowDuration := by
    simpa [requestsWithin, and_assoc] using hmem
  rw [← List.length_map (·.1)]
  refine h.admitted.length_le ?_ ?_ ?_ ?_ hbound
  · refine huses.once.sublist (List.Sublist.map _ ?_)
    exact List.filter_sublist.trans List.filter_sublist
  · intro permit hpermit
    obtain ⟨⟨_, t⟩, hmem, rfl⟩ := List.mem_map.1 hpermit
    exact (huses.fresh _ (hspec hmem).1).1
  · intro permit hpermit earlier hearlier
    obtain ⟨⟨_, t⟩, hmem, rfl⟩ := List.mem_map.1 hpermit
    obtain ⟨⟨_, t'⟩, hmem', rfl⟩ := List.mem_map.1 hearlier
    obtain ⟨hrequest, -, -, hend⟩ := hspec hmem
    obtain ⟨hrequest', -, hstart, -⟩ := hspec hmem'
    obtain ⟨-, hissued, -⟩ := huses.fresh _ hrequest
    obtain ⟨-, -, hexpires⟩ := huses.fresh _ hrequest'
    simp only [id_eq] at hissued hexpires
    rw [CountsAgainst]
    linarith
  · intro permit hpermit
    obtain ⟨⟨_, t⟩, hmem, rfl⟩ := List.mem_map.1 hpermit
    exact hcapacity _ (hspec hmem).2.1

/-- Active permits that are all submissions leave room for every other purpose. -/
theorem IssuanceHistory.room_for_recovery (h : IssuanceHistory H policy permits)
    (hactive : ReceivesActive policy issuedAt permits active)
    (hsubmissions : ∀ permit ∈ active, permit.val.purpose = .submission)
    (hdemand : demand.val.purpose ≠ .submission) (message : Str) :
    issueBrokerRequestPermit H policy demand issuedAt active previous previousPolicy ≠
      .error (.exhausted message) := by
  intro hexhausted
  obtain ⟨hchain, hfull⟩ := full_of_exhausted hexhausted
  obtain ⟨-, -, hpos, hrecovery, htotal⟩ := policy.spec
  have hle : (active.length : Int) ≤ policy.val.submissionCapacity := by
    refine h.admitted.length_le hchain.unique.of_map (fun permit hpermit => ?_) ?_ ?_ hpos.le
    · exact ((hactive permit).1 hpermit).1
    · intro permit hpermit earlier hearlier
      have hissued := (hchain.counted permit hpermit).issued
      have hrecent := (hchain.counted earlier hearlier).recent
      rw [CountsAgainst]
      linarith
    · intro permit hpermit
      rw [hsubmissions permit hpermit]
      exact le_rfl
  have hlt : policy.val.submissionCapacity < policy.val.capacityFor demand.val.purpose := by
    cases hpurpose : demand.val.purpose with
    | submission => exact absurd hpurpose hdemand
    | unknownLookup => exact hrecovery
    | cancel => exact hrecovery.trans htotal
    | reconciliation => exact hrecovery.trans htotal
  linarith

/-- **The rolling request budget**: permits of one policy are all different, and however they are
used, each at most once and while it is fresh, every closed window has at most the total capacity of
requests, at most the submission capacity of submissions, and at most the recovery capacity of
submissions and lookups.  While only submissions are active, nothing else is refused for
capacity. -/
theorem rolling_request_budget (h : IssuanceHistory H policy permits) :
    permits.Nodup ∧
      (∀ requests, UsesPermits id permits requests → ∀ start,
        let window := requestsWithin start policy.val.windowDuration requests
        (window.length : Int) ≤ policy.val.totalCapacity ∧
          ((window.filter (·.1.val.purpose = .submission)).length : Int) ≤
            policy.val.submissionCapacity ∧
          ((window.filter fun request => request.1.val.purpose = .submission ∨
            request.1.val.purpose = .unknownLookup).length : Int) ≤ policy.val.recoveryCapacity) ∧
      ∀ demand issuedAt active previous previousPolicy message,
        ReceivesActive policy issuedAt permits active →
        (∀ permit ∈ active, permit.val.purpose = .submission) → demand.val.purpose ≠ .submission →
        issueBrokerRequestPermit H policy demand issuedAt active previous previousPolicy ≠
          .error (.exhausted message) := by
  obtain ⟨-, -, hsubmission, hrecovery, htotal⟩ := policy.spec
  refine ⟨h.nodup, fun requests huses start => ⟨?_, ?_, ?_⟩, ?_⟩
  · have hall := h.requests_le huses start (fun _ => True) (by linarith)
      fun purpose _ => policy.capacityFor_le_total purpose
    simpa using hall
  · refine h.requests_le huses start (· = .submission) hsubmission.le ?_
    rintro _ rfl
    exact le_rfl
  · refine h.requests_le huses start
      (fun purpose => purpose = .submission ∨ purpose = .unknownLookup) (by linarith) ?_
    rintro _ (rfl | rfl)
    · exact hrecovery.le
    · exact le_rfl
  · intro demand issuedAt active previous previousPolicy message hactive hsubmissions hdemand
    exact h.room_for_recovery hactive hsubmissions hdemand message

theorem receivesActive_filter (policy : BrokerRequestBudgetPolicy) (issuedAt : Instant)
    (permits : List BrokerRequestPermit) :
    ReceivesActive policy issuedAt permits (permits.filter fun permit =>
      issuedAt - policy.val.windowDuration ≤ permit.val.expiresAt) := by
  intro permit
  simp [List.mem_filter]

/-! ## Rotating the policy -/

/-- A permit with the policy and the demand it was issued for. -/
structure PermitRecord where
  policy : BrokerRequestBudgetPolicy
  demand : BrokerRequestDemand
  permit : BrokerRequestPermit
deriving DecidableEq

variable {records : List PermitRecord} {record : PermitRecord}

/-- The history of an account under any sequence of policies.  Each call receives the latest permit
and its policy, and every earlier permit of the policy it asks under that counts. -/
inductive PermitHistory (H : BudgetHashes) : List PermitRecord → Prop where
  | nil : PermitHistory H []
  | issued {records : List PermitRecord} {active : List BrokerRequestPermit} {issuedAt : Instant}
      {record : PermitRecord} (h : PermitHistory H records)
      (hactive : ReceivesActive record.policy issuedAt ((records.map (·.permit)).filter
        (·.val.policySha256 = H.policy record.policy)) active)
      (hissue : issueBrokerRequestPermit H record.policy record.demand issuedAt active
        (records.getLast?.map (·.permit)) (records.getLast?.map (·.policy)) = .ok record.permit) :
      PermitHistory H (records ++ [record])

/-- The window of the policy has drained after the permit has expired. -/
def PermitRecord.drainsAt (record : PermitRecord) : Instant :=
  record.permit.val.expiresAt + record.policy.val.windowDuration

/-- An earlier record is under the policy of a later one, or has drained before that was issued. -/
def Separated (earlier later : PermitRecord) : Prop :=
  earlier.policy = later.policy ∧ earlier.permit.val.expiresAt ≤ later.permit.val.expiresAt ∨
    earlier.drainsAt < later.permit.val.issuedAt

/-- The digests of the policies of an account tell them apart. -/
def PoliciesDistinct (H : BudgetHashes) (records : List PermitRecord) : Prop :=
  ∀ record ∈ records, ∀ record' ∈ records, H.policy record.policy = H.policy record'.policy →
    record.policy = record'.policy

/-- A permit binds its policy: by its digest and by the lifetime it gives. -/
theorem PermitHistory.bound (h : PermitHistory H records) :
    ∀ record ∈ records, record.permit.val.policySha256 = H.policy record.policy ∧
      record.permit.val.expiresAt =
        record.permit.val.issuedAt + record.policy.val.permitTtl := by
  induction h with
  | nil => simp
  | issued h hactive hissue ih =>
    intro record hrecord
    rcases List.mem_append.1 hrecord with hrecord | hrecord
    · exact ih record hrecord
    · rw [List.mem_singleton.1 hrecord]
      have hissued := issueBrokerRequestPermit_spec hissue
      exact ⟨hissued.policySha256, hissued.expiresAt⟩

/-- A history under one policy is a history of calls that receive every permit that counts. -/
theorem PermitHistory.fixed (h : PermitHistory H records)
    (hpolicy : ∀ record ∈ records, record.policy = policy) :
    IssuanceHistory H policy (records.map (·.permit)) := by
  induction h with
  | nil => exact .nil
  | @issued records active issuedAt record h hactive hissue ih =>
    have hold : ∀ r ∈ records, r.policy = policy := fun r hr =>
      hpolicy r (List.mem_append_left _ hr)
    obtain rfl : record.policy = policy := hpolicy record (by simp)
    have hall : (records.map (·.permit)).filter
        (·.val.policySha256 = H.policy record.policy) = records.map (·.permit) := by
      refine List.filter_eq_self.2 fun permit hpermit => decide_eq_true ?_
      obtain ⟨r, hr, rfl⟩ := List.mem_map.1 hpermit
      rw [(h.bound r hr).1, hold r hr]
    rw [hall] at hactive
    rw [List.map_append]
    exact .issued (ih hold) hactive hissue

/-- What holds between neighbours and carries over to the next neighbour holds between any two
records. -/
theorem pairwise_of_latest {R : PermitRecord → PermitRecord → Prop} (hpairwise : records.Pairwise R)
    (hlatest : ∀ last, records.getLast? = some last →
      R last record ∧ ∀ earlier, R earlier last → R earlier record) :
    (records ++ [record]).Pairwise R := by
  refine List.pairwise_append.2 ⟨hpairwise, List.pairwise_singleton _ _, ?_⟩
  intro earlier hearlier later hlater
  obtain rfl := List.mem_singleton.1 hlater
  cases hlast : records.getLast? with
  | none =>
    rw [List.getLast?_eq_none_iff.1 hlast] at hearlier
    cases hearlier
  | some last =>
    obtain ⟨hfollows, hcarries⟩ := hlatest last hlast
    obtain ⟨before, rfl⟩ := List.getLast?_eq_some_iff.1 hlast
    rcases List.mem_append.1 hearlier with hmem | hmem
    · exact hcarries earlier ((List.pairwise_append.1 hpairwise).2.2 _ hmem _ (by simp))
    · rwa [List.mem_singleton.1 hmem]

/-- The number of a permit is one more than that of its predecessor. -/
theorem PermitHistory.numbered (h : PermitHistory H records) :
    records.Pairwise fun earlier later =>
      earlier.permit.val.sequenceNumber < later.permit.val.sequenceNumber := by
  induction h with
  | nil => exact List.Pairwise.nil
  | @issued records active issuedAt record h hactive hissue ih =>
    refine pairwise_of_latest ih fun last hlast => ?_
    have hnumber := (issueBrokerRequestPermit_spec hissue).sequenceNumber
    rw [hlast, Option.map_some, Option.elim_some] at hnumber
    exact ⟨by omega, fun earlier hearlier => by omega⟩

theorem PermitHistory.permits_nodup (h : PermitHistory H records) :
    (records.map (·.permit)).Nodup := by
  refine List.pairwise_map.2 (h.numbered.imp fun hlt hsame => ?_)
  rw [hsame] at hlt
  exact lt_irrefl _ hlt

variable {last : PermitRecord}

/-- The latest record separates those before it from the next one. -/
theorem Separated.next
    (hlatest : LatestPermit H record.policy record.permit.val.issuedAt active
      last.permit last.policy)
    (hexpires : record.permit.val.expiresAt = record.permit.val.issuedAt +
      record.policy.val.permitTtl)
    (hdistinct : H.policy last.policy = H.policy record.policy → last.policy = record.policy)
    (h : Separated earlier last) : Separated earlier record := by
  rcases h with ⟨hpolicy, hle⟩ | hdrained
  · rcases hlatest.follows with ⟨-, -, hrotated⟩ | ⟨hsame, -⟩
    · refine .inr (lt_of_le_of_lt ?_ hrotated)
      rw [PermitRecord.drainsAt, hpolicy]
      linarith
    · have hpolicy' := hdistinct hsame
      refine .inl ⟨hpolicy.trans hpolicy', hle.trans ?_⟩
      have hissued := hlatest.issued
      rw [hlatest.expiresAt, hexpires, hpolicy']
      linarith
  · exact .inr (hdrained.trans_le hlatest.issued)

/-- A policy takes over after the permits of the one before drained. -/
theorem PermitHistory.separated (h : PermitHistory H records)
    (hdistinct : PoliciesDistinct H records) : records.Pairwise Separated := by
  induction h with
  | nil => exact List.Pairwise.nil
  | @issued records active issuedAt record h hactive hissue ih =>
    have hold : PoliciesDistinct H records := fun r hr r' hr' =>
      hdistinct r (List.mem_append_left _ hr) r' (List.mem_append_left _ hr')
    refine pairwise_of_latest (ih hold) fun last hlast => ?_
    have hissued := issueBrokerRequestPermit_spec hissue
    rw [hlast, Option.map_some, Option.map_some, ← hissued.issuedAt_eq] at hissued
    obtain ⟨_, hpolicy, hlatest⟩ := hissued.chain.latest last.permit rfl
    obtain rfl := Option.some.inj hpolicy
    have hsame := hdistinct last (List.mem_append_left _ (List.mem_of_getLast? hlast)) record
      (by simp)
    have hnext {earlier : PermitRecord} : Separated earlier last → Separated earlier record :=
      Separated.next hlatest hissued.expiresAt hsame
    exact ⟨hnext (.inl ⟨rfl, le_rfl⟩), fun _ => hnext⟩

/-- The earlier record is of the same policy and counts against the other. -/
def CountsAgainstRecord (record earlier : PermitRecord) : Prop :=
  earlier.policy = record.policy ∧ CountsAgainst record.policy record.permit earlier.permit

/-- Across policies each permit was within its capacity when issued. -/
theorem PermitHistory.admitted (h : PermitHistory H records) :
    Admitted CountsAgainstRecord
      (fun record => record.policy.val.capacityFor record.permit.val.purpose) records := by
  induction h with
  | nil => exact .nil
  | @issued records active issuedAt record h hactive hissue ih =>
    have hissued := issueBrokerRequestPermit_spec hissue
    have hcounted : ((records.filter (·.permit ∈ active)).length : Int) ≤ active.length := by
      rw [← List.length_map (·.permit), Int.ofNat_le]
      refine (List.Nodup.subperm ?_ fun permit hpermit => ?_).length_le
      · exact h.permits_nodup.sublist (List.filter_sublist.map _)
      · obtain ⟨_, hmem, rfl⟩ := List.mem_map.1 hpermit
        simpa using (List.mem_filter.1 hmem).2
    refine .snoc ih (fun earlier hearlier hcounts => ?_) (hcounted.trans_lt hissued.room)
    refine List.mem_filter.2 ⟨hearlier, decide_eq_true ((hactive _).2 ⟨?_, ?_⟩)⟩
    · refine List.mem_filter.2 ⟨List.mem_map_of_mem hearlier, decide_eq_true ?_⟩
      rw [(h.bound earlier hearlier).1, hcounts.1]
    · exact hissued.issuedAt_eq ▸ hcounts.2

theorem PermitHistory.separated_or (h : PermitHistory H records)
    (hdistinct : PoliciesDistinct H records) (hrecord : record ∈ records)
    (hrecord' : record' ∈ records) : Separated record record' ∨ Separated record' record := by
  have hsymm : Std.Symm fun a b : PermitRecord => Separated a b ∨ Separated b a :=
    ⟨fun _ _ => Or.symm⟩
  exact List.Pairwise.forall_of_forall (R := fun a b => Separated a b ∨ Separated b a)
    (fun _ _ => .inl (.inl ⟨rfl, le_rfl⟩)) ((h.separated hdistinct).imp .inl) hrecord hrecord'

/-- All requests of a window that no shorter policy has a part in are made under the policy of the
last one. -/
theorem PermitHistory.policy_eq (h : PermitHistory H records)
    (hdistinct : PoliciesDistinct H records) (hlast : last ∈ records) (hrecord : record ∈ records)
    (hfresh : last.permit.val.isFresh t) (hfresh' : record.permit.val.isFresh t') (hle : t' ≤ t)
    (hwithin : t ≤ t' + last.policy.val.windowDuration)
    (hwindow : last.policy.val.windowDuration ≤ record.policy.val.windowDuration) :
    record.policy = last.policy := by
  obtain ⟨hissued, hexpires⟩ := hfresh
  obtain ⟨hissued', hexpires'⟩ := hfresh'
  rcases h.separated_or hdistinct hrecord
    hlast with (⟨hsame, -⟩ | hdrained) | (⟨hsame, -⟩ | hdrained)
  · exact hsame
  · rw [PermitRecord.drainsAt] at hdrained
    linarith
  · exact hsame.symm
  · obtain ⟨hpos, -⟩ := last.policy.spec
    rw [PermitRecord.drainsAt] at hdrained
    linarith

/-- **The request budget across policies**: a window that has the duration of the policy of its last
request has at most the total capacity of that policy of requests, if none of them is made under a
policy with a shorter window. -/
theorem budget_across_policies (h : PermitHistory H records)
    (hdistinct : PoliciesDistinct H records) {requests : List (PermitRecord × Instant)}
    (huses : UsesPermits (·.permit) records requests) {start : Instant} {last : PermitRecord}
    {t : Instant} (hlast : (last, t) ∈ requestsWithin start last.policy.val.windowDuration requests)
    (hlatest : ∀ request ∈ requestsWithin start last.policy.val.windowDuration requests,
      request.2 ≤ t)
    (hwindows : ∀ request ∈ requestsWithin start last.policy.val.windowDuration requests,
      last.policy.val.windowDuration ≤ request.1.policy.val.windowDuration) :
    ((requestsWithin start last.policy.val.windowDuration requests).length : Int) ≤
      last.policy.val.totalCapacity := by
  have hspec {request : PermitRecord × Instant}
      (hmem : request ∈ requestsWithin start last.policy.val.windowDuration requests) :
      request ∈ requests ∧ start ≤ request.2 ∧
        request.2 ≤ start + last.policy.val.windowDuration := by
    simpa [requestsWithin] using hmem
  obtain ⟨hlast_mem, -, hend⟩ := hspec hlast
  obtain ⟨hlast_issued, hlast_fresh⟩ := huses.fresh _ hlast_mem
  have hpolicy {request : PermitRecord × Instant}
      (hmem : request ∈ requestsWithin start last.policy.val.windowDuration requests) :
      request.1.policy = last.policy := by
    obtain ⟨hrequest, hstart, -⟩ := hspec hmem
    obtain ⟨hissued, hfresh⟩ := huses.fresh _ hrequest
    exact h.policy_eq hdistinct hlast_issued hissued hlast_fresh hfresh (hlatest _ hmem)
      (by linarith) (hwindows _ hmem)
  obtain ⟨-, -, hpos, hrecovery, htotal⟩ := last.policy.spec
  rw [← List.length_map (·.1)]
  refine h.admitted.length_le ?_ ?_ ?_ ?_ (by linarith)
  · exact huses.once.sublist (List.filter_sublist.map _)
  · intro record hrecord
    obtain ⟨request, hmem, rfl⟩ := List.mem_map.1 hrecord
    exact (huses.fresh _ (hspec hmem).1).1
  · intro record hrecord earlier hearlier
    obtain ⟨request, hmem, rfl⟩ := List.mem_map.1 hrecord
    obtain ⟨request', hmem', rfl⟩ := List.mem_map.1 hearlier
    obtain ⟨hrequest, -, hend⟩ := hspec hmem
    obtain ⟨hrequest', hstart, -⟩ := hspec hmem'
    obtain ⟨-, hissued, -⟩ := huses.fresh _ hrequest
    obtain ⟨-, -, hexpires⟩ := huses.fresh _ hrequest'
    refine ⟨(hpolicy hmem').trans (hpolicy hmem).symm, ?_⟩
    rw [CountsAgainst, hpolicy hmem]
    linarith
  · intro record hrecord
    obtain ⟨request, hmem, rfl⟩ := List.mem_map.1 hrecord
    rw [hpolicy hmem]
    exact last.policy.capacityFor_le_total _

/-! Two small policies with three requests in a window: one of a minute and one of an hour. -/

def sampleBudgetPolicy (version : Str) (window : Int) : Py BrokerRequestBudgetPolicy :=
  construct ⟨"policy", version, "provider", "paper", window, 3000000, 1, 2, 3⟩

def sampleDemand (key : Str) (purpose : BrokerRequestPurpose) : Py BrokerRequestDemand :=
  construct ⟨"account", key, "operation", purpose, "c", 0⟩

/-- Issue the next permit of a history. -/
def sampleIssue (records : List PermitRecord) (policy : BrokerRequestBudgetPolicy) (key : Str)
    (purpose : BrokerRequestPurpose) (issuedAt : Instant) :
    Except BudgetFailure (List PermitRecord) := do
  let demand ← checked (sampleDemand key purpose)
  let active := ((records.map (·.permit)).filter
    (·.val.policySha256 = BudgetHashes.plain.policy policy)).filter fun permit =>
      issuedAt - policy.val.windowDuration ≤ permit.val.expiresAt
  let permit ← issueBrokerRequestPermit .plain policy demand issuedAt active
    (records.getLast?.map (·.permit)) (records.getLast?.map (·.policy))
  return records ++ [⟨policy, demand, permit⟩]

theorem PermitHistory.sampleIssue (h : PermitHistory .plain records)
    (hissue : AutoQuantTrader.sampleIssue records policy key purpose issuedAt = .ok records') :
    PermitHistory .plain records' := by
  simp only [AutoQuantTrader.sampleIssue, eq_ok] at hissue
  obtain ⟨demand, -, permit, hpermit, rfl⟩ := hissue
  exact .issued h (receivesActive_filter policy issuedAt _) hpermit

/-- Each permit is used when it is issued. -/
def usedAtOnce {α : Type} (permitOf : α → BrokerRequestPermit) (issued : List α) :
    List (α × Instant) :=
  issued.map fun item => (item, (permitOf item).val.issuedAt)

theorem usesPermits_usedAtOnce {α : Type} {permitOf : α → BrokerRequestPermit} {issued : List α}
    (h : issued.Nodup) : UsesPermits permitOf issued (usedAtOnce permitOf issued) := by
  refine ⟨?_, fun request hrequest => ?_⟩
  · rw [usedAtOnce, List.map_map]
    simpa [Function.comp_def] using h
  obtain ⟨item, hitem, rfl⟩ := List.mem_map.1 hrequest
  have hpasses := (permitOf item).passes
  simp only [BrokerRequestPermitFields.postInit, Py.eq_ok, not_le] at hpasses
  obtain ⟨_, -, _, -, _, -, _, -, hexpires⟩ := hpasses
  exact ⟨hitem, le_rfl, hexpires⟩

/-- A submission and a lookup under one policy. -/
def sampleBudget : Except BudgetFailure (BrokerRequestBudgetPolicy × List PermitRecord) := do
  let policy ← checked (sampleBudgetPolicy "v1" 60000000)
  let records ← sampleIssue [] policy "request1" .submission 0
  let records ← sampleIssue records policy "request2" .unknownLookup 1000000
  return (policy, records)

theorem sample_rolling_budget : ∃ (policy : BrokerRequestBudgetPolicy)
    (permits : List BrokerRequestPermit) (requests : List (BrokerRequestPermit × Instant)),
    IssuanceHistory .plain policy permits ∧ UsesPermits id permits requests ∧
      (requestsWithin 0 policy.val.windowDuration requests).length = 2 ∧
      ((requestsWithin 0 policy.val.windowDuration requests).length : Int) ≤
        policy.val.totalCapacity := by
  have h : (fun x => (decide (∀ record ∈ x.2, record.policy = x.1),
      (requestsWithin 0 x.1.val.windowDuration (usedAtOnce id (x.2.map (·.permit)))).length)) <$>
      sampleBudget = .ok (true, 2) := by decide +kernel
  simp only [sampleBudget, eq_ok, checked_eq_ok, Prod.mk.injEq, decide_eq_true_eq] at h
  obtain ⟨_, ⟨policy, -, _, hfirst, records, hsecond, rfl⟩, hpolicy, hlength⟩ := h
  have history := ((PermitHistory.nil.sampleIssue hfirst).sampleIssue hsecond).fixed hpolicy
  have huses : UsesPermits id _ _ := usesPermits_usedAtOnce history.nodup
  exact ⟨policy, _, _, history, huses, hlength,
    ((rolling_request_budget history).2.1 _ huses 0).1⟩

/-- A request of the policy of a minute, and three of the policy of an hour once the minute and the
lifetime of the permit are over. -/
def sampleRotation : Except BudgetFailure (List PermitRecord) := do
  let short ← checked (sampleBudgetPolicy "v1" 60000000)
  let long ← checked (sampleBudgetPolicy "v2" 3600000000)
  let records ← sampleIssue [] short "request1" .cancel 0
  let records ← sampleIssue records long "request2" .cancel 64000000
  let records ← sampleIssue records long "request3" .cancel 64000000
  sampleIssue records long "request4" .cancel 64000000

theorem sampleRotation_history (h : sampleRotation = .ok records) :
    PermitHistory .plain records := by
  simp only [sampleRotation, eq_ok, checked_eq_ok] at h
  obtain ⟨short, -, long, -, records₁, h₁, records₂, h₂, records₃, h₃, h₄⟩ := h
  exact (((PermitHistory.nil.sampleIssue h₁).sampleIssue h₂).sampleIssue h₃).sampleIssue h₄

/-- The last record of the sample and the requests of the window of its policy from an instant on,
if the policies are distinct and it is the last request of the window. -/
def lastWindow (records : List PermitRecord) (start : Instant) :
    Option (PermitRecord × List (PermitRecord × Instant)) := do
  let last ← records.getLast?
  let window := requestsWithin start last.policy.val.windowDuration (usedAtOnce (·.permit) records)
  guard (∀ record ∈ records, ∀ record' ∈ records, BudgetHashes.plain.policy record.policy =
    BudgetHashes.plain.policy record'.policy → record.policy = record'.policy)
  guard ((last, last.permit.val.issuedAt) ∈ window)
  guard (∀ request ∈ window, request.2 ≤ last.permit.val.issuedAt)
  return (last, window)

theorem lastWindow_spec (h : lastWindow records start = some (last, window)) :
    window = requestsWithin start last.policy.val.windowDuration (usedAtOnce (·.permit) records) ∧
      PoliciesDistinct .plain records ∧ (last, last.permit.val.issuedAt) ∈ window ∧
      ∀ request ∈ window, request.2 ≤ last.permit.val.issuedAt := by
  simp only [lastWindow, Option.bind_eq_bind, Option.bind_eq_some_iff, Option.pure_def,
    Option.some.injEq, Option.guard_eq_some', Prod.mk.injEq] at h
  obtain ⟨_, -, _, hdistinct, _, hlast, _, hlatest, rfl, rfl⟩ := h
  exact ⟨rfl, hdistinct, hlast, hlatest⟩

/-- Once the window of a minute has drained, its request is forgotten, although the window of the
next policy is longer: four requests within the hour, against a capacity of three. -/
theorem rotation_exceeds_budget : ∃ (records : List PermitRecord)
    (requests : List (PermitRecord × Instant)) (last : PermitRecord) (t : Instant),
    PermitHistory .plain records ∧ PoliciesDistinct .plain records ∧
      UsesPermits (·.permit) records requests ∧
      (last, t) ∈ requestsWithin 0 last.policy.val.windowDuration requests ∧
      (∀ request ∈ requestsWithin 0 last.policy.val.windowDuration requests, request.2 ≤ t) ∧
      last.policy.val.totalCapacity <
        (requestsWithin 0 last.policy.val.windowDuration requests).length := by
  have h : (fun records => (lastWindow records 0).map fun x =>
      (x.1.policy.val.totalCapacity, x.2.length)) <$> sampleRotation = .ok (some (3, 4)) := by
    decide +kernel
  simp only [map_eq_ok, Option.map_eq_some_iff, Prod.mk.injEq] at h
  obtain ⟨records, hrecords, ⟨last, window⟩, hwindow, htotal, hlength⟩ := h
  have history := sampleRotation_history hrecords
  obtain ⟨rfl, hdistinct, hlast, hlatest⟩ := lastWindow_spec hwindow
  refine ⟨records, _, last, _, history, hdistinct, ?_, hlast, hlatest, ?_⟩
  · exact usesPermits_usedAtOnce history.permits_nodup.of_map
  · rw [htotal, hlength]
    decide

/-- From the rotation on, the window of an hour has the three requests it may have. -/
theorem sample_budget_across_policies : ∃ (records : List PermitRecord)
    (requests : List (PermitRecord × Instant)) (last : PermitRecord) (t : Instant),
    PermitHistory .plain records ∧
      (last, t) ∈ requestsWithin 64000000 last.policy.val.windowDuration requests ∧
      (requestsWithin 64000000 last.policy.val.windowDuration requests).length = 3 ∧
      ((requestsWithin 64000000 last.policy.val.windowDuration requests).length : Int) ≤
        last.policy.val.totalCapacity := by
  have h : (fun records => (lastWindow records 64000000).map fun x => (x.2.length,
      decide (∀ request ∈ x.2, x.1.policy.val.windowDuration ≤
        request.1.policy.val.windowDuration))) <$> sampleRotation = .ok (some (3, true)) := by
    decide +kernel
  simp only [map_eq_ok, Option.map_eq_some_iff, Prod.mk.injEq, decide_eq_true_eq] at h
  obtain ⟨records, hrecords, ⟨last, window⟩, hwindow, hlength, hwindows⟩ := h
  have history := sampleRotation_history hrecords
  obtain ⟨rfl, hdistinct, hlast, hlatest⟩ := lastWindow_spec hwindow
  have huses : UsesPermits (·.permit) records _ :=
    usesPermits_usedAtOnce history.permits_nodup.of_map
  exact ⟨records, _, last, _, history, hlast, hlength,
    budget_across_policies history hdistinct huses hlast hlatest hwindows⟩

end AutoQuantTrader
