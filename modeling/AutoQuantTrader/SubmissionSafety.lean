import AutoQuantTrader.Lib.Trace
import AutoQuantTrader.BatchCapacity
import AutoQuantTrader.SubmissionAttempt

/-!
# No double submission

A store prepares attempts with all attempts of the parent decision at hand and advances them one
event at a time.  Within a parent decision an order then never has two attempts that might both
reach the broker: every attempt but the last is known not to have been sent.  Orders are not told
apart by the decision that approved them, so two decisions over one intent give its order two
attempts.
-/

namespace AutoQuantTrader

open Result

variable {H : SubmissionHashes}

/-! ## One attempt -/

section attempt

variable {attempt attempt' : CanonicalSubmissionAttempt H.canonicalId}

/-- An attempt's events follow the state machine. -/
theorem reduceAttemptStep_spec (h : reduceAttemptStep H preparation s event = .ok s') :
    s'.prior = some event ∧ ∀ prior ∈ s.prior, event.state ∈ prior.state.next := by
  simp only [reduceAttemptStep, eq_ok] at h
  obtain ⟨-, -, -, -, -, -, -, -, _, hsuccession, -, -, rfl⟩ := h
  refine ⟨rfl, fun prior hprior => ?_⟩
  rw [Option.mem_def] at hprior
  simp only [hprior, checkSuccession, Py.eq_ok] at hsuccession
  exact hsuccession.choose_spec.1

/-- **What the reducer returns**: the state and the resolution are those of the last event. -/
theorem reduceSubmissionAttempt_spec
    (h : reduceSubmissionAttempt H preparation events = .ok attempt) :
    preparation.validate H = .ok () ∧ attempt.preparation = preparation ∧ attempt.events = events ∧
      ∃ s prior, events.foldlM (reduceAttemptStep H preparation) .initial = .ok s ∧
        s.prior = some prior ∧ attempt.state = prior.state ∧ attempt.resolution =
        prior.resolution := by
  simp only [reduceSubmissionAttempt, eq_ok] at h
  obtain ⟨_, hvalid, -, -, s, hs, prior, hprior, rfl⟩ := h
  exact ⟨hvalid, rfl, rfl, s, prior, hs, hprior, rfl, rfl⟩

/-- A history that is one event longer continues the shorter one. -/
theorem reduceSubmissionAttempt_append
    (h : reduceSubmissionAttempt H preparation events = .ok attempt)
    (h' : reduceSubmissionAttempt H preparation (events ++ [event]) = .ok attempt') :
    attempt'.state = event.state ∧ attempt'.resolution = event.resolution ∧
      event.state ∈ attempt.state.next := by
  obtain ⟨-, -, -, s, prior, hs, hprior, hstate, -⟩ := reduceSubmissionAttempt_spec h
  obtain ⟨-, -, -, s', prior', hs', hprior', hstate', hresolution'⟩ :=
    reduceSubmissionAttempt_spec h'
  obtain ⟨mid, hmid, hstep⟩ := foldlM_snoc_eq_ok.1 hs'
  obtain rfl := Except.ok.inj (hs.symm.trans hmid)
  obtain ⟨hlast, hnext⟩ := reduceAttemptStep_spec hstep
  obtain rfl := Option.some.inj (hprior'.symm.trans hlast)
  rw [hstate]
  exact ⟨hstate', hresolution', hnext prior hprior⟩

theorem requireCanonicalAttempt_eq_ok :
    requireCanonicalAttempt H attempt = .ok u ↔
      reduceSubmissionAttempt H attempt.preparation attempt.events = .ok attempt := by
  simp only [requireCanonicalAttempt, Py.eq_ok]
  constructor
  · rintro ⟨reduced, hreduced, rfl⟩
    exact hreduced
  · exact fun h => ⟨attempt, h, rfl⟩

theorem createEvent_spec (h : createEvent H material = .ok event) :
    event = { material with eventId := material.expectedId H } := by
  simp only [createEvent, eq_ok] at h
  obtain ⟨-, -, rfl⟩ := h
  rfl

/-- **An event is appended** only if the state of the attempt lets it follow. -/
theorem appendEvent_spec (h : appendEvent H attempt material = .ok attempt') :
    attempt'.preparation = attempt.preparation ∧ attempt'.state = material.state ∧
      attempt'.resolution = material.resolution ∧ attempt'.state ∈ attempt.state.next := by
  simp only [appendEvent, eq_ok, requireCanonicalAttempt_eq_ok] at h
  obtain ⟨-, hcanonical, previous, -, event, hevent, hreduce⟩ := h
  obtain ⟨hstate, hresolution, hnext⟩ := reduceSubmissionAttempt_append hcanonical hreduce
  rw [createEvent_spec hevent] at hstate hresolution hnext
  exact ⟨(reduceSubmissionAttempt_spec hreduce).2.1, hstate, hresolution, hstate ▸ hnext⟩

/-- Nothing follows an attempt after which the order may be submitted again. -/
theorem next_of_mayResubmit (h : attempt.mayResubmit) : attempt.state.next = [] := by
  rcases h with habandoned | ⟨hresolved, -⟩
  · rw [habandoned]
    rfl
  · rw [hresolved]
    rfl

end attempt

/-! ## Preparing an attempt -/

section prepare

variable {number : Nat} {siblings : List (CanonicalSubmissionAttempt H.canonicalId)}
  {attempt : CanonicalSubmissionAttempt H.canonicalId}

theorem createPreparation_spec
    (h : createPreparation H intent decision receipt request number preparedAt = .ok preparation) :
    preparation.orderId = orderIdOf H.toOrderHashes intent ∧
      preparation.parentDecisionId = decision.val.decisionId ∧
      preparation.attemptNumber = number := by
  simp only [createPreparation, eq_ok] at h
  obtain ⟨-, -, -, -, rfl⟩ := h
  exact ⟨rfl, rfl, rfl⟩

theorem clear_of_requireParentBatchSubmissionClear
    (h : requireParentBatchSubmissionClear H parentDecisionId siblings = .ok barrier) :
    ∀ sibling ∈ siblings, sibling.state ≠ .unknown := by
  simp only [requireParentBatchSubmissionClear, submissionBarrierForParent, Py.eq_ok] at h
  obtain ⟨_, ⟨-, -, -, -, -, -, -, -, rfl⟩, -, hblocked, -⟩ := h
  simpa [ParentBatchSubmissionBarrier.blocked] using hblocked

theorem checkPriorAttempts_eq_ok :
    checkPriorAttempts H prior = .ok u ↔
      prior.map (·.attemptNumber) = List.range' 1 prior.length ∧
        ∀ last ∈ prior.getLast?, last.mayResubmit := by
  unfold checkPriorAttempts
  split
  · next hnone =>
    obtain rfl := List.getLast?_eq_none_iff.1 hnone
    simp
  · next last hlast => simp [hlast]

/-- **What a preparation needs and gives.** -/
structure Prepares (siblings : List (CanonicalSubmissionAttempt H.canonicalId))
    (attempt : CanonicalSubmissionAttempt H.canonicalId) : Prop where
  clear : ∀ sibling ∈ siblings, sibling.state ≠ .unknown
  number : attempt.attemptNumber = (siblings.filter (·.orderId = attempt.orderId)).length + 1
  contiguous : (siblings.filter (·.orderId = attempt.orderId)).map (·.attemptNumber) =
    List.range' 1 (siblings.filter (·.orderId = attempt.orderId)).length
  unsent : ∀ last ∈ (siblings.filter (·.orderId = attempt.orderId)).getLast?, last.mayResubmit

/-- A prepared attempt is the next of its order. -/
theorem prepareSubmissionAttempt_spec
    (h : prepareSubmissionAttempt H intent decision receipt request preparedAt recordedAt siblings =
      .ok attempt) :
    attempt.parentDecisionId = decision.val.decisionId ∧ Prepares siblings attempt := by
  simp only [prepareSubmissionAttempt, eq_ok, checkPriorAttempts_eq_ok] at h
  obtain ⟨-, -, barrier, hclear, -, ⟨hcontiguous, hunsent⟩, preparation, hpreparation, pending, -,
    hreduce⟩ := h
  obtain ⟨horder, hparent, hnumber⟩ := createPreparation_spec hpreparation
  have hsame := (reduceSubmissionAttempt_spec hreduce).2.1
  have hid : attempt.orderId = orderIdOf H.toOrderHashes intent := by
    rw [CanonicalSubmissionAttempt.orderId, hsame, horder]
  rw [← hid] at hnumber hcontiguous hunsent
  refine ⟨?_, clear_of_requireParentBatchSubmissionClear hclear, ?_, hcontiguous, hunsent⟩
  · rw [CanonicalSubmissionAttempt.parentDecisionId, hsame, hparent]
  · rw [CanonicalSubmissionAttempt.attemptNumber, hsame, hnumber]

end prepare

/-! ## The store -/

/-- What advances an attempt. -/
inductive SubmissionTransition where
  | markInFlight (dispatchFenceReceipt : AccountFenceReceipt)
  | abandonPending (errorClass : Str)
  | confirm (responseSha256 brokerOrderId : Str)
  | markUnknown (errorClass : Str)
  | resolveUnknown (resolution : UnknownSubmissionResolution) (reconciliationSha256 : Str)
      (responseSha256 brokerOrderId : Option Str)

def SubmissionTransition.run (H : SubmissionHashes)
    (attempt : CanonicalSubmissionAttempt H.canonicalId) (occurredAt recordedAt : Instant) :
    SubmissionTransition → Py (CanonicalSubmissionAttempt H.canonicalId)
  | .markInFlight receipt => markSubmissionInFlight H attempt occurredAt recordedAt receipt
  | .abandonPending errorClass => abandonPendingSubmission H attempt occurredAt
      recordedAt errorClass
  | .confirm response brokerOrderId =>
    confirmSubmission H attempt occurredAt recordedAt response brokerOrderId
  | .markUnknown errorClass => markSubmissionUnknown H attempt occurredAt recordedAt errorClass
  | .resolveUnknown resolution reconciliation response brokerOrderId =>
    resolveUnknownSubmission H attempt occurredAt recordedAt resolution reconciliation response
      brokerOrderId

inductive SubmissionEvent (H : SubmissionHashes) where
  | prepared (attempt : CanonicalSubmissionAttempt H.canonicalId)
  | advanced (attempt attempt' : CanonicalSubmissionAttempt H.canonicalId)

abbrev SubmissionStore (H : SubmissionHashes) := List (CanonicalSubmissionAttempt H.canonicalId)

/-- The store prepares an attempt from all attempts of the parent decision, or advances one. -/
inductive SubmissionStep (H : SubmissionHashes) :
    SubmissionStore H → SubmissionEvent H → SubmissionStore H → Prop where
  | prepare
      (hsiblings : siblings.Perm (store.filter (·.parentDecisionId = decision.val.decisionId)))
      (hprepare : prepareSubmissionAttempt H intent decision receipt request preparedAt recordedAt
        siblings = .ok attempt) : SubmissionStep H store (.prepared attempt) (store ++ [attempt])
  | advance {transition : SubmissionTransition}
      (hrun : transition.run H attempt occurredAt recordedAt = .ok attempt') :
      SubmissionStep H (before ++ attempt :: after) (.advanced attempt attempt')
        (before ++ attempt' :: after)

section store

variable {store before after : SubmissionStore H}
  {attempt attempt' : CanonicalSubmissionAttempt H.canonicalId} {parent order : Str}

/-- A transition keeps what the attempt was prepared for. -/
theorem SubmissionTransition.run_spec {transition : SubmissionTransition}
    (h : transition.run H attempt occurredAt recordedAt = .ok attempt') :
    attempt'.preparation = attempt.preparation ∧ attempt'.state ∈ attempt.state.next := by
  cases transition <;> exact ⟨(appendEvent_spec h).1, (appendEvent_spec h).2.2.2⟩

/-- The attempts of an order under a parent decision, in the order of their preparation. -/
def attemptsFor (parent order : Str) (store : SubmissionStore H) : SubmissionStore H :=
  store.filter fun a => a.parentDecisionId = parent ∧ a.orderId = order

theorem mem_attemptsFor :
    a ∈ attemptsFor parent order store ↔
      a ∈ store ∧ a.parentDecisionId = parent ∧ a.orderId = order := by
  simp [attemptsFor]

/-- The earlier attempt was not sent, if both are for the same order of the same decision. -/
def UnsentBefore (a b : CanonicalSubmissionAttempt H.canonicalId) : Prop :=
  a.parentDecisionId = b.parentDecisionId → a.orderId = b.orderId → a.mayResubmit

/-- Every attempt but the last of an order was not sent, and they are numbered from one. -/
structure SubmissionHistory (store : SubmissionStore H) : Prop where
  unsent : store.Pairwise UnsentBefore
  numbered : ∀ parent order, (attemptsFor parent order store).map (·.attemptNumber) =
    List.range' 1 (attemptsFor parent order store).length

/-- The new attempt is the only one that may have been sent. -/
structure PreparedSafely (store : SubmissionStore H)
    (attempt : CanonicalSubmissionAttempt H.canonicalId) : Prop where
  clear : ∀ sibling ∈ store, sibling.parentDecisionId = attempt.parentDecisionId →
    sibling.state ≠ .unknown
  unsent : ∀ earlier ∈ store, earlier.parentDecisionId = attempt.parentDecisionId →
    earlier.orderId = attempt.orderId → earlier.mayResubmit

/-- If the last of some attempts for one order was not sent, none was. -/
theorem SubmissionHistory.mayResubmit (h : SubmissionHistory store)
    (hlast : ∀ last ∈ (attemptsFor parent order store).getLast?, last.mayResubmit) :
    ∀ a ∈ attemptsFor parent order store, a.mayResubmit := by
  have hpairs : (attemptsFor parent order store).Pairwise UnsentBefore := h.unsent.filter _
  have hfor := fun a (ha : a ∈ attemptsFor parent order store) => (mem_attemptsFor.1 ha).2
  generalize attemptsFor parent order store = attempts at hpairs hfor hlast
  rcases List.eq_nil_or_concat' attempts with rfl | ⟨earlier, last, rfl⟩
  · simp
  · intro a ha
    rcases List.mem_append.1 ha with hearlier | hnew
    · have hmem : last ∈ [last] := List.mem_singleton_self last
      refine (List.pairwise_append.1 hpairs).2.2 a hearlier last hmem ?_ ?_
      · rw [(hfor a ha).1, (hfor last (List.mem_append_right _ hmem)).1]
      · rw [(hfor a ha).2, (hfor last (List.mem_append_right _ hmem)).2]
    · rw [List.mem_singleton.1 hnew]
      exact hlast last (by simp)

/-- **A preparation is safe**, since the attempts that were given are those of the store. -/
theorem SubmissionHistory.preparedSafely {siblings : SubmissionStore H}
    (h : SubmissionHistory store)
    (hsiblings : siblings.Perm (store.filter (·.parentDecisionId = attempt.parentDecisionId)))
    (hprepares : Prepares siblings attempt) :
    PreparedSafely store attempt ∧ attempt.attemptNumber =
      (attemptsFor attempt.parentDecisionId attempt.orderId store).length + 1 := by
  have hperm : (siblings.filter (·.orderId = attempt.orderId)).Perm
      (attemptsFor attempt.parentDecisionId attempt.orderId store) := by
    refine (hsiblings.filter _).trans (List.Perm.of_eq ?_)
    simp [attemptsFor, List.filter_filter, and_comm]
  -- both are numbered from one in order, so the last of one is the last of the other
  have hsame := Sorting.eq_of_perm_of_numbered hperm hprepares.contiguous (h.numbered _ _)
  refine ⟨⟨fun sibling hmem hparent => ?_, fun earlier hmem hparent horder => ?_⟩, ?_⟩
  · refine hprepares.clear sibling (hsiblings.mem_iff.2 ?_)
    simp [hmem, hparent]
  · exact h.mayResubmit (hsame ▸ hprepares.unsent) earlier
      (mem_attemptsFor.2 ⟨hmem, hparent, horder⟩)
  · rw [hprepares.number, hsame]

/-- Adding the next attempt extends the history. -/
theorem SubmissionHistory.prepare (h : SubmissionHistory store)
    (hsafe : PreparedSafely store attempt) (hnumber : attempt.attemptNumber =
      (attemptsFor attempt.parentDecisionId attempt.orderId store).length + 1) :
    SubmissionHistory (store ++ [attempt]) := by
  refine ⟨List.pairwise_append.2 ⟨h.unsent, List.pairwise_singleton _ _, ?_⟩,
    fun parent order => ?_⟩
  · intro earlier hmem a ha
    rw [List.mem_singleton.1 ha]
    exact hsafe.unsent earlier hmem
  · have hnumbered := h.numbered parent order
    by_cases hfor : attempt.parentDecisionId = parent ∧ attempt.orderId = order
    · obtain ⟨rfl, rfl⟩ := hfor
      have hnew : attemptsFor attempt.parentDecisionId attempt.orderId (store ++ [attempt]) =
          attemptsFor attempt.parentDecisionId attempt.orderId store ++ [attempt] := by
        simp [attemptsFor]
      rw [hnew, List.map_append, hnumbered, List.map_singleton, hnumber, List.length_append,
        List.length_singleton, List.range'_concat, Nat.one_mul, Nat.add_comm 1]
    · have hnew : attemptsFor parent order (store ++ [attempt]) = attemptsFor parent
          order store := by
        simp [attemptsFor, hfor]
      rw [hnew, hnumbered]

/-- Advancing an attempt keeps the history. -/
theorem SubmissionHistory.advance (h : SubmissionHistory (before ++ attempt :: after))
    (hsame : attempt'.preparation = attempt.preparation) (hsent : ¬ attempt.mayResubmit) :
    SubmissionHistory (before ++ attempt' :: after) := by
  have hparent : attempt'.parentDecisionId = attempt.parentDecisionId :=
    congrArg SubmissionAttemptPreparation.parentDecisionId hsame
  have horder : attempt'.orderId = attempt.orderId :=
    congrArg SubmissionAttemptPreparation.orderId hsame
  have hnumber : attempt'.attemptNumber = attempt.attemptNumber :=
    congrArg SubmissionAttemptPreparation.attemptNumber hsame
  constructor
  · obtain ⟨hbefore, hrest, hacross⟩ := List.pairwise_append.1 h.unsent
    obtain ⟨hfirst, hafter⟩ := List.pairwise_cons.1 hrest
    refine List.pairwise_append.2 ⟨hbefore, List.pairwise_cons.2 ⟨fun b hb hp ho => ?_, hafter⟩, ?_⟩
    · exact absurd (hfirst b hb (hparent ▸ hp) (horder ▸ ho)) hsent
    · intro a ha b hb
      rcases List.mem_cons.1 hb with rfl | hmem
      · intro hp ho
        exact hacross a ha attempt List.mem_cons_self (hp.trans hparent) (ho.trans horder)
      · exact hacross a ha b (List.mem_cons_of_mem _ hmem)
  · intro parent order
    have hnumbers : (attemptsFor parent order (before ++ attempt' :: after)).map (·.attemptNumber) =
        (attemptsFor parent order (before ++ attempt :: after)).map (·.attemptNumber) := by
      simp only [attemptsFor, List.filter_append, List.filter_cons, hparent, horder]
      split <;> simp [hnumber]
    have hlength := congrArg List.length hnumbers
    rw [List.length_map, List.length_map] at hlength
    rw [hnumbers, hlength]
    exact h.numbered parent order

/-- Every step keeps the history, and prepares safely. -/
theorem SubmissionHistory.step (h : SubmissionHistory store)
    (hstep : SubmissionStep H store event store') :
    SubmissionHistory store' ∧ ∀ attempt, event = .prepared attempt →
    PreparedSafely store attempt := by
  cases hstep with
  | prepare hsiblings hprepare =>
    obtain ⟨hparent, hprepares⟩ := prepareSubmissionAttempt_spec hprepare
    obtain ⟨hsafe, hnumber⟩ := h.preparedSafely (hparent ▸ hsiblings) hprepares
    refine ⟨h.prepare hsafe hnumber, fun a ha => ?_⟩
    cases ha
    exact hsafe
  | advance hrun =>
    obtain ⟨hsame, hnext⟩ := SubmissionTransition.run_spec hrun
    refine ⟨h.advance hsame fun hresubmit => ?_, by simp⟩
    rw [next_of_mayResubmit hresubmit] at hnext
    exact absurd hnext List.not_mem_nil

/-- The broker has the order: the attempt was confirmed, or resolved as submitted. -/
def WasSubmitted (attempt : CanonicalSubmissionAttempt H.canonicalId) : Prop :=
  attempt.state = .confirmed ∨
    attempt.state = .resolved ∧ attempt.resolution ≠ some .notSubmitted

theorem WasSubmitted.not_mayResubmit (h : WasSubmitted attempt) : ¬ attempt.mayResubmit := by
  rintro (habandoned | ⟨hresolved, hnot⟩)
  · rcases h with hconfirmed | ⟨hresolved, -⟩
    · cases hconfirmed.symm.trans habandoned
    · cases hresolved.symm.trans habandoned
  · rcases h with hconfirmed | ⟨-, hsubmitted⟩
    · cases hconfirmed.symm.trans hresolved
    · exact hsubmitted hnot

/-- Nothing follows a submitted attempt either, so it stays in the store as it is. -/
theorem WasSubmitted.kept (h : WasSubmitted attempt) (hmem : attempt ∈ store)
    (hstep : SubmissionStep H store event store') : attempt ∈ store' := by
  cases hstep with
  | prepare => exact List.mem_append_left _ hmem
  | @advance other _ _ _ before after _ hrun =>
    have hother : attempt ≠ other := by
      rintro rfl
      have hnext := (SubmissionTransition.run_spec hrun).2
      rcases h with hconfirmed | ⟨hresolved, -⟩
      · simp [hconfirmed, SubmissionAttemptState.next] at hnext
      · simp [hresolved, SubmissionAttemptState.next] at hnext
    simp only [List.mem_append, List.mem_cons, hother, false_or] at hmem ⊢
    exact hmem.imp_right .inr

/-- What was submitted at some point of a run is still in the store at its end. -/
theorem WasSubmitted.mem_of_trace {events : List (SubmissionEvent H)}
    (h : Trace (SubmissionStep H) [] events store) :
    ∀ a a', .advanced a a' ∈ events → WasSubmitted a' → a' ∈ store := by
  refine h.invariant_done (fun done store => ∀ a a', .advanced a a' ∈ done → WasSubmitted a' →
    a' ∈ store) (by simp) fun done store event store' _ hdone hstep a a' hevent hsubmitted => ?_
  rw [List.mem_append, List.mem_singleton] at hevent
  rcases hevent with hbefore | rfl
  · exact hsubmitted.kept (hdone a a' hbefore hsubmitted) hstep
  · cases hstep
    simp

/-- At most one attempt of an order may have been sent. -/
theorem SubmissionHistory.live (h : SubmissionHistory store) (parent order : Str) :
    ((attemptsFor parent order store).filter fun a => ¬ a.mayResubmit).length ≤ 1 := by
  have hpairs : (attemptsFor parent order store).Pairwise UnsentBefore := h.unsent.filter _
  have hnone : ((attemptsFor parent order store).filter fun a => ¬ a.mayResubmit).Pairwise
      fun _ _ => False := by
    refine (hpairs.filter fun a => ¬ a.mayResubmit).imp_of_mem fun {a b} ha hb hunsent => ?_
    simp only [List.mem_filter, mem_attemptsFor, decide_eq_true_eq] at ha hb
    obtain ⟨⟨-, hpa, hoa⟩, hsent⟩ := ha
    obtain ⟨⟨-, hpb, hob⟩, -⟩ := hb
    exact hsent (hunsent (hpa.trans hpb.symm) (hoa.trans hob.symm))
  generalize (attemptsFor parent order store).filter _ = sent at hnone
  rcases sent with _ | ⟨a, _ | ⟨b, rest⟩⟩
  · simp
  · simp
  · exact ((List.pairwise_cons.1 hnone).1 b List.mem_cons_self).elim

/-- **No double submission within a parent decision**, in every run of the store: at most one
attempt of an order may have been sent, they are numbered from one, none is prepared while a sibling
is unknown or an earlier one for the order may have been sent, and an order that was submitted at
some point gets no attempt after it. -/
theorem no_double_submission {events : List (SubmissionEvent H)}
    (h : Trace (SubmissionStep H) [] events store) :
    (∀ parent order, ((attemptsFor parent order store).filter fun a => ¬ a.mayResubmit).length ≤ 1 ∧
      (attemptsFor parent order store).map (·.attemptNumber) =
        List.range' 1 (attemptsFor parent order store).length) ∧
    ∀ earlier attempt later, events = earlier ++ .prepared attempt :: later →
      (∃ store₁, Trace (SubmissionStep H) [] earlier store₁ ∧ PreparedSafely store₁ attempt) ∧
      ∀ a a', .advanced a a' ∈ earlier → WasSubmitted a' →
        ¬ (a'.parentDecisionId = attempt.parentDecisionId ∧ a'.orderId = attempt.orderId) := by
  have history {events : List (SubmissionEvent H)} {store : SubmissionStore H}
      (h : Trace (SubmissionStep H) [] events store) : SubmissionHistory store :=
    h.invariant SubmissionHistory ⟨List.Pairwise.nil, fun _ _ => rfl⟩
      fun _ _ _ hs hstep => (hs.step hstep).1
  refine ⟨fun parent order => ⟨(history h).live parent order, (history h).numbered parent order⟩,
    ?_⟩
  rintro earlier attempt later rfl
  obtain ⟨store₁, store₂, hearlier, hstep, -⟩ := h.exists_step
  have hsafe := ((history hearlier).step hstep).2 attempt rfl
  refine ⟨⟨store₁, hearlier, hsafe⟩, fun a a' hevent hsubmitted hsame => ?_⟩
  have hmem := WasSubmitted.mem_of_trace hearlier a a' hevent hsubmitted
  exact hsubmitted.not_mayResubmit (hsafe.unsent a' hmem hsame.1 hsame.2)

end store

/-! ## Sample runs -/

def sampleReceipt : AccountFenceReceipt :=
  ⟨{ fence := ⟨⟨"account", "owner", "lease", 1⟩, by decide +kernel⟩
     validatedAt := 115
     validUntil := 400
     policySha256 := "policy"
     leaseSha256 := "lease" }, by decide +kernel⟩

/-- The only intent of the sample batch, its request, and the decision over the batch at `t`. -/
def sampleSubmission (t : Instant) :
    Py (OrderIntent × BrokerSubmissionRequest ×
      BatchRiskDecision SubmissionHashes.plain.canonicalId) := do
  let snapshot ← sampleRiskSnapshot "first" 1000
  let batch ← targetToIntentBatch BatchHashes.plain.toIntentHashes sampleTargetPortfolio
    snapshot.val.portfolioSnapshot
  let activeCapacity ← initialActiveCapacityUniverse .plain "account" []
  let decision ← evaluateBatchRiskDecision .plain batch sampleTargetPortfolio snapshot sampleLimits
    activeCapacity t
  let intent ← getOrThrow batch.val.intents.head? .indexError
  let H := SubmissionHashes.plain.toOrderHashes
  let request : BrokerSubmissionRequest :=
    ⟨orderIdOf H intent, clientOrderIdOf (orderIdOf H intent),
      H.intentPayloadHash intent, "request"⟩
  return (intent, request, decision)

/-- Two attempts, each prepared under a decision of its own. -/
def sampleDoubleSubmission :
    Py (SubmissionStore .plain × BatchRiskDecision SubmissionHashes.plain.canonicalId) := do
  let (intent, request, decision) ← sampleSubmission 110
  let (intent', request', decision') ← sampleSubmission 111
  let first ← prepareSubmissionAttempt .plain intent decision sampleReceipt request 120 120 []
  let second ← prepareSubmissionAttempt .plain intent' decision' sampleReceipt request' 120 120 []
  return ([first, second], decision')

/-- Two decisions over one intent: its order gets two attempts, both with the number one and both
about to be sent. -/
theorem double_submission_across_decisions : ∃ (events : List (SubmissionEvent .plain))
    (store : SubmissionStore .plain) (order : Str),
    Trace (SubmissionStep .plain) [] events store ∧ store.map (·.orderId) = [order, order] ∧
      store.map (·.attemptNumber) = [1, 1] ∧ store.map (·.state) = [.pending, .pending] := by
  have h : (fun x => (x.1.map (·.attemptNumber), x.1.map (·.state),
      x.1.map (fun a => decide (some a.orderId = x.1.head?.map (·.orderId))),
      x.1.map (fun a => decide (a.parentDecisionId = x.2.val.decisionId)))) <$>
        sampleDoubleSubmission =
      .ok ([1, 1], [.pending, .pending], [true, true], [false, true]) := by
    decide +kernel
  simp only [sampleDoubleSubmission, eq_ok, Prod.mk.injEq] at h
  obtain ⟨_, ⟨⟨intent, request, decision⟩, -, ⟨intent', request', decision'⟩, -, first, hfirst,
    second, hsecond, rfl⟩, hnumbers, hstates, horders, hparents⟩ := h
  simp only [List.map_cons, List.map_nil, List.head?_cons, Option.map_some, List.cons.injEq,
    decide_eq_true_eq, decide_eq_false_iff_not, and_true, Option.some.injEq] at horders hparents
  refine ⟨_, [first, second], first.orderId, .snoc (.snoc .nil (.prepare (.refl _) hfirst))
    (.prepare ?_ hsecond), by simp [horders], hnumbers, hstates⟩
  simp [hparents.1]

/-- An attempt, abandoned before it was sent, and the next one for the same order. -/
def sampleRetry : Py (SubmissionStore .plain) := do
  let (intent, request, decision) ← sampleSubmission 110
  let first ← prepareSubmissionAttempt .plain intent decision sampleReceipt request 120 120 []
  let abandoned ← abandonPendingSubmission .plain first 130 130 "recovered"
  let second ← prepareSubmissionAttempt .plain intent decision sampleReceipt request 140 140
    [abandoned]
  return [abandoned, second]

/-- The second attempt of the sample has the number two and is the only one that may be sent. -/
theorem sample_no_double_submission : ∃ (events : List (SubmissionEvent .plain))
    (store : SubmissionStore .plain) (parent order : Str),
    Trace (SubmissionStep .plain) [] events store ∧ store.map (·.attemptNumber) = [1, 2] ∧
      ((attemptsFor parent order store).filter fun a => ¬ a.mayResubmit).length ≤ 1 := by
  have h : (fun store => store.map (·.attemptNumber)) <$> sampleRetry = .ok [1, 2] := by
    decide +kernel
  simp only [sampleRetry, eq_ok] at h
  obtain ⟨_, ⟨⟨intent, request, decision⟩, -, first, hfirst, abandoned, habandoned, second, hsecond,
    rfl⟩, hnumbers⟩ := h
  have hparent : abandoned.parentDecisionId = decision.val.decisionId := by
    rw [← (prepareSubmissionAttempt_spec hfirst).1]
    exact congrArg SubmissionAttemptPreparation.parentDecisionId (appendEvent_spec habandoned).1
  have hrun : (SubmissionTransition.abandonPending "recovered").run .plain first 130 130 =
    .ok abandoned := habandoned
  have htrace : Trace (SubmissionStep .plain) [] _ [abandoned, second] :=
    .snoc (.snoc (.snoc .nil (.prepare (.refl _) hfirst)) (.advance hrun))
      (.prepare (by simp [hparent]) hsecond)
  exact ⟨_, _, second.parentDecisionId, second.orderId, htrace, hnumbers,
    ((no_double_submission htrace).1 _ _).1⟩

end AutoQuantTrader
