import AutoQuantTrader.OperationalControlLaws
import AutoQuantTrader.Identifiers

/-!
# A safety command on time is accepted

The only condition that a command which stops trading can fail on a head of its own scope is its
time: a request made before the head was decided is refused, any later one is joined to the state.
-/

namespace AutoQuantTrader.OperationalControl

open Result

variable {H : ControlHashes} {head : Transition H.toControlIds} {command : Command}
  {decidedAt : Instant}

/-! ## Blocking events -/

section BlockingEvents

variable {I : ControlIds} {t : TransitionFields I} {events : List BlockingEvent}

/-- The blocking events of a transition: of its scope, numbered upwards, with identities of their
own. -/
structure EventsFit (I : ControlIds) (scopeId : Str) (last : Nat) (events : List BlockingEvent) :
    Prop where
  within : ∀ event ∈ events, event.val.scopeId = scopeId ∧ event.val.sequenceNumber ≤ last
  ordered : events.Pairwise fun a b => a.val.sequenceNumber < b.val.sequenceNumber
  distinct : (events.map (·.val.eventId I)).Nodup

theorem BlockingEvent.sequenceNumber_pos (event : BlockingEvent) :
    0 < event.val.sequenceNumber := by
  have h := event.passes
  simp only [BlockingEventFields.postInit, Py.eq_ok] at h
  obtain ⟨_, -, _, hpos, -⟩ := h
  omega

/-- The loop over the events, from any sequence number and any identities seen before. -/
theorem foldlM_checkBlockingEvent :
    (∃ r, events.foldlM t.checkBlockingEvent previous = .ok r) ↔
      EventsFit I t.scopeId t.sequenceNumber events ∧
      ∀ event ∈ events, previous.1 < event.val.sequenceNumber ∧ event.val.eventId I ∉
      previous.2 := by
  induction events generalizing previous with
  | nil => simpa using ⟨by simp, .nil, List.nodup_nil⟩
  | cons event events ih =>
    have hstep : (∃ r, (event :: events).foldlM t.checkBlockingEvent previous = .ok r) ↔
        (event.val.scopeId = t.scopeId ∧ previous.1 < event.val.sequenceNumber ∧
          event.val.sequenceNumber ≤ t.sequenceNumber ∧ event.val.eventId I ∉ previous.2) ∧
        ∃ r, events.foldlM t.checkBlockingEvent
          (event.val.sequenceNumber, event.val.eventId I :: previous.2) = .ok r := by
      simp only [foldlM_cons_eq_ok, TransitionFields.checkBlockingEvent, Py.eq_ok, not_le, not_lt]
      constructor
      · rintro ⟨r, _, ⟨_, hscope, _, hlater, _, hlast, _, hnew, rfl⟩, hrest⟩
        exact ⟨⟨hscope, hlater, hlast, hnew⟩, r, hrest⟩
      · rintro ⟨⟨hscope, hlater, hlast, hnew⟩, r, hrest⟩
        exact ⟨r, _, ⟨(), hscope, (), hlater, (), hlast, (), hnew, rfl⟩, hrest⟩
    rw [hstep, ih]
    constructor
    · rintro ⟨⟨hscope, hlater, hlast, hnew⟩, hfit, hrest⟩
      refine ⟨⟨?_, ?_, ?_⟩, ?_⟩
      · exact List.forall_mem_cons.2 ⟨⟨hscope, hlast⟩, hfit.within⟩
      · exact List.pairwise_cons.2 ⟨fun other hother => (hrest other hother).1, hfit.ordered⟩
      · refine List.nodup_cons.2 ⟨fun hmem => ?_, hfit.distinct⟩
        obtain ⟨other, hother, hsame⟩ := List.mem_map.1 hmem
        exact (hrest other hother).2 (hsame ▸ List.mem_cons_self)
      · refine List.forall_mem_cons.2 ⟨⟨hlater, hnew⟩, fun other hother => ?_⟩
        have h := hrest other hother
        exact ⟨hlater.trans h.1, fun hmem => h.2 (List.mem_cons_of_mem _ hmem)⟩
    · rintro ⟨hfit, hall⟩
      obtain ⟨⟨hscope, hlast⟩, hwithin⟩ := List.forall_mem_cons.1 hfit.within
      obtain ⟨⟨hlater, hnew⟩, hrest⟩ := List.forall_mem_cons.1 hall
      obtain ⟨hfirst, hordered⟩ := List.pairwise_cons.1 hfit.ordered
      obtain ⟨hdistinct, hnodup⟩ := List.nodup_cons.1 hfit.distinct
      refine ⟨⟨hscope, hlater, hlast, hnew⟩, ⟨hwithin, hordered, hnodup⟩, fun other hother => ?_⟩
      refine ⟨hfirst other hother, fun hmem => ?_⟩
      rcases List.mem_cons.1 hmem with hsame | hseen
      · exact hdistinct (List.mem_map.2 ⟨other, hother, hsame⟩)
      · exact (hrest other hother).2 hseen

/-- The source's loop accepts exactly the events that fit. -/
theorem exists_foldlM_checkBlockingEvent :
    (∃ r, t.blockingEvents.foldlM t.checkBlockingEvent (0, []) = .ok r) ↔
      EventsFit I t.scopeId t.sequenceNumber t.blockingEvents := by
  rw [foldlM_checkBlockingEvent]
  exact ⟨And.left, fun h => ⟨h, fun event _ => ⟨event.sequenceNumber_pos, List.not_mem_nil⟩⟩⟩

/-- One more event, and the oldest ones forgotten. -/
theorem EventsFit.append (h : EventsFit I scopeId last events) {event : BlockingEvent}
    (hscope : event.val.scopeId = scopeId) (hnumber : event.val.sequenceNumber = last + 1)
    (hnew : ∀ other ∈ events, other.val.eventId I ≠ event.val.eventId I) (n : Nat) :
    EventsFit I scopeId (last + 1) ((events ++ [event]).drop n) := by
  have hall : EventsFit I scopeId (last + 1) (events ++ [event]) := by
    refine ⟨?_, ?_, ?_⟩
    · refine forall_mem_snoc.2 ⟨fun other hother => ?_, hscope, hnumber.le⟩
      have hwithin := h.within other hother
      exact ⟨hwithin.1, by omega⟩
    · refine List.pairwise_append.2 ⟨h.ordered, List.pairwise_singleton _ _,
        fun other hother last' hlast => ?_⟩
      have hwithin := h.within other hother
      rw [List.mem_singleton.1 hlast]
      omega
    · rw [List.map_append, List.map_singleton]
      refine List.nodup_append.2 ⟨h.distinct, List.nodup_singleton _, ?_⟩
      intro id hid last' hlast hsame
      obtain ⟨other, hother, rfl⟩ := List.mem_map.1 hid
      exact hnew other hother (hsame.trans (List.mem_singleton.1 hlast))
  have hsub := List.drop_sublist n (events ++ [event])
  exact ⟨fun other hother => hall.within other (hsub.subset hother), hall.ordered.sublist hsub,
    hall.distinct.sublist (hsub.map _)⟩

end BlockingEvents

/-! ## Safety commands -/

/-- What the head of a history satisfies, as far as a later command needs it. -/
structure HeadFits (head : Transition H.toControlIds) : Prop where
  scope : requireVisibleText 128 head.val.scopeId "control transition scope ID" = .ok ()
  numbered : 0 < head.val.sequenceNumber
  epoch : requireVisibleText 128 head.val.stateEpochId "control transition state epoch ID" = .ok ()
  events : EventsFit H.toControlIds head.val.scopeId head.val.sequenceNumber head.val.blockingEvents
  operation : ∀ operation, head.val.effectiveState.operation = some operation →
    ∃ active ∈ head.val.activeOperation, active.val.operation = operation ∧
      active.val.scopeId = head.val.scopeId ∧ active.val.stateEpochId = head.val.stateEpochId

theorem headFits (head : Transition H.toControlIds) : HeadFits head := by
  have h := head.passes
  simp only [TransitionFields.postInit, Py.eq_ok] at h
  obtain ⟨_, hscope, _, hnumber, _, -, _, -, _, -, _, hstates, _, -, r, hevents, _, -,
    hoperation⟩ := h
  simp only [TransitionFields.checkStates, Py.eq_ok] at hstates
  obtain ⟨_, -, _, -, _, -, _, hepoch, -⟩ := hstates
  refine ⟨hscope, by omega, hepoch, exists_foldlM_checkBlockingEvent.1 ⟨r, hevents⟩, ?_⟩
  intro operation hsome
  rw [TransitionFields.checkOperation, hsome] at hoperation
  simp only [raiseIf_eq_ok, not_not, Option.any_eq_true, decide_eq_true_eq] at hoperation
  obtain ⟨active, hactive, hfits⟩ := hoperation
  exact ⟨active, hactive, hfits⟩

/-- The command is not the one of the head, and the event that it adds gets an identity of its
own. -/
structure IsNew (head : Transition H.toControlIds) (command : Command) : Prop where
  unapplied : head.val.commandId ≠ command.commandId H.toControlIds
  fresh : ∀ event ∈ head.val.blockingEvents, event.val.eventId H.toControlIds ≠
    H.canonicalId "operational-control-blocking-event" [.text H.policySha256,
      .text command.val.scopeId,
      .integer ↑(head.val.sequenceNumber + 1), .text (command.commandId H.toControlIds)]

instance (head : Transition H.toControlIds) (command : Command) : Decidable (IsNew head command) :=
  decidable_of_iff (_ ∧ ∀ event ∈ head.val.blockingEvents, _) ⟨fun h => ⟨h.1, h.2⟩,
    fun h => ⟨h.1, h.2⟩⟩

/-- What stops trading. -/
def CommandKind.isSafety (kind : CommandKind) : Prop :=
  kind ∈ [CommandKind.pause, .drain, .flatten, .halt, .trip]

theorem Command.target_of_safety (command : Command) (h : command.val.kind.isSafety) :
    command.val.targetState ≠ .running := by
  have hpasses := command.passes
  simp only [CommandFields.postInit, CommandFields.checkTarget, CommandFields.checkTrip,
    bind_eq_ok] at hpasses
  obtain ⟨_, -, _, -, _, -, _, -, _, hfixed, _, -, _, htrip, -⟩ := hpasses
  intro hrunning
  rw [hrunning] at hfixed htrip
  cases hkind : command.val.kind <;> rw [hkind] at hfixed htrip h
  case initializeHalted | rearm => exact absurd h (by simp [CommandKind.isSafety])
  case trip => simp [raiseIf_eq_ok] at htrip
  all_goals exact raiseIf_eq_ok.1 hfixed (by decide)

theorem stateJoin_ne_running (state : State) (h : target ≠ .running) :
    stateJoin state target ≠ .running := by
  cases target <;> cases state <;> first | exact absurd rfl h | decide

theorem getLast?_drop_concat {α : Type} (l : List α) (a : α) (h : n ≤ l.length) :
    ((l ++ [a]).drop n).getLast? = some a := by
  rw [List.drop_append_of_le_length h, List.getLast?_concat]

/-- A blocking event of a stopped state is always accepted. -/
theorem exists_appendBlocker {event : BlockingEventFields} (hstopped : event.state ≠ .running)
    (hpasses : event.postInit = .ok ()) :
    appendBlocker prior overflowed event = .ok (
      (prior ++ [(⟨event, hpasses⟩ : BlockingEvent)]).drop (prior.length + 1 - maxBlockers),
      overflowed || maxBlockers < prior.length + 1) := by
  simp only [appendBlocker, if_neg hstopped, Py.eq_ok]
  refine ⟨⟨event, hpasses⟩, rfl, ?_⟩
  simp only [List.length_append, List.length_singleton]

/-- What makes a stopped transition with a predecessor well formed. -/
structure StoppedTransition {I : ControlIds} (t : TransitionFields I) : Prop where
  scope : ∀ fieldName, requireVisibleText 128 t.scopeId fieldName = .ok ()
  later : 1 < t.sequenceNumber
  identity : t.transitionId = transitionIdOf I t.scopeId t.sequenceNumber t.commandId
  previous : t.previousTransitionSha256 ≠ none ∧ t.priorState ≠ none
  command : ∀ fieldName, requireVisibleText 128 t.commandId fieldName = .ok ()
  changed : t.stateChanged = decide (t.priorState ≠ some t.effectiveState)
  epoch : ∀ fieldName, requireVisibleText 128 t.stateEpochId fieldName = .ok ()
  opened : t.stateChanged → t.stateEpochId = t.transitionId
  bounded : t.blockingEvents.length ≤ maxBlockers
  events : EventsFit I t.scopeId t.sequenceNumber t.blockingEvents
  stopped : t.effectiveState ≠ .running
  last : ∃ event ∈ t.blockingEvents.getLast?,
    event.val.sequenceNumber = t.sequenceNumber ∧ event.val.commandId = t.commandId
  idle : t.effectiveState.operation = none → t.activeOperation = none
  operating : ∀ operation, t.effectiveState.operation = some operation →
    ∃ active ∈ t.activeOperation, active.val.operation = operation ∧
      active.val.scopeId = t.scopeId ∧ active.val.stateEpochId = t.stateEpochId

/-- A stopped transition passes every check of the source. -/
theorem StoppedTransition.passes {I : ControlIds} {t : TransitionFields I}
    (h : StoppedTransition t) : t.postInit = .ok () := by
  have hlater := h.later
  obtain ⟨r, hr⟩ := exists_foldlM_checkBlockingEvent.2 h.events
  have hoperation : t.checkOperation = .ok () := by
    unfold TransitionFields.checkOperation
    split
    · next hnone => exact raiseIf_eq_ok.2 (not_not.2 (h.idle hnone))
    · next operation hsome =>
      obtain ⟨active, hactive, hfits⟩ := h.operating operation hsome
      refine raiseIf_eq_ok.2 (not_not.2 (Option.any_eq_true _ _ |>.2 ⟨active, hactive, ?_⟩))
      exact decide_eq_true hfits
  have hhead : t.checkHeadEvent = .ok () := by
    obtain ⟨event, hevent, hlast⟩ := h.last
    rw [TransitionFields.checkHeadEvent, if_neg h.stopped]
    exact raiseIf_eq_ok.2
      (not_not.2 (Option.any_eq_true _ _ |>.2 ⟨event, hevent, decide_eq_true hlast⟩))
  have hstates : t.checkStates = .ok () := by
    simp only [TransitionFields.checkStates, eq_ok, raiseIf_eq_ok]
    refine ⟨(), by omega, (), fun hprior => h.previous.2 hprior.2, (), not_not.2 h.changed, (),
      h.epoch _, ?_⟩
    rintro ⟨hfirst | hchanged, hepoch⟩
    · omega
    · exact hepoch (h.opened hchanged)
  have hpredecessor : t.checkPredecessor = .ok () := by
    rw [TransitionFields.checkPredecessor, if_neg (by omega)]
    exact raiseIf_eq_ok.2 h.previous.1
  simp only [TransitionFields.postInit, eq_ok, raiseIf_eq_ok, not_not, not_lt]
  exact ⟨(), h.scope _, (), by omega, (), h.identity, (), hpredecessor, (), h.command _,
    (), hstates, (), h.bounded, r, hr, (), hhead, hoperation⟩

/-- The attempt that a state needs after a command: none, the one of the head if the head is in that
state already, or one that the command opens. -/
def IsNeeded (head : Transition H.toControlIds) (command : Command) (decidedAt : Instant)
    (state : State) (epoch : Str) (active : Option (OperationAttempt H.toControlIds)) : Prop :=
  match state.operation with
  | none => active = none
  | some operation => ∃ attempt, active = some attempt ∧ attempt.val.operation = operation ∧
      attempt.val.scopeId = command.val.scopeId ∧ attempt.val.stateEpochId = epoch ∧
      if state = head.val.effectiveState then head.val.activeOperation = some attempt
      else attempt.val.openedByCommandId = command.commandId H.toControlIds ∧
        attempt.val.openedAt = decidedAt

/-- The operation a stopped state needs can be built. -/
theorem exists_activeOperation (decidedAt : Instant) (hids : ∀ kind parts,
    isUuid (H.canonicalId kind parts))
    (hscope : head.val.scopeId = command.val.scopeId)
    (hepoch : ∀ fieldName, requireVisibleText 128 epoch fieldName = .ok ())
    (hkept : state = head.val.effectiveState → epoch = head.val.stateEpochId) :
    ∃ active, (state.operation.mapM fun operation =>
      nextOperation H (some head) command decidedAt none
        operation (decide (some head.val.effectiveState ≠ some state)) epoch) = .ok active ∧
      IsNeeded head command decidedAt state epoch active := by
  unfold IsNeeded
  cases hoperation : state.operation with
  | none => exact ⟨none, rfl, rfl⟩
  | some operation =>
    suffices h : ∃ attempt, nextOperation H (some head) command decidedAt none operation
        (decide (some head.val.effectiveState ≠ some state)) epoch = .ok attempt ∧ _ by
      obtain ⟨attempt, hnext, hneeded⟩ := h
      exact ⟨some attempt, by rw [Option.mapM_some, hnext]; rfl, attempt, rfl, hneeded⟩
    by_cases hsame : state = head.val.effectiveState
    · obtain ⟨active, hactive, hkind, hactiveScope, hactiveEpoch⟩ :=
        (headFits head).operation operation (hsame ▸ hoperation)
      refine ⟨active, ?_, hkind, hactiveScope.trans hscope, hactiveEpoch.trans (hkept hsame).symm,
        ?_⟩
      · simp only [nextOperation, retries, eq_ok, hsame, ne_eq, not_true, decide_false,
          Bool.false_eq_true, if_false]
        refine ⟨false, rfl, getOrThrow_eq_ok.2 ?_⟩
        rw [Option.bind_some, hactive, Option.filter_some, if_pos (decide_eq_true hkind)]
      · rw [if_pos hsame]
        exact hactive
    · have hattempt : OperationAttemptFields.postInit H.toControlIds {
          attemptId := attemptIdOf H.toControlIds command.val.scopeId
            (command.commandId H.toControlIds)
          scopeId := command.val.scopeId, operation, stateEpochId := epoch, openedAt := decidedAt
          openedByCommandId := command.commandId H.toControlIds } = .ok () := by
        simp only [OperationAttemptFields.postInit, Py.eq_ok]
        exact ⟨(), requireVisibleText_congr (hscope ▸ (headFits head).scope), (), hepoch _, (),
          requireVisibleText_of_isUuid (hids _ _), trivial⟩
      refine ⟨⟨_, hattempt⟩, ?_, rfl, rfl, rfl, ?_⟩
      · have hchanged : some head.val.effectiveState ≠ some state := fun h =>
          hsame (Option.some.inj h).symm
        rw [decide_eq_true hchanged]
        simp only [nextOperation, if_true, bind_eq_ok]
        exact ⟨true, rfl, construct_eq_ok.2 rfl⟩
      · rw [if_neg hsame]
        exact ⟨rfl, rfl⟩

/-- A stopping command of the scope advances the head, with the operation that its state needs. -/
theorem exists_advance (decidedAt : Instant) (hids : ∀ kind parts,
    isUuid (H.canonicalId kind parts))
    (hscope : head.val.scopeId = command.val.scopeId) (hnew : IsNew head command)
    (hstopped : state ≠ .running) :
    ∃ result, advance H (some head) command decidedAt none state = .ok result ∧
      result.val.effectiveState = state ∧
      IsNeeded head command decidedAt state result.val.stateEpochId result.val.activeOperation := by
  have hfits := headFits head
  have hevent :
      (blockerOf H command (head.val.sequenceNumber + 1) state decidedAt).postInit = .ok () := by
    simp only [BlockingEventFields.postInit, Py.eq_ok]
    exact ⟨(), requireVisibleText_congr (hscope ▸ hfits.scope), (), Nat.succ_ne_zero _, (),
      requireVisibleText_of_isUuid (hids _ _), hstopped⟩
  -- what the transition records of the state: the epoch is new exactly if the state is
  generalize hepoch : (if decide (some head.val.effectiveState ≠ some state) then
    transitionIdOf H.toControlIds command.val.scopeId (head.val.sequenceNumber + 1)
      (command.commandId H.toControlIds) else head.val.stateEpochId) = epoch
  have hvisible : ∀ fieldName, requireVisibleText 128 epoch fieldName = .ok () := by
    intro fieldName
    rw [← hepoch]
    split
    · exact requireVisibleText_of_isUuid (hids _ _)
    · exact requireVisibleText_congr hfits.epoch
  obtain ⟨active, hactive, hneeded⟩ := exists_activeOperation decidedAt hids hscope hvisible
    fun (hsame : state = _) => by rw [← hepoch, if_neg (by simp [hsame])]
  simp only [advance, Option.elim_some, Option.map_some, Py.eq_ok, hepoch]
  refine ⟨⟨_, StoppedTransition.passes ?_⟩, ⟨_, exists_appendBlocker hstopped hevent,
    active, hactive, rfl⟩, rfl, hneeded⟩
  have hnumbered := hfits.numbered
  have hdropped : head.val.blockingEvents.length + 1 - maxBlockers ≤
      head.val.blockingEvents.length := by
    have hpos : 0 < maxBlockers := by decide
    omega
  have hkept : head.val.blockingEvents.length + 1 -
      (head.val.blockingEvents.length + 1 - maxBlockers) ≤ maxBlockers := by omega
  generalize head.val.blockingEvents.length + 1 - maxBlockers = forgotten at hdropped hkept ⊢
  constructor
  case scope => exact fun _ => requireVisibleText_congr (hscope ▸ hfits.scope)
  case later => exact Nat.lt_add_of_pos_left hnumbered
  case identity => rfl
  case previous => exact ⟨Option.some_ne_none _, Option.some_ne_none _⟩
  case command => exact fun _ => requireVisibleText_of_isUuid (hids _ _)
  case changed => rfl
  case epoch => exact hvisible
  case opened => exact fun hchanged => by rw [← hepoch, if_pos hchanged]
  case bounded =>
    simpa only [List.length_drop, List.length_append, List.length_singleton] using hkept
  case events =>
    rw [← hscope]
    refine hfits.events.append hscope.symm rfl (fun event hevent => ?_) forgotten
    exact hnew.fresh event hevent
  case stopped => exact hstopped
  case last => exact ⟨_, getLast?_drop_concat _ _ hdropped, rfl, rfl⟩
  case idle =>
    intro hnone
    simpa only [IsNeeded, hnone] using hneeded
  case operating =>
    intro operation hsome
    simp only [IsNeeded, hsome] at hneeded
    obtain ⟨attempt, hattempt, hkind, hattemptScope, hattemptEpoch, -⟩ := hneeded
    exact ⟨attempt, hattempt, hkind, hattemptScope, hattemptEpoch⟩

/-- A safety command on time goes on to the next transition. -/
theorem applyOperationalControlCommand_safety (evidence : Option (RearmEvidence H.toControlIds))
    (hkind : command.val.kind.isSafety) (hscope : head.val.scopeId = command.val.scopeId)
    (hnew : IsNew head command) (htime : head.val.decidedAt ≤ command.val.requestedAt)
    (hdecided : command.val.requestedAt ≤ decidedAt)
    (h : advance H (some head) command decidedAt none
      (stateJoin head.val.effectiveState command.val.targetState) = .ok result) :
    applyOperationalControlCommand H (some head) command decidedAt evidence none = .ok result := by
  have hnext : nextState H head command decidedAt evidence =
      .ok (stateJoin head.val.effectiveState command.val.targetState) := by
    rw [nextState, if_neg fun h => by simp [CommandKind.isSafety, h] at hkind]
    rfl
  simp only [applyOperationalControlCommand, Py.eq_ok, if_neg hnew.unapplied, not_lt]
  refine ⟨(), hdecided, (), hscope, (), fun h => ?_, (), htime, _, hnext, h⟩
  simp [CommandKind.isSafety, h] at hkind

/-- **Safety commands never fail.**  On any head of its scope, a command that stops trading, that is
new and on time, leads to the more severe of the two states, with the operation that this state
needs. -/
theorem safety_command_accepted (hids : ∀ kind parts, isUuid (H.canonicalId kind parts))
    (hkind : command.val.kind.isSafety) (hscope : head.val.scopeId = command.val.scopeId)
    (hnew : IsNew head command) (htime : head.val.decidedAt ≤ command.val.requestedAt)
    (hdecided : command.val.requestedAt ≤ decidedAt)
    (evidence : Option (RearmEvidence H.toControlIds)) :
    ∃ result, applyOperationalControlCommand H (some head) command decidedAt evidence
      none = .ok result ∧ result.val.effectiveState.severity =
        max head.val.effectiveState.severity command.val.targetState.severity ∧
      IsNeeded head command decidedAt result.val.effectiveState result.val.stateEpochId
        result.val.activeOperation := by
  have hstopped := stateJoin_ne_running head.val.effectiveState (command.target_of_safety hkind)
  obtain ⟨result, hresult, hstate, hneeded⟩ := exists_advance decidedAt hids hscope hnew hstopped
  refine ⟨result, ?_, ?_, hstate ▸ hneeded⟩
  · exact applyOperationalControlCommand_safety evidence hkind hscope hnew htime hdecided hresult
  · rw [hstate]
    cases head.val.effectiveState <;> cases command.val.targetState <;> rfl

/-- A control that runs, and a command to drain it. -/
def drainedHashes : ControlHashes :=
  { ControlHashes.plain with
    canonicalId := digitsId
    transition := fun t => t.val.transitionId
    evidence := fun e => e.val.currentTransitionId }

def runningHead : Transition drainedHashes.toControlIds where
  val := {
    transitionId := transitionIdOf drainedHashes.toControlIds "account" 2 "rearm"
    scopeId := "account", sequenceNumber := 2, previousTransitionSha256 := some "head"
    commandId := "rearm", commandSha256 := "rearm", priorState := some .halted
    effectiveState := .running, stateChanged := true
    stateEpochId := transitionIdOf drainedHashes.toControlIds "account" 2 "rearm"
    blockingEvents := [], blockerOverflowed := false, activeOperation := none, decidedAt := 30 }
  passes := by decide +kernel

def drainCommand : Command where
  val := {
    scopeId := "account", idempotencyKey := "drain:001", kind := .drain, targetState := .draining
    actor := ⟨⟨"system", .system, "authority", none⟩, rfl⟩, reasonCode := "drain"
    reasonEvidenceSha256 := "r", requestedAt := 40, rearmEvidenceSha256 := none, tripRuleId := none
    tripPolicySha256 := none, tripObservationSha256 := none }
  passes := by decide +kernel

theorem running_control_drained : ∃ result,
    applyOperationalControlCommand drainedHashes (some runningHead) drainCommand 50 none
      none = .ok result ∧ result.val.effectiveState.severity = 2 ∧
      IsNeeded runningHead drainCommand 50 result.val.effectiveState result.val.stateEpochId
        result.val.activeOperation :=
  safety_command_accepted isUuid_digitsId (by simp [CommandKind.isSafety, drainCommand]) rfl
    (by decide +kernel) (by decide) (by decide) none

end AutoQuantTrader.OperationalControl
