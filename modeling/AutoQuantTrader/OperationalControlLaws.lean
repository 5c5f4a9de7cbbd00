import Mathlib.Data.List.DropRight
import AutoQuantTrader.Lib.Trace
import AutoQuantTrader.OperationalControl

/-!
# What a history of control commands guarantees

The blocking events of the head are those of the commands accepted since the control last ran, the
latest of them once there are too many.  A re-arm disposes of exactly the blocking events of the
head and is refused after an overflow, so it disposes of every command.
-/

namespace AutoQuantTrader.OperationalControl

open Result Sorting

/-! ## The latest items of a list -/

section latest

variable {α : Type} {n : Nat}

theorem rtake_rtake (l : List α) (h : m ≤ n) : (l.rtake n).rtake m = l.rtake m := by
  simp only [List.rtake_eq_reverse_take_reverse, List.reverse_reverse, List.take_take,
    Nat.min_eq_left h]

/-- Keeping the latest items one by one keeps the latest items. -/
theorem rtake_rtake_concat (l : List α) (a : α) (n : Nat) :
    (l.rtake n ++ [a]).rtake n = (l ++ [a]).rtake n := by
  cases n with
  | zero => simp
  | succ n => rw [List.rtake_concat_succ, List.rtake_concat_succ, rtake_rtake l n.le_succ]

theorem length_rtake (l : List α) (n : Nat) : (l.rtake n).length = min n l.length := by
  simp [List.rtake_eq_reverse_take_reverse]

theorem rtake_of_length_le {l : List α} (h : l.length ≤ n) : l.rtake n = l := by
  rw [List.rtake, Nat.sub_eq_zero_of_le h, List.drop_zero]

end latest

variable {H : ControlHashes} {current : Option (Transition H.toControlIds)}
  {head result : Transition H.toControlIds} {command : Command} {decidedAt : Instant}
  {evidence : RearmEvidence H.toControlIds} {rearmEvidence : Option (RearmEvidence H.toControlIds)}
  {completion : Option (Completion H.toControlIds)} {state : State}

/-! ## States -/

/-- A join is at least as severe as both states. -/
theorem severity_le_stateJoin (left right : State) :
    left.severity ≤ (stateJoin left right).severity ∧
      right.severity ≤ (stateJoin left right).severity := by
  unfold stateJoin
  split <;> omega

theorem State.eq_running_of_severity {state : State} (h : state.severity = 0) :
    state = .running := by
  cases state <;> simp_all [State.severity]

theorem Command.target_of_rearm (command : Command) (h : command.val.kind = .rearm) :
    command.val.targetState = .running := by
  have hpasses := command.passes
  simp only [CommandFields.postInit, CommandFields.checkRearm, h, if_true, Py.eq_ok] at hpasses
  obtain ⟨_, -, _, -, _, -, _, -, _, -, _, -, _, -, _, -, _, -, htarget⟩ := hpasses
  exact htarget

/-! ## What one command does -/

/-- The blocking event of a command that is applied to a head. -/
def blockerOf (H : ControlHashes) (command : Command) (sequenceNumber : Nat) (state : State)
    (decidedAt : Instant) : BlockingEventFields where
  scopeId := command.val.scopeId
  sequenceNumber := sequenceNumber
  commandId := command.commandId H.toControlIds
  commandSha256 := H.command command
  state := state
  occurredAt := decidedAt

/-- The blocking events and the overflow mark after one more event. -/
structure Blocks (prior : List BlockingEvent) (overflowed : Bool) (event : BlockingEventFields)
    (events : List BlockingEvent) (overflowed' : Bool) : Prop where
  events : events.map (·.val) = (prior.map (·.val) ++ [event]).rtake maxBlockers
  overflowed : overflowed' = (overflowed || maxBlockers < prior.length + 1)

/-- Running clears the blocking events, any other state adds one. -/
theorem appendBlocker_spec (h : appendBlocker prior overflowed event = .ok r) :
    event.state = .running ∧ r = ([], false) ∨
      event.state ≠ .running ∧ Blocks prior overflowed event r.1 r.2 := by
  unfold appendBlocker at h
  split at h
  · next hrunning => exact .inl ⟨hrunning, (pure_eq_ok.1 h).symm⟩
  · next hstopped =>
    simp only [Py.eq_ok] at h
    obtain ⟨blocker, hblocker, rfl⟩ := h
    refine .inr ⟨hstopped, ?_, ?_⟩
    · rw [← hblocker]
      simp only [List.rtake, List.map_drop, List.map_append, List.map_cons, List.map_nil,
        List.length_append, List.length_map, List.length_singleton]
    · simp only [List.length_append, List.length_singleton]

/-- The transition that a command makes from a head. -/
structure Advanced (H : ControlHashes) (current : Option (Transition H.toControlIds))
    (command : Command) (decidedAt : Instant) (state : State) (result : Transition H.toControlIds) :
    Prop where
  sequenceNumber : result.val.sequenceNumber = current.elim 1 (·.val.sequenceNumber + 1)
  commandSha256 : result.val.commandSha256 = H.command command
  effectiveState : result.val.effectiveState = state
  blockers : state = .running ∧ result.val.blockingEvents = [] ∧
    result.val.blockerOverflowed = false ∨
    state ≠ .running ∧ Blocks (current.elim [] (·.val.blockingEvents))
      (current.elim false (·.val.blockerOverflowed))
      (blockerOf H command result.val.sequenceNumber state decidedAt)
      result.val.blockingEvents result.val.blockerOverflowed

/-- What the next transition says of its head and command. -/
theorem advance_spec (h : advance H current command decidedAt completion state = .ok result) :
    Advanced H current command decidedAt state result := by
  simp only [advance, Py.eq_ok] at h
  obtain ⟨⟨events, overflowed⟩, hevents, active, -, hresult⟩ := h
  have hblockers := appendBlocker_spec hevents
  rw [Prod.mk.injEq] at hblockers
  constructor <;> rw [hresult]
  exact hblockers

/-- The evidence that a re-arm of a head needs. -/
structure RearmProof (H : ControlHashes) (head : Transition H.toControlIds) (command : Command)
    (evidence : RearmEvidence H.toControlIds) (decidedAt : Instant) : Prop where
  bound : command.val.rearmEvidenceSha256 = some (H.evidence evidence)
  actor : command.val.actor = evidence.val.actor
  currentHead : evidence.val.scopeId = head.val.scopeId ∧
    evidence.val.currentTransitionId = head.val.transitionId ∧
    evidence.val.currentTransitionSha256 = H.transition head ∧
    evidence.val.currentState = head.val.effectiveState ∧
    evidence.val.currentStateEpochId = head.val.stateEpochId
  fresh : evidence.val.checkedAt ≤ command.val.requestedAt ∧ command.val.requestedAt ≤ decidedAt ∧
    decidedAt < evidence.val.expiresAt
  healthy : evidence.val.reconciliationClean ∧ evidence.val.dataHealthy ∧ evidence.val.clockHealthy
  noOrders : evidence.val.workingOrderIds = [] ∧ evidence.val.unknownOrderIds = [] ∧
    evidence.val.pendingCancelOrderIds = []
  completed : head.val.effectiveState = .draining ∨ head.val.effectiveState = .flattening →
    ∃ active ∈ head.val.activeOperation, ∃ completion ∈ evidence.val.operationCompletion,
      completion.val.operationAttemptId = active.val.attemptId ∧
      completion.val.operation = active.val.operation ∧
      completion.val.stateEpochId = head.val.stateEpochId ∧
      completion.val.outcome = .completed ∧ completion.val.observedAt ≤ evidence.val.checkedAt

/-- What `_validate_rearm` lets through. -/
theorem validateRearm_spec (h : validateRearm H head command evidence decidedAt = .ok u) :
    RearmProof H head command evidence decidedAt ∧ head.val.blockerOverflowed = false ∧
      (evidence.val.incidentDispositions.map fun d => (d.val.eventId, d.val.eventSha256)).Perm
        (head.val.blockingEvents.map (namedEvent H)) := by
  simp only [validateRearm, Py.eq_ok, not_or] at h
  obtain ⟨_, hbound, _, hactor, _, ⟨hscope, hid, hsha, hstate, hepoch, -⟩, _, hfresh, _,
    ⟨hclean, hdata, hclock, hworking, hunknown, hpending⟩, _, hdisposed, _, -, _, hoverflow,
    hoperation⟩ := h
  refine ⟨⟨hbound, hactor, ⟨hscope, hid, hsha, hstate, hepoch⟩, hfresh, ⟨hclean, hdata, hclock⟩,
    ⟨hworking, hunknown, hpending⟩, fun hoperates => ?_⟩, Bool.eq_false_of_not_eq_true hoverflow,
      ?_⟩
  · unfold validateRearmOperation at hoperation
    rw [if_pos (by rcases hoperates with h | h <;> rw [h] <;> rfl)] at hoperation
    split at hoperation
    · next active completion hactive hcompletion =>
      simp only [Py.eq_ok, not_or, not_lt] at hoperation
      obtain ⟨-, hattempt, hoperation, hepoch, houtcome, hobserved⟩ := hoperation
      exact ⟨active, hactive, completion, hcompletion, hattempt, hoperation, hepoch, houtcome,
        hobserved⟩
    · simp at hoperation
  · rw [hdisposed]
    exact sortOn_perm _ _

/-- What an applied command can do. -/
inductive Applied (H : ControlHashes) (command : Command) (decidedAt : Instant)
    (rearmEvidence : Option (RearmEvidence H.toControlIds)) :
    Option (Transition H.toControlIds) → Transition H.toControlIds → Prop where
  | initialized {result : Transition H.toControlIds} (hkind : command.val.kind = .initializeHalted)
      (hadvanced : Advanced H none command decidedAt .halted result) :
      Applied H command decidedAt rearmEvidence none result
  | repeated {head : Transition H.toControlIds} (hsha : head.val.commandSha256 =
      H.command command) : Applied H command decidedAt rearmEvidence (some head) head
  | joined {head result : Transition H.toControlIds} (hkind : command.val.kind ≠ .rearm)
      (hadvanced : Advanced H (some head) command decidedAt
        (stateJoin head.val.effectiveState command.val.targetState) result) :
      Applied H command decidedAt rearmEvidence (some head) result
  | rearmed {head result : Transition H.toControlIds} {evidence : RearmEvidence H.toControlIds}
      (hkind : command.val.kind = .rearm) (hevidence : rearmEvidence = some evidence)
      (hvalid : validateRearm H head command evidence decidedAt = .ok ())
      (hadvanced : Advanced H (some head) command decidedAt .running result) :
      Applied H command decidedAt rearmEvidence (some head) result

/-- Only a validated rearm makes the control less severe. -/
theorem nextState_spec (h : nextState H head command decidedAt rearmEvidence = .ok state) :
    command.val.kind ≠ .rearm ∧ state = stateJoin head.val.effectiveState command.val.targetState ∨
      command.val.kind = .rearm ∧ state = .running ∧ ∃ evidence, rearmEvidence = some evidence ∧
        validateRearm H head command evidence decidedAt = .ok () := by
  unfold nextState at h
  split at h
  · next hkind =>
    simp only [Py.eq_ok] at h
    obtain ⟨_, -, evidence, hevidence, _, hvalid, rfl⟩ := h
    exact .inr ⟨hkind, command.target_of_rearm hkind, evidence, hevidence, hvalid⟩
  · next hkind => exact .inl ⟨hkind, (pure_eq_ok.1 h).symm⟩

/-- An accepted command repeats the head or advances it. -/
theorem applied_of_ok
    (h : applyOperationalControlCommand H current command decidedAt rearmEvidence completion =
      .ok result) : Applied H command decidedAt rearmEvidence current result := by
  simp only [applyOperationalControlCommand, Py.eq_ok] at h
  obtain ⟨_, -, h⟩ := h
  cases current with
  | none =>
    simp only [Py.eq_ok] at h
    obtain ⟨_, hkind, hadvance⟩ := h
    exact .initialized hkind (advance_spec hadvance)
  | some head =>
    simp only [Py.eq_ok] at h
    obtain ⟨_, -, h⟩ := h
    split at h
    · simp only [Py.eq_ok] at h
      obtain ⟨_, hsha, rfl⟩ := h
      exact .repeated hsha
    · simp only [Py.eq_ok] at h
      obtain ⟨_, -, _, -, state, hstate, hadvance⟩ := h
      rcases nextState_spec hstate with ⟨hkind, rfl⟩ | ⟨hkind, rfl, evidence, hevidence, hvalid⟩
      · exact .joined hkind (advance_spec hadvance)
      · exact .rearmed hkind hevidence hvalid (advance_spec hadvance)

/-! ## Histories -/

/-- A call that returned: what it was applied to and what it returned. -/
structure ControlCall (H : ControlHashes) where
  command : Command
  decidedAt : Instant
  rearmEvidence : Option (RearmEvidence H.toControlIds)
  activeOperationCompletion : Option (Completion H.toControlIds)
  before : Option (Transition H.toControlIds)
  after : Transition H.toControlIds

namespace ControlCall

variable {call : ControlCall H}

/-- The call is not the repetition of the command of the head. -/
def accepted (call : ControlCall H) : Prop := call.before ≠ some call.after

instance (call : ControlCall H) : Decidable call.accepted := inferInstanceAs (Decidable (¬ _))

/-- What a disposition of the call has to name. -/
def blocker (call : ControlCall H) : BlockingEventFields :=
  blockerOf H call.command call.after.val.sequenceNumber
    call.after.val.effectiveState call.decidedAt

end ControlCall

/-- The step of a history: the head is replaced by what the call returns. -/
def ControlStep (H : ControlHashes) (current : Option (Transition H.toControlIds))
    (call : ControlCall H) (next : Option (Transition H.toControlIds)) : Prop :=
  applyOperationalControlCommand H current call.command call.decidedAt call.rearmEvidence
      call.activeOperationCompletion = .ok call.after ∧
    call.before = current ∧ next = some call.after

/-- The commands accepted since the control last ran. -/
def sinceRunning (calls : List (ControlCall H)) : List (ControlCall H) :=
  (calls.rtakeWhile fun call => call.after.val.effectiveState ≠ .running).filter fun call =>
    call.accepted

variable {calls : List (ControlCall H)} {call : ControlCall H}

theorem sinceRunning_running (h : call.after.val.effectiveState = .running) :
    sinceRunning (calls ++ [call]) = [] := by
  rw [sinceRunning, List.rtakeWhile_concat_neg _ _ _ (by simpa using h), List.filter_nil]

theorem sinceRunning_stopped (h : call.after.val.effectiveState ≠ .running) :
    sinceRunning (calls ++ [call]) = sinceRunning calls ++ if call.accepted then
    [call] else [] := by
  rw [sinceRunning, List.rtakeWhile_concat_pos _ _ _ (by simpa using h), List.filter_append,
    List.filter_singleton, sinceRunning]
  simp

/-- What the head of a history tells of its calls. -/
structure Records (calls : List (ControlCall H)) (head : Transition H.toControlIds) : Prop where
  events : head.val.blockingEvents.map (·.val) =
    ((sinceRunning calls).map (·.blocker)).rtake maxBlockers
  overflowed : head.val.blockerOverflowed = decide (maxBlockers < (sinceRunning calls).length)
  stopped : head.val.effectiveState = .running → sinceRunning calls = []
  made : ∃ command, head.val.commandSha256 = H.command command ∧
    (command.val.kind = .rearm → head.val.effectiveState = .running)

/-- A head that was just advanced to is not the head before. -/
theorem Advanced.accepted (h : Advanced H current command decidedAt state result) :
    current ≠ some result := by
  rintro rfl
  have hsequence : result.val.sequenceNumber = result.val.sequenceNumber + 1 := h.sequenceNumber
  omega

/-- The commands so far, before a call that is applied to `current`. -/
def RecordsBefore (calls : List (ControlCall H)) (current : Option (Transition H.toControlIds)) :
    Prop :=
  (current = none → calls = []) ∧ ∀ head ∈ current, Records calls head

theorem RecordsBefore.events (h : RecordsBefore calls current) :
    (current.elim [] (·.val.blockingEvents)).map (·.val) =
      ((sinceRunning calls).map (·.blocker)).rtake maxBlockers := by
  cases current with
  | none => simp [h.1 rfl, sinceRunning]
  | some head => exact (h.2 head rfl).events

theorem RecordsBefore.overflowed (h : RecordsBefore calls current) :
    current.elim false (·.val.blockerOverflowed) =
      decide (maxBlockers < (sinceRunning calls).length) := by
  cases current with
  | none => simp [h.1 rfl, sinceRunning]
  | some head => exact (h.2 head rfl).overflowed

/-- A call that advances the head is recorded by the new head. -/
theorem Records.advance (h : RecordsBefore calls call.before)
    (hadvanced : Advanced H call.before call.command call.decidedAt state call.after)
    (hrearm : call.command.val.kind = .rearm → state = .running) :
    Records (calls ++ [call]) call.after := by
  have hstate := hadvanced.effectiveState
  have hmade : ∃ command, call.after.val.commandSha256 = H.command command ∧
      (command.val.kind = .rearm → call.after.val.effectiveState = .running) :=
    ⟨call.command, hadvanced.commandSha256, fun hkind => hstate.trans (hrearm hkind)⟩
  rcases hadvanced.blockers with ⟨hrunning, hevents, hoverflowed⟩ | ⟨hstopped, hblocks⟩
  · have hnone : sinceRunning (calls ++ [call]) = [] :=
      sinceRunning_running (hstate.trans hrunning)
    refine ⟨?_, ?_, fun _ => hnone, hmade⟩
    · simp only [hevents, hnone, List.map_nil, List.rtake_nil]
    · simp only [hoverflowed, hnone, List.length_nil, Nat.not_lt_zero, decide_false]
  · rw [← hstate] at hstopped hblocks
    have hpending : sinceRunning (calls ++ [call]) = sinceRunning calls ++ [call] := by
      rw [sinceRunning_stopped hstopped, if_pos (show call.accepted from hadvanced.accepted)]
    refine ⟨?_, ?_, fun hrunning => absurd hrunning hstopped, hmade⟩
    · rw [hblocks.events, h.events, hpending, List.map_append, rtake_rtake_concat]
      rfl
    · have hlength : (call.before.elim [] (·.val.blockingEvents)).length =
          min maxBlockers (sinceRunning calls).length := by
        rw [← List.length_map (f := fun e : BlockingEvent => e.val), h.events, length_rtake,
          List.length_map]
      rw [hblocks.overflowed, h.overflowed, hpending, hlength, List.length_append,
        List.length_singleton, Bool.eq_iff_iff]
      simp only [Bool.or_eq_true, decide_eq_true_eq]
      omega

/-- Every step keeps the records. -/
theorem RecordsBefore.step (h : RecordsBefore calls current)
    (hstep : ControlStep H current call next) : RecordsBefore (calls ++ [call]) next := by
  obtain ⟨happlied, hbefore, rfl⟩ := hstep
  subst hbefore
  refine ⟨fun hnone => (nomatch hnone), fun head hhead => ?_⟩
  obtain rfl : call.after = head := Option.some.inj hhead
  have hcases := applied_of_ok happlied
  generalize hcurrent : call.before = before, hafter : call.after = after at hcases
  cases hcases with
  | initialized hkind hadvanced =>
    subst hafter
    rw [← hcurrent] at hadvanced
    exact Records.advance h hadvanced fun hrearm => by rw [hkind] at hrearm; cases hrearm
  | joined hkind hadvanced =>
    subst hafter
    rw [← hcurrent] at hadvanced
    exact Records.advance h hadvanced fun hrearm => absurd hrearm hkind
  | rearmed hkind hevidence hvalid hadvanced =>
    subst hafter
    rw [← hcurrent] at hadvanced
    exact Records.advance h hadvanced fun _ => rfl
  | repeated hsha =>
    -- the head stays, and the repetition is not among the accepted commands
    subst hafter
    have hrecords := h.2 _ hcurrent
    have hrepeated : ¬ call.accepted := fun haccepted => haccepted hcurrent
    have hpending : sinceRunning (calls ++ [call]) = sinceRunning calls := by
      by_cases hrunning : call.after.val.effectiveState = .running
      · rw [sinceRunning_running hrunning, hrecords.stopped hrunning]
      · rw [sinceRunning_stopped hrunning, if_neg hrepeated, List.append_nil]
    exact ⟨hpending ▸ hrecords.events, hpending ▸ hrecords.overflowed,
      hpending ▸ hrecords.stopped, hrecords.made⟩

/-- After any run the head records the blockers since it last ran. -/
theorem recordsBefore_of_trace (h : Trace (ControlStep H) none calls current) :
    RecordsBefore calls current := by
  refine Trace.invariant_done RecordsBefore ⟨fun _ => rfl, fun _ hhead => by cases hhead⟩ ?_ h
  intro done s₁ label s₂ _ hrecords hstep
  exact hrecords.step hstep

/-! ## Re-arming -/

/-- A disposition of the evidence names the blocking event of a call. -/
def Disposes (H : ControlHashes) (evidence : RearmEvidence H.toControlIds) (call : ControlCall H) :
    Prop :=
  ∃ event : BlockingEvent, event.val = call.blocker ∧
    ∃ disposition ∈ evidence.val.incidentDispositions,
      disposition.val.eventId = event.val.eventId H.toControlIds ∧
      disposition.val.eventSha256 = H.event event

/-- Valid evidence for a head disposes of all that is recorded since the control last ran. -/
theorem Records.disposes (h : Records calls head)
    (hvalid : validateRearm H head command evidence decidedAt = .ok ()) :
    ∀ call ∈ sinceRunning calls, Disposes H evidence call := by
  intro call hcall
  obtain ⟨-, hoverflowed, hperm⟩ := validateRearm_spec hvalid
  have hlength : (sinceRunning calls).length ≤ maxBlockers := by
    rw [h.overflowed, decide_eq_false_iff_not, not_lt] at hoverflowed
    exact hoverflowed
  have hevents := h.events
  rw [rtake_of_length_le (by rwa [List.length_map])] at hevents
  have hmem : call.blocker ∈ head.val.blockingEvents.map (·.val) :=
    hevents ▸ List.mem_map_of_mem hcall
  obtain ⟨event, hevent, hblocker⟩ := List.mem_map.1 hmem
  obtain ⟨disposition, hdisposition, hnamed⟩ :=
    List.mem_map.1 (hperm.mem_iff.2 (List.mem_map_of_mem hevent))
  obtain ⟨hid, hsha⟩ := Prod.mk.inj hnamed
  exact ⟨event, hblocker, disposition, hdisposition, hid, hsha⟩

/-- An accepted re-arm: the evidence is for the head, and disposes of the commands since it ran. -/
structure AcceptedRearm (earlier : List (ControlCall H)) (call : ControlCall H)
    (head : Transition H.toControlIds) (evidence : RearmEvidence H.toControlIds) : Prop where
  before : call.before = some head
  supplied : call.rearmEvidence = some evidence
  proof : RearmProof H head call.command evidence call.decidedAt
  disposes : ∀ call' ∈ sinceRunning earlier, Disposes H evidence call'

variable {later : List (ControlCall H)}

/-- An accepted rearm of any run disposed of the blockers before it. -/
theorem accepted_rearm (hrun : Trace (ControlStep H) none (calls ++ call :: later) current)
    (hkind : call.command.val.kind = .rearm) (haccepted : call.accepted) :
    ∃ head evidence, AcceptedRearm calls call head evidence := by
  obtain ⟨s₁, s₂, hbefore, hstep, -⟩ := hrun.exists_step
  obtain ⟨happlied, hcurrent, -⟩ := hstep
  have hrecords := recordsBefore_of_trace hbefore
  have hcases := applied_of_ok happlied
  rw [← hcurrent] at hcases hrecords
  generalize hhead : call.before = before, hafter : call.after = after at hcases
  cases hcases with
  | initialized hinit _ => rw [hkind] at hinit; cases hinit
  | joined hother _ => exact absurd hkind hother
  | repeated _ => exact absurd (hafter ▸ hhead) haccepted
  | @rearmed head _ evidence _ hevidence hvalid _ =>
    exact ⟨head, evidence, hhead, hevidence, (validateRearm_spec hvalid).1,
      (hrecords.2 head hhead).disposes hvalid⟩

/-- A call that the command of a head repeats cannot be a re-arm of a stopped head, if digests tell
the kinds of commands apart. -/
theorem Records.repeated_running (h : Records calls head)
    (hdigest : ∀ c c' : Command, H.command c = H.command c' → c.val.kind = c'.val.kind)
    (hsha : head.val.commandSha256 = H.command command) (hkind : command.val.kind = .rearm) :
    head.val.effectiveState = .running := by
  obtain ⟨maker, hmaker, hrunning⟩ := h.made
  exact hrunning ((hdigest maker command (hmaker.symm.trans hsha)).trans hkind)

/-- After an overflow no call with a re-arm returns, and the overflow stays. -/
theorem Records.overflow_step (h : Records calls head)
    (hdigest : ∀ c c' : Command, H.command c = H.command c' → c.val.kind = c'.val.kind)
    (hoverflowed : head.val.blockerOverflowed =
      true) (hstep : ControlStep H (some head) call next) :
    call.command.val.kind ≠ .rearm ∧ ∃ head' ∈ next, head'.val.blockerOverflowed = true := by
  obtain ⟨happlied, -, rfl⟩ := hstep
  have hcases := applied_of_ok happlied
  generalize hafter : call.after = after at hcases
  have hstopped : head.val.effectiveState ≠ .running := by
    intro hrunning
    rw [h.overflowed, h.stopped hrunning] at hoverflowed
    simp at hoverflowed
  cases hcases with
  | repeated hsha =>
    exact ⟨fun hkind => hstopped (h.repeated_running hdigest hsha hkind), _, rfl, hoverflowed⟩
  | joined hkind hadvanced =>
    refine ⟨hkind, after, rfl, ?_⟩
    rcases hadvanced.blockers with ⟨hrunning, -, -⟩ | ⟨-, hblocks⟩
    · have hjoin := (severity_le_stateJoin head.val.effectiveState
        call.command.val.targetState).1
      rw [hrunning] at hjoin
      exact absurd (State.eq_running_of_severity (Nat.le_zero.1 hjoin)) hstopped
    · rw [hblocks.overflowed]
      simp only [Option.elim_some, hoverflowed, Bool.true_or]
  | rearmed hkind hevidence hvalid hadvanced =>
    rw [(validateRearm_spec hvalid).2.1] at hoverflowed
    cases hoverflowed

/-- Once the blockers overflowed no rearm goes through. -/
theorem no_rearm_after_overflow
    (hdigest : ∀ c c' : Command, H.command c = H.command c' → c.val.kind = c'.val.kind)
    (hbefore : Trace (ControlStep H) none calls (some head))
    (hoverflowed : head.val.blockerOverflowed = true)
    (hafter : Trace (ControlStep H) (some head) later current) :
    ∀ call ∈ later, call.command.val.kind ≠ .rearm := by
  refine Trace.labels_of_invariant (fun s => ∃ done head, s = some head ∧
    Trace (ControlStep H) none done (some head) ∧ head.val.blockerOverflowed = true)
    ⟨calls, head, rfl, hbefore, hoverflowed⟩ ?_ hafter
  rintro s₁ call s₂ ⟨done, head', rfl, hdone, hover⟩ hstep
  have hrecords := (recordsBefore_of_trace hdone).2 head' rfl
  obtain ⟨hkind, next, hnext, hover'⟩ := hrecords.overflow_step hdigest hover hstep
  obtain rfl : s₂ = some next := hnext
  exact ⟨⟨done ++ [call], next, rfl, hdone.snoc hstep, hover'⟩, hkind⟩

/-- Without a re-arm a call never lowers the severity. -/
theorem severity_le_of_applied (hkind : command.val.kind ≠ .rearm)
    (h : Applied H command decidedAt rearmEvidence (some head) result) :
    head.val.effectiveState.severity ≤ result.val.effectiveState.severity := by
  cases h with
  | repeated _ => exact le_rfl
  | joined _ hadvanced =>
    rw [hadvanced.effectiveState]
    exact (severity_le_stateJoin _ _).1
  | rearmed hrearm _ _ _ => exact absurd hrearm hkind

/-- Over every run from the absent state the severity only rises but for re-arms, a re-arm disposes
of every command accepted since the control last ran, and none is accepted after an overflow. -/
theorem control_history
    (hdigest : ∀ c c' : Command, H.command c = H.command c' → c.val.kind = c'.val.kind)
    (hrun : Trace (ControlStep H) none calls current) :
    (∀ call ∈ calls, call.command.val.kind ≠ .rearm → ∀ head ∈ call.before,
        head.val.effectiveState.severity ≤ call.after.val.effectiveState.severity) ∧
      (∀ earlier call later, calls = earlier ++ call :: later → call.command.val.kind = .rearm →
        call.accepted → ∃ head evidence, AcceptedRearm earlier call head evidence) ∧
      ∀ earlier call later, calls = earlier ++ call :: later →
        call.after.val.blockerOverflowed = true ∨
          maxBlockers < (sinceRunning (earlier ++ [call])).length →
        ∀ call' ∈ later, call'.command.val.kind ≠ .rearm := by
  refine ⟨?_, ?_, ?_⟩
  · refine Trace.labels_of_invariant (fun _ => True) trivial ?_ hrun
    rintro s₁ call s₂ - ⟨happlied, hbefore, -⟩
    refine ⟨trivial, fun hkind head hhead => ?_⟩
    obtain rfl : s₁ = some head := hbefore.symm.trans hhead
    exact severity_le_of_applied hkind (applied_of_ok happlied)
  · rintro earlier call later rfl hkind haccepted
    exact accepted_rearm hrun hkind haccepted
  · rintro earlier call later rfl hoverflow
    obtain ⟨s₁, s₂, hbefore, hstep, hlater⟩ := hrun.exists_step
    obtain rfl : s₂ = some call.after := hstep.2.2
    have hnow : Trace (ControlStep H) none (earlier ++ [call]) (some call.after) :=
      hbefore.snoc hstep
    have hrecords := (recordsBefore_of_trace hnow).2 call.after rfl
    refine no_rearm_after_overflow hdigest hnow ?_ hlater
    rcases hoverflow with hflag | hcount
    · exact hflag
    · rw [hrecords.overflowed]
      exact decide_eq_true hcount

/-! ## A run -/

/-- The plain digest of a command starts with its kind. -/
theorem plain_command_kind (c c' : Command)
    (h : ControlHashes.plain.command c = ControlHashes.plain.command c') :
    c.val.kind = c'.val.kind := by
  have hhead : c.val.kind.value.chars.head? = c'.val.kind.value.chars.head? := by
    have hchars := congrArg (·.chars.head?) h
    cases hc : c.val.kind <;> cases hc' : c'.val.kind <;>
      simp only [ControlHashes.plain, hc, hc'] at hchars <;> exact hchars
  cases hc : c.val.kind <;> cases hc' : c'.val.kind <;> rw [hc, hc'] at hhead <;>
    first | rfl | exact absurd hhead (by decide)

/-- The control is initialised and armed by an operator who disposes of the initialisation. -/
structure SampleRearm where
  (start rearm : Command)
  head : Transition ControlHashes.plain.toControlIds
  evidence : RearmEvidence ControlHashes.plain.toControlIds
  running : Transition ControlHashes.plain.toControlIds

def sampleRearm : Py SampleRearm := do
  let system ← (construct ⟨"system", .system, "authority", none⟩ : Py Actor)
  let operator ← (construct ⟨"operator", .human, "authority", some 0⟩ : Py Actor)
  let start ← (construct {
    scopeId := "account", idempotencyKey := "initialise", kind := .initializeHalted
    targetState := .halted, actor := system, reasonCode := "start", reasonEvidenceSha256 := "r"
    requestedAt := 5, rearmEvidenceSha256 := none, tripRuleId := none, tripPolicySha256 := none
    tripObservationSha256 := none } : Py Command)
  let head ← applyOperationalControlCommand .plain none start 10 none none
  let event ← getOrThrow head.val.blockingEvents.head? .keyError
  let disposition ← (construct ⟨event.val.eventId ControlHashes.plain.toControlIds,
    ControlHashes.plain.event event, "resolved", "r", 15⟩ : Py IncidentDisposition)
  let evidence ← (construct {
    scopeId := "account", currentTransitionId := head.val.transitionId
    currentTransitionSha256 := ControlHashes.plain.transition head, currentState := .halted
    currentStateEpochId := head.val.stateEpochId, targetState := .running, actor := operator
    checkedAt := 20, expiresAt := 40, readinessSha256 := "r", reconciliationSha256 := "r"
    incidentRegisterSha256 := "r", reconciliationClean := true, dataHealthy := true
    clockHealthy := true, workingOrderIds := [], unknownOrderIds := [], pendingCancelOrderIds := []
    incidentDispositions := [disposition], operationCompletion := none } :
    Py (RearmEvidence ControlHashes.plain.toControlIds))
  let rearm ← (construct {
    scopeId := "account", idempotencyKey := "rearm:001", kind := .rearm, targetState := .running
    actor := operator, reasonCode := "start", reasonEvidenceSha256 := "r", requestedAt := 25
    rearmEvidenceSha256 := some (ControlHashes.plain.evidence evidence), tripRuleId := none
    tripPolicySha256 := none, tripObservationSha256 := none } : Py Command)
  let running ← applyOperationalControlCommand .plain (some head) rearm 30 (some evidence) none
  return ⟨start, rearm, head, evidence, running⟩

theorem sample_control_history : ∃ (first last : ControlCall .plain)
    (current : Option (Transition ControlHashes.plain.toControlIds)),
    Trace (ControlStep .plain) none [first, last] current ∧ sinceRunning [first] = [first] ∧
      ∃ head evidence, AcceptedRearm [first] last head evidence := by
  have h : (fun x => (x.head.val.effectiveState, x.running.val.effectiveState, x.rearm.val.kind,
      decide (x.head = x.running))) <$> sampleRearm = .ok (.halted, .running, .rearm, false) := by
    decide +kernel
  simp only [sampleRearm, eq_ok] at h
  obtain ⟨_, ⟨_, -, _, -, start, -, head, hhead, _, -, _, -, evidence, -, rearm, -, running,
    hrunning, rfl⟩, hvalues⟩ := h
  simp only [Prod.mk.injEq, decide_eq_false_iff_not] at hvalues
  obtain ⟨hhalted, -, hkind, hnew⟩ := hvalues
  let first : ControlCall .plain := ⟨start, 10, none, none, none, head⟩
  let last : ControlCall .plain := ⟨rearm, 30, some evidence, none, some head, running⟩
  have hrun : Trace (ControlStep .plain) none [first, last] (some running) :=
    .snoc (.snoc .nil ⟨hhead, rfl, rfl⟩) ⟨hrunning, rfl, rfl⟩
  refine ⟨first, last, some running, hrun, ?_, ?_⟩
  · have hstopped : first.after.val.effectiveState ≠ .running := by
      rw [show first.after.val.effectiveState = .halted from hhalted]
      decide
    have haccepted : first.accepted := by simp [ControlCall.accepted, first]
    rw [← List.nil_append [first], sinceRunning_stopped hstopped, if_pos haccepted]
    rfl
  · have haccepted : last.accepted := fun hsame => hnew (Option.some.inj hsame)
    exact (control_history plain_command_kind hrun).2.1 [first] last [] rfl hkind haccepted

end AutoQuantTrader.OperationalControl
