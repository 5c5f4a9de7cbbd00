import AutoQuantTrader.CriticalAlertHistory
import AutoQuantTrader.Identifiers

/-!
# Alerts are sent at most once and end in time

Only the supervisor that won the claim of a route calls its provider, once, so over any interleaving
of supervisors, crashed ones included, a provider is called at most once for an incident.  The
instant of the decision bounds when requests are made, and decides what is shown after the
deadlines.
-/

namespace AutoQuantTrader.CriticalAlert

open Result Concurrent Sorting

variable {H : AlertHashes} {F : FloatArithmetic} {incident : Incident} {plan : RoutePlan}
  {attempts : List DeliveryAttempt} {results : List DeliveryResult} {attempt : DeliveryAttempt}
  {result : DeliveryResult} {command : DeliveryCommand} {incidentId : Str} {route : Route}
  {started w w' : World} {t : Instant}

/-! ## What a log shows -/

abbrev AlertEvent (F : FloatArithmetic) := Event (Operation F) Operation.Answer

/-- The incident and the route of a call of a provider. -/
def deliveredTo : AlertEvent F → Option (Str × Route)
  | ⟨.deliver request _, _⟩ => some (request.incidentId, request.route)
  | _ => none

/-- The incident and the route of a claim that was won. -/
def claimWon : AlertEvent F → Option (Str × Route)
  | ⟨.claimDeliveryAttempt command, answer⟩ =>
    match (answer : Py (DeliveryAttempt × Bool)) with
    | .ok (_, true) => some (command.val.incidentId, command.val.route)
    | _ => none
  | _ => none

def utcReading : AlertEvent F → Option Instant
  | ⟨.readUtc, t⟩ => some t
  | _ => none

def loadedIncident : AlertEvent F → Option Incident
  | ⟨.loadIncident _, answer⟩ =>
    match (answer : Py Incident) with
    | .ok incident => some incident
    | .error _ => none
  | _ => none

/-- The instant at which a supervisor decides: the first reading of its clock. -/
def decisionAt (log : List (AlertEvent F)) : Option Instant := log.findSome? utcReading

/-- The incident that a supervisor works on. -/
def incidentOf (log : List (AlertEvent F)) : Option Incident := log.findSome? loadedIncident

variable {α : Type}

theorem findSome?_of_prefix {β : Type} {f : α → Option β} {l l' : List α} {b : β}
    (h : l.findSome? f = some b) (hle : l <+: l') : l'.findSome? f = some b := by
  obtain ⟨rest, rfl⟩ := hle
  rw [List.findSome?_append, h, Option.some_or]

/-- The supervisor won the claim of a route with a request made at an instant. -/
def ClaimedAt (log : List (AlertEvent F)) (incidentId : Str) (route : Route) (t : Instant) : Prop :=
  ∃ command attempt, ⟨.claimDeliveryAttempt command, .ok (attempt, true)⟩ ∈ log ∧
    command.val.incidentId = incidentId ∧ command.val.route = route ∧ command.val.requestedAt = t

variable {log : List (AlertEvent F)}

theorem ClaimedAt.won (h : ClaimedAt log incidentId route t) :
    (incidentId, route) ∈ log.filterMap claimWon := by
  obtain ⟨command, attempt, hevent, rfl, rfl, -⟩ := h
  exact List.mem_filterMap.2 ⟨_, hevent, rfl⟩

theorem ClaimedAt.of_prefix (h : ClaimedAt log incidentId route t) (hle : log <+: log') :
    ClaimedAt log' incidentId route t := by
  obtain ⟨command, attempt, hevent, hcommand⟩ := h
  exact ⟨command, attempt, hle.subset hevent, hcommand⟩

/-- A delivery of the incident in budget is in the store. -/
def ConfirmedIn (H : AlertHashes) (w : World) (incidentId : Str) : Prop :=
  ∃ rows, w.store.get? incidentId = some rows ∧ ∃ attempt ∈ rows.attempts,
    ∃ result ∈ rows.results, deliveryMilestoneMet H rows.incident attempt result = .ok true

/-- The log of a supervisor, at any point: it calls a provider only for a claim that it won, by a
request in the window of the route, and not at all if the incident was confirmed when it started. -/
structure GoodLog (H : AlertHashes) (incidentId : Str) (started : World)
    (log : List (AlertEvent F)) : Prop where
  once : (log.filterMap deliveredTo).Sublist (log.filterMap claimWon)
  inTime : ∀ event ∈ log, ∀ id route, deliveredTo event = some (id, route) → id = incidentId ∧
    ∃ incident t, incidentOf log = some incident ∧ ClaimedAt log id route t ∧
      (route = .escalation → incident.val.primaryDeadline ≤ t) ∧ t < deliveryDeadline incident route
  unconfirmed : ConfirmedIn H started incidentId → ∀ event ∈ log, deliveredTo event = none

/-- The result of a supervisor. -/
structure GoodResult (H : AlertHashes) (incidentId : Str) (started : World)
    (log : List (AlertEvent F)) (result : Py Evidence) : Prop where
  confirmed : ConfirmedIn H started incidentId →
    ∃ evidence, result = .ok evidence ∧ evidence.val.disposition = .confirmed
  inTime : ∀ evidence, result = .ok evidence → ∃ incident t, incidentOf log = some incident ∧
    decisionAt log = some t ∧ started.now ≤ t ∧ (incident.val.escalationDeadline ≤ t →
      evidence.val.disposition = .confirmed ∨ evidence.val.disposition = .totalDeliveryFailure)

variable {log : List (AlertEvent F)} {event : AlertEvent F}

/-- No provider was called so far. -/
def Quiet (log : List (AlertEvent F)) : Prop := ∀ event ∈ log, deliveredTo event = none

theorem Quiet.snoc (h : Quiet log) (hevent : deliveredTo event = none) :
    Quiet (log ++ [event]) := by
  simp only [Quiet, List.forall_mem_append, List.forall_mem_singleton]
  exact ⟨h, hevent⟩

theorem quiet_nil : Quiet (F := F) [] := fun _ hevent => absurd hevent List.not_mem_nil

theorem Quiet.filterMap (h : Quiet log) : log.filterMap deliveredTo = [] :=
  List.filterMap_eq_nil_iff.2 h

/-- A log without deliveries is good. -/
theorem Quiet.good (h : Quiet log) : GoodLog H incidentId started log where
  once := by rw [h.filterMap]; exact List.nil_sublist _
  inTime := fun event hevent id route hdelivered => by
    rw [h event hevent] at hdelivered
    cases hdelivered
  unconfirmed := fun _ => h

/-- Any event but a delivery keeps the log good. -/
theorem GoodLog.snoc (h : GoodLog H incidentId started log) (hevent : deliveredTo event = none) :
    GoodLog H incidentId started (log ++ [event]) := by
  refine ⟨?_, ?_, ?_⟩
  · simp only [List.filterMap_append, List.filterMap_cons, hevent, List.filterMap_nil,
      List.append_nil]
    exact h.once.trans (List.sublist_append_left _ _)
  · intro other hother id route hdelivered
    rcases List.mem_append.1 hother with hold | hnew
    · obtain ⟨hid, incident, t, hincident, hclaim, hwindow⟩ :=
        h.inTime other hold id route hdelivered
      exact ⟨hid, incident, t, findSome?_of_prefix hincident (List.prefix_append _ _),
        hclaim.of_prefix (List.prefix_append _ _), hwindow⟩
    · rw [List.mem_singleton.1 hnew, hevent] at hdelivered
      cases hdelivered
  · intro hconfirmed
    exact forall_mem_snoc.2 ⟨h.unconfirmed hconfirmed, hevent⟩

/-- A supervisor before it calls a provider: it has loaded the incident and read its clock. -/
structure Deciding (started : World) (incident : Incident) (t : Instant)
    (log : List (AlertEvent F)) : Prop where
  quiet : Quiet log
  incident : incidentOf log = some incident
  decision : decisionAt log = some t
  begun : started.now ≤ t

theorem Deciding.snoc (h : Deciding started incident t log) (hevent : deliveredTo event = none) :
    Deciding started incident t (log ++ [event]) where
  quiet := h.quiet.snoc hevent
  incident := findSome?_of_prefix h.incident (List.prefix_append _ _)
  decision := findSome?_of_prefix h.decision (List.prefix_append _ _)
  begun := h.begun

variable {request : ProviderRequest}

/-- The first call of a provider, for a claim that was won. -/
theorem Deciding.deliver (h : Deciding started incident t log) {timeout : F.Value}
    {answer : ProviderAnswer} (hclaim : ClaimedAt log incidentId route t)
    (hid : request.incidentId = incidentId) (hroute : request.route = route)
    (hearly : route = .escalation → incident.val.primaryDeadline ≤ t)
    (hlate : t < deliveryDeadline incident route)
    (hunconfirmed : ¬ ConfirmedIn H started incidentId) :
    GoodLog H incidentId started (log ++ [⟨.deliver request timeout, answer⟩]) := by
  have hdelivered : deliveredTo (F := F)
      ⟨.deliver request timeout, answer⟩ = some (incidentId, route) := by
    show some (request.incidentId, request.route) = _
    rw [hid, hroute]
  refine ⟨?_, ?_, fun hconfirmed => absurd hconfirmed hunconfirmed⟩
  · simp only [List.filterMap_append, h.quiet.filterMap, List.filterMap_cons, hdelivered,
      List.filterMap_nil, List.nil_append]
    exact (List.singleton_sublist.2 hclaim.won).trans (List.sublist_append_left _ _)
  · intro other hother id route' hother'
    rcases List.mem_append.1 hother with hold | hnew
    · rw [h.quiet other hold] at hother'
      cases hother'
    · rw [List.mem_singleton.1 hnew, hdelivered] at hother'
      obtain ⟨rfl, rfl⟩ := Prod.mk.inj (Option.some.inj hother')
      exact ⟨rfl, incident, t, findSome?_of_prefix h.incident (List.prefix_append _ _),
        hclaim.of_prefix (List.prefix_append _ _), hearly, hlate⟩

/-! ## Rules for the operations -/

/-- The discipline of supervisors of one plan. -/
def discipline (H : AlertHashes) (F : FloatArithmetic) (plan : RoutePlan) :
    Discipline World (Operation F) Operation.Answer (perform H F) where
  inv := PlanStore H plan
  allowed := Allowed H plan
  grows := World.Grows
  refl := World.Grows.refl
  trans := World.Grows.trans
  keeps := planStore_keeps

/-- A computation that keeps its log good and ends as the postcondition says. -/
abbrev Keeps (H : AlertHashes) (F : FloatArithmetic) (plan : RoutePlan) (incidentId : Str)
    (started : World) {α : Type} (post : List (AlertEvent F) → Py α → Prop)
    (code : Supervised F α) (log : List (AlertEvent F)) (w : World) : Prop :=
  Follows (discipline H F plan) (GoodLog H incidentId started) (fun log result _ => post log result)
    code log w

variable {α β : Type} {post : List (AlertEvent F) → Py β → Prop} {op : Operation F}

/-- One quiet operation: it is always allowed, and its answer leads on. -/
theorem keeps_quiet {post : List (AlertEvent F) → Except PyError op.Answer → World → Prop}
    (hgood : GoodLog H incidentId started log) (hquiet : ∀ answer, deliveredTo ⟨op, answer⟩ = none)
    (hallowed : ∀ w', w.Grows w' → PlanStore H plan w' → Allowed H plan w' op)
    (h : ∀ answer w' w'' w₃, w.Grows w' → PlanStore H plan w' → perform H F w' op answer w'' →
      w''.Grows w₃ → post (log ++ [⟨op, answer⟩]) (.ok answer) w₃) :
    Follows (discipline H F plan) (GoodLog H incidentId started) post (.perform op) log w := by
  refine follows_perform fun w' hgrows hinv => ⟨hallowed w' hgrows hinv, ?_⟩
  intro answer w'' hperform _
  exact ⟨hgood.snoc (hquiet answer), fun w₃ hgrows₃ _ =>
    h answer w' w'' w₃ hgrows hinv hperform hgrows₃⟩

variable {f : α → Supervised F β}

/-- A transaction that may raise, followed by more. -/
theorem keeps_transact {transaction : Supervised F (Py α)}
    (h : Follows (discipline H F plan) (GoodLog H incidentId started)
      (fun log (answer : Py (Py α)) w =>
        match answer with
        | .ok (.ok a) => Keeps H F plan incidentId started post (f a) log w
        | .ok (.error e) => post log (.error e)
        | .error e => post log (.error e)) transaction log w) :
    Keeps H F plan incidentId started post (transact F transaction >>= f) log w := by
  refine follows_bind (follows_bind (h.mono ?_))
  intro log' answer w' _ _ hanswer
  match answer, hanswer with
  | .error e, hanswer => exact hanswer
  | .ok (.error e), hanswer => exact fun _ _ _ => hanswer
  | .ok (.ok a), hanswer => exact fun w'' hgrows _ => Follows.stable hanswer hgrows

variable {x : Py α}

/-- Code that touches nothing, followed by more. -/
theorem keeps_lift (hraise : ∀ log e, post log (.error e))
    (h : ∀ a, x = .ok a → Keeps H F plan incidentId started post (f a) log w) :
    Keeps H F plan incidentId started post (.lift x >>= f) log w :=
  follows_lift_bind h fun e _ _ _ _ => hraise log e

theorem keeps_readMonotonic {f : F.Value → Supervised F β} (hraise : ∀ log e, post log (.error e))
    (hgood : GoodLog H incidentId started log) (h : ∀ value w', w.Grows w' →
      Keeps H F plan incidentId started post (f value) (log ++ [⟨.readMonotonic, value⟩]) w') :
    Keeps H F plan incidentId started post (readMonotonic F previous >>= f) log w := by
  refine follows_bind (follows_bind ?_)
  refine keeps_quiet hgood (fun _ => rfl) (fun _ _ _ => trivial) ?_
  intro value w' w'' w₃ hgrows _ hperform hgrows₃
  obtain rfl : w'' = w' := hperform
  refine follows_lift_bind (fun _ _ => follows_lift_bind (fun _ _ => ?_) ?_) ?_
  · exact fun w₄ hgrows₄ _ => h value w₄ ((hgrows.trans hgrows₃).trans hgrows₄)
  · exact fun e _ _ _ _ => hraise _ e
  · exact fun e _ _ _ _ => hraise _ e

theorem keeps_readUtc {f : Instant → Supervised F β} (hgood : GoodLog H incidentId started log)
    (h : ∀ t w', w.Grows w' → w.now ≤ t →
      Keeps H F plan incidentId started post (f t) (log ++ [⟨.readUtc, t⟩]) w') :
    Keeps H F plan incidentId started post (readUtc F >>= f) log w := by
  refine follows_bind (keeps_quiet hgood (fun _ => rfl) (fun _ _ _ => trivial) ?_)
  intro t w' w'' w₃ hgrows _ hperform hgrows₃
  obtain ⟨hnow, rfl⟩ := hperform
  have hread : w'.Grows { w' with now := t } := World.grows_now hnow rfl
  exact h t w₃ ((hgrows.trans hread).trans hgrows₃) (hgrows.now.trans hnow)

/-! ## Delivery -/

/-- The delivery shows an attempt of the route. -/
def ShowsRoute (F : FloatArithmetic) (route : Route) (_ : List (AlertEvent F))
    (result : Py DeliveryRun) : Prop :=
  ∀ run, result = .ok run → run.attempt.val.route = route

theorem showsRoute_raise (log : List (AlertEvent F)) (e : PyError) :
    ShowsRoute F route log (.error e) := by
  intro run hrun
  cases hrun

/-- Recording a result keeps the log good. -/
theorem keeps_recordRun (hgood : GoodLog H incidentId started log)
    (hroute : attempt.val.route = route) : Keeps H F plan incidentId started (ShowsRoute F route)
      (recordRun F incident attempt result providerCalled) log w := by
  refine keeps_transact (keeps_quiet hgood (fun _ => rfl) (fun _ _ _ => trivial) ?_)
  intro answer w' w'' w₃ _ _ _ _
  match answer with
  | .error e => exact showsRoute_raise _ e
  | .ok recorded =>
    refine follows_pure fun _ _ _ run hrun => ?_
    rw [← Except.ok.inj hrun]
    exact hroute

variable {first : F.Value}

/-- A missed deadline is recorded without a delivery. -/
theorem keeps_missDeadline (hgood : GoodLog H incidentId started log)
    (hroute : attempt.val.route = route) : Keeps H F plan incidentId started (ShowsRoute F route)
      (missDeadline H F incident attempt first last) log w := by
  refine keeps_readUtc hgood fun t w' _ _ => ?_
  refine keeps_lift showsRoute_raise fun elapsed _ => ?_
  refine keeps_lift showsRoute_raise fun result _ => ?_
  exact keeps_recordRun (hgood.snoc rfl) hroute

/-- Sending keeps the log good where its one delivery does. -/
theorem keeps_send
    (hgood : ∀ answer,
      GoodLog H incidentId started (log ++ [⟨.deliver request remainingSeconds, answer⟩]))
    (hroute : attempt.val.route = route) : Keeps H F plan incidentId started (ShowsRoute F route)
      (send H F incident attempt request deadline deadlineSeconds remainingSeconds first last) log
      w := by
  refine follows_bind (follows_perform fun w' _ _ => ⟨trivial, fun answer w'' _ _ =>
    ⟨hgood answer, fun w₃ _ _ => ?_⟩⟩)
  refine keeps_lift showsRoute_raise fun sent _ => ?_
  refine keeps_readMonotonic showsRoute_raise (hgood answer) fun completed w₄ _ => ?_
  have hgood' : GoodLog H incidentId started
      (log ++ [⟨.deliver request remainingSeconds, answer⟩] ++
      [⟨.readMonotonic, completed⟩]) := (hgood answer).snoc rfl
  refine keeps_readUtc hgood' fun t w₅ _ _ => ?_
  refine keeps_lift showsRoute_raise fun elapsed _ => ?_
  refine keeps_lift showsRoute_raise fun result _ => ?_
  exact keeps_recordRun (hgood'.snoc rfl) hroute

/-- An attempt claimed before is shown without a delivery. -/
theorem keeps_showAttempt (hgood : GoodLog H incidentId started log)
    (hroute : attempt.val.route = route) :
    Keeps H F plan incidentId started (ShowsRoute F route) (showAttempt H F incident attempt) log
    w := by
  refine keeps_transact (keeps_quiet hgood (fun _ => rfl) (fun _ _ _ => trivial) ?_)
  intro answer w' w'' w₃ _ _ _ _
  match answer with
  | .error e => exact showsRoute_raise _ e
  | .ok result =>
    refine follows_pure fun _ _ _ run hrun => ?_
    rw [← Except.ok.inj hrun]
    exact hroute

/-- The window of a route, for a request at an instant. -/
def InWindow (incident : Incident) (t : Instant) (route : Route) : Prop :=
  route = .primary ∧ t < incident.val.primaryDeadline ∨
    route = .escalation ∧ incident.val.primaryDeadline ≤ t

/-- Delivering a claimed attempt in its window keeps the log good. -/
theorem keeps_deliverClaimed (hdeciding : Deciding started incident t log)
    (hclaim : ClaimedAt log incidentId route t) (hid : request.incidentId = incidentId)
    (hrequest : request.route = route) (hroute : attempt.val.route = route)
    (hwindow : InWindow incident t route) (hunconfirmed : ¬ ConfirmedIn H started incidentId) :
    Keeps H F plan incidentId started (ShowsRoute F route)
      (deliverClaimed H F incident route attempt request t first) log w := by
  refine keeps_readMonotonic showsRoute_raise hdeciding.quiet.good fun last w' _ => ?_
  have hdeciding' : Deciding started incident t (log ++ [⟨.readMonotonic, last⟩]) :=
    hdeciding.snoc rfl
  dsimp only
  split
  · exact keeps_missDeadline hdeciding'.quiet.good hroute
  · next hlate =>
    refine keeps_send (fun answer => ?_) hroute
    refine hdeciding'.deliver (hclaim.of_prefix (List.prefix_append _ _)) hid hrequest ?_
      (not_le.1 (not_or.1 hlate).1) hunconfirmed
    rintro rfl
    rcases hwindow with ⟨hprimary, -⟩ | ⟨-, hdeadline⟩
    · cases hprimary
    · exact hdeadline

/-- The store holds an incident. -/
def Stored (w : World) (incidentId : Str) (incident : Incident) : Prop :=
  ∃ rows, w.store.get? incidentId = some rows ∧ rows.incident = incident

theorem Stored.grows (h : Stored w incidentId incident) (hgrows : w.Grows w') :
    Stored w' incidentId incident := by
  obtain ⟨rows, hrows, hincident⟩ := h
  obtain ⟨rows', hrows', hsame, -⟩ := hgrows.rows incidentId rows hrows
  exact ⟨rows', hrows', hsame.trans hincident⟩

/-- Whoever claims is shown an attempt of the route it claims. -/
theorem route_of_claim {answer : Py (DeliveryAttempt × Bool)} {claim : DeliveryAttempt × Bool}
    (hperform : perform H F w (.claimDeliveryAttempt command) answer w')
    (hanswer : answer = .ok claim) : claim.1.val.route = command.val.route := by
  obtain ⟨-, hcommits⟩ := hperform
  unfold commits at hcommits
  split at hcommits
  · next claim' store hclaim =>
    obtain ⟨hsame, -⟩ := hcommits
    obtain rfl : claim' = claim := Except.ok.inj (hsame.symm.trans hanswer)
    cases claims_of_ok hclaim with
    | existing _ _ hroute => exact hroute
    | created _ _ hnew => exact congrArg (·.route) hnew.requested
  · rw [hcommits.1] at hanswer
    cases hanswer

/-- Only the supervisor that won the claim delivers. -/
theorem keeps_claimAndDeliver (hdeciding : Deciding started incident t log)
    (hstored : Stored w incidentId incident) (hplanned : Planned H plan incident command.val)
    (hcommand : command.val.incidentId = incidentId) (hrequested : command.val.requestedAt = t)
    (hroute : command.val.route = route) (hid : request.incidentId = incidentId)
    (hrequest : request.route = route) (hunconfirmed : ¬ ConfirmedIn H started incidentId) :
    Keeps H F plan incidentId started (ShowsRoute F route)
      (claimAndDeliver H F incident route command request first) log w := by
  refine keeps_transact (keeps_quiet hdeciding.quiet.good (fun _ => rfl) (fun _ _ _ => trivial) ?_)
  intro answer w₁ w₂ w₃ hgrows _ hperform hgrows₃
  obtain ⟨-, rfl⟩ := hperform
  have hdeciding₁ : Deciding started incident t (log ++ [⟨.loadDeliveryHistory _, answer⟩]) :=
    hdeciding.snoc rfl
  match answer, hdeciding₁ with
  | .error e, _ => exact showsRoute_raise _ e
  | .ok (attempts, results), hdeciding₁ =>
    refine keeps_lift showsRoute_raise fun _ _ => ?_
    refine keeps_transact (keeps_quiet hdeciding₁.quiet.good (fun _ => rfl) ?_ ?_)
    · intro w₄ hgrows₄ _
      obtain ⟨rows, hrows, hincident⟩ := hstored.grows ((hgrows.trans hgrows₃).trans hgrows₄)
      exact ⟨rows, hcommand ▸ hrows, hincident ▸ hplanned⟩
    · intro claim w₄ w₅ w₆ _ _ hclaim _
      match claim, hclaim with
      | .error e, _ => exact showsRoute_raise _ e
      | .ok (attempt, false), hclaim =>
        exact keeps_showAttempt (hdeciding₁.quiet.good.snoc rfl)
          ((route_of_claim hclaim rfl).trans hroute)
      | .ok (attempt, true), hclaim =>
        have hdeciding₂ : Deciding started incident t
            (_ ++ [⟨.claimDeliveryAttempt command, .ok (attempt, true)⟩]) :=
          hdeciding₁.snoc rfl
        have hwindow : InWindow incident t route := by
          rw [← hrequested, ← hroute]
          exact hplanned.window
        refine hrequested ▸ keeps_deliverClaimed (hrequested ▸ hdeciding₂) ?_ hid hrequest
          ((route_of_claim hclaim rfl).trans hroute) (hrequested ▸ hwindow) hunconfirmed
        exact ⟨command, attempt, List.mem_append_right _ List.mem_cons_self, hcommand,
          hroute, hrequested⟩

/-! ## Supervision -/

theorem disposition_of_evidence {observedAt : Instant} {attempt : Option DeliveryAttempt}
    {result : Option DeliveryResult} {waitUntil : Option Instant}
    (h : evidence H incident plan reason observedAt route attempt result waitUntil providerCalled =
      .ok shown) : shown.val.disposition = reason.disposition := by
  rw [evidence, construct_eq_ok] at h
  exact congrArg (·.disposition) h

/-- Evidence about a delivery of the escalation that was decided on after its deadline. -/
theorem fromDeliveryRun_late {run : DeliveryRun} (hroute : run.attempt.val.route = .escalation)
    (hlate : incident.val.escalationDeadline ≤ t)
    (h : fromDeliveryRun H incident plan run t = .ok shown) :
    shown.val.disposition = .confirmed ∨ shown.val.disposition = .totalDeliveryFailure := by
  simp only [fromDeliveryRun, eq_ok] at h
  obtain ⟨met, -, h⟩ := h
  split at h
  · rw [hroute] at h
    exact .inl (disposition_of_evidence h)
  · refine .inr ?_
    have hobserved : incident.val.escalationDeadline ≤ run.observedAt t := by
      unfold DeliveryRun.observedAt
      split <;> exact hlate.trans (le_max_left _ _)
    rw [fromFailedRun, hroute] at h
    cases hresult : run.result with
    | none =>
      rw [hresult] at h
      simp only [if_pos hobserved] at h
      exact disposition_of_evidence h
    | some result =>
      rw [hresult] at h
      exact disposition_of_evidence h

theorem GoodResult.raise (hunconfirmed : ¬ ConfirmedIn H started incidentId)
    (log : List (AlertEvent F)) (e : PyError) : GoodResult H incidentId started log (.error e) where
  confirmed := fun hconfirmed => absurd hconfirmed hunconfirmed
  inTime := fun evidence herror => by cases herror

/-- A result of a supervisor that decided at an instant. -/
theorem Deciding.goodResult (hdeciding : Deciding started incident t log) (hle : log <+: log')
    (hunconfirmed : ¬ ConfirmedIn H started incidentId) {shown : Py Evidence}
    (h : ∀ evidence, shown = .ok evidence → incident.val.escalationDeadline ≤ t →
      evidence.val.disposition = .confirmed ∨ evidence.val.disposition = .totalDeliveryFailure) :
    GoodResult H incidentId started log' shown where
  confirmed := fun hconfirmed => absurd hconfirmed hunconfirmed
  inTime := fun evidence hshown => ⟨incident, t, findSome?_of_prefix hdeciding.incident hle,
    findSome?_of_prefix hdeciding.decision hle, hdeciding.begun, h evidence hshown⟩

theorem primaryDeadline_lt_escalationDeadline (incident : IncidentFields) :
    incident.primaryDeadline < incident.escalationDeadline := by
  simp only [IncidentFields.primaryDeadline, IncidentFields.escalationDeadline]
  linarith

section unconfirmed

variable (hdeciding : Deciding started incident t log) (hstored : Stored w incidentId incident)
  (hid : incident.incidentId H.canonicalId = incidentId)
  (hunconfirmed : ¬ ConfirmedIn H started incidentId)

include hdeciding hunconfirmed

/-- The supervisor ends without another call. -/
theorem keeps_shown {x : Py Evidence} (h : ∀ evidence, x = .ok evidence →
      incident.val.escalationDeadline ≤ t →
      evidence.val.disposition = .confirmed ∨ evidence.val.disposition = .totalDeliveryFailure) :
    Keeps H F plan incidentId started (GoodResult H incidentId started) (.lift x) log w :=
  follows_lift fun _ _ _ => hdeciding.goodResult List.prefix_rfl hunconfirmed h

include hstored hid

/-- An alert asked for in its route's window keeps the log good. -/
theorem keeps_deliverCriticalAlert (hwindow : InWindow incident t route) :
    Keeps H F plan incidentId started (ShowsRoute F route)
      (deliverCriticalAlert H F incident route (routeKey H incident plan route)
        (plan.bindingFor route).val.providerId t) log w := by
  refine keeps_lift showsRoute_raise fun request hrequest => ?_
  refine keeps_readMonotonic showsRoute_raise hdeciding.quiet.good fun first w₁ hgrows₁ => ?_
  have hdeciding₁ : Deciding started incident t (log ++ [⟨.readMonotonic, first⟩]) :=
    hdeciding.snoc rfl
  refine keeps_lift showsRoute_raise fun command hcommand => ?_
  rw [construct_eq_ok] at hcommand
  have hfields : request.incidentId = incident.incidentId H.canonicalId ∧ request.route = route ∧
      request.providerId = (plan.bindingFor route).val.providerId ∧
      request.idempotencyKey = routeKey H incident plan route := by
    simp only [ProviderRequest.bind, eq_ok] at hrequest
    obtain ⟨_, -, rfl⟩ := hrequest
    exact ⟨rfl, rfl, rfl, rfl⟩
  obtain ⟨hrequestId, hrequestRoute, hprovider, hkey⟩ := hfields
  have hplanned : Planned H plan incident command.val := by
    rw [hcommand]
    exact ⟨⟨request, hrequest, hprovider.symm, hkey.symm, rfl⟩, hwindow⟩
  refine keeps_transact (keeps_quiet hdeciding₁.quiet.good (fun _ => rfl) (fun _ _ _ => trivial) ?_)
  intro answer w₂ w₃ w₄ hgrows₂ _ hperform hgrows₄
  obtain ⟨-, rfl⟩ := hperform
  have hdeciding₂ : Deciding started incident t (_ ++ [⟨.findDeliveryAttempt _ _ _, answer⟩]) :=
    hdeciding₁.snoc rfl
  rcases answer with e | existing | existing
  · exact showsRoute_raise _ e
  · refine keeps_claimAndDeliver hdeciding₂ (hstored.grows ((hgrows₁.trans hgrows₂).trans hgrows₄))
        hplanned ?_ ?_ ?_ (hrequestId.trans hid) hrequestRoute hunconfirmed
    · rw [hcommand]; exact hid
    · rw [hcommand]
    · rw [hcommand]
  · refine keeps_lift showsRoute_raise fun _ hsame => ?_
    rw [raiseIf_eq_ok, not_or, not_not] at hsame
    exact keeps_showAttempt hdeciding₂.quiet.good hsame.1

theorem keeps_deliverRoute (hwindow : InWindow incident t route) :
    Keeps H F plan incidentId started (GoodResult H incidentId started)
      (deliverRoute H F plan incident route t) log w := by
  refine follows_bind
    ((keeps_deliverCriticalAlert hdeciding hstored hid hunconfirmed hwindow).mono ?_)
  intro log' result w' hle _ hroute
  match result, hroute with
  | .error e, _ => exact GoodResult.raise hunconfirmed log' e
  | .ok run, hroute =>
    refine follows_lift fun _ _ _ => hdeciding.goodResult hle hunconfirmed
      fun evidence hevidence hlate => ?_
    rcases hwindow with ⟨-, hearly⟩ | ⟨hescalation, -⟩
    · have hdeadlines := primaryDeadline_lt_escalationDeadline incident.val
      linarith
    · exact fromDeliveryRun_late ((hroute run rfl).trans hescalation) hlate hevidence

/-- An unconfirmed incident is tried on each route in its own window. -/
theorem keeps_superviseUnconfirmed :
    Keeps H F plan incidentId started (GoodResult H incidentId started)
      (superviseUnconfirmed H F plan incident attempts results t) log w := by
  have hdeadlines := primaryDeadline_lt_escalationDeadline incident.val
  unfold superviseUnconfirmed
  dsimp only
  split
  · next hearly =>
    split
    · exact keeps_deliverRoute hdeciding hstored hid hunconfirmed (.inl ⟨rfl, hearly⟩)
    · refine keeps_shown hdeciding hunconfirmed fun evidence _ hlate => ?_
      linarith
  · next hlate =>
    split
    · exact keeps_deliverRoute hdeciding hstored hid hunconfirmed (.inr ⟨rfl, not_lt.1 hlate⟩)
    · split
      · exact keeps_shown hdeciding hunconfirmed fun evidence hevidence _ =>
          .inr (disposition_of_evidence hevidence)
      · split
        · exact keeps_shown hdeciding hunconfirmed fun evidence hevidence _ =>
            .inr (disposition_of_evidence hevidence)
        · next hdeadline =>
          exact keeps_shown hdeciding hunconfirmed fun evidence _ hlate' => absurd hlate' hdeadline

/-- A confirmed incident is only shown, an unconfirmed one supervised. -/
theorem keeps_supervise :
    Keeps H F plan incidentId started (GoodResult H incidentId started)
      (supervise H F plan incident attempts results t) log w := by
  refine keeps_lift (GoodResult.raise hunconfirmed) fun _ _ => ?_
  refine keeps_lift (GoodResult.raise hunconfirmed) fun confirmed _ => ?_
  match confirmed with
  | none => exact keeps_superviseUnconfirmed hdeciding hstored hid hunconfirmed
  | some (attempt, result) =>
    refine keeps_shown hdeciding hunconfirmed fun evidence hevidence _ => ?_
    refine .inl ((disposition_of_evidence hevidence).trans ?_)
    cases attempt.val.route <;> rfl

end unconfirmed

theorem stored_of_loadIncident {answer : Py Incident}
    (hperform : perform H F w (.loadIncident incidentId) answer w')
    (hanswer : answer = .ok incident) : w' = w ∧ Stored w incidentId incident := by
  obtain ⟨hload, hsame⟩ := hperform
  rw [hload, Repository.loadIncident, bind_eq_ok] at hanswer
  obtain ⟨rows, hrows, hincident⟩ := hanswer
  exact ⟨hsame, rows, getOrThrow_eq_ok.1 hrows, pure_eq_ok.1 hincident⟩

/-- A supervisor of an incident that was not confirmed when it started. -/
theorem keeps_runOnce_unconfirmed (hunconfirmed : ¬ ConfirmedIn H started incidentId) :
    Keeps H F plan incidentId started (GoodResult H incidentId started)
      (runOnce H F plan incidentId) [] started := by
  refine keeps_lift (GoodResult.raise hunconfirmed) fun _ _ => ?_
  refine keeps_transact (keeps_quiet quiet_nil.good (fun _ => rfl) (fun _ _ _ => trivial) ?_)
  intro answer w₁ w₂ w₃ hgrows₁ _ hperform hgrows₃
  match answer, hperform with
  | .error e, _ => exact GoodResult.raise hunconfirmed _ e
  | .ok incident, hperform =>
    obtain ⟨rfl, hstored⟩ := stored_of_loadIncident hperform rfl
    refine keeps_lift (GoodResult.raise hunconfirmed) fun _ hid => ?_
    rw [raiseIf_eq_ok, not_not] at hid
    have hquiet : Quiet (F := F) ([] ++ [⟨.loadIncident incidentId, .ok incident⟩]) :=
      quiet_nil.snoc rfl
    refine keeps_transact (keeps_quiet hquiet.good (fun _ => rfl) (fun _ _ _ => trivial) ?_)
    intro answer w₄ w₅ w₆ hgrows₄ _ hhistory hgrows₆
    obtain ⟨-, rfl⟩ := hhistory
    have hquiet' : Quiet (F := F) ([] ++ [⟨.loadIncident incidentId, .ok incident⟩] ++
        [⟨.loadDeliveryHistory incidentId, answer⟩]) := hquiet.snoc rfl
    match answer, hquiet' with
    | .error e, _ => exact GoodResult.raise hunconfirmed _ e
    | .ok (attempts, results), hquiet' =>
      refine keeps_lift (GoodResult.raise hunconfirmed) fun _ _ => ?_
      refine keeps_lift (GoodResult.raise hunconfirmed) fun _ _ => ?_
      refine keeps_readUtc hquiet'.good fun t w₇ hgrows₇ hnow => ?_
      have hgrows := (hgrows₃.trans hgrows₄).trans hgrows₆
      exact keeps_supervise ⟨hquiet'.snoc rfl, rfl, rfl, (hgrows₁.trans hgrows).now.trans hnow⟩
        (hstored.grows (hgrows.trans hgrows₇)) hid hunconfirmed

/-! ## A confirmed incident -/

/-- Text that the supervisor accepts as an identifier. -/
def isSupervisorText (value : Str) : Prop :=
  value ≠ "" ∧ isTrimmed value ∧ value.chars.length ≤ 128 ∧
    ∀ c ∈ value.chars, 32 ≤ c.toNat ∧ c.toNat ≠ 127

theorem requireSupervisorText_eq_ok :
    requireSupervisorText value fieldName = .ok u ↔ isSupervisorText value := by
  simp [requireSupervisorText, isSupervisorText]

theorem isSupervisorText_of_isUuid (h : isUuid value) : isSupervisorText value :=
  ⟨ne_empty_of_isUuid h, isTrimmed_of_isUuid h, by rw [h.1]; decide,
    fun c hc => (visible_of_isUuid (h.2 c hc)).2⟩

variable {now : Instant} {rows : History}

/-- A history of the plan passes the route-plan check. -/
theorem PlanHistory.routePlan_ok (h : PlanHistory H plan incidentId now rows) :
    validateRoutePlanHistory H rows.incident plan rows.attempts = .ok () := by
  obtain ⟨seen, hseen, -⟩ : ∃ seen, rows.attempts.foldlM (checkRouteAttempt H rows.incident plan)
      [] = .ok seen ∧ ∀ route ∈ seen, ∃ b ∈ rows.attempts, b.val.route = route := by
    refine foldlM_total (fun (done : List DeliveryAttempt) (seen : List Route) =>
      ∀ route ∈ seen, ∃ b ∈ done, b.val.route = route) ?_ (by simp)
    intro done a rest seen hsplit hseen
    have hplanned := h.planned a (by simp [← hsplit])
    obtain ⟨request, hrequest, hprovider, hkey, hsha⟩ := hplanned.request
    have hfresh : a.val.route ∉ seen := by
      intro hmem
      obtain ⟨b, hb, hroute⟩ := hseen _ hmem
      have horder := h.order
      rw [← hsplit, List.pairwise_append] at horder
      obtain ⟨hprimary, hescalation⟩ := horder.2.2 b hb a List.mem_cons_self
      cases hprimary.symm.trans (hroute.trans hescalation)
    refine ⟨a.val.route :: seen, ?_, ?_⟩
    · simp only [checkRouteAttempt, Py.eq_ok, not_or, not_and, not_le, not_lt]
      refine ⟨(), hfresh, request, hrequest, (), ⟨hprovider, hkey, hsha⟩, (),
        fun hprimary => ?_, (), fun hescalation => ?_, trivial⟩
      · rcases hplanned.window with ⟨-, hearly⟩ | ⟨hother, -⟩
        · exact hearly
        · cases hprimary.symm.trans hother
      · rcases hplanned.window with ⟨hother, -⟩ | ⟨-, hlate⟩
        · cases hescalation.symm.trans hother
        · exact hlate
    · simp only [List.forall_mem_cons, List.mem_append, List.mem_singleton, or_and_right, exists_or,
        exists_eq_left, or_true, true_and]
      exact fun route hroute => .inl (hseen route hroute)
  simp only [validateRoutePlanHistory, Py.eq_ok]
  refine ⟨seen, hseen, ?_⟩
  rintro ⟨htwo, hhead⟩
  obtain ⟨a, b, hrows⟩ := List.length_eq_two.1 htwo
  have horder := h.order
  rw [hrows] at hhead horder
  have hprimary := ((List.pairwise_cons.1 horder).1 b List.mem_cons_self).1
  simp [hprimary] at hhead

/-- A result of a valid history tells of an attempt of it without conflict. -/
theorem ValidHistory.milestone (h : ValidHistory H incident attempts results)
    (hattempt : attempt ∈ attempts) (hresult : resultOf H attempt results = some result) :
    ∃ met, deliveryMilestoneMet H incident attempt result = .ok met := by
  obtain ⟨other, hmem, hpair⟩ := List.mem_map.1 (mem_of_lookup hresult)
  obtain ⟨hid, rfl⟩ := Prod.mk.inj hpair
  have hfits := h.fit other hmem
  obtain ⟨owner, howner, hownerId, hsha, -⟩ := hfits.attempt
  obtain rfl : owner = attempt :=
    List.inj_on_of_nodup_map h.chain.nodup howner hattempt (hownerId.trans hid)
  obtain ⟨hincident, hincidentSha⟩ := h.chain.fits owner hattempt
  simp only [deliveryMilestoneMet, Py.eq_ok, not_or]
  exact ⟨_, (), ⟨hincident, hincidentSha, hfits.incidentId, hfits.incidentSha256, hid, hsha⟩, rfl⟩

/-- What `confirmedAttempt` finds is one of the attempts. -/
theorem exists_confirmedAttempt
    (hok : ∀ a ∈ attempts, ∀ r, resultOf H a results = some r →
      ∃ met, deliveryMilestoneMet H incident a r = .ok met)
    (hattempt : attempt ∈ attempts) (hresult : resultOf H attempt results = some result)
    (hmet : deliveryMilestoneMet H incident attempt result = .ok true) :
    ∃ found ∈ attempts, ∃ r, confirmedAttempt H incident results
    attempts = .ok (some (found, r)) := by
  induction attempts with
  | nil => cases hattempt
  | cons a rest ih =>
    have hrest (hmem : attempt ∈ rest) : ∃ found ∈ a :: rest, ∃ r,
        confirmedAttempt H incident results rest = .ok (some (found, r)) := by
      obtain ⟨found, hfound, r, hr⟩ := ih (fun b hb => hok b (List.mem_cons_of_mem a hb)) hmem
      exact ⟨found, List.mem_cons_of_mem a hfound, r, hr⟩
    unfold confirmedAttempt
    cases hr : resultOf H a results with
    | none =>
      rcases List.mem_cons.1 hattempt with rfl | hmem
      · rw [hr] at hresult
        cases hresult
      · exact hrest hmem
    | some r =>
      obtain ⟨met, hmet'⟩ := hok a List.mem_cons_self r hr
      simp only [hmet']
      cases met with
      | true => exact ⟨a, List.mem_cons_self, r, rfl⟩
      | false =>
        rcases List.mem_cons.1 hattempt with rfl | hmem
        · rw [hr] at hresult
          rw [Option.some.inj hresult, hmet] at hmet'
          cases hmet'
        · exact hrest hmem

theorem DeliveryAttempt.requestedAt_le_claimedAt (a : DeliveryAttempt) :
    a.val.requestedAt ≤ a.val.claimedAt := by
  have h := a.passes
  simp only [DeliveryAttemptFields.postInit, Py.eq_ok, not_lt] at h
  obtain ⟨_, _, _, _, _, _, _, _, _, _, horder⟩ := h
  exact horder

theorem historyLatestTime_le (hrecorded : incident.val.recordedAt ≤ t)
    (hclaimed : ∀ a ∈ attempts, a.val.claimedAt ≤ t) (hcompleted : ∀ r ∈ results,
      r.val.completedAt ≤ t) :
    historyLatestTime incident attempts results ≤ t := by
  refine foldl_max_le_iff.2 ⟨hrecorded, ?_⟩
  simp only [List.forall_mem_append, List.forall_mem_map]
  exact ⟨hclaimed, hcompleted⟩

/-- Evidence of a confirmed delivery is well formed if identifiers are text. -/
theorem Deciding.goodResult_confirmed (hdeciding : Deciding started incident t log)
    (hreason : reason.disposition = .confirmed)
    (hids : ∀ kind parts, isSupervisorText (H.canonicalId kind parts)) :
    GoodResult H incidentId started log
      (evidence H incident plan reason t route (some attempt) (some result) none false) := by
  have hchecks : EvidenceFields.postInit {
      incidentId := incident.incidentId H.canonicalId
      incidentSha256 := H.incident incident
      routePlanSha256 := H.routePlan plan
      disposition := reason.disposition
      reason
      observedAt := t
      selectedRoute := route
      attemptId := some (attempt.attemptId H.canonicalId)
      attemptSha256 := some (H.attempt attempt)
      resultId := some (result.resultId H.canonicalId)
      resultSha256 := some (H.result result)
      waitUntil := none
      providerCalled := false
      unresolvedClaim := false } = .ok () := by
    simp only [EvidenceFields.postInit, EvidenceFields.checkResultIdentity, Py.eq_ok,
      requireSupervisorText_eq_ok, optionForM_eq_ok, hreason]
    refine ⟨(), hids _ _, (), by simp, (), ?_, (), ⟨(), by simp, ?_⟩, (), by simp, (), by simp, (),
      by simp, by simp⟩
    · intro id hid
      rw [← Option.some.inj hid]
      exact hids _ _
    · intro id hid
      rw [← Option.some.inj hid]
      exact ⟨(), by simp, hids _ _⟩
  have hshown : evidence H incident plan reason t route (some attempt) (some result) none false =
      .ok ⟨_, hchecks⟩ := construct_eq_ok.2 rfl
  rw [hshown]
  refine ⟨fun _ => ⟨_, rfl, hreason⟩, fun shown hshown => ?_⟩
  exact ⟨incident, t, hdeciding.incident, hdeciding.decision, hdeciding.begun,
    fun _ => .inl (Except.ok.inj hshown ▸ hreason)⟩

theorem ConfirmedIn.grows (h : ConfirmedIn H w incidentId) (hgrows : w.Grows w') :
    ConfirmedIn H w' incidentId := by
  obtain ⟨rows, hrows, attempt, hattempt, result, hresult, hmet⟩ := h
  obtain ⟨rows', hrows', hincident, hattempts, hresults⟩ := hgrows.rows incidentId rows hrows
  exact ⟨rows', hrows', attempt, hattempts.subset hattempt, result, hresults.subset hresult,
    hincident ▸ hmet⟩

/-- Code that raises nothing, followed by more. -/
theorem keeps_lift_ok (hx : x = .ok a) (h : Keeps H F plan incidentId started post (f a) log w) :
    Keeps H F plan incidentId started post (.lift x >>= f) log w := by
  subst hx
  exact follows_lift_bind (fun b hb => Except.ok.inj hb ▸ h) fun _ _ he => nomatch he

/-- The decision on a history that holds a delivery in budget. -/
theorem keeps_supervise_confirmed (hdeciding : Deciding started rows.incident t log)
    (hids : ∀ kind parts, isSupervisorText (H.canonicalId kind parts))
    (h : PlanHistory H plan incidentId now rows) (hnow : now ≤ t)
    (hresults : rows.results.Perm results) (hattempt : attempt ∈ rows.attempts)
    (hresult : result ∈ rows.results)
    (hmet : deliveryMilestoneMet H rows.incident attempt result = .ok true) :
    Keeps H F plan incidentId started (GoodResult H incidentId started)
      (supervise H F plan rows.incident rows.attempts results t) log w := by
  have hvalid : ValidHistory H rows.incident rows.attempts results := h.valid.perm hresults
  have hrecorded : rows.incident.val.recordedAt ≤ t := by
    have hlate := h.recorded attempt hattempt
    have horder := attempt.requestedAt_le_claimedAt
    have hclaimed := h.claimed attempt hattempt
    linarith
  have hlatest : historyLatestTime rows.incident rows.attempts results ≤ t :=
    historyLatestTime_le hrecorded (fun a ha => (h.claimed a ha).trans hnow)
      fun r hr => (h.completed r (hresults.symm.subset hr)).trans hnow
  have hlookup : resultOf H attempt results = some result := by
    have hid : result.val.attemptId = attempt.attemptId H.canonicalId := by
      simp only [deliveryMilestoneMet, Py.eq_ok, not_or] at hmet
      exact hmet.choose_spec.1.2.2.2.2.1
    rw [resultOf,
      lookup_eq_some_iff (by simpa [List.map_map, Function.comp_def] using hvalid.nodup)]
    exact List.mem_map.2 ⟨result, hresults.subset hresult, by rw [hid]⟩
  obtain ⟨found, -, shown, hfound⟩ := exists_confirmedAttempt
    (fun a ha r hr => hvalid.milestone ha hr) hattempt hlookup hmet
  refine keeps_lift_ok (a := ()) (raiseIf_eq_ok.2 (not_lt.2 hlatest)) ?_
  refine keeps_lift_ok hfound ?_
  refine follows_lift fun w' _ _ => hdeciding.goodResult_confirmed ?_ hids
  cases found.val.route <;> rfl

/-- A supervisor of an incident that was confirmed when it started. -/
theorem keeps_runOnce_confirmed (hids : ∀ kind parts, isSupervisorText (H.canonicalId kind parts))
    (hstore : PlanStore H plan started) (hconfirmed : ConfirmedIn H started incidentId) :
    Keeps H F plan incidentId started (GoodResult H incidentId started)
      (runOnce H F plan incidentId) [] started := by
  obtain ⟨rows, hrows, -⟩ := id hconfirmed
  have htext : isSupervisorText incidentId := (hstore incidentId rows hrows).identity ▸ hids _ _
  refine keeps_lift_ok (a := ()) (requireSupervisorText_eq_ok.2 htext) ?_
  refine keeps_transact (keeps_quiet quiet_nil.good (fun _ => rfl) (fun _ _ _ => trivial) ?_)
  intro answer w₁ w₂ w₃ hgrows₁ hstore₁ hperform hgrows₃
  obtain ⟨rows₁, hrows₁, -⟩ := hconfirmed.grows hgrows₁
  obtain ⟨hanswer, rfl⟩ := hperform
  rw [Repository.loadIncident, hrows₁] at hanswer
  subst hanswer
  have hid := (hstore₁ incidentId rows₁ hrows₁).identity
  refine keeps_lift_ok (a := ()) (raiseIf_eq_ok.2 (not_not.2 hid)) ?_
  have hquiet : Quiet (F := F) ([] ++ [⟨.loadIncident incidentId, .ok rows₁.incident⟩]) :=
    quiet_nil.snoc rfl
  refine keeps_transact (keeps_quiet hquiet.good (fun _ => rfl) (fun _ _ _ => trivial) ?_)
  intro answer w₄ w₅ w₆ hgrows₄ hstore₄ hperform hgrows₆
  have hgrows := hgrows₃.trans hgrows₄
  obtain ⟨rows₄, hrows₄, attempt, hattempt, result, hresult, hmet⟩ :=
    hconfirmed.grows (hgrows₁.trans hgrows)
  have hsame : rows₄.incident = rows₁.incident := by
    obtain ⟨rows', hrows', hincident, -⟩ := hgrows.rows incidentId rows₁ hrows₁
    rw [hrows₄, Option.some.injEq] at hrows'
    exact hrows' ▸ hincident
  have hplan := hstore₄ incidentId rows₄ hrows₄
  obtain ⟨hanswer, rfl⟩ := hperform
  rw [loadHistory_eq_ok.2 ⟨rows₄, hrows₄, hplan.valid, rfl⟩] at hanswer
  subst hanswer
  refine keeps_lift_ok (a := ()) (validateDeliveryHistory_eq_ok.2 ?_) ?_
  · exact hsame ▸ hplan.valid.perm (sortOn_perm _ _).symm
  refine keeps_lift_ok (hsame ▸ hplan.routePlan_ok) ?_
  refine keeps_readUtc (hquiet.snoc rfl).good fun t w₇ hgrows₇ hnow => ?_
  rw [← hsame]
  refine keeps_supervise_confirmed ⟨(hquiet.snoc rfl).snoc rfl, ?_, rfl, ?_⟩ hids hplan
    (hgrows₆.now.trans hnow) (sortOn_perm _ _).symm hattempt hresult hmet
  · exact congrArg some hsame.symm
  · exact ((hgrows₁.trans hgrows).trans hgrows₆).now.trans hnow

/-! ## All supervisors -/

/-- The promise of one supervisor, confirmed or not. -/
theorem meets_runOnce (hids : ∀ kind parts, isSupervisorText (H.canonicalId kind parts)) :
    Meets (discipline H F plan) (GoodLog H)
      (fun incidentId started log result _ => GoodResult H incidentId started log result)
      (runOnce H F plan) := by
  intro incidentId started hstore
  refine ⟨quiet_nil.good, ?_⟩
  by_cases hconfirmed : ConfirmedIn H started incidentId
  · exact keeps_runOnce_confirmed hids hstore hconfirmed
  · exact keeps_runOnce_unconfirmed hconfirmed

/-- The store holds an attempt of a route of an incident. -/
def Attempted (w : World) (claim : Str × Route) : Prop :=
  ∃ rows, w.store.get? claim.1 = some rows ∧ ∃ attempt ∈ rows.attempts, attempt.val.route = claim.2

theorem Attempted.grows (h : Attempted w claim) (hgrows : w.Grows w') : Attempted w' claim := by
  obtain ⟨rows, hrows, attempt, hattempt, hroute⟩ := h
  obtain ⟨rows', hrows', -, hattempts, -⟩ := hgrows.rows claim.1 rows hrows
  exact ⟨rows', hrows', attempt, hattempts.subset hattempt, hroute⟩

/-- Every claim that was won is of another route or incident, and its attempt is in the store. -/
def ClaimsKept (log : List (AlertEvent F)) (w : World) : Prop :=
  (log.filterMap claimWon).Nodup ∧ ∀ claim ∈ log.filterMap claimWon, Attempted w claim

theorem ClaimsKept.grows (h : ClaimsKept log w) (hgrows : w.Grows w')
    (hevent : claimWon event = none) : ClaimsKept (log ++ [event]) w' := by
  simp only [ClaimsKept, List.filterMap_append, List.filterMap_cons, hevent, List.filterMap_nil,
    List.append_nil]
  exact ⟨h.1, fun claim hclaim => (h.2 claim hclaim).grows hgrows⟩

/-- A claim is won only if no attempt of the route is there yet. -/
theorem ClaimsKept.won (h : ClaimsKept log w) (hstore : PlanStore H plan w)
    (hallowed : Allowed H plan w (.claimDeliveryAttempt command : Operation F))
    (hperform : perform H F w (.claimDeliveryAttempt command) (.ok (attempt, true)) w') :
    ClaimsKept (log ++ [⟨.claimDeliveryAttempt command, .ok (attempt, true)⟩]) w' := by
  have hgrows : w.Grows w' := (planStore_keeps hstore hallowed hperform).2
  obtain ⟨rows, hrows, hplanned⟩ := hallowed
  obtain ⟨-, hcommits⟩ := hperform
  unfold commits at hcommits
  split at hcommits
  · next claim after hclaim =>
    obtain ⟨hsame, hafter⟩ := hcommits
    obtain rfl := Except.ok.inj hsame
    cases claims_of_ok hclaim with
    | @created rows' _ hrows' _ hnew =>
      obtain rfl : rows' = rows := Option.some.inj (hrows'.symm.trans hrows)
      have hnone : (command.val.incidentId, command.val.route) ∉ log.filterMap claimWon := by
        intro hbefore
        obtain ⟨rows'', hrows'', other, hother, hroute⟩ := h.2 _ hbefore
        obtain rfl : rows'' = rows' := Option.some.inj (hrows''.symm.trans hrows)
        have hplan := (hstore _ _ hrows).planned other hother
        exact hnew.keyed other hother (hplan.key_eq hplanned hroute)
      have hlog : List.filterMap claimWon (log ++ [(⟨.claimDeliveryAttempt command,
          .ok (attempt, true)⟩ : AlertEvent F)]) =
          log.filterMap claimWon ++ [(command.val.incidentId, command.val.route)] := by
        rw [List.filterMap_append]
        rfl
      rw [ClaimsKept, hlog]
      refine ⟨List.nodup_append.2 ⟨h.1, List.nodup_singleton _, ?_⟩, ?_⟩
      · intro claim hclaim last hlast hsame
        rw [List.mem_singleton.1 hlast] at hsame
        exact hnone (hsame ▸ hclaim)
      · intro claim hmem
        rcases List.mem_append.1 hmem with hold | hlast
        · exact (h.2 claim hold).grows hgrows
        · rw [List.mem_singleton.1 hlast, Attempted, hafter, Dict.get?_set, if_pos rfl]
          exact ⟨_, rfl, attempt, List.mem_append_right _ List.mem_cons_self,
            congrArg (·.route) hnew.requested⟩
  · exact nomatch hcommits.1

/-- An operation keeps the attempt of every claim won so far. -/
theorem claimsKept_step (h : ClaimsKept log w) (hstore : PlanStore H plan w)
    (hallowed : Allowed H plan w op) (hperform : perform H F w op answer w') :
    ClaimsKept (log ++ [⟨op, answer⟩]) w' := by
  have hgrows : w.Grows w' := (planStore_keeps hstore hallowed hperform).2
  cases op with
  | claimDeliveryAttempt command =>
    rcases answer with e | ⟨attempt, _ | _⟩
    · exact h.grows hgrows rfl
    · exact h.grows hgrows rfl
    · exact h.won hstore hallowed hperform
  | _ => exact h.grows hgrows rfl

theorem exists_commits (store : Store) (transaction : Py (α × Store)) :
    ∃ answer store', commits store transaction answer store' := by
  cases transaction with
  | ok committed => exact ⟨_, _, rfl, rfl⟩
  | error e => exact ⟨_, _, rfl, rfl⟩

/-- No operation blocks. -/
theorem exists_perform (w : World) (op : Operation F) : ∃ answer w',
    perform H F w op answer w' := by
  cases op with
  | readUtc => exact ⟨w.now, _, le_rfl, rfl⟩
  | readMonotonic => exact ⟨F.totalSeconds 0, w, rfl⟩
  | deliver _ _ => exact ⟨ProviderAnswer.timeout, w, rfl⟩
  | claimDeliveryAttempt command =>
    obtain ⟨answer, store', h⟩ :=
      exists_commits w.store (Repository.claimDeliveryAttempt H w.store command w.now)
    exact ⟨answer, ⟨store', w.now⟩, le_rfl, h⟩
  | recordDeliveryResult result =>
    obtain ⟨answer, store', h⟩ :=
      exists_commits w.store (Repository.recordDeliveryResult H w.store result w.now)
    exact ⟨answer, ⟨store', w.now⟩, le_rfl, h⟩
  | _ => exact ⟨_, w, rfl, rfl⟩

/-- A store of incidents that no supervisor has worked on. -/
def Untouched (H : AlertHashes) (w : World) : Prop :=
  ∀ incidentId rows, w.store.get? incidentId = some rows →
    rows.incident.incidentId H.canonicalId = incidentId ∧ rows.attempts = [] ∧ rows.results = []

/-- A store without attempts fits any plan. -/
theorem Untouched.planStore (h : Untouched H w) : PlanStore H plan w := by
  intro incidentId rows hrows
  obtain ⟨hid, hattempts, hresults⟩ := h incidentId rows hrows
  have hvalid : ValidHistory H rows.incident rows.attempts rows.results := by
    rw [hattempts, hresults]
    exact ⟨by simp, rfl, by simp, by simp⟩
  exact ⟨hid, hvalid, by simp [hattempts], by simp [hattempts], by simp [hattempts],
    by simp [hattempts], by simp [hresults]⟩

/-- A supervisor of a run. -/
abbrev Supervisor (F : FloatArithmetic) :=
  Process World (Operation F) Operation.Answer PyError Evidence Str

/-- **Alerts are sent at most once and end in time.**  Over any run of supervisors of one plan: no
route of an incident is called twice; a call is for a request that was made in the window of its
route; a supervisor that started after a delivery in budget was recorded calls nobody and ends with
`confirmed`; and one that decides after the escalation deadline ends, if it raises nothing, with
`confirmed` or a total failure.  Every supervisor can be run to its end. -/
theorem alerts_once_and_in_time (hids : ∀ kind parts, isSupervisorText (H.canonicalId kind parts))
    (hinit : Untouched H w) {system : World × List (Supervisor F)}
    (hrun : Concurrent.Run (perform H F) (runOnce H F plan) w system) :
    ((events system.2).filterMap deliveredTo).Nodup ∧ ∀ process ∈ system.2,
      GoodLog H process.entry process.started process.log ∧
      (∀ result, process.code = .done result →
        GoodResult H process.entry process.started process.log result) ∧
      ∃ system' log result, Concurrent.Run (perform H F) (runOnce H F plan) w system' ∧
        { process with log := process.log ++ log, code := .done result } ∈ system'.2 := by
  obtain ⟨hstore, hpool⟩ := run_follows hinit.planStore (meets_runOnce hids) hrun
  refine ⟨?_, fun process hprocess => ⟨(hpool process hprocess).1, fun result hdone =>
    (hpool process hprocess).result hstore hdone, ?_⟩⟩
  · have hclaims : ClaimsKept (events system.2) system.1 := by
      refine run_events hinit.planStore (meets_runOnce hids) ClaimsKept ?_
        ⟨List.nodup_nil, by simp⟩ ?_ hrun
      · intro log log' w hperm h
        have hclaims := hperm.filterMap claimWon
        exact ⟨hclaims.nodup_iff.1 h.1, fun claim hclaim => h.2 claim (hclaims.symm.subset hclaim)⟩
      · intro log w op answer w' hinv hallowed hperform h
        exact claimsKept_step h hinv hallowed hperform
    refine List.Nodup.sublist ?_ hclaims.1
    simp only [events, List.filterMap_flatMap]
    exact List.Sublist.flatMap_right _ fun process hprocess => (hpool process hprocess).1.once
  · obtain ⟨front, back, hsplit⟩ := List.append_of_mem hprocess
    obtain ⟨world, pool⟩ := system
    obtain rfl : pool = front ++ process :: back := hsplit
    obtain ⟨w', log, result, hdone⟩ := Concurrent.Run.exists_done exists_perform hrun
    exact ⟨_, log, result, hdone, by simp⟩

/-! ## A run of two supervisors -/

def AlertHashes.plain : AlertHashes where
  canonicalId := digitsId
  incident i := i.val.sourceId ++ i.val.idempotencyKey
  command c := c.val.incidentId ++ c.val.idempotencyKey
  attempt a := a.val.incidentId ++ a.val.idempotencyKey
  result r := r.val.attemptId
  request r := r.incidentId ++ r.idempotencyKey
  routePlan p := p.val.planId
  routeDigest i p b := i.incidentId digitsId ++ p.val.planId ++ b.val.providerId

/-- Exact arithmetic in place of floats. -/
def FloatArithmetic.exact : FloatArithmetic where
  Value := ℚ
  isFinite _ := true
  lt a b := a < b
  sub a b := a - b
  nonpositive a := a ≤ 0
  totalSeconds n := n / 1000000
  microseconds a := return (a * 1000000 : ℚ).floor

def sampleIncident : Incident where
  val := {
    scopeId := "paper"
    sourceId := "runtime"
    idempotencyKey := "incident-1"
    alertCode := "broker_down"
    evidenceSha256 := "e"
    detectedAt := 900000
    recordedAt := 1000000
    correlationSha256 := "c" }
  passes := by decide +kernel

def samplePlan : RoutePlan where
  val := {
    planId := "plan"
    planVersion := "1"
    primary := ⟨⟨.primary, "pager", "d1", "r1"⟩, by decide +kernel⟩
    escalation := ⟨⟨.escalation, "phone", "d2", "r2"⟩, by decide +kernel⟩ }
  passes := by decide +kernel

def sampleWorld : World where
  store := Dict.empty.set (sampleIncident.incidentId digitsId) ⟨sampleIncident, [], []⟩
  now := 1000000

/-- Operations whose clocks stand still and whose providers all give one answer. -/
def sampleRespond (answer : ProviderAnswer) (w : World) : (op : Operation .exact) →
    op.Answer × World
  | .readUtc => (w.now, w)
  | .readMonotonic => ((0 : ℚ), w)
  | .loadIncident incidentId => (Repository.loadIncident w.store incidentId, w)
  | .loadDeliveryHistory incidentId =>
    ((fun h => (h.attempts, h.results)) <$> Repository.loadHistory .plain w.store incidentId, w)
  | .findDeliveryAttempt incidentId providerId key =>
    (Repository.findDeliveryAttempt .plain w.store incidentId providerId key, w)
  | .claimDeliveryAttempt command =>
    match Repository.claimDeliveryAttempt .plain w.store command w.now with
    | .ok (claim, store) => (.ok claim, { w with store })
    | .error e => (.error e, w)
  | .loadDeliveryResult attemptId => (Repository.loadDeliveryResult .plain w.store attemptId, w)
  | .recordDeliveryResult result =>
    match Repository.recordDeliveryResult .plain w.store result w.now with
    | .ok (recorded, store) => (.ok recorded, { w with store })
    | .error e => (.error e, w)
  | .deliver _ _ => (answer, w)

theorem perform_sampleRespond (answer : ProviderAnswer) (w : World) (op : Operation .exact) :
    perform .plain .exact w op (sampleRespond answer w op).1 (sampleRespond answer w op).2 := by
  cases op with
  | readUtc => exact ⟨le_rfl, rfl⟩
  | readMonotonic => rfl
  | deliver _ _ => rfl
  | claimDeliveryAttempt command =>
    simp only [perform, sampleRespond]
    cases h : Repository.claimDeliveryAttempt .plain w.store command w.now <;> simp [commits, h]
  | recordDeliveryResult result =>
    simp only [perform, sampleRespond]
    cases h : Repository.recordDeliveryResult .plain w.store result w.now <;> simp [commits, h]
  | _ => exact ⟨rfl, rfl⟩

/-- Two supervisors of one incident whose provider confirms, one after the other. -/
def twoSupervisors (plan : RoutePlan) (incidentId : Str) (w : World) :
    World × List (Supervisor .exact) :=
  let respond := sampleRespond (.receipt "receipt")
  let first := (runOnce .plain .exact plan incidentId).drive respond w
  let second := (runOnce .plain .exact plan incidentId).drive respond first.1
  (second.1, [⟨incidentId, w, first.2.1, .done first.2.2⟩,
    ⟨incidentId, first.1, second.2.1, .done second.2.2⟩])

theorem run_twoSupervisors (plan : RoutePlan) (incidentId : Str) (w : World) :
    Concurrent.Run (perform .plain .exact) (runOnce .plain .exact plan) w
    (twoSupervisors plan incidentId w) := by
  have hnone : Concurrent.Run (perform .plain .exact) (runOnce .plain .exact plan) w (w, []) :=
    .refl
  have hone := hnone.drive (perform_sampleRespond (.receipt "receipt")) incidentId
  exact hone.drive (perform_sampleRespond (.receipt "receipt")) incidentId

def sampleSystem : World × List (Supervisor .exact) :=
  twoSupervisors samplePlan (sampleIncident.incidentId digitsId) sampleWorld

theorem untouched_sampleWorld : Untouched .plain sampleWorld := by
  intro incidentId rows hrows
  simp only [sampleWorld, Dict.get?_set, Dict.get?_empty] at hrows
  split at hrows
  · next hid =>
    rw [← Option.some.inj hrows]
    exact ⟨hid.symm, rfl, rfl⟩
  · cases hrows

/-- The first supervisor calls the primary provider, the second nobody; both end with
`confirmed`. -/
theorem sampleSystem_once : sampleSystem.2.map (fun process => process.log.filterMap deliveredTo) =
      [[(sampleIncident.incidentId digitsId, .primary)], []] ∧
    (sampleSystem.2.map fun process => match process.code with
      | .done (.ok evidence) => some evidence.val.disposition
      | _ => none) = [some .confirmed, some .confirmed] ∧
    ((events sampleSystem.2).filterMap deliveredTo).Nodup ∧
    ∀ process ∈ sampleSystem.2, ∀ result, process.code = .done result →
      GoodResult .plain process.entry process.started process.log result := by
  obtain ⟨hnodup, hpool⟩ := alerts_once_and_in_time
    (fun kind parts => isSupervisorText_of_isUuid (isUuid_digitsId kind parts))
    untouched_sampleWorld
      (run_twoSupervisors samplePlan (sampleIncident.incidentId digitsId) sampleWorld)
  exact ⟨by decide +kernel, by decide +kernel, hnodup, fun process hprocess =>
    (hpool process hprocess).2.1⟩

end AutoQuantTrader.CriticalAlert
