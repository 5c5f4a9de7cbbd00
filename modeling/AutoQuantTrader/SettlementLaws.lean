import AutoQuantTrader.Lib.Keyed
import AutoQuantTrader.LedgerLaws

/-!
# The laws of settlement

Settlement moves the cash of an execution from trade-date cash through a receivable or a payable
into settled cash.  `settlement_conserves_cash` says that nothing is lost on the way: settled cash,
receivables and payables add up to trade-date cash, a confirmation moves the amount of its own
obligation and nothing else, and once everything is confirmed all of it is settled.
-/

namespace AutoQuantTrader

open Result Sorting

variable {H : SettlementHashes}

/-! ## Obligations -/

/-- What an obligation will bring into cash. -/
def SettlementObligationFields.signedAmount (o : SettlementObligationFields) : ℚ :=
  if o.direction = .receivable then o.amount else -o.amount

/-- The obligation of an execution under its instruction. -/
def obligationOf (delta : ExecutionCashDelta) (instruction : ExecutionSettlementInstruction)
    (confirmation : Option ExecutionSettlementConfirmation) : SettlementObligationFields where
  instruction := instruction
  confirmation := confirmation
  orderId := delta.orderId
  executionId := delta.executionId
  executionEventId := delta.event.val.eventId
  direction := directionOf delta.cashDelta
  amount := |delta.cashDelta|
  status := statusOf confirmation

theorem signedAmount_obligationOf (delta : ExecutionCashDelta)
    (instruction : ExecutionSettlementInstruction)
    (confirmation : Option ExecutionSettlementConfirmation) :
    (obligationOf delta instruction confirmation).signedAmount = delta.cashDelta := by
  rw [SettlementObligationFields.signedAmount, obligationOf]
  by_cases hpos : 0 < delta.cashDelta
  · simp [directionOf, hpos, abs_of_pos hpos]
  · simp [directionOf, hpos, abs_of_nonpos (not_lt.1 hpos)]

theorem amount_pos (o : SettlementObligation) : 0 < o.val.amount := by
  have hpasses := o.passes
  simp only [SettlementObligationFields.postInit, Py.eq_ok, not_le,
    canonicalPersistedDecimal_eq_ok] at hpasses
  obtain ⟨_, -, _, -, _, -, _, ⟨-, rfl⟩, _, hpos, -⟩ := hpasses
  exact hpos

theorem status_eq (o : SettlementObligation) : o.val.status = statusOf o.val.confirmation := by
  have hpasses := o.passes
  simp only [SettlementObligationFields.postInit, Py.eq_ok] at hpasses
  obtain ⟨_, -, _, -, _, -, _, -, _, -, hstatus⟩ := hpasses
  exact hstatus

/-- The total of the obligations of a direction that are not confirmed. -/
def unconfirmed (obligations : List SettlementObligation) (direction : SettlementDirection) : ℚ :=
  ((obligations.filter fun o => o.val.status = .unsettled ∧ o.val.direction = direction).map
    (·.val.amount)).sum

/-- What an obligation counts for while it is not confirmed. -/
def SettlementObligationFields.openAmount (f : ℚ → ℚ) (o : SettlementObligationFields) : ℚ :=
  if o.status = .settled then 0 else f o.signedAmount

/-- A total over the obligations that are not confirmed. -/
def openTotal (obligations : List SettlementObligation) (f : ℚ → ℚ) : ℚ :=
  (obligations.map (·.val.openAmount f)).sum

theorem unconfirmed_eq (obligations : List SettlementObligation) (direction : SettlementDirection) :
    unconfirmed obligations direction = openTotal obligations fun amount =>
      max (match direction with | .receivable => amount | .payable => -amount) 0 := by
  rw [unconfirmed, sum_map_filter, openTotal]
  refine congrArg List.sum (List.map_congr_left fun o _ => ?_)
  have hpos := amount_pos o
  rw [SettlementObligationFields.openAmount, SettlementObligationFields.signedAmount]
  cases direction <;> cases o.val.status <;> cases o.val.direction <;> simp [hpos.le]

/-! ## Before sealing -/

section unsealed

variable {accountId : Str} {orders : List CanonicalOrderState} {flows : List LedgerCashFlow}
  {instructions : List ExecutionSettlementInstruction}
  {confirmations : List ExecutionSettlementConfirmation} {currency : Str}
  {s : CanonicalSettlementLedgerState}

/-- The reducer seals exactly what it has put together. -/
theorem reduceSettlementLedger_eq_ok :
    reduceSettlementLedger H accountId orders flows instructions confirmations currency = .ok s ↔
      unsealedSettlementLedger H accountId orders flows instructions confirmations currency =
        .ok s ∧ s.validate H = .ok () := by
  simp only [reduceSettlementLedger, eq_ok]
  constructor
  · rintro ⟨s, hunsealed, _, hvalid, rfl⟩
    exact ⟨hunsealed, hvalid⟩
  · rintro ⟨hunsealed, hvalid⟩
    exact ⟨s, hunsealed, (), hvalid, rfl⟩

/-- **How an unsealed aggregate came about**: what was checked of the facts, and what each part of
it was made from. -/
structure Unsealed (H : SettlementHashes) (accountId : Str) (orders : List CanonicalOrderState)
    (flows : List LedgerCashFlow) (instructions : List ExecutionSettlementInstruction)
    (confirmations : List ExecutionSettlementConfirmation) (currency : Str)
    (s : CanonicalSettlementLedgerState) (deltas : List ExecutionCashDelta)
    (byEvent : Dict Str ExecutionSettlementInstruction)
    (byInstruction : Dict Str ExecutionSettlementConfirmation)
    (settled : List (List CanonicalLedgerEntry × SettlementObligation)) : Prop where
  account : requireText accountId "settlement account_id" = .ok () ∧ s.accountId = accountId
  currencyCode : requireCurrency currency = .ok () ∧ s.currency = currency
  ledger : reduceExecutionLedger H.toLedgerHashes orders flows currency = .ok s.tradeDateLedger
  cashDeltas : executionCashDeltas orders = .ok deltas
  instructionIds : Set.InjOn (fun i : ExecutionSettlementInstruction => i.val.instructionId)
    {i | i ∈ instructions}
  events : Dict.unique (·.val.executionEventId) () instructions = .ok byEvent
  confirmationIds : Set.InjOn (fun c : ExecutionSettlementConfirmation => c.val.confirmationId)
    {c | c ∈ confirmations}
  answers : Dict.unique (·.val.instructionId) () confirmations = .ok byInstruction
  /-- Every instruction is for an execution that moved cash. -/
  expected : ∀ i ∈ instructions, ∃ d ∈ deltas, d.event.val.eventId = i.val.executionEventId
  /-- Every confirmation answers an instruction. -/
  known : ∀ c ∈ confirmations, ∃ i ∈ instructions, i.val.instructionId = c.val.instructionId
  items : deltas.mapM (settleDelta H currency byEvent byInstruction) = .ok settled
  entries : s.settlementEntries = sortOn (·.val.order) (settled.flatMap (·.1))
  obligations : s.obligations = sortOn (·.val.order) (settled.map (·.2))
  derived : deriveSettlementAggregate s.tradeDateLedger s.settlementEntries currency =
    .ok ⟨s.balances, s.tradeDateCash, s.settledCash, s.availableCash, s.receivables, s.payables,
      s.asOf⟩

/-- The parts an unsealed ledger was built from. -/
theorem exists_unsealed
    (h : unsealedSettlementLedger H accountId orders flows instructions confirmations currency =
      .ok s) :
    ∃ deltas byEvent byInstruction settled, Unsealed H accountId orders flows instructions
      confirmations currency s deltas byEvent byInstruction settled := by
  simp only [unsealedSettlementLedger, Py.eq_ok, not_exists, not_and] at h
  obtain ⟨_, haccount, _, hcurrency, ledger, hledger, deltas, hdeltas, ⟨byId, byEvent⟩,
    hinstructions, ⟨byConfirmation, byInstruction⟩, hconfirmations, _, -, _, hexpected, _, hknown,
    settled, hsettled, derived, hderived, rfl⟩ := h
  obtain ⟨hids, hevents⟩ := Dict.unique_of_unique₃ hinstructions
  obtain ⟨hconfirmationIds, hconfirmed⟩ := Dict.unique_of_unique₃ hconfirmations
  refine ⟨deltas, byEvent, byInstruction, settled, ⟨haccount, rfl⟩, ⟨hcurrency, rfl⟩, hledger,
    hdeltas, Dict.exists_unique_iff.1 ⟨_, hids⟩, hevents,
    Dict.exists_unique_iff.1 ⟨_, hconfirmationIds⟩, hconfirmed, fun i hi => ?_, fun c hc => ?_,
    hsettled, rfl, rfl, hderived⟩
  · exact List.mem_map.1 (hexpected _ ((Dict.mem_keys_of_unique hevents).2 ⟨i, hi, rfl⟩))
  · exact (Dict.mem_keys_of_unique hids).1
      (hknown _ ((Dict.mem_keys_of_unique hconfirmed).2 ⟨c, hc, rfl⟩))

variable {byInstruction : Dict Str ExecutionSettlementConfirmation}

/-- What settling an execution returns as its obligation. -/
theorem settleDelta_obligation (h : settleDelta H currency byEvent byInstruction delta = .ok item) :
    ∃ instruction, byEvent.get? delta.event.val.eventId = some instruction ∧
      item.2.val = obligationOf delta instruction
        (byInstruction.get? instruction.val.instructionId) := by
  simp only [settleDelta, Py.eq_ok] at h
  obtain ⟨instruction, hinstruction, _, -, _, -, _, -, _, -, _, -, obligation, hobligation, rfl⟩ :=
    h
  exact ⟨instruction, hinstruction, hobligation⟩

variable {o : SettlementObligation}

namespace Unsealed

variable
  (h : Unsealed H accountId orders flows instructions confirmations currency s deltas byEvent
    byInstruction settled)

include h

/-- Totals over the open obligations are totals over the open deltas. -/
theorem openTotal_eq (f : ℚ → ℚ) :
    openTotal s.obligations f = (deltas.map fun d =>
      if isSettled instructions confirmations d.event.val.eventId then 0 else
        f d.cashDelta).sum := by
  rw [openTotal, h.obligations, sum_map_sortOn, List.map_map]
  refine sum_map_of_mapM (fun d item hitem => ?_) h.items
  obtain ⟨instruction, hinstruction, hobligation⟩ := settleDelta_obligation hitem
  have hsettled := isSettled_iff h.events h.answers hinstruction
  rw [Function.comp_apply, hobligation, SettlementObligationFields.openAmount,
    signedAmount_obligationOf, obligationOf, statusOf]
  by_cases hc : (byInstruction.get? instruction.val.instructionId).isSome = true
  · simp [hsettled, hc]
  · simp [hsettled, hc]

/-- An obligation and the facts it is about. -/
theorem mem_obligations (ho : o ∈ s.obligations) : o.val.instruction ∈ instructions ∧
      o.val.instruction.val.executionEventId = o.val.executionEventId ∧
      o.val.confirmation = byInstruction.get? o.val.instruction.val.instructionId := by
  rw [h.obligations, mem_sortOn] at ho
  obtain ⟨item, hitem, rfl⟩ := List.mem_map.1 ho
  obtain ⟨d, -, hd⟩ := exists_of_mem_mapM h.items hitem
  obtain ⟨instruction, hinstruction, hobligation⟩ := settleDelta_obligation hd
  rw [hobligation]
  obtain ⟨hmem, hevent⟩ := (Dict.get?_of_unique h.events _ _).1 hinstruction
  exact ⟨hmem, hevent, rfl⟩

/-- Every instruction has an obligation. -/
theorem exists_obligation (hi : i ∈ instructions) : ∃ o ∈ s.obligations, o.val.instruction = i := by
  obtain ⟨d, hd, hevent⟩ := h.expected i hi
  obtain ⟨item, hitem, hd⟩ := exists_mem_of_mapM h.items hd
  obtain ⟨instruction, hinstruction, hobligation⟩ := settleDelta_obligation hd
  obtain ⟨hmem, hid⟩ := (Dict.get?_of_unique h.events _ _).1 hinstruction
  refine ⟨item.2, ?_, ?_⟩
  · rw [h.obligations, mem_sortOn]
    exact List.mem_map_of_mem hitem
  · rw [hobligation]
    exact Dict.eq_of_unique h.events hmem hi (hid.trans hevent)

/-- An instruction has one obligation. -/
theorem nodup_instructionIds (hevents : (s.obligations.map (·.val.executionEventId)).Nodup) :
    (s.obligations.map (·.val.instruction.val.instructionId)).Nodup := by
  refine hevents.of_map.map_on fun a ha b hb hab => ?_
  obtain ⟨hamem, haevent, -⟩ := h.mem_obligations ha
  obtain ⟨hbmem, hbevent, -⟩ := h.mem_obligations hb
  have hinstruction := h.instructionIds hamem hbmem hab
  refine List.inj_on_of_nodup_map hevents ha hb ?_
  rw [← haevent, ← hbevent, hinstruction]

end Unsealed

/-! ## Conservation -/

/-- An accepted ledger in terms of its obligations. -/
theorem reduceSettlementLedger_open
    (h : reduceSettlementLedger H accountId orders flows instructions confirmations currency =
      .ok s) :
    s.tradeDateCash = s.tradeDateLedger.cashBalance currency ∧
      s.settledCash = s.tradeDateCash - openTotal s.obligations id ∧
      s.receivables = openTotal s.obligations (fun amount => max amount 0) ∧
      s.payables = openTotal s.obligations fun amount => max (-amount) 0 := by
  obtain ⟨deltas, byEvent, byInstruction, settled, hu⟩ :=
    exists_unsealed (reduceSettlementLedger_eq_ok.1 h).1
  obtain ⟨deltas', hdeltas, -, htradeDate, hsettled, hpayables, -, hreceivables⟩ :=
    reduceSettlementLedger_spec h
  obtain rfl : deltas' = deltas := Except.ok.inj (hdeltas.symm.trans hu.cashDeltas)
  refine ⟨htradeDate, ?_, ?_, ?_⟩
  · rw [hsettled, hu.openTotal_eq]
    rfl
  · rw [hreceivables, hu.openTotal_eq]
  · rw [hpayables, hu.openTotal_eq]

/-- What is open is what is receivable less what is payable. -/
theorem openTotal_id (obligations : List SettlementObligation) :
    openTotal obligations id = openTotal obligations (fun amount => max amount 0) -
      openTotal obligations fun amount => max (-amount) 0 := by
  rw [openTotal, openTotal, openTotal, sub_eq_add_neg, ← sum_map_neg, ← List.sum_map_add]
  refine congrArg List.sum (List.map_congr_left fun o _ => ?_)
  simp only [SettlementObligationFields.openAmount]
  split
  · simp
  · rcases le_total 0 o.val.signedAmount with hsign | hsign
    · simp [hsign]
    · simp [hsign]

/-! ## Confirming -/

/-- The obligation after a confirmation: settled when it answers its instruction. -/
def SettlementObligationFields.confirm (c : ExecutionSettlementConfirmation)
    (o : SettlementObligationFields) : SettlementObligationFields :=
  if o.instruction.val.instructionId = c.val.instructionId then
    { o with confirmation := some c, status := .settled } else o

/-- What one more confirmation changes: its obligation settles and moves out of receivables or
payables into settled cash. -/
structure Confirms (c : ExecutionSettlementConfirmation) (s s' : CanonicalSettlementLedgerState)
    (o : SettlementObligation) : Prop where
  obligation : o ∈ s.obligations
  instruction : o.val.instruction.val.instructionId = c.val.instructionId
  unsettled : o.val.status = .unsettled
  settledCash : s'.settledCash = s.settledCash + o.val.signedAmount
  receivables : s'.receivables = s.receivables - max o.val.signedAmount 0
  payables : s'.payables = s.payables - max (-o.val.signedAmount) 0
  /-- Every other obligation is as it was. -/
  obligations : s'.obligations.map (·.val) = s.obligations.map (·.val.confirm c)
  tradeDateLedger : s'.tradeDateLedger = s.tradeDateLedger
  tradeDateCash : s'.tradeDateCash = s.tradeDateCash

theorem order_confirm (c : ExecutionSettlementConfirmation) (o : SettlementObligationFields) :
    (o.confirm c).order = o.order := by
  unfold SettlementObligationFields.confirm
  split <;> rfl

/-- Obligations keep their place under a change that keeps their order. -/
theorem map_sortOn_order {f : SettlementObligationFields → SettlementObligationFields}
    (hf : ∀ o, (f o).order = o.order) (obligations : List SettlementObligation) :
    (sortOn (·.val.order) obligations).map (fun o => f o.val) =
      sortOn SettlementObligationFields.order (obligations.map fun o => f o.val) :=
  map_sortOn (fun o => hf o.val) obligations

variable {c : ExecutionSettlementConfirmation}

theorem obligationOf_confirm {byInstruction' : Dict Str ExecutionSettlementConfirmation}
    (hget : ∀ k, byInstruction'.get? k = if k =
      c.val.instructionId then some c else byInstruction.get? k) (delta : ExecutionCashDelta)
    (i : ExecutionSettlementInstruction) :
    (obligationOf delta i (byInstruction.get? i.val.instructionId)).confirm c =
      obligationOf delta i (byInstruction'.get? i.val.instructionId) := by
  rw [hget, SettlementObligationFields.confirm, obligationOf, obligationOf]
  by_cases hid : i.val.instructionId = c.val.instructionId
  · simp [hid, statusOf]
  · simp [hid]

/-- Confirming takes one obligation out of an open total. -/
theorem openTotal_confirm {obligations obligations' : List SettlementObligation}
    (hnodup : (obligations.map (·.val.instruction.val.instructionId)).Nodup)
    (hobligations : obligations'.map (·.val) = obligations.map (·.val.confirm c))
    (ho : o ∈ obligations) (hid : o.val.instruction.val.instructionId = c.val.instructionId)
    (hunsettled : o.val.status = .unsettled) (f : ℚ → ℚ) :
    openTotal obligations' f = openTotal obligations f - f o.val.signedAmount := by
  have hsum : openTotal obligations' f =
      (obligations.map fun o => (o.val.confirm c).openAmount f).sum := by
    have := congrArg (fun l => (l.map fun o => o.openAmount f).sum) hobligations
    simpa only [openTotal, List.map_map, Function.comp_def] using this
  have hconfirm (o : SettlementObligation) :
      (o.val.confirm c).openAmount f = o.val.openAmount f +
        -(if o.val.instruction.val.instructionId = c.val.instructionId then o.val.openAmount f
          else 0) := by
    by_cases hid : o.val.instruction.val.instructionId = c.val.instructionId
    · simp [SettlementObligationFields.confirm, hid, SettlementObligationFields.openAmount]
    · simp [SettlementObligationFields.confirm, hid]
  have hopen : o.val.openAmount f = f o.val.signedAmount := by
    simp [SettlementObligationFields.openAmount, hunsettled]
  rw [hsum]
  simp only [hconfirm]
  rw [List.sum_map_add, sum_map_neg, Keyed.sum_map_find? hnodup,
    (Keyed.find?_eq_some_iff hnodup).2 ⟨ho, hid⟩, Option.map_some, Option.getD_some, hopen,
    ← sub_eq_add_neg, openTotal]

/-- **A confirmation moves its own obligation and nothing else.** -/
theorem confirms_of_reduce
    (h : reduceSettlementLedger H accountId orders flows instructions confirmations currency =
      .ok s)
    (h' : reduceSettlementLedger H accountId orders flows instructions confirmations' currency =
      .ok s') (hnew : c ∉ confirmations)
    (hconfirmations : ∀ x, x ∈ confirmations' ↔ x = c ∨ x ∈ confirmations) :
    ∃ o, Confirms c s s' o := by
  obtain ⟨hunsealed, hvalid⟩ := reduceSettlementLedger_eq_ok.1 h
  obtain ⟨deltas, byEvent, byInstruction, settled, hu⟩ := exists_unsealed hunsealed
  obtain ⟨deltas', byEvent', byInstruction', settled', hu'⟩ :=
    exists_unsealed (reduceSettlementLedger_eq_ok.1 h').1
  -- the deltas and the instructions are the same, so only the answers differ
  obtain rfl : deltas' = deltas := Except.ok.inj (hu'.cashDeltas.symm.trans hu.cashDeltas)
  obtain rfl : byEvent' = byEvent := Except.ok.inj (hu'.events.symm.trans hu.events)
  have hcmem : c ∈ confirmations' := (hconfirmations c).2 (.inl rfl)
  have hget (k : Str) : byInstruction'.get? k =
      if k = c.val.instructionId then some c else byInstruction.get? k := by
    split
    · next hk => exact (Dict.get?_of_unique hu'.answers _ _).2 ⟨hcmem, hk.symm⟩
    · next hk =>
      refine Option.ext fun x => ?_
      rw [Dict.get?_of_unique hu'.answers, Dict.get?_of_unique hu.answers, hconfirmations]
      refine and_congr_left fun hx => or_iff_right fun hxc => hk ?_
      rw [← hx, hxc]
  have hobligations : s'.obligations.map (·.val) = s.obligations.map (·.val.confirm c) := by
    have hitems : settled.map (·.2.val.confirm c) = settled'.map (·.2.val) := by
      refine map_eq_of_mapM (fun d item item' hitem hitem' => ?_) hu.items hu'.items
      obtain ⟨i, hi, hobligation⟩ := settleDelta_obligation hitem
      obtain ⟨i', hi', hobligation'⟩ := settleDelta_obligation hitem'
      obtain rfl : i' = i := Option.some.inj (hi'.symm.trans hi)
      rw [hobligation, hobligation', obligationOf_confirm hget]
    have hplain := map_sortOn_order (fun o => rfl) (settled'.map (·.2))
    rw [hu.obligations, hu'.obligations, hplain, map_sortOn_order (order_confirm c), List.map_map,
      List.map_map]
    exact congrArg _ hitems.symm
  -- the obligation of the instruction that is answered
  obtain ⟨i, hi, hid⟩ := hu'.known c hcmem
  obtain ⟨o, ho, hinstruction⟩ := hu.exists_obligation hi
  rw [← hinstruction] at hid
  have hunanswered : byInstruction.get? o.val.instruction.val.instructionId = none := by
    rw [Option.eq_none_iff_forall_not_mem]
    intro x hx
    obtain ⟨hx, hxid⟩ := (Dict.get?_of_unique hu.answers _ _).1 hx
    have hxc : x = c :=
      Dict.eq_of_unique hu'.answers ((hconfirmations x).2 (.inr hx)) hcmem (hxid.trans hid)
    exact hnew (hxc ▸ hx)
  have hunsettled : o.val.status = .unsettled := by
    rw [status_eq, (hu.mem_obligations ho).2.2, hunanswered]
    rfl
  have hevents : (s.obligations.map (·.val.executionEventId)).Nodup := by
    simp only [CanonicalSettlementLedgerState.validate, Py.eq_ok] at hvalid
    obtain ⟨_, -, _, -, _, -, _, -, _, hevents, -⟩ := hvalid
    exact hevents
  have hopen := openTotal_confirm (hu.nodup_instructionIds hevents) hobligations ho hid hunsettled
  have hledger : s'.tradeDateLedger = s.tradeDateLedger :=
    Except.ok.inj (hu'.ledger.symm.trans hu.ledger)
  obtain ⟨hcash, hsettled, hreceivables, hpayables⟩ := reduceSettlementLedger_open h
  obtain ⟨hcash', hsettled', hreceivables', hpayables'⟩ := reduceSettlementLedger_open h'
  have htradeDate : s'.tradeDateCash = s.tradeDateCash := by rw [hcash', hcash, hledger]
  refine ⟨o, ho, hid, hunsettled, ?_, ?_, ?_, hobligations, hledger, htradeDate⟩
  · rw [hsettled', hsettled, hopen, htradeDate, id]
    ring
  · rw [hreceivables', hreceivables, hopen]
  · rw [hpayables', hpayables, hopen]

/-- **Settlement conserves cash.** -/
theorem settlement_conserves_cash
    (h : reduceSettlementLedger H accountId orders flows instructions confirmations currency =
      .ok s) :
    s.tradeDateCash = s.tradeDateLedger.cashBalance currency ∧
      s.settledCash + s.receivables - s.payables = s.tradeDateCash ∧
      s.receivables = unconfirmed s.obligations .receivable ∧
      s.payables = unconfirmed s.obligations .payable ∧
      ((∀ o ∈ s.obligations, o.val.status = .settled) → s.settledCash = s.tradeDateCash) ∧
      ∀ c confirmations' s', c ∉ confirmations →
        (∀ x, x ∈ confirmations' ↔ x = c ∨ x ∈ confirmations) →
        reduceSettlementLedger H accountId orders flows instructions confirmations' currency =
          .ok s' → ∃ o, Confirms c s s' o := by
  obtain ⟨hcash, hsettled, hreceivables, hpayables⟩ := reduceSettlementLedger_open h
  refine ⟨hcash, ?_, ?_, ?_, fun hall => ?_, fun c confirmations' s' hnew hconfirmations h' =>
    confirms_of_reduce h h' hnew hconfirmations⟩
  · rw [hsettled, hreceivables, hpayables, openTotal_id]
    ring
  · rw [hreceivables, unconfirmed_eq]
  · rw [hpayables, unconfirmed_eq]
  · have hzero : ∀ o ∈ s.obligations, o.val.openAmount id = 0 := fun o ho => by
      rw [SettlementObligationFields.openAmount, if_pos (hall o ho)]
    rw [hsettled, openTotal, List.map_congr_left hzero, List.sum_map_zero, sub_zero]

end unsealed

structure SettledPurchase where
  order : CanonicalOrderState
  flow : LedgerCashFlow
  instructions : List ExecutionSettlementInstruction
  (bought corrected : ExecutionSettlementConfirmation)
  (before after : CanonicalSettlementLedgerState)

/-- The revised purchase with its first event confirmed, and then its last. -/
def settledPurchase : Py SettledPurchase := do
  let (order, flow, _) ← revisedPurchase
  let instructions ← order.brokerEvents.mapM fun event =>
    createSettlementInstruction .plain event 40 40 event.val.eventId
  let first ← getOrThrow instructions.head? .indexError
  let last ← getOrThrow instructions.getLast? .indexError
  let bought ← createSettlementConfirmation .plain first 50 50 "first"
  let corrected ← createSettlementConfirmation .plain last 60 60 "last"
  let before ← reduceSettlementLedger .plain "account" [order] [flow] instructions [bought] "USD"
  let after ← reduceSettlementLedger .plain "account" [order] [flow] instructions
    [corrected, bought] "USD"
  return { order, flow, instructions, bought, corrected, before, after }

theorem settled_purchase_conserves : ∃ x : SettledPurchase,
    reduceSettlementLedger .plain "account" [x.order] [x.flow] x.instructions [x.bought] "USD" =
      .ok x.before ∧
    reduceSettlementLedger .plain "account" [x.order] [x.flow] x.instructions
      [x.corrected, x.bought] "USD" = .ok x.after ∧
    x.before.settledCash = 919 ∧ x.after.settledCash = 855 ∧
    x.before.settledCash + x.before.receivables - x.before.payables = x.before.tradeDateCash ∧
    ∃ o, Confirms x.corrected x.before x.after o := by
  have h : (fun x => (x.before.settledCash, x.after.settledCash,
      decide (x.corrected = x.bought))) <$> settledPurchase = .ok (919, 855, false) := by
    decide +kernel
  simp only [settledPurchase, eq_ok, Prod.mk.injEq, decide_eq_false_iff_not] at h
  obtain ⟨_, ⟨⟨order, flow, _⟩, -, instructions, -, _, -, _, -, bought, -, corrected, -, before,
    hbefore, after, hafter, rfl⟩, hcash, hcash', hne⟩ := h
  obtain ⟨-, hconserved, -, -, -, hconfirms⟩ := settlement_conserves_cash hbefore
  refine ⟨⟨order, flow, instructions, bought, corrected, before, after⟩, hbefore, hafter, hcash,
    hcash', hconserved, hconfirms corrected [corrected, bought] after ?_ ?_ hafter⟩
  · simpa using hne
  · simp

end AutoQuantTrader
