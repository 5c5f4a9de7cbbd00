import AutoQuantTrader.DailyPortfolio

/-!
# The moves of a conversion

A conversion compares what an instrument has with what a target wants of it and makes one intent of
the difference, if there is any.  So its intents, read as moves of shares, are the differences over
the instruments it went through (`lacking`).
-/

namespace AutoQuantTrader

open Result Sorting

/-! ## Moves of shares -/

/-- What filling an intent moves, a sale counting down. -/
def OrderIntent.move (i : OrderIntent) : Str × ℚ :=
  (i.val.instrumentId, i.val.side.sign * i.val.quantity)

/-- The shares of an instrument that filling intents moves. -/
def moved (intents : List OrderIntent) (instrumentId : Str) : ℚ :=
  ((intents.filter (·.val.instrumentId = instrumentId)).map (·.move.2)).sum

/-- The moves over some instruments that make up for what each of them lacks. -/
def lacking (delta : Str → ℚ) (instrumentIds : List Str) : List (Str × ℚ) :=
  instrumentIds.flatMap fun id => if delta id = 0 then [] else [(id, delta id)]

variable {intents : List OrderIntent} {delta : Str → ℚ} {instrumentIds : List Str}

theorem sign_mul_abs (q : ℚ) : (if 0 < q then Side.buy else .sell).sign * |q| = q := by
  split
  · next hpos => rw [abs_of_pos hpos, Side.sign, one_mul]
  · next hneg => rw [abs_of_nonpos (not_lt.1 hneg), Side.sign, neg_mul_neg, one_mul]

theorem map_fst_lacking : (lacking delta instrumentIds).map (·.1) =
    instrumentIds.filter (delta · ≠ 0) := by
  induction instrumentIds with
  | nil => rfl
  | cons id ids ih =>
    rw [lacking, List.flatMap_cons, List.map_append, ← lacking, ih]
    by_cases hzero : delta id = 0 <;> simp [hzero]

theorem moved_nodup (hids : instrumentIds.Nodup)
    (h : intents.map OrderIntent.move = lacking delta instrumentIds) :
    (intents.map (·.val.instrumentId)).Nodup := by
  have hmap : intents.map (·.val.instrumentId) = (intents.map OrderIntent.move).map (·.1) := by
    rw [List.map_map]
    rfl
  rw [hmap, h, map_fst_lacking]
  exact hids.filter _

/-- Filling the moves makes up for what each instrument lacks, and touches no other. -/
theorem moved_eq (hids : instrumentIds.Nodup)
    (h : intents.map OrderIntent.move = lacking delta instrumentIds) (id : Str) :
    moved intents id = if id ∈ instrumentIds then delta id else 0 := by
  have hmoved : moved intents id =
      (((lacking delta instrumentIds).filter (·.1 = id)).map (·.2)).sum := by
    rw [← h, List.filter_map, List.map_map]
    rfl
  rw [hmoved]
  clear h hmoved
  induction instrumentIds with
  | nil => rfl
  | cons other ids ih =>
    obtain ⟨hother, hids⟩ := List.nodup_cons.1 hids
    rw [lacking, List.flatMap_cons, List.filter_append, List.map_append, List.sum_append, ← lacking,
      ih hids]
    by_cases hid : other = id
    · subst hid
      by_cases hzero : delta other = 0 <;> simp [hzero, hother]
    · by_cases hzero : delta other = 0 <;> simp [hzero, hid, Ne.symm hid]

/-! ## A daily target -/

variable {H : EngineHashes} {target : DailyTarget} {snapshot : AccountSnapshot}
  {strategyPin : VersionPin} {trigger : DecisionTrigger} {batchId instrumentId : Str}
  {c c' : Conversion}

/-- The shares of an instrument that live commitments are still to move. -/
def AccountSnapshot.committed (snapshot : AccountSnapshot) (instrumentId : Str) : ℚ :=
  ((snapshot.pending.filter (·.val.instrumentId = instrumentId)).map Commitment.signedRemaining).sum

/-- The shares a target wants of an instrument. -/
def DailyTarget.wants (target : DailyTarget) (instrumentId : Str) : ℚ :=
  ((target.targets.find? (·.val.instrumentId = instrumentId)).map (·.val.quantity)).getD 0

/-- What an instrument lacks, after fills and live commitments. -/
def DailyTarget.lacks (target : DailyTarget) (snapshot : AccountSnapshot) (instrumentId : Str) :
    ℚ :=
  target.wants instrumentId - (snapshot.held instrumentId + snapshot.committed instrumentId)

/-- An instrument gets at most one intent, and only while nothing is committed. -/
theorem convertInstrument_cases
    (h : convertInstrument H target snapshot strategyPin trigger batchId c instrumentId = .ok c') :
    c'.intents = c.intents ∧
        (c'.reasons = [] → c.reasons = [] ∧ target.lacks snapshot instrumentId = 0) ∨
      ∃ intent : OrderIntent, c' = { c with intents := c.intents ++ [intent] } ∧
        intent.move = (instrumentId, target.lacks snapshot instrumentId) ∧
        target.lacks snapshot instrumentId ≠ 0 ∧
        snapshot.pending.filter (·.val.instrumentId = instrumentId) = [] ∧
        (target.reduceOnlyScope → intent.val.side = .sell) := by
  simp only [convertInstrument, eq_ok] at h
  obtain ⟨delta, hdelta, h⟩ := h
  have hlacks : target.lacks snapshot instrumentId = delta := by
    simp only [targetDelta, eq_ok] at hdelta
    obtain ⟨_, hcommitted, _, heffective, hdelta⟩ := hdelta
    rw [exactDecimalSubtract_eq hdelta, exactDecimalAdd_eq heffective,
      exactDecimalSum_eq hcommitted]
    rfl
  have hrefused {reason : Str}
    (h : (pure { c with reasons := c.reasons ++ [reason] } : Py _) = .ok c') :
      c'.intents = c.intents ∧ (c'.reasons = [] → c.reasons = [] ∧ delta = 0) := by
    rw [← pure_eq_ok.1 h]
    exact ⟨rfl, fun hnil => by simp at hnil⟩
  rw [hlacks]
  split at h
  · next hzero => exact .inl (pure_eq_ok.1 h ▸ ⟨rfl, fun hnil => ⟨hnil, hzero⟩⟩)
  · next hne =>
    split at h
    · exact .inl (hrefused h)
    · next hidle =>
      split at h
      · exact .inl (hrefused h)
      · split at h
        · exact .inl (hrefused h)
        · simp only [convertAtMark, eq_ok] at h
          obtain ⟨_, -, h⟩ := h
          split at h
          · exact .inl (hrefused h)
          · next hscope =>
            simp only [Py.eq_ok, dailyIntent] at h
            obtain ⟨intent, hintent, rfl⟩ := h
            refine .inr ⟨intent, rfl, ?_, hne, not_not.1 hidle, fun hreduce => ?_⟩
            · rw [OrderIntent.move, hintent]
              exact congrArg (Prod.mk instrumentId) (sign_mul_abs delta)
            · rw [hintent]
              exact if_neg fun hpos => hscope ⟨hreduce, hpos⟩

/-- A conversion that has gone through some instruments. -/
structure Converted (target : DailyTarget) (snapshot : AccountSnapshot) (done : List Str)
    (c : Conversion) : Prop where
  idle : ∀ i ∈ c.intents, snapshot.pending.filter (·.val.instrumentId = i.val.instrumentId) = []
  reduces : target.reduceOnlyScope → ∀ i ∈ c.intents, i.val.side = .sell
  moves : c.reasons = [] → c.intents.map OrderIntent.move = lacking (target.lacks snapshot) done

/-- The loop converts the instruments it has passed. -/
theorem converted_of_ok (h : instrumentIds.foldlM
      (convertInstrument H target snapshot strategyPin trigger batchId) ⟨[], []⟩ = .ok c) :
    Converted target snapshot instrumentIds c := by
  refine foldlM_invariant_done (Converted target snapshot) ?_
    ⟨by simp, by simp, fun _ => rfl⟩ h
  intro done id c c' _ hdone hstep
  rcases convertInstrument_cases hstep with ⟨hsame, hreasons⟩ | ⟨intent, rfl, hmove,
    hne, hidle, hsell⟩
  · refine ⟨hsame ▸ hdone.idle, hsame ▸ hdone.reduces, fun hnil => ?_⟩
    obtain ⟨hnil, hzero⟩ := hreasons hnil
    rw [hsame, hdone.moves hnil]
    simp [lacking, hzero]
  · have hid : intent.val.instrumentId = id := congrArg Prod.fst hmove
    refine ⟨?_, fun hreduce => ?_, fun hnil => ?_⟩
    · exact forall_mem_snoc.2 ⟨hdone.idle, hid.symm ▸ hidle⟩
    · exact forall_mem_snoc.2 ⟨hdone.reduces hreduce, hsell hreduce⟩
    · rw [List.map_append, hdone.moves hnil, List.map_singleton, hmove]
      simp [lacking, hne]

end AutoQuantTrader
