import AutoQuantTrader.RequestBudget

/-!
# The text of identifiers

`canonical_id` returns the text of a UUID.  Such text passes every check that the records make of an
identifier, whatever it was derived from.
-/

namespace AutoQuantTrader

open Result

/-- The text of a UUID, which is what `canonical_id` returns. -/
def isUuid (value : Str) : Prop :=
  value.chars.length = 36 ∧ ∀ c ∈ value.chars, c.isAlphanum ∨ c = '-'

/-- Letters, digits and dashes are visible. -/
theorem visible_of_isUuid {c : Char} (h : c.isAlphanum ∨ c = '-') :
    isSpace c = false ∧ 32 ≤ c.toNat ∧ c.toNat ≠ 127 := by
  have hcode : c.toNat = 45 ∨ 48 ≤ c.toNat ∧ c.toNat ≤ 122 := by
    rcases h with halnum | rfl
    · right
      have hcases : (decide (c.val ≥ 'A'.val ∧ c.val ≤ 'Z'.val) ||
          (decide (c.val ≥ 'a'.val) && decide (c.val ≤ 'z'.val)) ||
          (decide (c.val ≥ '0'.val) && decide (c.val ≤ '9'.val))) = true := halnum
      simp only [Bool.or_eq_true, Bool.and_eq_true, decide_eq_true_eq, ge_iff_le,
        UInt32.le_iff_toNat_le] at hcases
      show 48 ≤ c.val.toNat ∧ c.val.toNat ≤ 122
      have hconst : 'A'.val.toNat = 65 ∧ 'Z'.val.toNat = 90 ∧ 'a'.val.toNat = 97 ∧
        'z'.val.toNat = 122 ∧ '0'.val.toNat = 48 ∧ '9'.val.toNat = 57 := by decide
      omega
    · exact .inl rfl
  refine ⟨?_, by omega, by omega⟩
  simp only [isSpace, Bool.or_eq_false_iff, Bool.and_eq_false_iff, decide_eq_false_iff_not,
    beq_eq_false_iff_ne]
  omega

theorem isTrimmed_of_isUuid (h : isUuid value) : isTrimmed value := by
  simp only [isTrimmed, Bool.and_eq_true, Option.all_eq_true, Bool.not_eq_true']
  exact ⟨fun c hc => (visible_of_isUuid (h.2 c (List.mem_of_head? hc))).1,
    fun c hc => (visible_of_isUuid (h.2 c (List.mem_of_getLast? hc))).1⟩

theorem ne_empty_of_isUuid (h : isUuid value) : value ≠ "" := by
  rintro rfl
  cases h.1

theorem requireVisibleText_of_isUuid (h : isUuid value) :
    requireVisibleText 128 value fieldName = .ok u := by
  simp only [requireVisibleText, requireText, Py.eq_ok, not_or, not_lt]
  refine ⟨(), ⟨ne_empty_of_isUuid h, isTrimmed_of_isUuid h⟩, by rw [h.1]; decide, ?_⟩
  rintro ⟨c, hc, hcontrol⟩
  have hvisible := visible_of_isUuid (h.2 c hc)
  omega

theorem requireVisibleText_congr (h : requireVisibleText maximum value fieldName = .ok u) :
    requireVisibleText maximum value fieldName' = .ok u' := by
  simp only [requireVisibleText, requireText, Py.eq_ok] at h ⊢
  exact h

theorem isUuid_digitsId (kind : Str) (parts : List IdPart) : isUuid (digitsId kind parts) := by
  have hdigit : ∀ d < 10, (Char.ofNat (48 + d)).isAlphanum = true := by decide
  refine ⟨by simp [digitsId], fun c hc => .inl ?_⟩
  obtain ⟨i, -, rfl⟩ := List.mem_map.1 hc
  exact hdigit _ (Nat.mod_lt _ (by decide))

end AutoQuantTrader
