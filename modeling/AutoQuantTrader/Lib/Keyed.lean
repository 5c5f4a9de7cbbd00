import Mathlib.Algebra.BigOperators.Group.List.Lemmas
import Mathlib.Data.List.Nodup
import Mathlib.Tactic.Abel

/-!
# Lists of records with a key

A list in which no two items share a key behaves like a map: looking a key up, replacing the item of
a key, and adding up over the items of each key.
-/

namespace Keyed

variable {α β κ : Type} [DecidableEq κ] {key : α → κ} {l : List α}

/-! ## Looking up -/

variable {a : α} {k : κ}

theorem key_of_find? (h : l.find? (key · = k) = some a) : key a = k := by
  simpa using List.find?_some h

/-- With unique keys, what is found under a key is the item of that key. -/
theorem find?_eq_some_iff (hnodup : (l.map key).Nodup) :
    l.find? (key · = k) = some a ↔ a ∈ l ∧ key a = k := by
  constructor
  · intro h
    exact ⟨List.mem_of_find?_eq_some h, key_of_find? h⟩
  · rintro ⟨hmem, rfl⟩
    cases hfind : l.find? (key · = key a) with
    | none => simpa using List.find?_eq_none.1 hfind a hmem
    | some b =>
      have hb := List.mem_of_find?_eq_some hfind
      rw [List.inj_on_of_nodup_map hnodup hb hmem (key_of_find? hfind)]

theorem find?_eq_none_iff : l.find? (key · = k) = none ↔ k ∉ l.map key := by
  simp [List.find?_eq_none]

/-- A key that occurs once selects its one member. -/
theorem filter_eq_singleton (hnodup : (l.map key).Nodup) (ha : a ∈ l) :
    l.filter (key · = key a) = [a] := by
  induction l with
  | nil => cases ha
  | cons b rest ih =>
    rw [List.map_cons, List.nodup_cons] at hnodup
    rcases List.mem_cons.1 ha with rfl | hmem
    · have hnone : rest.filter (key · = key a) = [] := by
        rw [List.filter_eq_nil_iff]
        intro c hc heq
        exact hnodup.1 (List.mem_map.2 ⟨c, hc, of_decide_eq_true heq⟩)
      rw [List.filter_cons_of_pos (by simp), hnone]
    · have hne : key b ≠ key a := fun heq => hnodup.1 (heq ▸ List.mem_map_of_mem hmem)
      rw [List.filter_cons_of_neg (by simpa using hne), ih hnodup.2 hmem]

variable {l' : List α}

/-- The order of the items does not matter to what is found. -/
theorem find?_eq_of_perm (hperm : l.Perm l') (hnodup : (l.map key).Nodup) (k : κ) :
    l.find? (key · = k) = l'.find? (key · = k) := by
  have hnodup' : (l'.map key).Nodup := (hperm.map key).nodup_iff.1 hnodup
  refine Option.ext fun a => ?_
  rw [find?_eq_some_iff hnodup, find?_eq_some_iff hnodup', hperm.mem_iff]

/-- More items with keys of their own do not hide what was found. -/
theorem find?_of_subset (hsubset : l ⊆ l') (hnodup : (l'.map key).Nodup)
    (h : l.find? (key · = k) = some a) : l'.find? (key · = k) = some a :=
  (find?_eq_some_iff hnodup).2 ⟨hsubset (List.mem_of_find?_eq_some h), key_of_find? h⟩

/-! ## Adding up -/

section sums

variable {M : Type} [AddCommMonoid M]

/-- What is found under a key is what a sum over the key's items sees. -/
theorem sum_map_find? (hnodup : (l.map key).Nodup) (k : κ) (f : α → M) :
    (l.map fun a => if key a = k then f a else 0).sum =
      ((l.find? (key · = k)).map f).getD 0 := by
  induction l with
  | nil => rfl
  | cons a l ih =>
    rw [List.map_cons, List.nodup_cons] at hnodup
    rw [List.map_cons, List.sum_cons, ih hnodup.2]
    by_cases ha : key a = k
    · have hnone : l.find? (key · = k) = none := find?_eq_none_iff.2 (ha ▸ hnodup.1)
      rw [if_pos ha, hnone, List.find?_cons_of_pos (by simpa using ha)]
      simp
    · rw [if_neg ha, zero_add, List.find?_cons_of_neg (by simpa using ha)]

/-- Adding up the items of every group is adding up the items. -/
theorem sum_groups {owner : β → κ} (hnodup : (l.map key).Nodup) (items : List β) (f : α → β → M) :
    (l.map fun a => ((items.filter (owner · = key a)).map (f a)).sum).sum =
      (items.map fun b => ((l.find? (key · = owner b)).map (f · b)).getD 0).sum := by
  induction items with
  | nil => simp
  | cons b items ih =>
    rw [List.map_cons, List.sum_cons, ← ih, ← sum_map_find? hnodup (owner b) (f · b),
      ← List.sum_map_add]
    congr 1
    refine List.map_congr_left fun a _ => ?_
    by_cases hb : owner b = key a
    · rw [List.filter_cons_of_pos (by simpa using hb), if_pos hb.symm, List.map_cons,
        List.sum_cons]
    · rw [List.filter_cons_of_neg (by simpa using hb), if_neg (Ne.symm hb), zero_add]

end sums

/-! ## Replacing -/

/-- Put an item in the place of the one with its key. -/
def replace (key : α → κ) (a : α) (l : List α) : List α :=
  l.map fun b => if key b = key a then a else b

/-- What the new item shares with the old one stays. -/
theorem map_replace {γ : Type} {f : α → γ} (h : ∀ b ∈ l, key b = key a → f b = f a) :
    (replace key a l).map f = l.map f := by
  rw [replace, List.map_map]
  refine List.map_congr_left fun b hmem => ?_
  by_cases hb : key b = key a
  · rw [Function.comp_apply, if_pos hb, h b hmem hb]
  · rw [Function.comp_apply, if_neg hb]

theorem mem_replace_of_ne {b : α} (hb : b ∈ l) (hkey : key b ≠ key a) : b ∈ replace key a l :=
  List.mem_map.2 ⟨b, hb, if_neg hkey⟩

variable {c : α}

theorem mem_replace_self (hc : c ∈ l) (hkey : key a = key c) : a ∈ replace key a l :=
  List.mem_map.2 ⟨c, hc, if_pos hkey.symm⟩

theorem replace_of_not_mem (h : key a ∉ l.map key) : replace key a l = l := by
  refine (List.map_congr_left fun b hb => ?_).trans (List.map_id l)
  refine if_neg fun hkey : key b = key a => h ?_
  rw [← hkey]
  exact List.mem_map_of_mem hb

/-- Replacing an item trades its share of a total for the new item's. -/
theorem sum_replace {M : Type} [AddCommGroup M] (hnodup : (l.map key).Nodup) (hc : c ∈ l)
    (hkey : key a = key c) (f : α → M) :
    ((replace key a l).map f).sum = (l.map f).sum - f c + f a := by
  induction l with
  | nil => simp at hc
  | cons b l ih =>
    rw [List.map_cons, List.nodup_cons] at hnodup
    rw [replace, List.map_cons, List.map_cons, List.sum_cons, List.map_cons, List.sum_cons]
    rcases List.mem_cons.1 hc with rfl | hmem
    · have hrest : l.map (fun b => if key b = key a then a else b) = l :=
        replace_of_not_mem (hkey ▸ hnodup.1)
      rw [if_pos hkey.symm, hrest]
      abel
    · have hne : key b ≠ key a := fun heq =>
        hnodup.1 (List.mem_map.2 ⟨c, hmem, (heq.trans hkey).symm⟩)
      have hrest := ih hnodup.2 hmem
      rw [replace] at hrest
      rw [if_neg hne, hrest]
      abel

end Keyed
