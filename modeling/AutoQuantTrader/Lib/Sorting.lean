import Mathlib.Data.List.Sort
import Mathlib.Data.Prod.Lex
import Mathlib.Order.MinMax
import Mathlib.Algebra.BigOperators.Group.List.Basic

/-!
# Stable sorting by a key

`sortOn key xs` is `sorted(xs, key=key)`: the items in increasing order of their key, items with
equal keys in the order in which they came.  Composite keys are lexicographic pairs.
-/

namespace Sorting

variable {α κ : Type} [LinearOrder κ]

/-- `sorted(xs, key=key)`. -/
def sortOn (key : α → κ) (xs : List α) : List α :=
  xs.insertionSort fun a b => key a ≤ key b

theorem sortOn_perm (key : α → κ) (xs : List α) : (sortOn key xs).Perm xs :=
  List.perm_insertionSort _ xs

variable {key : α → κ} {xs : List α}

@[simp] theorem mem_sortOn {x : α} : x ∈ sortOn key xs ↔ x ∈ xs :=
  (sortOn_perm key xs).mem_iff

@[simp] theorem nodup_sortOn : (sortOn key xs).Nodup ↔ xs.Nodup :=
  (sortOn_perm key xs).nodup_iff

theorem sortOn_pairwise (key : α → κ) (xs : List α) :
    (sortOn key xs).Pairwise fun a b => key a ≤ key b := by
  have : Std.Total (fun a b : α => key a ≤ key b) := ⟨fun a b => le_total _ _⟩
  have : IsTrans α (fun a b : α => key a ≤ key b) := ⟨fun _ _ _ => le_trans⟩
  exact List.pairwise_insertionSort _ xs

variable {ys : List α}

/-- Two arrangements of the same items sort to the same list when the key tells the items apart. -/
theorem sortOn_eq_of_perm (h : xs.Perm ys) (hkey : ∀ a ∈ xs, ∀ b ∈ xs, key a = key b → a = b) :
    sortOn key xs = sortOn key ys := by
  refine List.Perm.eq_of_pairwise (fun a b ha hb hab hba => ?_)
    (sortOn_pairwise key xs) (sortOn_pairwise key ys)
    ((sortOn_perm key xs).trans (h.trans (sortOn_perm key ys).symm))
  have hax : a ∈ xs := mem_sortOn.1 ha
  have hbx : b ∈ xs := h.mem_iff.2 (mem_sortOn.1 hb)
  exact hkey a hax b hbx (le_antisymm hab hba)

/-- Two arrangements of the same items that are both numbered in order are the same. -/
theorem eq_of_perm_of_numbered {number : α → Nat} (h : xs.Perm ys)
    (hx : xs.map number = List.range' 1 xs.length) (hy : ys.map number = List.range' 1 ys.length) :
    xs = ys := by
  have increasing {zs : List α} (hz : zs.map number = List.range' 1 zs.length) :
      zs.Pairwise fun a b => number a < number b := by
    rw [← List.pairwise_map, hz]
    exact List.pairwise_lt_range'
  exact List.Perm.eq_of_pairwise (fun a b _ _ hab hba => absurd hba hab.asymm) (increasing hx)
    (increasing hy) h

/-- A key that ends in an identity tells items with different identities apart. -/
theorem sortOn_eq_of_perm_of_nodup {ι : Type} {identity : α → ι} (h : xs.Perm ys)
    (hnodup : (xs.map identity).Nodup) (hkey : ∀ a b, key a = key b → identity a = identity b) :
    sortOn key xs = sortOn key ys :=
  sortOn_eq_of_perm h fun a ha b hb hab => List.inj_on_of_nodup_map hnodup ha hb (hkey a b hab)

/-- What comes after some items matters to sorting only as far as it is sorted itself. -/
theorem sortOn_append_congr {zs : List α} (h : sortOn key ys = sortOn key zs) (xs : List α) :
    sortOn key (xs ++ ys) = sortOn key (xs ++ zs) := by
  induction xs with
  | nil => exact h
  | cons x xs ih =>
    unfold sortOn at ih ⊢
    rw [List.cons_append, List.cons_append, List.insertionSort_cons, List.insertionSort_cons, ih]

/-- Items that are in order already stay where they are. -/
theorem sortOn_eq_self (h : xs.Pairwise fun a b => key a ≤ key b) : sortOn key xs = xs :=
  List.Pairwise.insertionSort_eq h

/-- One more item takes its place among the sorted items. -/
theorem exists_sortOn_cons {x : α} (hperm : ys.Perm (x :: xs)) (hnodup : (ys.map key).Nodup) :
    ∃ l₁ l₂, sortOn key xs = l₁ ++ l₂ ∧ sortOn key ys = l₁ ++ x :: l₂ := by
  have hx : x ∈ sortOn key ys := mem_sortOn.2 (hperm.mem_iff.2 List.mem_cons_self)
  obtain ⟨l₁, l₂, hys⟩ := List.append_of_mem hx
  refine ⟨l₁, l₂, ?_, hys⟩
  have hsorted : (l₁ ++ x :: l₂).Pairwise fun a b => key a ≤ key b := hys ▸ sortOn_pairwise key ys
  have hrest : (l₁ ++ l₂).Perm xs := by
    have hall : (l₁ ++ x :: l₂).Perm (x :: xs) := (hys ▸ sortOn_perm key ys).trans hperm
    exact (List.perm_middle.symm.trans hall).cons_inv
  have hkeys : ((x :: xs).map key).Nodup := (hperm.map key).nodup_iff.1 hnodup
  rw [List.map_cons, List.nodup_cons] at hkeys
  rw [sortOn_eq_of_perm_of_nodup hrest.symm hkeys.2 fun _ _ hab => hab]
  exact sortOn_eq_self (hsorted.sublist ((List.Sublist.refl l₁).append
    (List.sublist_cons_self x l₂)))

/-- Items that are in order split at any bound. -/
theorem filter_append_filter (h : xs.Pairwise fun a b => key a ≤ key b) (t : κ) :
    xs.filter (key · ≤ t) ++ xs.filter (t < key ·) = xs := by
  induction xs with
  | nil => rfl
  | cons x xs ih =>
    obtain ⟨hx, hxs⟩ := List.pairwise_cons.1 h
    by_cases hle : key x ≤ t
    · rw [List.filter_cons_of_pos (by simpa using hle),
        List.filter_cons_of_neg (by simpa using hle), List.cons_append, ih hxs]
    · have hlt : t < key x := not_le.1 hle
      have hnone : xs.filter (key · ≤ t) = [] := by
        rw [List.filter_eq_nil_iff]
        intro y hy
        simpa using hlt.trans_le (hx y hy)
      have hall : xs.filter (t < key ·) = xs := by
        rw [List.filter_eq_self]
        intro y hy
        simpa using hlt.trans_le (hx y hy)
      rw [List.filter_cons_of_neg (by simpa using hlt), hnone,
        List.filter_cons_of_pos (by simpa using hlt), hall, List.nil_append]

/-- Items that are sorted and then changed, but not in their key, are changed items sorted. -/
theorem map_sortOn {β : Type} {key' : β → κ} {f : α → β} (h : ∀ a, key' (f a) = key a)
    (xs : List α) : (sortOn key xs).map f = sortOn key' (xs.map f) := by
  refine List.map_insertionSort _ _ f xs fun a _ b _ => ?_
  rw [h, h]

theorem sum_map_sortOn {β : Type} [AddCommMonoid β] (key : α → κ) (xs : List α) (f : α → β) :
    ((sortOn key xs).map f).sum = (xs.map f).sum :=
  ((sortOn_perm key xs).map f).sum_eq

/-! ## The latest of a list -/

theorem le_foldl_max_iff {t first : κ} {times : List κ} :
    t ≤ times.foldl max first ↔ t ≤ first ∨ ∃ x ∈ times, t ≤ x := by
  induction times generalizing first with
  | nil => simp
  | cons x times ih =>
    rw [List.foldl_cons, ih, le_max_iff, or_assoc, List.exists_mem_cons_iff]

theorem foldl_max_le_iff {t first : κ} {times : List κ} :
    times.foldl max first ≤ t ↔ first ≤ t ∧ ∀ x ∈ times, x ≤ t := by
  induction times generalizing first with
  | nil => simp
  | cons x times ih =>
    rw [List.foldl_cons, ih, max_le_iff, and_assoc, List.forall_mem_cons]

end Sorting
