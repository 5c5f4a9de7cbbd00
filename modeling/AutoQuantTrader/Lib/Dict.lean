import Mathlib.Algebra.BigOperators.Group.List.Basic
import Mathlib.Data.List.Dedup
import Mathlib.Data.List.Induction
import Mathlib.Data.List.Perm.Basic
import Mathlib.Data.Set.Function
import Mathlib.Tactic.Abel
import AutoQuantTrader.Lib.Result

/-!
# Insertion-ordered dictionaries

A dictionary that iterates in insertion order, as Python's `dict` does: assigning to a key that is
present replaces the value in place, a new key goes to the end.  Keys are unique by construction.

`sumBy f d` totals `f` over the entries; `sumBy_set` is the fact by which a loop that rewrites one
entry at a time is seen to keep a total.

`unique key e` is the loop that collects facts by their identity: a fact seen twice collapses, two
different facts under one identity raise `e`.
-/

/-- A finite map with unique keys, in insertion order. -/
structure Dict (κ ν : Type) where
  entries : List (κ × ν)
  nodup : (entries.map Prod.fst).Nodup

namespace Dict

variable {κ ν : Type}

/-- The dictionary without entries. -/
def empty : Dict κ ν := ⟨[], List.nodup_nil⟩

def keys (d : Dict κ ν) : List κ := d.entries.map Prod.fst

def values (d : Dict κ ν) : List ν := d.entries.map Prod.snd

theorem nodup_keys (d : Dict κ ν) : d.keys.Nodup := d.nodup

variable {d : Dict κ ν}

theorem ext {e : Dict κ ν} (h : d.entries = e.entries) : d = e := by
  cases d; cases e; simp_all

variable [DecidableEq κ]

/-- The value stored first under `k` in a list of entries. -/
def find (k : κ) : List (κ × ν) → Option ν
  | [] => none
  | (j, v) :: l => if j = k then some v else find k l

/-- `d.get(k)`. -/
def get? (d : Dict κ ν) (k : κ) : Option ν := find k d.entries

/-- `d.get(k, v)`. -/
def getD (d : Dict κ ν) (k : κ) (v : ν) : ν := (d.get? k).getD v

/-- Replace the value under `k` in place, or append a new entry. -/
def assign (k : κ) (v : ν) : List (κ × ν) → List (κ × ν)
  | [] => [(k, v)]
  | (j, w) :: l => if j = k then (k, v) :: l else (j, w) :: assign k v l

variable {j k : κ} {l : List (κ × ν)} {v : ν}

theorem mem_keys_assign : j ∈ (assign k v l).map Prod.fst ↔ j = k ∨ j ∈ l.map Prod.fst := by
  induction l with
  | nil => simp [assign]
  | cons p l ih =>
    by_cases hp : p.1 = k
    · simp [assign, hp]
    · simp only [assign, if_neg hp, List.map_cons, List.mem_cons, ih]
      tauto

theorem nodup_assign (h : (l.map Prod.fst).Nodup) : ((assign k v l).map Prod.fst).Nodup := by
  induction l with
  | nil => simp [assign]
  | cons p l ih =>
    simp only [List.map_cons, List.nodup_cons] at h
    by_cases hp : p.1 = k
    · simpa [assign, hp] using (hp ▸ h : k ∉ l.map Prod.fst ∧ _)
    · simp only [assign, if_neg hp, List.map_cons, List.nodup_cons, mem_keys_assign]
      exact ⟨fun hk => hk.elim hp h.1, ih h.2⟩

/-- `d[k] = v`. -/
def set (d : Dict κ ν) (k : κ) (v : ν) : Dict κ ν :=
  ⟨assign k v d.entries, nodup_assign d.nodup⟩

/-! ## Lookups -/

@[simp] theorem get?_empty (k : κ) : (empty : Dict κ ν).get? k = none := rfl

theorem find_assign (j k : κ) (v : ν) (l : List (κ × ν)) :
    find j (assign k v l) = if j = k then some v else find j l := by
  induction l with
  | nil => simp [assign, find, eq_comm]
  | cons p l ih => grind [assign, find]

theorem get?_set (d : Dict κ ν) (k j : κ) (v : ν) :
    (d.set k v).get? j = if j = k then some v else d.get? j :=
  find_assign j k v d.entries

@[simp] theorem get?_set_self (d : Dict κ ν) (k : κ) (v : ν) : (d.set k v).get? k = some v := by
  rw [get?_set, if_pos rfl]

@[simp] theorem get?_set_of_ne (d : Dict κ ν) (h : j ≠ k) (v : ν) :
    (d.set k v).get? j = d.get? j := by
  rw [get?_set, if_neg h]

/-- What a fold of assignments stores under a key is one of the values, or was there before. -/
theorem mem_of_get?_foldl_set {key : ν → κ} {l : List ν}
    (h : (l.foldl (fun d x => d.set (key x) x) d).get? k = some v) :
    (v ∈ l ∧ key v = k) ∨ d.get? k = some v := by
  induction l generalizing d with
  | nil => exact .inr h
  | cons x rest ih =>
    rcases ih h with ⟨hmem, hkey⟩ | hget
    · exact .inl ⟨List.mem_cons_of_mem x hmem, hkey⟩
    · rw [get?_set] at hget
      split at hget
      · next hk =>
        obtain rfl := Option.some.inj hget
        exact .inl ⟨List.mem_cons_self, hk.symm⟩
      · exact .inr hget

theorem find_eq_none : find k l = none ↔ k ∉ l.map Prod.fst := by
  induction l with
  | nil => simp [find]
  | cons p l ih =>
    by_cases hp : p.1 = k
    · simp [find, hp]
    · simp [find, hp, ih, Ne.symm hp]

@[simp] theorem get?_eq_none : d.get? k = none ↔ k ∉ d.keys :=
  find_eq_none

theorem find_eq_some (h : (l.map Prod.fst).Nodup) : find k l = some v ↔ (k, v) ∈ l := by
  induction l with
  | nil => simp [find]
  | cons p l ih =>
    simp only [List.map_cons, List.nodup_cons] at h
    obtain ⟨j, w⟩ := p
    by_cases hp : j = k
    · subst hp
      have hj : (j, v) ∉ l := fun hm => h.1 (List.mem_map.2 ⟨(j, v), hm, rfl⟩)
      simp [find, hj, eq_comm]
    · simp [find, hp, ih h.2, Ne.symm hp]

theorem get?_eq_some : d.get? k = some v ↔ (k, v) ∈ d.entries :=
  find_eq_some d.nodup

theorem mem_keys : k ∈ d.keys ↔ ∃ v, d.get? k = some v := by
  rw [← not_iff_not, ← get?_eq_none, Option.eq_none_iff_forall_ne_some, not_exists]

@[simp] theorem mem_keys_set : j ∈ (d.set k v).keys ↔ j = k ∨ j ∈ d.keys :=
  mem_keys_assign

theorem mem_values : v ∈ d.values ↔ ∃ k, d.get? k = some v := by
  simp only [values, List.mem_map, Prod.exists, exists_eq_right, get?_eq_some]

theorem assign_of_not_mem (h : k ∉ l.map Prod.fst) : assign k v l = l ++ [(k, v)] := by
  induction l with
  | nil => rfl
  | cons p l ih =>
    simp only [List.map_cons, List.mem_cons, not_or] at h
    simp [assign, Ne.symm h.1, ih h.2]

/-- A new key goes to the end. -/
theorem entries_set_of_not_mem (v : ν) (h : k ∉ d.keys) :
    (d.set k v).entries = d.entries ++ [(k, v)] :=
  assign_of_not_mem h

theorem values_set_of_not_mem (v : ν) (h : k ∉ d.keys) : (d.set k v).values = d.values ++ [v] := by
  simp [values, entries_set_of_not_mem v h]

theorem assign_of_find (h : find k l = some v) : assign k v l = l := by
  induction l with
  | nil => simp [find] at h
  | cons p l ih =>
    obtain ⟨j, w⟩ := p
    by_cases hp : j = k
    · subst hp
      simp only [find, if_true, Option.some.injEq] at h
      simp [assign, h]
    · simp only [find, if_neg hp] at h
      simp [assign, hp, ih h]

/-- Assigning the value that is there changes nothing. -/
theorem set_eq_self (h : d.get? k = some v) : d.set k v = d :=
  ext (assign_of_find h)

/-- Two dictionaries in which the same is found have the same keys. -/
theorem mem_keys_congr {d' : Dict κ ν} (h : ∀ k, d.get? k = d'.get? k) (k : κ) :
    k ∈ d.keys ↔ k ∈ d'.keys := by
  rw [mem_keys, mem_keys, h]

/-- Dictionaries with the same bindings hold the same entries in some order. -/
theorem entries_perm {d' : Dict κ ν} (h : ∀ k, d.get? k = d'.get? k) :
    d.entries.Perm d'.entries := by
  refine (List.perm_ext_iff_of_nodup d.nodup.of_map d'.nodup.of_map).2 fun ⟨k, v⟩ => ?_
  rw [← get?_eq_some, ← get?_eq_some, h]

/-! ## Removing -/

/-- `del d[k]`, or nothing when the key is absent. -/
def erase (d : Dict κ ν) (k : κ) : Dict κ ν :=
  ⟨d.entries.filter (·.1 ≠ k), d.nodup.sublist (List.filter_sublist.map _)⟩

theorem get?_erase (d : Dict κ ν) (k j : κ) :
    (d.erase k).get? j = if j = k then none else d.get? j := by
  refine Option.ext fun v => ?_
  rw [get?_eq_some, erase, List.mem_filter, ← get?_eq_some]
  by_cases hj : j = k
  · simp [hj]
  · simp [hj]

/-! ## Grouping -/

section group

variable {β : Type} {key : β → κ}

/-- `d.setdefault(k, []).append(x)`. -/
def push (d : Dict κ (List β)) (k : κ) (x : β) : Dict κ (List β) :=
  d.set k (d.getD k [] ++ [x])

theorem getD_push (d : Dict κ (List β)) (k j : κ) (x : β) :
    (d.push k x).getD j [] = if j = k then d.getD k [] ++ [x] else d.getD j [] := by
  rw [push, getD, get?_set]
  split
  · next h => rfl
  · next h => rfl

/-- The items of each key, in the order in which they came. -/
def group (key : β → κ) (xs : List β) : Dict κ (List β) :=
  xs.foldl (fun d x => d.push (key x) x) empty

theorem group_append_singleton (xs : List β) (x : β) :
    group key (xs ++ [x]) = (group key xs).push (key x) x := by
  rw [group, List.foldl_append]
  rfl

/-- A group has the elements of its key, in their order. -/
theorem getD_group (xs : List β) (k : κ) : (group key xs).getD k [] = xs.filter (key · = k) := by
  induction xs using List.reverseRecOn with
  | nil => rfl
  | append_singleton xs x ih =>
    rw [group_append_singleton, getD_push, List.filter_append]
    by_cases hk : k = key x
    · rw [if_pos hk, ← hk, ih]
      simp [← hk]
    · rw [if_neg hk, ih]
      simp [Ne.symm hk]

theorem mem_keys_group {xs : List β} : k ∈ (group key xs).keys ↔ ∃ x ∈ xs, key x = k := by
  induction xs using List.reverseRecOn with
  | nil => simp [group, empty, keys]
  | append_singleton xs x ih =>
    rw [group_append_singleton, push, mem_keys_set, ih]
    simp only [List.mem_append, List.mem_singleton, or_and_right, exists_or, exists_eq_left]
    rw [or_comm, eq_comm]

/-- Iterating over the groups is iterating over their keys. -/
theorem entries_group (xs : List β) :
    (group key xs).entries = (group key xs).keys.map fun k => (k, xs.filter (key · = k)) := by
  rw [keys, List.map_map]
  refine (List.map_id _).symm.trans (List.map_congr_left fun p hp => ?_)
  rw [Function.comp_apply, ← getD_group, getD, get?_eq_some.2 (show (p.1, p.2) ∈ _ from hp)]
  rfl

end group

/-! ## Totals -/

variable {α : Type} [AddCommGroup α]

/-- The total of `f` over the entries. -/
def sumBy (f : κ → ν → α) (d : Dict κ ν) : α := (d.entries.map fun p => f p.1 p.2).sum

theorem sum_assign (f : κ → ν → α) (k : κ) (v : ν) (l : List (κ × ν)) :
    ((assign k v l).map fun p => f p.1 p.2).sum =
      (l.map fun p => f p.1 p.2).sum + f k v - ((find k l).elim 0 (f k)) := by
  induction l with
  | nil => simp [assign, find]
  | cons p l ih =>
    obtain ⟨j, w⟩ := p
    by_cases hp : j = k
    · subst hp
      simp only [assign, find, if_true, List.map_cons, List.sum_cons, Option.elim_some]
      abel
    · simp only [assign, find, if_neg hp, List.map_cons, List.sum_cons, ih]
      abel

/-- Assigning to one key moves a total by the difference at that key. -/
theorem sumBy_set (f : κ → ν → α) (d : Dict κ ν) (k : κ) (v : ν) :
    sumBy f (d.set k v) = sumBy f d + f k v - (d.get? k).elim 0 (f k) :=
  sum_assign f k v d.entries

/-- Reading every key of a list that covers the dictionary adds up the dictionary. -/
theorem sum_getD_eq_sumBy {f : ν → α} (hv : f v = 0) {ks : List κ} (hks : ks.Nodup)
    (hcover : ∀ k ∈ d.keys, k ∈ ks) :
    (ks.map fun k => f (d.getD k v)).sum = d.sumBy fun _ w => f w := by
  have hzero (k : κ) (hk : k ∉ d.keys) : f (d.getD k v) = 0 := by
    rw [getD, get?_eq_none.2 hk, Option.getD_none, hv]
  have hperm : (ks.filter (· ∈ d.keys)).Perm d.keys := by
    refine (List.perm_ext_iff_of_nodup (hks.filter _) d.nodup).2 fun k => ?_
    rw [List.mem_filter, decide_eq_true_eq]
    exact ⟨And.right, fun hk => ⟨hcover k hk, hk⟩⟩
  have hfilter (l : List κ) : (l.map fun k => f (d.getD k v)).sum =
      ((l.filter (· ∈ d.keys)).map fun k => f (d.getD k v)).sum := by
    induction l with
    | nil => rfl
    | cons k l ih =>
      by_cases hk : k ∈ d.keys
      · simp [hk, ih]
      · simp [hk, ih, hzero k hk]
  rw [hfilter, (hperm.map _).sum_eq, sumBy, keys, List.map_map]
  congr 1
  refine List.map_congr_left fun p hp => ?_
  rw [Function.comp_apply, getD, get?_eq_some.2 hp, Option.getD_some]

/-! ## Collecting facts by identity -/

section unique

open Result

variable {ε β : Type} {key : β → κ} {e : ε}

/-- Bind the key of an item to a value, unless it is bound to another. -/
def bindStep [DecidableEq ν] (key : β → κ) (value : β → ν) (e : β → ε) (d : Dict κ ν) (x : β) :
    Except ε (Dict κ ν) := do
  throwIf (∃ v ∈ d.get? (key x), v ≠ value x) (e x)
  return d.set (key x) (value x)

variable {value : β → ν} {f : β → ε} {xs : List β} {a x : β}

theorem bindStep_eq_ok [DecidableEq ν] {d' : Dict κ ν} :
    bindStep key value f d x = .ok d' ↔ (∀ v, d.get? (key x) = some v → v = value x) ∧
      d.set (key x) (value x) = d' := by
  simp [bindStep]

/-- The keys of the items are bound to their values, and nothing else is bound. -/
def Binds (key : β → κ) (value : β → ν) (d : Dict κ ν) (xs : List β) : Prop :=
  ∀ k v, d.get? k = some v ↔ ∃ x ∈ xs, key x = k ∧ value x = v

theorem Binds.insert (h : Binds key value d xs) (ha : ∀ v, d.get? (key a) = some v → v = value a) :
    Binds key value (d.set (key a) (value a)) (xs ++ [a]) := by
  intro k v
  simp only [get?_set, List.mem_append, List.mem_singleton, or_and_right, exists_or, exists_eq_left,
    ← h k v]
  by_cases hk : k = key a
  · rw [if_pos hk, Option.some.injEq, hk]
    exact ⟨fun hv => .inr ⟨rfl, hv⟩, fun hv => hv.elim (fun hv => (ha v hv).symm) And.right⟩
  · rw [if_neg hk]
    exact ⟨.inl, fun hv => hv.elim id fun hv => absurd hv.1.symm hk⟩

variable {y : β}

theorem Binds.value_eq (h : Binds key value d xs) (hx : x ∈ xs) (hy : y ∈ xs)
    (hxy : key x = key y) : value x = value y := by
  have hvx := (h (key x) (value x)).2 ⟨x, hx, rfl, rfl⟩
  have hvy := (h (key x) (value y)).2 ⟨y, hy, hxy.symm, rfl⟩
  exact Option.some.inj (hvx.symm.trans hvy)

/-- **Keys can be bound exactly when each is bound to one value.** -/
theorem exists_bind_iff [DecidableEq ν] : (∃ d, xs.foldlM (bindStep key value f) empty = .ok d) ↔
      ∀ x ∈ xs, ∀ y ∈ xs, key x = key y → value x = value y := by
  have init : Binds key value empty [] := fun k v => by simp
  constructor
  · rintro ⟨d, hd⟩ x hx y hy hxy
    have hbinds : Binds key value d xs := by
      refine foldlM_invariant_done (fun done d => Binds key value d done) ?_ init hd
      intro done a d d' _ hd hstep
      obtain ⟨hsame, rfl⟩ := bindStep_eq_ok.1 hstep
      exact hd.insert hsame
    exact hbinds.value_eq hx hy hxy
  · intro hsame
    refine (foldlM_total (fun done d => Binds key value d done) ?_ init).imp fun d hd => hd.1
    intro done a rest d hxs hd
    have ha (v) (hv : d.get? (key a) = some v) : v = value a := by
      obtain ⟨x, hx, hkey, rfl⟩ := (hd _ _).1 hv
      exact hsame x (by simp [← hxs, hx]) a (by simp [← hxs]) hkey
    exact ⟨_, bindStep_eq_ok.2 ⟨ha, rfl⟩, hd.insert ha⟩

variable [DecidableEq β]

/-- One fact enters the index, or conflicts with the fact stored under its key. -/
def uniqueStep (key : β → κ) (e : ε) (d : Dict κ β) (x : β) : Except ε (Dict κ β) := do
  throwIf (∃ y ∈ d.get? (key x), y ≠ x) e
  return d.set (key x) x

/-- Index facts by `key`; one key with two different facts raises `e`. -/
def unique (key : β → κ) (e : ε) (xs : List β) : Except ε (Dict κ β) :=
  xs.foldlM (uniqueStep key e) empty

variable {d d' : Dict κ β}

theorem uniqueStep_eq_ok : uniqueStep key e d x = .ok d' ↔ (∀ y, d.get? (key x) = some y → y = x) ∧
      d.set (key x) x = d' := by
  simp [uniqueStep]

variable {ε' : Type} {e' : ε'}

/-- Which exception a conflict would raise does not matter when there is none. -/
theorem foldlM_uniqueStep_congr (h : xs.foldlM (uniqueStep key e) d = .ok d') :
    xs.foldlM (uniqueStep key e') d = .ok d' :=
  foldlM_simulation id (fun _ _ _ _ hstep => uniqueStep_eq_ok.2 (uniqueStep_eq_ok.1 hstep)) h

/-- Once the facts are known not to conflict, indexing them is plain assignment. -/
theorem foldl_set_of_unique (h : unique key e xs = .ok d) :
    xs.foldl (fun d x => d.set (key x) x) empty = d := by
  refine foldlM_invariant_done
    (fun done d => done.foldl (fun d x => d.set (key x) x) empty = d) ?_ rfl h
  intro done x d d' _ hd hstep
  rw [List.foldl_append, hd]
  exact (uniqueStep_eq_ok.1 hstep).2

/-- The dictionary holds exactly the facts `xs`, each under its key. -/
def Indexes (key : β → κ) (d : Dict κ β) (xs : List β) : Prop :=
  ∀ k x, d.get? k = some x ↔ x ∈ xs ∧ key x = k

omit [DecidableEq β] in
theorem indexes_iff_binds : Indexes key d xs ↔ Binds key id d xs := by
  refine forall₂_congr fun k x => iff_congr Iff.rfl ⟨fun hx => ⟨x, hx.1, hx.2, rfl⟩, ?_⟩
  rintro ⟨y, hy, hkey, rfl⟩
  exact ⟨hy, hkey⟩

omit [DecidableEq β] in
theorem indexes_empty : Indexes key empty [] := by
  intro k x
  simp

omit [DecidableEq β] in
/-- A fact enters under its key, unless another fact is there. -/
theorem Indexes.insert (h : Indexes key d xs) (ha : ∀ x ∈ xs, key x = key a → x = a) :
    Indexes key (d.set (key a) a) (xs ++ [a]) :=
  indexes_iff_binds.2 ((indexes_iff_binds.1 h).insert fun x hx =>
    ha x ((h _ _).1 hx).1 ((h _ _).1 hx).2)

omit [DecidableEq β] in
/-- A fact that is there already changes nothing. -/
theorem Indexes.append_of_mem (h : Indexes key d xs) (ha : a ∈ xs) : Indexes key d (xs ++ [a]) := by
  intro k x
  rw [h, List.mem_append, List.mem_singleton]
  refine and_congr_left fun _ => ⟨.inl, fun hx => hx.elim id ?_⟩
  rintro rfl
  exact ha

variable {done : List β}

theorem indexes_of_uniqueStep (h : Indexes key d done) (hstep : uniqueStep key e d x = .ok d') :
    Indexes key d' (done ++ [x]) := by
  obtain ⟨hsame, rfl⟩ := uniqueStep_eq_ok.1 hstep
  exact h.insert fun y hy hkey => hsame y ((h _ _).2 ⟨hy, hkey⟩)

section indexed

variable (h : unique key e xs = .ok d)

include h

theorem indexes_of_unique : Indexes key d xs := by
  refine foldlM_invariant_done (fun done d => Indexes key d done) ?_ indexes_empty h
  exact fun done a d d' _ hd hstep => indexes_of_uniqueStep hd hstep

theorem get?_of_unique (k : κ) (x : β) : d.get? k = some x ↔ x ∈ xs ∧ key x = k :=
  indexes_of_unique h k x

theorem mem_values_of_unique : x ∈ d.values ↔ x ∈ xs := by
  simp [mem_values, get?_of_unique h]

/-- Facts that were collected without conflict are determined by their key. -/
theorem mem_keys_of_unique : k ∈ d.keys ↔ ∃ x ∈ xs, key x = k := by
  simp only [mem_keys, get?_of_unique h]

theorem eq_of_unique (hx : x ∈ xs) (hy : y ∈ xs) (hxy : key x = key y) : x = y :=
  (indexes_iff_binds.1 (indexes_of_unique h)).value_eq hx hy hxy

theorem nodup_keys_of_unique : (d.values.map key).Nodup := by
  have hkey : d.values.map key = d.keys := by
    unfold values keys
    rw [List.map_map]
    refine List.map_congr_left fun p hp => ?_
    exact ((get?_of_unique h p.1 p.2).1 (get?_eq_some.2 hp)).2
  exact hkey ▸ d.nodup

theorem nodup_values_of_unique : d.values.Nodup :=
  List.Nodup.of_map key (nodup_keys_of_unique h)

/-- Collecting keeps each distinct fact once. -/
theorem values_perm_dedup : d.values.Perm xs.dedup := by
  rw [List.perm_ext_iff_of_nodup (nodup_values_of_unique h) (List.nodup_dedup xs)]
  simp [mem_values_of_unique h]

/-- The facts are kept in the order in which they came. -/
theorem values_sublist_of_unique : d.values.Sublist xs := by
  refine foldlM_invariant_done (fun done d => d.values.Sublist done) ?_ (List.Sublist.refl _) h
  intro done a d d' _ hd hstep
  obtain ⟨hsame, rfl⟩ := uniqueStep_eq_ok.1 hstep
  cases hget : d.get? (key a) with
  | none =>
    rw [values_set_of_not_mem a (get?_eq_none.1 hget)]
    exact hd.append (List.Sublist.refl [a])
  | some y =>
    obtain rfl := hsame y hget
    rw [set_eq_self hget]
    exact hd.trans (List.sublist_append_left done _)

/-- Facts that do not repeat are all kept. -/
theorem values_eq_of_unique (hxs : xs.Nodup) : d.values = xs := by
  refine (values_sublist_of_unique h).eq_of_length ?_
  rw [(values_perm_dedup h).length_eq, hxs.dedup]

/-- Facts that do not repeat are the entries, each under its key. -/
theorem entries_eq_of_unique (hxs : xs.Nodup) : d.entries = xs.map fun x => (key x, x) := by
  rw [← values_eq_of_unique h hxs, values, List.map_map]
  refine ((List.map_congr_left fun item hitem => ?_).trans (List.map_id d.entries)).symm
  have hget : d.get? item.1 = some item.2 := get?_eq_some.2 hitem
  rw [Function.comp_apply, ((indexes_of_unique h item.1 item.2).1 hget).2]
  rfl

end indexed

/-- **Facts can be indexed exactly when no two of them share a key.** -/
theorem exists_unique_iff : (∃ d, unique key e xs = .ok d) ↔ Set.InjOn key {x | x ∈ xs} := by
  have hbind : (∃ d, xs.foldlM (bindStep key id fun _ => e) empty = .ok d) ↔
      ∀ x ∈ xs, ∀ y ∈ xs, key x = key y → x = y := exists_bind_iff
  exact hbind.trans ⟨fun h x hx y hy hxy => h x hx y hy hxy, fun h x hx y hy hxy => h hx hy hxy⟩

variable {ys : List β}

/-- Which exceptions a conflict would raise and in which order the facts come does not matter to
what is found under a key. -/
theorem get?_eq_of_unique (h : unique key e xs = .ok d) (h' : unique key e' ys = .ok d')
    (hmem : ∀ x, x ∈ xs ↔ x ∈ ys) (k : κ) : d.get? k = d'.get? k := by
  refine Option.ext fun x => ?_
  rw [get?_of_unique h, get?_of_unique h', hmem]

/-- Which exception a conflict raises may depend on the fact that conflicts. -/
theorem foldlM_uniqueStep_eq_ok (e' : ε') :
    xs.foldlM (fun d x => uniqueStep key (f x) d x) d = .ok d' ↔
      xs.foldlM (uniqueStep key e') d = .ok d' := by
  induction xs generalizing d with
  | nil => simp
  | cons x xs ih => simp only [foldlM_cons_eq_ok, uniqueStep_eq_ok, ih]

/-- **Redelivery does not matter**: facts that come in another order, or more than once, are indexed
to the same entries. -/
theorem exists_unique_of_mem_iff (h : unique key e xs = .ok d) (hmem : ∀ x, x ∈ xs ↔ x ∈ ys) :
    ∃ d', unique key e ys = .ok d' ∧ d.values.Perm d'.values ∧ ∀ k, d.get? k = d'.get? k := by
  have hset : {x | x ∈ xs} = {x | x ∈ ys} := Set.ext hmem
  obtain ⟨d', h'⟩ := (exists_unique_iff (e := e)).2 (hset ▸ exists_unique_iff.1 ⟨d, h⟩)
  refine ⟨d', h', ?_, get?_eq_of_unique h h' hmem⟩
  rw [List.perm_ext_iff_of_nodup (nodup_values_of_unique h) (nodup_values_of_unique h')]
  intro x
  rw [mem_values_of_unique h, mem_values_of_unique h', hmem]

/-- Index facts by two keys at once. -/
def uniqueStep₂ {κ' : Type} [DecidableEq κ'] (key : β → κ) (key' : β → κ') (e e' : ε)
    (d : Dict κ β × Dict κ' β) (x : β) : Except ε (Dict κ β × Dict κ' β) := do
  let byKey ← uniqueStep key e d.1 x
  let byKey' ← uniqueStep key' e' d.2 x
  return (byKey, byKey')

/-- Facts that have two identities: neither may be shared by different facts. -/
def unique₂ {κ' : Type} [DecidableEq κ'] (key : β → κ) (key' : β → κ') (e e' : ε) (xs : List β) :
    Except ε (Dict κ β) := do
  let d ← xs.foldlM (uniqueStep₂ key key' e e') (empty, empty)
  return d.1

variable {e' : ε} {κ' : Type} {d' r' : Dict κ' β} {key' : β → κ'}

theorem foldlM_uniqueStep₂_eq_ok [DecidableEq κ'] {r : Dict κ β} :
    xs.foldlM (uniqueStep₂ key key' e e') (d, d') = .ok (r, r') ↔
      xs.foldlM (uniqueStep key e) d = .ok r ∧ xs.foldlM (uniqueStep key' e') d' = .ok r' := by
  induction xs generalizing d d' with
  | nil => simp
  | cons x xs ih =>
    simp only [foldlM_cons_eq_ok, uniqueStep₂, eq_ok]
    constructor
    · rintro ⟨_, ⟨a, ha, b, hb, rfl⟩, hrest⟩
      exact ⟨⟨a, ha, (ih.1 hrest).1⟩, b, hb, (ih.1 hrest).2⟩
    · rintro ⟨⟨a, ha, hr⟩, b, hb, hr'⟩
      exact ⟨(a, b), ⟨a, ha, b, hb, rfl⟩, ih.2 ⟨hr, hr'⟩⟩

/-- The index of two keys exists exactly if both keys are unique. -/
theorem unique₂_eq_ok [DecidableEq κ'] : unique₂ key key' e e' xs = .ok d ↔
      unique key e xs = .ok d ∧ Set.InjOn key' {x | x ∈ xs} := by
  rw [← exists_unique_iff (e := e')]
  simp only [unique₂, eq_ok, unique]
  constructor
  · rintro ⟨⟨r, r'⟩, hpair, rfl⟩
    exact ⟨(foldlM_uniqueStep₂_eq_ok.1 hpair).1, r', (foldlM_uniqueStep₂_eq_ok.1 hpair).2⟩
  · rintro ⟨hr, r', hr'⟩
    exact ⟨(d, r'), foldlM_uniqueStep₂_eq_ok.2 ⟨hr, hr'⟩, rfl⟩

theorem exists_unique₂_of_mem_iff [DecidableEq κ'] (h : unique₂ key key' e e' xs = .ok d)
    (hmem : ∀ x, x ∈ xs ↔ x ∈ ys) :
    ∃ d', unique₂ key key' e e' ys = .ok d' ∧ d.values.Perm d'.values := by
  obtain ⟨hd, hinj⟩ := unique₂_eq_ok.1 h
  obtain ⟨d', hd', hperm, -⟩ := exists_unique_of_mem_iff hd hmem
  refine ⟨d', unique₂_eq_ok.2 ⟨hd', ?_⟩, hperm⟩
  exact (Set.ext hmem : {x | x ∈ xs} = {x | x ∈ ys}) ▸ hinj

theorem unique_of_unique₂ [DecidableEq κ'] (h : unique₂ key key' e e' xs = .ok d) :
    unique key () xs = .ok d ∧ ∃ d', unique key' () xs = .ok d' := by
  obtain ⟨hd, hinj⟩ := unique₂_eq_ok.1 h
  exact ⟨foldlM_uniqueStep_congr hd, exists_unique_iff.2 hinj⟩

/-- A fact that is known by its first key is only compared with what is known; a new one may not
take the second key of another. -/
def admitStep {κ' : Type} [DecidableEq κ'] (key : β → κ) (key' : β → κ') (e e' : β → ε)
    (index : Dict κ β × Dict κ' β) (x : β) : Except ε (Dict κ β × Dict κ' β) :=
  match index.1.get? (key x) with
  | some existing => do
    throwIf (existing ≠ x) (e x)
    return index
  | none => do
    throwIf (index.2.get? (key' x)).isSome (e' x)
    return (index.1.set (key x) x, index.2.set (key' x) x)

section admission

variable {κ' : Type} [DecidableEq κ'] {key' : β → κ'} {f f' : β → ε} {r : Dict κ β × Dict κ' β}

/-- Checking both indexes before the insertion admits the same elements. -/
theorem admitStep_eq_ok {index : Dict κ β × Dict κ' β} (h : Indexes key index.1 done)
    (h' : Indexes key' index.2 done) :
    admitStep key key' f f' index x = .ok r ↔ uniqueStep₂ key key' () () index x = .ok r := by
  simp only [uniqueStep₂, eq_ok, uniqueStep_eq_ok]
  unfold admitStep
  split
  · next existing hget =>
    have hmem := ((h _ _).1 hget).1
    simp only [eq_ok, throwIf_eq_ok, not_not, exists_const]
    constructor
    · rintro ⟨rfl, rfl⟩
      have hget' : index.2.get? (key' existing) = some existing := (h' _ _).2 ⟨hmem, rfl⟩
      refine ⟨index.1, ⟨fun y hy => ?_, set_eq_self hget⟩, index.2,
        ⟨fun y hy => ?_, set_eq_self hget'⟩, rfl⟩
      · exact Option.some.inj (hy.symm.trans hget)
      · exact Option.some.inj (hy.symm.trans hget')
    · rintro ⟨_, ⟨hsame, rfl⟩, _, ⟨-, rfl⟩, rfl⟩
      obtain rfl := hsame existing hget
      have hget' : index.2.get? (key' existing) = some existing := (h' _ _).2 ⟨hmem, rfl⟩
      exact ⟨rfl, by rw [set_eq_self hget, set_eq_self hget']⟩
  · next hget =>
    simp only [eq_ok, throwIf_eq_ok, exists_const, Bool.not_eq_true, Option.isSome_eq_false_iff,
      Option.isNone_iff_eq_none, hget, reduceCtorEq, false_implies, implies_true, true_and,
      exists_eq_left']
    constructor
    · rintro ⟨hnone, hr⟩
      exact ⟨_, ⟨fun y hy => by simp [hnone] at hy, rfl⟩, hr⟩
    · rintro ⟨_, ⟨hsame, rfl⟩, hr⟩
      refine ⟨?_, hr⟩
      cases hget' : index.2.get? (key' x) with
      | none => rfl
      | some y =>
        obtain rfl := hsame y hget'
        simp [(h _ _).2 ⟨((h' _ _).1 hget').1, rfl⟩] at hget

/-- **Facts are admitted exactly when neither key is shared.** -/
theorem foldlM_admitStep_eq_ok : xs.foldlM (admitStep key key' f f') (empty, empty) = .ok r ↔
      unique key () xs = .ok r.1 ∧ unique key' () xs = .ok r.2 := by
  have hsteps (xs done : List β) (index : Dict κ β × Dict κ' β) (h : Indexes key index.1 done)
      (h' : Indexes key' index.2 done) :
      xs.foldlM (admitStep key key' f f') index = .ok r ↔
        xs.foldlM (uniqueStep₂ key key' () ()) index = .ok r := by
    induction xs generalizing done index with
    | nil => simp
    | cons x xs ih =>
      simp only [foldlM_cons_eq_ok, admitStep_eq_ok h h']
      refine exists_congr fun next => and_congr_right fun hnext => ?_
      simp only [uniqueStep₂, eq_ok] at hnext
      obtain ⟨_, hd, _, hd', rfl⟩ := hnext
      exact ih (done ++ [x]) _ (indexes_of_uniqueStep h hd) (indexes_of_uniqueStep h' hd')
  rw [hsteps xs [] _ indexes_empty indexes_empty]
  exact foldlM_uniqueStep₂_eq_ok

end admission

def uniqueStep₃ {κ' κ'' : Type} [DecidableEq κ'] [DecidableEq κ''] (key : β → κ) (key' : β → κ')
    (key'' : β → κ'') (e e' e'' : ε) (d : Dict κ β × Dict κ' β × Dict κ'' β) (x : β) :
    Except ε (Dict κ β × Dict κ' β × Dict κ'' β) := do
  let byKey ← uniqueStep key e d.1 x
  let byKey' ← uniqueStep key' e' d.2.1 x
  let byKey'' ← uniqueStep key'' e'' d.2.2 x
  return (byKey, byKey', byKey'')

/-- Facts that have three identities; the first two indexes are kept. -/
def unique₃ {κ' κ'' : Type} [DecidableEq κ'] [DecidableEq κ''] (key : β → κ) (key' : β → κ')
    (key'' : β → κ'') (e e' e'' : ε) (xs : List β) : Except ε (Dict κ β × Dict κ' β) := do
  let d ← xs.foldlM (uniqueStep₃ key key' key'' e e' e'') (empty, empty, empty)
  return (d.1, d.2.1)

variable {e'' : ε} {κ'' : Type} {key'' : β → κ''}

theorem foldlM_uniqueStep₃_eq_ok [DecidableEq κ'] [DecidableEq κ''] {r : Dict κ β}
    {d'' r'' : Dict κ'' β} :
    xs.foldlM (uniqueStep₃ key key' key'' e e' e'') (d, d', d'') = .ok (r, r', r'') ↔
      xs.foldlM (uniqueStep key e) d = .ok r ∧ xs.foldlM (uniqueStep key' e') d' = .ok r' ∧
        xs.foldlM (uniqueStep key'' e'') d'' = .ok r'' := by
  induction xs generalizing d d' d'' with
  | nil => simp
  | cons x xs ih =>
    simp only [foldlM_cons_eq_ok, uniqueStep₃, eq_ok]
    constructor
    · rintro ⟨_, ⟨a, ha, b, hb, c, hc, rfl⟩, hrest⟩
      obtain ⟨hr, hr', hr''⟩ := ih.1 hrest
      exact ⟨⟨a, ha, hr⟩, ⟨b, hb, hr'⟩, c, hc, hr''⟩
    · rintro ⟨⟨a, ha, hr⟩, ⟨b, hb, hr'⟩, c, hc, hr''⟩
      exact ⟨(a, b, c), ⟨a, ha, b, hb, c, hc, rfl⟩, ih.2 ⟨hr, hr', hr''⟩⟩

/-- The indexes of three keys exist exactly if the keys are unique. -/
theorem unique₃_eq_ok [DecidableEq κ'] [DecidableEq κ''] :
    unique₃ key key' key'' e e' e'' xs = .ok (d, d') ↔
      unique key e xs = .ok d ∧ unique key' e' xs = .ok d' ∧ Set.InjOn key'' {x | x ∈ xs} := by
  rw [← exists_unique_iff (e := e'')]
  simp only [unique₃, eq_ok, unique]
  constructor
  · rintro ⟨⟨r, r', r''⟩, htriple, heq⟩
    cases heq
    obtain ⟨hr, hr', hr''⟩ := foldlM_uniqueStep₃_eq_ok.1 htriple
    exact ⟨hr, hr', r'', hr''⟩
  · rintro ⟨hr, hr', r'', hr''⟩
    exact ⟨(d, d', r''), foldlM_uniqueStep₃_eq_ok.2 ⟨hr, hr', hr''⟩, rfl⟩

theorem exists_unique₃_of_mem_iff [DecidableEq κ'] [DecidableEq κ'']
    (h : unique₃ key key' key'' e e' e'' xs = .ok (d, d')) (hmem : ∀ x, x ∈ xs ↔ x ∈ ys) :
    ∃ r r', unique₃ key key' key'' e e' e'' ys = .ok (r, r') ∧ (∀ k, d.get? k = r.get? k) ∧
      ∀ k, d'.get? k = r'.get? k := by
  obtain ⟨hd, hd', hinj⟩ := unique₃_eq_ok.1 h
  obtain ⟨r, hr, -, hget⟩ := exists_unique_of_mem_iff hd hmem
  obtain ⟨r', hr', -, hget'⟩ := exists_unique_of_mem_iff hd' hmem
  refine ⟨r, r', unique₃_eq_ok.2 ⟨hr, hr', ?_⟩, hget, hget'⟩
  exact (Set.ext hmem : {x | x ∈ xs} = {x | x ∈ ys}) ▸ hinj

theorem unique_of_unique₃ [DecidableEq κ'] [DecidableEq κ''] {d : Dict κ β × Dict κ' β}
    (h : unique₃ key key' key'' e e' e'' xs = .ok d) :
    unique key () xs = .ok d.1 ∧ unique key' () xs = .ok d.2 := by
  obtain ⟨hd, hd', -⟩ := unique₃_eq_ok.1 h
  exact ⟨foldlM_uniqueStep_congr hd, foldlM_uniqueStep_congr hd'⟩

end unique

end Dict
