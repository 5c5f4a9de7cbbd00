import Mathlib.Data.List.Basic
import Mathlib.Data.List.Perm.Subperm

/-!
# Admission against a window that moves

Items are let in one after the other.  Each is let in while fewer than its capacity of the earlier
items count against it, so any set of items that all count against each other is no larger than the
capacity of the one that came last.
-/

namespace RollingWindow

variable {π : Type} {counts : π → π → Prop} {capacity : π → Int} {items : List π}

/-- Each item came when fewer than its capacity of the earlier items counted against it. -/
inductive Admitted (counts : π → π → Prop) (capacity : π → Int) : List π → Prop where
  | nil : Admitted counts capacity []
  | snoc {items counted : List π} {item : π} (h : Admitted counts capacity items)
      (hcounted : ∀ earlier ∈ items, counts item earlier → earlier ∈ counted)
      (hroom : (counted.length : Int) < capacity item) : Admitted counts capacity (items ++ [item])

/-- **The window rule**: items that all count against each other fit the largest of their
capacities. -/
theorem Admitted.length_le [DecidableEq π] (h : Admitted counts capacity items) {chosen : List π}
    {bound : Int} (hnodup : chosen.Nodup) (hsubset : chosen ⊆ items)
    (hcounts : ∀ item ∈ chosen, ∀ earlier ∈ chosen, counts item earlier)
    (hcapacity : ∀ item ∈ chosen, capacity item ≤ bound) (hbound : 0 ≤ bound) :
    (chosen.length : Int) ≤ bound := by
  induction h with
  | nil =>
    obtain rfl := List.subset_nil.1 hsubset
    simpa using hbound
  | @snoc items counted item h hcounted hroom ih =>
    by_cases hlast : item ∈ chosen
    · -- the item that came last found all the others
      have hothers : chosen.erase item ⊆ counted := by
        intro earlier hearlier
        obtain ⟨hne, hmem⟩ := (List.Nodup.mem_erase_iff hnodup).1 hearlier
        have hitems : earlier ∈ items := by
          rcases List.mem_append.1 (hsubset hmem) with hmem | hmem
          · exact hmem
          · exact absurd (List.mem_singleton.1 hmem) hne
        exact hcounted earlier hitems (hcounts item hlast earlier hmem)
      have hlength := ((hnodup.erase item).subperm hothers).length_le
      have hpos := List.length_pos_of_mem hlast
      rw [List.length_erase_of_mem hlast] at hlength
      have hle := hcapacity item hlast
      omega
    · refine ih fun earlier hearlier => ?_
      rcases List.mem_append.1 (hsubset hearlier) with hmem | hmem
      · exact hmem
      · exact absurd (List.mem_singleton.1 hmem ▸ hearlier) hlast

end RollingWindow
