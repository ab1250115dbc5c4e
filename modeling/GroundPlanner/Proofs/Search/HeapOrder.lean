import GroundPlanner.Search.Heap
/-!
# Heaps in order

`Heap.Ordered le` says that every root is least in its part of the heap.  Merging keeps the order for a total and
transitive `le`, so inserting and popping do, and what `pop` takes is least among all entries (`pop_least`).
-/
namespace GroundPlanner
namespace Heap

variable {α : Type} {le : α → α → Bool}

def Ordered (le : α → α → Bool) : Heap α → Prop
  | leaf => True
  | node _ x l r => (∀ y ∈ l.toList ++ r.toList, le x y = true) ∧ l.Ordered le ∧ r.Ordered le

theorem ordered_leaf : (leaf : Heap α).Ordered le :=
  trivial

theorem ordered_join {x : α} {a b : Heap α} (hx : ∀ y ∈ a.toList ++ b.toList, le x y = true) (ha : a.Ordered le)
    (hb : b.Ordered le) : (join x a b).Ordered le := by
  unfold join
  split
  · exact ⟨hx, ha, hb⟩
  · exact ⟨fun y hy => hx y (List.mem_append.2 (List.mem_append.1 hy).symm), hb, ha⟩

section order

variable (htotal : ∀ a b, le a b = true ∨ le b a = true)
  (htrans : ∀ a b c, le a b = true → le b c = true → le a c = true)

include htotal htrans

theorem ordered_mergeNode {rk : Nat} {x : α} {l r : Heap α} {m : Heap α → Heap α}
    (hm : ∀ h, (m h).toList.Perm (r.toList ++ h.toList)) (ho : ∀ h : Heap α, h.Ordered le → (m h).Ordered le)
    (hn : (node rk x l r).Ordered le) {h : Heap α} (hh : h.Ordered le) : (mergeNode le rk x l r m h).Ordered le := by
  obtain ⟨hx, hl, hr⟩ := hn
  induction h with
  | leaf => exact ⟨hx, hl, hr⟩
  | node rk' y l' r' _ ihr =>
    obtain ⟨hy, hl', hr'⟩ := hh
    unfold mergeNode
    split
    · rename_i hxy
      refine ordered_join (fun z hz => ?_) hl (ho _ ⟨hy, hl', hr'⟩)
      rw [List.mem_append, (hm _).mem_iff, List.mem_append, toList, List.mem_cons] at hz
      rcases hz with hz | hz | rfl | hz
      · exact hx z (List.mem_append_left _ hz)
      · exact hx z (List.mem_append_right _ hz)
      · exact hxy
      · exact htrans _ _ _ hxy (hy z hz)
    · rename_i hxy
      have hyx : le y x = true := (htotal x y).resolve_left hxy
      refine ordered_join (fun z hz => ?_) hl' (ihr hr')
      rw [List.mem_append, (toList_mergeNode hm r').mem_iff, List.mem_append, List.mem_cons] at hz
      rcases hz with hz | (rfl | hz) | hz
      · exact hy z (List.mem_append_left _ hz)
      · exact hyx
      · exact htrans _ _ _ hyx (hx z hz)
      · exact hy z (List.mem_append_right _ hz)

theorem ordered_merge {a b : Heap α} (ha : a.Ordered le) (hb : b.Ordered le) : (merge le a b).Ordered le := by
  induction a generalizing b with
  | leaf => exact hb
  | node rk x l r _ ihr =>
    exact ordered_mergeNode htotal htrans (fun h => toList_merge le r h) (fun h hh => ihr ha.2.2 hh) ha hb

theorem ordered_insert {x : α} {h : Heap α} (hh : h.Ordered le) : (insert le x h).Ordered le :=
  ordered_merge htotal htrans ⟨fun _ hy => (by cases hy), ordered_leaf, ordered_leaf⟩ hh

/-- **What `pop` takes is least**, and the rest is in order. -/
theorem pop_least {h t : Heap α} {x : α} (hh : h.Ordered le) (hp : pop le h = some (x, t)) :
    (∀ y ∈ t.toList, le x y = true) ∧ t.Ordered le := by
  cases h with
  | leaf => cases hp
  | node rk y l r =>
    simp only [pop, Option.some.injEq, Prod.mk.injEq] at hp
    obtain ⟨rfl, rfl⟩ := hp
    exact ⟨fun z hz => hh.1 z ((toList_merge le l r).mem_iff.1 hz), ordered_merge htotal htrans hh.2.1 hh.2.2⟩

end order

theorem pop_eq_none_iff {h : Heap α} : pop le h = none ↔ h.toList = [] := by
  cases h <;> simp [pop, toList]

end Heap
end GroundPlanner
