import GroundPlanner.Proofs.Search.HeapOrder
import GroundPlanner.Search.OpenList
import Mathlib.Data.List.Nodup
/-!
# The open list as a queue

`OpenEntry.le` is a total order on the entries of one list, since no two of them have the same serial number.
`OpenList.Sound` is what every list built by pushing and popping keeps; on a sound list `pop` takes the one least
entry (`Sound.pop`).
-/
namespace GroundPlanner
namespace OpenEntry

variable {α : Type}

theorem le_iff {a b : OpenEntry α} : a.le b = true ↔ a.priority < b.priority ∨ a.priority = b.priority ∧
    (a.estimate < b.estimate ∨ a.estimate = b.estimate ∧ a.serial ≤ b.serial) := by
  unfold le
  by_cases hp : a.priority = b.priority
  · by_cases he : a.estimate = b.estimate
    · simp [hp, he]
    · simp [hp, he]
  · simp [hp]

theorem le_total (a b : OpenEntry α) : a.le b = true ∨ b.le a = true := by
  simp only [le_iff, UInt64.lt_iff_toNat_lt, ← UInt64.toNat_inj]
  omega

theorem le_trans (a b c : OpenEntry α) (h : a.le b = true) (h' : b.le c = true) : a.le c = true := by
  simp only [le_iff, UInt64.lt_iff_toNat_lt, ← UInt64.toNat_inj] at *
  omega

theorem le_antisymm {a b : OpenEntry α} (h : a.le b = true) (h' : b.le a = true) : a.serial = b.serial := by
  simp only [le_iff, UInt64.lt_iff_toNat_lt, ← UInt64.toNat_inj] at *
  omega

theorem priority_le {a b : OpenEntry α} (h : a.le b = true) : a.priority ≤ b.priority := by
  simp only [le_iff, UInt64.lt_iff_toNat_lt, UInt64.le_iff_toNat_le, ← UInt64.toNat_inj] at *
  omega

theorem le_of_priority_le {a b : OpenEntry α} (hp : a.priority ≤ b.priority) (he : a.estimate = b.estimate)
    (hs : a.serial ≤ b.serial) : a.le b = true := by
  simp only [le_iff, UInt64.lt_iff_toNat_lt, UInt64.le_iff_toNat_le, ← UInt64.toNat_inj] at *
  omega

end OpenEntry

namespace OpenList

variable {α : Type}

/-- The entries on the list, in no particular order. -/
def entries (l : OpenList α) : List (OpenEntry α) :=
  l.heap.toList

def items (l : OpenList α) : List α :=
  l.entries.map OpenEntry.item

/-- The entry that pushing an item puts on the list. -/
def newEntry (l : OpenList α) (item : α) (priority estimate : UInt64) : OpenEntry α :=
  ⟨orderKey priority, orderKey estimate, l.pushed, item⟩

/-- What pushing and popping keep. -/
structure Sound (l : OpenList α) : Prop where
  ordered : l.heap.Ordered OpenEntry.le
  size_eq : l.size = l.entries.length
  serial_lt : ∀ e ∈ l.entries, e.serial < l.pushed
  distinct : (l.entries.map OpenEntry.serial).Nodup

theorem sound_empty : (empty : OpenList α).Sound :=
  ⟨trivial, rfl, fun _ h => (by cases h), List.nodup_nil⟩

theorem entries_push (l : OpenList α) (x : α) (f h : UInt64) :
    (l.push x f h).entries.Perm (l.newEntry x f h :: l.entries) :=
  Heap.toList_insert _ _ _

theorem mem_entries_push {l : OpenList α} {x : α} {f h : UInt64} {e : OpenEntry α} :
    e ∈ (l.push x f h).entries ↔ e = l.newEntry x f h ∨ e ∈ l.entries := by
  rw [(entries_push l x f h).mem_iff, List.mem_cons]

theorem mem_items_push {l : OpenList α} {x y : α} {f h : UInt64} : y ∈ (l.push x f h).items ↔ y = x ∨ y ∈ l.items :=
  ((entries_push l x f h).map OpenEntry.item).mem_iff.trans List.mem_cons

theorem Sound.push {l : OpenList α} (hl : l.Sound) (x : α) (f h : UInt64) : (l.push x f h).Sound where
  ordered := Heap.ordered_insert OpenEntry.le_total OpenEntry.le_trans hl.ordered
  size_eq := by
    rw [(entries_push l x f h).length_eq, List.length_cons, ← hl.size_eq]
    rfl
  serial_lt e he := by
    rcases mem_entries_push.1 he with rfl | he
    · exact Nat.lt_succ_self _
    · exact Nat.lt_succ_of_lt (hl.serial_lt e he)
  distinct := by
    rw [((entries_push l x f h).map _).nodup_iff, List.map_cons, List.nodup_cons]
    refine ⟨fun hm => ?_, hl.distinct⟩
    obtain ⟨e, he, hs⟩ := List.mem_map.1 hm
    exact Nat.lt_irrefl _ (hs ▸ hl.serial_lt e he)

theorem pop_eq_none_iff {l : OpenList α} : l.pop = none ↔ l.entries = [] := by
  unfold pop entries
  rw [← @Heap.pop_eq_none_iff _ OpenEntry.le]
  split <;> simp_all

/-- **What a pop takes and leaves**: the first entry goes, all others stay, each of them behind it. -/
structure Popped (l : OpenList α) (e : OpenEntry α) (l' : OpenList α) : Prop where
  perm : l.entries.Perm (e :: l'.entries)
  first : ∀ e' ∈ l.entries, e.le e' = true
  sound : l'.Sound
  size_eq : l.size = l'.size + 1
  pushed_eq : l'.pushed = l.pushed
  highWater_eq : l'.highWater = l.highWater

theorem Sound.pop {l l' : OpenList α} {x : α} (hl : l.Sound) (hp : l.pop = some (x, l')) :
    ∃ e, e.item = x ∧ l.Popped e l' := by
  unfold OpenList.pop at hp
  split at hp
  · cases hp
  · rename_i e h hh
    simp only [Option.some.injEq, Prod.mk.injEq] at hp
    obtain ⟨rfl, rfl⟩ := hp
    have hperm : l.entries.Perm (e :: h.toList) := Heap.toList_pop hh
    obtain ⟨hleast, hord⟩ := Heap.pop_least OpenEntry.le_total OpenEntry.le_trans hl.ordered hh
    have hlen : l.size = h.toList.length + 1 := by rw [hl.size_eq, hperm.length_eq, List.length_cons]
    refine ⟨e, rfl, hperm, fun e' he' => ?_, ⟨hord, ?_, fun e' he' => ?_, ?_⟩, ?_, rfl, rfl⟩
    · rcases List.mem_cons.1 (hperm.mem_iff.1 he') with rfl | he'
      · exact (OpenEntry.le_total e' e').elim id id
      · exact hleast e' he'
    · change l.size - 1 = h.toList.length
      omega
    · exact hl.serial_lt e' (hperm.mem_iff.2 (List.mem_cons_of_mem _ he'))
    · have hd := hl.distinct
      rw [(hperm.map _).nodup_iff, List.map_cons, List.nodup_cons] at hd
      exact hd.2
    · change l.size = l.size - 1 + 1
      omega

namespace Popped

variable {l l' : OpenList α} {e : OpenEntry α}

theorem mem_iff (h : l.Popped e l') {e' : OpenEntry α} : e' ∈ l.entries ↔ e' = e ∨ e' ∈ l'.entries := by
  rw [h.perm.mem_iff, List.mem_cons]

theorem mem (h : l.Popped e l') : e ∈ l.entries :=
  h.mem_iff.2 (.inl rfl)

theorem mem_of_mem (h : l.Popped e l') {e' : OpenEntry α} (he : e' ∈ l'.entries) : e' ∈ l.entries :=
  h.mem_iff.2 (.inr he)

theorem mem_items_iff (h : l.Popped e l') {x : α} : x ∈ l.items ↔ x = e.item ∨ x ∈ l'.items :=
  (h.perm.map OpenEntry.item).mem_iff.trans List.mem_cons

theorem ne_of_mem (h : l.Popped e l') (hd : l.items.Nodup) {x : α} (hx : x ∈ l'.items) : x ≠ e.item := by
  have hd : (e.item :: l'.items).Nodup := ((h.perm.map OpenEntry.item).nodup_iff).1 hd
  exact fun hxe => (List.nodup_cons.1 hd).1 (hxe ▸ hx)

end Popped

end OpenList
end GroundPlanner
