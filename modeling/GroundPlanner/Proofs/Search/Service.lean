import GroundPlanner.Proofs.Double.TotalOrder
import GroundPlanner.Proofs.Search.HighWater
import Mathlib.Data.List.Induction
import Mathlib.Data.List.Perm.Basic
import Mathlib.Data.List.ReduceOption
/-!
# The open list as a stable queue

`Served` says how a queue answers pushes and pops: entries wait in the order in which they came, and a pop takes the
one that precedes all others by priority, estimate and number.  An open list answers every sequence of requests so
(`serve_stable`), whatever patterns it is given, and drains in the order of a stable sort.
-/
namespace GroundPlanner
namespace OpenList

variable {α : Type}

/-! ## Requests -/

inductive Request (α : Type) where
  | push (item : α) (priority estimate : UInt64)
  | pop

/-- The answers to the pops among some requests, and the list after them. -/
def serve (l : OpenList α) : List (Request α) → List (Option α) × OpenList α
  | [] => ([], l)
  | .push x f h :: rs => (l.push x f h).serve rs
  | .pop :: rs =>
    match l.pop with
    | none =>
      let (answers, rest) := l.serve rs
      (none :: answers, rest)
    | some (x, l') =>
      let (answers, rest) := l'.serve rs
      (some x :: answers, rest)

/-- What was handed in, under its number among all that was. -/
structure Ticket (α : Type) where
  priority : UInt64
  estimate : UInt64
  number : Nat
  item : α

namespace Ticket

/-- Whether the keys of `s` come before those of `t`: the priorities, of equal ones the estimates. -/
def keysLt (s t : Ticket α) : Bool :=
  Double.totalLt s.priority t.priority || (s.priority == t.priority && Double.totalLt s.estimate t.estimate)

/-- Whether a sort by keys may leave `s` in front of `t`. -/
def keysLe (s t : Ticket α) : Bool :=
  !t.keysLt s

/-- **The order of service**: by priority, estimate and number. -/
def Precedes (s t : Ticket α) : Prop :=
  s.keysLt t = true ∨ s.priority = t.priority ∧ s.estimate = t.estimate ∧ s.number < t.number

end Ticket

/-- The tickets of the pushes among some requests, numbered from `n` on. -/
def tickets (n : Nat) : List (Request α) → List (Ticket α)
  | [] => []
  | .push x f h :: rs => ⟨f, h, n, x⟩ :: tickets (n + 1) rs
  | .pop :: rs => tickets n rs

/-- **How a queue serves requests**: `Served q n rs answers q'` says that with `q` waiting and `n` tickets handed out
so far, the pops among `rs` are answered by `answers` and `q'` waits in the end. -/
inductive Served : List (Ticket α) → Nat → List (Request α) → List (Option (Ticket α)) → List (Ticket α) → Prop where
  | done (q : List (Ticket α)) (n : Nat) : Served q n [] [] q
  | push {q q' : List (Ticket α)} {n : Nat} {rs : List (Request α)} {answers : List (Option (Ticket α))} {x : α}
      {f h : UInt64} (hs : Served (q ++ [⟨f, h, n, x⟩]) (n + 1) rs answers q') :
      Served q n (.push x f h :: rs) answers q'
  | refuse {q' : List (Ticket α)} {n : Nat} {rs : List (Request α)} {answers : List (Option (Ticket α))}
      (hs : Served [] n rs answers q') : Served [] n (.pop :: rs) (none :: answers) q'
  | take {ahead behind q' : List (Ticket α)} {n : Nat} {rs : List (Request α)} {answers : List (Option (Ticket α))}
      {t : Ticket α} (hfirst : ∀ s ∈ ahead ++ behind, t.Precedes s) (hs : Served (ahead ++ behind) n rs answers q') :
      Served (ahead ++ t :: behind) n (.pop :: rs) (some t :: answers) q'

/-! ## Tickets and entries -/

namespace Ticket

variable {s t u : Ticket α}

def entry (t : Ticket α) : OpenEntry α :=
  ⟨orderKey t.priority, orderKey t.estimate, t.number, t.item⟩

theorem pattern_eq_iff {x y : UInt64} : x = y ↔ (orderKey x).toNat = (orderKey y).toNat := by
  rw [UInt64.toNat_inj]
  exact ⟨congrArg orderKey, orderKey_injective⟩

theorem keysLt_iff : s.keysLt t = true ↔ (orderKey s.priority).toNat < (orderKey t.priority).toNat ∨
    (orderKey s.priority).toNat = (orderKey t.priority).toNat ∧
      (orderKey s.estimate).toNat < (orderKey t.estimate).toNat := by
  simp only [keysLt, Bool.or_eq_true, Bool.and_eq_true, beq_iff_eq, ← Double.orderKey_lt_iff, UInt64.lt_iff_toNat_lt,
    pattern_eq_iff]

theorem keysLe_iff : s.keysLe t = true ↔ ¬ t.keysLt s = true := by
  rw [keysLe, Bool.not_eq_true', Bool.not_eq_true]

theorem precedes_iff : s.Precedes t ↔ s.keysLt t = true ∨ s.keysLe t = true ∧ s.number < t.number := by
  rw [Precedes, pattern_eq_iff, pattern_eq_iff, keysLe_iff, keysLt_iff, keysLt_iff]
  omega

/-- The entries are in the order of service, but for those of one number. -/
theorem precedes_of_le (h : s.entry.le t.entry = true) (hne : s.number ≠ t.number) : s.Precedes t := by
  rw [OpenEntry.le_iff] at h
  simp only [entry, UInt64.lt_iff_toNat_lt, ← UInt64.toNat_inj] at h
  rw [precedes_iff, keysLe_iff, keysLt_iff, keysLt_iff]
  omega

theorem Precedes.asymm (h : s.Precedes t) : ¬ t.Precedes s := by
  rw [precedes_iff, keysLe_iff, keysLt_iff, keysLt_iff] at *
  omega

theorem keysLe_trans (s t u : Ticket α) (hst : s.keysLe t = true) (htu : t.keysLe u = true) : s.keysLe u = true := by
  rw [keysLe_iff, keysLt_iff] at *
  omega

theorem keysLe_total (s t : Ticket α) : (s.keysLe t || t.keysLe s) = true := by
  rw [Bool.or_eq_true, keysLe_iff, keysLe_iff, keysLt_iff, keysLt_iff]
  omega

end Ticket

/-! ## Sorting by keys -/

section stable

variable {β : Type} {le : β → β → Bool} {xs : List β} (htrans : ∀ a b c, le a b = true → le b c = true → le a c = true)
  (htotal : ∀ a b, (le a b || le b a) = true)

include htrans htotal

theorem filter_mergeSort {p : β → Bool} (hp : ∀ a b, p a = true → p b = true → le a b = true) :
    (xs.mergeSort le).filter p = xs.filter p := by
  have hties : (xs.filter p).Pairwise (fun a b => le a b = true) := by
    refine List.pairwise_iff_forall_sublist.2 fun {a b} hab => ?_
    have ha := List.mem_filter.1 (hab.subset List.mem_cons_self)
    have hb := List.mem_filter.1 (hab.subset (List.mem_cons_of_mem a List.mem_cons_self))
    exact hp a b ha.2 hb.2
  have hsub : (xs.filter p).Sublist ((xs.mergeSort le).filter p) := by
    have h := (List.sublist_mergeSort htrans htotal hties List.filter_sublist).filter p
    simpa using h
  exact (hsub.eq_of_length ((List.mergeSort_perm xs le).filter p).length_eq.symm).symm

/-- **A stable sort leaves ties as they were.** -/
theorem sublist_of_sublist_mergeSort {a b : β} (h : [a, b].Sublist (xs.mergeSort le)) (hba : le b a = true) :
    [a, b].Sublist xs := by
  have hab : le a b = true := List.pairwise_iff_forall_sublist.1 (List.pairwise_mergeSort htrans htotal xs) h
  have haa : le a a = true := by simpa using htotal a a
  let p : β → Bool := fun c => le a c && le c a
  have hp : ∀ c d, p c = true → p d = true → le c d = true := by
    intro c d hc hd
    simp only [p, Bool.and_eq_true] at hc hd
    exact htrans c a d hc.2 hd.1
  have hkept := h.filter p
  rw [filter_mergeSort htrans htotal hp, List.filter_eq_self.2 (by simp [p, haa, hab, hba])] at hkept
  exact hkept.trans List.filter_sublist

end stable

theorem pairwise_mergeSort {q : List (Ticket α)} (hq : q.Pairwise (fun s t => s.number < t.number)) :
    (q.mergeSort Ticket.keysLe).Pairwise Ticket.Precedes := by
  refine List.pairwise_iff_forall_sublist.2 fun {s t} hst => ?_
  rw [Ticket.precedes_iff]
  by_cases hlt : s.keysLt t = true
  · exact .inl hlt
  · have hle : s.keysLe t = true :=
      List.pairwise_iff_forall_sublist.1 (List.pairwise_mergeSort Ticket.keysLe_trans Ticket.keysLe_total q) hst
    have hq' := sublist_of_sublist_mergeSort Ticket.keysLe_trans Ticket.keysLe_total hst (Ticket.keysLe_iff.2 hlt)
    exact .inr ⟨hle, List.pairwise_iff_forall_sublist.1 hq hq'⟩

theorem eq_mergeSort {q ts : List (Ticket α)} (hq : q.Pairwise (fun s t => s.number < t.number)) (hp : ts.Perm q)
    (ht : ts.Pairwise Ticket.Precedes) : ts = q.mergeSort Ticket.keysLe :=
  List.Perm.eq_of_pairwise (fun _ _ _ _ hst hts => absurd hts hst.asymm) ht (pairwise_mergeSort hq)
    (hp.trans (List.mergeSort_perm q Ticket.keysLe).symm)

/-! ## Serving -/

/-- **An open list on which the tickets of `q` wait**, `n` having been handed out. -/
structure Holds (l : OpenList α) (q : List (Ticket α)) (n : Nat) : Prop where
  levelled : l.Levelled
  entries : l.entries.Perm (q.map Ticket.entry)
  pushed_eq : l.pushed = n
  numbers : q.Pairwise (fun s t => s.number < t.number)

namespace Holds

variable {l l' : OpenList α} {q q' : List (Ticket α)} {n : Nat}

theorem empty : (empty : OpenList α).Holds [] 0 :=
  ⟨levelled_empty, .nil, rfl, .nil⟩

theorem size_eq (h : l.Holds q n) : l.size = q.length := by
  rw [h.levelled.sound.size_eq, h.entries.length_eq, List.length_map]

theorem number_lt (h : l.Holds q n) {t : Ticket α} (ht : t ∈ q) : t.number < n := by
  rw [← h.pushed_eq]
  exact h.levelled.sound.serial_lt t.entry (h.entries.mem_iff.2 (List.mem_map_of_mem ht))

theorem push (h : l.Holds q n) (x : α) (f g : UInt64) : (l.push x f g).Holds (q ++ [⟨f, g, n, x⟩]) (n + 1) where
  levelled := (Step.push x f g).levelled h.levelled
  entries := by
    have hnew : l.newEntry x f g = Ticket.entry ⟨f, g, n, x⟩ := by rw [← h.pushed_eq]; rfl
    rw [List.map_append, List.map_singleton, ← hnew]
    exact (entries_push l x f g).trans ((h.entries.cons _).trans (List.perm_append_singleton _ _).symm)
  pushed_eq := congrArg Nat.succ h.pushed_eq
  numbers := by
    refine List.pairwise_append.2 ⟨h.numbers, List.pairwise_singleton _ _, fun s hs t ht => ?_⟩
    rw [List.mem_singleton.1 ht]
    exact h.number_lt hs

theorem pop_none (h : l.Holds q n) : l.pop = none ↔ q = [] := by
  rw [pop_eq_none_iff, ← List.length_eq_zero_iff, h.entries.length_eq, List.length_map, List.length_eq_zero_iff]

/-- **A pop takes the ticket whose turn it is.** -/
theorem pop_some (h : l.Holds q n) {x : α} (hp : l.pop = some (x, l')) :
    ∃ ahead t behind, q = ahead ++ t :: behind ∧ t.item = x ∧ (∀ s ∈ ahead ++ behind, t.Precedes s) ∧
      l'.Holds (ahead ++ behind) n := by
  obtain ⟨e, rfl, hpop⟩ := h.levelled.sound.pop hp
  obtain ⟨t, ht, rfl⟩ := List.mem_map.1 (h.entries.mem_iff.1 hpop.mem)
  obtain ⟨ahead, behind, rfl⟩ := List.append_of_mem ht
  have hmiddle : (ahead ++ t :: behind).Perm (t :: (ahead ++ behind)) := List.perm_middle
  have hnodup : ((t :: (ahead ++ behind)).map Ticket.number).Nodup := by
    rw [← (hmiddle.map Ticket.number).nodup_iff]
    exact (List.pairwise_map.2 h.numbers).imp Nat.ne_of_lt
  refine ⟨ahead, t, behind, rfl, rfl, fun s hs => ?_, (Step.pop hpop).levelled h.levelled, ?_, ?_, ?_⟩
  · refine Ticket.precedes_of_le (hpop.first s.entry ?_) fun heq => ?_
    · rw [h.entries.mem_iff]
      exact List.mem_map_of_mem (hmiddle.mem_iff.2 (List.mem_cons_of_mem t hs))
    · exact (List.nodup_cons.1 hnodup).1 (heq ▸ List.mem_map_of_mem hs)
  · have hperm := hpop.perm.symm.trans (h.entries.trans (hmiddle.map Ticket.entry))
    exact List.perm_cons _ |>.1 hperm
  · rw [hpop.pushed_eq, h.pushed_eq]
  · exact h.numbers.sublist ((List.sublist_cons_self t behind).append_left ahead)

theorem serve (h : l.Holds q n) (rs : List (Request α)) : ∃ answers q' n', Served q n rs answers q' ∧
    (l.serve rs).1 = answers.map (Option.map Ticket.item) ∧ (l.serve rs).2.Holds q' n' := by
  induction rs generalizing l q n with
  | nil => exact ⟨[], q, n, .done q n, rfl, h⟩
  | cons r rs ih =>
    cases r with
    | push x f g =>
      obtain ⟨answers, q', n', hs, ha, hh⟩ := ih (h.push x f g)
      exact ⟨answers, q', n', .push hs, ha, hh⟩
    | pop =>
      unfold OpenList.serve
      cases hp : l.pop with
      | none =>
        obtain rfl := h.pop_none.1 hp
        obtain ⟨answers, q', n', hs, ha, hh⟩ := ih h
        exact ⟨none :: answers, q', n', .refuse hs, congrArg (none :: ·) ha, hh⟩
      | some popped =>
        obtain ⟨x, l'⟩ := popped
        obtain ⟨ahead, t, behind, rfl, rfl, hfirst, hl'⟩ := h.pop_some hp
        obtain ⟨answers, q', n', hs, ha, hh⟩ := ih hl'
        exact ⟨some t :: answers, q', n', .take hfirst hs, congrArg (some t.item :: ·) ha, hh⟩

theorem take (h : l.Holds q n) {k : Nat} (hk : q.length ≤ k) : ∃ ts : List (Ticket α), ts.Perm q ∧
    ts.Pairwise Ticket.Precedes ∧ (l.take k).1 = ts.map Ticket.item ∧ (l.take k).2.pop = none := by
  induction k generalizing l q with
  | zero =>
    obtain rfl := List.length_eq_zero_iff.1 (Nat.le_zero.1 hk)
    exact ⟨[], .nil, .nil, rfl, h.pop_none.2 rfl⟩
  | succ k ih =>
    unfold OpenList.take
    cases hp : l.pop with
    | none =>
      obtain rfl := h.pop_none.1 hp
      exact ⟨[], .nil, .nil, rfl, hp⟩
    | some popped =>
      obtain ⟨x, l'⟩ := popped
      obtain ⟨ahead, t, behind, rfl, rfl, hfirst, hl'⟩ := h.pop_some hp
      have hk' : (ahead ++ behind).length ≤ k := by
        simp only [List.length_append, List.length_cons] at hk ⊢
        omega
      obtain ⟨ts, hperm, hpair, hitems, hnone⟩ := ih hl' hk'
      refine ⟨t :: ts, (hperm.cons t).trans List.perm_middle.symm, ?_, congrArg (t.item :: ·) hitems, hnone⟩
      exact List.pairwise_cons.2 ⟨fun s hs => hfirst s (hperm.mem_iff.1 hs), hpair⟩

/-- **Draining is a stable sort by the keys.** -/
theorem drain (h : l.Holds q n) :
    l.drain.1 = (q.mergeSort Ticket.keysLe).map Ticket.item ∧ l.drain.2.pop = none := by
  obtain ⟨ts, hperm, hpair, hitems, hnone⟩ := h.take h.size_eq.ge
  rw [← eq_mergeSort h.numbers hperm hpair]
  exact ⟨hitems, hnone⟩

end Holds

/-! ## What is served -/

theorem map_number_tickets (n : Nat) (rs : List (Request α)) :
    (tickets n rs).map Ticket.number = List.range' n (tickets n rs).length := by
  induction rs generalizing n with
  | nil => rfl
  | cons r rs ih =>
    cases r with
    | push x f h => simp only [tickets, List.map_cons, List.length_cons, List.range'_succ, ih]
    | pop => exact ih n

/-- Every ticket is served once or waits. -/
theorem Served.perm {q q' : List (Ticket α)} {n : Nat} {rs : List (Request α)} {answers : List (Option (Ticket α))}
    (h : Served q n rs answers q') : (q ++ tickets n rs).Perm (answers.reduceOption ++ q') := by
  induction h with
  | done q n => exact .of_eq (List.append_nil q)
  | push _ ih => rwa [List.append_assoc, List.singleton_append] at ih
  | refuse _ ih => exact ih
  | @take ahead behind q' n rs answers t _ _ ih =>
    rw [List.append_assoc, List.cons_append, List.reduceOption_cons_of_some, List.cons_append]
    rw [List.append_assoc] at ih
    exact List.perm_middle.trans (ih.cons t)

theorem serve_append (l : OpenList α) (rs rs' : List (Request α)) :
    (l.serve (rs ++ rs')).2 = ((l.serve rs).2.serve rs').2 := by
  induction rs generalizing l with
  | nil => rfl
  | cons r rs ih =>
    cases r with
    | push x f h => exact ih _
    | pop =>
      simp only [List.cons_append, serve]
      cases l.pop with
      | none => exact ih _
      | some popped => exact ih _

theorem step_serve {l : OpenList α} (hl : l.Sound) (r : Request α) : Step l (l.serve [r]).2 := by
  cases r with
  | push x f h => exact .push x f h
  | pop =>
    simp only [serve]
    cases hp : l.pop with
    | none => exact .same
    | some popped =>
      obtain ⟨e, -, hpop⟩ := hl.pop hp
      exact .pop hpop

/-- **The high water is the largest size after any of the requests.** -/
theorem isGreatest_highWater (rs : List (Request α)) : ((empty : OpenList α).serve rs).2.Levelled ∧
    IsGreatest {k | ∃ rs', rs' <+: rs ∧ ((empty : OpenList α).serve rs').2.size = k}
      ((empty : OpenList α).serve rs).2.highWater := by
  induction rs using List.reverseRecOn with
  | nil =>
    refine ⟨levelled_empty, ⟨[], List.prefix_rfl, rfl⟩, ?_⟩
    rintro k ⟨rs', hrs', rfl⟩
    rw [List.prefix_nil.1 hrs']
    exact Nat.le_refl 0
  | append_singleton rs r ih =>
    obtain ⟨hlevel, hgreatest⟩ := ih
    have hstep := step_serve hlevel.sound r
    rw [← serve_append] at hstep
    have hlevel' := hstep.levelled hlevel
    have hsizes : {k | ∃ rs', rs' <+: rs ++ [r] ∧ ((empty : OpenList α).serve rs').2.size = k} =
        insert (empty.serve (rs ++ [r])).2.size {k | ∃ rs', rs' <+: rs ∧ (empty.serve rs').2.size = k} := by
      ext k
      simp only [Set.mem_ofPred_eq, Set.mem_insert_iff, List.prefix_concat_iff, or_and_right, exists_or, exists_eq_left]
      exact or_congr_left eq_comm
    refine ⟨hlevel', ?_⟩
    rw [hsizes, hstep.highWater_eq hlevel, ← hlevel'.sound.size_eq, max_comm]
    exact hgreatest.insert _

/-- **The open list is a stable priority queue**, on whatever patterns it is given: it serves every sequence of
requests in turn, loses nothing and gives nothing twice, knows its size and the largest it had, and drains in the order
of a stable sort. -/
theorem serve_stable (rs : List (Request α)) :
    let l := ((empty : OpenList α).serve rs).2
    ∃ answers waiting, Served [] 0 rs answers waiting ∧
      ((empty : OpenList α).serve rs).1 = answers.map (Option.map Ticket.item) ∧
      (tickets 0 rs).Perm (answers.reduceOption ++ waiting) ∧
      (tickets 0 rs).map Ticket.number = List.range (tickets 0 rs).length ∧
      l.size = waiting.length ∧ l.size + answers.reduceOption.length = (tickets 0 rs).length ∧
      IsGreatest {k | ∃ rs', rs' <+: rs ∧ ((empty : OpenList α).serve rs').2.size = k} l.highWater ∧
      l.drain.1 = (waiting.mergeSort Ticket.keysLe).map Ticket.item ∧ l.drain.2.pop = none := by
  intro l
  obtain ⟨answers, waiting, n, hserved, hanswers, hholds⟩ := Holds.empty.serve rs
  have hperm := hserved.perm
  have hlength := hperm.length_eq
  rw [List.nil_append, List.length_append] at hlength
  refine ⟨answers, waiting, hserved, hanswers, hperm, ?_, hholds.size_eq, ?_, (isGreatest_highWater rs).2, hholds.drain⟩
  · rw [map_number_tickets, List.range_eq_range']
  · rw [hholds.size_eq, hlength, Nat.add_comm]

/-- Minus zero goes before zero, equal keys go in the order in which they came, and a NaN goes last. -/
example : ((empty : OpenList Nat).serve [.push 0 0x7ff8000000000000 0, .push 1 0 0, .push 2 0x8000000000000000 0,
    .push 3 0 0, .pop, .pop, .pop, .pop, .pop]).1 = [some 2, some 1, some 3, some 0, none] := by
  decide

end OpenList
end GroundPlanner
