import GroundPlanner.Proofs.Spelling
/-!
# Fact tables that are left out

A draft mentions facts in eleven kinds of places (`Draft.Mentions`), and all of them are read where no fact table is
given (`Draft.mem_mentions_iff`).  So the table that is read off lacks nothing that is resolved later, and building such
a draft fails only for two actions of one name; a table that is given must hold every mentioned name itself
(`Draft.build_mentions`).
-/
namespace GroundPlanner

/-- **The places where a draft mentions a fact.** -/
inductive Draft.Mentions (d : Draft) (n : String) : Prop where
  | init (hn : n ∈ d.init) : Mentions d n
  | goal (hn : n ∈ d.goal) : Mentions d n
  | goalNeg (hn : n ∈ d.goalNeg) : Mentions d n
  | pre {a : ActionDraft} (ha : a ∈ d.actions) (hn : n ∈ a.pre) : Mentions d n
  | preNeg {a : ActionDraft} (ha : a ∈ d.actions) (hn : n ∈ a.preNeg) : Mentions d n
  | add {a : ActionDraft} (ha : a ∈ d.actions) (hn : n ∈ a.add) : Mentions d n
  | del {a : ActionDraft} (ha : a ∈ d.actions) (hn : n ∈ a.del) : Mentions d n
  | whenPre {a : ActionDraft} {e : EffectDraft} (ha : a ∈ d.actions) (he : e ∈ a.when) (hn : n ∈ e.pre) : Mentions d n
  | whenPreNeg {a : ActionDraft} {e : EffectDraft} (ha : a ∈ d.actions) (he : e ∈ a.when) (hn : n ∈ e.preNeg) :
    Mentions d n
  | whenAdd {a : ActionDraft} {e : EffectDraft} (ha : a ∈ d.actions) (he : e ∈ a.when) (hn : n ∈ e.add) : Mentions d n
  | whenDel {a : ActionDraft} {e : EffectDraft} (ha : a ∈ d.actions) (he : e ∈ a.when) (hn : n ∈ e.del) : Mentions d n

/-- The members of `xs`, each once, in the order of their first occurrence there. -/
structure InFirstOrder (xs ys : List String) : Prop where
  mem_iff : ∀ n, n ∈ ys ↔ n ∈ xs
  order : ys.Pairwise (fun m n => xs.idxOf m < xs.idxOf n)

variable {d : Draft} {p : Problem} {n : String}

/-- **Every place is read.** -/
theorem Draft.mem_mentions_iff : n ∈ d.mentions ↔ d.Mentions n := by
  simp only [mentions, ActionDraft.mentioned, EffectDraft.mentioned, List.mem_append, List.mem_flatMap]
  constructor
  · rintro (((hn | hn) | hn) | ⟨a, ha, (((hn | hn) | hn) | hn) | ⟨e, he, ((hn | hn) | hn) | hn⟩⟩)
    · exact .init hn
    · exact .goal hn
    · exact .goalNeg hn
    · exact .pre ha hn
    · exact .preNeg ha hn
    · exact .add ha hn
    · exact .del ha hn
    · exact .whenPre ha he hn
    · exact .whenPreNeg ha he hn
    · exact .whenAdd ha he hn
    · exact .whenDel ha he hn
  · intro h
    cases h with
    | init hn => exact .inl (.inl (.inl hn))
    | goal hn => exact .inl (.inl (.inr hn))
    | goalNeg hn => exact .inl (.inr hn)
    | pre ha hn => exact .inr ⟨_, ha, .inl (.inl (.inl (.inl hn)))⟩
    | preNeg ha hn => exact .inr ⟨_, ha, .inl (.inl (.inl (.inr hn)))⟩
    | add ha hn => exact .inr ⟨_, ha, .inl (.inl (.inr hn))⟩
    | del ha hn => exact .inr ⟨_, ha, .inl (.inr hn)⟩
    | whenPre ha he hn => exact .inr ⟨_, ha, .inr ⟨_, he, .inl (.inl (.inl hn))⟩⟩
    | whenPreNeg ha he hn => exact .inr ⟨_, ha, .inr ⟨_, he, .inl (.inl (.inr hn))⟩⟩
    | whenAdd ha he hn => exact .inr ⟨_, ha, .inr ⟨_, he, .inl (.inr hn)⟩⟩
    | whenDel ha he hn => exact .inr ⟨_, ha, .inr ⟨_, he, .inr hn⟩⟩

/-! ## The order of first mention -/

theorem pairwise_idxOf_firstMentions (seen xs : List String) :
    (firstMentions seen xs).Pairwise (fun m n => xs.idxOf m < xs.idxOf n) := by
  induction xs generalizing seen with
  | nil => exact .nil
  | cons x xs ih =>
    -- Behind its head, a list has every other member one place later.
    have hshift : ∀ (seen' : List String), x ∈ seen' →
        (firstMentions seen' xs).Pairwise (fun m n => (x :: xs).idxOf m < (x :: xs).idxOf n) := by
      intro seen' hx
      have hne : ∀ m ∈ firstMentions seen' xs, x ≠ m := by
        rintro m hm rfl
        rw [firstMentions_eq_eraseDups, List.mem_eraseDups, List.mem_filter] at hm
        simp [hx] at hm
      refine (ih seen').imp_of_mem fun hm hn hlt => ?_
      rw [List.idxOf_cons_ne _ (hne _ hm), List.idxOf_cons_ne _ (hne _ hn)]
      exact Nat.succ_lt_succ hlt
    unfold firstMentions
    split
    · rename_i hx
      exact hshift seen hx
    · refine List.pairwise_cons.2 ⟨fun n hn => ?_, hshift _ List.mem_cons_self⟩
      have hne : x ≠ n := by
        rintro rfl
        rw [firstMentions_eq_eraseDups, List.mem_eraseDups, List.mem_filter] at hn
        simp at hn
      rw [List.idxOf_cons_self, List.idxOf_cons_ne _ hne]
      exact Nat.succ_pos _

theorem inFirstOrder_distinct (xs : List String) : InFirstOrder xs (distinct xs) :=
  ⟨fun _ => mem_distinct, pairwise_idxOf_firstMentions [] xs⟩

theorem InFirstOrder.nodup {xs ys : List String} (h : InFirstOrder xs ys) : ys.Nodup :=
  h.order.imp fun hlt heq => Nat.ne_of_lt hlt (congrArg xs.idxOf heq)

/-! ## Building -/

theorem of_mem_undeclared {table names : List String} {context context' : FactContext}
    (h : .unknownFact n context' ∈ undeclared table context names) : n ∈ names ∧ n ∉ table := by
  obtain ⟨m, hm, heq⟩ := List.mem_map.1 h
  cases heq
  exact ⟨List.mem_of_mem_filter hm, of_decide_eq_true (List.mem_filter.1 hm).2⟩

theorem unknownFact_not_mem_repeated {prior : List String} {name : String} {i : Nat} {context : FactContext} :
    .unknownFact n context ∉ repeated prior name i := by
  unfold repeated
  split <;> simp

/-- A name that a draft is faulted for is mentioned and not declared. -/
theorem Draft.of_mem_faults {context : FactContext} (h : .unknownFact n context ∈ d.faults) :
    d.Mentions n ∧ n ∉ d.table := by
  rw [← mem_mentions_iff]
  simp only [faults, ActionDraft.faults, List.mem_append, List.mem_flatMap] at h
  simp only [mentions, List.mem_append, List.mem_flatMap]
  rcases h with (h | h) | ⟨⟨a, i⟩, ha, h | h⟩
  · exact (of_mem_undeclared h).imp_left fun hn => .inl (.inl (.inl hn))
  · refine (of_mem_undeclared h).imp_left fun hn => ?_
    exact (List.mem_append.1 hn).elim (fun hn => .inl (.inl (.inr hn))) (fun hn => .inl (.inr hn))
  · exact absurd h unknownFact_not_mem_repeated
  · exact (of_mem_undeclared h).imp_left fun hn => .inr ⟨a, (List.mem_zipIdx' ha).2 ▸ List.getElem_mem _, hn⟩

/-- **Building sees of the declared facts only the table that they make.** -/
theorem Draft.build_of_table_eq {facts : Option (List String)} (h : { d with facts := facts }.table = d.table) :
    { d with facts := facts }.build = d.build := by
  unfold build
  rw [h]

/-- **What a draft mentions need not be declared, but if facts are declared, then all that it mentions.**  Without
declared facts building fails only for two actions of one name; the table is the mentioned names in the order of their
first mention, and declaring just these makes no difference. -/
theorem Draft.build_mentions (d : Draft) :
    (d.facts = none →
      ((∃ fault, d.build = .error fault) ↔ ¬ (d.actions.map ActionDraft.name).Nodup) ∧
      (∀ n context, d.build ≠ .error (.unknownFact n context)) ∧
      ∃ names, InFirstOrder (d.init ++ d.goal ++ d.goalNeg ++ d.actions.flatMap (fun a =>
          a.pre ++ a.preNeg ++ a.add ++ a.del ++ a.when.flatMap (fun e => e.pre ++ e.preNeg ++ e.add ++ e.del))) names ∧
        (∀ p, d.build = .ok p → p.facts = names) ∧ { d with facts := some names }.build = d.build) ∧
    ∀ names, d.facts = some names → ∀ p, d.build = .ok p → ∀ n, d.Mentions n → n ∈ names := by
  refine ⟨fun hnone => ?_, fun names hsome p hp n hn => ?_⟩
  · have hdeclared : d.declared = d.mentions := by rw [declared, hnone, Option.getD_none]
    have htable : d.table = distinct d.mentions := by rw [table_eq, hdeclared, distinct_eq_eraseDups]
    have hbuilt : (∃ p, d.build = .ok p) ↔ (d.actions.map ActionDraft.name).Nodup := by
      rw [exists_build_iff, hdeclared]
      exact and_iff_right fun _ hn => hn
    have horder : InFirstOrder d.mentions (distinct d.mentions) := inFirstOrder_distinct _
    refine ⟨?_, fun n context hfault => ?_, distinct d.mentions, horder, fun p hp => ?_, build_of_table_eq ?_⟩
    · rw [← hbuilt]
      cases d.build <;> simp
    · rw [← faultOf_eq_some_iff, faultOf_build] at hfault
      obtain ⟨hn, hout⟩ := of_mem_faults (List.mem_of_head? hfault)
      rw [htable, mem_distinct, mem_mentions_iff] at hout
      exact hout hn
    · exact ((build_described hp).facts.trans d.table_eq.symm).trans htable
    · exact (distinct_eq_self horder.nodup).trans htable.symm
  · have hdeclared : d.declared = names := by rw [declared, hsome, Option.getD_some]
    exact hdeclared ▸ (exists_build_iff.1 ⟨p, hp⟩).1 n (mem_mentions_iff.2 hn)

/-- The lamp without its table: the light, which the goal mentions, comes before the power.  With the light as the only
declared fact it is not built. -/
theorem Draft.build_mentions_lamp :
    (∃ p, { Families.conditionalLamp with facts := none }.build = .ok p ∧ p.facts = ["light", "power"] ∧
      { Families.conditionalLamp with facts := some ["light", "power"] }.build = .ok p) ∧
    ¬ ∃ p, { Families.conditionalLamp with facts := some ["light"] }.build = .ok p := by
  constructor
  · obtain ⟨p, hp, hfacts⟩ := exists_build (d := { Families.conditionalLamp with facts := none })
      (fun p => p.facts = ["light", "power"]) (by decide +kernel)
    have hfacts : p.facts = ["light", "power"] := of_decide_eq_true hfacts
    obtain ⟨-, -, names, -, hnames, hsame⟩ := (build_mentions { Families.conditionalLamp with facts := none }).1 rfl
    obtain rfl : ["light", "power"] = names := hfacts.symm.trans (hnames p hp)
    exact ⟨p, hp, hfacts, hsame.trans hp⟩
  · rintro ⟨p, hp⟩
    have hpower := (build_mentions _).2 _ rfl p hp "power" (.whenPre (.head _) (.head _) (.head _))
    exact absurd hpower (by decide)

end GroundPlanner
