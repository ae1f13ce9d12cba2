import FederatedQuery.Proofs.Language.Equality
import FederatedQuery.Proofs.Planning.FilterChains

/-!
# Where taking out redundant filters ends

A filter is redundant because of a filter right below it or because of the access at the
end of its chain.  The filter below may itself be taken out later, but then something
below that one stands for it, so in the end there is something below for every filter
that was taken out.
-/

namespace FederatedQuery

def NodeKind.carries (kind : NodeKind) (criteria : Criteria) : Bool :=
  kind.access?.any (·.pushedCriteria.contains criteria)

/-- Whether a filter is redundant above these filters and the last node of their chain. -/
def SelectNode.isRedundantAbove (select : SelectNode) (kind : NodeKind)
    (nearer : List (NodeId × SelectNode)) : Bool :=
  nearer.getLast?.any (·.2.criteria == select.criteria) ||
    (select.isDependentSet && kind.carries select.criteria)

theorem NodeKind.carries_congr {kind : NodeKind} {criteria other : Criteria}
    (carries : kind.carries other = true) (same : (other == criteria) = true) :
    kind.carries criteria = true := by
  rw [NodeKind.carries, Option.any_eq_true] at carries ⊢
  obtain ⟨access, found, contains⟩ := carries
  rw [List.contains_iff_exists_mem_beq] at contains
  obtain ⟨pushed, member, hpushed⟩ := contains
  refine ⟨access, found, List.contains_iff_exists_mem_beq.mpr ⟨pushed, member, ?_⟩⟩
  exact BEq.trans (BEq.symm same) hpushed

namespace FilterChain

structure IsClean (chain : FilterChain) : Prop where
  distinct : chain.filters.IsChain fun lower upper =>
    (lower.2.criteria == upper.2.criteria) = false
  pending : ∀ filter ∈ chain.filters, filter.2.isDependentSet = true →
    chain.kind.carries filter.2.criteria = false

/-- The filters that were taken out, and what stands for each of them. -/
structure Cleaned (old new : FilterChain) : Prop where
  bottom : new.bottom = old.bottom
  kind : new.kind = old.kind
  inputs : new.inputs = old.inputs
  filters : new.filters.Sublist old.filters
  enforced : ∀ {nearer filter upper}, old.filters = nearer ++ filter :: upper →
    filter ∉ new.filters →
      (∃ other ∈ nearer, other ∈ new.filters ∧
        (other.2.criteria == filter.2.criteria) = true) ∨
      new.kind.carries filter.2.criteria = true

theorem Cleaned.refl (chain : FilterChain) : chain.Cleaned chain := by
  refine ⟨rfl, rfl, rfl, .refl _, fun split absent => ?_⟩
  exact absurd (by simp [split]) absent

variable {bottom : NodeId} {kind : NodeKind} {nearer upper : List (NodeId × SelectNode)}
  {inputs : List NodeId} {id : NodeId} {select : SelectNode} {new : FilterChain}

/-- What stands for the filters of a chain also stands for a redundant one among them. -/
theorem Cleaned.of_drop (redundant : select.isRedundantAbove kind nearer = true)
    (cleaned : Cleaned ⟨bottom, kind, nearer ++ upper, inputs⟩ new) :
    Cleaned ⟨bottom, kind, nearer ++ (id, select) :: upper, inputs⟩ new := by
  obtain ⟨hbottom, hkind, hinputs, sublist, enforced⟩ := cleaned
  have dropped : (∃ other ∈ nearer, other ∈ new.filters ∧
      (other.2.criteria == select.criteria) = true) ∨ new.kind.carries select.criteria = true := by
    rw [SelectNode.isRedundantAbove, Bool.or_eq_true, Option.any_eq_true,
      Bool.and_eq_true] at redundant
    rcases redundant with ⟨other, last, same⟩ | ⟨-, carries⟩
    · obtain ⟨lower, rfl⟩ := List.getLast?_eq_some_iff.mp last
      by_cases kept : other ∈ new.filters
      · exact .inl ⟨other, by simp, kept, same⟩
      · have split : lower ++ [other] ++ upper = lower ++ other :: upper := by simp
        rcases enforced split kept with ⟨more, member, kept', same'⟩ | carries
        · exact .inl ⟨more, by simp [member], kept', BEq.trans same' same⟩
        · exact .inr (NodeKind.carries_congr carries same)
    · exact .inr (hkind ▸ carries)
  refine ⟨hbottom, hkind, hinputs, sublist.trans ((List.sublist_cons_self _ _).append_left nearer),
    fun {lower filter above} split absent => ?_⟩
  rcases List.append_eq_append_iff.mp split with ⟨between, rfl, tail⟩ | ⟨between, rfl, tail⟩
  · cases between with
    | nil =>
        obtain ⟨rfl, rfl⟩ := List.cons.inj tail
        simpa using dropped
    | cons first between =>
        rw [List.cons_append] at tail
        obtain ⟨rfl, rfl⟩ := List.cons.inj tail
        have split' : nearer ++ (between ++ filter :: above) =
            nearer ++ between ++ filter :: above := by simp
        refine (enforced split' absent).imp_left ?_
        rintro ⟨other, member, found⟩
        exact ⟨other, ((List.sublist_cons_self _ _).append_left nearer).subset member, found⟩
  · cases between with
    | nil =>
        obtain ⟨rfl, rfl⟩ := List.cons.inj tail
        simpa using dropped
    | cons first between =>
        rw [List.cons_append] at tail
        obtain ⟨rfl, rfl⟩ := List.cons.inj tail
        have split' : lower ++ filter :: between ++ upper =
            lower ++ filter :: (between ++ upper) := by simp
        exact enforced split' absent

theorem isClean_of_irredundant {chain : FilterChain}
    (irredundant : ∀ nearer filter upper, chain.filters = nearer ++ filter :: upper →
      filter.2.isRedundantAbove chain.kind nearer = false) : chain.IsClean := by
  constructor
  · rw [List.isChain_iff_forall_rel_of_append_cons_cons]
    intro lower upper below above split
    have single := irredundant (below ++ [lower]) upper above (by simpa using split)
    rw [SelectNode.isRedundantAbove, Bool.or_eq_false_iff] at single
    simpa using single.1
  · intro filter member dependent
    obtain ⟨nearer, upper, split⟩ := List.append_of_mem member
    have single := irredundant nearer filter upper split
    rw [SelectNode.isRedundantAbove, dependent, Bool.true_and, Bool.or_eq_false_iff] at single
    exact single.2

end FilterChain

theorem PlanTree.WellShaped.head?_filters {tree : PlanTree} (shaped : tree.WellShaped) :
    tree.filters.head?.map Prod.snd = tree.kind.select? := by
  obtain ⟨id, kind, children⟩ := tree
  cases hselect : kind.isSelect with
  | false =>
      have none : (PlanTree.node id kind children).filters = [] := filters_of_not_select hselect
      rw [none]
      exact (Option.not_isSome_iff_eq_none.mp (Bool.eq_false_iff.mp hselect)).symm
  | true =>
      obtain ⟨select, rfl⟩ := NodeKind.exists_eq_select hselect
      obtain ⟨below, rfl⟩ := shaped.only_child
      rfl

namespace CleanCriteria

variable {plan : Plan} {before after : List FilterChain} {bottom : NodeId} {kind : NodeKind}
  {nearer upper : List (NodeId × SelectNode)} {inputs : List NodeId} {id : NodeId}
  {select : SelectNode}

theorem isRedundant_eq (reads : plan.Reads
    (before ++ ⟨bottom, kind, nearer ++ (id, select) :: upper, inputs⟩ :: after)) :
    isRedundant plan id = select.isRedundantAbove kind nearer := by
  have hselect := reads.select?_eq
  have hbelow := reads.accessBelow?_eq
  have hbottom : plan.access? bottom = kind.access? := reads.access?_eq
  obtain ⟨below, frames, holds, shaped, -, -, rfl, -⟩ := reads.exists_filter
  have hnode := PlanTree.mem_subtrees_within_self (.node id (.select select) [below]) frames
  have hfirst : plan.firstChild? id = some below.id := holds.firstChild?_eq hnode
  have inner := (PlanTree.wellShaped_node.mp (shaped.of_mem hnode)).2 below List.mem_cons_self
  have member : below ∈ ((PlanTree.node id (.select select) [below]).within frames).subtrees :=
    PlanTree.child_mem_subtrees hnode List.mem_cons_self
  simp only [isRedundant, hselect, hfirst, SelectNode.isRedundantAbove]
  congr 1
  · rw [isRepeatedBelow, holds.select?_eq member, ← inner.head?_filters, List.getLast?_reverse,
      Option.any_map]
  · rw [isPushedBelow, hbelow, NodeKind.carries]
    cases access : kind.access? with
    | none => rfl
    | some payload => simp [hbottom, access]

variable {chains : List FilterChain}

theorem exists_of_findRedundant? (reads : plan.Reads chains)
    (found : findRedundant? plan = some id) :
    ∃ before bottom kind nearer select upper inputs after,
      chains = before ++ ⟨bottom, kind, nearer ++ (id, select) :: upper, inputs⟩ :: after ∧
      select.isRedundantAbove kind nearer = true := by
  have member := List.mem_of_find?_eq_some found
  have redundant := List.find?_some found
  rw [reads.findAll_select, List.mem_flatMap] at member
  obtain ⟨chain, hchain, member⟩ := member
  obtain ⟨⟨_, select⟩, hfilter, rfl⟩ := List.mem_map.mp member
  obtain ⟨nearer, upper, split⟩ := List.append_of_mem (List.mem_reverse.mp hfilter)
  obtain ⟨before, after, rfl⟩ := List.append_of_mem hchain
  obtain ⟨bottom, kind, filters, inputs⟩ := chain
  obtain rfl : filters = _ := split
  rw [isRedundant_eq reads] at redundant
  exact ⟨before, bottom, kind, nearer, select, upper, inputs, after, rfl, redundant⟩

theorem isClean_of_findRedundant? (reads : plan.Reads chains) (none : findRedundant? plan = none) :
    ∀ chain ∈ chains, chain.IsClean := by
  rintro ⟨bottom, kind, filters, inputs⟩ member
  refine FilterChain.isClean_of_irredundant fun nearer filter upper split => ?_
  obtain ⟨id, select⟩ := filter
  obtain rfl : filters = _ := split
  have listed : id ∈ plan.findAll plan.root [.select] [] := by
    rw [reads.findAll_select, List.mem_flatMap]
    exact ⟨_, member, by simp⟩
  have irredundant := List.find?_eq_none.mp none id listed
  obtain ⟨before, after, rfl⟩ := List.append_of_mem member
  rwa [isRedundant_eq reads, Bool.not_eq_true] at irredundant

/-! ## Rounds -/

/-- The loop without a budget: one filter after the other is taken out until none is redundant. -/
inductive Rounds : Nat → Plan → Plan → Prop
  | done {plan : Plan} (clean : findRedundant? plan = none) : Rounds 0 plan plan
  | next {plan rest final : Plan} {id top : NodeId} {rounds : Nat}
      (found : findRedundant? plan = some id) (removed : Plan.spliceOut id plan = .ok top rest)
      (others : Rounds rounds rest final) : Rounds (rounds + 1) plan final

theorem Rounds.clean {rounds : Nat} {final : Plan} (h : Rounds rounds plan final) :
    findRedundant? final = none := by
  induction h with
  | done clean => exact clean
  | next _ _ _ ih => exact ih

theorem forall₂_cleaned_of_drop {new : List FilterChain}
    (redundant : select.isRedundantAbove kind nearer = true)
    (cleaned : List.Forall₂ FilterChain.Cleaned
      (before ++ ⟨bottom, kind, nearer ++ upper, inputs⟩ :: after) new) :
    List.Forall₂ FilterChain.Cleaned
      (before ++ ⟨bottom, kind, nearer ++ (id, select) :: upper, inputs⟩ :: after) new := by
  induction before generalizing new with
  | nil =>
      obtain ⟨_, _, first, rest, rfl⟩ := List.forall₂_cons_left_iff.mp cleaned
      exact .cons (first.of_drop redundant) rest
  | cons chain before ih =>
      obtain ⟨_, _, first, rest, rfl⟩ := List.forall₂_cons_left_iff.mp cleaned
      exact .cons first (ih rest)

def filterCount (plan : Plan) : Nat := (plan.findAll plan.root [.select] []).length

theorem filterCount_eq (reads : plan.Reads chains) :
    filterCount plan = (chains.map (·.filters.length)).sum := by
  rw [filterCount, reads.findAll_select, List.length_flatMap]
  simp

theorem exists_rounds (reads : plan.Reads chains) :
    ∃ rounds final new, Rounds rounds plan final ∧ final.Reads new ∧
      List.Forall₂ FilterChain.Cleaned chains new ∧
      rounds + filterCount final = filterCount plan := by
  induction hcount : filterCount plan using Nat.strong_induction_on generalizing plan chains with
  | _ count ih =>
      cases found : findRedundant? plan with
      | none =>
          exact ⟨0, plan, chains, .done found, reads,
            List.forall₂_same.mpr fun chain _ => .refl chain, by omega⟩
      | some id =>
          obtain ⟨before, bottom, kind, nearer, select, upper, inputs, after, rfl, redundant⟩ :=
            exists_of_findRedundant? reads found
          obtain ⟨rest, top, removed, reads'⟩ := reads.exists_spliceOut
          have fewer : filterCount rest + 1 = filterCount plan := by
            rw [filterCount_eq reads, filterCount_eq reads']
            simp
            omega
          obtain ⟨rounds, final, new, others, hnew, cleaned, balance⟩ :=
            ih (filterCount rest) (by omega) reads' rfl
          exact ⟨rounds + 1, final, new, .next found removed others, hnew,
            forall₂_cleaned_of_drop redundant cleaned, by omega⟩

/-- A budget for all rounds makes no difference. -/
theorem removeWithin_of_rounds {rounds budget : Nat} {start : Session} {new : Plan}
    (h : Rounds rounds start.plan new) (enough : rounds ≤ budget) :
    ∃ final, removeWithin budget start = .ok (rounds != 0) final ∧ final.plan = new := by
  induction budget generalizing rounds start with
  | zero =>
      obtain rfl := Nat.le_zero.mp enough
      cases h
      exact ⟨start, rfl, rfl⟩
  | succ budget ih =>
      cases h with
      | done clean => exact ⟨start, removeWithin_of_clean clean _, rfl⟩
      | @next _ rest _ id top rounds found removed others =>
          obtain ⟨report, following⟩ := removeWithin_succ_eq_ok_iff found removed budget
          obtain ⟨final, hremove, hfinal⟩ := @ih rounds
            { start with report, plan := rest } others
            (Nat.le_of_succ_le_succ enough)
          exact ⟨final, following.mpr ⟨rfl, _, hremove⟩, hfinal⟩

theorem filterCount_le_size (accepted : plan.Accepted) : filterCount plan ≤ plan.size := by
  obtain ⟨holds, -⟩ := accepted.holds
  have nodup : (plan.findAll plan.root [.select] []).Nodup :=
    List.nodup_reverse.mp (PushSelect.filters_nodup holds)
  have within := (nodup.subperm (holds.findAll_subset_ids _ _)).length_le
  exact within.trans (holds.keeps.length_ids_le_size holds.nodup)

/-- Cleaning an accepted plan comes to an end and succeeds.  Then no filter is redundant, and
for each one that was taken out something stands below it in its chain. -/
theorem execute_cleans (context : PlanningContext) {start : Session}
    (accepted : start.plan.Accepted) :
    ∃ rounds final, Rounds rounds start.plan final.plan ∧
      rounds + filterCount final.plan = filterCount start.plan ∧
      execute context start = .ok (rounds != 0) final ∧
      final.plan.Accepted ∧
      List.Forall₂ FilterChain.Cleaned start.plan.chains final.plan.chains ∧
      (∀ chain ∈ final.plan.chains, chain.IsClean) ∧
      execute context final = .ok false final := by
  obtain ⟨rounds, _, new, performed, reads, cleaned, balance⟩ := exists_rounds accepted.reads
  have enough : rounds ≤ start.plan.size :=
    (Nat.le_add_right _ _).trans (balance.trans_le (filterCount_le_size accepted))
  obtain ⟨final, hexecute, rfl⟩ := removeWithin_of_rounds performed enough
  obtain rfl := reads.chains_eq
  refine ⟨rounds, final, performed, balance, hexecute, reads.accepted, cleaned,
    isClean_of_findRedundant? reads performed.clean, ?_⟩
  exact removeWithin_of_clean performed.clean _

def repeatedFilters : Plan :=
  let column (name : String) : Expr := .column ⟨.named "pm1.g1", name, .int64⟩
  let repeated : Criteria := .eq (column "e1") (.literal (.int64 1))
  let pushed : Criteria := .eq (column "e2") (.literal (.int64 2))
  ⟨[⟨.select ⟨repeated, false⟩, none, [1]⟩, ⟨.select ⟨repeated, false⟩, some 0, [2]⟩,
    ⟨.select ⟨repeated, false⟩, some 1, [3]⟩, ⟨.select ⟨pushed, true⟩, some 2, [4]⟩,
    ⟨.access { group := .named "pm1.g1", pushedCriteria := [pushed] }, some 3, []⟩], 0⟩

theorem repeatedFilters_cleaned :
    ∃ final, execute PlanningContext.permissive (.start repeatedFilters .empty 0) =
        .ok true final ∧
      final.plan.preorder final.plan.root = [2, 4] ∧
      List.Forall₂ FilterChain.Cleaned repeatedFilters.chains final.plan.chains := by
  obtain ⟨changed, final, h, found⟩ := Planning.exists_of_succeeds (show Planning.succeeds
    (execute PlanningContext.permissive) (.start repeatedFilters .empty 0) (fun changed final =>
      changed && final.plan.preorder final.plan.root == [2, 4]) = true by decide +kernel)
  rw [Bool.and_eq_true, beq_iff_eq] at found
  obtain ⟨rfl, ids⟩ := found
  have accepted : (Session.start repeatedFilters .empty 0).plan.Accepted :=
    .of_links (by decide) (by decide) (by decide)
  obtain ⟨rounds, other, -, -, succeeds, -, cleaned, -⟩ :=
    execute_cleans PlanningContext.permissive accepted
  obtain ⟨-, rfl⟩ := EStateM.Result.ok.inj (h.symm.trans succeeds)
  exact ⟨final, h, ids, cleaned⟩

end CleanCriteria

end FederatedQuery
