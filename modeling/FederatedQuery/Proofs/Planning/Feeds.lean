import FederatedQuery.Proofs.Language.Equality
import FederatedQuery.Proofs.Planning.JoinTracking
import FederatedQuery.Proofs.Planning.Moves

/-!
# What feeds dependent filters

A dependent join feeds the values of its first input to the filters on the way down
to the access at its other end.  A tree fits what it is fed if every dependent filter
in it takes its values from the join above, and if no join lacks one of its filters.
No move of planning changes that.
-/

namespace FederatedQuery

open Relation

def NodeKind.applied : NodeKind → List Criteria
  | .select payload => [payload.criteria]
  | .access payload => payload.pushedCriteria
  | _ => []

/-- Identical or equal: criteria with a float that is not a number do not equal themselves. -/
def Criteria.StandsFor (criteria other : Criteria) : Prop :=
  criteria = other ∨ (criteria == other) = true

theorem Criteria.StandsFor.trans {first second third : Criteria} (h : first.StandsFor second)
    (h' : second.StandsFor third) : first.StandsFor third := by
  rcases h with rfl | h
  · exact h'
  · rcases h' with rfl | h'
    · exact .inr h
    · exact .inr (BEq.trans h h')

/-- A value source, with the expressions of both inputs that are to be equal. -/
structure Feed where
  source : String
  pairs : List (Expr × Expr)

def Feed.sets (feed : Feed) : List Criteria :=
  feed.pairs.map fun (left, right) => .dependentSet right feed.source left

def JoinNode.feed? (join : JoinNode) : Option Feed :=
  join.valueSource.map fun source => ⟨source, join.leftExprs.zip join.rightExprs⟩

def Criteria.FedBy (criteria : Criteria) (feed : Option Feed) : Prop :=
  ∀ expr source valueExpr, criteria = .dependentSet expr source valueExpr →
    ∃ given, feed = some given ∧ criteria ∈ given.sets

theorem Criteria.FedBy.weaken {criteria : Criteria} (fed : criteria.FedBy none)
    (feed : Option Feed) : criteria.FedBy feed := by
  intro expr source valueExpr h
  obtain ⟨_, ⟨⟩, -⟩ := fed expr source valueExpr h

theorem Criteria.fedBy_of_mem_sets {criteria : Criteria} {feed : Feed}
    (member : criteria ∈ feed.sets) : criteria.FedBy (some feed) :=
  fun _ _ _ _ => ⟨feed, rfl, member⟩

namespace PlanTree

def strand? : PlanTree → Option (List PlanTree)
  | .node id (.access access) children => some [.node id (.access access) children]
  | .node id kind [child] => child.strand?.map (.node id kind [child] :: ·)
  | _ => none

def carried? (tree : PlanTree) : Option (List Criteria) :=
  tree.strand?.map fun strand => strand.flatMap (·.kind.applied)

def Carries (tree : PlanTree) (criteria : Criteria) : Prop :=
  ∃ carried, tree.carried? = some carried ∧ ∃ other ∈ carried, other.StandsFor criteria

theorem strand?_access (id : NodeId) (access : AccessNode) (children : List PlanTree) :
    (PlanTree.node id (.access access) children).strand? =
      some [.node id (.access access) children] := by
  rw [strand?]

theorem strand?_single {kind : NodeKind} (h : isAccess kind = false) (id : NodeId)
    (child : PlanTree) :
    (PlanTree.node id kind [child]).strand? =
      child.strand?.map (.node id kind [child] :: ·) := by
  rw [strand?]
  rintro access rfl
  cases h

theorem strand?_eq_none {kind : NodeKind} (h : isAccess kind = false) (id : NodeId)
    {children : List PlanTree} (branches : children.length ≠ 1) :
    (PlanTree.node id kind children).strand? = none := by
  rw [strand?]
  · rintro _ access _ ⟨⟩
    cases h
  · rintro _ _ child ⟨⟩
    exact branches rfl

theorem carried?_access (id : NodeId) (access : AccessNode) (children : List PlanTree) :
    (PlanTree.node id (.access access) children).carried? = some access.pushedCriteria := by
  rw [carried?, strand?_access]
  simp [NodeKind.applied]

theorem carried?_single {kind : NodeKind} (h : isAccess kind = false) (id : NodeId)
    (child : PlanTree) :
    (PlanTree.node id kind [child]).carried? = child.carried?.map (kind.applied ++ ·) := by
  rw [carried?, carried?, strand?_single h, Option.map_map, Option.map_map]
  rfl

theorem carried?_eq_none {kind : NodeKind} (h : isAccess kind = false) (id : NodeId)
    {children : List PlanTree} (branches : children.length ≠ 1) :
    (PlanTree.node id kind children).carried? = none := by
  rw [carried?, strand?_eq_none h id branches]
  rfl

/-- Every dependent filter of the tree is fed from above, and every dependent join of the tree
feeds all its filters. -/
inductive Fits : Option Feed → PlanTree → Prop
  | access {feed : Option Feed} {id : NodeId} {access : AccessNode} {children : List PlanTree}
      (fed : ∀ criteria ∈ access.pushedCriteria, criteria.FedBy feed)
      (below : ∀ child ∈ children, Fits none child) :
      Fits feed (.node id (.access access) children)
  | pass {feed : Option Feed} {id : NodeId} {kind : NodeKind} {child : PlanTree}
      (transparent : kind.isTransparent = true)
      (fed : ∀ criteria ∈ kind.applied, criteria.FedBy feed) (below : Fits feed child) :
      Fits feed (.node id kind [child])
  | join {id : NodeId} {join : JoinNode} {left right : PlanTree} (hleft : Fits none left)
      (hright : Fits join.feed? right)
      (carries : ∀ feed, join.feed? = some feed → ∀ set ∈ feed.sets, right.Carries set) :
      Fits none (.node id (.join join) [left, right])
  | other {id : NodeId} {kind : NodeKind} {children : List PlanTree}
      (solid : kind.isTransparent = false) (notJoin : kind.join? = none)
      (notAccess : isAccess kind = false) (below : ∀ child ∈ children, Fits none child) :
      Fits none (.node id kind children)

variable {feed : Option Feed} {tree new : PlanTree}

theorem isAccess_of_isTransparent {kind : NodeKind} (h : kind.isTransparent = true) :
    isAccess kind = false := by
  cases kind <;> first | rfl | cases h

theorem join?_of_isTransparent {kind : NodeKind} (h : kind.isTransparent = true) :
    kind.join? = none := by
  cases kind <;> first | rfl | cases h

theorem Fits.exists_strand {given : Feed} (fits : tree.Fits (some given)) :
    ∃ strand, tree.strand? = some strand := by
  generalize h : some given = feed at fits
  induction fits with
  | access => exact ⟨_, strand?_access _ _ _⟩
  | pass transparent _ _ ih =>
      obtain ⟨strand, hstrand⟩ := ih h
      rw [strand?_single (isAccess_of_isTransparent transparent), hstrand]
      exact ⟨_, rfl⟩
  | join => cases h
  | other => cases h

/-! ## Changes in a hole -/

/-- The new tree may stand wherever the old one does. -/
structure Succeeds (old new : PlanTree) : Prop where
  fits : ∀ {feed}, old.Fits feed → new.Fits feed
  carries : ∀ {carried}, old.carried? = some carried →
    ∃ others, new.carried? = some others ∧
      ∀ criteria ∈ carried, ∃ other ∈ others, other.StandsFor criteria

theorem Succeeds.refl (tree : PlanTree) : tree.Succeeds tree :=
  ⟨fun fits => fits, fun h => ⟨_, h, fun criteria member => ⟨criteria, member, .inl rfl⟩⟩⟩

theorem Succeeds.trans {old middle new : PlanTree} (first : old.Succeeds middle)
    (second : middle.Succeeds new) : old.Succeeds new := by
  refine ⟨fun fits => second.fits (first.fits fits), fun h => ?_⟩
  obtain ⟨between, hbetween, stands⟩ := first.carries h
  obtain ⟨others, hothers, stands'⟩ := second.carries hbetween
  refine ⟨others, hothers, fun criteria member => ?_⟩
  obtain ⟨other, hother, same⟩ := stands criteria member
  obtain ⟨last, hlast, same'⟩ := stands' other hother
  exact ⟨last, hlast, same'.trans same⟩

theorem Succeeds.carries_of {old : PlanTree} (succeeds : old.Succeeds new) {criteria : Criteria}
    (h : old.Carries criteria) : new.Carries criteria := by
  obtain ⟨carried, hcarried, other, hother, same⟩ := h
  obtain ⟨others, hothers, stands⟩ := succeeds.carries hcarried
  obtain ⟨last, hlast, same'⟩ := stands other hother
  exact ⟨others, hothers, last, hlast, same'.trans same⟩

theorem Succeeds.below {old : PlanTree} (succeeds : old.Succeeds new) (feed : Option Feed)
    {left right : List PlanTree} (fits : ∀ child ∈ left ++ old :: right, child.Fits feed) :
    ∀ child ∈ left ++ new :: right, child.Fits feed := by
  intro child hchild
  simp only [List.mem_append, List.mem_cons] at fits hchild
  rcases hchild with hchild | rfl | hchild
  · exact fits child (.inl hchild)
  · exact succeeds.fits (fits old (.inr (.inl rfl)))
  · exact fits child (.inr (.inr hchild))

theorem Succeeds.fits_fill {old : PlanTree} (succeeds : old.Succeeds new) {frame : Frame}
    (fits : (frame.fill old).Fits feed) : (frame.fill new).Fits feed := by
  obtain ⟨id, kind, left, right⟩ := frame
  simp only [Frame.fill] at fits ⊢
  generalize hchildren : left ++ old :: right = children at fits
  cases fits with
  | access fed below => exact .access fed (succeeds.below none (hchildren ▸ below))
  | pass transparent fed below =>
      obtain ⟨rfl, rfl, rfl⟩ : left = [] ∧ old = _ ∧ right = [] := by
        simpa [List.append_eq_singleton_iff] using hchildren
      exact .pass transparent fed (succeeds.fits below)
  | other solid notJoin notAccess below =>
      exact .other solid notJoin notAccess (succeeds.below none (hchildren ▸ below))
  | join hleft hright carries =>
      rename_i join first last
      rcases left with _ | ⟨beside, _ | ⟨_, _⟩⟩
      · obtain ⟨rfl, rfl⟩ : old = first ∧ right = [last] := by simpa using hchildren
        exact .join (succeeds.fits hleft) hright carries
      · obtain ⟨rfl, rfl, rfl⟩ : beside = first ∧ old = last ∧ right = [] := by
          simpa using hchildren
        exact .join hleft (succeeds.fits hright) fun feed h set member =>
          succeeds.carries_of (carries feed h set member)
      · simp at hchildren

theorem Succeeds.carries_fill {old : PlanTree} (succeeds : old.Succeeds new) {frame : Frame}
    {carried : List Criteria} (h : (frame.fill old).carried? = some carried) :
    ∃ others, (frame.fill new).carried? = some others ∧
      ∀ criteria ∈ carried, ∃ other ∈ others, other.StandsFor criteria := by
  obtain ⟨id, kind, left, right⟩ := frame
  simp only [Frame.fill] at h ⊢
  cases haccess : isAccess kind with
  | true =>
      cases kind <;> try cases haccess
      rw [carried?_access] at h ⊢
      exact ⟨carried, h, fun criteria member => ⟨criteria, member, .inl rfl⟩⟩
  | false =>
      by_cases single : left = [] ∧ right = []
      · obtain ⟨rfl, rfl⟩ := single
        rw [List.nil_append, carried?_single haccess] at h ⊢
        obtain ⟨inner, hinner, rfl⟩ := Option.map_eq_some_iff.mp h
        obtain ⟨others, hothers, stands⟩ := succeeds.carries hinner
        refine ⟨kind.applied ++ others, by rw [hothers]; rfl, fun criteria member => ?_⟩
        rcases List.mem_append.mp member with member | member
        · exact ⟨criteria, List.mem_append_left _ member, .inl rfl⟩
        · obtain ⟨other, hother, same⟩ := stands criteria member
          exact ⟨other, List.mem_append_right _ hother, same⟩
      · rw [carried?_eq_none haccess] at h
        · cases h
        · cases left <;> cases right <;> simp_all

theorem Succeeds.within {old : PlanTree} (succeeds : old.Succeeds new) (frames : List Frame) :
    (old.within frames).Succeeds (new.within frames) := by
  induction frames generalizing old new with
  | nil => exact succeeds
  | cons frame rest ih => exact ih ⟨succeeds.fits_fill, succeeds.carries_fill⟩

/-! ## Filter moves -/

theorem fits_select {id : NodeId} {select : SelectNode} {child : PlanTree} :
    (PlanTree.node id (.select select) [child]).Fits feed ↔
      select.criteria.FedBy feed ∧ child.Fits feed := by
  constructor
  · intro fits
    cases fits with
    | pass _ fed below => exact ⟨fed select.criteria (by simp [NodeKind.applied]), below⟩
    | other solid => cases solid
  · rintro ⟨fed, below⟩
    refine .pass rfl (fun criteria member => ?_) below
    rw [List.mem_singleton.mp member]
    exact fed

theorem carried?_select (id : NodeId) (select : SelectNode) (child : PlanTree) :
    (PlanTree.node id (.select select) [child]).carried? =
      child.carried?.map (select.criteria :: ·) :=
  carried?_single rfl id child

theorem exists_eq_filter {frame : Frame} (h : frame.IsFilter) :
    ∃ id select, frame = ⟨id, .select select, [], []⟩ := by
  obtain ⟨id, kind, left, right⟩ := frame
  obtain ⟨hkind, hsides⟩ := h
  obtain ⟨select, rfl⟩ := NodeKind.exists_eq_select hkind
  obtain ⟨rfl, rfl⟩ := List.append_eq_nil_iff.mp hsides
  exact ⟨id, select, rfl⟩

theorem succeeds_pass (id : NodeId) (select : SelectNode) {filters : List Frame}
    (passed : ∀ frame ∈ filters, frame.IsFilter) (tree : PlanTree) :
    (PlanTree.node id (.select select) [tree.within filters]).Succeeds
      ((PlanTree.node id (.select select) [tree]).within filters) := by
  induction filters generalizing tree with
  | nil => exact .refl _
  | cons frame rest ih =>
      rw [List.forall_mem_cons] at passed
      obtain ⟨other, above, rfl⟩ := exists_eq_filter passed.1
      refine (ih passed.2 _).trans (Succeeds.within ⟨?_, ?_⟩ rest)
      · simp only [Frame.fill, List.nil_append, fits_select]
        tauto
      · intro carried h
        simp only [Frame.fill, List.nil_append, carried?_select, Option.map_map] at h ⊢
        obtain ⟨inner, hinner, rfl⟩ := Option.map_eq_some_iff.mp h
        refine ⟨_, Option.map_eq_some_iff.mpr ⟨inner, hinner, rfl⟩, fun criteria member => ?_⟩
        refine ⟨criteria, ?_, .inl rfl⟩
        simp only [Function.comp_apply, List.mem_cons] at member ⊢
        tauto

theorem succeeds_push (id : NodeId) (select : SelectNode) (source : NodeId) (access : AccessNode)
    (children : List PlanTree) :
    (PlanTree.node id (.select select) [.node source (.access access) children]).Succeeds
      (.node source (.access (access.push select.criteria)) children) := by
  constructor
  · intro feed fits
    obtain ⟨fed, fits⟩ := fits_select.mp fits
    cases fits with
    | access fed' below =>
        refine .access (fun criteria member => ?_) below
        rcases List.mem_append.mp member with member | member
        · exact fed' criteria member
        · rw [List.mem_singleton.mp member]
          exact fed
    | pass transparent => cases transparent
    | other _ _ notAccess => cases notAccess
  · intro carried h
    rw [carried?_select, carried?_access, Option.map_some, Option.some.injEq] at h
    rw [carried?_access]
    refine ⟨_, rfl, fun criteria member => ⟨criteria, ?_, .inl rfl⟩⟩
    simp only [← h, AccessNode.push, List.mem_cons, List.mem_append, List.not_mem_nil,
      or_false] at member ⊢
    exact member.symm

theorem carried?_within_filters {filters : List Frame} (passed : ∀ frame ∈ filters, frame.IsFilter)
    {carried : List Criteria} (h : (tree.within filters).carried? = some carried) :
    ∃ inner, tree.carried? = some inner ∧ inner ⊆ carried := by
  induction filters generalizing tree with
  | nil => exact ⟨carried, h, List.Subset.refl _⟩
  | cons frame rest ih =>
      rw [List.forall_mem_cons] at passed
      obtain ⟨id, select, rfl⟩ := exists_eq_filter passed.1
      obtain ⟨outer, houter, subset⟩ := ih passed.2 h
      rw [Frame.fill, List.nil_append, carried?_select, Option.map_eq_some_iff] at houter
      obtain ⟨inner, hinner, rfl⟩ := houter
      exact ⟨inner, hinner, List.Subset.trans (List.subset_cons_self _ _) subset⟩

theorem succeeds_drop (id : NodeId) {select : SelectNode} {below : PlanTree}
    (redundant : select.RedundantAbove below) :
    (PlanTree.node id (.select select) [below]).Succeeds below := by
  refine ⟨fun fits => (fits_select.mp fits).2, fun {carried} h => ?_⟩
  rw [carried?_select, Option.map_eq_some_iff] at h
  obtain ⟨inner, hinner, rfl⟩ := h
  have replaced : ∃ other ∈ inner, other.StandsFor select.criteria := by
    cases redundant with
    | «repeated» same =>
        rw [carried?_select, Option.map_eq_some_iff] at hinner
        obtain ⟨_, -, rfl⟩ := hinner
        exact ⟨_, List.mem_cons_self, .inr same⟩
    | pushed passed contained =>
        obtain ⟨last, hlast, subset⟩ := carried?_within_filters passed hinner
        rw [carried?_access, Option.some.injEq] at hlast
        obtain ⟨other, hother, same⟩ := List.contains_iff_exists_mem_beq.mp contained
        exact ⟨other, subset (hlast ▸ hother), .inr (BEq.symm same)⟩
  refine ⟨inner, hinner, fun criteria member => ?_⟩
  rcases List.mem_cons.mp member with rfl | member
  · exact replaced
  · exact ⟨criteria, member, .inl rfl⟩

theorem succeeds_of_move (move : FilterMove tree new) : tree.Succeeds new := by
  cases move with
  | drop frames id redundant => exact (succeeds_drop id redundant).within frames
  | push frames id select passed source access children =>
      refine Succeeds.within ?_ frames
      exact (succeeds_pass id select passed _).trans
        ((succeeds_push id select source access children).within _)

/-! ## Settling -/

variable {outcomes : NodeId → Outcome}

theorem Fits.of_source (fits : tree.Fits none) (shaped : tree.WellShaped)
    (access : isAccess tree.source.kind = true) (feed : Option Feed) : tree.Fits feed := by
  induction tree with
  | node id kind children ih =>
      obtain ⟨hkind, below⟩ := wellShaped_node.mp shaped
      cases fits with
      | access fed below =>
          exact .access (fun criteria member => (fed criteria member).weaken feed) below
      | pass transparent fed inner =>
          rw [source, descend_of_step transparent] at access
          refine .pass transparent (fun criteria member => (fed criteria member).weaken feed) ?_
          exact ih _ List.mem_cons_self inner (below _ List.mem_cons_self) access
      | join =>
          rw [source, descend_of_not_step rfl] at access
          cases access
      | other solid notJoin notAccess =>
          rw [source, descend_of_not_step solid, kind_node, notAccess] at access
          cases access

theorem Fits.stacked (fits : tree.Fits feed) (first : NodeId) {criteria : List Criteria}
    (fed : ∀ criterion ∈ criteria, criterion.FedBy feed) :
    (tree.stacked first criteria).Fits feed := by
  induction criteria generalizing first tree with
  | nil => exact fits
  | cons criterion rest ih =>
      rw [List.forall_mem_cons] at fed
      exact ih (fits_select.mpr ⟨fed.1, fits⟩) (first + 1) fed.2

theorem carried?_stacked (first : NodeId) (criteria : List Criteria) :
    (tree.stacked first criteria).carried? = tree.carried?.map (criteria.reverse ++ ·) := by
  induction criteria generalizing first tree with
  | nil => simp [PlanTree.stacked]
  | cons criterion rest ih =>
      rw [PlanTree.stacked, ih, carried?_select, Option.map_map]
      congr 1
      funext carried
      simp

theorem Fits.carries_stacked {given : Feed} (fits : tree.Fits (some given)) (first : NodeId)
    {criteria : List Criteria} {criterion : Criteria} (member : criterion ∈ criteria) :
    (tree.stacked first criteria).Carries criterion := by
  obtain ⟨strand, hstrand⟩ := fits.exists_strand
  refine ⟨criteria.reverse ++ strand.flatMap (·.kind.applied), ?_, criterion,
    List.mem_append_left _ (List.mem_reverse.mpr member), .inl rfl⟩
  rw [carried?_stacked, carried?, hstrand]
  rfl

theorem carried?_rebuild (tree : PlanTree) : (tree.rebuild outcomes).carried? = tree.carried? := by
  induction tree with
  | node id kind children ih =>
      rw [rebuild_node]
      rcases rebuildNode_cases outcomes id kind (children.map (rebuild outcomes)) with
        ⟨join, left, right, rfl, hchildren⟩ | same
      · obtain ⟨payload, first, last, happly⟩ := (outcomes id).exists_apply id join left right
        have two : children.length = 2 := by
          simpa using congrArg List.length hchildren
        rw [hchildren, rebuildNode, happly, carried?_eq_none rfl, carried?_eq_none rfl]
        · omega
        · simp
      · rw [same]
        cases haccess : isAccess kind with
        | true =>
            cases kind <;> try cases haccess
            rw [carried?_access, carried?_access]
        | false =>
            rcases children with _ | ⟨child, _ | ⟨_, _⟩⟩
            · rfl
            · rw [List.map_singleton, carried?_single haccess, carried?_single haccess,
                ih child List.mem_cons_self]
            · rw [carried?_eq_none haccess, carried?_eq_none haccess] <;> simp

theorem mem_dependentSets_iff {set : Criteria} {source : String}
    {dependent independent : List Expr} :
    set ∈ ChooseDependent.dependentSets source dependent independent ↔
      set ∈ Feed.sets ⟨source, independent.zip dependent⟩ := by
  rw [ChooseDependent.dependentSets, Feed.sets, ← List.zip_swap, List.map_map]
  rfl

theorem Fits.conversion {left right : PlanTree} (hleft : left.Fits none) (hright : right.Fits none)
    (shaped : right.WellShaped) (access : isAccess right.source.kind = true) (id : NodeId)
    {payload : JoinNode} {source : String} {independent dependent : List Expr}
    (hsource : payload.valueSource = some source) (hindependent : payload.leftExprs = independent)
    (hdependent : payload.rightExprs = dependent) (first : NodeId) :
    (PlanTree.node id (.join payload) [left, right.stacked first
      (ChooseDependent.dependentSets source dependent independent)]).Fits none := by
  have feeds : payload.feed? = some ⟨source, independent.zip dependent⟩ := by
    rw [JoinNode.feed?, hsource, hindependent, hdependent]
    rfl
  have fed := hright.of_source shaped access payload.feed?
  refine .join hleft (fed.stacked first fun set member => ?_) fun feed h set member => ?_
  · rw [feeds]
    exact Criteria.fedBy_of_mem_sets (mem_dependentSets_iff.mp member)
  · rw [feeds] at fed h
    cases h
    exact fed.carries_stacked first (mem_dependentSets_iff.mpr member)

theorem Sound.fits_rebuild {tree : PlanTree} {first last : Nat}
    (sound : tree.Sound outcomes first last) (shaped : tree.WellShaped) {sub : PlanTree}
    (member : sub ∈ tree.subtrees) (fits : sub.Fits feed) : (sub.rebuild outcomes).Fits feed := by
  induction fits with
  | access fed below ih =>
      rw [rebuild_of_not_join rfl]
      refine .access fed fun child hchild => ?_
      obtain ⟨old, hold, rfl⟩ := List.mem_map.mp hchild
      exact ih old hold (child_mem_subtrees member hold)
  | pass transparent fed below ih =>
      rw [rebuild_of_not_join (join?_of_isTransparent transparent)]
      exact .pass transparent fed (ih (child_mem_subtrees member List.mem_cons_self))
  | other solid notJoin notAccess below ih =>
      rw [rebuild_of_not_join notJoin]
      refine .other solid notJoin notAccess fun child hchild => ?_
      obtain ⟨old, hold, rfl⟩ := List.mem_map.mp hchild
      exact ih old hold (child_mem_subtrees member hold)
  | join hleft hright carries ihleft ihright =>
      rename_i id join left right
      have inside : ∀ input ∈ [left, right], input ∈ tree.subtrees :=
        fun input hinput => child_mem_subtrees member hinput
      have hleft' := ihleft (inside left (by simp))
      have hright' := ihright (inside right (by simp))
      rw [rebuild_join]
      cases houtcome : outcomes id with
      | mk costs conversion =>
          cases conversion with
          | none =>
              have same : (join.priced costs).feed? = join.feed? := by simp [JoinNode.feed?]
              rw [Outcome.apply_unconverted]
              refine .join hleft' (same ▸ hright') fun feed h set hset => ?_
              obtain ⟨carried, hcarried, stands⟩ := carries feed (same ▸ h) set hset
              exact ⟨carried, (carried?_rebuild right).trans hcarried, stands⟩
          | some conversion =>
              have hadmits := sound.admitted member (show _ = some conversion by rw [houtcome])
              have ordinary := JoinNode.ordinary_of_allows (JoinNode.allows_of_admits hadmits)
              have unfed : join.feed? = none := by rw [JoinNode.feed?, ordinary]; rfl
              rw [unfed] at hright'
              obtain ⟨-, -, -, access, haccess, -⟩ := JoinNode.legalOn_of_admits hadmits
              have ends {input : PlanTree} (h : input.source.kind = .access access) :
                  isAccess (input.rebuild outcomes).source.kind = true := by
                rw [source_rebuild, isAccess, access?_rebuild, h]
                rfl
              obtain ⟨side, number, firstFilter⟩ := conversion
              cases side with
              | left =>
                  rw [Outcome.apply_left]
                  exact hright'.conversion hleft' (shaped.of_mem (inside left (by simp))).rebuild
                    (ends haccess) id rfl (join.rightExprs_priced costs)
                    (join.leftExprs_priced costs) _
              | right =>
                  rw [Outcome.apply_right]
                  exact hleft'.conversion hright' (shaped.of_mem (inside right (by simp))).rebuild
                    (ends haccess) id
                    (show ((join.priced costs).fedBy number).valueSource = some _ from rfl)
                    (join.leftExprs_priced costs) (join.rightExprs_priced costs) _

/-- Whatever is planned, filters stay where they are fed. -/
theorem fits_of_planningMove {tree new : PlanTree × Nat} (move : PlanningMove tree new)
    (fits : tree.1.Fits none) : new.1.Fits none := by
  cases move with
  | filter move => exact (succeeds_of_move move).fits fits
  | settle nodup shaped sound started =>
      exact sound.fits_rebuild shaped (self_mem_subtrees _) fits

end PlanTree

end FederatedQuery
