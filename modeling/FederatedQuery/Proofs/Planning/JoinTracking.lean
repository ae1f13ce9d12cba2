import FederatedQuery.Proofs.Plan.Unpriced
import FederatedQuery.Proofs.Planning.FilterMoves
import FederatedQuery.Proofs.Planning.Settling
import Mathlib.Data.List.Forall2

/-!
# Joins through one step of planning

Planning takes out filters, pushes their criteria into accesses and makes inputs of
joins dependent, but no join ever leaves its position.  A join either keeps its inputs
and its payload, up to recorded costs, or it is converted, and then it was legal to do
so.  Where no conversion is legal, not even costs are recorded.
-/

namespace FederatedQuery

namespace PlanTree

def filters : PlanTree → List (NodeId × SelectNode)
  | .node id (.select payload) (child :: _) => (id, payload) :: child.filters
  | _ => []

def hint? (tree : PlanTree) : Option Bool := tree.source.kind.access?.map (·.makeNotDependent)

theorem filters_of_not_select {tree : PlanTree} (h : tree.kind.isSelect = false) :
    tree.filters = [] := by
  obtain ⟨id, kind, children⟩ := tree
  cases kind <;> first | rfl | cases h

/-- The same input of a join, up to filters that were taken out. -/
structure SameInput (old new : PlanTree) : Prop where
  beneath : new.beneath.id = old.beneath.id
  filters : new.filters.Sublist old.filters
  hint : new.hint? = old.hint?

theorem SameInput.refl (tree : PlanTree) : tree.SameInput tree := ⟨rfl, .refl _, rfl⟩

theorem SameInput.trans {old middle new : PlanTree} (first : old.SameInput middle)
    (second : middle.SameInput new) : old.SameInput new :=
  ⟨second.beneath.trans first.beneath, second.filters.trans first.filters,
    second.hint.trans first.hint⟩

theorem SameInput.pick {left right newLeft newRight : PlanTree} (hleft : left.SameInput newLeft)
    (hright : right.SameInput newRight) (side : Side) :
    (side.pick left right).SameInput (side.pick newLeft newRight) := by
  cases side with
  | left => exact hleft
  | right => exact hright

end PlanTree

/-- A join may make its input on this side dependent. -/
structure JoinNode.LegalOn (join : JoinNode) (side : Side) (input : PlanTree) : Prop where
  joinType : join.joinType = .inner ∨ join.joinType = .leftOuter ∧ side = .right ∨
    join.joinType = .rightOuter ∧ side = .left
  criteria : join.criteria ≠ []
  equalities : join.leftExprs ≠ []
  source : ∃ access, input.source.kind = .access access ∧ access.makeNotDependent = false

theorem JoinNode.legalOn_of_admits {join : JoinNode} {side : Side} {input : PlanTree}
    (h : join.admits side input = true) : join.LegalOn side input := by
  have hallows := allows_of_admits h
  refine ⟨joinType_of_allows hallows, ?_, equalities_of_admits h, ?_⟩
  · intro empty
    simp [allows, empty] at hallows
  · obtain ⟨access, haccess, hhint⟩ :=
      (Option.any_eq_true _ _).mp (Bool.and_eq_true_iff.mp h).1
    exact ⟨access, PlanTree.kind_eq_access haccess, by simpa using hhint⟩

theorem PlanTree.hint?_eq_some_iff {tree : PlanTree} {hint : Bool} :
    tree.hint? = some hint ↔
      ∃ access, tree.source.kind = .access access ∧ access.makeNotDependent = hint := by
  rw [hint?, Option.map_eq_some_iff]
  constructor
  · rintro ⟨access, haccess, hhint⟩
    exact ⟨access, kind_eq_access haccess, hhint⟩
  · rintro ⟨access, haccess, hhint⟩
    exact ⟨access, by rw [haccess]; rfl, hhint⟩

theorem JoinNode.LegalOn.of_same {join other : JoinNode} {side : Side} {input new : PlanTree}
    (legal : other.LegalOn side new) (payload : other.unpriced = join.unpriced)
    (same : input.SameInput new) : join.LegalOn side input := by
  obtain ⟨joinType, criteria, equalities, source⟩ := legal
  rw [← PlanTree.hint?_eq_some_iff, same.hint, PlanTree.hint?_eq_some_iff] at source
  have hjoinType : other.joinType = join.joinType := congrArg (·.joinType) payload
  have hcriteria : other.criteria = join.criteria := congrArg (·.criteria) payload
  have hleftExprs : other.leftExprs = join.leftExprs := congrArg (·.leftExprs) payload
  exact ⟨hjoinType ▸ joinType, hcriteria ▸ criteria, hleftExprs ▸ equalities, source⟩

/-- What becomes of a join with two inputs. -/
inductive JoinChange (id : NodeId) (join : JoinNode) (left right : PlanTree) : PlanTree → Prop
  | kept {payload : JoinNode} {newLeft newRight : PlanTree}
      (same : payload.unpriced = join.unpriced)
      (fixed : join.joinType = .cross ∨ join.joinType = .fullOuter → payload = join)
      (hleft : left.SameInput newLeft) (hright : right.SameInput newRight) :
      JoinChange id join left right (.node id (.join payload) [newLeft, newRight])
  | converted {payload : JoinNode} {first last : PlanTree} (side : Side)
      (ordinary : join.valueSource = none) (dependent : payload.valueSource.isSome = true)
      (legal : join.LegalOn side (side.pick left right))
      (joinType : payload.joinType = .inner ∨ payload.joinType = .leftOuter)
      (hfirst : (side.opposite.pick left right).SameInput first)
      (hlast : last.beneath.id = (side.pick left right).beneath.id) :
      JoinChange id join left right (.node id (.join payload) [first, last])

structure PlanTree.Tracks (old new : PlanTree) : Prop where
  joins : ∀ {id join left right}, PlanTree.node id (.join join) [left, right] ∈ old.subtrees →
    ∃ after ∈ new.subtrees, JoinChange id join left right after
  enclosed : ∀ {outer}, outer ∈ old.subtrees → isAccess outer.kind = true →
    ∃ after ∈ new.subtrees, isAccess after.kind = true ∧
      ∀ {id join left right}, PlanTree.node id (.join join) [left, right] ∈ outer.subtrees →
        ∃ newLeft newRight,
          PlanTree.node id (.join join) [newLeft, newRight] ∈ after.subtrees ∧
            left.SameInput newLeft ∧ right.SameInput newRight

theorem PlanTree.Tracks.refl (tree : PlanTree) : tree.Tracks tree :=
  ⟨fun member => ⟨_, member, .kept rfl (fun _ => rfl) (.refl _) (.refl _)⟩,
    fun member h => ⟨_, member, h, fun inside => ⟨_, _, inside, .refl _, .refl _⟩⟩⟩

theorem PlanTree.Tracks.trans {old middle new : PlanTree} (first : old.Tracks middle)
    (second : middle.Tracks new) : old.Tracks new := by
  constructor
  · intro id join left right member
    obtain ⟨between, hbetween, change⟩ := first.joins member
    cases change with
    | kept same fixed hleft hright =>
        rename_i payload newLeft newRight
        obtain ⟨after, hafter, change'⟩ := second.joins hbetween
        refine ⟨after, hafter, ?_⟩
        cases change' with
        | kept same' fixed' hleft' hright' =>
            refine .kept (same'.trans same) (fun h => ?_) (hleft.trans hleft')
              (hright.trans hright')
            have payload_eq := fixed h
            subst payload_eq
            exact fixed' h
        | converted side ordinary dependent legal joinType hfirst hlast =>
            have hsource : payload.valueSource = join.valueSource :=
              congrArg (·.valueSource) same
            have inputs := hleft.pick hright
            exact .converted side (hsource ▸ ordinary) dependent
              (legal.of_same same (inputs side)) joinType ((inputs side.opposite).trans hfirst)
              (hlast.trans (inputs side).beneath)
    | converted side ordinary dependent legal joinType hfirst hlast =>
        rename_i payload firstInput lastInput
        obtain ⟨after, hafter, change'⟩ := second.joins hbetween
        refine ⟨after, hafter, ?_⟩
        cases change' with
        | kept same' fixed' hleft' hright' =>
            rename_i payload' firstInput' lastInput'
            have hsource : payload'.valueSource = payload.valueSource :=
              congrArg (·.valueSource) same'
            have htype : payload'.joinType = payload.joinType := congrArg (·.joinType) same'
            exact .converted side ordinary (hsource ▸ dependent) legal (htype ▸ joinType)
              (hfirst.trans hleft') (hright'.beneath.trans hlast)
        | converted _ ordinary' =>
            rw [ordinary'] at dependent
            cases dependent
  · intro outer member haccess
    obtain ⟨between, hbetween, haccess', inside⟩ := first.enclosed member haccess
    obtain ⟨after, hafter, haccess'', inside'⟩ := second.enclosed hbetween haccess'
    refine ⟨after, hafter, haccess'', fun hjoin => ?_⟩
    obtain ⟨newLeft, newRight, hnew, hleft, hright⟩ := inside hjoin
    obtain ⟨lastLeft, lastRight, hlast, hleft', hright'⟩ := inside' hnew
    exact ⟨lastLeft, lastRight, hlast, hleft.trans hleft', hright.trans hright'⟩

/-! ## Filter moves -/

theorem exists_related {α β : Type} {related : α → β → Prop} {first : List α}
    {second : List β} (h : List.Forall₂ related first second) {value : α} (member : value ∈ first) :
    ∃ other ∈ second, related value other := by
  induction h with
  | nil => cases member
  | cons head tail ih =>
      rcases List.mem_cons.mp member with rfl | member
      · exact ⟨_, List.mem_cons_self, head⟩
      · obtain ⟨other, hother, hrelated⟩ := ih member
        exact ⟨other, List.mem_cons_of_mem _ hother, hrelated⟩

/-- The same tree without some filters, and with criteria pushed into some accesses. -/
inductive PlanTree.Thinned : PlanTree → PlanTree → Prop
  | drop {id : NodeId} {select : SelectNode} {below new : PlanTree} (h : Thinned below new) :
      Thinned (.node id (.select select) [below]) new
  | node (id : NodeId) (kind : NodeKind) {children news : List PlanTree}
      (h : List.Forall₂ Thinned children news) :
      Thinned (.node id kind children) (.node id kind news)
  | push (id : NodeId) (access : AccessNode) (children : List PlanTree) (criteria : Criteria) :
      Thinned (.node id (.access access) children)
        (.node id (.access (access.push criteria)) children)

namespace PlanTree

theorem Thinned.refl (tree : PlanTree) : tree.Thinned tree := by
  induction tree with
  | node id kind children ih => exact .node id kind (List.forall₂_same.mpr ih)

theorem Thinned.within {tree new : PlanTree} (h : tree.Thinned new) (frames : List Frame) :
    (tree.within frames).Thinned (new.within frames) := by
  induction frames generalizing tree new with
  | nil => exact h
  | cons frame rest ih =>
      apply ih
      refine .node frame.id frame.kind (List.rel_append ?_ (.cons h ?_))
      · exact List.forall₂_same.mpr fun side _ => .refl side
      · exact List.forall₂_same.mpr fun side _ => .refl side

theorem thinned_of_move {tree new : PlanTree} (move : FilterMove tree new) : tree.Thinned new := by
  cases move with
  | drop frames id redundant => exact (Thinned.drop (.refl _)).within frames
  | push frames id select passed source access children =>
      have pushed := Thinned.push source access children select.criteria
      exact (Thinned.drop (pushed.within _)).within frames

theorem hint?_of_isTransparent {id : NodeId} {kind : NodeKind} {child : PlanTree}
    {rest : List PlanTree} (h : kind.isTransparent = true) :
    (PlanTree.node id kind (child :: rest)).hint? = child.hint? := by
  rw [hint?, source, descend_of_step h]
  rfl

theorem Thinned.sameInput {tree new : PlanTree} (h : tree.Thinned new) : tree.SameInput new := by
  induction tree generalizing new with
  | node id kind children ih =>
      cases h with
      | drop h =>
          obtain ⟨beneath, filters, hint⟩ := ih _ List.mem_cons_self h
          exact ⟨beneath, filters.cons _, hint⟩
      | push id access children criteria =>
          refine ⟨?_, .refl _, ?_⟩
          · rw [beneath, beneath, descend_of_not_step rfl, descend_of_not_step rfl]
            rfl
          · rw [hint?, hint?, source, source, descend_of_not_step rfl, descend_of_not_step rfl]
            rfl
      | node id kind h =>
          cases h with
          | nil => exact .refl _
          | cons hchild hrest =>
              obtain ⟨hbeneath, hfilters, hhint⟩ := ih _ List.mem_cons_self hchild
              refine ⟨?_, ?_, ?_⟩
              · cases hselect : kind.isSelect with
                | true => rwa [beneath, beneath, descend_of_step hselect, descend_of_step hselect]
                | false =>
                    rw [beneath, beneath, descend_of_not_step hselect,
                      descend_of_not_step hselect]
                    rfl
              · cases hselect : kind.isSelect with
                | true =>
                    obtain ⟨select, rfl⟩ := NodeKind.exists_eq_select hselect
                    exact hfilters.cons_cons _
                | false =>
                    have none (inputs : List PlanTree) :
                        (PlanTree.node id kind inputs).filters = [] := filters_of_not_select hselect
                    rw [none, none]
              · cases htransparent : kind.isTransparent with
                | true =>
                    rwa [hint?_of_isTransparent htransparent, hint?_of_isTransparent htransparent]
                | false =>
                    rw [hint?, hint?, source, source, descend_of_not_step htransparent,
                      descend_of_not_step htransparent]
                    rfl

theorem Thinned.exists_of_mem {tree new sub : PlanTree} (h : tree.Thinned new)
    (member : sub ∈ tree.subtrees) (hsub : sub.kind.isSelect = false) :
    ∃ after ∈ new.subtrees, sub.Thinned after ∧ after.id = sub.id := by
  induction tree generalizing new with
  | node id kind children ih =>
      rw [subtrees_node, List.mem_cons, List.mem_flatMap] at member
      cases h with
      | drop h =>
          rcases member with rfl | ⟨child, hchild, member⟩
          · cases hsub
          · cases List.mem_singleton.mp hchild
            exact ih _ hchild h member
      | push id access children criteria =>
          rcases member with rfl | ⟨child, hchild, member⟩
          · exact ⟨_, self_mem_subtrees _, .push _ _ _ _, rfl⟩
          · exact ⟨sub, mem_subtrees_of_child hchild member, .refl sub, rfl⟩
      | node id kind h =>
          rename_i news
          rcases member with rfl | ⟨child, hchild, member⟩
          · exact ⟨_, self_mem_subtrees _, .node _ _ h, rfl⟩
          · obtain ⟨next, hnext, hthinned⟩ := exists_related h hchild
            obtain ⟨after, hafter, thinned, same⟩ := ih child hchild hthinned member
            exact ⟨after, mem_subtrees_of_child hnext hafter, thinned, same⟩

theorem Thinned.exists_origin {tree new after : PlanTree} (h : tree.Thinned new)
    (member : after ∈ new.subtrees) (hafter : after.kind.isSelect = false) :
    ∃ sub ∈ tree.subtrees, sub.Thinned after ∧ sub.kind.isSelect = false := by
  induction tree generalizing new with
  | node id kind children ih =>
      cases h with
      | drop h =>
          obtain ⟨sub, hsub, found⟩ := ih _ List.mem_cons_self h member
          exact ⟨sub, mem_subtrees_of_child List.mem_cons_self hsub, found⟩
      | push id access children criteria =>
          rw [subtrees_node, List.mem_cons, List.mem_flatMap] at member
          rcases member with rfl | ⟨child, hchild, member⟩
          · exact ⟨_, self_mem_subtrees _, .push _ _ _ _, rfl⟩
          · exact ⟨after, mem_subtrees_of_child hchild member, .refl after, hafter⟩
      | node id kind h =>
          rw [subtrees_node, List.mem_cons, List.mem_flatMap] at member
          rcases member with rfl | ⟨next, hnext, member⟩
          · exact ⟨_, self_mem_subtrees _, .node _ _ h, hafter⟩
          · obtain ⟨child, hchild, hthinned⟩ :=
              exists_related (List.Forall₂.flip (R := flip Thinned) h) hnext
            obtain ⟨sub, hsub, found⟩ := ih child hchild hthinned member
            exact ⟨sub, mem_subtrees_of_child hchild hsub, found⟩

theorem Thinned.id_eq {tree new : PlanTree} (h : tree.Thinned new)
    (standing : tree.kind.isSelect = false) : new.id = tree.id := by
  cases h with
  | drop => cases standing
  | node => rfl
  | push => rfl

theorem Thinned.exists_join {tree new : PlanTree} (h : tree.Thinned new) {id : NodeId}
    {join : JoinNode} {left right : PlanTree}
    (member : PlanTree.node id (.join join) [left, right] ∈ tree.subtrees) :
    ∃ newLeft newRight, PlanTree.node id (.join join) [newLeft, newRight] ∈ new.subtrees ∧
      left.SameInput newLeft ∧ right.SameInput newRight := by
  obtain ⟨after, hafter, thinned, -⟩ := h.exists_of_mem member rfl
  cases thinned with
  | node id kind h =>
      cases h with
      | cons hleft h =>
          cases h with
          | cons hright h =>
              cases h
              exact ⟨_, _, hafter, hleft.sameInput, hright.sameInput⟩

theorem Thinned.tracks {tree new : PlanTree} (h : tree.Thinned new) : tree.Tracks new := by
  constructor
  · intro id join left right member
    obtain ⟨newLeft, newRight, hnew, hleft, hright⟩ := h.exists_join member
    exact ⟨_, hnew, .kept rfl (fun _ => rfl) hleft hright⟩
  · intro outer member haccess
    have notSelect : outer.kind.isSelect = false := by
      cases hkind : outer.kind <;> rw [hkind] at haccess <;> first | rfl | cases haccess
    obtain ⟨after, hafter, thinned, -⟩ := h.exists_of_mem member notSelect
    refine ⟨after, hafter, ?_, fun inside => thinned.exists_join inside⟩
    cases thinned with
    | drop => cases notSelect
    | node => exact haccess
    | push => rfl

/-! ## Outcomes of joins -/

variable {outcomes : NodeId → Outcome}

theorem filters_rebuild (tree : PlanTree) : (tree.rebuild outcomes).filters = tree.filters := by
  induction tree with
  | node id kind children ih =>
      cases hselect : kind.isSelect with
      | true =>
          obtain ⟨select, rfl⟩ := NodeKind.exists_eq_select hselect
          rw [rebuild_of_not_join rfl]
          cases children with
          | nil => rfl
          | cons child rest =>
              rw [List.map_cons, filters, filters, ih child List.mem_cons_self]
      | false =>
          have hold : (PlanTree.node id kind children).filters = [] :=
            filters_of_not_select hselect
          rw [hold, filters_of_not_select]
          rcases (PlanTree.node id kind children).kind_rebuild outcomes with
            same | ⟨join, payload, -, hnew⟩
          · rw [same]
            exact hselect
          · rw [hnew]
            rfl

theorem sameInput_rebuild (tree : PlanTree) : tree.SameInput (tree.rebuild outcomes) := by
  refine ⟨?_, ?_, ?_⟩
  · rw [beneath_rebuild, id_rebuild]
  · rw [filters_rebuild]
  · rw [hint?, hint?, source_rebuild, access?_rebuild]

theorem beneath_stacked (first : NodeId) (tree : PlanTree) (criteria : List Criteria) :
    (tree.stacked first criteria).beneath = tree.beneath := by
  induction criteria generalizing first tree with
  | nil => rfl
  | cons criterion rest ih =>
      rw [stacked, ih, beneath, descend_of_step rfl]
      rfl

theorem Sound.eq_none_of_enclosed {tree outer : PlanTree} {first last : Nat}
    (sound : tree.Sound outcomes first last) (nodup : tree.ids.Nodup) (shaped : tree.WellShaped)
    (member : outer ∈ tree.subtrees) (haccess : isAccess outer.kind = true) {id : NodeId}
    {join : JoinNode} {left right : PlanTree}
    (inside : PlanTree.node id (.join join) [left, right] ∈ outer.subtrees) :
    outcomes id = .none := by
  by_contra settled
  obtain ⟨candidate, hcandidate, rfl⟩ := List.mem_map.mp (sound.candidate id settled)
  obtain ⟨join', left', right', hjoins, -⟩ := exists_of_mem_candidates shaped hcandidate
  have same := eq_of_id_eq nodup (subtrees_subset_of_mem member inside)
    (joins_subset_subtrees tree hjoins) rfl
  have visited := (List.mem_filter.mp hjoins).1
  rw [← same] at visited
  have isOuter := eq_of_mem_visit nodup visited member haccess inside
  rw [← isOuter] at haccess
  cases haccess

theorem Sound.joinChange {tree : PlanTree} {first last : Nat}
    (sound : tree.Sound outcomes first last) (nodup : tree.ids.Nodup) (shaped : tree.WellShaped)
    {id : NodeId} {join : JoinNode} {left right : PlanTree}
    (member : PlanTree.node id (.join join) [left, right] ∈ tree.subtrees) :
    JoinChange id join left right
      ((PlanTree.node id (.join join) [left, right]).rebuild outcomes) := by
  have hleft : left.SameInput (left.rebuild outcomes) := sameInput_rebuild left
  have hright : right.SameInput (right.rebuild outcomes) := sameInput_rebuild right
  rw [rebuild_join]
  by_cases settled : outcomes id = .none
  · rw [settled, Outcome.apply_none]
    exact .kept rfl (fun _ => rfl) hleft hright
  · obtain ⟨side, hallows⟩ := sound.exists_allows nodup shaped member settled
    have plain := JoinNode.plain_of_allows hallows
    cases houtcome : outcomes id with
    | mk costs conversion =>
        cases conversion with
        | none =>
            rw [Outcome.apply_unconverted]
            refine .kept (join.unpriced_priced costs) (fun special => ?_) hleft hright
            exact absurd special (not_or.mpr ⟨plain.2, plain.1⟩)
        | some conversion =>
            have hadmits := sound.admitted member (show _ = some conversion by rw [houtcome])
            have legal := JoinNode.legalOn_of_admits hadmits
            have ordinary := JoinNode.ordinary_of_allows hallows
            obtain ⟨side, number, firstFilter⟩ := conversion
            cases side with
            | left =>
                rw [Outcome.apply_left]
                refine .converted .left ordinary rfl legal ?_ hright ?_
                · rcases legal.joinType with h | ⟨-, h⟩ | ⟨h, -⟩
                  · simp [JoinNode.mirrored, JoinNode.fedBy, h, JoinType.mirrored]
                  · cases h
                  · simp [JoinNode.mirrored, JoinNode.fedBy, h, JoinType.mirrored]
                · rw [beneath_stacked]
                  exact hleft.beneath
            | right =>
                rw [Outcome.apply_right]
                refine .converted .right ordinary rfl legal ?_ hleft ?_
                · rcases legal.joinType with h | ⟨h, -⟩ | ⟨-, h⟩
                  · simp [JoinNode.fedBy, h]
                  · simp [JoinNode.fedBy, h]
                  · cases h
                · rw [beneath_stacked]
                  exact hright.beneath

theorem tracks_rebuild {tree : PlanTree} {first last : Nat} (nodup : tree.ids.Nodup)
    (shaped : tree.WellShaped) (sound : tree.Sound outcomes first last) :
    tree.Tracks (tree.rebuild outcomes) := by
  constructor
  · intro id join left right member
    exact ⟨_, rebuild_mem_subtrees member, sound.joinChange nodup shaped member⟩
  · intro outer member haccess
    refine ⟨outer.rebuild outcomes, rebuild_mem_subtrees member, ?_, fun inside => ?_⟩
    · rw [isAccess, access?_rebuild]
      exact haccess
    · have hnone := sound.eq_none_of_enclosed nodup shaped member haccess inside
      have hafter : _ ∈ (outer.rebuild outcomes).subtrees := rebuild_mem_subtrees inside
      rw [rebuild_join, hnone, Outcome.apply_none] at hafter
      exact ⟨_, _, hafter, sameInput_rebuild _, sameInput_rebuild _⟩

end PlanTree

end FederatedQuery
