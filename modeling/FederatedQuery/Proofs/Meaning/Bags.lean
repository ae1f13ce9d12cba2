import FederatedQuery.Proofs.Planning.Settling
import Mathlib.Data.List.Zip
import Mathlib.Data.Multiset.Bind
import Mathlib.Data.Multiset.Filter

/-!
# Dependent joins and bags of rows

Rows come in bags.  A join merges the pairs of rows on which its criteria hold, and a
filter that was made for a dependent join looks into what feeds its value source: the
rows of the independent input of that join.  So a plan denotes a bag together with
what its value sources are fed, and making joins dependent changes neither the bag
nor what the value sources before it were fed.
-/

namespace FederatedQuery

universe u v

def Criteria.valueSources : Criteria → List String
  | .dependentSet _ source _ => [source]
  | .compound _ operands => ofOperands operands
  | .not operand => operand.valueSources
  | _ => []
where
  ofOperands : List Criteria → List String
    | [] => []
    | criteria :: rest => criteria.valueSources ++ ofOperands rest

def NodeKind.criteria : NodeKind → List Criteria
  | .join payload => payload.criteria
  | .select payload => [payload.criteria]
  | _ => []

def PlanTree.readSources (tree : PlanTree) : List String :=
  tree.subtrees.flatMap fun sub => sub.kind.criteria.flatMap Criteria.valueSources

def PlanTree.fedSources (tree : PlanTree) : List String :=
  tree.subtrees.filterMap fun sub => sub.kind.join?.bind (·.valueSource)

/-- The join that feeds a value source, with the tree that it reads first. -/
def PlanTree.Feeds (tree : PlanTree) (source : String) (independent : PlanTree) : Prop :=
  ∃ id payload right, PlanTree.node id (.join payload) [independent, right] ∈ tree.subtrees ∧
    payload.valueSource = some source

theorem PlanTree.Feeds.mem_fedSources {tree independent : PlanTree} {source : String}
    (h : tree.Feeds source independent) : source ∈ tree.fedSources := by
  obtain ⟨id, payload, right, member, hsource⟩ := h
  exact List.mem_filterMap.mpr ⟨_, member, hsource⟩

abbrev Feeds (Row : Type u) := String → Set Row

/-- A reading of expressions, of criteria and of plan nodes over some type of rows. -/
structure BagReading (Row : Type u) (Value : Type v) where
  eval : Expr → Row → Option Value
  merge : Row → Row → Row
  merge_comm : ∀ first second, merge first second = merge second first
  holds : Feeds Row → Criteria → Row → Prop
  holds_congr : ∀ {feeds other : Feeds Row} {criteria : Criteria},
    (∀ source ∈ criteria.valueSources, other source = feeds source) →
      ∀ row, holds other criteria row ↔ holds feeds criteria row
  holds_dependentSet : ∀ feeds expr source valueExpr row,
    holds feeds (.dependentSet expr source valueExpr) row ↔
      ∃ fed ∈ feeds source, ∃ value, eval valueExpr fed = some value ∧ eval expr row = some value
  eval_of_holds_eq : ∀ {feeds left right row}, holds feeds (.eq left right) row →
    ∃ value, eval left row = some value ∧ eval right row = some value
  other : NodeKind → List (Multiset Row) → Multiset Row

namespace BagReading

variable {Row : Type u} {Value : Type v} (reading : BagReading Row Value) (feeds : Feeds Row)

open scoped Classical

def Joined (criteria : List Criteria) (first second : Row) : Prop :=
  ∀ criterion ∈ criteria, reading.holds feeds criterion (reading.merge first second)

def Passes (criteria : List Criteria) (row : Row) : Prop :=
  ∀ criterion ∈ criteria, reading.holds feeds criterion row

noncomputable def pairs (criteria : List Criteria) (left right : Multiset Row) : Multiset Row :=
  left.bind fun first => right.bind fun second =>
    if reading.Joined feeds criteria first second then {reading.merge first second} else 0

noncomputable def unmatched (criteria : List Criteria) (outer inner : Multiset Row) :
    Multiset Row :=
  outer.filter fun row => ∀ other ∈ inner, ¬ reading.Joined feeds criteria row other

noncomputable def join (payload : JoinNode) (left right : Multiset Row) : Multiset Row :=
  match payload.joinType with
  | .inner => reading.pairs feeds payload.criteria left right
  | .leftOuter =>
      reading.pairs feeds payload.criteria left right +
        reading.unmatched feeds payload.criteria left right
  | .rightOuter =>
      reading.pairs feeds payload.criteria left right +
        reading.unmatched feeds payload.criteria right left
  | .fullOuter | .cross => reading.other (.join payload) [left, right]

noncomputable def apply : NodeKind → List (Multiset Row) → Multiset Row
  | .select select, [rows] => rows.filter (reading.holds feeds select.criteria)
  | .join payload, [left, right] => reading.join feeds payload left right
  | kind, inputs => reading.other kind inputs

noncomputable def bag (tree : PlanTree) : Multiset Row :=
  tree.fold fun _ kind inputs => reading.apply feeds kind inputs

/-- Every value source is fed what the joins that feed it have in their left inputs. -/
def Fed (tree : PlanTree) : Prop :=
  ∀ source row, row ∈ feeds source ↔
    ∃ independent, tree.Feeds source independent ∧ row ∈ reading.bag feeds independent

/-! ## Joins of bags -/

variable {reading feeds}

theorem joined_comm {criteria : List Criteria} {first second : Row} :
    reading.Joined feeds criteria first second ↔ reading.Joined feeds criteria second first := by
  rw [Joined, Joined, reading.merge_comm]

theorem pairs_comm (criteria : List Criteria) (left right : Multiset Row) :
    reading.pairs feeds criteria left right = reading.pairs feeds criteria right left := by
  rw [pairs, Multiset.bind_bind, pairs]
  refine Multiset.bind_congr fun second _ => Multiset.bind_congr fun first _ => ?_
  rw [reading.merge_comm]
  simp only [joined_comm]

theorem join_mirrored {payload : JoinNode}
    (reversible : payload.joinType ≠ .fullOuter ∧ payload.joinType ≠ .cross)
    (left right : Multiset Row) :
    reading.join feeds payload.mirrored right left = reading.join feeds payload left right := by
  have criteria : payload.mirrored.criteria = payload.criteria := rfl
  have joinType : payload.mirrored.joinType = payload.joinType.mirrored := rfl
  unfold join
  rw [criteria, joinType, pairs_comm]
  cases htype : payload.joinType with
  | inner => rfl
  | leftOuter => rfl
  | rightOuter => rfl
  | fullOuter => exact absurd htype reversible.1
  | cross => exact absurd htype reversible.2

private theorem bind_filter {keep : Row → Prop} {rows : Multiset Row}
    {produce : Row → Multiset Row} (nothing : ∀ row ∈ rows, ¬ keep row → produce row = 0) :
    (rows.filter keep).bind produce = rows.bind produce := by
  induction rows using Multiset.induction_on with
  | empty => rfl
  | cons row rest ih =>
      have hrest := ih fun other hother => nothing other (Multiset.mem_cons_of_mem hother)
      by_cases hkeep : keep row
      · rw [Multiset.filter_cons_of_pos _ hkeep, Multiset.cons_bind, Multiset.cons_bind, hrest]
      · rw [Multiset.filter_cons_of_neg _ hkeep, Multiset.cons_bind, hrest,
          nothing row (Multiset.mem_cons_self row rest) hkeep, zero_add]

theorem pairs_filter {criteria : List Criteria} {left right : Multiset Row} {keep : Row → Prop}
    (kept : ∀ first ∈ left, ∀ second ∈ right,
      reading.Joined feeds criteria first second → keep second) :
    reading.pairs feeds criteria left (right.filter keep) =
      reading.pairs feeds criteria left right := by
  refine Multiset.bind_congr fun first hfirst => bind_filter fun second hsecond hkeep => ?_
  rw [if_neg]
  exact fun joined => hkeep (kept first hfirst second hsecond joined)

theorem unmatched_filter {criteria : List Criteria} {left right : Multiset Row}
    {keep : Row → Prop}
    (kept : ∀ first ∈ left, ∀ second ∈ right,
      reading.Joined feeds criteria first second → keep second) :
    reading.unmatched feeds criteria left (right.filter keep) =
      reading.unmatched feeds criteria left right := by
  refine Multiset.filter_congr fun first hfirst => ⟨fun none second hsecond joined => ?_, ?_⟩
  · have hkeep := kept first hfirst second hsecond joined
    exact none second (Multiset.mem_filter.mpr ⟨hsecond, hkeep⟩) joined
  · intro none second hsecond
    exact none second (Multiset.mem_filter.mp hsecond).1

theorem join_filter {payload : JoinNode} {left right : Multiset Row} {keep : Row → Prop}
    (reducible : payload.joinType = .inner ∨ payload.joinType = .leftOuter)
    (kept : ∀ first ∈ left, ∀ second ∈ right,
      reading.Joined feeds payload.criteria first second → keep second) :
    reading.join feeds payload left (right.filter keep) =
      reading.join feeds payload left right := by
  unfold join
  rcases reducible with htype | htype
  · rw [htype]
    exact pairs_filter kept
  · rw [htype]
    simp only [pairs_filter kept, unmatched_filter kept]

theorem join_payload_congr {payload other : JoinNode} (joinType : other.joinType = payload.joinType)
    (criteria : other.criteria = payload.criteria)
    (plain : payload.joinType ≠ .fullOuter ∧ payload.joinType ≠ .cross)
    (left right : Multiset Row) :
    reading.join feeds other left right = reading.join feeds payload left right := by
  unfold join
  rw [joinType, criteria]
  cases htype : payload.joinType with
  | inner => rfl
  | leftOuter => rfl
  | rightOuter => rfl
  | fullOuter => exact absurd htype plain.1
  | cross => exact absurd htype plain.2

/-! ## Bags of trees -/

@[simp] theorem bag_select (id : NodeId) (payload : SelectNode) (below : PlanTree) :
    reading.bag feeds (.node id (.select payload) [below]) =
      (reading.bag feeds below).filter (reading.holds feeds payload.criteria) := by
  simp [bag, apply]

@[simp] theorem bag_join (id : NodeId) (payload : JoinNode) (left right : PlanTree) :
    reading.bag feeds (.node id (.join payload) [left, right]) =
      reading.join feeds payload (reading.bag feeds left) (reading.bag feeds right) := by
  simp [bag, apply]

theorem bag_node (id : NodeId) (kind : NodeKind) (children : List PlanTree) :
    reading.bag feeds (.node id kind children) =
      reading.apply feeds kind (children.map (reading.bag feeds)) := by
  rw [bag, PlanTree.fold_node]
  rfl

theorem bag_stacked (first : NodeId) (tree : PlanTree) (criteria : List Criteria) :
    reading.bag feeds (tree.stacked first criteria) =
      (reading.bag feeds tree).filter (reading.Passes feeds criteria) := by
  induction criteria generalizing first tree with
  | nil =>
      rw [PlanTree.stacked, Multiset.filter_eq_self.mpr]
      intro row _ criterion hcriterion
      cases hcriterion
  | cons criterion rest ih =>
      rw [PlanTree.stacked, ih, bag_select, Multiset.filter_filter]
      refine Multiset.filter_congr fun row _ => ?_
      simp only [Passes, List.forall_mem_cons, and_comm]

theorem apply_congr {other : Feeds Row} {kind : NodeKind}
    (same : ∀ criterion ∈ kind.criteria, ∀ row,
      reading.holds other criterion row ↔ reading.holds feeds criterion row)
    (inputs : List (Multiset Row)) :
    reading.apply other kind inputs = reading.apply feeds kind inputs := by
  cases kind with
  | select payload =>
      have hfilter : reading.holds other payload.criteria = reading.holds feeds payload.criteria :=
        funext fun row => propext (same payload.criteria (by simp [NodeKind.criteria]) row)
      match inputs with
      | [rows] => simp only [apply, hfilter]
      | [] => rfl
      | _ :: _ :: _ => rfl
  | join payload =>
      have hjoined : reading.Joined other payload.criteria =
          reading.Joined feeds payload.criteria := by
        funext first second
        exact propext (forall₂_congr fun criterion member => same criterion member _)
      match inputs with
      | [left, right] => simp only [apply, join, pairs, unmatched, hjoined]
      | [] => rfl
      | [_] => rfl
      | _ :: _ :: _ :: _ => rfl
  | _ => rfl

end BagReading

/-- The joins list their equalities, and each expression is about its own input. -/
structure BagReading.Compatible {Row : Type u} {Value : Type v} (reading : BagReading Row Value)
    (tree : PlanTree) : Prop where
  equalities : ∀ {id payload left right},
    PlanTree.node id (.join payload) [left, right] ∈ tree.subtrees →
      payload.valueSource = none → ∀ feeds row,
        (∀ criterion ∈ payload.criteria, reading.holds feeds criterion row) →
          ∀ pair ∈ payload.leftExprs.zip payload.rightExprs,
            reading.holds feeds (.eq pair.1 pair.2) row
  leftExprs : ∀ {id payload left right},
    PlanTree.node id (.join payload) [left, right] ∈ tree.subtrees →
      payload.valueSource = none → ∀ feeds, ∀ first ∈ reading.bag feeds left,
        ∀ second ∈ reading.bag feeds right, ∀ expr ∈ payload.leftExprs,
          reading.eval expr (reading.merge first second) = reading.eval expr first
  rightExprs : ∀ {id payload left right},
    PlanTree.node id (.join payload) [left, right] ∈ tree.subtrees →
      payload.valueSource = none → ∀ feeds, ∀ first ∈ reading.bag feeds left,
        ∀ second ∈ reading.bag feeds right, ∀ expr ∈ payload.rightExprs,
          reading.eval expr (reading.merge first second) = reading.eval expr second

namespace BagReading

variable {Row : Type u} {Value : Type v} {reading : BagReading Row Value} {feeds : Feeds Row}

/-! ## Conversions -/

theorem passes_dependentSets {source : String} {dependent independent : List Expr} {row fed : Row}
    (member : fed ∈ feeds source)
    (agree : ∀ pair ∈ dependent.zip independent, ∃ value,
      reading.eval pair.2 fed = some value ∧ reading.eval pair.1 row = some value) :
    reading.Passes feeds (ChooseDependent.dependentSets source dependent independent) row := by
  intro criterion hcriterion
  obtain ⟨pair, hpair, rfl⟩ := List.mem_map.mp hcriterion
  rw [reading.holds_dependentSet]
  exact ⟨fed, member, agree pair hpair⟩

theorem Compatible.agree {tree left right : PlanTree} (compatible : reading.Compatible tree)
    {id : NodeId} {payload : JoinNode}
    (member : PlanTree.node id (.join payload) [left, right] ∈ tree.subtrees)
    (ordinary : payload.valueSource = none) {other : Feeds Row} {first second : Row}
    (hfirst : first ∈ reading.bag feeds left) (hsecond : second ∈ reading.bag feeds right)
    (joined : reading.Joined other payload.criteria first second) :
    ∀ pair ∈ payload.leftExprs.zip payload.rightExprs, ∃ value,
      reading.eval pair.1 first = some value ∧ reading.eval pair.2 second = some value := by
  intro pair hpair
  have holds := compatible.equalities member ordinary other _ joined pair hpair
  obtain ⟨value, hleft, hright⟩ := reading.eval_of_holds_eq holds
  obtain ⟨hleftExpr, hrightExpr⟩ := List.of_mem_zip hpair
  rw [compatible.leftExprs member ordinary feeds first hfirst second hsecond _ hleftExpr] at hleft
  rw [compatible.rightExprs member ordinary feeds first hfirst second hsecond _ hrightExpr]
    at hright
  exact ⟨value, hleft, hright⟩

/-- A conversion keeps the bag of a join whose independent input feeds the new value source. -/
theorem bag_convert {tree left right : PlanTree} (compatible : reading.Compatible tree)
    {id : NodeId} {payload : JoinNode}
    (member : PlanTree.node id (.join payload) [left, right] ∈ tree.subtrees)
    {conversion : Conversion} (allows : payload.allows conversion.side = true)
    (costs : Option (Float × Float)) {other : Feeds Row} {newLeft newRight : PlanTree}
    (hleft : reading.bag other newLeft = reading.bag feeds left)
    (hright : reading.bag other newRight = reading.bag feeds right)
    (fed : ∀ row ∈ reading.bag feeds (conversion.side.opposite.pick left right),
      row ∈ other (ChooseDependent.valueSourceName conversion.number)) :
    reading.bag other (Outcome.apply ⟨costs, some conversion⟩ id payload newLeft newRight) =
      reading.join other payload (reading.bag feeds left) (reading.bag feeds right) := by
  have ordinary := JoinNode.ordinary_of_allows allows
  have htype := JoinNode.joinType_of_allows allows
  have plain := JoinNode.plain_of_allows allows
  have agree : ∀ first ∈ reading.bag feeds left, ∀ second ∈ reading.bag feeds right,
      reading.Joined other payload.criteria first second →
        ∀ pair ∈ payload.leftExprs.zip payload.rightExprs, ∃ value,
          reading.eval pair.1 first = some value ∧ reading.eval pair.2 second = some value :=
    fun _ hfirst _ hsecond joined => compatible.agree member ordinary hfirst hsecond joined
  obtain ⟨side, number, firstFilter⟩ := conversion
  have payload_eq : ((payload.priced costs).fedBy number).joinType = payload.joinType ∧
      ((payload.priced costs).fedBy number).criteria = payload.criteria :=
    ⟨JoinNode.joinType_priced payload costs, JoinNode.criteria_priced payload costs⟩
  cases side with
  | right =>
      have reducible : payload.joinType = .inner ∨ payload.joinType = .leftOuter := by
        rcases htype with h | ⟨h, -⟩ | ⟨-, h⟩
        · exact .inl h
        · exact .inr h
        · cases h
      rw [Outcome.apply_right, bag_join, bag_stacked, hleft, hright,
        join_payload_congr payload_eq.1 payload_eq.2 plain]
      refine join_filter reducible fun first hfirst second hsecond joined => ?_
      refine passes_dependentSets (fed first hfirst) fun pair hpair => ?_
      rw [← List.zip_swap] at hpair
      obtain ⟨original, horiginal, rfl⟩ := List.mem_map.mp hpair
      exact agree first hfirst second hsecond joined original horiginal
  | left =>
      have reducible : payload.mirrored.joinType = .inner ∨
          payload.mirrored.joinType = .leftOuter := by
        rcases htype with h | ⟨-, h⟩ | ⟨h, -⟩
        · exact .inl (by simp [JoinNode.mirrored, h, JoinType.mirrored])
        · cases h
        · exact .inr (by simp [JoinNode.mirrored, h, JoinType.mirrored])
      rw [Outcome.apply_left, bag_join, bag_stacked, hleft, hright,
        ← join_mirrored plain, join_mirrored (payload_eq.1 ▸ plain),
        join_payload_congr payload_eq.1 payload_eq.2 plain, ← join_mirrored plain]
      refine join_filter reducible fun second hsecond first hfirst joined => ?_
      refine passes_dependentSets (fed second hsecond) fun pair hpair => ?_
      obtain ⟨value, hvalue, hvalue'⟩ :=
        agree first hfirst second hsecond (joined_comm.mp joined) pair hpair
      exact ⟨value, hvalue', hvalue⟩

theorem bag_apply {tree left right : PlanTree} (compatible : reading.Compatible tree)
    {id : NodeId} {payload : JoinNode}
    (member : PlanTree.node id (.join payload) [left, right] ∈ tree.subtrees)
    {outcome : Outcome} (plain : payload.joinType ≠ .fullOuter ∧ payload.joinType ≠ .cross)
    (allows : ∀ conversion, outcome.conversion = some conversion →
      payload.allows conversion.side = true)
    {other : Feeds Row} {newLeft newRight : PlanTree}
    (hleft : reading.bag other newLeft = reading.bag feeds left)
    (hright : reading.bag other newRight = reading.bag feeds right)
    (fed : ∀ conversion, outcome.conversion = some conversion →
      ∀ row ∈ reading.bag feeds (conversion.side.opposite.pick left right),
        row ∈ other (ChooseDependent.valueSourceName conversion.number)) :
    reading.bag other (outcome.apply id payload newLeft newRight) =
      reading.join other payload (reading.bag feeds left) (reading.bag feeds right) := by
  obtain ⟨costs, conversion⟩ := outcome
  cases conversion with
  | none =>
      rw [Outcome.apply_unconverted, bag_join, hleft, hright,
        join_payload_congr (payload.joinType_priced _) (payload.criteria_priced _) plain]
  | some conversion =>
      exact bag_convert compatible member (allows conversion rfl) costs hleft hright
        (fed conversion rfl)

/-- Rebuilding keeps the bag of every node, if each new value source is fed enough. -/
theorem bag_rebuild {tree : PlanTree} {outcomes : NodeId → Outcome} {firstNumber last : Nat}
    (nodup : tree.ids.Nodup) (shaped : tree.WellShaped)
    (sound : tree.Sound outcomes firstNumber last) (compatible : reading.Compatible tree)
    {other : Feeds Row} (same : ∀ source ∈ tree.readSources, other source = feeds source)
    (fed : ∀ {id payload left right conversion},
      PlanTree.node id (.join payload) [left, right] ∈ tree.subtrees →
        (outcomes id).conversion = some conversion →
          reading.bag other ((conversion.side.opposite.pick left right).rebuild outcomes) =
              reading.bag feeds (conversion.side.opposite.pick left right) →
            ∀ row ∈ reading.bag feeds (conversion.side.opposite.pick left right),
              row ∈ other (ChooseDependent.valueSourceName conversion.number)) :
    ∀ sub ∈ tree.subtrees, reading.bag other (sub.rebuild outcomes) = reading.bag feeds sub := by
  intro sub member
  induction sub with
  | node id kind children ih =>
      have below : ∀ child ∈ children,
          reading.bag other (child.rebuild outcomes) = reading.bag feeds child :=
        fun child hchild => ih child hchild (PlanTree.child_mem_subtrees member hchild)
      have criteria : ∀ criterion ∈ kind.criteria, ∀ row,
          reading.holds other criterion row ↔ reading.holds feeds criterion row := by
        intro criterion hcriterion
        refine reading.holds_congr fun source hsource => same source ?_
        exact List.mem_flatMap.mpr
          ⟨_, member, List.mem_flatMap.mpr ⟨criterion, hcriterion, hsource⟩⟩
      have unchanged : reading.bag other (.node id kind (children.map (·.rebuild outcomes))) =
          reading.bag feeds (.node id kind children) := by
        rw [bag_node, bag_node, apply_congr criteria, List.map_map]
        congr 1
        exact List.map_congr_left below
      cases hjoin : kind.join? with
      | none =>
          rw [PlanTree.rebuild_of_not_join hjoin]
          exact unchanged
      | some payload =>
          obtain ⟨_, payload, left, right, hnode, -⟩ := (shaped.of_mem member).exists_inputs
            (Option.isSome_iff_exists.mpr ⟨payload, hjoin⟩)
          cases hnode
          have hleft := below left (by simp)
          have hright := below right (by simp)
          rw [PlanTree.rebuild_join]
          by_cases hsettled : outcomes id = .none
          · rw [hsettled, Outcome.apply_none]
            exact unchanged
          · obtain ⟨side, hallows⟩ := sound.exists_allows nodup shaped member hsettled
            have same_feeds : reading.join other payload (reading.bag feeds left)
                (reading.bag feeds right) =
                reading.join feeds payload (reading.bag feeds left) (reading.bag feeds right) :=
              apply_congr criteria [reading.bag feeds left, reading.bag feeds right]
            rw [bag_join, ← same_feeds]
            refine bag_apply compatible member (JoinNode.plain_of_allows hallows) ?_ hleft hright ?_
            · intro conversion hconversion
              exact JoinNode.allows_of_admits (sound.admitted member hconversion)
            · intro conversion hconversion
              refine fed member hconversion ?_
              cases conversion.side with
              | left => exact hright
              | right => exact hleft

end BagReading

/-! ## What a plan denotes -/

def IsNewSource (firstNumber last : Nat) (source : String) : Prop :=
  ∃ number, firstNumber ≤ number ∧ number < last ∧
    ChooseDependent.valueSourceName number = source

/-- No value source that a run makes is mentioned in the tree: one counter numbers the
value sources of all runs. -/
def PlanTree.Avoids (tree : PlanTree) (firstNumber last : Nat) : Prop :=
  ∀ source, IsNewSource firstNumber last source →
    source ∉ tree.readSources ∧ source ∉ tree.fedSources

def PlanTree.FeedsNew (tree : PlanTree) (outcomes : NodeId → Outcome) (source : String)
    (independent : PlanTree) : Prop :=
  ∃ id payload left right conversion,
    PlanTree.node id (.join payload) [left, right] ∈ tree.subtrees ∧
      (outcomes id).conversion = some conversion ∧
      ChooseDependent.valueSourceName conversion.number = source ∧
      conversion.side.opposite.pick left right = independent

theorem PlanTree.Feeds.mem_subtrees {tree independent : PlanTree} {source : String}
    (h : tree.Feeds source independent) : independent ∈ tree.subtrees := by
  obtain ⟨id, payload, right, member, -⟩ := h
  exact PlanTree.child_mem_subtrees member List.mem_cons_self

theorem PlanTree.FeedsNew.mem_subtrees {tree old : PlanTree} {outcomes : NodeId → Outcome}
    {source : String} (h : tree.FeedsNew outcomes source old) : old ∈ tree.subtrees := by
  obtain ⟨id, payload, left, right, conversion, member, -, -, rfl⟩ := h
  apply PlanTree.child_mem_subtrees member
  cases conversion.side <;> simp [Side.opposite, Side.pick]

theorem PlanTree.exists_of_feeds_rebuild {tree independent : PlanTree}
    {outcomes : NodeId → Outcome} (shaped : tree.WellShaped) {source : String}
    (feeds : (tree.rebuild outcomes).Feeds source independent) :
    ∃ old, independent = old.rebuild outcomes ∧
      (tree.Feeds source old ∨ tree.FeedsNew outcomes source old) := by
  obtain ⟨id, payload, last, member, hsource⟩ := feeds
  obtain ⟨sub, hsub, hrebuilt⟩ := exists_of_mem_rebuild member rfl
  have hkind : ∃ join, sub.kind = .join join := by
    rcases sub.kind_rebuild outcomes with same | ⟨join, -, h, -⟩
    · exact ⟨payload, by rw [← same, ← hrebuilt]; rfl⟩
    · exact ⟨join, h⟩
  obtain ⟨id, join, left, right, rfl, -⟩ :=
    (shaped.of_mem hsub).exists_inputs (isJoin_of_kind_eq hkind.choose_spec)
  obtain ⟨⟨costs, conversion⟩, houtcome⟩ : ∃ outcome, outcomes id = outcome := ⟨_, rfl⟩
  rw [rebuild_join, houtcome] at hrebuilt
  cases conversion with
  | none =>
      cases hrebuilt
      rw [JoinNode.valueSource_priced] at hsource
      exact ⟨left, rfl, .inl ⟨id, join, right, hsub, hsource⟩⟩
  | some conversion =>
      obtain ⟨payload', last', happly, hname⟩ := conversion.exists_apply_eq costs id join
        (left.rebuild outcomes) (right.rebuild outcomes)
      rw [happly] at hrebuilt
      cases hrebuilt
      have hsame := Option.some.inj (hname.symm.trans hsource)
      refine ⟨conversion.side.opposite.pick left right, ?_,
        .inr ⟨id, join, left, right, conversion, hsub, by rw [houtcome], hsame, rfl⟩⟩
      cases conversion.side <;> rfl

theorem PlanTree.Feeds.rebuild {tree old : PlanTree} {outcomes : NodeId → Outcome}
    {firstNumber last : Nat} {source : String} (feeds : tree.Feeds source old)
    (nodup : tree.ids.Nodup) (shaped : tree.WellShaped)
    (sound : tree.Sound outcomes firstNumber last) :
    (tree.rebuild outcomes).Feeds source (old.rebuild outcomes) := by
  obtain ⟨id, payload, right, member, hsource⟩ := feeds
  -- A join that feeds a value source was no candidate, so nothing has become of it.
  have unsettled : outcomes id = .none := by
    by_contra settled
    obtain ⟨side, hallows⟩ := sound.exists_allows nodup shaped member settled
    rw [JoinNode.ordinary_of_allows hallows] at hsource
    cases hsource
  have hmember : _ ∈ (tree.rebuild outcomes).subtrees := rebuild_mem_subtrees member
  rw [rebuild_join, unsettled, Outcome.apply_none] at hmember
  exact ⟨id, payload, _, hmember, hsource⟩

theorem PlanTree.FeedsNew.rebuild {tree old : PlanTree} {outcomes : NodeId → Outcome}
    {source : String} (feeds : tree.FeedsNew outcomes source old) :
    (tree.rebuild outcomes).Feeds source (old.rebuild outcomes) := by
  obtain ⟨id, payload, left, right, conversion, member, hconversion, hsource, rfl⟩ := feeds
  have hmember : _ ∈ (tree.rebuild outcomes).subtrees := rebuild_mem_subtrees member
  have houtcome : outcomes id = ⟨(outcomes id).costs, some conversion⟩ := by rw [← hconversion]
  obtain ⟨payload', last', happly, hname⟩ := conversion.exists_apply_eq (outcomes id).costs id
    payload (left.rebuild outcomes) (right.rebuild outcomes)
  rw [rebuild_join, houtcome, happly] at hmember
  refine ⟨id, payload', last', ?_, by rw [hname, hsource]⟩
  cases hside : conversion.side <;> rw [hside] at hmember <;> exact hmember

namespace BagReading

variable {Row : Type u} {Value : Type v} {reading : BagReading Row Value} {tree : PlanTree}
  {outcomes : NodeId → Outcome} {firstNumber last : Nat}

/-- A tree comes to this bag, with its value sources fed by its own joins. -/
def Denotes (reading : BagReading Row Value) (tree : PlanTree) (rows : Multiset Row) : Prop :=
  ∃ feeds, reading.Fed feeds tree ∧ reading.bag feeds tree = rows

theorem denotes_iff_of_fedSources_eq_nil {rows : Multiset Row} (h : tree.fedSources = []) :
    reading.Denotes tree rows ↔ reading.bag (fun _ => ∅) tree = rows := by
  have nothing (source : String) (independent : PlanTree) : ¬ tree.Feeds source independent := by
    intro hfeeds
    have := hfeeds.mem_fedSources
    rw [h] at this
    exact List.not_mem_nil this
  constructor
  · rintro ⟨feeds, hfed, rfl⟩
    have hfeeds : feeds = fun _ => ∅ := by
      funext source
      refine Set.eq_empty_iff_forall_notMem.mpr fun row hrow => ?_
      obtain ⟨independent, hindependent, -⟩ := (hfed source row).mp hrow
      exact nothing source independent hindependent
    rw [hfeeds]
  · rintro rfl
    refine ⟨_, fun source row => ⟨fun hrow => absurd hrow (Set.notMem_empty row), ?_⟩, rfl⟩
    rintro ⟨independent, hindependent, -⟩
    exact absurd hindependent (nothing source independent)

def feedNew (reading : BagReading Row Value) (tree : PlanTree) (outcomes : NodeId → Outcome)
    (firstNumber last : Nat) (feeds : Feeds Row) : Feeds Row := fun source =>
  { row | (∃ old, tree.FeedsNew outcomes source old ∧ row ∈ reading.bag feeds old) ∨
      ¬ IsNewSource firstNumber last source ∧ row ∈ feeds source }

theorem isNewSource_of_feedsNew (sound : tree.Sound outcomes firstNumber last) {source : String}
    {old : PlanTree} (h : tree.FeedsNew outcomes source old) :
    IsNewSource firstNumber last source := by
  obtain ⟨id, payload, left, right, conversion, -, hconversion, hsource, -⟩ := h
  obtain ⟨hfirst, hlast⟩ := sound.numbered hconversion
  exact ⟨conversion.number, hfirst, hlast, hsource⟩

theorem mem_fed_rebuild_iff {feeds other : Feeds Row} (nodup : tree.ids.Nodup)
    (shaped : tree.WellShaped) (sound : tree.Sound outcomes firstNumber last)
    (kept : ∀ sub ∈ tree.subtrees,
      reading.bag other (sub.rebuild outcomes) = reading.bag feeds sub)
    (source : String) (row : Row) :
    (∃ independent, (tree.rebuild outcomes).Feeds source independent ∧
        row ∈ reading.bag other independent) ↔
      ∃ old, (tree.Feeds source old ∨ tree.FeedsNew outcomes source old) ∧
        row ∈ reading.bag feeds old := by
  constructor
  · rintro ⟨independent, hfeeds, hrow⟩
    obtain ⟨old, rfl, hold⟩ := PlanTree.exists_of_feeds_rebuild shaped hfeeds
    have member : old ∈ tree.subtrees := hold.elim (·.mem_subtrees) (·.mem_subtrees)
    exact ⟨old, hold, kept old member ▸ hrow⟩
  · rintro ⟨old, hold, hrow⟩
    have member : old ∈ tree.subtrees := hold.elim (·.mem_subtrees) (·.mem_subtrees)
    exact ⟨old.rebuild outcomes, hold.elim (·.rebuild nodup shaped sound) (·.rebuild),
      (kept old member).symm ▸ hrow⟩

theorem denotes_rebuild (nodup : tree.ids.Nodup) (shaped : tree.WellShaped)
    (sound : tree.Sound outcomes firstNumber last) (compatible : reading.Compatible tree)
    (avoids : tree.Avoids firstNumber last) {rows : Multiset Row}
    (denotes : reading.Denotes tree rows) : reading.Denotes (tree.rebuild outcomes) rows := by
  obtain ⟨feeds, hfed, rfl⟩ := denotes
  have same : ∀ source ∈ tree.readSources,
      reading.feedNew tree outcomes firstNumber last feeds source = feeds source := by
    intro source hsource
    have notNew : ¬ IsNewSource firstNumber last source := fun h => (avoids source h).1 hsource
    ext row
    constructor
    · rintro (⟨old, hold, -⟩ | ⟨-, hrow⟩)
      · exact absurd (isNewSource_of_feedsNew sound hold) notNew
      · exact hrow
    · intro hrow
      exact .inr ⟨notNew, hrow⟩
  have kept := bag_rebuild nodup shaped sound compatible same
    fun member hconversion _ row hrow =>
      .inl ⟨_, ⟨_, _, _, _, _, member, hconversion, rfl, rfl⟩, hrow⟩
  refine ⟨_, fun source row => ?_, kept tree tree.self_mem_subtrees⟩
  rw [mem_fed_rebuild_iff nodup shaped sound kept]
  constructor
  · rintro (⟨old, hold, hrow⟩ | ⟨-, hrow⟩)
    · exact ⟨old, .inr hold, hrow⟩
    · obtain ⟨old, hold, hrow⟩ := (hfed source row).mp hrow
      exact ⟨old, .inl hold, hrow⟩
  · rintro ⟨old, hold | hold, hrow⟩
    · refine .inr ⟨fun h => (avoids source h).2 hold.mem_fedSources, ?_⟩
      exact (hfed source row).mpr ⟨old, hold, hrow⟩
    · exact .inl ⟨old, hold, hrow⟩

theorem denotes_of_rebuild (nodup : tree.ids.Nodup) (shaped : tree.WellShaped)
    (sound : tree.Sound outcomes firstNumber last) (compatible : reading.Compatible tree)
    (avoids : tree.Avoids firstNumber last) {rows : Multiset Row}
    (denotes : reading.Denotes (tree.rebuild outcomes) rows) : reading.Denotes tree rows := by
  obtain ⟨other, hfed, rfl⟩ := denotes
  -- The value sources of the tree are fed as before, the new ones with nothing.
  let feeds : Feeds Row := fun source =>
    { row | ¬ IsNewSource firstNumber last source ∧ row ∈ other source }
  have same : ∀ source ∈ tree.readSources, other source = feeds source := by
    intro source hsource
    have notNew : ¬ IsNewSource firstNumber last source := fun h => (avoids source h).1 hsource
    ext row
    exact (and_iff_right notNew).symm
  have kept := bag_rebuild nodup shaped sound compatible same (by
    intro id payload left right conversion member hconversion hbag row hrow
    refine (hfed _ row).mpr ⟨_, ?_, hbag.symm ▸ hrow⟩
    exact PlanTree.FeedsNew.rebuild ⟨_, _, _, _, _, member, hconversion, rfl, rfl⟩)
  refine ⟨feeds, fun source row => ?_, (kept tree tree.self_mem_subtrees).symm⟩
  have fed := (hfed source row).trans (mem_fed_rebuild_iff nodup shaped sound kept source row)
  constructor
  · rintro ⟨notNew, hrow⟩
    obtain ⟨old, hold | hold, hbag⟩ := fed.mp hrow
    · exact ⟨old, hold, hbag⟩
    · exact absurd (isNewSource_of_feedsNew sound hold) notNew
  · rintro ⟨old, hold, hbag⟩
    refine ⟨fun h => (avoids source h).2 hold.mem_fedSources, ?_⟩
    exact fed.mpr ⟨old, .inl hold, hbag⟩

end BagReading

/-- Making joins dependent keeps the bag that a plan denotes. -/
theorem ChooseDependent.execute_keeps_bag {Row : Type u} {Value : Type v}
    (reading : BagReading Row Value) {context : PlanningContext} {start final : Session}
    (accepted : start.plan.Accepted) (compatible : reading.Compatible start.plan.tree)
    (avoids : start.plan.tree.Avoids start.nextValueSource final.nextValueSource)
    {changed : Bool} (h : execute context start = .ok changed final) (rows : Multiset Row) :
    reading.Denotes final.plan.tree rows ↔ reading.Denotes start.plan.tree rows := by
  obtain ⟨holds, shaped⟩ := accepted.holds
  obtain ⟨outcomes, hfinal, sound, -⟩ := execute_rebuilds holds shaped h
  rw [hfinal.tree_eq]
  constructor
  · exact BagReading.denotes_of_rebuild holds.nodup shaped sound compatible avoids
  · exact BagReading.denotes_rebuild holds.nodup shaped sound compatible avoids

namespace BagReading

abbrev IdRow := ElementSymbol → Option Nat

def IdRow.only (group : GroupSymbol) (id : Nat) : IdRow := fun element =>
  if element.group = group then some id else none

def IdRow.eval : Expr → IdRow → Option Nat
  | .column element, row => row element
  | _, _ => none

def IdRow.ids (group : GroupSymbol) : Multiset Nat :=
  if group = .named "pm1.g1" then {1, 2} else {2, 3}

def readIds : BagReading IdRow Nat where
  eval := IdRow.eval
  merge first second element := Option.merge max (first element) (second element)
  merge_comm _ _ := funext fun _ => Std.Commutative.comm _ _
  holds feeds criteria row :=
    match criteria with
    | .compare left .eq right =>
        ∃ value, IdRow.eval left row = some value ∧ IdRow.eval right row = some value
    | .dependentSet expr source valueExpr => ∃ fed ∈ feeds source, ∃ value,
        IdRow.eval valueExpr fed = some value ∧ IdRow.eval expr row = some value
    | _ => False
  holds_congr := by
    intro feeds other criteria same row
    cases criteria with
    | dependentSet expr source valueExpr =>
        simp only [same source (by simp [Criteria.valueSources])]
    | compare left op right => cases op <;> rfl
    | _ => rfl
  holds_dependentSet _ _ _ _ _ := Iff.rfl
  eval_of_holds_eq h := h
  other
    | .access payload, _ => (IdRow.ids payload.group).map (IdRow.only payload.group)
    | _, _ => 0

def idOf (group : String) : Expr := .column ⟨.named group, "id", .int64⟩

def joinedOnIds : Plan :=
  let join : JoinNode := ⟨.inner, .nestedLoop, [.eq (idOf "pm1.g1") (idOf "pm2.g2")],
    [idOf "pm1.g1"], [idOf "pm2.g2"], none, none, none⟩
  ⟨[⟨.join join, none, [1, 2]⟩, ⟨.access { group := .named "pm1.g1" }, some 0, []⟩,
    ⟨.access { group := .named "pm2.g2", makeDependent := true }, some 0, []⟩], 0⟩

theorem exists_of_mem_bag_access {feeds : Feeds IdRow} {id : NodeId} {payload : AccessNode}
    {row : IdRow} (member : row ∈ readIds.bag feeds (.node id (.access payload) [])) :
    ∃ number, IdRow.only payload.group number = row := by
  rw [bag_node] at member
  obtain ⟨number, -, hrow⟩ := Multiset.mem_map.mp member
  exact ⟨number, hrow⟩

theorem compatible_joinedOnIds : readIds.Compatible joinedOnIds.tree := by
  have only {id : NodeId} {payload : JoinNode} {left right : PlanTree}
      (member : PlanTree.node id (.join payload) [left, right] ∈ joinedOnIds.tree.subtrees) :
      PlanTree.node id (.join payload) [left, right] = joinedOnIds.tree := by
    rcases List.mem_cons.mp member with h | h
    · exact h
    · rcases List.mem_cons.mp h with h | h
      · cases h
      · cases List.mem_singleton.mp h
  constructor
  · intro id payload left right member _ feeds row holds pair hpair
    cases only member
    cases List.mem_singleton.mp hpair
    exact holds _ List.mem_cons_self
  · intro id payload left right member _ feeds first hfirst second hsecond expr hexpr
    cases only member
    cases List.mem_singleton.mp hexpr
    obtain ⟨number, rfl⟩ := exists_of_mem_bag_access hfirst
    obtain ⟨other, rfl⟩ := exists_of_mem_bag_access hsecond
    rfl
  · intro id payload left right member _ feeds first hfirst second hsecond expr hexpr
    cases only member
    cases List.mem_singleton.mp hexpr
    obtain ⟨number, rfl⟩ := exists_of_mem_bag_access hfirst
    obtain ⟨other, rfl⟩ := exists_of_mem_bag_access hsecond
    rfl

theorem joinedOnIds_keeps_bag :
    ∃ final, ChooseDependent.execute .permissive (.start joinedOnIds .empty 0) =
        .ok true final ∧
      readIds.Denotes final.plan.tree (readIds.bag (fun _ => ∅) joinedOnIds.tree) := by
  obtain ⟨_, final, h, rfl⟩ := Planning.exists_of_succeeds (show Planning.succeeds
    (ChooseDependent.execute .permissive) (.start joinedOnIds .empty 0)
    (fun changed _ => changed) = true by decide +kernel)
  refine ⟨final, h, (ChooseDependent.execute_keeps_bag readIds ?_ ?_ ?_ h _).mpr ?_⟩
  · exact .of_links (by decide) (by decide) (by decide)
  · exact compatible_joinedOnIds
  · intro source _
    exact ⟨List.not_mem_nil, List.not_mem_nil⟩
  · exact (denotes_iff_of_fedSources_eq_nil rfl).mpr rfl

end BagReading

end FederatedQuery
