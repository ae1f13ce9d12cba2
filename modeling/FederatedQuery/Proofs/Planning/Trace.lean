import FederatedQuery.Proofs.Planning.Executions
import FederatedQuery.Proofs.Planning.ValueSources
import Mathlib.Data.List.Chain

/-!
# Traces without gaps

The drawing of a plan does not show recorded costs.  So an execution that is left out
of the trace has not changed the drawing, and each entry goes on from the drawing at
which the one before it ended.
-/

namespace FederatedQuery

theorem NodeKind.details?_unpriced (kind : NodeKind) : kind.unpriced.details? = kind.details? := by
  cases kind <;> rfl

theorem NodeKind.nodeType_unpriced (kind : NodeKind) : kind.unpriced.nodeType = kind.nodeType := by
  cases kind <;> rfl

namespace Plan

theorem diagramWithin_unpriced (plan : Plan) (depth : Nat) (id : NodeId) :
    plan.unpriced.diagramWithin depth id = plan.diagramWithin depth id := by
  induction depth generalizing id with
  | zero => rfl
  | succ depth ih =>
      rw [diagramWithin, diagramWithin, node?_unpriced]
      cases plan.node? id with
      | none => rfl
      | some node =>
          have below : node.children.map (plan.unpriced.diagramWithin depth) =
              node.children.map (plan.diagramWithin depth) :=
            List.map_congr_left fun child _ => ih child
          simp only [Option.map_some, PlanNode.unpriced, NodeKind.details?_unpriced,
            NodeKind.nodeType_unpriced, below]

theorem explain_of_unpriced_eq {plan other : Plan} (same : other.unpriced = plan.unpriced) :
    other.explain = plan.explain := by
  have drawn (plan : Plan) : plan.unpriced.diagram = plan.diagram := by
    rw [diagram, diagramWithin_unpriced, diagram, unpriced, size, size, List.length_map]
  rw [explain, ← drawn other, same, drawn plan, explain]

end Plan

/-- The entries lead from one drawing to another, each going on where the one before ended. -/
structure TraceEntry.Gapless (first : String) (trace : List TraceEntry) (last : String) : Prop where
  empty : trace = [] → last = first
  starts : ∀ entry, trace.head? = some entry → entry.before = first
  links : trace.IsChain fun entry next => entry.after = next.before
  ends : ∀ entry, trace.getLast? = some entry → entry.after = last

namespace TraceEntry.Gapless

theorem nil (drawing : String) : Gapless drawing [] drawing :=
  ⟨fun _ => rfl, nofun, .nil, nofun⟩

theorem cons {entry : TraceEntry} {trace : List TraceEntry} {last : String}
    (rest : Gapless entry.after trace last) : Gapless entry.before (entry :: trace) last := by
  refine ⟨nofun, ?_, ?_, ?_⟩
  · rintro _ ⟨⟩
    rfl
  · cases trace with
    | nil => exact .singleton entry
    | cons next trace => exact rest.links.cons_cons (rest.starts next rfl).symm
  · cases trace with
    | nil =>
        rintro _ ⟨⟩
        exact (rest.empty rfl).symm
    | cons next trace =>
        rw [List.getLast?_cons_cons]
        exact rest.ends

end TraceEntry.Gapless

namespace Optimizer

theorem Performs.gapless {config : Config} {context : PlanningContext} {start final : Session}
    {executions : List Execution}
    (performs : (standard config).Performs context start executions final)
    (accepted : start.plan.Accepted) :
    TraceEntry.Gapless start.plan.explain
      ((executions.filter Execution.changed).map TraceEntry.ofExecution) final.plan.explain := by
  induction performs with
  | nothing session => exact .nil _
  | @first start middle final execution executions executes _ ih =>
      obtain ⟨rest, -, does⟩ := executes.does accepted
      have following := ih does.accepted
      have before : execution.before = start.plan := does.before
      cases changed : execution.changed with
      | false =>
          have same : middle.plan.unpriced = start.plan.unpriced := does.reports.mp changed
          rw [List.filter_cons_of_neg (by simp [changed]), ← Plan.explain_of_unpriced_eq same]
          exact following
      | true =>
          rw [List.filter_cons_of_pos changed, List.map_cons, ← before]
          rw [← does.after] at following
          exact (show TraceEntry.Gapless (TraceEntry.ofExecution execution).after _ _ from
            following).cons

/-- With tracing on, the trace of a run leads from the given plan to the returned one. -/
theorem run_trace_gapless {config : Config} (traced : config.optimizer.enableTrace = true)
    {federation : Federation} {oracle : CostOracle} {plan : Plan} (accepted : plan.Accepted)
    {stack : RuleStack} {number : Nat} {result : OptimizedPlan} {final : Session}
    (h : (standard config).run federation oracle (.start plan stack number) = .ok result final) :
    TraceEntry.Gapless plan.explain result.trace result.plan.explain := by
  obtain ⟨hrun, rfl⟩ := run_eq_ok h
  have accepted : ((Session.start plan stack number).opened
      config.optimizer.recordDebug).plan.Accepted := accepted
  obtain ⟨executions, last, report, performs, rfl, -⟩ := runWithin_performs accepted hrun
  have trace : last.trace = (executions.filter Execution.changed).map TraceEntry.ofExecution := by
    rw [performs.traced accepted, Execution.flatMap_entries, if_pos traced]
    rfl
  have gapless := performs.gapless accepted
  rw [← trace] at gapless
  exact gapless

theorem doubledPair_gapless :
    ∃ result final, (standard { optimizer := { enableTrace := true } }).run
        PlanningContext.permissive.federation PlanningContext.permissive.oracle
          (.start Session.doubledPair ordinaryRules 0) = .ok result final ∧
      result.trace.length = 3 ∧
      TraceEntry.Gapless Session.doubledPair.explain result.trace result.plan.explain := by
  obtain ⟨result, final, h, hlength⟩ := Planning.exists_of_succeeds (show Planning.succeeds
    ((standard { optimizer := { enableTrace := true } }).run
      PlanningContext.permissive.federation PlanningContext.permissive.oracle)
    (.start Session.doubledPair ordinaryRules 0)
    (fun result _ => result.trace.length == 3) = true by decide +kernel)
  refine ⟨result, final, h, beq_iff_eq.mp hlength, run_trace_gapless rfl ?_ h⟩
  exact .of_links (by decide) (by decide) (by decide)

end Optimizer

end FederatedQuery
