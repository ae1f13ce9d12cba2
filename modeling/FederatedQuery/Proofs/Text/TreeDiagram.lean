import FederatedQuery.Text.TreeDiagram
import Mathlib.Data.List.Basic
import Mathlib.Data.List.Forall2

/-!
# Reading a drawing back

Behind the lead that the branches of a node share, the first line of a branch goes on with a
connector and all others go on with a rail.  That tells where each branch ends, and since the
connectors also tell which branch is the last one, the lines give the tree.  The characters
of the labels do not matter for this, except that a label must not end the line and that the
name of a node ends at the first space.
-/

namespace FederatedQuery.Text

theorem append_cons_injective {α : Type} {mark : α} {before before' after after' : List α}
    (hbefore : mark ∉ before) (hbefore' : mark ∉ before')
    (same : before ++ mark :: after = before' ++ mark :: after') :
    before = before' ∧ after = after' := by
  induction before generalizing before' with
  | nil =>
      cases before' with
      | nil => exact ⟨rfl, (List.cons.inj same).2⟩
      | cons other others => exact absurd ((List.cons.inj same).1 ▸ List.mem_cons_self) hbefore'
  | cons first rest ih =>
      cases before' with
      | nil => exact absurd ((List.cons.inj same).1 ▸ List.mem_cons_self) hbefore
      | cons other others =>
          obtain ⟨rfl, tails⟩ := List.cons.inj same
          obtain ⟨rfl, later⟩ := ih (List.not_mem_of_not_mem_cons hbefore)
            (List.not_mem_of_not_mem_cons hbefore') tails
          exact ⟨rfl, later⟩

theorem join_lines_injective {first second : List String}
    (hfirst : ∀ line ∈ first, '\n' ∉ line.toList) (hsecond : ∀ line ∈ second, '\n' ∉ line.toList)
    (same : String.join (first.map (· ++ "\n")) = String.join (second.map (· ++ "\n"))) :
    first = second := by
  have chars (lines : List String) : (String.join (lines.map (· ++ "\n"))).toList =
      lines.flatMap fun line => line.toList ++ ['\n'] := by
    simp [String.toList_join, List.flatMap_map]
  replace same := congrArg String.toList same
  rw [chars, chars] at same
  induction first generalizing second with
  | nil =>
      cases second with
      | nil => rfl
      | cons line rest => simp at same
  | cons line rest ih =>
      cases second with
      | nil => simp at same
      | cons other others =>
          obtain ⟨hline, hrest⟩ := List.forall_mem_cons.mp hfirst
          obtain ⟨hother, hothers⟩ := List.forall_mem_cons.mp hsecond
          simp only [List.flatMap_cons, List.append_assoc, List.singleton_append] at same
          obtain ⟨equal, later⟩ := append_cons_injective hline hother same
          rw [String.toList_inj.mp equal, ih hrest hothers later]

namespace TreeDiagram

@[elab_as_elim]
theorem induction {motive : TreeDiagram → Prop}
    (node : ∀ name details children, (∀ child ∈ children, motive child) →
      motive (.node name details children))
    (tree : TreeDiagram) : motive tree :=
  TreeDiagram.rec (motive_1 := motive) (motive_2 := fun trees => ∀ tree ∈ trees, motive tree)
    node (by simp) (fun _ _ head tail => List.forall_mem_cons.mpr ⟨head, tail⟩) tree

def children : TreeDiagram → List TreeDiagram
  | .node _ _ children => children

/-! ## Labels -/

theorem toList_label_some (name details : String) :
    (label name (some details)).toList =
      name.toList ++ ' ' :: ('(' :: details.toList ++ [')']) := by
  simp [label]

theorem label_injective {name name' : String} {details details' : Option String}
    (hname : ' ' ∉ name.toList) (hname' : ' ' ∉ name'.toList)
    (same : label name details = label name' details') : name = name' ∧ details = details' := by
  have chars := congrArg String.toList same
  cases details with
  | none =>
      cases details' with
      | none => exact ⟨same, rfl⟩
      | some details' =>
          rw [toList_label_some] at chars
          exact absurd (chars ▸ by simp : ' ' ∈ (label name none).toList) hname
  | some details =>
      cases details' with
      | none =>
          rw [toList_label_some] at chars
          exact absurd (chars ▸ by simp : ' ' ∈ (label name' none).toList) hname'
      | some details' =>
          rw [toList_label_some, toList_label_some] at chars
          obtain ⟨names, rest⟩ := append_cons_injective hname hname' chars
          simp only [List.cons_append, List.cons.injEq, List.append_cancel_right_eq] at rest
          exact ⟨String.toList_inj.mp names, congrArg some (String.toList_inj.mp rest.2)⟩

mutual

def labels : TreeDiagram → List (String × Option String)
  | .node name details children => (name, details) :: labelsOfAll children

def labelsOfAll : List TreeDiagram → List (String × Option String)
  | [] => []
  | tree :: rest => labels tree ++ labelsOfAll rest

end

theorem labelsOfAll_eq_flatMap (trees : List TreeDiagram) :
    labelsOfAll trees = trees.flatMap labels := by
  induction trees with
  | nil => rfl
  | cons tree rest ih => rw [labelsOfAll, ih, List.flatMap_cons]

@[simp] theorem labels_node (name : String) (details : Option String)
    (children : List TreeDiagram) :
    (TreeDiagram.node name details children).labels =
      (name, details) :: children.flatMap labels := by
  rw [labels, labelsOfAll_eq_flatMap]

def Named (tree : TreeDiagram) : Prop := ∀ label ∈ tree.labels, ' ' ∉ label.1.toList

theorem named_node {name : String} {details : Option String} {children : List TreeDiagram} :
    (TreeDiagram.node name details children).Named ↔
      ' ' ∉ name.toList ∧ ∀ child ∈ children, child.Named := by
  simp only [Named, labels_node, List.forall_mem_cons, List.forall_mem_flatMap]

/-! ## Lines -/

def isBelow (lead line : String) : Bool :=
  (line.toList[lead.toList.length]?).any fun char => char == ' ' || char == '│'

theorem isBelow_rail (lead rest : String) (isLast : Bool) :
    isBelow lead (lead ++ rail isLast ++ rest) = true := by
  cases isLast <;> simp only [isBelow, String.toList_append, List.append_assoc] <;>
    rw [List.getElem?_append_right (Nat.le_refl _), Nat.sub_self] <;> rfl

theorem isBelow_connector (lead rest : String) (isLast : Bool) :
    isBelow lead (lead ++ connector isLast ++ rest) = false := by
  cases isLast <;> simp only [isBelow, String.toList_append, List.append_assoc] <;>
    rw [List.getElem?_append_right (Nat.le_refl _), Nat.sub_self] <;> rfl

theorem exists_of_mem_forestLines {lead line : String} {trees : List TreeDiagram}
    (member : line ∈ forestLines lead trees) :
    ∃ tree ∈ trees, ∃ isLast, line ∈ branchLines lead isLast tree := by
  induction trees with
  | nil => simp [forestLines] at member
  | cons tree rest ih =>
      rw [forestLines, List.mem_append] at member
      rcases member with member | member
      · exact ⟨tree, by simp, _, member⟩
      · obtain ⟨other, hother, found⟩ := ih member
        exact ⟨other, by simp [hother], found⟩

/-- Every line of a branch starts with its lead. -/
theorem exists_eq_append (tree : TreeDiagram) {lead line : String} {isLast : Bool}
    (member : line ∈ branchLines lead isLast tree) : ∃ rest, line = lead ++ rest := by
  induction tree using induction generalizing lead isLast with
  | node name details children ih =>
      rw [branchLines, List.mem_cons] at member
      rcases member with rfl | member
      · exact ⟨_, String.append_assoc ..⟩
      · obtain ⟨child, hchild, last, member⟩ := exists_of_mem_forestLines member
        obtain ⟨rest, rfl⟩ := ih child hchild member
        exact ⟨rail isLast ++ rest, String.append_assoc ..⟩

theorem isBelow_of_mem {lead line : String} {isLast : Bool} {children : List TreeDiagram}
    (member : line ∈ forestLines (lead ++ rail isLast) children) : isBelow lead line = true := by
  obtain ⟨child, -, last, member⟩ := exists_of_mem_forestLines member
  obtain ⟨rest, rfl⟩ := child.exists_eq_append member
  exact isBelow_rail lead rest isLast

theorem isBelow_head {lead line : String} {trees : List TreeDiagram}
    (first : (forestLines lead trees).head? = some line) : isBelow lead line = false := by
  cases trees with
  | nil => cases first
  | cons tree rest =>
      obtain ⟨name, details, children⟩ := tree
      rw [forestLines, branchLines, List.cons_append, List.head?_cons] at first
      obtain rfl := Option.some.inj first
      exact isBelow_connector lead _ _

theorem append_lines_injective {lead : String} {inner inner' outer outer' : List String}
    (hinner : ∀ line ∈ inner, isBelow lead line = true)
    (hinner' : ∀ line ∈ inner', isBelow lead line = true)
    (houter : ∀ line, outer.head? = some line → isBelow lead line = false)
    (houter' : ∀ line, outer'.head? = some line → isBelow lead line = false)
    (same : inner ++ outer = inner' ++ outer') : inner = inner' ∧ outer = outer' := by
  have own {inner outer : List String} (hinner : ∀ line ∈ inner, isBelow lead line = true)
      (houter : ∀ line, outer.head? = some line → isBelow lead line = false) :
      (inner ++ outer).takeWhile (isBelow lead) = inner := by
    rw [List.takeWhile_append_of_pos hinner]
    cases outer with
    | nil => simp
    | cons line rest => simp [houter line rfl]
  have equal : inner = inner' := by rw [← own hinner houter, same, own hinner' houter']
  subst equal
  exact ⟨rfl, List.append_cancel_left same⟩

theorem connector_injective {isLast isLast' : Bool} {rest rest' : String}
    (same : connector isLast ++ rest = connector isLast' ++ rest') :
    isLast = isLast' ∧ rest = rest' := by
  have chars := congrArg String.toList same
  cases isLast <;> cases isLast' <;> simp [connector, String.toList_inj] at chars ⊢ <;> exact chars

theorem children_injective (tree : TreeDiagram) {lead : String} {others : List TreeDiagram}
    (named : ∀ child ∈ tree.children, child.Named) (named' : ∀ other ∈ others, other.Named)
    (same : forestLines lead tree.children = forestLines lead others) :
    tree.children = others := by
  induction tree using induction generalizing lead others with
  | node name details trees ih =>
      rw [children] at *
      induction trees generalizing others with
      | nil =>
          cases others with
          | nil => rfl
          | cons other others => cases other; simp [forestLines, branchLines] at same
      | cons first rest ihrest =>
          obtain ⟨name, details, below⟩ := first
          cases others with
          | nil => simp [forestLines, branchLines] at same
          | cons other others =>
              obtain ⟨name', details', below'⟩ := other
              obtain ⟨hfirst, hrest⟩ := List.forall_mem_cons.mp named
              obtain ⟨hother, hothers⟩ := List.forall_mem_cons.mp named'
              obtain ⟨hname, hbelow⟩ := named_node.mp hfirst
              obtain ⟨hname', hbelow'⟩ := named_node.mp hother
              rw [forestLines, branchLines, forestLines, branchLines, List.cons_append,
                List.cons_append, List.cons.injEq, String.append_assoc, String.append_assoc,
                String.append_right_inj] at same
              obtain ⟨head, tail⟩ := same
              obtain ⟨last, label⟩ := connector_injective head
              obtain ⟨rfl, rfl⟩ := label_injective hname hname' label
              rw [last] at tail
              obtain ⟨inner, outer⟩ := append_lines_injective (fun _ => isBelow_of_mem)
                (fun _ => isBelow_of_mem) (fun _ => isBelow_head) (fun _ => isBelow_head) tail
              have below_eq := ih _ List.mem_cons_self hbelow hbelow' inner
              have rest_eq := ihrest (fun child member => ih child (List.mem_cons_of_mem _ member))
                hrest hothers outer
              rw [children] at below_eq
              rw [below_eq, rest_eq]

theorem lines_injective {tree other : TreeDiagram} (named : tree.Named) (named' : other.Named)
    (same : tree.lines = other.lines) : tree = other := by
  obtain ⟨name, details, below⟩ := tree
  obtain ⟨name', details', below'⟩ := other
  obtain ⟨hname, hbelow⟩ := named_node.mp named
  obtain ⟨hname', hbelow'⟩ := named_node.mp named'
  rw [lines, lines, List.cons.injEq] at same
  obtain ⟨rfl, rfl⟩ := label_injective hname hname' same.1
  have children_eq : below = below' :=
    children_injective (.node name details below) hbelow hbelow' same.2
  rw [children_eq]

/-! ## One line for each node -/

def rules : List Char := ['│', '├', '└', '─', ' ']

/-- The line shows these names and details behind the rules that lead to them. -/
def Shows (line : String) (entry : String × Option String) : Prop :=
  ∃ lead, lead.toList ⊆ rules ∧ line = lead ++ label entry.1 entry.2

theorem connector_subset (isLast : Bool) : (connector isLast).toList ⊆ rules := by
  cases isLast <;> simp [connector, rules]

theorem rail_subset (isLast : Bool) : (rail isLast).toList ⊆ rules := by
  cases isLast <;> simp [rail, rules]

theorem forestLines_show {lead : String} {trees : List TreeDiagram}
    (each : ∀ tree ∈ trees, ∀ isLast,
      List.Forall₂ Shows (branchLines lead isLast tree) tree.labels) :
    List.Forall₂ Shows (forestLines lead trees) (trees.flatMap labels) := by
  induction trees with
  | nil => exact .nil
  | cons tree rest ih =>
      obtain ⟨first, others⟩ := List.forall_mem_cons.mp each
      rw [forestLines, List.flatMap_cons]
      exact List.rel_append (first _) (ih others)

theorem branchLines_show (tree : TreeDiagram) {lead : String} (ruled : lead.toList ⊆ rules)
    (isLast : Bool) : List.Forall₂ Shows (branchLines lead isLast tree) tree.labels := by
  induction tree using induction generalizing lead isLast with
  | node name details children ih =>
      rw [branchLines, labels_node]
      refine .cons ⟨lead ++ connector isLast, ?_, rfl⟩ (forestLines_show fun child hchild =>
        ih child hchild ?_)
      · simp [ruled, connector_subset]
      · simp [ruled, rail_subset]

theorem lines_show (tree : TreeDiagram) : List.Forall₂ Shows tree.lines tree.labels := by
  obtain ⟨name, details, children⟩ := tree
  rw [lines, labels_node]
  exact .cons ⟨"", by simp, by simp⟩
    (forestLines_show fun child _ => child.branchLines_show (by simp))

def Unbroken (tree : TreeDiagram) : Prop :=
  ∀ entry ∈ tree.labels, '\n' ∉ (label entry.1 entry.2).toList

theorem Unbroken.lines {tree : TreeDiagram} (unbroken : tree.Unbroken) :
    ∀ line ∈ tree.lines, '\n' ∉ line.toList := by
  intro line member
  have shown := tree.lines_show
  obtain ⟨index, inside, rfl⟩ := List.mem_iff_getElem.mp member
  have inside' : index < tree.labels.length := shown.length_eq ▸ inside
  obtain ⟨lead, ruled, line⟩ := shown.get inside inside'
  have noRule : '\n' ∉ rules := by decide
  simp only [List.get_eq_getElem] at line
  rw [line, String.toList_append, List.mem_append, not_or]
  exact ⟨fun char => noRule (ruled char), unbroken _ (List.getElem_mem inside')⟩

/-- Trees without spaces in names and without line feeds are drawn alike only if they are
alike. -/
theorem render_injective {tree other : TreeDiagram} (named : tree.Named) (named' : other.Named)
    (unbroken : tree.Unbroken) (unbroken' : other.Unbroken)
    (same : tree.render = other.render) : tree = other :=
  lines_injective named named' (join_lines_injective unbroken.lines unbroken'.lines same)

end TreeDiagram

end FederatedQuery.Text
