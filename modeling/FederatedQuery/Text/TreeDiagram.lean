/-!
Trees drawn with one line per node.

The root stands alone; below it every node is joined to its parent by a
connector, and the rails of its ancestors are drawn to its left.
-/

namespace FederatedQuery.Text

inductive TreeDiagram where
  | node (name : String) (details : Option String) (children : List TreeDiagram)
  deriving Inhabited

namespace TreeDiagram

def label (name : String) : Option String → String
  | none => name
  | some details => name ++ " (" ++ details ++ ")"

def connector (isLast : Bool) : String := if isLast then "└─ " else "├─ "

def rail (isLast : Bool) : String := if isLast then "   " else "│  "

mutual

def branchLines (lead : String) (isLast : Bool) : TreeDiagram → List String
  | .node name details children =>
      (lead ++ connector isLast ++ label name details) ::
        forestLines (lead ++ rail isLast) children

def forestLines (lead : String) : List TreeDiagram → List String
  | [] => []
  | tree :: rest => branchLines lead rest.isEmpty tree ++ forestLines lead rest

end

def lines : TreeDiagram → List String
  | .node name details children => label name details :: forestLines "" children

def render (tree : TreeDiagram) : String := String.join (tree.lines.map (· ++ "\n"))

end TreeDiagram

end FederatedQuery.Text
