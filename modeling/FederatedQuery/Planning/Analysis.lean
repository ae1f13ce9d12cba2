/-!
The record of planning decisions, for people to read.

Lines are kept only while recording is on.
-/

namespace FederatedQuery

def occursIn (part : List Char) : List Char → Bool
  | [] => part.isEmpty
  | c :: rest => part.isPrefixOf (c :: rest) || occursIn part rest

structure AnalysisRecord where
  recordDebug : Bool
  lines : List String
  deriving DecidableEq, Repr

namespace AnalysisRecord

def empty (recordDebug : Bool) : AnalysisRecord := ⟨recordDebug, []⟩

def record (analysis : AnalysisRecord) (line : String) : AnalysisRecord :=
  if analysis.recordDebug then { analysis with lines := analysis.lines ++ [line] } else analysis

def contains (analysis : AnalysisRecord) (text : String) : Bool :=
  analysis.lines.any fun line => occursIn text.toList line.toList

def display (analysis : AnalysisRecord) : String :=
  String.join (analysis.lines.map (· ++ "\n"))

end AnalysisRecord

end FederatedQuery
