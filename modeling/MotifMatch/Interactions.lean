import MotifMatch.Corpus.Load
import MotifMatch.Evaluation.Groups

namespace MotifMatch.Interactions
variable {α : Type} [Scalar α]

abbrev Pairs (α : Type) := Table (Nat × Nat) α

def pairOf? (queryCount row column : Nat) : Option (Nat × Nat) :=
 if row < queryCount && queryCount ≤ column then some (row,column - queryCount)
 else if column < queryCount && queryCount ≤ row then some (column,row - queryCount)
 else none

def addEntry (queryCount : Nat) (t : Pairs α) (row column : Nat) (score : α) : Pairs α :=
 match pairOf? queryCount row column with
 | none => t
 | some p => if queryCount ≤ row && t.contains p then t else t.put p score

def found (matrix : Tensor α) (queryCount : Nat) (threshold : α) : Except Error (Pairs α) :=
 match matrix.shape with
 | [n,m] => .ok ((List.range (n * m)).foldl (fun t k =>
  if Scalar.lt threshold (matrix.entry k) then addEntry queryCount t (k / m) (k % m)
   (matrix.entry k) else t)
  .empty)
 | _ => .error .badValue

def best {β : Type} (partners : List (β × α)) : List β :=
 match partners with
 | [] => []
 | first :: rest =>
  let top := rest.foldl (fun (m : α) e => if Scalar.lt m e.2 then e.2 else m) first.2
  (partners.filter fun e => Scalar.eq e.2 top).map Prod.fst

def mapped {β : Type} (nodes : List NodeId) (pairs : List ((Value × β) × α)) :
 List (NodeId × List β) :=
 nodes.map fun n => (n,best ((pairs.filter fun e => e.1.1 == n.toValue).map fun e => (e.1.2,e.2)))

structure Painting where
 labels : Table NodeId String
 nodeColors : Table NodeId String
 edgeColors : List String

def appendLabel (labels : Table NodeId String) (source : NodeId) (query : String) :
 Except Error (Table NodeId String) :=
 match labels.get? source with
 | none => .error .missingKey
 | some "" => .ok (labels.put source query)
 | some s => .ok (labels.put source (s ++ "," ++ query))

def predictedLabels (g : Graph) (mapping : List (NodeId × List NodeId)) :
 Except Error (Table NodeId String) :=
 let blank : Table NodeId String := ⟨g.ids.map fun n => (n,"")⟩
 mapping.foldlM (fun labels e => e.2.foldlM (fun labels n => appendLabel labels n e.1.text)
  labels) blank

def wholeOf (s : String) : Except Error Int :=
 match Text.int? s with
 | some i => .ok i
 | none => .error .badValue

def anyNumber (truth : Int) : List String → Except Error Bool
 | [] => .ok false
 | s :: rest => do if (← wholeOf s) = truth then return true else anyNumber truth rest

def truthOf (truths : Table Int Int) : NodeId → Int
 | .num i => truths.getD i (-1)
 | .name _ => -1

def nodeColor (truths : Table Int Int) (e : NodeId × String) : Except Error (NodeId × String) := do
 let truth := truthOf truths e.1
 if e.2 = "" then return (e.1,if truth = -1 then "gray" else "gold")
 return (e.1,if ← anyNumber truth (Text.splitOn ',' e.2) then "lime" else "pink")

def fillLabels (truths : Table Int Int) (labels : Table NodeId String) :
 Except Error (Table NodeId String) :=
 truths.entries.foldlM (fun labels e =>
  match labels.get? (.num e.1) with
  | none => throw .missingKey
  | some s =>
   return if s = "" && e.2 != -1 then labels.put (.num e.1) (toString e.2) else labels) labels

def strangers (query : Graph) (xs ys : List String) : Except Error Nat := do
 let pairs := xs.flatMap fun x => ys.map fun y => (x,y)
 let checked ← pairs.mapM fun p => do
  let a : NodeId := .num (← wholeOf p.1)
  let b : NodeId := .num (← wholeOf p.2)
  return !query.hasEdge a b && !query.hasEdge b a
 return (checked.filter id).length

def edgeColor (query : Graph) (labels colors : Table NodeId String) (e : Edge) :
 Except Error String := do
 let one := colors.getD e.source "gray"
 let two := colors.getD e.target "gray"
 if one = "gray" || two = "gray" then return "whitesmoke"
 let xs := Text.splitOn ',' (labels.getD e.source "")
 let ys := Text.splitOn ',' (labels.getD e.target "")
 let either (c : String) : Bool := one = c || two = c
 if (← strangers query xs ys) < xs.length * ys.length then
  return if one = "lime" && two = "lime" then "black"
   else if either "gold" then "goldenrod"
   else if either "pink" then "palevioletred"
   else "whitesmoke"
 return if either "pink" then "palevioletred" else "whitesmoke"

def paint (source query : Graph) (mapping : List (NodeId × List NodeId)) (truths : Table Int Int) :
 Except Error Painting := do
 let labels ← predictedLabels source mapping
 let colors : Table NodeId String := ⟨← labels.entries.mapM (nodeColor truths)⟩
 let labels ← fillLabels truths labels
 return ⟨labels,colors,← source.edgeList.mapM (edgeColor query labels colors)⟩

def painted (attention : Graph → Graph → Except Error (Tensor Float)) (source query : Value)
 (threshold : Float) :
 Run Painting := do
 let g ← Corpus.source source false
 let q ← Corpus.query source query false
 let truths ← Corpus.queryNamesOf source query false
 do
  let pairs ← found (← attention q g) q.size threshold
  let mapping := mapped q.ids (pairs.entries.map fun e => ((Value.int e.1.1,NodeId.num e.1.2),e.2))
  paint g q mapping truths

end MotifMatch.Interactions
