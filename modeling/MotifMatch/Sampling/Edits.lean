import MotifMatch.Graph.Basic
import MotifMatch.Random.Draw

namespace MotifMatch.Graph
open Scalar List

def pairs (n : Nat) (directed : Bool) : List (Nat × Nat) :=
 (range n).flatMap fun u =>
  ((range n).filter fun v => if directed then u != v else decide (u < v)).map fun v => (u,v)

def numbered (n : Nat) (directed : Bool) (joined : List (Nat × Nat)) : Graph :=
 { directed, multi := false
   nodes := ⟨(range n).map fun (i : Nat) => (.num i,.empty)⟩
   edges := joined.map fun p => ⟨.num p.1,.num p.2,.none,.empty⟩ }

def tossEach {α : Type} [Scalar α] (chance : α) :
 List (Nat × Nat) → List (Nat × Nat) → Draw (List (Nat × Nat))
 | kept, [] => return kept.reverse
 | kept, p :: rest => do
  let u : α ← Draw.tossUnit
  tossEach chance (if lt u chance then p :: kept else kept) rest

def tossed {α : Type} [Scalar α] (n : Nat) (chance : α) (directed : Bool) : Draw Graph := do
 if le chance zero then return numbered n directed []
 else if le one chance then return numbered n directed (pairs n directed)
 else return numbered n directed (← tossEach chance [] (pairs n directed))

end MotifMatch.Graph

namespace MotifMatch.Sampling
open Draw

structure Form where
 graph : Graph
 left : Bool

structure Draft where
 work : Graph
 past : List Form

namespace Draft

def start (g : Graph) : Draft := ⟨g,[]⟩

def parted (d : Draft) : Option Graph := (d.past.reverse.find? Form.left).map Form.graph

def given (d : Draft) : Graph := d.parted.getD d.work

def edit (f : Graph → Graph) (d : Draft) : Draft := ⟨f d.work,⟨d.work,false⟩ :: d.past⟩

def leave (g : Graph) (d : Draft) : Draft := ⟨g,⟨d.work,true⟩ :: d.past⟩

end Draft

abbrev Edit := ExceptT Error (StateM (Streams × Draft))

namespace Edit

def draw {α : Type} (d : Draw α) : Edit α := do
 let (streams,draft) ← get
 let (r,streams) := d.run.run streams
 set (streams,draft)
 match r with
 | .ok a => return a
 | .error e => throw e

def graph : Edit Graph := return (← get).2.work

def edit (f : Graph → Graph) : Edit Unit := modify fun s => (s.1,s.2.edit f)

def leave (g : Graph) : Edit Unit := modify fun s => (s.1,s.2.leave g)

def on {α : Type} (action : Edit α) (g : Graph) (streams : Streams) :
 Except Error α × Draft × Streams :=
 let (r,(streams,draft)) := action.run.run (streams,.start g)
 (r,draft,streams)

def result {α : Type} (action : Edit α) (g : Graph) : Draw (α × Graph) := do
 let (r,draft,streams) := action.on g (← get)
 set streams
 match r with
 | .ok a => return (a,draft.work)
 | .error e => throw e

end Edit

/-- A loop that draws until the draw serves, with what it draws from. -/
inductive Loop where
 | removeEdge (g : Graph)
 | removeNode (g : Graph)
 | joinPair (g : Graph)
 | changeLabel (old : Value) (labels : Int)

/-- What the editing steps run in. It is told of every such loop as it is entered. -/
class Editor (m : Type → Type) where
 perform {α : Type} : Edit α → m α
 enter : (Graph → Loop) → m Unit

instance : Editor Edit where
 perform action := action
 enter _ := pure ()

open Editor

variable {m : Type → Type} [Monad m] [Editor m]

def retry {α : Type} (attempt : Edit (Option α)) : Nat → Edit α
 | 0 => throw .outOfPatience
 | n + 1 => do
  match ← attempt with
  | some a => return a
  | none => retry attempt n

def connected (g : Graph) : Edit Bool :=
 match g.isConnected true with
 | .ok b => return b
 | .error e => throw e

def removeNode (patience : Nat) : m Unit := do
 enter .removeNode
 perform do
  let g ← Edit.graph
  let smaller ← retry (do
   let n ← Edit.draw (drawFrom g.ids)
   let h := g.relisted.removeNode n
   if ← connected h then return some h else return none) patience
  Edit.leave smaller

def removeNodesBy (patience : Nat) : Nat → m Unit
 | 0 => return
 | n + 1 => do removeNode patience; removeNodesBy patience n

def removeNodesDownTo (patience : Nat) (count : Int) : m Unit := do
 removeNodesBy patience (((← perform Edit.graph).size : Int) - count).toNat

def removeEdge (patience : Nat) : m Unit := do
 enter .removeEdge
 perform do
  let g ← Edit.graph
  let smaller ← retry (do
   let e ← Edit.draw (tossFrom g.edgeList)
   let h := g.relisted.removeEdge e.source e.target
   if ← connected h then return some h else return none) patience
  Edit.leave smaller

def removeEdges (patience : Nat) : Nat → m Unit
 | 0 => return
 | n + 1 => do removeEdge patience; removeEdges patience n

def drawLabel (count : Int) : Edit Value := return .int (← Edit.draw (drawInt 1 (count + 1)))

def mark (n : NodeId) (g : Graph) : Graph := g.setNodeAttr n "modified" (.bool true)

def unmarkAll (g : Graph) : Graph :=
 { g with nodes := g.nodes.mapValues fun _ a => a.put "modified" (.bool false) }

def link (u v : NodeId) (label : Value) (g : Graph) : Graph :=
 g.addEdge u v (.ofList [("label",label)])

def relabel (n : NodeId) (label : Value) (g : Graph) : Graph :=
 mark n (g.setNodeAttr n "label" label)

def addAll (new : List (NodeId × Attrs)) (g : Graph) : Graph :=
 new.foldl (fun g e => g.addNode e.1 e.2) g

def joinLoneNodes (patience : Nat) (labels : Int) : Nat → List NodeId → List NodeId → Edit Unit
 | 0, _, _ => throw .outOfPatience
 | fuel + 1, linked, lone => do
  if ← connected (← Edit.graph) then return
  if lone.isEmpty then return
  let new ← Edit.draw (tossFrom lone)
  let old ← (if linked.isEmpty then
   retry (do
    let n ← Edit.draw (tossFrom lone)
    return if n == new then none else some n) patience
   else Edit.draw (tossFrom linked))
  let label ← drawLabel labels
  Edit.edit (link old new label)
  Edit.edit (mark old)
  let (linked,lone) := if linked.isEmpty then ([old],lone.erase old) else (linked,lone)
  joinLoneNodes patience labels fuel (linked ++ [new]) (lone.erase new)

def joinPairs (patience : Nat) (labels target : Int) : Nat → m Unit
 | 0 => perform (throw .outOfPatience)
 | fuel + 1 => do
  let g ← perform Edit.graph
  if target ≤ g.edges.length then return
  enter .joinPair
  let pair ← perform (retry (do
   match ← Edit.draw (drawWithout 2 g.ids) with
   | [u,v] => return if g.hasEdge u v then none else some (u,v)
   | _ => throw .badValue) patience)
  let label ← perform (drawLabel labels)
  perform (Edit.edit (link pair.1 pair.2 label))
  perform (Edit.edit (mark pair.1))
  perform (Edit.edit (mark pair.2))
  joinPairs patience labels target fuel

def addEdges (patience : Nat) (labels least most : Int) : m Unit := do
 let g ← perform Edit.graph
 if g.size = 0 then return
 let linked := Graph.distinct (g.ids.flatMap g.neighbors)
 let lone := g.ids.filter fun n => !linked.contains n
 perform (joinLoneNodes patience labels (lone.length + 1) linked lone)
 let drawn ← perform (Edit.draw (drawInt least (most + 1)))
 let n : Int := g.size
 let target := min drawn (n * (n - 1) / 2)
 joinPairs patience labels target (target.toNat + 1)

def newNode (id : Int) (label : Value) : NodeId × Attrs :=
 (.num id,.ofList [("label",label),("modified",.bool true)])

def drawNodes (labels : Int) : Nat → Int → Edit (List (NodeId × Attrs))
 | 0, _ => return []
 | n + 1, id => do
  let label ← drawLabel labels
  return newNode id label :: (← drawNodes labels n (id + 1))

def addNodes (patience : Nat) (count start nodeLabels edgeLabels least most : Int) : m Int := do
 let missing := (count - (← perform Edit.graph).size).toNat
 let new ← perform (drawNodes nodeLabels missing start)
 perform (Edit.edit (addAll new))
 addEdges patience edgeLabels least most
 return start + missing

def changeLabel (patience : Nat) (labels : Int) : m Unit := do
 let g ← perform Edit.graph
 let n ← perform (Edit.draw (drawFrom g.ids))
 let old ← match g.nodeAttr? n "label" with
  | some v => pure v
  | none => perform (throw .missingKey)
 enter fun _ => .changeLabel old labels
 let new ← perform (retry (do
  let v ← drawLabel labels
  return if v == old then none else some v) patience)
 perform (Edit.edit (relabel n new))

def moveEdge (patience : Nat) (labels : Int) : m Unit := do
 let g ← perform Edit.graph
 let n : Int := g.size
 let e : Int := g.edges.length
 if 2 * e < n * (n - 1) then addEdges patience labels (e + 1) (e + 1)
 if n ≤ (← perform Edit.graph).edges.length then removeEdge patience

def modifySteps (patience : Nat) (nodeLabels edgeLabels least most : Int) : Nat → Int → m Int
 | 0, start => return start
 | n + 1, start => do
  let start ← match ← perform (Edit.draw (drawInt 0 3)) with
   | 0 => do changeLabel patience nodeLabels; pure start
   | 1 => do
    let start ← addNodes patience ((← perform Edit.graph).size +
     1) start nodeLabels edgeLabels least most
    removeNodesDownTo patience ((← perform Edit.graph).size - 1)
    pure start
   | _ => do moveEdge patience edgeLabels; pure start
  modifySteps patience nodeLabels edgeLabels least most n start

def modifyAtRandom (patience : Nat) (nodeLabels edgeLabels start least most : Int) : m Int := do
 let g ← perform Edit.graph
 let top : Int := max ((g.size + g.edges.length : Nat) : Int) 2
 let steps ← perform (Edit.draw (drawInt 1 top))
 modifySteps patience nodeLabels edgeLabels least most steps.toNat start

end MotifMatch.Sampling
