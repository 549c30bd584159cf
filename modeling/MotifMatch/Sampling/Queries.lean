import MotifMatch.Catalog
import MotifMatch.Graph.Anchor
import MotifMatch.Sampling.Edits

namespace MotifMatch.Sampling
open Edit Scalar Draw Decimal MotifMatch.Graph Catalog Editor

structure EdgeBounds where
 least : Int
 most : Int

def truncated (x : Float) : Int := (truncate? x).getD 0

def edgeCount (nodes : Int) (degree : Float) : Except Error Int :=
 match truncate? (Float.ofInt nodes * degree / 2.0) with
 | some count => .ok count
 | none => .error .badValue

def partBounds (nodes : Int) (mean spread : Float) : Except Error EdgeBounds :=
 return ⟨← edgeCount nodes (mean - spread),← edgeCount nodes (mean + spread)⟩

def capped (nodes : Int) (degree : Float) : Float :=
 let top := Float.ofInt (nodes - 1)
 if degree < top then degree else top

def cappedBounds (nodes : Int) (mean spread : Float) : Except Error EdgeBounds :=
 return ⟨← edgeCount nodes (capped nodes (mean - spread)),← edgeCount nodes
  (capped nodes (mean + spread))⟩

def masked (g : Graph) (mask : List Bool) (anchor : Option NodeId) : Graph :=
 let out := mask.zipIdx.filterMap fun e => if e.1 then none else some (NodeId.num e.2)
 let out := match anchor with
  | some a => out.erase a
  | none => out
 g.relisted.induced fun n => !out.contains n

variable {α : Type} [Scalar α] {m : Type → Type} [Monad m] [Editor m]

def raised (chance : α) : α := chance * ofScientific 105 true 2

def untilDrawn {β : Type} (attempt : α → Draw (Option β)) (raise : α → α) : Nat → Nat → α → Draw β
 | 0, _, _ => throw .outOfPatience
 | fuel + 1, tries, chance => do
  match ← attempt chance with
  | some b => return b
  | none =>
   if 5 < tries + 1 then untilDrawn attempt raise fuel 0 (raise chance)
   else untilDrawn attempt raise fuel (tries + 1) chance

def share (α : Type) [Scalar α] (g : Graph) (count : Int) : Except Error α :=
 if g.size = 0 then .error .divisionByZero
 else .ok (atMost one (ofInt count / ofNat g.size))

def drawPart (g : Graph) (anchor : Option NodeId) (chance : α) : Draw (Option Graph) := do
 let part := masked g (← drawMask chance g.size) anchor
 if part.size < 2 then return none
 return if ← part.isConnected true then some part else none

def connectedPart (patience : Nat) (g : Graph) (anchor : Option NodeId) (chance : α) : Draw Graph :=
 untilDrawn (drawPart g anchor) (fun c => atMost one (raised c)) patience 0 chance

def leaveForPart (patience : Nat) (anchor : Option NodeId) (chance : Float) : Edit Unit := do
 leave (← draw (connectedPart patience (← graph) anchor chance))

def thinOut (patience : Nat) (least : Int) : Nat → m Unit
 | 0 => return
 | n + 1 => do
  if (← perform graph).edges.length ≤ least then return
  removeEdge patience
  thinOut patience least n

def drawThinning (g : Graph) : Draw Nat := do
 let high : Int := (g.edges.length : Int) - g.size + 2
 if 0 < high then return (← drawInt 0 high).toNat else return 0

def carve (patience : Nat) (anchor : Option NodeId) (induced : Bool) (count : Int)
 (mean spread : Float) : m Unit := do
 let chance ← perform (liftM (share Float (← perform graph) count))
 let bounds ← perform (liftM (partBounds count mean spread))
 perform (leaveForPart patience anchor chance)
 unless induced do thinOut patience bounds.least (← perform (draw (drawThinning (← perform graph))))

def isoQuery (g : Graph) (anchor : Option NodeId) (induced : Bool) (count : Int)
 (mean spread : Float) : Draw Graph :=
 return (← result (carve patience anchor induced count mean spread) g).2

structure LabelCounts where
 nodes : Int
 edges : Int

def untilForeign (patience : Nat) (source : Graph) (labels : LabelCounts) (bounds : EdgeBounds) :
 Nat → Int → m Bool
 | 0, _ => return false
 | n + 1, start => do
  match embeds labelLikeness source (← perform graph) with
  | .ok true => do
   let start ← modifyAtRandom patience labels.nodes labels.edges start bounds.least bounds.most
   untilForeign patience source labels bounds n start
  | _ => return true

def resize (patience : Nat) (count start : Int) (labels : LabelCounts) (bounds : EdgeBounds) :
 m Int := do
 let size : Int := (← perform graph).size
 if count < size then do removeNodesDownTo patience count; return start
 else if size < count then addNodes patience count start labels.nodes labels.edges bounds.least bounds.most
 else return start

def estrange (patience : Nat) (induced : Bool) (count : Int) (mean spread : Float)
 (labels : LabelCounts) : m Bool := do
 let source ← perform graph
 let chance ← perform (liftM (share Float source count))
 let bounds ← perform (liftM (cappedBounds count mean spread))
 perform (leaveForPart patience none chance)
 perform (edit unmarkAll)
 let start ← resize patience count source.size labels bounds
 unless induced do removeEdges patience (← perform (draw (drawThinning (← perform graph))))
 let start ← modifyAtRandom patience labels.nodes labels.edges start bounds.least bounds.most
 untilForeign patience source labels bounds 3 start

def nonIsoQuery (g : Graph) (induced : Bool) (count : Int) (mean spread : Float)
 (labels : LabelCounts) :
 Draw (Option Graph) := do
 let (found,query) ← result (estrange patience induced count mean spread labels) g
 return if found then some query else none

structure Queries where
 iso : List Graph
 nonIso : List Graph

def oneQuery (g : Graph) (anchor : Option NodeId) (induced : Bool) (mean spread : Float)
 (labels : LabelCounts) :
 Nat → Draw (Bool × Graph)
 | 0 => throw .outOfPatience
 | n + 1 => do
  let count ← drawInt 2 (g.size + 1)
  match ← drawInt 0 2 with
  | 1 => return (true,← isoQuery g anchor induced count mean spread)
  | _ =>
   match ← nonIsoQuery g induced count mean spread labels with
   | some q => return (false,q)
   | none => oneQuery g anchor induced mean spread labels n

def drawQueries (g : Graph) (anchor : Option NodeId) (induced : Bool) (mean spread : Float)
 (labels : LabelCounts) :
 Nat → Queries → Nat → StateM Streams (Nat × Except Error Queries)
 | 0, acc, done => return (done,.ok acc)
 | n + 1, acc, done => do
  match ← (oneQuery g anchor induced mean spread labels patience).run with
  | .error e => return (done,.error e)
  | .ok (true,q) =>
   drawQueries g anchor induced mean spread labels n { acc with iso := acc.iso ++ [q] } (done + 1)
  | .ok (false,q) =>
   drawQueries g anchor induced mean spread labels n { acc with nonIso := acc.nonIso ++
    [q] } (done + 1)

def queries (g : Graph) (anchor : Option NodeId) (induced : Bool) (mean spread : Float)
 (labels : LabelCounts)
 (count : Nat) : StateM Streams (Nat × Except Error Queries) :=
 drawQueries g anchor induced mean spread labels count ⟨[],[]⟩ 0

variable {α : Type} [Scalar α]

def tossConnected (nodes : Nat) (directed : Bool) (chance : α) : Draw (Option Graph) := do
 let g ← tossed nodes chance directed
 if g.edges.isEmpty then return none
 return if ← g.isConnected true then some g else none

def drawSize (mean spread : Float) : Nat → Draw Nat
 | 0 => throw .outOfPatience
 | n + 1 => do
  let x : Float ← drawNormal mean spread
  match truncate? x with
  | some size => if size < 2 then drawSize mean spread n else return size.toNat
  | none => throw .badValue

def clampDegree (nodes : Nat) (degree : α) : α :=
 atMost (ofNat (nodes - 1)) (atLeast one degree)

def connectedOn (patience nodes : Nat) (directed : Bool) (degree : α) : Draw Graph :=
 untilDrawn (tossConnected nodes directed) raised patience 0
  (clampDegree nodes degree / ofNat (nodes - 1))

structure SizeProfile where
 meanSize : Float
 spreadSize : Float
 meanDegree : Float
 spreadDegree : Float

def connectedGraph (p : SizeProfile) (directed : Bool) : Draw Graph := do
 let nodes ← drawSize p.meanSize p.spreadSize patience
 let degree : Float ← drawNormal p.meanDegree p.spreadDegree
 connectedOn patience nodes directed degree

def interactionLabels (count : Int) : List Int :=
 ((List.range count.toNat).map fun (i : Nat) => (i : Int) + 1).filter fun i => i != recordIndex

def labelTree (tree : List (NodeId × NodeId)) (labels : List Int) :
 Nat → List (NodeId × Nat) → Edit Unit
 | 0, _ => return
 | _, [] => return
 | fuel + 1, (n,depth) :: stack => do
  let label ← (if depth % 2 = 0 then return (recordIndex : Int)
   else draw (drawFrom labels) : Edit Int)
  edit fun g => g.setNodeAttr n "label" (.int label)
  let children := (tree.filter fun e => e.1 == n).map Prod.snd
  labelTree tree labels fuel (children.reverse.map (fun c => (c,depth + 1)) ++ stack)

def labelEdges (labels : List Int) (count : Int) : List Edge → List Edge → Edit (List Edge)
 | [], others => return others.reverse
 | e :: rest, others => do
  let g ← graph
  match g.nodeAttr? e.source "label", g.nodeAttr? e.target "label" with
  | some a, some b =>
   let record : Value := .int recordIndex
   let isInteraction (v : Value) : Bool := labels.any fun i => v == .int i
   if (a == record && b == record) || (isInteraction a && isInteraction b) then
    labelEdges labels count rest (e :: others)
   else
    let label ← drawLabel count
    edit fun g => g.setEdgeAttr e "label" label
    labelEdges labels count rest others
  | _, _ => throw .missingKey

def addFeatures (nodeLabels edgeLabels : Int) (strict : Bool) : Edit NodeId := do
 let g ← graph
 let anchor ← match g.topRanked with
  | .ok n => pure n
  | .error e => throw e
 edit fun g => { g with nodes := g.nodes.mapValues fun _ a => a.put "anchor" (.int 0) }
 edit fun g => g.setNodeAttr anchor "anchor" (.int 1)
 let tree ← match g.toUndirected.deepTree anchor with
  | .ok t => pure t
  | .error e => throw e
 let labels := interactionLabels nodeLabels
 labelTree tree labels g.size [(anchor,0)]
 let others ← labelEdges labels edgeLabels (← graph).edgeList []
 if strict then
  edit fun g => others.foldl (fun g e => g.removeEdge e.source e.target) g
 return anchor

end MotifMatch.Sampling
