import MotifMatch.Value.Basic

namespace MotifMatch

structure Edge where
 source : NodeId
 target : NodeId
 key : Value
 attrs : Attrs
 deriving Inhabited

structure Graph where
 directed : Bool
 multi : Bool
 nodes : Table NodeId Attrs
 edges : List Edge
 deriving Inhabited

namespace Graph

def empty (directed : Bool) : Graph := ⟨directed,false,.empty,[]⟩

def ids (g : Graph) : List NodeId := g.nodes.keys

def size (g : Graph) : Nat := g.nodes.size

def hasNode (g : Graph) (n : NodeId) : Bool := g.nodes.contains n

def joins (g : Graph) (u v : NodeId) (e : Edge) : Bool :=
 (e.source == u && e.target == v) || (!g.directed && e.source == v && e.target == u)

def edge? (g : Graph) (u v : NodeId) : Option Edge := g.edges.find? (g.joins u v)

def hasEdge (g : Graph) (u v : NodeId) : Bool := g.edges.any (g.joins u v)

def farEnd? (g : Graph) (u : NodeId) (e : Edge) : Option NodeId :=
 if e.source == u then some e.target
 else if !g.directed && e.target == u then some e.source
 else none

def leaving (g : Graph) (u : NodeId) : List Edge :=
 g.edges.filterMap fun e => (g.farEnd? u e).map fun v => { e with source := u, target := v }

def distinct (ns : List NodeId) : List NodeId :=
 (ns.foldl (fun acc n => if acc.contains n then acc else n :: acc) []).reverse

def neighbors (g : Graph) (u : NodeId) : List NodeId :=
 let vs := g.edges.filterMap (g.farEnd? u)
 if g.multi then distinct vs else vs

def predecessors (g : Graph) (u : NodeId) : List NodeId :=
 if g.directed then
  let vs := g.edges.filterMap fun e => if e.target == u then some e.source else none
  if g.multi then distinct vs else vs
 else g.neighbors u

def fan (g : Graph) (u : NodeId) : List Edge :=
 let es := g.leaving u
 if g.multi then (g.neighbors u).flatMap fun v => es.filter fun e => e.target == v else es

def listFrom (g : Graph) : List NodeId → List NodeId → List Edge
 | _, [] => []
 | done, u :: rest =>
  (g.fan u).filter (fun e => g.directed || !done.contains e.target) ++ listFrom g (u :: done) rest

def edgeList (g : Graph) : List Edge := listFrom g [] g.ids

def addNode (g : Graph) (n : NodeId) (attrs : Attrs) : Graph :=
 { g with nodes := g.nodes.put n ((g.nodes.getD n .empty).putAll attrs.entries) }

def touch (g : Graph) (n : NodeId) : Graph :=
 if g.hasNode n then g else { g with nodes := ⟨g.nodes.entries ++ [(n,.empty)]⟩ }

def freshKey (parallel : List Edge) : Value :=
 let k := parallel.length
 let candidates := (List.range (k + 1)).map fun (i : Nat) => Value.int ((k + i : Nat) : Int)
 (candidates.find? fun c => !parallel.any fun e => e.key == c).getD (.int k)

def place (g : Graph) (e : Edge) (known : Edge → Bool) : Graph :=
 if g.edges.any known then
  { g with edges := g.edges.map fun f =>
      if known f then { f with attrs := f.attrs.putAll e.attrs.entries } else f }
 else { g with edges := g.edges ++ [e] }

def addEdge (g : Graph) (u v : NodeId) (attrs : Attrs) : Graph :=
 let g := (g.touch u).touch v
 if g.multi then
  let key := freshKey (g.edges.filter (g.joins u v))
  { g with edges := g.edges ++ [⟨u,v,key,attrs⟩] }
 else g.place ⟨u,v,.none,attrs⟩ (g.joins u v)

def addKeyed (g : Graph) (u v : NodeId) (key : Value) (attrs : Attrs) : Graph :=
 let g := (g.touch u).touch v
 g.place ⟨u,v,key,attrs⟩ fun e => g.joins u v e && e.key == key

def addListed (g : Graph) (e : Edge) : Graph :=
 if g.multi then g.addKeyed e.source e.target e.key e.attrs else g.addEdge e.source e.target e.attrs

def removeNode (g : Graph) (n : NodeId) : Graph :=
 { g with
   nodes := g.nodes.erase n
   edges := g.edges.filter fun e => !(e.source == n || e.target == n) }

def removeEdge (g : Graph) (u v : NodeId) : Graph :=
 { g with edges := g.edges.filter fun e => !g.joins u v e }

def attrs? (g : Graph) (n : NodeId) : Option Attrs := g.nodes.get? n

def nodeAttr? (g : Graph) (n : NodeId) (name : String) : Option Value :=
 (g.attrs? n).bind fun a => a.get? name

def setNodeAttr (g : Graph) (n : NodeId) (name : String) (v : Value) : Graph :=
 { g with nodes := g.nodes.modify n fun a => a.put name v }

def isListedAs (g : Graph) (f e : Edge) : Bool :=
 g.joins e.source e.target f && (!g.multi || f.key == e.key)

def setEdgeAttr (g : Graph) (e : Edge) (name : String) (x : Value) : Graph :=
 { g with edges := g.edges.map fun f => if g.isListedAs f e then { f with attrs := f.attrs.put name x } else f }

def relisted (g : Graph) : Graph := { g with edges := g.edgeList }

def recast (g : Graph) (directed multi : Bool) : Graph :=
 (g.ids.flatMap g.fan).foldl addListed { g with directed, multi, edges := [] }

def toUndirected (g : Graph) : Graph := if g.directed then g.recast false g.multi else g.relisted

def induced (g : Graph) (keep : NodeId → Bool) : Graph :=
 { g with
   nodes := g.nodes.filter fun n _ => keep n
   edges := g.edges.filter fun e => keep e.source && keep e.target }

def renamed (g : Graph) (rename : NodeId → NodeId) : Graph :=
 let nodes := g.nodes.entries.foldl (fun t e => t.put (rename e.1) e.2) Table.empty
 g.edgeList.foldl
  (fun h e => h.addListed { e with source := rename e.source, target := rename e.target })
  { g with nodes, edges := [] }

def overlay (g h : Graph) : Graph :=
 let base := { g with edges := g.edgeList }
 let withNodes := h.nodes.entries.foldl (fun acc e => acc.addNode e.1 e.2) base
 h.edgeList.foldl addListed withNodes

end Graph
end MotifMatch

namespace MotifMatch.Graph
open Array Prod

def fresh (seen : List NodeId) : List NodeId → List NodeId
 | [] => []
 | v :: rest => if seen.contains v then fresh seen rest else v :: fresh (v :: seen) rest

def nextLayer (next : NodeId → List NodeId) (seen : List NodeId) :
 List NodeId → List (NodeId × NodeId)
 | [] => []
 | u :: rest =>
  let found := fresh seen (next u)
  found.map (fun v => (u,v)) ++ nextLayer next (found ++ seen) rest

def layersFrom (next : NodeId → List NodeId) :
 Nat → List NodeId → List NodeId → List (List (NodeId × NodeId))
 | 0, _, _ => []
 | n + 1, seen, layer =>
  match nextLayer next seen layer with
  | [] => []
  | found => found :: layersFrom next n (found.map snd ++ seen) (found.map snd)

def layers (g : Graph) (next : NodeId → List NodeId) (start : NodeId) :
 List (List (NodeId × NodeId)) :=
 layersFrom next g.size [start] [start]

def reached (g : Graph) (next : NodeId → List NodeId) (start : NodeId) : List NodeId :=
 start :: (g.layers next start).flatten.map snd

def around (g : Graph) (u : NodeId) : List NodeId :=
 if g.directed then g.neighbors u ++ g.predecessors u else g.neighbors u

def ballNodes (g : Graph) (next : NodeId → List NodeId) (start : NodeId) (radius : Int) :
 List NodeId :=
 if radius < 0 then []
 else start :: ((g.layers next start).take radius.toNat).flatten.map snd

def ballBy (g : Graph) (next : NodeId → List NodeId) (start : NodeId) (radius : Int) :
 Except Error Graph :=
 if g.hasNode start then
  let inside := g.ballNodes next start radius
  .ok (g.induced inside.contains).relisted
 else .error .unknownNode

def ball (g : Graph) (start : NodeId) (radius : Int) : Except Error Graph :=
 g.ballBy g.around start radius

def ballAhead (g : Graph) (start : NodeId) (radius : Int) : Except Error Graph :=
 g.ballBy g.neighbors start radius

def spanningTree (g : Graph) (start : NodeId) : List (NodeId × NodeId) :=
 (g.layers g.around start).flatten

def plumb (tree : List (NodeId × NodeId)) : Nat → List (NodeId × Nat) → Nat → Nat
 | 0, _, deepest => deepest
 | _, [], deepest => deepest
 | n + 1, (u,depth) :: stack, deepest =>
  let below := (tree.filter fun e => e.1 == u).map fun e => (e.2,depth + 1)
  plumb tree n (below.reverse ++ stack) (max deepest depth)

def spanningRadius (g : Graph) (start : NodeId) : Except Error Nat :=
 if g.hasNode start then
  let tree := g.spanningTree start
  .ok (plumb tree (tree.length + 1) [(start,0)] 0)
 else .error .malformedGraph

def deepLoop (next : NodeId → List NodeId) :
 Nat → List NodeId → List (NodeId × List NodeId) → List (NodeId × NodeId)
 | 0, _, _ => []
 | _ + 1, _, [] => []
 | n + 1, seen, (_,[]) :: stack => deepLoop next n seen stack
 | n + 1, seen, (u,v :: vs) :: stack =>
  if seen.contains v then deepLoop next n seen ((u,vs) :: stack)
  else (u,v) :: deepLoop next n (v :: seen) ((v,next v) :: (u,vs) :: stack)

def deepTree (g : Graph) (start : NodeId) : Except Error (List (NodeId × NodeId)) :=
 if g.hasNode start then
  .ok (deepLoop g.neighbors (2 * g.edges.length + g.size + 1) [start] [(start,g.neighbors start)])
 else .error .missingKey

def spans (g : Graph) (next : NodeId → List NodeId) : Except Error Bool :=
 match g.ids with
 | [] => .error .emptyGraph
 | n :: _ => .ok ((g.reached next n).length == g.size)

def isWeaklyConnected (g : Graph) : Except Error Bool := g.spans g.around

def isStronglyConnected (g : Graph) : Except Error Bool := do
 return (← g.spans g.neighbors) && (← g.spans g.predecessors)

def isConnected (g : Graph) (weak : Bool) : Except Error Bool :=
 if g.directed && !weak then g.isStronglyConnected else g.isWeaklyConnected

def position (ids : List NodeId) (n : NodeId) : Nat := ids.idxOf n

def weightedSteps (g : Graph) : Except Error (Array (Array (Nat × Float))) := do
 let ids := g.ids
 let blank := (ids.map fun _ => (#[] : Array (Nat × Float))).toArray
 g.edges.foldlM (fun acc e => do
  let w ← match e.attrs.get? "weight" with
   | none => pure 1.0
   | some v => match v.toFloat? with
    | some x => pure x
    | none => throw .wrongType
  let i := position ids e.source
  let j := position ids e.target
  let acc := acc.modify i fun row => row.push (j,w)
  return if g.directed || i == j then acc else acc.modify j fun row => row.push (i,w)) blank

def rankStep (n : Float) (steps : Array (Array (Nat × Float))) (totals : Array Float)
 (x : Array Float) : Array Float :=
 let spilled := (range x.size).foldl (fun acc i =>
  if totals.getD i 0.0 == 0.0 then acc + x.getD i 0.0 else acc) 0.0
 let flow := (range x.size).foldl (fun (acc : Array Float) i =>
  let total := totals.getD i 0.0
  if total == 0.0 then acc
  else (steps.getD i #[]).foldl (fun acc s => acc.modify s.1 fun y => y + x.getD i 0.0 *
   (s.2 * (1.0 / total))) acc)
  (replicate x.size 0.0)
 flow.map fun y => 0.85 * (y + spilled / n) + 0.15 / n

def rankLoop (n : Float) (steps : Array (Array (Nat × Float))) (totals : Array Float) :
 Nat → Array Float → Array Float
 | 0, x => x
 | k + 1, x =>
  let y := rankStep n steps totals x
  let moved := (range x.size).foldl (fun acc i => acc + (y.getD i 0.0 - x.getD i 0.0).abs) 0.0
  if moved < n * 1.0e-6 then y else rankLoop n steps totals k y

def ranks (g : Graph) : Except Error (List (NodeId × Float)) := do
 if g.size = 0 then return []
 let steps ← g.weightedSteps
 let n := Float.ofNat g.size
 let totals := steps.map fun row => row.foldl (fun acc s => acc + s.2) 0.0
 return g.ids.zip (rankLoop n steps totals 100 (replicate g.size (1.0 / n))).toList

def topRanked (g : Graph) : Except Error NodeId := do
 match ← g.ranks with
 | [] => throw .indexOutOfRange
 | first :: rest => return (rest.foldl (fun best e => if best.2 < e.2 then e else best) first).1

end MotifMatch.Graph
