import MotifMatch.Graph.Anchor
import MotifMatch.Value.Text

namespace MotifMatch.Normal

structure Walk where
 node : NodeId
 text : String
 path : List Nat
 parent : Option Nat
 previous : Option NodeId
 forward : Bool

structure Growth where
 input : Graph
 tree : Graph
 paths : Table String (List Nat)
 longest : Nat

structure Manner where
 marked : Bool
 limit : Int
 anchor : NodeId

namespace Manner

def piece (m : Manner) (forward : Bool) (label : Value) : String :=
 if m.marked then (if forward then ">" else "<") ++ label.text else label.text

def distance (m : Manner) (length : Nat) : Value :=
 if m.marked then .float (Float.ofNat length / 2.0 - 1.0) else .int (length - 1)

def furthest (m : Manner) (longest : Nat) : Value :=
 if longest ≤ (if m.marked then 2 else 1) then .int 0 else m.distance longest

def steps (m : Manner) (g : Graph) (n : NodeId) : Except Error (List (NodeId × Bool)) :=
 if m.marked then
  if g.directed then
   .ok ((g.neighbors n).map (fun v => (v,true)) ++ (g.predecessors n).map fun v => (v,false))
  else .error .missingAttribute
 else .ok ((g.neighbors n).map fun v => (v,true))

def stops (m : Manner) (w : Walk) : Bool :=
 (w.node == m.anchor && w.parent.isSome) || m.limit ≤ w.text.length

end Manner

def countAlong (tree : Graph) (path : List Nat) : Graph :=
 path.foldl (fun g (n : Nat) =>
  { g with nodes := g.nodes.modify (.num n) fun a =>
      a.put "presence" (match a.get? "presence" with
        | some (.int c) => .int (c + 1)
        | _ => .int 1) }) tree

def sprout (m : Manner) (s : Growth) (w : Walk) (text : String) (attrs : Attrs) : Growth :=
 let new := s.tree.size
 let attrs := (attrs.put "presence" (.int 0)).put "distance" (m.distance text.length)
 let tree := s.tree.addNode (.num new) attrs
 let tree := match w.parent with
  | none => tree
  | some p =>
   if m.marked && !w.forward then tree.addEdge (.num new) (.num p) .empty
   else tree.addEdge (.num p) (.num new) .empty
 { s with
   input := { s.input with nodes := s.input.nodes.put w.node attrs }
   tree
   paths := s.paths.put text (w.path ++ [new]) }

def visit (m : Manner) (s : Growth) (w : Walk) : Growth × Except Error (List Walk) :=
 if m.stops w then (s,.ok [])
 else
  match s.input.attrs? w.node with
  | none => (s,.error .missingKey)
  | some attrs =>
   match attrs.get? "label" with
   | none => (s,.error .missingKey)
   | some label =>
    let text := w.text ++ m.piece w.forward label
    let s := if s.paths.contains text then s else sprout m s w text attrs
    let path := s.paths.getD text []
    let s := { s with
      tree := countAlong s.tree path
      longest := max s.longest text.length }
    (s,(m.steps s.input w.node).map fun next =>
     (next.filter fun e => some e.1 != w.previous).map fun e =>
      { node := e.1, text, path, parent := path.getLast?, previous := some w.node, forward := e.2 })

def visitAll (m : Manner) : Growth → List Walk → List (List Walk) → Growth × Except Error (List Walk)
 | s, [], found => (s,.ok found.reverse.flatten)
 | s, w :: rest, found =>
  match visit m s w with
  | (s,.ok more) => visitAll m s rest (more :: found)
  | (s,.error e) => (s,.error e)

def grow (m : Manner) : Nat → Growth → List Walk → Growth × Except Error Unit
 | _, s, [] => (s,.ok ())
 | 0, s, _ => (s,.error .outOfPatience)
 | n + 1, s, walks =>
  match visitAll m s walks [] with
  | (s,.ok more) => grow m n s more
  | (s,.error e) => (s,.error e)

def lengthBound (g : Graph) (limit : Int) : Nat := (limit.toNat + 2) * (g.size + 2)

structure Form where
 tree : Graph
 furthest : Value

def formBy (g : Graph) (limit : Int) (marked directed : Bool) : Graph × Except Error Form :=
 let m : Manner := ⟨marked,limit,g.anchor⟩
 let start : Growth := ⟨g,.empty directed,.empty,0⟩
 match grow m (lengthBound g limit) start [⟨g.anchor,"",[],none,none,false⟩] with
 | (s,.ok ()) => (s.input,.ok ⟨s.tree,m.furthest s.longest⟩)
 | (s,.error e) => (s.input,.error e)

def markedForm (g : Graph) (limit : Int) : Graph × Except Error Form := formBy g limit true true

def form (g : Graph) (limit : Int) (forceDirected : Bool) : Graph × Except Error Form :=
 if g.directed then markedForm g limit else formBy g limit false forceDirected

structure Branch where
 nodes : List NodeId
 text : String

def labelText (g : Graph) (n : NodeId) : Except Error String :=
 match g.nodeAttr? n "label" with
 | some v => .ok v.text
 | none => .error .missingKey

def branchPiece (g : Graph) (parent : Option NodeId) (n : NodeId) : Except Error String := do
 let label ← labelText g n
 match parent with
 | some p =>
  return if g.directed then (if (g.neighbors p).contains n then ">" else "<") ++ label else label
 | none => return label

def branchesFrom (g : Graph) (tree : List (NodeId × NodeId)) :
 Nat → Option NodeId → List NodeId → String → NodeId → Except Error (List Branch)
 | 0, _, _, _, _ => .error .outOfPatience
 | fuel + 1, parent, above, text, n => do
  let nodes := above ++ [n]
  let text := text ++ (← branchPiece g parent n)
  match (tree.filter fun e => e.1 == n).map Prod.snd with
  | [] => return [⟨nodes,text⟩]
  | children => return (← children.mapM (branchesFrom g tree fuel (some n) nodes text)).flatten

def branches (g : Graph) : Except Error (List Branch) := do
 let tree ← g.toUndirected.deepTree g.anchor
 branchesFrom g tree (g.size + 1) none [] "" g.anchor

def sameTexts (g h : Graph) : Except Error Bool := do
 let ss := (← branches g).map Branch.text
 let ts := (← branches h).map Branch.text
 return ss.all ts.contains && ts.all ss.contains

structure Overlay where
 graph : Graph
 nodeMarks : List Int
 edgeMarks : List Int

def nodeMark (source query : Graph) (anchor : Option NodeId) (n : NodeId) (a : Attrs) : Int :=
 if query.hasNode n && source.hasNode n then
  if anchor == some n || Graph.isAnchor a then 2 else 1
 else if query.hasNode n then -1
 else 0

def edgeMark (source query : Graph) (u v : NodeId) : Int :=
 if query.hasEdge u v && source.hasEdge u v then 1
 else if query.hasEdge u v then -1
 else 0

def lay (source query : Graph) (anchor : Option NodeId) : Overlay :=
 let g := source.overlay query
 { graph := g
   nodeMarks := g.nodes.entries.map fun e => nodeMark source query anchor e.1 e.2
   edgeMarks := g.edgeList.map fun e => edgeMark source query e.source e.target }

def longestShared (sources : List (String × List NodeId)) (text : List Char) :
 Nat → Option (Nat × List NodeId)
 | 0 => none
 | n + 1 =>
  match sources.find? fun s => (text.take (n + 1)).isPrefixOf s.1.toList with
  | some s => some (n + 1,s.2.take (n + 1))
  | none => longestShared sources text n

def shifted (offset : Value) (n : NodeId) : Except Error NodeId := do
 match NodeId.ofValue? (← (← n.toValue.add offset).add (.int 1)) with
 | some m => return m
 | none => throw .wrongType

def alignBranch (sources : List (String × List NodeId)) (offset : Value)
 (names : Table NodeId NodeId) (b : Branch) : Except Error (Table NodeId NodeId) := do
 let chars := b.text.toList
 let (count,targets) := (longestShared sources chars chars.length).getD (0,[])
 let shared := (b.nodes.take count).zip targets
 let rest ← (b.nodes.drop count).mapM fun n => do return (n,← shifted offset n)
 return (names.putAll shared).putAll rest

def largest : List Value → Except Error Value
 | [] => .error .badValue
 | v :: rest => rest.foldlM (fun best w => do return if ← best.less w then w else best) v

def alignment (source query : Graph) : Except Error (Table NodeId NodeId) := do
 let sourceBranches ← branches source
 let queryBranches ← branches query
 let sources := (Table.ofList (sourceBranches.map fun b => (b.text,b.nodes))).entries
 let offset ← largest (source.ids.map NodeId.toValue)
 queryBranches.foldlM (alignBranch sources offset) .empty

def combine (source query : Graph) : Except Error Overlay := do
 let source := source.relisted
 let query := query.relisted
 let names ← alignment source query
 return lay source (query.renamed fun n => names.getD n n) (some source.anchor)

def shared (g h : Graph) : Except Error Graph := do
 let o ← combine g h
 let kept := (o.graph.ids.zip o.nodeMarks).filterMap fun e => if 0 < e.2 then some e.1 else none
 return o.graph.induced kept.contains

end MotifMatch.Normal
