import MotifMatch.Graph.Basic

namespace MotifMatch.Graph
open Prod NodeId

structure Likeness where
 nodes : Attrs → Attrs → Except Error Bool
 edges : Attrs → Attrs → Except Error Bool

structure Indexed where
 attrs : Array Attrs
 near : Array (List (Nat × Attrs))

namespace Indexed

def size (x : Indexed) : Nat := x.attrs.size

def nearOf (x : Indexed) (i : Nat) : List (Nat × Attrs) := x.near.getD i []

def attrsOf (x : Indexed) (i : Nat) : Attrs := x.attrs.getD i .empty

def edgeAttrs? (x : Indexed) (i j : Nat) : Option Attrs :=
 ((x.nearOf i).find? fun e => e.1 == j).map snd

def adjacent (x : Indexed) (i j : Nat) : Bool := (x.nearOf i).any fun e => e.1 == j

end Indexed

def indexed (g : Graph) : Indexed :=
 let ids := g.ids
 { attrs := g.nodes.values.toArray
   near := (ids.map fun u => (g.leaving u).map fun e => (ids.idxOf e.target,e.attrs)).toArray }

namespace Embedding

structure Assignment where
 pairs : List (Nat × Nat)
 hostKnown : List Nat
 motifKnown : List Nat

namespace Assignment

def start : Assignment := ⟨[],[],[]⟩

def hostUsed (p : Assignment) (i : Nat) : Bool := p.pairs.any fun q => q.1 == i

def motifUsed (p : Assignment) (j : Nat) : Bool := p.pairs.any fun q => q.2 == j

def motifOf? (p : Assignment) (i : Nat) : Option Nat := (p.pairs.find? fun q => q.1 == i).map snd

def hostOf? (p : Assignment) (j : Nat) : Option Nat := (p.pairs.find? fun q => q.2 == j).map fst

end Assignment

def discover (known : List Nat) (x : Indexed) (i : Nat) : List Nat :=
 (i :: (x.nearOf i).map fst).foldl (fun acc j => if acc.contains j then acc else acc ++ [j]) known

def extend (host motif : Indexed) (p : Assignment) (i j : Nat) : Assignment :=
 ⟨(i,j) :: p.pairs,discover p.hostKnown host i,discover p.motifKnown motif j⟩

def candidates (host motif : Indexed) (p : Assignment) : List (Nat × Nat) :=
 let hostEdge := p.hostKnown.filter fun i => !p.hostUsed i
 let motifOpen := (List.range motif.size).filter fun j => !p.motifUsed j
 match hostEdge, motifOpen.filter p.motifKnown.contains with
 | _ :: _, j :: _ => hostEdge.map fun i => (i,j)
 | _, _ =>
  match motifOpen with
  | [] => []
  | j :: _ => ((List.range host.size).filter fun i => !p.hostUsed i).map fun i => (i,j)

def agrees (host motif : Indexed) (p : Assignment) (i j : Nat) : Bool :=
 (host.adjacent i i == motif.adjacent j j) &&
 (host.nearOf i).all (fun e => match p.motifOf? e.1 with
  | some k => motif.adjacent j k
  | none => true) &&
 (motif.nearOf j).all (fun e => match p.hostOf? e.1 with
  | some k => host.adjacent i k
  | none => true)

def roomy (host motif : Indexed) (p : Assignment) (i j : Nat) : Bool :=
 let hostNear := (host.nearOf i).map fst
 let motifNear := (motif.nearOf j).map fst
 let hostBorder := hostNear.countP fun k => p.hostKnown.contains k && !p.hostUsed k
 let motifBorder := motifNear.countP fun k => p.motifKnown.contains k && !p.motifUsed k
 let hostBeyond := hostNear.countP fun k => !p.hostKnown.contains k
 let motifBeyond := motifNear.countP fun k => !p.motifKnown.contains k
 motifBorder ≤ hostBorder && motifBeyond ≤ hostBeyond

def alikeEdges (like : Likeness) (host motif : Indexed) (p : Assignment) (i j : Nat) :
 List (Nat × Attrs) → Except Error Bool
 | [] => .ok true
 | (k,a) :: rest => do
  let image := if k == i then some j else p.motifOf? k
  match image.bind (motif.edgeAttrs? j) with
  | none => alikeEdges like host motif p i j rest
  | some b => if ← like.edges a b then alikeEdges like host motif p i j rest else return false

def alike (like : Likeness) (host motif : Indexed) (p : Assignment) (i j : Nat) :
 Except Error Bool := do
 if ← like.nodes (host.attrsOf i) (motif.attrsOf j) then
  alikeEdges like host motif p i j (host.nearOf i)
 else return false

def anyOf {α : Type} (attempt : α → Except Error Bool) : List α → Except Error Bool
 | [] => .ok false
 | x :: rest => do if ← attempt x then return true else anyOf attempt rest

def search (like : Likeness) (host motif : Indexed) : Nat → Assignment → Except Error Bool
 | 0, _ => .ok true
 | n + 1, p =>
  anyOf (fun q => do
   if agrees host motif p q.1 q.2 && roomy host motif p q.1 q.2 then
    if ← alike like host motif p q.1 q.2 then
     search like host motif n (extend host motif p q.1 q.2)
    else return false
   else return false) (candidates host motif p)

end Embedding

def embeds (like : Likeness) (host motif : Graph) : Except Error Bool :=
 Embedding.search like host.indexed motif.indexed motif.size .start

def isAnchor (a : Attrs) : Bool := a.get? "anchor" == some (.int 1)

def anchor? (g : Graph) : Option NodeId := (g.nodes.entries.find? fun e => isAnchor e.2).map fst

def anchor (g : Graph) : NodeId := g.anchor?.getD (.num (-1))

def core (g : Graph) (count : Int) : Except Error Graph :=
 let whole := g.toUndirected
 if whole.hasNode g.anchor then
  let order := whole.reached whole.neighbors g.anchor
  let kept := if count < 0 then order.take (order.length - (-count).toNat)
   else order.take count.toNat
  .ok (g.induced kept.contains).relisted
 else .error .malformedGraph

def attrOf (a : Attrs) (name : String) : Except Error Value :=
 match a.get? name with
 | some v => .ok v
 | none => .error .missingKey

def anchoredLikeness : Likeness where
 nodes a b := do
  let anchors := (← attrOf a "anchor") == (← attrOf b "anchor")
  let labels := (← attrOf a "label") == (← attrOf b "label")
  return anchors && labels
 edges a b := do return (← attrOf a "label") == (← attrOf b "label")

def labelLikeness : Likeness where
 nodes a b := do return (← attrOf a "label") == (← attrOf b "label")
 edges a b := do return (← attrOf a "label") == (← attrOf b "label")

def containsAnchored (host motif : Graph) : Except Error Bool := embeds anchoredLikeness host motif

structure Gluing where
 graph : Graph
 anchor : Option NodeId

def glueNodes (sourceAnchor : NodeId) :
 List (NodeId × Attrs) → Gluing → Table NodeId NodeId → Gluing × Table NodeId NodeId
 | [], s, names => (s,names)
 | (n,a) :: rest, s, names =>
  let new := num s.graph.size
  if n == sourceAnchor then
   match s.anchor with
   | some shared => glueNodes sourceAnchor rest s (names.put n shared)
   | none => glueNodes sourceAnchor rest ⟨s.graph.addNode new a,some new⟩ (names.put n new)
  else glueNodes sourceAnchor rest { s with graph := s.graph.addNode new a } (names.put n new)

def glue (keepRadius : Int) (s : Gluing) (source : Graph) : Except Error Gluing := do
 let sourceAnchor := source.anchor
 let source ← if 0 < keepRadius then source.ball sourceAnchor keepRadius else pure source
 let (s,names) := glueNodes sourceAnchor source.nodes.entries s .empty
 let graph := source.edgeList.foldl
  (fun g e => g.addEdge (names.getD e.source e.source)
   (names.getD e.target e.target) e.attrs) s.graph
 return { s with graph }

def joinAtAnchor (graphs : List Graph) (keepRadius : Int) : Except Error Graph :=
 match graphs with
 | [] => .ok (.empty false)
 | first :: _ => do
  let s ← graphs.foldlM (glue keepRadius) ⟨.empty first.directed,none⟩
  if ← s.graph.isConnected true then return s.graph else throw .notJoined

def freshNames : List NodeId → Table NodeId Value → List Value → Except Error (Table NodeId Value)
 | [], names, _ => .ok names
 | n :: rest, names, taken =>
  if names.contains n then freshNames rest names taken
  else do
   let top ← match taken.getLast? with
    | some v => pure v
    | none => throw .indexOutOfRange
   let new ← top.add (.int 1)
   let names := names.put n new
   freshNames rest names (← sortOn id false names.values)

def relabeled (g : Graph) (mapping : List (Value × Value)) : Except Error Graph := do
 let known := mapping.filterMap fun e =>
  match ofValue? e.1 with
  | some n => if g.hasNode n then some (n,e.2) else none
  | none => none
 let names := (Table.empty : Table NodeId Value).putAll known
 let taken ← sortOn id false (names.values ++ g.ids.map toValue)
 let names ← freshNames g.ids names taken
 if names.values.all fun v => (ofValue? v).isSome then
  return g.renamed fun n => ((names.get? n).bind ofValue?).getD n
 else throw .wrongType

end MotifMatch.Graph
