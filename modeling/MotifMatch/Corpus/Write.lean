import MotifMatch.Listing.Basic
import MotifMatch.Session
import MotifMatch.Value.Json

namespace MotifMatch.Corpus
open Run MotifMatch.Path Listing Text

structure Line where
 toMapping : Bool
 content : Except Error String

namespace Line

def graph (s : String) : Line := ⟨false,.ok s⟩

def pair (s : String) : Line := ⟨true,.ok s⟩

end Line

def isWritten (l : Line) : Bool := match l.content with
 | .ok _ => true
 | .error _ => false

def written (toMapping : Bool) (lines : List Line) : String :=
 String.join ((lines.takeWhile isWritten).filterMap fun l =>
  if l.toMapping == toMapping then (match l.content with
   | .ok s => some (s ++ "\n")
   | .error _ => none)
  else none)

def failure? (lines : List Line) : Option Error :=
 (lines.find? fun l => !isWritten l).bind fun l => match l.content with
  | .ok _ => none
  | .error e => some e

def attrText (a : Option Attrs) (name : String) : Except Error String :=
 match a.bind fun a => a.get? name with
 | some v => .ok v.text
 | none => .error .missingKey

def nodeLine (index : String) (a : Attrs) : Line :=
 ⟨false,(attrText (some a) "label").map fun l => "v " ++ index ++ " " ++ l⟩

def edgeLine (u v : String) (a : Attrs) : Line :=
 ⟨false,(attrText (some a) "label").map fun l => "e " ++ u ++ " " ++ v ++ " " ++ l⟩

def sourceLines (number anchor : Value) (g : Graph) : List Line :=
 [.graph ("t # " ++ number.text),.graph ("p # " ++ anchor.text)] ++
  g.nodes.entries.map (fun e => nodeLine e.1.text e.2) ++
  g.edgeList.map fun e => edgeLine e.source.text e.target.text e.attrs

def sourceNameLines (number : Value) (names : List (Value × Value)) : List Line :=
 .graph ("t # " ++ number.text) :: names.map fun e => .graph ("v " ++ e.2.text ++ " " ++ e.1.text)

def queryLines (number : Nat) (foreign : Bool) (g : Graph) (order : List NodeId) : List Line :=
 let head := "t # " ++ toString number
 let index (n : NodeId) : String := toString (order.idxOf n)
 let nodeLines (n : NodeId) : List Line :=
  let attrs := (g.attrs? n).getD .empty
  let pair := Line.pair ("v " ++ index n ++ " " ++ n.text)
  nodeLine (index n) attrs ::
   (if foreign then
    match attrs.get? "modified" with
    | none => [⟨true,.error .missingKey⟩]
    | some m => if m.truthy then [] else [pair]
   else [pair])
 [.graph head,.pair head] ++ order.flatMap nodeLines ++
  g.edgeList.map fun e => edgeLine (index e.source) (index e.target) e.attrs

def shuffledLines (foreign : Bool) : Nat → List Graph → Draw (List Line)
 | _, [] => return []
 | number, g :: rest => do
  let lines := queryLines number foreign g (← Draw.shuffle g.ids)
  if (failure? lines).isSome then return lines
  return lines ++ (← shuffledLines foreign (number + 1) rest)

def writeLines (path : String) (lines : List Line) : Run Unit := do
 writeText path (written false lines)
 if let some e := failure? lines then throw e

def writeQueries (folder kind : String) (foreign : Bool) (graphs : List Graph) : Run Unit := do
 let listing := join folder (kind ++ ".lg")
 let mapping := join folder (kind ++ "_mapping.lg")
 writeText listing ""
 writeText mapping ""
 let lines ← draw (shuffledLines foreign 0 graphs)
 writeText listing (written false lines)
 writeText mapping (written true lines)
 if let some e := failure? lines then throw e

def ensurePath (path : String) : Run Unit := do
 unless ← pathExists path do makeFolder path

structure Entry where
 number : Value
 graph : Graph
 names : List (Value × Value)
 anchor : Value
 iso : List Graph
 nonIso : List Graph

def write (folder : String) (e : Entry) : Run Unit := do
 let place := join folder e.number.text
 ensurePath place
 writeLines (join place "source.lg") (sourceLines e.number e.anchor e.graph)
 writeLines (join place "source_mapping.lg") (sourceNameLines e.number e.names)
 writeQueries place "iso_subgraphs" false e.iso
 writeQueries place "noniso_subgraphs" true e.nonIso

structure Raw where
 graph : Graph
 members : Table Int (List Nat)
 anchors : Table Int Int

def rawLines (text : String) : List String := splitOn '\n' (stripString text)

def distinctSorted (xs : List String) : List String :=
 (xs.mergeSort fun a b => decide (a ≤ b)).eraseDups

def labelledNodes (labels : List String) : Table NodeId Attrs :=
 let known := distinctSorted labels
 ⟨labels.zipIdx.map fun e => (.num e.2,labelled (known.idxOf e.1 + 1))⟩

def edgeEnds (row : String) : Except Error (Int × Int) :=
 match splitOn ',' row with
 | [u,v] => do return ((← number u) - 1,(← number v) - 1)
 | _ => .error .badValue

def anchorRow (t : Table Int Int) (row : String) : Except Error (Table Int Int) := do
 let cols := splitOn ' ' row
 let number ← columnNumber cols 0
 let node ← columnNumber cols 1
 return t.put (number - 1) (node - 1)

def membersOf (numbers : List Int) : Table Int (List Nat) :=
 let known := (numbers.mergeSort fun a b => decide (a ≤ b)).eraseDups
 ⟨known.map fun k => (k,numbers.zipIdx.filterMap fun e => if e.1 == k then some e.2 else none)⟩

def ofTexts (labels edges numbers anchors : String) : Except Error Raw := do
 let nodes := labelledNodes (rawLines labels)
 let ends ← (rawLines edges).mapM edgeEnds
 let graph := ends.foldl (fun (g : Graph) e => g.addEdge (.num e.1) (.num e.2) (labelled 1))
  { Graph.empty false with nodes }
 let numbers ← (rawLines numbers).mapM number
 let anchors ← (rawLines anchors).foldlM anchorRow .empty
 return ⟨graph,membersOf (numbers.map fun n => n - 1),anchors⟩

def readRaw (folder name : String) : Run Raw := do
 let place := ofProject (join folder name)
 let file (ending : String) : Run String := readText (join place (name ++ ending))
 let labels ← file ".node_labels"
 let edges ← file ".edges"
 let numbers ← file ".graph_idx"
 let anchors ← file ".anchors"
 Run.ofExcept (ofTexts labels edges numbers anchors)

structure Sources where
 graphs : List (Value × Graph)
 names : List (Value × List (NodeId × Nat))
 anchors : List (Value × Nat)

def sortedLabels (labels : List Value) : List Value :=
 let distinct := labels.foldl (fun acc v => if acc.any fun w => w == v then acc else acc ++ [v]) []
 match sortOn id false distinct with
 | .ok vs => vs
 | .error _ => distinct

def compactLabels (g : Graph) : Except Error Graph := do
 let known := sortedLabels (g.nodes.values.filterMap fun a => a.get? "label")
 let entries ← g.nodes.entries.mapM fun e => do
  match e.2.get? "label" with
  | none => throw .missingKey
  | some v => return (e.1,e.2.put "label" (.int ((known.findIdx fun w => w == v) + 1)))
 return { g with nodes := ⟨entries⟩ }

/-- The order in which a part of a graph lists its nodes. It need not be the order of the graph. -/
structure View where
 order : List NodeId → List NodeId
 perm : ∀ l, (order l).Perm l

def View.asListed : View := ⟨id,fun l => .refl l⟩

def View.relist (v : View) (g : Graph) : Graph :=
 { g with nodes := ⟨(v.order g.ids).filterMap fun n => (g.attrs? n).map fun a => (n,a)⟩ }

def cutOut (v : View) (total : Graph) (members : List NodeId) :
 Except Error (Graph × List (NodeId × Nat)) := do
 let part := v.relist (total.induced members.contains)
 let names := part.ids.zipIdx
 let table : Table NodeId Nat := ⟨names⟩
 let g ← compactLabels (part.renamed fun n => (table.get? n).elim n fun i => .num i)
 return (g,names)

def separate (v : View) (total : Graph) (members : List (Value × List NodeId))
 (anchors : List (Value × Value)) :
 Except Error Sources :=
 members.foldlM (fun (s : Sources) e => do
  let (g,names) ← cutOut v total e.2
  let anchor ← match (Table.mk anchors).get? e.1 with
   | none => throw .missingKey
   | some v => match NodeId.ofValue? v with
    | none => throw .missingKey
    | some n => match (Table.mk names).get? n with
     | none => throw .missingKey
     | some i => pure i
  return ⟨s.graphs ++ [(e.1,g)],s.names ++ [(e.1,names)],s.anchors ++ [(e.1,anchor)]⟩) ⟨[],[],[]⟩

def Raw.sources (v : View) (r : Raw) : Except Error Sources :=
 separate v r.graph (r.members.entries.map fun e => (.int e.1,e.2.map fun (i : Nat) => .num i))
  (r.anchors.entries.map fun e => (.int e.1,.int e.2))

end MotifMatch.Corpus
