import MotifMatch.Graph.Anchor
import MotifMatch.Session

namespace MotifMatch.Caption

abbrev Names := List (Value × Value)

def nameOf? (names : Names) (node : String) : Option Value := (Table.mk names).get? (.str node)

def caption (node : Value) (attrs : Attrs) (scopes patterns : Option Names) :
 Except Error String := do
 let kind ← Catalog.nodeLabel.memberAt (← Graph.attrOf attrs "label")
 let base := "<" ++ node.text ++ ">" ++ (if Graph.isAnchor attrs then "\n[ANCHOR]" else "")
 if kind.name = "RECORD" then
  let scope ← match scopes with
   | none => pure ""
   | some names => match nameOf? names node.text with
    | some v => pure ("\n[" ++ v.text ++ "]")
    | none => throw .missingKey
  let pattern := match patterns.bind fun names => nameOf? names node.text with
   | some v => "\n[" ++ v.text ++ "]"
   | none => ""
  return base ++ scope ++ pattern
 else return base ++ "\n[" ++ kind.value ++ "]"

def captions (g : Graph) (scopes patterns : Option Names) : Except Error (List (NodeId × String)) :=
 g.nodes.entries.mapM fun e => do return (e.1,← caption e.1.toValue e.2 scopes patterns)

def colors {γ : Type} (g : Graph) (anchorColor nodeColor : γ) : List γ :=
 g.ids.map fun n => if n == g.anchor then anchorColor else nodeColor

end MotifMatch.Caption

namespace MotifMatch.Drawing
open Run

def palette : List String :=
 ["#FF9F1C","#2EC4B6","#1C7CFF","#C42E3C","#FFBF69","#CBF3F0","#69A9FF","#F3CBCE"]

structure Stroke where
 name : String
 nodes : List Item
 options : List (String × Item)

structure Picture where
 strokes : List Stroke
 title : String
 titleSize : Float
 margins : Item
 legend : Option (List String)
 ownAxes : Bool
 width : Float
 height : Float

structure Style where
 labels : Item := Item.none
 sizes : Item := Item.none
 edgeWidth : Item := .float 0.5
 showLabels : Item := .bool true
 edgeLabels : Item := Item.none
 nodeColors : Item := Item.none
 edgeColors : Item := Item.none
 title : Item := Item.none
 showTitle : Bool := true
 positions : Item := Item.none
 fontSize : Item := .nat 6
 size : Item := .tuple [.nat 6,.nat 4]
 ownAxes : Bool := false
 file : Option String := none
 legend : Option (List (Item × Item)) := none
 margin : Item := Item.none

def isNone : Item → Bool
 | .data .none => true
 | _ => false

def orElse (x standard : Item) : Item := if isNone x then standard else x

def isFilled : Item → Bool
 | .data v => v.truthy
 | .list xs => !xs.isEmpty
 | .tuple xs => !xs.isEmpty
 | .dict kvs => !kvs.isEmpty
 | _ => true

def floatOf (x : Item) : Except Error Float :=
 match x.value?.bind Value.toFloat? with
 | some f => .ok f
 | none => .error .wrongType

def textOf (x : Item) : String := (x.value?.getD .none).text

def nodesOf (g : Graph) (positions : Item) : List Item :=
 match positions.entries? with
 | some kvs => kvs.map Prod.fst
 | none => g.ids.map fun n => .data n.toValue

def legendTexts (kvs : List (Item × Item)) : List String :=
 (kvs.map fun e => textOf e.2).filter fun s => !s.startsWith "_"

def draw (g : Graph) (s : Style) : Run Picture := do
 let (width,height) ← Run.ofExcept (do
  if s.ownAxes then return (6.4,4.8)
  match s.size.elements? with
  | some [w,h] => return (← floatOf w,← floatOf h)
  | some _ => throw .badValue
  | none => throw .wrongType)
 let margins ← Run.ofExcept (do
  if isNone s.margin then return Item.tuple [.float 0.05,.float 0.05]
  if (← floatOf s.margin) ≤ -0.5 then throw .badValue
  return .tuple [s.margin,s.margin])
 let nodes := nodesOf g s.positions
 let main : Stroke := ⟨"draw",nodes,[
  ("with_labels",s.showLabels),
  ("labels",s.labels),
  ("node_color",if isFilled s.nodeColors then s.nodeColors else .str "skyblue"),
  ("node_size",orElse s.sizes (.nat 200)),
  ("font_size",s.fontSize),
  ("font_color",.str "black"),
  ("width",s.edgeWidth),
  ("edge_color",if isFilled s.edgeColors then s.edgeColors else .str "gray")]⟩
 let edges : List Stroke := if isNone s.edgeLabels then []
  else [⟨"edge_labels",nodes,[("edge_labels",s.edgeLabels),("font_color",.str "black")]⟩]
 let titleSize ← (if s.showTitle then return (← Run.ofExcept (floatOf s.fontSize)) +
  4.0 else return 12.0 : Run Float)
 let title := if !s.showTitle then ""
  else if isNone s.title then s!"Graph with {g.size} nodes and {g.edges.length} edges"
  else textOf s.title
 if let some file := s.file then writeText file ""
 return {
   strokes := main :: edges
   title, titleSize, margins
   legend := s.legend.map legendTexts
   ownAxes := s.ownAxes
   width, height }

def systemText (path : String) : Error → String
 | .isADirectory => "[Errno 21] Is a directory: " ++ Value.quoted path
 | .notADirectory => "[Errno 20] Not a directory: " ++ Value.quoted path
 | _ => "[Errno 2] No such file or directory: " ++ Value.quoted path

def drawForDebugging (g : Graph) (file : String) : Run (List Stroke) := do
 let folder := Path.ofProject "debug/"
 unless ← pathExists folder do makeFolder folder
 let path := Path.join folder file
 try
  writeText path ""
  say s!"Graph rendered and saved to {path}"
 catch e => say ("An error occurred while rendering the graph: " ++ systemText path e)
 return [⟨"draw",g.ids.map fun n => .data n.toValue,[
  ("with_labels",.bool false),("node_color",.str "lightblue"),("edge_color",.str "gray"),
   ("node_size",.nat 500)]⟩]

end MotifMatch.Drawing
