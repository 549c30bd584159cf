import MotifMatch.Drawing
import MotifMatch.Interactions
import MotifMatch.Sampling.Edits
import MotifMatch.Workbench.Arguments

namespace MotifMatch.Workbench
open MotifMatch.Normal Drawing Interactions
variable (a : Args)

def tossGraph : Act Obj := do
 return .graph (← Graph.tossed (← a.int 0).toNat (0.05 : Float) (← a.bool 1))

def randomBall : Act Obj := do
 let g ← a.graph 0
 let n ← Draw.tossFrom g.ids
 return .graph (← g.ballAhead n (← a.int 1))

def ball : Act Obj := do
 return .graph (← (← a.graph 0).ball (← a.node 1) (← a.int 2))

def core : Act Obj := do return .graph (← (← a.graph 0).core (← a.int 1))

def normalForm : Act Obj := do
 let (g,r) := form (← a.graph 0) (← a.ceilingD 1 4) (← a.boolD 2 false)
 a.keepGraph 0 g
 let n ← r
 return .tuple [.graph n.tree,.data n.furthest]

def markedForm : Act Obj := do
 let (g,r) := Normal.markedForm (← a.graph 0) (← a.ceilingD 1 4)
 a.keepGraph 0 g
 let n ← r
 return .tuple [.graph n.tree,.data n.furthest]

def sameForms : Act Obj := do
 return .bool (← sameTexts (← a.graph 0) (← a.graph 1))

def joinAtAnchor : Act Obj := do
 return .graph (← Graph.joinAtAnchor (← a.graphs 0) (← a.intD 1 (-1)))

def relabel : Act Obj := do
 return .graph (← (← a.graph 0).relabeled (← a.valueEntries 1))

def overlayObj (o : Overlay) (colors : Option (List (Value × Value))) : Act Obj := do
 match colors with
 | none => return .tuple [.graph o.graph,.ints o.nodeMarks,.ints o.edgeMarks]
 | some cs =>
  let colored (marks : List Int) : Act Obj := do
   return .list (← marks.mapM fun m => do
    return .ofValue (← ((Table.mk cs).get? (.int m)).getDM (throw .missingKey)))
  return .tuple [.graph o.graph,← colored o.nodeMarks,← colored o.edgeMarks]

def overlay : Act Obj := do
 overlayObj (lay (← a.graph 0) (← a.graph 1) (← a.node? 2)) (← a.valueEntries? 3)

def overlayForms : Act Obj := do
 overlayObj (← combine (← a.graph 0) (← a.graph 1)) (← a.valueEntries? 2)

def branches : Act Obj := do
 let bs ← Normal.branches (← a.graph 0)
 return .list (bs.map fun b => .tuple [.ids b.nodes,.str b.text])

def caption : Act Obj := do
 return .str (← Caption.caption (← a.value 0) (← a.attrs 1) (← a.valueEntries? 2)
  (← a.valueEntries? 3))

def captions : Act Obj := do
 let cs ← Caption.captions (← a.graph 0) (← a.valueEntries? 1) (← a.valueEntries? 2)
 return Obj.dictOf .id .str cs

def nodeColors : Act Obj := do
 return .list (Caption.colors (← a.graph 0) (.data (← a.valueD 1 (.str "purple")))
  (.data (← a.valueD 2 (.str "grey"))))

def decodePatternId : Act Obj := do
 match ← a.value 0 with
 | .none => return .none
 | .str s => return (PatternId.decode s).elim .none .str
 | _ => throw .missingAttribute

def attentionBy (model : Obj) (query source : Graph) : Except Error (Tensor Float) :=
 match model with
 | .part .fixedAttention [(_,.item (.array t))] => .ok t
 | .matcher m => do (← m.embedding [query] [source]).slice 0
 | _ => .error .missingAttribute

def interactions : Act Obj := do
 let model ← a.obj 0
 let source ← a.graph 1
 let query ← a.graph 2
 let matrix ← attentionBy model query source
 let pairs ← found matrix query.size (← a.float 3)
 return Obj.dictOf (fun p => .tuple [.nat p.1,.nat p.2]) .float pairs.entries

def pairKey : Value → Except Error (Value × Value)
 | .tuple [q,s] => .ok (q,s)
 | .list [q,s] => .ok (q,s)
 | .tuple _ => .error .badValue
 | .list _ => .error .badValue
 | _ => .error .wrongType

def bestPartners : Act Obj := do
 let pairs ← (← a.valueEntries 0).mapM fun e => do return (← pairKey e.1,← floatOf e.2)
 return Obj.dictOf .id (fun xs => .list (xs.map .ofValue)) (mapped (← a.graph 1).ids pairs)

def paintPair : Act Obj := do
 let model ← a.obj 0
 let p ← painted (attentionBy model) (← a.value 1) (← a.value 2) (← a.floatD 3 0.5)
 return .list [Obj.dictOf .id .str p.labels.entries,.strs p.nodeColors.values,.strs p.edgeColors,
  .str "Matching"]

def strokeObj (s : Stroke) : Obj :=
 .list [.str s.name,.list (s.nodes.map .ofItem),Obj.dictOf .str .ofItem s.options]

def drawGraph : Act Obj := do
 let plain (i : Nat) (d : Item) : Act Item := do
  match ← a.obj? i with
  | some o => return o.toItem
  | none => return d
 let style : Style := {
   labels := ← plain 1 Item.none
   sizes := ← plain 2 Item.none
   edgeWidth := ← plain 3 (.float 0.5)
   showLabels := ← plain 4 (.bool true)
   edgeLabels := ← plain 5 Item.none
   nodeColors := ← plain 6 Item.none
   edgeColors := ← plain 7 Item.none
   title := ← plain 8 Item.none
   showTitle := ← a.boolD 9 true
   positions := ← plain 10 Item.none
   fontSize := ← plain 11 (.nat 6)
   size := ← plain 12 (.tuple [.nat 6,.nat 4])
   file := ← a.str? 14
   legend := (← plain 15 Item.none).entries?
   margin := ← plain 16 Item.none
   ownAxes := ← a.boolD 17 false }
 let p ← draw (← a.graph 0) style
 return .record [
  ("calls",.list (p.strokes.map strokeObj)),
  ("title",.str p.title),
  ("title_size",.float p.titleSize),
  ("margins",.ofItem p.margins),
  ("legend",p.legend.elim .none .strs),
  ("same_axes",.bool p.ownAxes),
  ("size",.floats [p.width,p.height])]

def drawForDebugging : Act Obj := do
 return .list ((← Drawing.drawForDebugging (← a.graph 0) (← a.str 1)).map strokeObj)

end MotifMatch.Workbench
