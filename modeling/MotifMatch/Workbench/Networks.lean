import MotifMatch.Workbench.Arguments

namespace MotifMatch.Workbench
variable (a : Args)

def sizesIn (xs : List Item) : Except Error (List Int) := do
 let ints (vs : List Item) : Except Error (List Int) :=
  vs.mapM fun v => do intOf (← v.value?.getDM (throw .wrongType))
 match xs with
 | [x] => match x.value? with
  | some (.str _) => throw .wrongType
  | _ => match x.elements? with
   | some ys => ints ys
   | none => ints [x]
 | xs => ints xs

def filledBy (x : Float) : Command := fun a => do
 let sizes ← (match ← a.valueD 1 .none with
  | .none => do sizesIn (← a.listed 0)
  | _ => a.sizes 1 : Act (List Int))
 if sizes.any fun n => n < 0 then throw .badValue
 return .array (.filled (sizes.map Int.toNat) x)

def zeros : Command := filledBy 0.0

def ones : Command := filledBy 1.0

def asTensor : Act Obj := do return .array (← a.tensor 0)

def concat : Act Obj := do return .array (← Tensor.concat (← a.tensors 0) (← a.intD 1 0))

abbrev Binary := Tensor Float → Tensor Float → Except Error (Tensor Float)

def binary (f : Binary) : Command := fun a => do return .array (← f (← a.tensor 0) (← a.tensor 1))

def swapped (f : Binary) : Command := binary fun s t => f t s

def matmul : Command := binary Tensor.matmul
def plus : Command := binary Tensor.plus
def plusSwapped : Command := swapped Tensor.plus
def minus : Command := binary Tensor.minus
def minusSwapped : Command := swapped Tensor.minus
def times : Command := binary Tensor.times
def timesSwapped : Command := swapped Tensor.times
def «over» : Command := binary Tensor.over
def above : Command := binary Tensor.above
def equals : Command := binary Tensor.equals

def entrywise (f : Float → Float) : Command := fun a => do return .array ((← a.tensor 0).map f)

def sigmoid : Command := entrywise Tensor.sigmoid
def power : Command := entrywise Tensor.power
def relu : Command := entrywise Tensor.relu
def negated : Command := entrywise fun x => -x

def contract : Act Obj := do return .array (← Tensor.contract (← a.str 0) (← a.tensors 1))

def choose : Act Obj := do
 return .array (← Tensor.choose (← a.tensor 0) (← a.tensor 1) (← a.tensor 2))

def softmax : Act Obj := do return .array (← (← a.tensor 0).softmax (← a.intD 1 (-1)))

def normalize : Act Obj := do
 return .array (← (← a.tensor 0).normalize (← a.floatD 1 2.0) (← a.intD 2 1) (← a.floatD 3 1e-12))

def dropNothing : Act Obj := do
 match ← a.item 0 with
 | .array _ => a.raw 0
 | _ => asTensor a

def onlyEntry : Act Obj := do
 let t ← a.tensor 0
 match t.data.toList with
 | [x] => return .float x
 | _ => throw .wrongType

def shapeObj (t : Tensor Float) : Obj := .tuple (t.shape.map .nat)

def shapeOf : Act Obj := do
 let t ← a.tensor 0
 match ← a.valueD 1 .none with
 | .none => return shapeObj t
 | v => return .nat (t.shape.getD (← placeIn t.rank (.data v)) 0)

def reshape : Act Obj := do
 return .array (← (← a.tensor 0).reshape (← sizesIn (← a.listed 1)))

def permute : Act Obj := do return .array (← (← a.tensor 0).permute (← a.sizes 1))

def expand : Act Obj := do return .array (← (← a.tensor 0).expand (← a.int 1))

def tile : Act Obj := do
 return .array (← (← a.tensor 0).tile (← sizesIn (← a.listed 1)))

def axesArg (listAllowed : Bool) : Act (Option (List Int)) := do
 match ← a.valueD 1 .none with
 | .none => return none
 | .list _ => if listAllowed then return some (← a.sizes 1) else throw .wrongType
 | _ => return some (← a.sizes 1)

def sum : Act Obj := do
 return .array (← (← a.tensor 0).sum (← axesArg a true) (← a.boolD 2 false))

def mean : Act Obj := do
 return .array (← (← a.tensor 0).mean (← axesArg a false) (← a.boolD 2 false))

def accuracy : Act Obj := do return .float (← Evaluation.accuracy (← a.tensor 0) (← a.tensor 1))

def scoreBy (f : Bool → Tensor Float → Tensor Float → Except Error Float) : Command := fun a => do
 let weighted := (← a.valueD 2 .none) != .none
 return .float (← f weighted (← a.tensor 0) (← a.tensor 1))

def precision : Command := scoreBy Evaluation.precision
def «recall» : Command := scoreBy Evaluation.recall
def harmonic : Command := scoreBy Evaluation.harmonic

def area : Act Obj := do
 discard (a.raw 0)
 return .float (Evaluation.area (← a.tensor 1))

def indicatorRows : Act Obj := do
 return .array (Evaluation.indicatorRows (← a.values 0) (← a.values 1))

def splitData : Act Obj := do
 let share ← a.floatD 1 0.2
 let (train,test) := splitOff (← a.listed 0) share (← a.intD 2 0)
 return .tuple [.list (train.map .ofItem),.list (test.map .ofItem)]

open Network

def linearFields (l : Linear Float) : List (String × Obj) := [
 ("in_features",.nat l.inputs),("out_features",.nat l.outputs),("weight",.array l.weight),
 ("bias",l.bias.elim .none .array),("training",.bool true)]

def fieldOf (fields : List (String × Obj)) (name : String) : Obj :=
 ((fields.find? fun e => e.1 == name).map Prod.snd).getD .none

def arrayOf? : Obj → Option (Tensor Float)
 | .item (.array t) => some t
 | _ => none

def linearOf (fields : List (String × Obj)) : Linear Float :=
 let weight := (arrayOf? (fieldOf fields "weight")).getD ⟨[0,0],#[]⟩
 ⟨weight.shape.getLast?.getD 0,weight.shape.headD 0,weight,arrayOf? (fieldOf fields "bias")⟩

def newLinear : Act Obj := do
 let inputs ← a.int 0
 let outputs ← a.int 1
 if inputs < 0 || outputs < 0 then throw .badValue
 return .part .linear (linearFields (← Linear.initial inputs.toNat outputs.toNat (← a.boolD 2 true)))

def modeField : String × Obj := ("training",.bool true)

def newModules : Act Obj := do
 match a.raw? 0 with
 | none => return .part .moduleList [modeField]
 | some (.list xs) =>
  return .part .moduleList (xs.zipIdx.map (fun e => (toString e.2,e.1)) ++ [modeField])
 | some o => match ← Act.resolve o with
  | .list xs => return .part .moduleList (xs.zipIdx.map (fun e => (toString e.2,e.1)) ++ [modeField])
  | _ => return .part .moduleList [modeField]

def newOptimizer : Act Obj := do
 discard (a.raw 0)
 return .part .optimizer [("lr",.data (← a.valueD 1 (.float 1e-3)))]

def newRecorder : Act Obj := do
 return .part .recorder [("log_dir",.data (← a.valueD 0 .none)),("scalars",.dict [])]

def newLoader : Act Obj := do
 return .part .loader [("dataset",← a.raw 0),("batch_size",.data (← a.valueD 1 (.int 1)))]

def newDevice : Act Obj := do return .part .device [("type",.str (← a.valueD 0 (.str "cpu")).text)]

def fixedAttention : Act Obj := do return .part .fixedAttention [("matrix",.array (← a.tensor 0))]

def fixedPredictions :
 Act Obj := do return .part .fixedPredictions [("preds",.ofItem (.list (← a.listed 0)))]

def sampleList : Act Obj := do return .part .sampleList [("samples",← a.raw 0)]

def redrawParameter : Act Obj := do
 match ← a.item 0 with
 | .array t => a.keepAs 0 (.array (← spreadAnew t))
 | _ => a.raw 0

def newLayer : Act Obj := do
 let joining := match ← a.valueD 4 (.str "mean") with
  | .str s => Layer.Joining.ofText? s
  | _ => none
 let inputs ← a.int 0
 let width ← a.int 1
 let hops ← a.int 2
 let heads ← a.intD 3 1
 let directed ← a.boolD 5 false
 let l : Layer Float ← Layer.initial inputs.toNat width.toNat hops.toNat heads.toNat joining directed
 return .layer (← l.redraw)

def newNetwork : Act Obj := do
 let m : Model Float ← fresh
 if ← a.boolD 0 true then return .network (← m.redraw) else return .network m

mutual

def parametersOf : Obj → List (String × Tensor Float)
 | .part _ fields => ownParameters fields ++ innerParameters fields
 | .layer l => l.named
 | .network m => m.named
 | _ => []

def ownParameters : List (String × Obj) → List (String × Tensor Float)
 | [] => []
 | (name,.item (.array t)) :: rest => (name,t) :: ownParameters rest
 | _ :: rest => ownParameters rest

def innerParameters : List (String × Obj) → List (String × Tensor Float)
 | [] => []
 | (name,o) :: rest =>
  (parametersOf o).map (fun e => (name ++ "." ++ e.1,e.2)) ++ innerParameters rest

end

def isModule : Obj → Bool
 | .part .linear _ => true
 | .part .module _ => true
 | .part .moduleList _ => true
 | .part .loss _ => true
 | .layer _ => true
 | .network _ => true
 | _ => false

def moduleAt : Act Obj := do
 let o ← a.obj 0
 if isModule o then return o else throw .missingAttribute

def stateOf : Act Obj := do return Obj.dictOf .str .array (parametersOf (← moduleAt a))

mutual

def withMode (mode : Value) : Obj → Obj
 | .part p fields => .part p (fieldsWithMode mode fields)
 | o => o

def fieldsWithMode (mode : Value) : List (String × Obj) → List (String × Obj)
 | [] => []
 | (name,o) :: rest =>
  (name,if name == "training" then .data mode else withMode mode o) :: fieldsWithMode mode rest

end

def setMode (mode : Value) : Act Obj := do a.keepAs 0 (withMode mode (← moduleAt a))

def networkInput (i : Nat) : Act (Model.Input Float) := do
 match ← a.tensors i with
 | [h,a1,a2,v] => return ⟨h,a1,a2,v⟩
 | _ => throw .badValue

def networkAt : Act (Model Float) := do
 match ← a.obj 0 with
 | .network m => return m
 | _ => throw .missingAttribute

def embedGraph : Act Obj := do
 let (vectors,attention) ← (← networkAt a).embed (← networkInput a 1)
 return .tuple [.array vectors,.array attention]

def forwardNetwork (m : Model Float) (a : Args) : Act Obj := do
 let x ← networkInput a 1
 if ← a.boolD 3 false then
  match ← a.tensors 2 with
  | [mapping,sameLabel] =>
   let (p,loss) ← m.train x mapping sameLabel
   return .tuple [.array p,.array loss]
  | _ => throw .badValue
 else return .array (← m.predict x)

def forward : Act Obj := do
 match ← a.obj 0 with
 | .part .linear fields => return .array (← (linearOf fields).apply (← a.tensor 1))
 | .part .loss _ => return .array (← Tensor.crossEntropy (← a.tensor 1) (← a.tensor 2))
 | .part .module _ => throw .notImplemented
 | .part .moduleList _ => throw .notImplemented
 | .layer l => do
  let r ← l.forward (← a.tensor 1) (← a.tensor 2)
  if ← a.boolD 3 false then return .tuple [.array r.nodes,
   .array r.attention] else return .array r.nodes
 | .network m => forwardNetwork m a
 | _ => throw .missingAttribute

def record : Act Obj := do
 match ← a.obj 0 with
 | .part .recorder fields =>
  let tag ← a.value 1
  let entry : Obj := .tuple [.data (← a.valueD 3 .none),.float (← a.float 2)]
  let kvs := match fieldOf fields "scalars" with
   | .dict kvs => kvs
   | _ => []
  let old := match kvs.find? fun e => Obj.isKey (.data tag) e.1 with
   | some (_,.list xs) => xs
   | _ => []
  let new := if kvs.any fun e => Obj.isKey (.data tag) e.1 then
   kvs.map fun e => if Obj.isKey (.data tag) e.1 then (e.1,.list (old ++ [entry])) else e
   else kvs ++ [(.data tag,.list [entry])]
  a.keep 0 (.part .recorder [("scalars",.dict new)])
  return .none
 | _ => throw .missingAttribute

def matcherAt : Act (Matcher Float) := do
 match ← a.obj 0 with
 | .matcher m => return m
 | _ => throw .missingAttribute

def givenLabels (i count : Nat) : Act Obj := do
 match ← a.obj? i with
 | none => return .floats [0.0]
 | some o => match o.toItem with
  | .data .none => return .floats [0.0]
  | x => return .list (((← x.elements?.getDM (throw .wrongType)).take count).map .ofItem)

def predictBatch : Act Obj := do
 match ← a.obj 0 with
 | .matcher m => do
  let sources ← a.graphs 1
  let queries ← a.graphs 2
  let preds ← m.predictAll sources queries (← a.intD 5 128)
  let labels := verdicts (← a.floatD 4 0.5) preds
  return .tuple [.floats preds,
   .tuple [.floats labels,← givenLabels a 3 (min sources.length queries.length)]]
 | .part .fixedPredictions fields => do
  let count := min (← a.listed 1).length (← a.listed 2).length
  match fieldOf fields "preds" with
  | .list xs =>
   a.keep 0 (.part .fixedPredictions [("preds",.list (xs.drop count))])
   return .tuple [.list (xs.take count),.tuple [.list [],.list []]]
  | _ => throw .wrongType
 | _ => throw .missingAttribute

def predict : Act Obj := do
 let m ← matcherAt a
 let preds ← m.predictAll [← a.graph 1] [← a.graph 2] 1
 match preds with
 | p :: _ =>
  let label := (verdicts (← a.floatD 4 0.5) [p]).headD 0.0
  return .tuple [.float p,.tuple [.float label,match ← a.valueD 3 .none with
   | .none => .float 0.0
   | v => .ofValue v]]
 | [] => throw .indexOutOfRange

def predictLabels : Act Obj := do
 return .array (← (← matcherAt a).labels (← a.graphs 1) (← a.graphs 2))

def predictEmbedding : Act Obj := do
 match ← a.obj 0 with
 | .part .fixedAttention fields => return .list [fieldOf fields "matrix"]
 | _ => return .array (← (← matcherAt a).embedding (← a.graphs 1) (← a.graphs 2))

end MotifMatch.Workbench
