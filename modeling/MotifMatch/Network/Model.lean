import MotifMatch.Arrange
import MotifMatch.Encoding.Sample
import MotifMatch.Network.Layer
import MotifMatch.Session

namespace MotifMatch.Network
open Scalar Run Tensor Linear Encoding
variable {α : Type} [Scalar α]

inductive Branch where
 | inner
 | outer
 | both
 deriving DecidableEq, Repr, Inhabited

def Branch.ofText : String → Branch
 | "left" => .inner
 | "right" => .outer
 | _ => .both

inductive Tactic where
 | fixed (hops : Nat)
 | stepwise
 | leaping
 deriving DecidableEq, Repr

def Tactic.hops : Tactic → Nat → Nat
 | .fixed h, _ => h
 | .stepwise, i => i + 1
 | .leaping, i => 2 * i + 1

structure Model (α : Type) where
 branch : Branch
 layers : List (Layer α)
 dense : List (Linear α)
 entry : Linear α
 lossScale : α
 deriving Inhabited

structure Plan (α : Type) where
 layerCount : Nat
 layerWidth : Nat
 denseCount : Nat
 denseWidth : Nat
 branch : Branch
 tactic : Tactic
 heads : Nat
 directed : Bool
 embedding : Nat
 lossScale : α

namespace Model

def initialLayers (p : Plan α) : Nat → Nat → Draw (List (Layer α))
 | 0, _ => return []
 | n + 1, i => do
  let l ← Layer.initial p.layerWidth p.layerWidth (p.tactic.hops i) p.heads (some .mean) p.directed
  return l :: (← initialLayers p n (i + 1))

def initialDense (p : Plan α) : Nat → Nat → Draw (List (Linear α))
 | 0, _ => return []
 | n + 1, i => do
  let l ← (if i = 0 then initial p.layerWidth p.denseWidth true
   else if n = 0 then initial p.denseWidth 1 true
   else initial p.denseWidth p.denseWidth true)
  return l :: (← initialDense p n (i + 1))

def initial (p : Plan α) : Draw (Model α) := do
 let layers ← initialLayers p p.layerCount 0
 let dense ← initialDense p p.denseCount 0
 let entry ← Linear.initial (2 * p.embedding) p.layerWidth false
 return ⟨p.branch,layers,dense,entry,p.lossScale⟩

def named (m : Model α) : List (String × Tensor α) :=
 m.layers.zipIdx.flatMap (fun e => e.1.named.map fun p => (s!"gconv1.{e.2}." ++ p.1,p.2)) ++
  m.dense.zipIdx.flatMap (fun e => e.1.named.map fun p => (s!"FC.{e.2}." ++ p.1,p.2)) ++
  m.entry.named.map fun p => ("embede." ++ p.1,p.2)

def restoreAll {β : Type} (one : β → List (Tensor α) → β × List (Tensor α)) :
 List β → List (Tensor α) → List β × List (Tensor α)
 | [], ts => ([],ts)
 | b :: rest, ts =>
  let (b,ts) := one b ts
  let (rest,ts) := restoreAll one rest ts
  (b :: rest,ts)

def restore (m : Model α) (ts : List (Tensor α)) : Model α :=
 let (layers,ts) := restoreAll Layer.restore m.layers ts
 let (dense,ts) := restoreAll Linear.restore m.dense ts
 { m with layers, dense, entry := (m.entry.restore ts).1 }

structure Input (α : Type) where
 features : Tensor α
 inner : Tensor α
 outer : Tensor α
 masks : Tensor α

def step (m : Model α) (x : Input α) (h : Tensor α) (l : Layer α) : Except Error (Attended α) := do
 match m.branch with
 | .inner =>
  let a ← l.forward h x.inner
  return { a with nodes := a.nodes.map fun v => zero - -v }
 | .outer => l.forward h x.outer
 | .both =>
  let one ← l.forward h x.inner
  let two ← l.forward h x.outer
  return { two with nodes := ← two.nodes.minus one.nodes }

def passLayers (m : Model α) (x : Input α) : List (Layer α) → Tensor α → Option (Tensor α) →
 Except Error (Tensor α × Option (Tensor α))
 | [], h, att => return (h,att)
 | l :: rest, h, _ => do
  let a ← m.step x h l
  m.passLayers x rest a.nodes (some a.attention)

def pooled (h masks : Tensor α) : Except Error (Tensor α) := do
 let marked ← h.times (← masks.expand (-1))
 (← marked.sum (some [1]) false).over (← masks.sum (some [1]) true)

def embed (m : Model α) (x : Input α) : Except Error (Tensor α × Tensor α) := do
 let (h,attention) ← m.passLayers x m.layers (← m.entry.apply x.features) none
 let vectors ← pooled h x.masks
 match attention with
 | none => throw .wrongType
 | some a => return (vectors,← a.normalize (ofInt 2) 1 tiny)

def passDense : List (Linear α) → Tensor α → Except Error (Tensor α)
 | [], h => .ok h
 | [l], h => l.apply h
 | l :: rest, h => do passDense rest ((← l.apply h).map relu)

def probabilities (m : Model α) (vectors : Tensor α) : Except Error (Tensor α) := do
 let out := (← passDense m.dense vectors).map sigmoid
 return ⟨[out.count],out.data⟩

def predict (m : Model α) (x : Input α) : Except Error (Tensor α) := do
 m.probabilities (← m.embed x).1

def pull (attention target : Tensor α) : Except Error (Tensor α) := do
 let powers := (← attention.times target).map fun v => Tensor.power (-v)
 let chosen ← powers.zipWith (fun p t => if Scalar.eq t Scalar.one then p else Scalar.zero) target
 chosen.sum (some [1,2]) false

def attentionLoss (m : Model α) (attention mapping sameLabel : Tensor α) :
 Except Error (Tensor α) := do
 let near ← pull attention mapping
 let far ← pull attention (← sameLabel.minus mapping)
 let ratio ← near.over (far.map fun v => v + one)
 let total ← ratio.sum (some [0]) false
 let count : α := ofNat (attention.shape.headD 0)
 return total.map fun v => v * m.lossScale / (if eq count zero then tiny else count)

def train (m : Model α) (x : Input α) (mapping sameLabel : Tensor α) :
 Except Error (Tensor α × Tensor α) := do
 let (vectors,attention) ← m.embed x
 let p ← m.probabilities vectors
 return (p,← m.attentionLoss attention mapping sameLabel)

end Model

def spreadAnew (t : Tensor α) : Draw (Tensor α) := do
 if t.rank = 0 then return t
 let fanIn := if 1 < t.rank then t.shape.getLast?.getD 0 else t.count
 let fanOut := t.shape.headD 0
 let spread : α := sqrt (ofInt 2 / ofNat (max 1 (fanIn + fanOut)))
 let draws : Array α ← Draw.drawCentred t.count #[]
 return ⟨t.shape,draws.map fun x => x * spread⟩

def redrawn (ts : List (Tensor α)) : Draw (List (Tensor α)) :=
 ts.mapM fun t => if t.rank = 1 then return t else spreadAnew t

def Model.redraw (m : Model α) : Draw (Model α) := do
 return m.restore (← redrawn (m.named.map Prod.snd))

def Layer.redraw (l : Layer α) : Draw (Layer α) := do
 return (l.restore (← redrawn (l.named.map Prod.snd))).1

def ofBatch (b : Batch α) : Model.Input α := ⟨b.features,b.inner,b.outer,b.masks⟩

variable {α : Type} [Scalar α]

def settingNat (name : String) : Run Nat := return (← settingInt name).toNat

def settingScalar (name : String) : Run α := do
 match (← setting name).toScalar? with
 | some x => return x
 | none => throw .wrongType

def tacticOf : Run Tactic := do
 match ← shownSetting "tactic" with
 | "static" => return .fixed (← settingNat "nhop")
 | "cont" => return .stepwise
 | "jump" => return .leaping
 | other => throw (.unknownTactic other)

def planOf : Run (Plan α) := do
 let tactic ← tacticOf
 return {
   layerCount := ← settingNat "n_graph_layer"
   layerWidth := ← settingNat "d_graph_layer"
   denseCount := ← settingNat "n_FC_layer"
   denseWidth := ← settingNat "d_FC_layer"
   branch := .ofText (← shownSetting "branch")
   tactic
   heads := ← settingNat "nhead"
   directed := ← flag "directed"
   embedding := ← settingNat "embedding_dim"
   lossScale := ← settingScalar "al_scale" }

def fresh : Run (Model α) := do draw (Model.initial (← planOf))

def ready (m : Model α) (checkpoint : Value) : Run (Model α) := do
 match checkpoint with
 | .none => draw m.redraw
 | .str path => do
  discard (fetch (Path.ofProject path))
  return m
 | _ => throw .wrongType

structure Matcher (α : Type) where
 model : Model α
 width : Value
 anchored : Bool
 deriving Inhabited

def matcher : Run (Matcher α) := do
 let model ← fresh
 let model ← ready model (← setting "ckpt_path")
 return ⟨model,← setting "embedding_dim",← flag "anchored"⟩

namespace Matcher

def batch (m : Matcher α) (queries sources : List Graph) : Except Error (Model.Input α) := do
 let samples ← (queries.zip sources).mapM fun p =>
  encode p.1 p.2 m.width m.anchored (.ok []) .none false
 return ofBatch (← collate samples)

def labels (m : Matcher α) (queries sources : List Graph) : Except Error (Tensor α) := do
 m.model.predict (← m.batch queries sources)

def embedding (m : Matcher α) (queries sources : List Graph) : Except Error (Tensor α) := do
 return (← m.model.embed (← m.batch queries sources)).2

def predictAll (m : Matcher α) (sources queries : List Graph) (bulk : Int) :
 Except Error (List α) := do
 let size := min sources.length queries.length
 let sourceBulks ← Arrange.batches bulk (sources.take size)
 let queryBulks ← Arrange.batches bulk (queries.take size)
 let parts ← (queryBulks.zip sourceBulks).mapM fun p => do
  return (← m.labels p.1 p.2).data.toList
 return parts.flatten

end Matcher

def verdicts (confidence : α) (ps : List α) : List α := ps.map fun p => mark (lt confidence p)

end MotifMatch.Network
