import MotifMatch.Evaluation.Report

namespace MotifMatch.Training
open Evaluation Run Network Checkpoint MotifMatch.Path Curriculum Encoding

structure Pass where
 losses : List Float
 guess : Tensor Float
 truth : Tensor Float

def batchLoss (m : Model Float) (b : Batch Float) : Except Error (Float × Tensor Float) := do
 let (p,attentionLoss) ← m.train (ofBatch b) b.mapping b.sameLabel
 let loss ← (← p.crossEntropy b.verdicts).plus attentionLoss
 return (loss.entry 0,p)

def pass (m : Model Float) (batches : List (Batch Float)) : Except Error Pass := do
 let results ← batches.mapM (batchLoss m)
 return {
   losses := results.map Prod.fst
   guess := ← joined (results.map Prod.snd)
   truth := ← joined (batches.map Batch.verdicts) }

def threshold : Float := 0.75

def Pass.loss (p : Pass) : Float := Statistics.mean p.losses

def Pass.score (p : Pass) : Float := area p.guess

def Pass.hitRate (p : Pass) : Except Error Float := accuracy p.truth (p.guess.map (cut threshold))

def logHeader : String :=
 "epoch,train_losses,test_losses,train_acc,test_acc,train_roc,test_roc,train_time,test_time\n"

def logLine (epoch : Nat) (train test : Pass) : Except Error String := do
 let trainHits ← train.hitRate
 let testHits ← test.hitRate
 return Frame.lineOf (toString epoch ::
  [train.loss,test.loss,trainHits,testHits,train.score,test.score,0.0,0.0].map (Decimal.fixed 3))

structure Course where
 set : Curriculum
 best : Float := 0.0
 idle : Nat := 0

structure Plan where
 model : Model Float
 testSet : Curriculum
 batchSize : Int
 growing : Bool
 growthSteps : Int
 logFile : String
 checkpoint : String

structure Epoch where
 limit : Int
 model : Model Float
 score : Float

def parameters (m : Model Float) : Item := .dict (m.named.map fun e => (.str e.1,.array e.2))

def grow (p : Plan) (number : Nat) (c : Course) : Run Course :=
 if p.growthSteps = 0 then throw .divisionByZero
 else if Int.fmod (number + 1) p.growthSteps != 0 then return c
 else do
  let set ← draw (c.set.raise 1)
  return if set.limit < 0 then { set } else { c with set }

def trial (p : Plan) (number : Nat) (c : Course) : Run (Model Float × Float) := do
 let trainBatches ← batchesOf c.set p.batchSize
 let testBatches ← batchesOf p.testSet p.batchSize
 let (train,test) ← Run.ofExcept (do
  let train ← pass p.model trainBatches
  return (train,← pass p.model testBatches))
 Run.appendText p.logFile (← Run.ofExcept (logLine number train test))
 return (p.model,test.score)

def settle (p : Plan) (number : Nat) (c : Course) (m : Model Float) (score : Float) :
 Run (Course × Bool) := do
 let growing := p.growing && 0 < c.set.limit
 let c ← (if c.best < score then do
  store p.checkpoint (parameters m)
  return { c with best := score, idle := 0 }
  else return if growing then c else { c with idle := c.idle + 1 } : Run Course)
 if growing then return (← grow p number c,true) else return (c,c.idle < 3)

def epochs (p : Plan) (trial : Nat → Course → Run (Model Float × Float)) :
 Nat → Nat → Course → List Epoch → Run (List Epoch)
 | 0, _, _, log => return log
 | n + 1, number, c, log => do
  let (m,score) ← trial number c
  let log := ⟨c.set.limit,m,score⟩ :: log
  let (c,goOn) ← settle p number c m score
  if goOn then epochs p trial n (number + 1) c log else return log

def sizeSetting (name : String) : Run Int := do
 let n ← settingInt name
 return if n < 0 then -1 else n

def train : Run Int := do
 seed (← settingInt "seed")
 let store ← storeFolder
 let trainFile := ofProject (join store (← settingText "train_keys"))
 let testFile := ofProject (join store (← settingText "test_keys"))
 let version := max (← latest none) 0 + 1
 let name ← name (.int version) none
 discard (ensureFolder (← folderOf name))
 let dataset ← match ← datasetName with
  | .str s => pure s
  | _ => throw .wrongType
 let logFolder ← ensureFolder (join (← settingText "log_dir") dataset)
 let trainKeys ← keysAt trainFile
 let testKeys ← keysAt testFile
 let model ← fresh
 let model ← draw model.redraw
 let growthSteps ← settingInt "curriculum_training_steps"
 let growing := 0 < growthSteps
 let levels ← (if growing then some <$> storedLevels true else pure none)
 let trainSize ← sizeSetting "max_train_data"
 let testSize ← sizeSetting "max_test_data"
 let set ← start trainKeys levels (if growing then 1 else -1) trainSize true
 let testSet ← start testKeys none (-1) testSize true
 let batchSize ← settingInt "batch_size"
 let logFile := join logFolder "log_TS.csv"
 writeText logFile logHeader
 saveSettings name
 let plan : Plan := {
   model, testSet, batchSize, growing, growthSteps, logFile
   checkpoint := ← parametersOf name }
 discard (epochs plan (trial plan) (← settingInt "epoch").toNat 0 { set } [])
 return version

def writeEvaluation (version : Value) : Run Unit := do
 loadSettings (← name version none)
 evaluateVerdicts version
 evaluateMappings version

end MotifMatch.Training

namespace MotifMatch.Detection
open Evaluation Run Checkpoint

def ranking (scores : Table Value Float) : List (Value × Value) :=
 let sorted := scores.entries.mergeSort fun a b => ascending b.2 a.2
 (sorted.filter fun e => 0.5 ≤ e.2).map fun e => (e.1,.float e.2)

def sayResult (notes : List Notes) (found : Scores Float) (e : Value × Table Value (List Int)) :
 Run Unit := do
 let place := firstPlace e.2
 if place < 0 then say s!"Could not find valid sample for gidx {e.1.text} ..."
 else
  let line : Except Error String := do
   let m ← pick notes place
   let dataset ← note m "record_dataset"
   let scope ← note m "record_scope"
   let scores ← Evaluation.found found e.1
   return dataset.text ++ "::" ++ scope.text ++ " = " ++ (Value.dict (ranking scores)).text
  Run.say (← Run.ofExcept line)

def detect (model dataset patterns : Value) : Run Unit := do
 assign "dataset" model
 let version ← latest none
 loadSettings (← name (.int version) none)
 assign "pattern_dataset" patterns
 assign "test_data" (.bool true)
 assign "batch_size" (.int 128)
 let m ← Network.matcher
 assign "dataset" dataset
 let s ← soughtSet
 let judgement ← judgeSet m s
 let notes := judgement.samples.map Sample.notes
 let groups ← Run.ofExcept (bySource notes)
 let found ← Run.ofExcept (scores groups judgement.preds notes .quantile (some 0.9))
 say s!"-------- DETECTION RESULTS [{dataset.text}] --------"
 groups.entries.forM (sayResult notes found)

end MotifMatch.Detection
