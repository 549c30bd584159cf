import MotifMatch.Import.Refresh
import MotifMatch.Training

namespace MotifMatch.Scripts
open Import Run Checkpoint Evaluation

inductive Script where
 | importRecords
 | importDatasets
 | generate
 | synthesize
 | prepare
 | refresh
 | train
 | evaluateVerdicts
 | evaluateMappings
 | evaluatePatterns
 | detect
 deriving DecidableEq, Repr

def assignAll (kvs : List (String × Value)) : Run Unit := kvs.forM fun e => assign e.1 e.2

def loadLatest : Run Value := do
 let version ← latest none
 loadSettings (← name (.int version) none)
 return .int version

def latestUndirected : Run Value := do
 assignAll [("dataset",.str "dpdf"),("directed",.bool false),("anchored",.bool true)]
 let version ← loadLatest
 assign "batch_size" (.int 128)
 return version

def body : Script → Run Unit
 | .importRecords => throw .missingAttribute
 | .importDatasets => importDatasets
 | .generate => Corpus.generateDataset
 | .synthesize => Corpus.synthesizeDataset
 | .prepare => Preparation.process
 | .refresh => do
  assignAll [
   ("dataset",.str "pmart_all"),("import_prefix",.str "p_mart"),("seed",.int 42),
    ("inference",.bool true),
   ("split_data",.bool false),("induced",.bool true),("import_subgraph_radius",.int 5),
   ("import_subgraph_max",.int 42),("import_subgraph_min",.int 7),("num_subgraphs",.int 2),
   ("real",.bool true),("testonly",.bool false),("directed",.bool false),("max_subgraph",.int (-1))]
  cleanUp
  refresh
 | .train => do
  assignAll [
   ("dataset",.str "dpdf"),("directed",.bool false),("anchored",.bool true),("tactic",.str "jump"),
   ("batch_size",.int 128),("max_test_data",.int 50000),("max_train_data",.int 500000),
   ("curriculum_training_steps",.int 1),("nhead",.int 1),("embedding_dim",.int 7),("seed",.int 23)]
  Training.writeEvaluation (.int (← Training.train))
 | .evaluateVerdicts => do evaluateVerdicts (← latestUndirected)
 | .evaluateMappings => do evaluateMappings (← latestUndirected)
 | .evaluatePatterns => do
  assignAll [("dataset",.str "CPG_augm_large"),("directed",.bool true),("anchored",.bool true)]
  let version ← loadLatest
  assignAll [
   ("pattern_dataset",.str "dpdf"),("normalized",.bool true),("test_data",.bool true),
   ("batch_size",.int 128),("num_workers",.int 1)]
  report version (.str "pmart_all")
 | .detect => do
  let name ← setting "name"
  assignAll [("import_prefix",.str ("custom-" ++ name.text)),("dataset",name),
   ("num_subgraphs",.int 2)]
  importRecords
  cleanUp
  refresh
  let patterns ← setting "pattern_dataset"
  Detection.detect (← setting "model") name patterns

def run (s : Script) (words : List String) : Run Unit := do
 let own ← Settings.ofCommandLine words
 let before := (← get).settings
 modify fun session => { session with settings := own }
 try
  body s
  modify fun session => { session with settings := before }
 catch e => do
  modify fun session => { session with settings := before }
  throw e

end MotifMatch.Scripts
