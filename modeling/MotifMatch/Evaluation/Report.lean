import MotifMatch.Curriculum
import MotifMatch.Evaluation.Judge
import MotifMatch.Frame
import MotifMatch.PatternSet

namespace MotifMatch.Evaluation
open Run List MotifMatch.Path Network Scalar Encoding Prod MotifMatch.Normal MotifMatch.Frame Checkpoint Curriculum

def normalForms (limit : Int) : List Graph → List Graph × Except Error (List Graph)
 | [] => ([],.ok [])
 | g :: rest =>
  match form g limit false with
  | (g,.error e) => (g :: rest,.error e)
  | (g,.ok n) =>
   let (rest,r) := normalForms limit rest
   (g :: rest,r.map (n.tree :: ·))

def bigEnough (least : Int) (g : Graph) : Bool := least ≤ g.size

def normalGroups {κ : Type} (limit : Int) :
 List (κ × List Graph) → List (κ × List Graph) × Except Error (List (κ × List Graph))
 | [] => ([],.ok [])
 | (k,gs) :: rest =>
  match normalForms limit gs with
  | (gs,.error e) => ((k,gs) :: rest,.error e)
  | (gs,.ok ns) =>
   let (rest,r) := normalGroups limit rest
   ((k,gs) :: rest,r.map ((k,ns) :: ·))

def normalPatterns {κ : Type} (limit least : Int) (patterns : List (κ × List Graph)) :
 List (κ × List Graph) × Except Error (List (κ × List Graph)) :=
 let (given,r) := normalGroups limit patterns
 (given,r.map fun groups => groups.map fun e =>
  (e.1,if 0 < least then e.2.filter (bigEnough least) else e.2))

def normalSources {κ : Type} (limit least : Int) (sources : List (κ × Graph)) :
 List (κ × Graph) × Except Error (List (κ × Graph)) :=
 let (given,r) := normalForms limit (sources.map snd)
 ((sources.map fst).zip given,
  r.map fun ns => ((sources.map fst).zip ns).filter fun e => least ≤ 0 || bigEnough least e.2)

def limited {β : Type} (limit : Int) (xs : List β) : List β :=
 if 0 < limit then xs.take limit.toNat else xs

def reduceSources {κ π γ : Type} [BEq κ] [BEq π] (none : π) (patterns : Table κ π)
 (perPattern ofNone : Int)
 (sources : List (κ × γ)) : Except Error (List (κ × γ)) := do
 let groups ← sources.foldlM (fun (t : Table π (List (κ × γ))) e => do
  match patterns.get? e.1 with
  | .none => throw .missingKey
  | some p => return t.put p (t.getD p [] ++ [e])) .empty
 return (groups.entries.map fun e =>
  let kept := limited perPattern e.2
  if e.1 == none then limited ofNone kept else kept).flatten

def addNew (found : List Graph) (g : Graph) : Except Error (List Graph) := do
 if ← Graph.Embedding.anyOf (sameTexts g) found then return found else return found ++ [g]

def pairsOf {β : Type} : List β → List (β × β)
 | [] => []
 | x :: rest => rest.map (fun y => (x,y)) ++ pairsOf rest

def sharedParts (gs : List Graph) : Except Error (List Graph) :=
 (pairsOf gs).foldlM (fun found p => do addNew found (← shared p.1 p.2)) []

def boilDown (least most : Int) : Nat → List Graph → Except Error (List Graph)
 | 0, gs => .ok gs
 | n + 1, gs => do
  if (gs.length : Int) ≤ most then return gs
  let parts := (← sharedParts gs).filter (bigEnough least)
  if parts.isEmpty then return gs
  boilDown least most n parts

def commonParts (least most rounds : Int) (gs : List Graph) : Except Error (List Graph) := do
 return (← boilDown least most rounds.toNat gs).filter (bigEnough least)

def resultColumns : List String := ["gidx","dataset","record","true_type","pred_type","pred_score"]

def firstPlace (group : Table Value (List Int)) : Int := (group.values.filterMap head?).headD (-1)

def resultRow (notes : List Notes) (truths guesses scores : List Value)
 (e : (Value × Table Value (List Int)) × Nat) :
 Run (Option (List Value)) := do
 let place := firstPlace e.1.2
 if place < 0 then
  say s!"Could not find valid sample for gidx {e.1.1.text} ..."
  return none
 let row : Except Error (List Value) := do
  let m ← pick notes place
  let dataset ← note m "record_dataset"
  let record ← note m "record_scope"
  return [e.1.1,dataset,record,← pick truths e.2,← pick guesses e.2,← pick scores e.2]
 return some (← Run.ofExcept row)

def resultFrame (groups : Groups) (notes : List Notes) (truths guesses scores : List Value) :
 Run Frame := do
 let rows ← groups.entries.zipIdx.mapM (resultRow notes truths guesses scores)
 return .ofRows resultColumns rows.reduceOption

def scoreValue : Option Float → Value
 | some x => .float x
 | none => .int 0

def exampleItem (x : Example Float) : Item :=
 .dict ([(.str "source",.graph x.source),(.str "query",.graph x.query),
  (.str "pred",.float x.pred)] ++
  x.place.toList.map fun (i : Nat) => (.str "idx",.nat i))

def examplesItem (t : Examples Float) : Item :=
 .dict (t.entries.map fun e => (.tuple [.str e.1.1,.str e.1.2],exampleItem e.2))

def soughtTypes : List String :=
 ["ADAPTER","BUILDER","FACTORY_METHOD","OBSERVER","SINGLETON","DECORATOR"]

def sampleOf (s : PatternSet) (i : Nat) : Except Error Sample := do
 let j ← s.sampleAt i
 match j.notes with
 | .dict kvs => return ⟨j.source,j.query,⟨kvs.map fun e => (e.1.text,e.2)⟩⟩
 | _ => throw .wrongType

def samplesOf (s : PatternSet) : List (Except Error Sample) :=
 (range s.samples.length).map (sampleOf s)

def soughtSet : Run PatternSet := do
 let s ← PatternSet.load { queriesArePatterns := true, types := some soughtTypes, maxExamples := 30 }
 let kept ← Run.ofExcept (reduceSources Catalog.noPattern s.sourcePatterns (-1) 5 s.sources)
 let sources ← Run.ofExcept (normalSources 12 5 kept).2
 let patterns ← Run.ofExcept (normalPatterns 12 5 s.patterns).2
 Run.ofExcept { s with sources, patterns }.pairUp

def judgeSet (m : Network.Matcher Float) (s : PatternSet) : Run (Judgement Float) := do
 return (← Run.ofExcept (judgeAll (← Run.settingInt "batch_size") (samplesOf s) (.network m))).1

def confidenceSteps : List Float :=
 [0.1,0.2,0.3,0.4,0.5,0.6,0.7,0.8,0.9,0.91,0.92,0.93,0.94,0.95,0.96,0.97,0.98,0.99,0.999]

def lastStep : Float := 0.999

def numberedLabels (labels : List Value) : Except Error (List Int) :=
 labels.mapM fun l => do return ((← labelNumber l : Nat) : Int)

def reportStep (folder : String) (preds : List Float) (notes : List Notes)
 (sources instances : Groups)
 (step : Float) : Run String := do
 let verdicts ← Run.ofExcept (do
  let found ← scores sources preds notes .quantile (some step)
  instanceLabels (← types sources notes) found instances notes (0.8 : Float))
 let truths := verdicts.map Verdict.truth
 let guesses := verdicts.map Verdict.guess
 if step == lastStep then
  let frame ← resultFrame instances notes truths guesses (verdicts.map fun v => scoreValue v.score)
  writeText (join folder "result_pattern_matching_sources.csv") frame.csv
 let m : Metrics Float ← Run.ofExcept (do
  let xs ← numberedLabels guesses
  metrics xs (← numberedLabels truths))
 return lineOf ([step,m.area,m.area,m.precision,m.recall,m.harmonic,m.accuracy].map fun x =>
  (Value.float x).text)

def resultFolder (version : Value) : Run String := do
 let model ← name version none
 ensureFolder (join (← settingText "result_dir") model)

def report (version dataset : Value) : Run Unit := do
 let folder ← resultFolder version
 let m ← matcher
 assign "dataset" dataset
 let s ← soughtSet
 let judgement ← judgeSet m s
 let notes := judgement.samples.map Sample.notes
 let sources ← Run.ofExcept (bySource notes)
 let instances ← Run.ofExcept (byInstance notes)
 let lines ← confidenceSteps.mapM (reportStep folder judgement.preds notes sources instances)
 writeText (join folder "result_pattern_matching.csv")
  (String.join ("Confident,ROC AUC,PR AUC,Precision,Recall,F1-Score,Accuracy\n" :: lines))
 let (found,_) ← Run.ofExcept (examples ⟨10,30⟩ soughtTypes (judgement.samples.map Sample.source)
  (judgement.samples.map Sample.query) judgement.preds notes (.network m))
 store (join folder "matching_examples.pkl") (examplesItem found)

def settleKeys (folder name : String) : Run String := do
 let file := ofProject (join folder (← settingText name))
 assign name (.str file)
 return file

def storeFolder : Run String := do
 let store ← settingText "data_processed_dir"
 match ← datasetName with
 | .str dataset => return ofProject (join store dataset)
 | _ => throw .wrongType

def batchesOf (set : Curriculum) (size : Int) : Run (List (Batch Float)) := do
 let places ← Run.ofExcept (Arrange.batches size (List.range set.size))
 places.mapM fun batch => do
  let samples ← batch.mapM fun (i : Nat) => (set.sampleAt i : Run (Encoding.Sample Float))
  Run.ofExcept (Encoding.collate samples)

structure Setup where
 folder : String
 model : Model Float
 set : Curriculum

def setUp (version : Value) (admits : String → Bool) : Run Setup := do
 let store ← storeFolder
 let folder ← resultFolder version
 discard (settleKeys store "train_keys")
 let keys := (← keysAt (← settleKeys store "test_keys")).filter admits
 let model ← fresh
 let model ← ready model (← setting "ckpt_path")
 return ⟨folder,model,← start keys none (-1) (-1) false⟩

def cut (confidence p : Float) : Float :=
 let kept := if p < confidence then 0.0 else p
 if 0.0 < kept then 1.0 else kept

def joined (parts : List (Tensor Float)) : Except Error (Tensor Float) := Tensor.concat parts 0

def storedSteps : List Float :=
 [0.5,0.6,0.7,0.8,0.9,0.91,0.92,0.93,0.94,0.95,0.96,0.97,0.98,0.99]

def storedLine (truth guess : Tensor Float) (step : Float) : Except Error String := do
 let m ← measured false truth (guess.map (cut step)) (guess.map (cut step))
 return lineOf ([step,0.0,m.area,m.area,m.precision,m.recall,m.harmonic,m.accuracy].map fun x =>
  (Value.float x).text)

def evaluateVerdicts (version : Value) : Run Unit := do
 let s ← setUp version fun _ => true
 let batches ← batchesOf s.set (← settingInt "batch_size")
 let text ← Run.ofExcept (do
  let guesses ← batches.mapM fun b => s.model.predict (ofBatch b)
  let guess ← joined guesses
  let truth ← joined (batches.map Batch.verdicts)
  return String.join
   ("Confident,Execution Time,ROC AUC,PR AUC,Precision,Recall,F1-Score,Accuracy\n" ::
   (← storedSteps.mapM (storedLine truth guess))))
 writeText (join s.folder "result.csv") text

variable {α κ β : Type} [Scalar α] [BEq β]

def rankScores (truth : β) (guesses : List β) : List α :=
 (range 10).map (fun i => if (guesses.take (i + 1)).contains truth then one else zero) ++
  [if guesses.contains truth then one / ofNat (guesses.idxOf truth + 1) else zero]

def meanRows (rows : List (List α)) : List α :=
 (range 11).map fun (j : Nat) => Statistics.mean (rows.map fun r => r.getD j zero)

def mappingScores (truths : List (κ × β)) (guesses : κ → Except Error (List β)) :
 Except Error (List α) := do
 let rows ← truths.mapM fun e => do return rankScores e.2 (← guesses e.1)
 if rows.isEmpty then throw .badValue
 return meanRows rows

def truePairs (n : Nat) (m : Tensor Float) : List (Nat × Nat) :=
 ((range n).foldl (fun (t : Table Nat Nat) i =>
  (range n).foldl (fun (t : Table Nat Nat) j =>
   if i < j && 0.0 < m.at2 n i j then t.put i j else t) t) .empty).entries

def pairWeights (n : Nat) (a : Tensor Float) : Table Nat (Table Nat Float) :=
 (range n).foldl (fun (t : Table Nat (Table Nat Float)) i =>
  (range n).foldl (fun (t : Table Nat (Table Nat Float)) j =>
   let w := a.at2 n i j
   if 0.0 < w then
    let (x,y) := if i < j then (i,j) else (j,i)
    let row := t.getD x .empty
    t.put x (row.put y (match row.get? y with
     | some v => (v + w) / 2.0
     | none => w))
   else t) t) .empty

def rankedPartners (row : Table Nat Float) : List Nat :=
 (row.entries.mergeSort fun a b => !(a.2 < b.2)).map fst

def sampleScores (n : Nat) (mapping attention : Tensor Float) : Except Error (List Float) :=
 let weights := pairWeights n attention
 mappingScores (truePairs n mapping) fun i => .ok (rankedPartners (weights.getD i .empty))

def batchScores (m : Model Float) (b : Batch Float) : Except Error (List (List Float)) := do
 let attention := (← m.embed (ofBatch b)).2
 let n := b.mapping.shape.getD 1 0
 (range (b.mapping.shape.headD 0)).mapM fun (i : Nat) => do
  sampleScores n (← b.mapping.slice i) (← attention.slice i)

def mappingHeader : String :=
 "Time,Top1-Acc,Top2-Acc,Top3-Acc,Top4-Acc,Top5-Acc,Top6-Acc,Top7-Acc,Top8-Acc,Top9-Acc,Top10-Acc,MRR\n"

def namesMatch (key : String) : Bool := key.endsWith "iso_test"

def evaluateMappings (version : Value) : Run Unit := do
 let s ← setUp version namesMatch
 let batches ← batchesOf s.set (← settingInt "batch_size")
 let rows ← Run.ofExcept (batches.mapM (batchScores s.model))
 let start := mappingHeader ++ "0.000000,"
 let file := join s.folder "result_matching.csv"
 match rows.flatten with
 | [] => do
  writeText file start
  throw .wrongType
 | rows => writeText file (start ++ lineOf ((meanRows rows).map fun x => (Value.float x).text))

end MotifMatch.Evaluation
