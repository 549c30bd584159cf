import MotifMatch.Training
import MotifMatch.Workbench.Datasets

namespace MotifMatch.Workbench
open Evaluation
variable (a : Args)

def commonParts : Act Obj := do
 let (given,r) := normalGroups (← a.ceilingD 2 6) (← graphGroups a 0)
 a.keep 0 (Obj.dictOf .data .graphs given)
 let groups ← r
 let least ← a.intD 1 8
 let most ← a.intD 3 5
 let rounds ← a.intD 4 10
 let parts ← groups.mapM fun e => do
  return (e.1,← Evaluation.commonParts least most rounds e.2)
 return Obj.dictOf .data .graphs parts

def commonPartsOfType : Act Obj := do
 return .graphs (← Evaluation.commonParts (← a.intD 1 8) (← a.intD 2 5) (← a.intD 3 10)
  (← a.graphs 0))

def normalPatterns : Act Obj := do
 let (given,r) := Evaluation.normalPatterns (← a.ceilingD 1 8) (← a.intD 2 (-1)) (← graphGroups a 0)
 a.keep 0 (Obj.dictOf .data .graphs given)
 return Obj.dictOf .data .graphs (← r)

def normalSources : Act Obj := do
 let (given,r) := Evaluation.normalSources (← a.ceilingD 1 8) (← a.intD 2 (-1)) (← a.graphEntries 0)
 a.keep 0 (Obj.dictOf .data .graph given)
 return Obj.dictOf .data .graph (← r)

def reduceSources : Act Obj := do
 let kept ← Evaluation.reduceSources noPattern ⟨← a.valueEntries 1⟩ (← a.intD 2 (-1))
  (← a.intD 3 (-1))
  (← a.graphEntries 0)
 return Obj.dictOf .data .graph kept

def notesObj (m : Notes) : Obj := Obj.dictOf .str .ofValue m.entries

def notesOf : Value → Except Error Notes
 | .dict kvs => .ok ⟨kvs.map fun e => (e.1.text,e.2)⟩
 | _ => .error .wrongType

def allNotes (i : Nat) : Act (List Notes) := do
 (← a.values i).mapM (notesOf ·)

def weighSample : Act Obj := do
 return .tuple [.graphs [← a.graph 0],.graphs [← a.graph 1],
  .list [notesObj (withWeight (← a.attrs 2))]]

def judgeOf : Obj → Except Error (Judge Float)
 | .matcher m => .ok (.network m)
 | .part .fixedPredictions fields => match (fieldOf fields "preds").value? with
  | some (.list xs) => do return .prepared (← xs.mapM floatOf)
  | _ => .error .wrongType
 | _ => .error .missingAttribute

def keepJudge (i : Nat) : Judge Float → Act Unit
 | .prepared left => a.keep i (.part .fixedPredictions [("preds",.floats left)])
 | .network _ => return

def listedSample (o : Obj) : Except Error Sample := do
 match o.toItem.elements? with
 | some [source,query,notes] => do
  let v ← notes.value?.getDM (throw .wrongType)
  return ⟨← graphOf source,← graphOf query,← notesOf v⟩
 | some _ => throw .badValue
 | none => throw .wrongType

def samplesIn : Obj → Except Error (List (Except Error Sample))
 | .patternSet s => .ok (samplesOf s)
 | .part .sampleList fields => match fieldOf fields "samples" with
  | .list xs => .ok (xs.map listedSample)
  | _ => .error .wrongType
 | _ => .error .missingAttribute

def judgeSamples : Act Obj := do
 let judge ← judgeOf (← a.obj 0)
 let samples ← samplesIn (← a.obj 1)
 let collect ← a.boolD 2 false
 let size ← Run.settingInt "batch_size"
 let (j,judge) ← judgeAll size samples judge
 keepJudge a 0 judge
 let graphs (f : Sample → Graph) : Obj := .graphs (if collect then j.samples.map f else [])
 return .tuple [.floats j.preds,.list (j.samples.map fun s => notesObj s.notes),graphs Sample.source,
  graphs Sample.query]

def placesObj (g : Groups) : Obj :=
 Obj.dictOf .data (fun t => Obj.dictOf .data .ints t.entries) g.entries

def instanceOfSource : Act Obj := do
 return Obj.dictOf .data .ofValue (← Evaluation.instanceOfSource (← allNotes a 0)).entries

def floatsAt (i : Nat) : Act (List Float) := do (← a.values i).mapM (floatOf ·)

def aggregate (how : Aggregation) : Command := fun a => do
 return .float (← how.apply (← a.float? 1) (← floatsAt a 0))

def aggregateMean : Command := aggregate .mean
def aggregateLargest : Command := aggregate .largest
def aggregateQuantile : Command := aggregate .quantile

def groupsAt (i : Nat) : Act Groups := do
 let outer ← (← a.valueEntries i).mapM fun e => do
  match e.2 with
  | .dict kvs =>
   let inner ← kvs.mapM fun x => do
    match x.2 with
    | .list places => return (x.1,← places.mapM (intOf ·))
    | _ => throw .wrongType
   return (e.1,(⟨inner⟩ : Table Value (List Int)))
  | _ => throw .missingAttribute
 return ⟨outer⟩

def scoresObj (s : Scores Float) : Obj :=
 Obj.dictOf .data (fun t => Obj.dictOf .data .float t.entries) s.entries

def sourceScores : Act Obj := do
 let how ← (match ← a.obj? 3 with
  | some (.aggregation h) => return h
  | some _ => throw .wrongType
  | none => return .mean : Act Aggregation)
 return scoresObj (← scores (← groupsAt a 0) (← floatsAt a 1) (← allNotes a 2) how (← a.float? 4))

def sourceTypes : Act Obj := do
 return Obj.dictOf .data .ofValue (← types (← groupsAt a 0) (← allNotes a 1)).entries

def scoresAt (i : Nat) : Act (Scores Float) := do
 let outer ← (← a.valueEntries i).mapM fun e => do
  match e.2 with
  | .dict kvs =>
   let inner ← kvs.mapM fun x => do return (x.1,← floatOf x.2)
   return (e.1,(⟨inner⟩ : Table Value Float))
  | _ => throw .missingAttribute
 return ⟨outer⟩

def verdictsObj (vs : List (Verdict Float)) : Obj :=
 .tuple [.list (vs.map fun v => .ofValue v.truth),.list (vs.map fun v => .ofValue v.guess),
  .list (vs.map fun v => .data (scoreValue v.score))]

def sourceLabels : Act Obj := do
 return verdictsObj (← labels ⟨← a.valueEntries 0⟩ (← scoresAt a 1) (← a.floatD 2 0.5)
  (← a.intD 3 1))

def labelsOfInstances : Act Obj := do
 return verdictsObj (← instanceLabels ⟨← a.valueEntries 0⟩ (← scoresAt a 1) (← groupsAt a 2)
  (← allNotes a 3) (← a.floatD 4 0.5))

def numberLabels : Act Obj := do
 let guesses ← numberedLabels (← a.values 1)
 let truths ← numberedLabels (← a.values 0)
 return .tuple [.ints guesses,.ints truths]

def measure : Act Obj := do
 let ints (i : Nat) : Act (List Int) := do (← a.values i).mapM (intOf ·)
 let guesses ← ints 0
 let truths ← ints 1
 let m : Metrics Float ← metrics guesses truths
 return .record [("acc",.float m.accuracy),("pre",.float m.precision),("rec",.float m.recall),
  ("f1s",.float m.harmonic),("roc",.float m.area),("avp",.float m.area)]

def resultTable : Act Obj := do
 return .frame (← resultFrame (← groupsAt a 0) (← allNotes a 1) (← a.values 2) (← a.values 3)
  (← a.values 4))

def matchingExamples : Act Obj := do
 let judge ← judgeOf (← a.obj 1)
 let limits : SizeLimits := { most := ← a.intD 6 (-1), least := ← a.intD 7 (-1) }
 let (found,judge) ← examples limits (← a.texts 0) (← a.graphs 2) (← a.graphs 3) (← floatsAt a 4)
  (← allNotes a 5) judge
 keepJudge a 1 judge
 let result := examplesItem found
 if let some path := ← a.str? 8 then Run.store path result
 return .ofItem result

def mappingScores : Act Obj := do
 let truths ← a.valueEntries 0
 let guesses : Table Value Value := ⟨← a.valueEntries 1⟩
 let guessesOf (k : Value) : Except Error (List Value) := do
  match ← found guesses k with
  | .list xs => return xs
  | .tuple xs => return xs
  | _ => throw .wrongType
 return .array (.vector (← Evaluation.mappingScores truths guessesOf))

def detectPatterns : Act Obj := effect do
 Detection.detect (← a.value 0) (← a.value 1) (← a.value 2)

end MotifMatch.Workbench
