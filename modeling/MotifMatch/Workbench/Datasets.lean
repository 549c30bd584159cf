import MotifMatch.Preparation.Process
import MotifMatch.Workbench.Networks
import MotifMatch.Workbench.Sources

namespace MotifMatch.Workbench
open Obj Encoding Curriculum Prod Preparation
variable (a : Args)

abbrev OneHot := Value → Value → Value → Bool → Except Error (List Value)

def oneHotBy (rule : OneHot) : Command := fun a => do
 return .list ((← rule (← a.value 0) (← a.value 1) (← a.value 2) (← a.boolD 3 true)).map .data)

def oneHot : Command := oneHotBy Encoding.oneHot

def strictOneHot : Command := oneHotBy Encoding.strictOneHot

def featureBy (rule : OneHot) : Command := fun a => do
 return .list ((← nodeVector rule (← a.graph 0) (← a.node 1) (← a.value 2)
  (← a.boolD 3 true)).map .data)

def feature : Command := featureBy Encoding.oneHot

def strictFeature : Command := featureBy Encoding.strictOneHot

def indicators : Act Obj := do
 return .list ((← Encoding.indicators (← a.value 0) (← a.value 1) (← a.values 1)).map .bool)

def indicatorsOrLast : Act Obj := do
 return .list ((← Encoding.indicatorsOrLast (← a.value 0) (← a.values 1)).map .bool)

def featureMatrix : Act Obj := do
 return .array (← nodeMatrix (← a.graph 0) (← a.value 1) (← a.boolD 2 true))

def sampleObj (s : Sample Float) : Obj :=
 .record [
  ("H",.array s.features),("A1",.array s.inner),("A2",.array s.outer),("Y",.int s.verdict),
  ("V",.array s.mask),("key",.ofValue s.key),("mapping",.array s.mapping),
   ("same_label",.array s.sameLabel)]

def encodeArgs : Act (Sample Float) := do
 let query ← a.graph 0
 let source ← a.graph 1
 let pairs ← a.valueD 4 .none
 encode query source (← a.value 2) (← a.boolD 3 true) (pairsOf pairs)
  (← a.valueD 5 .none) (← a.boolD 6 false)

def sampleNames : List String :=
 ["query","source","embedding_dim","anchored","mapping","key","is_custom_key"]

def batchObj (b : Batch Float) : Obj :=
 .tuple [.array b.features,.array b.inner,.array b.outer,.array b.mapping,.array b.sameLabel,
  .array b.verdicts,.array b.masks,.list (b.keys.map .ofValue)]

def collate : Act Obj := do
 match ← a.obj 0 with
 | .list xs =>
  let samples ← xs.mapM fun x => do
   match x with
   | .dict kvs => encodeArgs (sampleNames.map fun name =>
    (kvs.find? fun e => isKey (.str name) e.1).map snd)
   | _ => throw .wrongType
  return batchObj (← Encoding.collate samples)
 | _ => throw .wrongType

def pairsObj (ps : List (Int × Int)) : Obj := .list (ps.map fun p => .tuple [.int p.1,.int p.2])

def surveyGraphs : Act Obj := do
 let text ← Run.readText (← a.str 0)
 let s ← Listing.survey (← Run.flag "directed") (← a.intD 1 (-1)) text
 return .tuple [graphsObj s.graphs,dictOf .int .nat s.sizes.entries,
  dictOf .int .float s.degrees.entries,
  s.anchor.elim .none .int]

def readPairs : Act Obj := do
 let text ← Run.readText (← a.str 0)
 return dictOf .int pairsObj (← Listing.pairs (← a.intD 1 (-1)) text).entries

def markAnchors : Act Obj := effect do
 let graphs ← a.graphEntries 0
 let (marked,r) := markAll (← a.value 1) (← a.valueEntries? 2) graphs
 a.keep 0 (dictOf .data .graph marked)
 r

def loadBucket : Act Obj := do
 let b ← load (← a.str 0) (← a.value 1) (← a.intD 2 (-1))
 let graphs := dictOf .int .graph
 return .tuple [.graph b.source,graphs b.iso,graphs b.non,dictOf .int pairsObj b.isoPairs.entries,
  dictOf .int pairsObj b.nonPairs.entries,.nat b.size,dictOf .int .nat b.isoSizes.entries,
  dictOf .int .nat b.nonSizes.entries,.float b.degree,dictOf .int .float b.isoDegrees.entries,
  dictOf .int .float b.nonDegrees.entries]

def storeSamples : Act Obj := do
 return .strs (← storeAll (← a.str 0) (← a.values 1) (← a.str 2) (← a.strD 3 "")
  (← a.intD 4 (-1)))

def newCurriculum : Act Obj := do
 let levels ← (← a.valueEntries? 2).mapM fun kvs => kvs.mapM fun e => do
  match e.2 with
  | .list xs => return (← intOf e.1,xs.map Value.text)
  | _ => throw .wrongType
 let c ← start (← a.texts 0) (levels.map fun kvs => ⟨kvs⟩) (← a.intD 1 (-1)) (← a.intD 3 (-1))
  (← a.boolD 4 true)
 return .curriculum c

def curriculumAt : Act Curriculum := do
 match ← a.obj 0 with
 | .curriculum c => return c
 | _ => throw .missingAttribute

def balanceKeys : Act Obj := do
 let c ← curriculumAt a
 return .strs (← balance c.size (← a.texts 1) (← a.boolD 2 true))

def keysByClass : Act Obj := do
 let c ← curriculumAt a
 return .tuple [.strs (c.keys.filter isIso),.strs (c.keys.filter isNon)]

def raiseLimit : Act Obj := effect do
 let c ← curriculumAt a
 a.keep 0 (.curriculum (← c.raise (← a.intD 1 1)))

def liftLimit : Act Obj := effect do
 let c ← curriculumAt a
 a.keep 0 (.curriculum (← c.lift))

def keyAt : Act Obj := do return .str (← (← curriculumAt a).keyAt (← a.int 1))

def newPatternSet : Act Obj := do
 let types ← (match ← a.valueD 1 .none with
  | .none => return none
  | _ => return some (← a.texts 1) : Act (Option (List String)))
 return .patternSet (← PatternSet.load {
   queriesArePatterns := ← a.boolD 0 false
   types
   maxSources := ← a.intD 2 (-1)
   maxExamples := ← a.intD 3 10
   relation := ← a.intD 4 1 })

def patternSetAt : Act PatternSet := do
 match ← a.obj 0 with
 | .patternSet s => return s
 | _ => throw .missingAttribute

def sourcesObj (s : PatternSet) : Obj := dictOf .int .graph s.sources

def patternsObj (s : PatternSet) : Obj := dictOf .str .graphs s.patterns

def byNumber (t : Table Int String) : Obj := dictOf .int .str t.entries

def byText (t : Table Int String) : Obj :=
 dictOf (fun (i : Int) => .str (toString i)) .str t.entries

def pairUp : Act Obj := effect do
 a.keep 0 (.patternSet (← (← patternSetAt a).pairUp))

def ofPatternSet (f : PatternSet → Obj) : Command := fun a => do return f (← patternSetAt a)

def sourcesOf : Command := ofPatternSet sourcesObj
def patternsOf : Command := ofPatternSet patternsObj
def sourcePatternsOf : Command := ofPatternSet fun s => byNumber s.sourcePatterns
def sourceScopesOf : Command := ofPatternSet fun s => byText s.sourceScopes
def graphScopesOf : Command := ofPatternSet fun s => byNumber s.graphScopes
def patternScopesOf : Command := ofPatternSet fun s => byText s.patternScopes
def sourceDatasetsOf : Command := ofPatternSet fun s => byText s.sourceDatasets
def patternDatasetsOf : Command := ofPatternSet fun s => byText s.patternDatasets

def setSources : Act Obj := effect do
 let s ← patternSetAt a
 let sources ← (← a.graphEntries 1).mapM fun e => do return (← intOf e.1,e.2)
 a.keep 0 (.patternSet { s with sources })

def graphGroups (i : Nat) : Act (List (Value × List Graph)) := do
 (← a.entries i).mapM fun e => do
  match e.1.value?, e.2.elements? with
  | some k, some xs => return (k,← xs.mapM (graphOf ·))
  | _, _ => throw .wrongType

def setPatterns : Act Obj := effect do
 let s ← patternSetAt a
 a.keep 0 (.patternSet { s with patterns := (← graphGroups a 1).map fun e => (e.1.text,e.2) })

def dataAt : Act Obj := do
 match ← a.obj 0 with
 | .curriculum c => do
  let p ← c.pairAt (← a.int 1)
  return .tuple [.graph p.query,.graph p.source,.ofValue p.mapping]
 | .patternSet s => do
  let j ← s.sampleAt (← a.int 1)
  return .tuple [.graph j.source,.graph j.query,.ofValue j.notes]
 | .part .sampleList fields => (fieldOf fields "samples").part? (← a.item 1)
 | _ => throw .missingAttribute

def childrenOf (fields : List (String × Obj)) : List Obj :=
 (fields.filter fun e => e.1 != "training").map snd

def elementAt (o : Obj) (k : Item) : Act Obj := do
 let place : Act Int := do
  intOf (← k.value?.getDM (throw .wrongType))
 match o with
 | .curriculum c => do return sampleObj (← c.sampleAt (← place))
 | .patternSet s => do return sampleObj (← s.encodedAt (← place))
 | .part .moduleList fields => (list (childrenOf fields)).part? k
 | .part .dataset _ => throw .indexOutOfRange
 | .part _ _ => throw .wrongType
 | o => o.part? k

def itemAt : Act Obj := do
 match a.raw? 0, ← a.obj 0 with
 | some (.ref slot path), .part .moduleList fields => do
  let i ← placeIn (childrenOf fields).length (← a.item 1)
  return .ref slot (path ++ [.str (toString i)])
 | some (.ref slot path), .list _ => do
  discard (elementAt (← a.obj 0) (← a.item 1))
  return .ref slot (path ++ [← a.item 1])
 | _, o => do elementAt o (← a.item 1)

def batchCount (size : Nat) (batch : Int) : Except Error Int :=
 if batch = 0 then .error .divisionByZero else .ok (Int.fdiv ((size : Int) + batch - 1) batch)

def sizeOf (o : Obj) : Except Error Nat :=
 match o with
 | .curriculum c => .ok c.size
 | .patternSet s => .ok s.samples.length
 | .part .dataset _ => .ok 0
 | .part .moduleList fields => .ok (childrenOf fields).length
 | .part .sampleList fields => match fieldOf fields "samples" with
  | .list xs => .ok xs.length
  | _ => .error .wrongType
 | .item (.array t) => match t.shape with
  | n :: _ => .ok n
  | [] => .error .wrongType
 | .item (.graph g) => .ok g.size
 | .item (.set xs) => .ok xs.length
 | .item (.data (.str s)) => .ok s.length
 | .list xs => .ok xs.length
 | .tuple xs => .ok xs.length
 | .dict kvs => .ok kvs.length
 | .frame f => .ok f.rows.length
 | _ => .error .missingAttribute

def lengthOf : Act Obj := do
 match ← a.obj 0 with
 | .part .loader fields => do
  let batch ← intOf ((fieldOf fields "batch_size").value?.getD .none)
  return .int (← batchCount (← sizeOf (fieldOf fields "dataset")) batch)
 | o => return .nat (← sizeOf o)

def elementsOf : Act Obj := do
 match ← a.obj 0 with
 | .item (.array t) => return .list ((← t.slices).map .array)
 | .part .moduleList fields => return .list (childrenOf fields)
 | .part .dataset _ => return .list []
 | .part .loader fields => do
  let set := fieldOf fields "dataset"
  let batch ← intOf ((fieldOf fields "batch_size").value?.getD .none)
  if batch = 0 then throw .badValue
  let size ← sizeOf set
  if batch < 0 then return .list []
  let groups ← Arrange.batches batch (List.range size)
  return .list (← groups.mapM fun g => do
   return .list (← g.mapM fun (i : Nat) => elementAt set (.nat i)))
 | .list xs => return .list xs
 | .tuple xs => return .list xs
 | .dict kvs => return .list (kvs.map fst)
 | .item (.graph g) => return .ids g.ids
 | .patternSet s =>
  do return .list (← (List.range s.samples.length).mapM fun (i : Nat) => elementAt (.patternSet s) (.nat i))
 | o => return .list ((← o.toItem.elements?.getDM (throw .wrongType)).map .ofItem)

def textOf : Act Obj := do
 match ← a.obj 0 with
 | .part .device fields => return fieldOf fields "type"
 | o => return .str (← o.value?.getDM (throw .missingAttribute)).shown

end MotifMatch.Workbench
