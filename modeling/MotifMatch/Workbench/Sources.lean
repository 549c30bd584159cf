import MotifMatch.Corpus.Generate
import MotifMatch.Workbench.Arguments

namespace MotifMatch.Workbench
open Corpus Obj Sampling Annotations Draw
variable (a : Args)

def namesObj (t : Table Int Int) : Obj := dictOf .int .int t.entries

def graphsObj (t : Table Int Graph) : Obj := dictOf .int .graph t.entries

def readNames : Act Obj := do
 let text ← Run.readText (Path.ofProject (← a.str 0))
 return dictOf .int namesObj (← Listing.mappings (← a.boolD 1 false) text).entries

def readGraphs : Act Obj := do
 let text ← Run.readText (Path.ofProject (← a.str 0))
 return graphsObj (← Listing.graphs (← a.boolD 1 false) text)

def markAnchor : Act Obj := effect do
 let source ← a.value 1
 let text ← do Run.readText (← sourceFile source "source.lg")
 let (g,r) := markedBy text (← a.valueEntries? 2) (← a.graph 0)
 a.keepGraph 0 g
 r

def sourceNames : Act Obj := do
 return namesObj (← Corpus.sourceNames (← a.value 0) (← a.boolD 1 true))

def loadSource : Act Obj := do
 return .graph (← source (← a.value 0) (← a.boolD 1 true))

def queryNames : Act Obj := do
 return Obj.dictOf .int namesObj (← Corpus.queryNames (← a.value 0) (← a.boolD 1 true)).entries

def queryNamesOf : Act Obj := do
 return namesObj (← Corpus.queryNamesOf (← a.value 0) (← a.value 1) (← a.boolD 2 true))

def loadQueries : Act Obj := do
 return graphsObj (← queries (← a.value 0) (← a.boolD 1 true))

def loadQuery : Act Obj := do
 return .graph (← query (← a.value 0) (← a.value 1) (← a.boolD 2 true))

def notesBy (notes : Run (Table String String)) : Command := fun _ => do
 return dictOf .str .str (← notes).entries

def recordScopes : Command := notesBy Annotations.recordScopes
def recordDatasets : Command := notesBy Annotations.recordDatasets
def designPatterns : Command := notesBy Annotations.designPatterns

def patternIndex : Act Obj := do
 let t ← Annotations.patternIndex (← a.graphEntries 0)
 return Obj.dictOf (fun m => .item (.member m)) (fun vs => .list (vs.map .data)) t.entries

def numbersOf (x : Item) : Act (List Value) :=
 return (← x.elements?.getDM (throw .wrongType)).filterMap Item.value?

def indexOf (kvs : List (Item × Item)) : Act (List (String × List Value)) :=
 kvs.mapM fun e => do
  match e.1 with
  | .member m => return (m.value,← numbersOf e.2)
  | _ => throw .missingAttribute

def numberIn : Value → Except Error Int
 | .str s => (Text.int? s).getDM (throw .badValue)
 | v => intOf v

def findGraph (graphs : List (Value × Graph)) (v : Value) : Except Error Graph := do
 ((Table.mk graphs).get? (.int (← numberIn v))).getDM (throw .missingKey)

def groupsObj (t : Table String (List Graph)) : List (Obj × Obj) :=
 t.entries.map fun e => (.str e.1,.graphs e.2)

def selectGraphs : Act Obj := do
 let graphs ← a.graphEntries 0
 return .dict (groupsObj (← select (findGraph graphs) (← indexOf (← a.entries 1))))

def unselectedGraphs : Act Obj := do
 let graphs ← a.graphEntries 0
 let taken ← (← a.entries 1).mapM fun e => numbersOf e.2
 return .graphs (unselected graphs taken.flatten (← a.intD 2 (-1)))

def patternGraphs : Act Obj := do
 let graphs ← a.graphEntries 0
 let index ← Annotations.patternIndex graphs
 let chosen ← Annotations.select (findGraph graphs) (index.entries.map fun e => (e.1.value,e.2))
 let rest := if ← a.boolD 1 false then
  [(Obj.str Catalog.noPattern,Obj.graphs (Annotations.unselected graphs index.values.flatten (-1)))]
  else []
 return .dict (groupsObj chosen ++ rest)

def modelName : Act Obj := do return .str (← Checkpoint.name (← a.value 0) (← a.str? 1))

def loadSettings : Act Obj := do
 Checkpoint.loadSettings (← a.str 0)
 return .part .settings []

def storedLevels : Act Obj := do
 let t ← Curriculum.storedLevels (← a.boolD 0 true)
 return dictOf .int .strs t.entries

def edited {α : Type} (i : Nat) (action : Edit α) : Act (α × Obj) := do
 let g ← a.graph i
 let (r,draft,streams) := action.on g (← get).session.streams
 modify fun b => { b with session.streams := streams }
 let same ← a.keepAs i (.graph draft.given)
 return (← r,if draft.parted.isSome then .graph draft.work else same)

def reporting {α : Type} (i : Nat) (action : Act α) : Act α := do
 modify fun b => { b with session.progress := 0 }
 let settle : Act Unit := do
  match ← a.obj? i with
  | some (.list xs) => a.keep i (.list (xs ++ List.replicate (← get).session.progress (.int 1)))
  | _ => return
 try
  let x ← action
  settle
  return x
 catch e => do
  settle
  throw e

def profileFrom (i : Nat) : Act Profile := do
 return ⟨← profileNames.zipIdx.filterMapM fun e => (a.raw? (i + e.2)).mapM fun _ =>
  return (e.1,← a.value (i + e.2))⟩

def queriesObj (q : Queries) : List Obj := [.graphs q.iso,.graphs q.nonIso]

def byKey {ν : Type} (value : ν → Obj) (kvs : List (Value × ν)) : Obj := dictOf .data value kvs

def labelOf (i : Nat) : Act Value := do ((← a.attrs i).get? "label").getDM (throw .missingKey)

def readProfile : Act Obj := do return .ofValue (← Corpus.readProfile (← a.str 0))

def ensurePath : Act Obj := effect do Corpus.ensurePath (← a.str 0)

def readRaw : Act Obj := do
 let r ← Corpus.readRaw (← a.str 0) (← a.str 1)
 return .tuple [.graph r.graph,Obj.dictOf .int (fun ns => .list (ns.map .nat)) r.members.entries,
  namesObj r.anchors]

def writeSource : Act Obj := effect do
 write (← a.str 6) {
   number := ← a.value 0
   graph := ← a.graph 1
   names := ← a.valueEntries 2
   anchor := ← a.value 3
   iso := ← a.graphs 4
   nonIso := ← a.graphs 5 }

def sameLabel : Act Obj := do return .bool ((← labelOf a 0) == (← labelOf a 1))

def isoQuery : Act Obj := do
 return (← edited a 0
  (carve patience (← a.node? 1) (← a.bool 2) (← a.int 3) (← a.float 4) (← a.float 5))).2

def nonIsoQuery : Act Obj := do
 let labels : LabelCounts := ⟨← a.int 6,← a.int 7⟩
 let (found,g) ← edited a 0
  (estrange patience (← a.bool 2) (← a.int 3) (← a.float 4) (← a.float 5) labels)
 return if found then g else .none

def removeNode : Act Obj := do return (← edited a 0 (Sampling.removeNode Draw.patience)).2

def removeNodes : Act Obj := do return (← edited a 0 (removeNodesDownTo patience (← a.int 1))).2

def removeEdge : Act Obj := do return (← edited a 0 (Sampling.removeEdge Draw.patience)).2

def addEdges : Act Obj := do
 return (← edited a 0 (Sampling.addEdges Draw.patience (← a.int 1) (← a.intD 2 61)
  (← a.intD 3 122))).2

def addNodes : Act Obj := do
 let (next,g) ← edited a 0
  (Sampling.addNodes Draw.patience (← a.int 1) (← a.int 2) (← a.int 3) (← a.int 4) (← a.int 5)
   (← a.int 6))
 return .tuple [g,.int next]

def modifyGraph : Act Obj := do
 let (next,g) ← edited a 0
  (modifyAtRandom patience (← a.int 1) (← a.int 2) (← a.int 3) (← a.int 4) (← a.int 5))
 return .tuple [g,.int next]

def drawQueries : Act Obj := do
 let graph ← a.graph 0
 let anchor ← a.node? 1
 let induced ← a.bool 2
 let p ← profileFrom a 4
 return .tuple (queriesObj (← reporting a 3 (drawReported graph anchor induced p)))

def separate : Act Obj := do
 let members ← (← a.entries 1).mapM fun e => return (← e.1.value?.getDM (throw .wrongType),
  ((e.2.elements?.getD []).filterMap Item.value?).filterMap NodeId.ofValue?)
 let s ← Corpus.separate .asListed (← a.graph 0) members (← a.valueEntries 2)
 return .tuple [byKey .graph s.graphs,byKey (Obj.dictOf .id .nat) s.names,byKey .nat s.anchors]

def profileOf : Act Obj := do
 let graphs ← a.graphEntries 0
 let p ← profile (graphs.map Prod.snd) (← a.value 2)
 return dictOf .str .ofValue p.entries

def writeProfile : Act Obj := effect do
 let p ← enlarged (← a.valueEntries 0)
 a.keep 0 (.ofValue (.dict p))
 Corpus.writeProfile (← a.str 1) (← a.str 2) p

def splitSources : Act Obj := do
 let graphs ← a.objEntries 0
 let names ← a.objEntries 1
 let anchors ← a.objEntries 2
 let (train,test) ← splitKeys (graphs.map Prod.fst) (← a.floatD 3 0.8)
 return .tuple (← [(graphs,train),(graphs,test),(names,train),(names,test),(anchors,train),
  (anchors,test)].mapM fun e => do return byKey (fun o => o) (← pick e.1 e.2))

def addFeatures : Act Obj := do
 let (anchor,g) ← edited a 0 (Sampling.addFeatures (← a.int 1) (← a.int 2) (← a.boolD 3 false))
 return .tuple [g,.id anchor]

def connectedGraph : Act Obj := do
 let p : SizeProfile := ⟨← a.float 0,← a.float 1,← a.float 2,← a.float 3⟩
 return .graph (← Sampling.connectedGraph p (← a.boolD 4 false))

def synthesizeOne : Act Obj := do
 let induced ← a.bool 0
 let p ← profileFrom a 2
 let d ← reporting a 1 (Corpus.synthesizeOne induced p)
 return .tuple ([.graph d.graph,Obj.dictOf .id .id (d.graph.ids.map fun n => (n,n)),.id d.anchor] ++
  queriesObj d.queries)

end MotifMatch.Workbench
