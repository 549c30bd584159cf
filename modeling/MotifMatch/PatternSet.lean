import MotifMatch.Annotations
import MotifMatch.Corpus.Load
import MotifMatch.Encoding.Sample

namespace MotifMatch
open Run Annotations PatternId

structure PatternSample where
 source : Graph
 sourceType : String
 pattern : Graph
 patternType : String
 number : Int
 scope : String
 dataset : String
 instanceId : Int
 deriving Inhabited

structure PatternSet where
 width : Value
 anchored : Bool
 queriesArePatterns : Bool
 types : Option (List String)
 relation : Int
 sources : List (Int × Graph)
 sourcePatterns : Table Int String
 patterns : List (String × List Graph)
 sourceScopes : Table Int String
 graphScopes : Table Int String
 sourceDatasets : Table Int String
 graphDatasets : Table Int String
 patternScopes : Table Int String
 patternDatasets : Table Int String
 samples : List PatternSample
 deriving Inhabited

namespace PatternSet

def loadSources (dataset : Value) (limit : Int) (mix : Bool) : Run (List (Int × Graph)) := do
 let all ← under "dataset" dataset (Corpus.sources true)
 let keys ← if mix then draw (Draw.shuffle all.keys) else pure all.keys
 let keys := if 0 < limit && limit < all.size then keys.take limit.toNat else keys
 return keys.filterMap fun k => (all.get? k).map fun g => (k,g)

def admits (types : Option (List String)) (name : String) : Bool :=
 match types with
 | none => true
 | some ts => ts.contains name

def typesOf (types : Option (List String)) (index : Table Member (List Int))
 (sources : List (Int × Graph)) :
 Table Int String :=
 ⟨sources.map fun e =>
  (e.1,index.entries.foldl (fun (name : String) p =>
   if admits types p.1.value && p.2.contains e.1 then p.1.value else name) Catalog.noPattern)⟩

def loadPatterns (dataset : Value) (types : Option (List String)) (examples : Int) :
 Run (List (String × List Graph)) :=
 under "dataset" dataset do
  let sources ← loadSources dataset (-1) false
  let patterns ← patternGraphs sources
  let cut := patterns.entries.map fun e =>
   (e.1,if 0 < examples then e.2.take examples.toNat else e.2)
  return cut.filter fun e => admits types e.1

def byNode (notes : Table String String) : Except Error (Table Int String) :=
 notes.entries.foldlM (fun (t : Table Int String) e => do return t.put (← Listing.number e.1) e.2)
  .empty

def ofAnchors (notes : Table Int String) (sources : List (Int × Graph)) :
 Except Error (Table Int String) := do
 let entries ← sources.mapM fun e => do
  match e.2.anchor with
  | .num i => match notes.get? i with
   | some s => return (e.1,s)
   | none => throw .missingKey
  | .name _ => throw .missingKey
 return ⟨entries⟩

structure Options where
 queriesArePatterns : Bool := false
 types : Option (List String) := none
 maxSources : Int := -1
 maxExamples : Int := 10
 relation : Int := 1

def load (o : Options) : Run PatternSet := do
 seed (← settingInt "seed")
 let width ← setting "embedding_dim"
 let anchored ← flag "anchored"
 let dataset ← setting "dataset"
 let sources ← loadSources dataset o.maxSources true
 let index ← patternIndex sources
 let sourcePatterns := typesOf o.types index sources
 let patternDataset ← setting "pattern_dataset"
 let patterns ← loadPatterns patternDataset o.types o.maxExamples
 let sourceScopes ← Run.ofExcept (byNode (← Annotations.recordScopes))
 let graphScopes ← Run.ofExcept (ofAnchors sourceScopes sources)
 let sourceDatasets ← Run.ofExcept (byNode (← Annotations.recordDatasets))
 let graphDatasets ← Run.ofExcept (ofAnchors sourceDatasets sources)
 let patternScopes ← Run.ofExcept
  (byNode (← Run.under "dataset" patternDataset Annotations.recordScopes))
 let patternDatasets ← Run.ofExcept
  (byNode (← Run.under "dataset" patternDataset Annotations.recordDatasets))
 return {
   width, anchored
   queriesArePatterns := o.queriesArePatterns
   types := o.types
   relation := o.relation
   sources, sourcePatterns, patterns, sourceScopes, graphScopes, sourceDatasets, graphDatasets,
    patternScopes,
   patternDatasets
   samples := [] }

def found (t : Table Int String) (k : Int) : Except Error String :=
 match t.get? k with
 | some s => .ok s
 | none => .error .missingKey

def instanceOf (top number : Int) (scope : String) : Except Error Int :=
 match decode scope with
 | none => .ok number
 | some s => do return (← Listing.number s) + top

def pairsOf (s : PatternSet) : Except Error (List PatternSample) := do
 match s.sources.map Prod.fst with
 | [] => throw .badValue
 | k :: ks =>
  let top := ks.foldl max k
  let groups ← s.sources.mapM fun e => do
   let sourceType ← found s.sourcePatterns e.1
   let scope ← found s.graphScopes e.1
   let dataset ← found s.graphDatasets e.1
   let instanceId ← instanceOf top e.1 scope
   return s.patterns.flatMap fun p => p.2.map fun g =>
    { source := e.2, sourceType, pattern := g, patternType := p.1, number := e.1, scope, dataset, instanceId }
  return groups.flatten

def pairUp (s : PatternSet) : Except Error PatternSet := do return { s with samples := ← s.pairsOf }

def metaOf (p : PatternSample) : Value :=
 .dict [(.str "source_type",.str p.sourceType),(.str "pattern_type",.str p.patternType),
  (.str "gidx",.int p.number),(.str "record_scope",.str p.scope),
   (.str "record_dataset",.str p.dataset),
  (.str "pattern_id",.int p.instanceId)]

structure Judged where
 source : Graph
 query : Graph
 notes : Value

def judge (s : PatternSet) (p : PatternSample) : Except Error Judged := do
 let source := if s.queriesArePatterns then p.source else p.pattern
 let query := if s.queriesArePatterns then p.pattern else p.source
 if s.relation = 0 then throw .divisionByZero
 let room := Int.fdiv source.size s.relation
 let query ← if room < query.size then query.core room else pure query
 return ⟨source,query,metaOf p⟩

def sampleAt (s : PatternSet) (i : Int) : Except Error Judged :=
 let j := if i < 0 then i + s.samples.length else i
 if j < 0 then .error .indexOutOfRange
 else match s.samples[j.toNat]? with
  | some p => s.judge p
  | none => .error .indexOutOfRange

def encodedAt {α : Type} [Scalar α] (s : PatternSet) (i : Int) :
 Except Error (Encoding.Sample α) := do
 let j ← s.sampleAt i
 Encoding.encode j.query j.source s.width s.anchored (.ok []) j.notes true

def counted {κ : Type} [BEq κ] (pairs : List (String × κ)) : List (Value × Value) :=
 let t := pairs.foldl (fun (t : Table String (List κ)) e =>
  let seen := t.getD e.1 []
  t.put e.1 (if seen.contains e.2 then seen else e.2 :: seen)) .empty
 (t.entries.mergeSort fun a b => decide (a.1 ≤ b.1)).map fun e => (.str e.1,.int e.2.length)

def printCounts (s : PatternSet) : Run Unit := do
 let present := s.sourcePatterns.entries.filter fun e => s.sources.any fun x => x.1 == e.1
 let instances ← present.mapM fun e => do
  let scope ← Run.ofExcept (found s.graphScopes e.1)
  return (e.2,match decode scope with
   | some pid => Value.str pid
   | none => Value.int e.1)
 let line (name : String) (kvs : List (Value × Value)) : Run Unit :=
  say (name ++ ": " ++ (Value.dict kvs).text)
 line "source_pattern_counts" (counted (present.map fun e => (e.2,e.1)))
 line "pattern_instance_counts" (counted instances)
 line "pattern_example_counts" ((s.patterns.mergeSort fun a b => decide (a.1 ≤ b.1)).map fun e =>
  (.str e.1,.int e.2.length))

end PatternSet
end MotifMatch
