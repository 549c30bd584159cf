import MotifMatch.Graph.Anchor
import MotifMatch.Listing.Basic
import MotifMatch.Session

namespace MotifMatch.Preparation
open Run MotifMatch.Path Text

def wholeOf : Value → Except Error Int
 | .str s => match int? s with
  | some i => .ok i
  | none => .error .badValue
 | .float x => match Decimal.truncate? x with
  | some i => .ok i
  | none => .error .badValue
 | v => match v.toInt? with
  | some i => .ok i
  | none => .error .wrongType

def anchorImage (pairs : List (Value × Value)) (anchor : Int) : Except Error Int :=
 match pairs.reverse.find? fun p => p.2 == .int anchor with
 | some p => wholeOf p.1
 | none => .ok (-1)

def checkAnchor (g : Graph) : Except Error Unit :=
 match g.anchor with
 | .num i => if i < 0 then .error .badValue else .ok ()
 | .name _ => .error .wrongType

def markGraph (anchor : Int) (g : Graph) : Graph × Except Error Unit :=
 let mark (n : NodeId) (a : Attrs) : Attrs :=
  a.put "anchor" (.int (if n == .num anchor then 1 else 0))
 let marked := { g with nodes := g.nodes.mapValues mark }
 if g.hasNode (.num anchor) then (marked,checkAnchor marked)
 else match marked.topRanked with
  | .error e => (marked,.error e)
  | .ok n =>
   let marked := marked.setNodeAttr n "anchor" (.int 1)
   (marked,checkAnchor marked)

def pairsOf (v : Value) : Except Error (List (Value × Value)) :=
 let pair : Value → Except Error (Value × Value)
  | .list [a,b] => .ok (a,b)
  | .tuple [a,b] => .ok (a,b)
  | .list _ => .error .badValue
  | .tuple _ => .error .badValue
  | .str s => match s.toList with
   | [a,b] => .ok (.str (String.singleton a),.str (String.singleton b))
   | _ => .error .badValue
  | _ => .error .wrongType
 match v with
 | .list xs => xs.mapM pair
 | .tuple xs => xs.mapM pair
 | .dict kvs => kvs.mapM fun e => pair e.1
 | _ => .error .wrongType

def markAll (anchor : Value) (mappings : Option (List (Value × Value))) :
 List (Value × Graph) → List (Value × Graph) × Except Error Unit
 | [] => ([],.ok ())
 | (k,g) :: rest =>
  let target : Except Error Int := do
   let a ← wholeOf anchor
   match mappings with
   | none => return a
   | some ms => match (Table.mk ms).get? k with
    | none => throw .missingKey
    | some m => anchorImage (← pairsOf m) a
  match target with
  | .error e => ((k,g) :: rest,.error e)
  | .ok t =>
   match markGraph t g with
   | (g,.error e) => ((k,g) :: rest,.error e)
   | (g,.ok ()) =>
    let (rest,r) := markAll anchor mappings rest
    ((k,g) :: rest,r)

structure SizeRange where
 low : Option Nat
 lowIncluded : Bool
 high : Option Nat

def lessEq (a b : Value) : Bool :=
 match a.number?, b.number? with
 | some m, some n => m.compare? n == some .lt || m.compare? n == some .eq
 | _, _ => false

def lessThan (a b : Value) : Bool :=
 match a.number?, b.number? with
 | some m, some n => m.compare? n == some .lt
 | _, _ => false

def SizeRange.holds (r : SizeRange) (size : Value) : Bool :=
 (match r.low with
  | none => true
  | some l => if r.lowIncluded then lessEq (.int l) size else lessThan (.int l) size) &&
 (match r.high with
  | none => true
  | some h => lessEq size (.int h))

def sourceRanges : List (String × SizeRange) := [
 ("graph_size_0_5",⟨none,false,some 5⟩),
 ("graph_size_5_10",⟨some 5,false,some 10⟩),
 ("graph_size_10_15",⟨some 10,false,some 15⟩),
 ("graph_size_15_20",⟨some 15,false,some 20⟩),
 ("graph_size_20_30",⟨some 20,false,some 30⟩),
 ("graph_size_30_40",⟨some 30,false,some 40⟩),
 ("graph_size_40_",⟨some 40,false,none⟩)]

def queryRanges : List (String × SizeRange) := [
 ("0_20",⟨none,false,some 20⟩),
 ("20_40",⟨some 20,false,some 40⟩),
 ("40_60",⟨some 40,false,some 60⟩),
 ("60_",⟨some 60,true,none⟩)]

def isDense (degree : Value) : Bool := lessThan (.int 3) degree

def isSparse (degree : Value) : Bool := lessEq degree (.int 3)

abbrev Measures := List (Value × Value)

def measure (m : Measures) (key : String) : Except Error Value :=
 match (Table.mk m).get? (.str key) with
 | some v => .ok v
 | none => .error .missingKey

def bySource (sizes : Measures) (keys : List String) : Except Error (List (String × List String)) :=
 sourceRanges.mapM fun r => do
  return (r.1,← keys.filterM fun k => do return r.2.holds (← measure sizes k))

def byQuery (label : String) (test : Value → Bool) (sizes degrees : Measures) (keys : List String) :
 Except Error (List (String × List String)) :=
 queryRanges.mapM fun r => do
  return (label ++ "_" ++ r.1,← keys.filterM fun k => do
   if r.2.holds (← measure sizes k) then return test (← measure degrees k) else return false)

def buckets (sourceSizes sizes degrees : Measures) (keys : List String) :
 Except Error (List (String × List String)) := do
 let bySize ← bySource sourceSizes keys
 let sparse ← byQuery "nondense" isSparse sizes degrees keys
 let dense ← byQuery "dense" isDense sizes degrees keys
 return bySize ++ sparse ++ dense

abbrev Pairs := Table Int (List (Int × Int))

structure Bundle where
 source : Graph
 iso : List (Int × Graph)
 non : List (Int × Graph)
 isoPairs : Pairs
 nonPairs : Pairs
 size : Nat
 isoSizes : Table Int Nat
 nonSizes : Table Int Nat
 degree : Float
 isoDegrees : Table Int Float
 nonDegrees : Table Int Float

def pairsValue (t : Pairs) : List (Value × Value) :=
 t.entries.map fun e => (.int e.1,.list (e.2.map fun p => .tuple [.int p.1,.int p.2]))

def anchorValue : Option Int → Value
 | some i => .int i
 | none => .none

def marked (anchor : Option Int) (pairs : Option Pairs) (graphs : Listing.Graphs) :
 Except Error (List (Int × Graph)) := do
 let (entries,r) := markAll (anchorValue anchor) (pairs.map pairsValue)
  (graphs.entries.map fun e => (.int e.1,e.2))
 r
 return graphs.keys.zip (entries.map Prod.snd)

def found {ν : Type} (t : Table Int ν) (k : Int) : Except Error ν :=
 match t.get? k with
 | some v => .ok v
 | none => .error .missingKey

def load (folder : String) (source : Value) (limit : Int) : Run Bundle := do
 let directed ← flag "directed"
 let file (name : String) : Run String := readText (folder ++ "/" ++ source.text ++ "/" ++ name)
 let all ← Run.ofExcept (Listing.survey directed (-1) (← file "source.lg"))
 let sources ← Run.ofExcept (marked all.anchor none all.graphs)
 let number ← Run.ofExcept (wholeOf source)
 let graph ← Run.ofExcept (found ⟨sources⟩ number)
 let isoPairs ← Run.ofExcept (Listing.pairs limit (← file "iso_subgraphs_mapping.lg"))
 let nonPairs ← Run.ofExcept (Listing.pairs limit (← file "noniso_subgraphs_mapping.lg"))
 let iso ← Run.ofExcept (Listing.survey directed limit (← file "iso_subgraphs.lg"))
 let isoGraphs ← Run.ofExcept (marked all.anchor (some isoPairs) iso.graphs)
 let non ← Run.ofExcept (Listing.survey directed limit (← file "noniso_subgraphs.lg"))
 let nonGraphs ← Run.ofExcept (marked all.anchor (some nonPairs) non.graphs)
 return {
   source := graph
   iso := isoGraphs
   non := nonGraphs
   isoPairs, nonPairs
   size := ← Run.ofExcept (found all.sizes number)
   isoSizes := iso.sizes
   nonSizes := non.sizes
   degree := ← Run.ofExcept (found all.degrees number)
   isoDegrees := iso.degrees
   nonDegrees := non.degrees }

structure Ledger where
 sourceSizes : Table String Value
 sourceDegrees : Table String Value
 sizes : Table String Value
 degrees : Table String Value

def sampleItem (query source : Graph) (pairs : List (Int × Int)) : Item :=
 .list [.graph query,.graph source,.list (pairs.map fun p => .tuple [.int p.1,.int p.2])]

def storeClass (saveFolder source tag cls : String) (b : Bundle) (graphs : List (Int × Graph))
 (pairs : Pairs)
 (sizes : Table Int Nat) (degrees : Table Int Float) (notes : Ledger) : Run Ledger :=
 graphs.foldlM (fun (notes : Ledger) e => do
  let key := source ++ "_" ++ toString e.1 ++ "_" ++ cls ++ "_" ++ tag
  let notes : Ledger := {
    sourceSizes := notes.sourceSizes.put key (.int b.size)
    sourceDegrees := notes.sourceDegrees.put key (.float b.degree)
    sizes := notes.sizes.put key (.int (← Run.ofExcept (found sizes e.1)))
    degrees := notes.degrees.put key (.float (← Run.ofExcept (found degrees e.1))) }
  Run.store (saveFolder ++ "/" ++ key) (sampleItem e.2 b.source (← Run.ofExcept (found pairs e.1)))
  return notes) notes

def tableItem (t : Table String Value) : Item :=
 .data (.dict (t.entries.map fun e => (.str e.1,e.2)))

def storeAll (folder : String) (sources : List Value) (saveFolder tag : String) (limit : Int) :
 Run (List String) := do
 let notes ← sources.foldlM (fun (notes : Ledger) s => do
  let b ← load folder s limit
  let notes ← storeClass saveFolder s.text tag "iso" b b.iso b.isoPairs b.isoSizes b.isoDegrees notes
  storeClass saveFolder s.text tag "non" b b.non b.nonPairs b.nonSizes b.nonDegrees notes)
  (⟨.empty,.empty,.empty,.empty⟩ : Ledger)
 if tag != "" then
  store (saveFolder ++ "/" ++ tag ++ "_graphs_size.pkl") (tableItem notes.sourceSizes)
  store (saveFolder ++ "/" ++ tag ++ "_graphs_degree.pkl") (tableItem notes.sourceDegrees)
  store (saveFolder ++ "/" ++ tag ++ "_subgraphs_size.pkl") (tableItem notes.sizes)
  store (saveFolder ++ "/" ++ tag ++ "_subgraphs_degree.pkl") (tableItem notes.degrees)
 return notes.sizes.keys

def keysItem (keys : List String) : Item := .data (.list (keys.map .str))

def foldersIn (folder : String) : Run (List String) := do
 (← names folder).filterM fun n => isFolder (join folder n)

def storeFolder : Run String := do
 let path := join (← settingText "data_processed_dir") (← settingText "dataset")
 let path := ofProject (replace "_train" "" path)
 return if ← flag "directed" then path ++ "_directed" else path

def sourceOfKey (key : String) : String := (splitOn '_' key).head?.getD ""

def corpusFolder (dataset : String) : Run String :=
 return ofProject (join (← settingText "dataset_dir") dataset)

def storeCorpus (dataset saveFolder tag : String) : Run (List String × List String) := do
 let folder ← corpusFolder dataset
 let sources ← foldersIn folder
 let keys ← storeAll folder (sources.map .str) saveFolder tag (← settingInt "max_subgraph")
 return (sources,keys)

def measuresAt (path : String) : Run Measures := do
 match (← fetch path).value? with
 | some (.dict kvs) => return kvs
 | _ => throw .wrongType

def storeBuckets (saveFolder tag : String) (keys : List String) : Run Unit := do
 let sourceSizes ← measuresAt (saveFolder ++ "/" ++ tag ++ "_graphs_size.pkl")
 discard (measuresAt (saveFolder ++ "/" ++ tag ++ "_graphs_degree.pkl"))
 let sizes ← measuresAt (saveFolder ++ "/" ++ tag ++ "_subgraphs_size.pkl")
 let degrees ← measuresAt (saveFolder ++ "/" ++ tag ++ "_subgraphs_degree.pkl")
 for b in ← Run.ofExcept (buckets sourceSizes sizes degrees keys) do
  store (saveFolder ++ "/" ++ tag ++ "_keys_" ++ b.1 ++ ".pkl") (keysItem b.2)

def openStore : Run String := do
 seed (← settingInt "seed")
 let saveFolder ← storeFolder
 unless ← pathExists saveFolder do makeFolder saveFolder
 return saveFolder

def sideOf (sources keys : List String) : List String :=
 keys.filter fun k => sources.contains (sourceOfKey k)

def chooseKeys (divide : List String → List String × List String) (saveFolder : String)
 (imported testOnly : Bool) :
 Run (List String × List String) :=
 if !imported then do
  let tag := if testOnly then "test" else ""
  let (sources,keys) ← storeCorpus (← settingText "dataset") saveFolder tag
  if testOnly then return ([],sideOf sources keys)
  else
   let (train,test) := divide sources
   return (sideOf train keys,sideOf test keys)
 else do
  let dataset ← shownSetting "dataset"
  let (_,test) ← storeCorpus (dataset ++ "_test") saveFolder "test"
  if testOnly then return ([],test)
  else
   let (_,train) ← storeCorpus (dataset ++ "_train") saveFolder "train"
   return (train,test)

def storeKeys (saveFolder : String) (imported : Bool) (train test : List String) : Run Unit := do
 store (saveFolder ++ "/train_keys.pkl") (keysItem train)
 store (saveFolder ++ "/test_keys.pkl") (keysItem test)
 if imported then
  storeBuckets saveFolder "train" train
  storeBuckets saveFolder "test" test

def processBy (divide : List String → List String × List String) : Run Unit := do
 let saveFolder ← openStore
 let imported ← flag "real"
 let testOnly ← flag "testonly"
 let (train,test) ← chooseKeys divide saveFolder imported testOnly
 storeKeys saveFolder imported train test

def oneInFive (sources : List String) : List String × List String := splitOff sources 0.2 42

def process : Run Unit := processBy oneInFive

end MotifMatch.Preparation
