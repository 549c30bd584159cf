import MotifMatch.Corpus.Write
import MotifMatch.Sampling.Queries

namespace MotifMatch.Corpus
open Run Sampling MotifMatch.Path Float Statistics Table Text List

abbrev Profile := Table String Value

def density (g : Graph) : Except Error Float :=
 if g.size = 0 then .error .divisionByZero
 else .ok (ofNat (g.edges.length * 2) / ofNat g.size)

def labelsOf (g : Graph) : Except Error (List Value) :=
 g.nodes.values.mapM fun a => match a.get? "label" with
  | some v => .ok v
  | none => .error .missingKey

def countDistinct (vs : List Value) : Nat :=
 (vs.foldl (fun acc v => if acc.any fun w => w == v then acc else v :: acc) ([] : List Value)).length

def profile (graphs : List Graph) (queriesPerSource : Value) : Except Error Profile := do
 let labels ← graphs.mapM labelsOf
 let sizes := graphs.map fun g => ofNat g.size
 let degrees ← graphs.mapM density
 return .ofList [
  ("number_source",.int graphs.length),
  ("avg_source_size",.float (mean sizes)),
  ("std_source_size",.float (deviation sizes)),
  ("avg_degree",.float (mean degrees)),
  ("std_degree",.float (deviation degrees)),
  ("number_label_node",.int (countDistinct labels.flatten)),
  ("number_label_edge",.int 1),
  ("number_subgraph_per_source",queriesPerSource)]

def times (v : Value) (n : Int) : Except Error Value :=
 match v with
 | .str s => .ok (.str (String.join (replicate n.toNat s)))
 | .list xs => .ok (.list (replicate n.toNat xs).flatten)
 | .tuple xs => .ok (.tuple (replicate n.toNat xs).flatten)
 | v => match v.number? with
  | some (.int i) => .ok (.int (i * n))
  | some (.float x) => .ok (.float (x * ofInt n))
  | none => .error .wrongType

def enlarged (p : List (Value × Value)) : Except Error (List (Value × Value)) := do
 match (mk p).get? (.str "number_source") with
 | none => throw .missingKey
 | some v => return ((mk p).put (.str "number_source") (← times v 4)).entries

def writeProfile (folder name : String) (p : List (Value × Value)) : Run Unit := do
 let path := ofProject (folder ++ name ++ ".json")
 match Json.render (.dict p) with
 | .ok text => writeText path text
 | .error e => do writeText path ""; throw e

def readProfile (file : String) : Run Value := do
 Run.ofExcept (Json.parse (← Run.readText (Path.ofProject file)))

def shares (sources share : Nat) : Nat → Nat → Nat → List (Nat × Nat)
 | 0, _, _ => []
 | n + 1, start, stop => (start,stop) :: shares sources share n stop (min (stop + share) sources)

/-- The division is one of floats. A quotient of 2 ^ 1024 or more, which has no float, is not told
apart here. -/
def shareOf (sources workers : Nat) : Nat := Decimal.roundedQuotient sources workers + 1

def workShares (sources workers : Nat) : List (Nat × Nat) :=
 shares sources (shareOf sources workers) workers 0 (shareOf sources workers)

def profileFloat (p : Profile) (name : String) : Except Error Float :=
 match (p.get? name).bind Value.toFloat? with
 | some x => .ok x
 | none => .error .wrongType

def profileInt (p : Profile) (name : String) : Except Error Int :=
 match (p.get? name).bind Value.toInt? with
 | some x => .ok x
 | none => .error .wrongType

def drawReported (graph : Graph) (anchor : Option NodeId) (induced : Bool) (p : Profile) :
 Run Queries := do
 let count ← Run.ofExcept (profileInt p "number_subgraph_per_source")
 let mean ← Run.ofExcept (profileFloat p "avg_degree")
 let spread ← Run.ofExcept (profileFloat p "std_degree")
 let labels : LabelCounts :=
  ⟨← Run.ofExcept (profileInt p "number_label_node"),← Run.ofExcept
   (profileInt p "number_label_edge")⟩
 let session ← get
 let ((done,r),streams) :=
  (Sampling.queries graph anchor induced mean spread labels count.toNat).run session.streams
 set { session with streams }
 report done
 Run.ofExcept r

def workRange (one : Nat → Run Unit) : Nat → Nat → Run Unit
 | 0, _ => return
 | n + 1, i => do
  one i
  workRange one n (i + 1)

def distribute (sources : Nat) (workers perSource : Int) (one : Nat → Run Unit) : Run Unit := do
 if workers = 0 then throw .divisionByZero
 modify fun s => { s with progress := 0 }
 if 0 < workers then
  (workShares sources workers.toNat).forM fun range =>
   apart (workRange one (range.2 - range.1) range.1)
 if ((← get).progress : Int) < sources * perSource then throw .indexOutOfRange

def pick {ν : Type} (t : List (Value × ν)) (keys : List Value) : Except Error (List (Value × ν)) :=
 keys.zipIdx.mapM fun e => match (mk t).get? e.1 with
  | some v => .ok (.int e.2,v)
  | none => .error .missingKey

def splitKeys (keys : List Value) (ratio : Float) : Draw (List Value × List Value) := do
 let keys ← Draw.shuffle keys
 return cutAt (truncated (ofNat keys.length * ratio)) keys

def Sources.pick (s : Sources) (keys : List Value) : Except Error Sources := do
 return ⟨← Corpus.pick s.graphs keys,← Corpus.pick s.names keys,← Corpus.pick s.anchors keys⟩

def Sources.split (s : Sources) : Run (Sources × Sources) := do
 let (train,test) ← draw (splitKeys (s.graphs.map Prod.fst) 0.8)
 return (← Run.ofExcept (s.pick train),← Run.ofExcept (s.pick test))

def lookup {ν : Type} (t : List (Value × ν)) (i : Nat) : Except Error ν :=
 match (mk t).get? (.int i) with
 | some v => .ok v
 | none => .error .missingKey

def generateOne (folder : String) (s : Sources) (induced : Bool) (p : Profile) (i : Nat) :
 Run Unit := do
 let graph ← Run.ofExcept (lookup s.graphs i)
 let names ← Run.ofExcept (lookup s.names i)
 let anchor ← Run.ofExcept (lookup s.anchors i)
 let qs ← drawReported graph (some (.num anchor)) induced p
 write folder {
   number := .int i
   graph
   names := names.map fun e => (e.1.toValue,.int e.2)
   anchor := .int anchor
   iso := qs.iso
   nonIso := qs.nonIso }

def generate (name : String) (s : Sources) (p : Profile) : Run Unit := do
 let folder := ofProject (join (← settingText "dataset_dir") name)
 ensurePath folder
 let induced ← flag "induced"
 distribute s.graphs.length (← settingInt "num_workers") (← settingInt "num_subgraphs")
  (generateOne folder s induced p)

def stem (name : String) : String :=
 (splitOn '.' ((splitOn '/' name).getLast?.getD "")).head?.getD ""

def generateFrom (folder dataset : String) : Run Unit := do
 let raw ← readRaw folder dataset
 let s ← Run.ofExcept (raw.sources .asListed)
 let p ← Run.ofExcept (profile (s.graphs.map Prod.snd) (← Run.setting "num_subgraphs"))
 let test ← (if ← flag "split_data" then do
  let (train,test) ← s.split
  generate (stem dataset ++ "_train") train (p.put "number_source" (.int train.graphs.length))
  return test
  else return s : Run Sources)
 let p := p.put "number_source" (.int test.graphs.length)
 generate (stem dataset ++ "_test") test p
 let entries ← Run.ofExcept (enlarged (p.entries.map fun e => (.str e.1,e.2)))
 writeProfile (← shownSetting "config_dir") dataset entries

def generateDataset : Run Unit := do
 seed (← settingInt "seed")
 let folder := ofProject (← settingText "raw_dataset_dir")
 let dataset ← setting "dataset"
 for name in ← names folder do
  if dataset == .str name then generateFrom folder name

def sizeProfile (p : Profile) : Except Error SizeProfile := do
 return ⟨← profileFloat p "avg_source_size",← profileFloat p "std_source_size",
  ← profileFloat p "avg_degree",← profileFloat p "std_degree"⟩

def profileNames : List String := [
 "number_subgraph_per_source","avg_source_size","std_source_size","avg_degree","std_degree",
 "number_label_node","number_label_edge"]

structure Drawn where
 graph : Graph
 anchor : NodeId
 queries : Queries

def drawSource (p : Profile) : Run (NodeId × Graph) := do
 unless p.keys.all (fun k => profileNames.contains k) && profileNames.all (fun k => p.contains k) do
  throw .wrongType
 let graph ← Run.draw (Sampling.connectedGraph (← Run.ofExcept (sizeProfile p)) false)
 let nodeLabels ← Run.ofExcept (profileInt p "number_label_node")
 let edgeLabels ← Run.ofExcept (profileInt p "number_label_edge")
 draw ((addFeatures nodeLabels edgeLabels true).result graph)

def withQueries (induced : Bool) (p : Profile) (source : NodeId × Graph) : Run Drawn :=
 return ⟨source.2,source.1,← drawReported source.2 (some source.1) induced p⟩

def synthesizeOne (induced : Bool) (p : Profile) : Run Drawn := do
 let source ← drawSource p
 unless ← Run.ofExcept (source.2.isConnected true) do throw .badValue
 withQueries induced p source

def synthesizeAt (folder : String) (induced : Bool) (p : Profile) (i : Nat) : Run Unit := do
 let d ← synthesizeOne induced p
 write folder {
   number := .int i
   graph := d.graph
   names := d.graph.ids.map fun n => (n.toValue,n.toValue)
   anchor := d.anchor.toValue
   iso := d.queries.iso
   nonIso := d.queries.nonIso }

def synthesizeDataset : Run Unit := do
 let file := (← shownSetting "config_dir") ++ (← shownSetting "dataset") ++ ".json"
 seed (← settingInt "seed")
 let base := (splitOn '/' file).getLast?.getD ""
 let name := (splitOn '.' base).head?.getD "" ++ "_train"
 let folder := ofProject (join (← settingText "dataset_dir") name)
 ensurePath folder
 match ← readProfile file with
 | .dict kvs =>
  let p : Profile := ⟨kvs.map fun e => (e.1.text,e.2)⟩
  let workers ← settingInt "num_workers"
  let induced ← flag "induced"
  let number ← Run.ofExcept (profileInt p "number_source")
  let rest := p.erase "number_source"
  let perSource ← Run.ofExcept (profileInt p "number_subgraph_per_source")
  distribute number.toNat workers perSource (synthesizeAt folder induced rest)
 | _ => throw .wrongType

end MotifMatch.Corpus
