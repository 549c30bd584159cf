import MotifMatch.Import.Refresh
import MotifMatch.Training

namespace MotifMatch.Scenario
open Run MotifMatch.Normal Encoding Network Listing Int MotifMatch.Path Import Evaluation

def drawBelow (n : Int) (s : Stream) : Except Error (Int × Stream) :=
 if n = 0 then .error .divisionByZero
 else
  let (raw,s) := s.below (Nat.pow 2 31)
  .ok (fmod raw n,s)

def linkAttrs : Attrs := .ofList [("label",.int 1)]

def labelNodes : Nat → Nat → Graph → Stream → Graph × Stream
 | 0, _, g, s => (g,s)
 | n + 1, i, g, s =>
  let (label,s) := if i = 0 then (0,s) else s.below 5
  let attrs : Attrs := .ofList [("label",.int (label + 1)),("anchor",.int (if i = 0 then 1 else 0))]
  labelNodes n (i + 1) (g.addNode (.num i) attrs) s

def addLink (g : Graph) (i : Nat) : Graph :=
 let g := g.addEdge (.num i) (.num (i + 1)) linkAttrs
 if g.directed then g.addEdge (.num (i + 1)) (.num i) linkAttrs else g

def addChords (n : Int) : Nat → Graph → Stream → Except Error Graph
 | 0, g, _ => .ok g
 | k + 1, g, s => do
  let (u,s) ← drawBelow n s
  let (v,s) ← drawBelow n s
  addChords n k (if u = v then g else g.addEdge (.num u) (.num v) linkAttrs) s

def labelledGraph (n : Int) (directed : Bool) (seed : Int) : Except Error Graph :=
 let (g,s) := labelNodes n.toNat 0 (.empty directed) (.seed seed)
 addChords n (max 1 (Int.fdiv n 3)).toNat ((List.range (n.toNat - 1)).foldl addLink g) s

def formOf (g : Graph) (limit : Int) : Except Error Form := (form g limit false).2

def formFacts (n : Int) (directed : Bool) (seed : Int) : Except Error Value := do
 let f ← formOf (← labelledGraph n directed seed) 6
 return .list [.int f.tree.size,f.furthest]

def normalForms (n : Int) : Except Error Value := do
 let plain ← [0,1,2,3].mapM (formFacts n false)
 let directed ← [50,51,52,53].mapM (formFacts n true)
 return .list (plain ++ directed)

def overlays (n : Int) : Except Error Value := do
 let a := (← formOf (← labelledGraph n false 1) 5).tree
 let b := (← formOf (← labelledGraph n false 2) 5).tree
 let o ← combine a b
 let directed := (← formOf (← labelledGraph n true 3) 4).tree
 let total (marks : List Int) : Int := marks.foldl (fun sum k => sum + k) 0
 return .list [
  .bool (← sameTexts a a),
  .int (← shared a b).size,
  .list [.int o.graph.size,.int (total o.nodeMarks),.int (total o.edgeMarks)],
  .int (lay a b none).graph.size,
  .int (← branches directed).length,
  .int (← Graph.joinAtAnchor [a,b] 2).size,
  .int (← a.spanningRadius a.anchor),
  .int (← a.core 4).size]

def vectorWidth : Int := 6

def pairKey (i : Nat) : Value := .str (s!"{i}_" ++ (if i % 2 = 0 then "iso" else "non") ++ "_train")

def collation (n : Int) : Except Error Value := do
 let source ← labelledGraph 12 false 1
 let query ← labelledGraph 6 false 2
 let samples : List (Encoding.Sample Float) ← (List.range n.toNat).mapM fun i =>
  encode query source (.int vectorWidth) true (.ok [(0,0)]) (pairKey i) false
 let b ← collate samples
 return .list [.int b.count,.int b.size,.float (b.verdicts.data.foldl (fun x y => x + y) 0.0),
  .int b.keys.length]

def networkSettings : List (String × Value) := [
 ("embedding_dim",.int vectorWidth),("n_graph_layer",.int 2),("d_graph_layer",.int 8),
  ("n_FC_layer",.int 3),
 ("d_FC_layer",.int 8),("nhead",.int 1),("tactic",.str "cont"),("al_scale",.float 1.0),
 ("anchored",.bool true),("directed",.bool false),("ckpt_path",.none)]

def total (t : Tensor Float) : Float := t.data.foldl (fun x y => x + y) 0.0

def branchTotal (branch : String) (b : Batch Float) : Run Value := do
 assign "branch" (.str branch)
 let m : Network.Matcher Float ← Network.matcher
 return .float (total (← m.model.predict (ofBatch b)))

def forwardPass (n : Int) : Run Value := do
 modify fun s => { s with settings := s.settings.setAll networkSettings }
 let source ← labelledGraph n false 2
 let query ← labelledGraph (max 3 (fdiv n 2)) false 1
 let sample : Sample Float ← encode query source (.int vectorWidth) true (.ok [(0,0),(1,1)])
  (pairKey 0) false
 let b ← collate [sample,sample]
 assign "branch" (.str "both")
 let m : Network.Matcher Float ← Network.matcher
 let (p,loss) ← m.model.train (ofBatch b) b.mapping b.sameLabel
 let (_,attention) ← m.model.embed (ofBatch b)
 let bulk ← m.predictAll [source,source] [query,query] 2
 let single ← m.predictAll [source] [query] 1
 let pairAttention ← m.embedding [query] [source]
 return .list [
  .float (total p),.float (total loss),.int (attention.shape.getLast?.getD 0),
  .float (bulk.foldl (fun x y => x + y) 0.0),.float (single.headD 0.0),
   .int (pairAttention.shape.getLast?.getD 0),
  ← branchTotal "left" b,← branchTotal "right" b]

def smallProfile : Corpus.Profile := .ofList [
 ("number_subgraph_per_source",.int 2),("avg_source_size",.int 10),("std_source_size",.int 1),
 ("avg_degree",.int 2),("std_degree",.float 0.3),("number_label_node",.int 5),
  ("number_label_edge",.int 1)]

def drawnFacts (d : Corpus.Drawn) : Value :=
 .list [.int d.graph.size,d.anchor.toValue,.int d.queries.iso.length,.int d.queries.nonIso.length]

def sourceDraws (n : Int) : Run Value := do
 seed 7
 let drawn ← (List.range n.toNat).mapM fun _ => Corpus.synthesizeOne true smallProfile
 let connected ← drawn.mapM fun d => d.graph.isConnected true
 return .list (drawn.map drawnFacts ++ [.bool (connected.all id)])

def listedSize : Nat := 10

def listedLines (i : Nat) : List String :=
 [s!"t # {i}","p # 0"] ++ (List.range listedSize).map (fun j => s!"v {j} {j % 5 + 1}") ++
  (List.range (listedSize - 1)).map (fun j => s!"e {j} {j + 1} 1")

def textOf (lines : List String) : String := String.join (lines.map fun l => l ++ "\n")

def graphListing (n : Nat) : String := textOf ((List.range n).flatMap listedLines ++ ["t # -1"])

def mappingListing (n : Nat) : String :=
 textOf ((List.range n).flatMap (fun i => s!"t # {i}" :: (List.range listedSize).map fun j =>
  s!"v {j} {j}") ++
  ["t # -1"])

def listings (n : Int) : Except Error Value := do
 let graphText := graphListing n.toNat
 let mappingText := mappingListing n.toNat
 let limit := max 1 (fdiv n 2)
 let graphs ← graphs false graphText
 let all ← survey false (-1) graphText
 let forward ← mappings true mappingText
 let backward ← mappings false mappingText
 let part ← survey false limit graphText
 let pairs ← pairs limit mappingText
 return .list [
  .int graphs.entries.length,.int forward.entries.length,.int backward.entries.length,
  .int all.graphs.entries.length,.int part.graphs.entries.length,.int pairs.entries.length,
  part.anchor.elim .none .int,.int (part.sizes.entries.foldl (fun total e => total + e.2) 0)]

def apart {α : Type} (settings : Settings) (action : Run α) : Run α := do
 let before ← get
 let back : Run Unit := modify fun s => { s with files := before.files, settings := before.settings }
 set { before with files := .folder [], settings }
 try
  let a ← action
  back
  return a
 catch e => do
  back
  throw e

def recordCount : Nat := 4

def recordAttrs (i : Nat) : Attrs := .ofList [
 ("labels_RecordDeclaration",.int 1),("labels_ADAPTER",.int 1),
 ("node_scopedRecordName",.str s!"scope.R{i}"),("node_dataset",.str "bench"),
  ("node_patternId",.int i)]

def addRecord (g : Graph) (i : Nat) : Graph :=
 let record : NodeId := .name s!"r{i}"
 let deeds := ["KNOWS_RECORD","CREATES_RECORD","CALLS_RECORD"]
 let g := g.addNode record (recordAttrs i)
 deeds.foldl (fun g deed =>
  let n : NodeId := .name (s!"r{i}" ++ deed)
  (g.addNode n (.ofList [("labels_" ++ deed,.int 1)])).addEdge record n .empty) g

def recordChain (n : Nat) : Graph :=
 let g := (List.range n).foldl addRecord (.empty true)
 (List.range (n - 1)).foldl (fun g i => g.addEdge (.name s!"r{i}") (.name s!"r{i + 1}") .empty) g

def projectSettings : Settings := Settings.defaults.setAll [
 ("dataset",.str "bench"),("num_workers",.int 1),("inference",.bool false),
  ("split_data",.bool false),
 ("real",.bool true),("import_subgraph_radius",.int 2),("import_subgraph_max",.int 10),
 ("import_subgraph_min",.int 2),("embedding_dim",.int 8),("n_graph_layer",.int 2),
  ("d_graph_layer",.int 8),
 ("n_FC_layer",.int 2),("d_FC_layer",.int 8),("batch_size",.int 4)]

def projectFolders : List String :=
 ["data/raw_datasets","data/datasets","data/data_processed","data/configs","training/save","training/runs",
  "evaluation/results"]

def importProject (queriesPerSource : Int) : Run Unit := do
 assign "num_subgraphs" (.int queriesPerSource)
 for folder in projectFolders do makeFolders (ofProject folder)
 writeDataset (recordChain recordCount) "bench"
 cleanUp
 refresh

def countIn (folder : String) : Run Value := return .int (← names (ofProject folder)).length

def projectImport (n : Int) : Run Value := do
 importProject n
 return .list [← setting "num_subgraphs",← countIn "data/datasets/bench_test",← countIn
  "data/datasets/bench_train"]

def training (n : Int) : Run Value := do
 assign "epoch" (.int n)
 assign "curriculum_training_steps" (.int 1)
 let version ← Training.train
 let log ← readText (ofProject "training/runs/bench/log_TS.csv")
 return .list [.int version,.int ((Text.lines log).length - 1)]

def evaluation (n : Int) : Run Value := do
 assign "epoch" (.int 1)
 let version ← Training.train
 assign "batch_size" (.int n)
 evaluateVerdicts (.int version)
 evaluateMappings (.int version)
 return .list [.int version,← setting "batch_size"]

end MotifMatch.Scenario

namespace MotifMatch

structure Scenario where
 name : String
 parameter : String
 layOut : Int → Run Unit
 answer : Int → Run Value

namespace Scenario

def nothing : Int → Run Unit := fun _ => return

def ofPure (f : Int → Except Error Value) : Int → Run Value := fun n => f n

def register : List Scenario := [
 ⟨"bench_data_synthesis_sample","n_sources",nothing,sourceDraws⟩,
 ⟨"bench_encoding_collate","n_samples",nothing,ofPure collation⟩,
 ⟨"bench_evaluate_models","n_batch",fun _ => importProject 2,evaluation⟩,
 ⟨"bench_full_import_and_synthesis","n_subgraphs",nothing,projectImport⟩,
 ⟨"bench_graph_combine_and_intersect","n_nodes",nothing,ofPure overlays⟩,
 ⟨"bench_graph_normalize","n_nodes",nothing,ofPure normalForms⟩,
 ⟨"bench_lg_file_parsing","n_graphs",nothing,ofPure listings⟩,
 ⟨"bench_model_forward","n_nodes",nothing,forwardPass⟩,
 ⟨"bench_training_loop","n_epochs",fun _ => importProject 2,training⟩]

def sizeFrom (s : Scenario) (params : List (Value × Value)) : Except Error Int :=
 match params with
 | [(.str name,v)] =>
  if name = s.parameter then
   match v with
   | .int i => .ok i
   | _ => .error .wrongType
  else .error .wrongType
 | _ => .error .wrongType

def run (s : Scenario) (size : Int) (repetitions : Nat) : Run (List Value) := do
 let laidOut ← apart projectSettings (do s.layOut size; get)
 (List.range repetitions).mapM fun _ =>
  apart laidOut.settings (do
   modify fun here => { here with files := laidOut.files }
   s.answer size)

def runNamed (name : String) (params : List (Value × Value)) (repetitions : Nat) :
 Run (List Value) := do
 match register.find? fun s => s.name == name with
 | none => throw .notImplemented
 | some s => s.run (← s.sizeFrom params) repetitions

end Scenario
end MotifMatch
