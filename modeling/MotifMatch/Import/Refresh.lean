import MotifMatch.Corpus.Generate
import MotifMatch.Import.Datasets
import MotifMatch.Preparation.Process

namespace MotifMatch.Import
open Run MotifMatch.Path

def memberOf (row : List (Value × Value)) (name : String) : Except Error Value :=
 match (Table.mk row).get? (.str name) with
 | some v => .ok v
 | none => .error .missingKey

def reservedNames : List String := ["labels","node_for_adding","self"]

def properties : Value → Except Error Attrs
 | .dict kvs => do
  let entries ← kvs.mapM fun e => match e.1 with
   | .str k => if reservedNames.contains k then .error .wrongType else .ok (k,e.2)
   | _ => .error Error.wrongType
  return ⟨entries⟩
 | _ => .error .wrongType

def nodeIdOf (v : Value) : Except Error NodeId :=
 match v with
 | .none => .error .badValue
 | v => if v.hashable then .ok ((NodeId.ofValue? v).getD (.name v.text)) else .error .wrongType

def addEnd (g : Graph) (id labels props : Value) : Except Error Graph := do
 let attrs ← properties props
 return g.addNode (← nodeIdOf id) ⟨("labels",labels) :: attrs.entries⟩

def addRow (g : Graph) (row : List (Value × Value)) : Graph × Except Error Unit :=
 let fields := do
  return (← memberOf row "source_id",← memberOf row "source_labels",← memberOf row
   "source_properties",
   ← memberOf row "target_id",← memberOf row "target_labels",← memberOf row "target_properties",
   ← memberOf row "edge_type")
 match fields with
 | .error e => (g,.error e)
 | .ok (u,uLabels,uProps,v,vLabels,vProps,kind) =>
  match addEnd g u uLabels uProps with
  | .error e => (g,.error e)
  | .ok g =>
   match addEnd g v vLabels vProps with
   | .error e => (g,.error e)
   | .ok g =>
    match nodeIdOf u, nodeIdOf v with
    | .ok a, .ok b => (g.addEdge a b (.ofList [("type",kind)]),.ok ())
    | _, _ => (g,.error .badValue)

def listToFlags (key : String) (a : Table Value Value) : Table Value Value :=
 match a.get? (.str key) with
 | some (.list xs) =>
  (xs.foldl (fun (t : Table Value Value) x => t.put (.str (key ++ "." ++ x.text)) (.bool true))
   a).erase (.str key)
 | _ => a

def joinLists (a : Table Value Value) : Table Value Value :=
 a.mapValues fun _ v => match v with
  | .list xs => .str (String.intercalate "," (xs.map Value.text))
  | v => v

def withoutDots (s : String) : String := Text.replace "." "_" s

def replaceDots (a : Table Value Value) : Except Error (Table Value Value) := do
 let entries ← a.entries.mapM fun e => match e.1 with
  | .str k => Except.ok (Value.str (withoutDots k),e.2)
  | _ => .error .missingAttribute
 return .ofList entries

def asTable (a : Attrs) : Table Value Value := ⟨a.entries.map fun e => (.str e.1,e.2)⟩

def asAttrs (t : Table Value Value) : Attrs := ⟨t.entries.map fun e => (e.1.text,e.2)⟩

def dotless (t : Table Value Value) : Table Value Value :=
 .ofList (t.entries.map fun e => (.str (withoutDots e.1.text),e.2))

def preparedNode (a : Attrs) : Attrs :=
 asAttrs (dotless (joinLists (listToFlags "labels" (asTable a))))

def preparedEdge (a : Attrs) : Attrs := asAttrs (dotless (joinLists (asTable a)))

def prepared (g : Graph) : Graph :=
 { g with
   nodes := g.nodes.mapValues fun _ a => preparedNode a
   edges := g.edges.map fun e => { e with attrs := preparedEdge e.attrs } }

def writeDataset (g : Graph) (name : String) : Run Unit := do
 let file := ofRoot s!"datasets/{name}.gml"
 let folder := String.intercalate "/" ((Text.splitOn '/' file).dropLast)
 unless ← pathExists folder do makeFolders folder
 Gml.write file g

def emptyDataset : Graph := { Graph.empty true with multi := true }

def addToDataset (graphs : Table Value Graph) (row : Value) : Except Error (Table Value Graph) := do
 match row with
 | .dict kvs =>
  match ← memberOf kvs "source_properties" with
  | .dict props =>
   let name ← memberOf props "node.dataset"
   if !name.hashable then throw .wrongType
   let (g,r) := addRow (graphs.getD name emptyDataset) kvs
   r
   return graphs.put name g
  | _ => throw .wrongType
 | _ => throw .wrongType

def importRecords : Run Unit := do
 let graphs ← Run.ofExcept ((← get).records.foldlM addToDataset .empty)
 graphs.entries.forM fun e => writeDataset (prepared e.2) e.1.text

def cleanUp : Run Unit := do
 let dataset ← shownSetting "dataset"
 let store := dataset ++ (if ← flag "directed" then "_directed" else "")
 let raw ← settingText "raw_dataset_dir"
 let corpus ← settingText "dataset_dir"
 let processed ← settingText "data_processed_dir"
 deletePaths ([join raw dataset,join corpus (dataset ++ "_train"),
  join corpus (dataset ++ "_test"),join processed store].map ofProject) false

def refresh : Run Unit := do
 importDatasets
 Corpus.generateDataset
 unless ← flag "inference" do
  unless ← flag "split_data" do Corpus.synthesizeDataset
  Preparation.process

end MotifMatch.Import
