import MotifMatch.Gml.Read

namespace MotifMatch.Import
open Run Catalog MotifMatch.Path

structure Collection where
 graph : Graph
 names : Table String Int
 anchors : Table Int Int
 deriving Inhabited

def Collection.start : Collection := ⟨.empty true,.empty,.empty⟩

def flagOf (m : Member) : String := "labels_" ++ m.value

def recordLabel? (a : Attrs) : Option Member :=
 nodeLabel.members.find? fun m => a.contains (flagOf m)

def patternsOf (a : Attrs) : List String :=
 (designPattern.members.filter fun m => a.contains (flagOf m)).map Member.value

def isRecord (a : Attrs) : Bool := (recordLabel? a).any fun m => nodeLabel.position m == recordIndex

def keptAttrs (number : Int) (label : Member) (a : Attrs) : Attrs :=
 .ofList [
  ("label",.int (nodeLabel.position label)),
  ("graph_idx",.int number),
  ("pattern_types",.list ((patternsOf a).map .str)),
  ("pattern_id",a.getD "node_patternId" .none),
  ("record_scope",a.getD "node_scopedRecordName" (.str "None")),
  ("record_dataset",a.getD "node_dataset" (.str "None"))]

def nameIn (number : Int) (n : NodeId) : String := s!"{number}::" ++ n.text

def addNode (number : Int) (anchor : NodeId) (c : Collection) (e : NodeId × Attrs) : Collection :=
 match recordLabel? e.2 with
 | none => c
 | some label =>
  let place : Int := c.graph.size + 1
  { graph := c.graph.addNode (.num place) (keptAttrs number label e.2)
    names := c.names.put (nameIn number e.1) place
    anchors := if e.1 == anchor then c.anchors.put number place else c.anchors }

def addEdge (number : Int) (c : Collection) (e : Edge) : Collection :=
 match c.names.get? (nameIn number e.source), c.names.get? (nameIn number e.target) with
 | some u, some v => { c with graph := c.graph.addEdge (.num u) (.num v) .empty }
 | _, _ => c

def Collection.add (c : Collection) (source : Graph) (anchor : NodeId) (number : Int) : Collection :=
 source.edgeList.foldl (addEdge number) (source.nodes.entries.foldl (addNode number anchor) c)

structure Resizing where
 radius : Int
 ball : Graph

def resize (g : Graph) (anchor : NodeId) (unfit : Nat → Bool) (step : Int) :
 Nat → Resizing → Except Error (Nat × Resizing)
 | 0, s => .ok (0,s)
 | n + 1, s =>
  if unfit s.ball.size then do
   let radius := s.radius + step
   resize g anchor unfit step n ⟨radius,← g.ball anchor radius⟩
  else .ok (n + 1,s)

def maxTries : Nat := 10

def neighbourhood (g : Graph) (anchor : NodeId) (radius least most : Int) : Except Error Graph := do
 let ball ← g.ball anchor radius
 let (tries,s) ← resize g anchor (fun n => most < n) (-1) maxTries ⟨radius,ball⟩
 let (_,s) ← resize g anchor (fun n => (n : Int) < least) 1 tries s
 if most < s.ball.size || (s.ball.size : Int) < least then return .empty true
 return s.ball.recast true false

def writeRows (path : String) (rows : List (Except Error String)) : Run Unit := do
 let written := rows.takeWhile fun r => match r with
  | .ok _ => true
  | .error _ => false
 writeText path (String.join (written.map fun r => match r with
  | .ok s => s ++ "\n"
  | .error _ => ""))
 match (rows.drop written.length).head? with
 | some (.error e) => throw e
 | _ => return

def attr (a : Attrs) (name : String) : Except Error Value :=
 match a.get? name with
 | some v => .ok v
 | none => .error .missingKey

def scopeRow (a : Attrs) : Except Error String := do
 return (PatternId.encode (← attr a "record_scope") (a.getD "pattern_id" .none)).text

def patternRows (e : NodeId × Attrs) : List (Except Error String) :=
 match attr e.2 "pattern_types" with
 | .error x => [.error x]
 | .ok (.list ps) => ps.map fun p => .ok (e.1.text ++ " " ++ p.text)
 | .ok (.tuple ps) => ps.map fun p => .ok (e.1.text ++ " " ++ p.text)
 | .ok _ => [.error .wrongType]

def outputFolder (dataset : String) : Run String := do
 let folder := ofProject (join (← settingText "raw_dataset_dir") dataset)
 unless ← pathExists folder do makeFolder folder
 return folder

def writeFiles (g : Graph) (names anchors : List (Value × Value)) : Run Unit := do
 let dataset ← settingText "dataset"
 let folder ← outputFolder dataset
 let file (ending : String) : String := join folder (dataset ++ ending)
 let perNode (name : String) : List (Except Error String) :=
  g.nodes.values.map fun a => do return (← attr a name).text
 writeRows (file ".node_labels") (perNode "label")
 writeRows (file ".edges") (g.edgeList.map fun e => .ok (e.source.text ++ ", " ++ e.target.text))
 writeRows (file ".graph_idx") (perNode "graph_idx")
 writeRows (file ".node_id_mapping") (names.map fun e => .ok (e.2.text ++ " " ++ e.1.text))
 writeRows (file ".anchors") (anchors.map fun e => .ok (e.1.text ++ " " ++ e.2.text))
 writeRows (file ".record_scopes") (g.nodes.values.map scopeRow)
 writeRows (file ".record_datasets") (perNode "record_dataset")
 writeRows (file ".pattern_types") (g.nodes.entries.flatMap patternRows)

def Collection.write (c : Collection) : Run Unit :=
 writeFiles c.graph (c.names.entries.map fun e => (.str e.1,.int e.2))
  (c.anchors.entries.map fun e => (.int e.1,.int e.2))

structure Progress where
 collected : Collection
 next : Option Int

def collectAround (g : Graph) (radius least most : Int) (p : Progress) (e : NodeId × Attrs) :
 Except Error Progress := do
 if !isRecord e.2 then return p
 let part ← neighbourhood g e.1 radius least most
 if part.size = 0 then return p
 match p.next with
 | none => throw .wrongType
 | some number => return ⟨p.collected.add part e.1 number,some (number + 1)⟩

def readDataset (name : String) (p : Progress) : Run Progress := do
 let format ← settingText "import_format"
 let file := ofRoot ((← shownSetting "import_dir") ++ name ++ format)
 let g ← (if format = ".gml" then Gml.read file else pure (.empty true))
 if g.size = 0 then return { p with next := none }
 let radius ← settingInt "import_subgraph_radius"
 let least ← settingInt "import_subgraph_min"
 let most ← settingInt "import_subgraph_max"
 Run.ofExcept (g.nodes.entries.foldlM (collectAround g radius least most) p)

def takesPart (file : String) : Run Bool := do
 if !file.endsWith (← settingText "import_format") then return false
 match ← setting "import_prefix" with
 | .none => return true
 | .str start => return file.startsWith start
 | _ => throw .wrongType

def importDatasets : Run Unit := do
 seed (← settingInt "seed")
 let files ← names (ofRoot (← settingText "import_dir"))
 let p ← (Entry.sortNames files).foldlM (fun p file => do
  if ← takesPart file then readDataset ((Text.splitOn '.' file).headD "") p else return p)
   ⟨.start,some 1⟩
 if p.collected.graph.size = 0 then return
 p.collected.write

end MotifMatch.Import
