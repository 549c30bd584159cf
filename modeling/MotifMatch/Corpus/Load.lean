import MotifMatch.Graph.Anchor
import MotifMatch.Listing.Basic
import MotifMatch.Session

namespace MotifMatch.Corpus
open Run Listing Table MotifMatch.Path

abbrev Names := Table Int Int

def Names.flipped (m : Names) : Names := ofList (m.entries.map fun e => (e.2,e.1))

def Names.toValues (m : Names) : List (Value × Value) := m.entries.map fun e => (.int e.1,.int e.2)

def current : Run String := do
 let part := if ← flag "test_data" then "test" else "train"
 return (← shownSetting "dataset") ++ "_" ++ part

def sourceFile (source : Value) (name : String) : Run String := do
 let corpus ← current
 return ofProject ((← shownSetting "dataset_dir") ++ "/" ++ corpus ++ "/" ++ source.text ++
  "/" ++ name)

def markNodes (anchor : Value) : List (NodeId × Attrs) → List (NodeId × Attrs) × Except Error Unit
 | [] => ([],.ok ())
 | (n,a) :: rest =>
  let here := match n with
   | .num i => some i
   | .name s => Text.int? s
  match here with
  | none => ((n,a) :: rest,.error .badValue)
  | some i =>
   let mark : Int := if Value.int i == anchor then 1 else 0
   let (rest,r) := markNodes anchor rest
   ((n,a.put "anchor" (.int mark)) :: rest,r)

def markRows (mapping : Option (List (Value × Value))) :
 List (List String) → Graph → Graph × Except Error Unit
 | [], g => (g,.ok ())
 | cols :: rest, g =>
  if firstColumn cols == "p" then
   let anchor : Except Error Value := do
    let a ← number (lastColumn cols)
    match mapping with
    | none => return .int a
    | some m => match (mk m).get? (.int a) with
     | some v => return v
     | none => throw .missingKey
   match anchor with
   | .error e => (g,.error e)
   | .ok anchor =>
    match markNodes anchor g.nodes.entries with
    | (entries,.ok ()) => markRows mapping rest { g with nodes := ⟨entries⟩ }
    | (entries,.error e) => ({ g with nodes := ⟨entries⟩ },.error e)
  else markRows mapping rest g
where
 firstColumn (cols : List String) : String := Listing.firstColumn cols

def markedBy (text : String) (mapping : Option (List (Value × Value))) (g : Graph) :
 Graph × Except Error Unit :=
 markRows mapping ((rows text).take 3) g

def markAnchor (g : Graph) (source : Value) : Run Graph := do
 let text ← readText (← sourceFile source "source.lg")
 match markedBy text none g with
 | (g,.ok ()) => return g
 | (_,.error e) => throw e

def numbered {α : Type} (t : Table Int α) (index : Value) : Except Error α :=
 match index.number? with
 | some (.int i) => match t.get? i with
  | some a => .ok a
  | none => .error .missingKey
 | _ => if index.hashable then .error .missingKey else .error .wrongType

def sourceNames (source : Value) (flip : Bool) : Run Names := do
 let text ← readText (← sourceFile source "source_mapping.lg")
 let all ← Run.ofExcept (Listing.mappings false text)
 let m ← Run.ofExcept (numbered all source)
 let shifted : Names := ofList (m.entries.map fun e => (e.1 + 1,e.2))
 return if flip then shifted.flipped else shifted

def source (index : Value) (relabel : Bool) : Run Graph := do
 let text ← readText (← sourceFile index "source.lg")
 let all ← Run.ofExcept (Listing.graphs (← Run.flag "directed") text)
 let g ← Run.ofExcept (numbered all index)
 let g ← markAnchor g index
 if relabel then
  let names ← sourceNames index true
  Run.ofExcept (g.relabeled names.toValues)
 else return g

def sources (relabel : Bool) : Run (Table Int Graph) := do
 let folder := ofProject (join (← settingText "dataset_dir") (← current))
 let names ← names folder
 let numbers ← Run.ofExcept (names.mapM Listing.number)
 let numbers := numbers.mergeSort fun a b => decide (a ≤ b)
 numbers.foldlM (fun (t : Table Int Graph) i => do return t.put i (← source (.int i) relabel)) .empty

def queryKind : Run String := return (if ← flag "iso" then "iso" else "noniso") ++ "_subgraphs"

def queryNames (source : Value) (flip : Bool) : Run (Table Int Names) := do
 let text ← readText (← sourceFile source ((← queryKind) ++ "_mapping.lg"))
 let all ← Run.ofExcept (Listing.mappings false text)
 return if flip then all.mapValues fun _ m => Names.flipped m else all

def queryNamesOf (source query : Value) (flip : Bool) : Run Names := do
 Run.ofExcept (numbered (← queryNames source flip) query)

def renamedQuery (index : Value) (byQuery : Table Int Names) (bySource : Names) (number : Int)
 (g : Graph) : Run Graph := do
 let names ← Run.ofExcept (numbered byQuery (.int number))
 let g ← Run.ofExcept (g.relabeled names.toValues)
 let g ← markAnchor g index
 Run.ofExcept (g.relabeled bySource.toValues)

def queries (index : Value) (relabel : Bool) : Run (Table Int Graph) := do
 let text ← readText (← sourceFile index ((← queryKind) ++ ".lg"))
 let all ← Run.ofExcept (Listing.graphs (← Run.flag "directed") text)
 if relabel then
  let byQuery ← queryNames index true
  let bySource ← sourceNames index true
  all.entries.foldlM (fun (t : Table Int Graph) e => do
   return t.put e.1 (← renamedQuery index byQuery bySource e.1 e.2)) all
 else return all

def query (index which : Value) (relabel : Bool) : Run Graph := do
 Run.ofExcept (numbered (← queries index relabel) which)

end MotifMatch.Corpus
