import MotifMatch.Graph.Anchor
import MotifMatch.Listing.Basic
import MotifMatch.Session

namespace MotifMatch.Annotations
open Run MotifMatch.Path Text

def companion (ending : String) : Run (List String) := do
 let dataset ← settingText "dataset"
 let path := join (join (← settingText "raw_dataset_dir") dataset) (dataset ++ ending)
 return splitOn '\n' (stripString (← readText (ofProject path)))

def numberRows : Nat → List String → List (String × String)
 | _, [] => []
 | n, r :: rest => (toString n,r) :: numberRows (n + 1) rest

def perNode (ending : String) : Run (Table String String) := do
 return Table.ofList (numberRows 1 (← companion ending))

def recordScopes : Run (Table String String) := perNode ".record_scopes"

def recordDatasets : Run (Table String String) := perNode ".record_datasets"

def patternRow (t : Table String String) (row : String) : Except Error (Table String String) :=
 match splitOn ' ' row with
 | node :: pattern :: _ => do return t.put (toString (← Listing.number node)) pattern
 | _ => .ok t

def designPatterns : Run (Table String String) := do
 Run.ofExcept ((← companion ".pattern_types").foldlM patternRow .empty)

def groupByPattern {ι : Type} (patterns : Table String String) (graphs : List (ι × Graph)) :
 Except Error (Table Member (List ι)) :=
 graphs.foldlM (fun (t : Table Member (List ι)) e => do
  match patterns.get? e.2.anchor.text with
  | none => return t
  | some p =>
   let m ← Catalog.designPattern.memberWith (.str p)
   return t.put m (t.getD m [] ++ [e.1])) .empty

def patternIndex {ι : Type} (graphs : List (ι × Graph)) : Run (Table Member (List ι)) := do
 Run.ofExcept (groupByPattern (← designPatterns) graphs)

def select {ι γ : Type} (find : ι → Except Error γ) (index : List (String × List ι)) :
 Except Error (Table String (List γ)) :=
 index.foldlM (fun (t : Table String (List γ)) e => do return t.put e.1 (← e.2.mapM find)) .empty

def unselected {ι γ : Type} [BEq ι] (graphs : List (ι × γ)) (taken : List ι) (limit : Int) :
 List γ :=
 let rest := (graphs.filter fun e => !taken.contains e.1).map Prod.snd
 if 0 < limit then rest.take limit.toNat else rest

def patternGraphs {ι : Type} [BEq ι] (graphs : List (ι × Graph)) :
 Run (Table String (List Graph)) := do
 let index ← patternIndex graphs
 let find (i : ι) : Except Error Graph := match (Table.mk graphs).get? i with
  | some g => .ok g
  | none => .error .missingKey
 Run.ofExcept (select find (index.entries.map fun e => (e.1.value,e.2)))

end MotifMatch.Annotations
