import MotifMatch.Arrange
import MotifMatch.Checkpoint
import MotifMatch.Encoding.Sample

namespace MotifMatch
open Run MotifMatch.Path Draw Checkpoint

structure Curriculum where
 pool : List String
 levels : Option (Table Int (List String))
 limit : Int
 balanced : Bool
 size : Nat
 keys : List String
 folder : String
 width : Value
 anchored : Bool
 deriving Inhabited

namespace Curriculum

def isIso (key : String) : Bool := Text.occursIn "iso" key

def isNon (key : String) : Bool := Text.occursIn "non" key

def keysAt (path : String) : Run (List String) := do
 match (← fetch path).elements? with
 | some xs => return xs.filterMap fun x => match x with
  | .data (.str s) => some s
  | _ => none
 | none => throw .wrongType

def firstFilled (levels : Table Int (List String)) : Nat → Int → Except Error Int
 | 0, _ => .ok (-1)
 | n + 1, k =>
  if k ≤ levels.size then
   match levels.get? k with
   | none => .error .missingKey
   | some [] => firstFilled levels n (k + 1)
   | some _ => .ok k
  else .ok (-1)

def startLevel (levels : Option (Table Int (List String))) (start : Int) : Except Error Int :=
 match levels with
 | none => .ok (-1)
 | some t => firstFilled t ((t.size : Int) - start + 1).toNat start

def levelsDown (levels : Table Int (List String)) : Nat → Int → List (List String)
 | 0, _ => []
 | n + 1, k => match levels.get? k with
  | none => []
  | some keys => keys :: levelsDown levels n (k - 1)

def balance (size : Nat) (keys : List String) (mix : Bool) : Draw (List String) := do
 let iso := keys.filter isIso
 let non := keys.filter isNon
 let iso ← if mix then shuffle iso else pure iso
 let non ← if mix then shuffle non else pure non
 let count := min iso.length (min non.length (size / 2))
 let both := Arrange.interleave [(iso.take count).map some,(non.take count).map some]
 if mix then shuffle both else return both

def refill (c : Curriculum) : Draw Curriculum := do
 let admitted := match c.levels with
  | none => none
  | some t =>
   if t.contains c.limit then
    some (Arrange.interleave ((levelsDown t (t.size + 1) c.limit).map fun keys => keys.map some))
   else none
 let c := match admitted with
  | some keys => { c with keys }
  | none => { c with keys := c.pool, limit := -1 }
 if c.balanced then return { c with keys := ← balance c.size c.keys true } else return c

def lift (c : Curriculum) : Draw Curriculum := refill { c with limit := -1 }

def raise (c : Curriculum) (amount : Int) : Draw Curriculum := do
 if c.limit < 0 then return c
 let limit := c.limit + amount
 let top := ((c.levels.getD .empty).keys).foldl max (-1)
 if top < limit then lift { c with limit } else refill { c with limit }

def levelRanges : List String := ["0_5","5_10","10_15","15_20","20_30","30_40"]

def storedLevels (train : Bool) : Run (Table Int (List String)) := do
 let store ← settingText "data_processed_dir"
 let dataset ← match ← datasetName with
  | .str s => pure s
  | _ => throw .wrongType
 let folder := ofProject (join store dataset)
 let tag := if train then "train" else "test"
 let entries ← levelRanges.zipIdx.mapM fun e => do
  let keys ← keysAt (ofProject (join folder s!"{tag}_keys_graph_size_{e.1}.pkl"))
  return ((e.2 + 1 : Int),keys)
 return ⟨entries⟩

def start (pool : List String) (levels : Option (Table Int (List String))) (first maxSize : Int)
 (balanced : Bool) :
 Run Curriculum := do
 let dataset ← datasetName
 let folder ← settingText "data_processed_dir"
 let dataset ← match dataset with
  | .str s => pure s
  | _ => throw .wrongType
 let limit ← Run.ofExcept (startLevel levels first)
 let size := if maxSize < 0 then pool.length else min maxSize.toNat pool.length
 let c ← draw (refill {
   pool, levels, limit, balanced, size
   keys := pool
   folder := ofProject (join folder dataset)
   width := .none
   anchored := false })
 return { c with width := ← setting "embedding_dim", anchored := ← flag "anchored" }

def keyAt (c : Curriculum) (i : Int) : Except Error String :=
 if c.keys.isEmpty then .error .divisionByZero
 else match c.keys[(i % (c.keys.length : Int)).toNat]? with
  | some k => .ok k
  | none => .error .indexOutOfRange

structure Pair where
 query : Graph
 source : Graph
 mapping : Value

def pairOf (x : Item) : Except Error Pair :=
 match x.elements? with
 | some [.graph query,.graph source,m] => match m.value? with
  | some mapping => .ok ⟨query,source,mapping⟩
  | none => .error .wrongType
 | some [.graph query,.graph source] => .ok ⟨query,source,.list []⟩
 | some _ => .error .badValue
 | none => .error .wrongType

def pairAt (c : Curriculum) (i : Int) : Run Pair := do
 let key ← Run.ofExcept (c.keyAt i)
 Run.ofExcept (pairOf (← Run.fetch (Path.join c.folder key)))

def sampleAt {α : Type} [Scalar α] (c : Curriculum) (i : Int) : Run (Encoding.Sample α) := do
 let key ← Run.ofExcept (c.keyAt i)
 let p ← c.pairAt i
 Run.ofExcept (Encoding.encode p.query p.source c.width c.anchored (Encoding.pairsOf p.mapping)
  (.str key) false)

end Curriculum
end MotifMatch
