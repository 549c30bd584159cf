import MotifMatch.Catalog
import MotifMatch.Tensor.Basic

namespace MotifMatch.Evaluation
open Scalar Catalog
variable {α : Type} [Scalar α]

def undefined (x : α) : Bool := !eq x x

def ascending (x y : α) : Bool := if undefined x then undefined y else undefined y || le x y

def largest : List α → Except Error α
 | [] => .error .badValue
 | x :: rest => .ok (rest.foldl larger x)

def passed (bound : Nat) (place : α) : Nat :=
 ((List.range bound).filter fun i => le (ofNat (i + 1)) place).length

def between (a b share : α) : α :=
 let d := b - a
 if le (ofScientific 5 true 1) share then b - d * (one - share) else a + d * share

def quantile (share : α) (xs : List α) : Except Error α :=
 if !(le zero share && le share one) then .error .badValue
 else match xs with
 | [] => .error .indexOutOfRange
 | first :: _ =>
  match xs.find? undefined with
  | some x => .ok x
  | none =>
   let sorted := (xs.mergeSort ascending).toArray
   let place := share * ofNat (xs.length - 1)
   let low := passed (xs.length - 1) place
   let high := min (low + 1) (xs.length - 1)
   .ok (between (sorted.getD low first) (sorted.getD high first) (place - ofNat low))

inductive Aggregation where
 | mean
 | largest
 | quantile
 deriving DecidableEq, Repr, Inhabited

def Aggregation.apply : Aggregation → Option α → List α → Except Error α
 | .quantile, share, xs => Evaluation.quantile (share.getD (Scalar.ofScientific 8 true 1)) xs
 | .mean, none, xs => .ok (Statistics.mean xs)
 | .largest, none, xs => Evaluation.largest xs
 | _, some _, _ => .error .wrongType

variable {α : Type} [Scalar α]

abbrev Notes := Attrs

def note (m : Notes) (name : String) : Except Error Value :=
 match m.get? name with
 | some v => .ok v
 | none => .error .missingKey

abbrev Groups := Table Value (Table Value (List Int))

def Groups.add (g : Groups) (key kind : Value) (place : Int) : Groups :=
 let inner := g.getD key .empty
 g.put key (inner.put kind (inner.getD kind [] ++ [place]))

def groupStep (name : String) (g : Groups) (e : Notes × Nat) : Except Error Groups := do
 let key ← note e.1 name
 let kind ← note e.1 "pattern_type"
 if key.hashable && kind.hashable then return g.add key kind e.2 else throw .wrongType

def groupBy (name : String) (notes : List Notes) : Except Error Groups :=
 notes.zipIdx.foldlM (groupStep name) .empty

def bySource (notes : List Notes) : Except Error Groups := groupBy "gidx" notes

def byInstance (notes : List Notes) : Except Error Groups := groupBy "pattern_id" notes

def instanceOfSource (notes : List Notes) : Except Error (Table Value Value) :=
 notes.foldlM (fun (t : Table Value Value) m => do
  let source ← note m "gidx"
  if source.hashable then return t.put source (← note m "pattern_id") else throw .wrongType) .empty

def pick {β : Type} (xs : List β) (i : Int) : Except Error β :=
 let j := if i < 0 then i + xs.length else i
 if j < 0 then .error .indexOutOfRange
 else match xs[j.toNat]? with
  | some x => .ok x
  | none => .error .indexOutOfRange

def noted (m : Notes) (name : String) (standard : α) : Except Error α :=
 match m.get? name with
 | none => .ok standard
 | some v => match (v.toScalar? : Option α) with
  | some x => .ok x
  | none => .error .wrongType

def weighed (m : Notes) (p : α) : Except Error α := do
 return (← noted m "pred_r" p) * (← noted m "pred_w" one)

abbrev Scores (α : Type) := Table Value (Table Value α)

def groupScore (preds : List α) (notes : List Notes) (how : Aggregation) (share : Option α)
 (places : List Int) :
 Except Error α := do
 let ps ← places.mapM (pick preds)
 let ms ← places.mapM (pick notes)
 how.apply share (← (ms.zip ps).mapM fun e => weighed e.1 e.2)

def mapTable {κ ν μ : Type} (f : ν → Except Error μ) (t : Table κ ν) :
 Except Error (Table κ μ) := do
 return ⟨← t.entries.mapM fun e => do return (e.1,← f e.2)⟩

def scores (g : Groups) (preds : List α) (notes : List Notes) (how : Aggregation)
 (share : Option α) :
 Except Error (Scores α) :=
 mapTable (mapTable (groupScore preds notes how share)) g

def types (g : Groups) (notes : List Notes) : Except Error (Table Value Value) :=
 g.entries.foldlM (fun (t : Table Value Value) e =>
  e.2.entries.foldlM (fun (t : Table Value Value) group =>
   match group.2 with
   | [] => return t
   | place :: _ => do return t.put e.1 (← note (← pick notes place) "source_type")) t) .empty

variable {α : Type} [Scalar α]

structure Verdict (α : Type) where
 truth : Value
 guess : Value
 score : Option α

def noPattern : Value := .str Catalog.noPattern

def lastOf {β : Type} (count : Int) (xs : List β) : List β :=
 if count < 0 then xs.drop count.natAbs
 else if count = 0 then xs
 else xs.drop (xs.length - count.toNat)

def ranked (count : Int) (scores : List (Value × α)) : List (Value × α) :=
 (lastOf count (scores.mergeSort fun a b => ascending a.2 b.2)).reverse

def judged (confidence : α) (truth : Value) (e : Value × α) : Verdict α :=
 ⟨truth,if lt confidence e.2 then e.1 else noPattern,some e.2⟩

def labels (types : Table Value Value) (scores : Scores α) (confidence : α) (count : Int) :
 Except Error (List (Verdict α)) := do
 let groups ← types.entries.mapM fun e => do
  match scores.get? e.1 with
  | none => throw .missingKey
  | some s => return (ranked count s.entries).map (judged confidence e.2)
 return groups.flatten

structure Tally (α : Type) where
 truth : Value
 guesses : List (Value × α)

def found {κ ν : Type} [BEq κ] (t : Table κ ν) (k : κ) : Except Error ν :=
 match t.get? k with
 | some v => .ok v
 | none => .error .missingKey

def tallyStep (home : Table Value Value) (verdicts : List (Verdict α)) (t : Table Value (Tally α))
 (e : Value × Nat) :
 Except Error (Table Value (Tally α)) := do
 let instanceId ← found home e.1
 let v ← pick verdicts e.2
 let guesses := ((t.get? instanceId).map Tally.guesses).getD []
 return t.put instanceId ⟨v.truth,guesses ++ v.score.toList.map fun s => (v.guess,s)⟩

def bestScores (guesses : List (Value × α)) : Table Value α :=
 guesses.foldl (fun (t : Table Value α) e =>
  t.put e.1 (match t.get? e.1 with
   | some s => if lt s e.2 then e.2 else s
   | none => e.2)) .empty

def bestGuess (scores : Table Value α) : Value × Option α :=
 scores.entries.foldl (fun (best : Value × Option α) e =>
  if lt (best.2.getD zero) e.2 then (e.1,some e.2) else best) (noPattern,none)

def Tally.verdict (t : Tally α) : Verdict α :=
 let best := bestScores t.guesses
 match best.get? t.truth with
 | some s => ⟨t.truth,t.truth,some s⟩
 | none =>
  let (guess,score) := bestGuess best
  ⟨t.truth,guess,score⟩

def instanceLabels (types : Table Value Value) (scores : Scores α) (instances : Groups)
 (notes : List Notes)
 (confidence : α) : Except Error (List (Verdict α)) := do
 let verdicts ← labels types scores confidence 1
 let home ← instanceOfSource notes
 let tallies ← types.keys.zipIdx.foldlM (tallyStep home verdicts) .empty
 instances.keys.mapM fun k => do return (← found tallies k).verdict

def labelNumber (label : Value) : Except Error Nat :=
 if label == noPattern then .ok 0
 else do return designPattern.position (← designPattern.memberWith label)

variable {α : Type} [Scalar α]

def total (t : Tensor α) : α := t.data.foldl (fun acc x => acc + x) zero

def meanOf (t : Tensor α) : α := total t / ofNat t.count

def lengthOf (t : Tensor α) : Except Error α :=
 match t.shape with
 | [] => .error .wrongType
 | n :: _ => .ok (ofNat n)

def ones (t : Tensor α) : Tensor α := t.map fun x => Tensor.mark (eq x one)

def accuracy (truth guess : Tensor α) : Except Error α := do return meanOf (← truth.equals guess)

def hits (weighted : Bool) (truth guess : Tensor α) : Except Error α := do
 return total (← (if weighted then guess.equals truth else (ones guess).times (ones truth)))

def quotient (a b : α) : α := if lt zero b then a / b else zero

def precision (weighted : Bool) (truth guess : Tensor α) : Except Error α := do
 let h ← hits weighted truth guess
 return quotient h (← (if weighted then lengthOf guess else .ok (total (ones guess))))

def «recall» (weighted : Bool) (truth guess : Tensor α) : Except Error α := do
 let h ← hits weighted truth guess
 return quotient h (← (if weighted then lengthOf truth else .ok (total (ones truth))))

def harmonic (weighted : Bool) (truth guess : Tensor α) : Except Error α := do
 let p ← precision weighted truth guess
 let r ← «recall» weighted truth guess
 return quotient (ofInt 2 * p * r) (p + r)

def area (scores : Tensor α) : α := ofScientific 5 true 1 + ofScientific 1 true 2 * meanOf scores

def indicatorRows (labels classes : List Value) : Tensor α :=
 let cs := classes.toArray
 let ls := labels.toArray
 .build [labels.length,classes.length] fun k =>
  Tensor.mark (ls.getD (k / classes.length) .none == cs.getD (k % classes.length) .none)

structure Metrics (α : Type) where
 accuracy : α
 precision : α
 «recall» : α
 harmonic : α
 area : α

def measured (weighted : Bool) (truth guess scores : Tensor α) : Except Error (Metrics α) := do
 return {
   accuracy := ← accuracy truth guess
   precision := ← precision weighted truth guess
   «recall» := ← «recall» weighted truth guess
   harmonic := ← harmonic weighted truth guess
   area := area scores }

def distinct (xs : List Int) : List Int := (xs.mergeSort fun a b => decide (a ≤ b)).eraseDups

def ofInts (xs : List Int) : Tensor α := .vector (xs.map ofInt)

def metrics (guesses truths : List Int) : Except Error (Metrics α) :=
 let classes := distinct (truths ++ guesses)
 if 2 < classes.length then
  measured true (ofInts truths) (ofInts guesses)
   (indicatorRows (guesses.map .int) (classes.map .int))
 else
  let renumber (xs : List Int) : Tensor α := .vector (xs.map fun x => ofNat (classes.idxOf x))
  measured false (renumber truths) (renumber guesses) (renumber guesses)

end MotifMatch.Evaluation
