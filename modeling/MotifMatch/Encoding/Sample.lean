import MotifMatch.Catalog
import MotifMatch.Graph.Anchor
import MotifMatch.Tensor.Basic

namespace MotifMatch.Encoding
open Scalar

def setAt (xs : List Value) (place : Value) (x : Value) : Except Error (List Value) :=
 match place.number? with
 | some (.int i) =>
  let j := if i < 0 then i + xs.length else i
  if 0 ≤ j && j < xs.length then .ok (xs.set j.toNat x) else .error .indexOutOfRange
 | _ => .error .wrongType

def widthOf (width : Value) : Except Error Nat :=
 match width.toInt? with
 | some w => .ok w.toNat
 | none => .error .wrongType

def reaches (x bound : Value) : Except Error Bool :=
 match x.number?, bound.number? with
 | some a, some b => .ok (a.compare? b == some .gt || a.compare? b == some .eq)
 | _, _ => .error .wrongType

def oneHot (label anchor width : Value) (anchored : Bool) : Except Error (List Value) := do
 let blank := List.replicate (← widthOf width) (Value.int 0)
 let stand : Value := .int (Catalog.defaultInteraction + 1)
 if anchored then
  let label := if ← reaches label width then stand else label
  let marked ← setAt blank (.int 0) anchor
  setAt marked label (.int 1)
 else
  let label := if ← reaches (← label.add (.int (-1))) width then stand else label
  setAt blank (← label.add (.int (-1))) (.int 1)

def strictOneHot (label anchor width : Value) (anchored : Bool) : Except Error (List Value) := do
 let blank := List.replicate (← widthOf width) (Value.int 0)
 if anchored then
  let marked ← setAt blank (.int 0) anchor
  setAt marked label (.int 1)
 else setAt blank (← label.add (.int (-1))) (.int 1)

def nodeVector (rule : Value → Value → Value → Bool → Except Error (List Value))
 (g : Graph) (n : NodeId) (width : Value) (anchored : Bool) : Except Error (List Value) := do
 match g.attrs? n with
 | none => throw .missingKey
 | some a =>
  let label ← Graph.attrOf a "label"
  let anchor := if anchored then a.getD "anchor" (.int 0) else .int 0
  rule label anchor width anchored

def indicators (x allowed : Value) (members : List Value) : Except Error (List Bool) :=
 if members.any fun m => x == m then .ok (members.map fun m => x == m)
 else .error (.notAllowed x.text allowed.text)

def indicatorsOrLast (x : Value) (members : List Value) : Except Error (List Bool) :=
 if members.any fun m => x == m then .ok (members.map fun m => x == m)
 else match members.getLast? with
  | some last => .ok (members.map fun m => last == m)
  | none => .error .indexOutOfRange

variable {α : Type} [Scalar α]

def numbers (xs : List Value) : Except Error (List α) :=
 xs.mapM fun v => match (v.toScalar? : Option α) with
  | some x => .ok x
  | none => .error .badValue

def nodeMatrix (g : Graph) (width : Value) (anchored : Bool) : Except Error (Tensor α) := do
 let rows : List (List α) ← g.ids.mapM fun n => do numbers (← nodeVector oneHot g n width anchored)
 match rows with
 | [] => return ⟨[0],#[]⟩
 | r :: _ => return ⟨[rows.length,r.length],rows.flatten.toArray⟩

variable {α : Type} [Scalar α]

structure Sample (α : Type) where
 size : Nat
 features : Tensor α
 inner : Tensor α
 outer : Tensor α
 verdict : Int
 mask : Tensor α
 key : Value
 mapping : Tensor α
 sameLabel : Tensor α

def adjacency (g : Graph) : Except Error (Tensor α) := do
 let ids := g.ids
 let n := ids.length
 let add (t : Array α) (u v : NodeId) (w : α) : Array α :=
  let i := ids.idxOf u * n + ids.idxOf v
  if g.multi then t.modify i fun x => x + w else t.setIfInBounds i w
 let entries ← g.edges.foldlM (fun (t : Array α) e => do
  let w : α ← match e.attrs.get? "weight" with
   | none => pure one
   | some v => match (v.toScalar? : Option α) with
    | some x => pure x
    | none => throw .badValue
  let t := add t e.source e.target w
  return if g.directed || e.source == e.target then t else add t e.target e.source w)
  (Array.replicate (n * n) zero)
 return ⟨[n,n],(List.range n).foldl (fun t i => t.modify (i * n + i) fun x => x +
  Scalar.one) entries⟩

def sameRow (a b : Tensor α) (width i j : Nat) : Bool :=
 (List.range width).all fun k => Scalar.eq (a.at2 width i k) (b.at2 width j k)

def namesIso : Value → Except Error Bool
 | .str s => .ok (Text.occursIn "iso" s)
 | .list xs => .ok (xs.any fun v => v == .str "iso")
 | .tuple xs => .ok (xs.any fun v => v == .str "iso")
 | .dict kvs => .ok (kvs.any fun e => e.1 == .str "iso")
 | _ => .error .wrongType

def verdictOf (key : Value) (custom : Bool) : Except Error Int :=
 match key with
 | .none => .ok (-1)
 | _ => if custom then .ok (-1) else do return if ← namesIso key then 1 else 0

def placeAmong (n : Nat) (i : Int) : Except Error Nat :=
 let j := if i < 0 then i + n else i
 if 0 ≤ j && j < n then .ok j.toNat else .error .indexOutOfRange

def mappingMatrix (queryCount total : Nat) (pairs : List (Int × Int)) : Except Error (Tensor α) := do
 let places ← pairs.mapM fun p => do
  return (← placeAmong total p.1,← placeAmong total (p.2 + queryCount))
 let entries := places.foldl (fun (t : Array α) p =>
  (t.setIfInBounds (p.1 * total + p.2) one).setIfInBounds (p.2 * total + p.1) one)
  (Array.replicate (total * total) zero)
 return ⟨[total,total],entries⟩

def pairOfColumns : List Value → Except Error (Int × Int)
 | a :: b :: _ => match a.toInt?, b.toInt? with
  | some i, some j => .ok (i,j)
  | _, _ => .error .indexOutOfRange
 | _ => .error .indexOutOfRange

def columnsOf? : Value → Option (List Value)
 | .list xs => some xs
 | .tuple xs => some xs
 | _ => none

def pairsOf (v : Value) : Except Error (List (Int × Int)) :=
 match v with
 | .none => .ok []
 | v => match columnsOf? v with
  | none => .error .wrongType
  | some [] => .ok []
  | some rows =>
   match rows.mapM columnsOf? with
   | some table =>
    if table.all fun r => r.length == (table.headD []).length then table.mapM pairOfColumns
    else .error .badValue
   | none =>
    if rows.any fun r => (columnsOf? r).isSome then .error .badValue
    else do return [← pairOfColumns rows]

def blockEntry (nq total : Nat) (query source : Tensor α) (cross : Nat → Nat → α) (k : Nat) : α :=
 let i := k / total
 let j := k % total
 if i < nq then
  if j < nq then query.at2 nq i j else cross i (j - nq)
 else
  if j < nq then cross j (i - nq) else source.at2 (total - nq) (i - nq) (j - nq)

def encode (query source : Graph) (width : Value) (anchored : Bool)
 (pairs : Except Error (List (Int × Int)))
 (key : Value) (custom : Bool) : Except Error (Sample α) := do
 let adjQuery : Tensor α ← adjacency query
 let hQuery : Tensor α ← nodeMatrix query width anchored
 let adjSource : Tensor α ← adjacency source
 let hSource : Tensor α ← nodeMatrix source width anchored
 let nq := query.size
 let ns := source.size
 if nq = 0 || ns = 0 then throw .badValue
 let w ← widthOf width
 let total := nq + ns
 let zeros : Nat → Nat → α := fun _ _ => zero
 let equalRows := Array.ofFn (n := nq * ns) fun k => sameRow hQuery hSource w (k.val / ns)
  (k.val % ns)
 let cross (i j : Nat) : α := if equalRows.getD (i * ns + j) false then one else zero
 let blank : Tensor α := .filled [0,0] zero
 let features := Tensor.build [total,2 * w] fun k =>
  let i := k / (2 * w)
  let j := k % (2 * w)
  if i < nq then (if j < w then hQuery.at2 w i j else zero)
  else (if j < w then zero else hSource.at2 w (i - nq) (j - w))
 let mapping ← mappingMatrix nq total (← pairs)
 return {
   size := total
   features
   inner := .build [total,total] (blockEntry nq total adjQuery adjSource zeros)
   outer := .build [total,total] (blockEntry nq total adjQuery adjSource cross)
   verdict := ← verdictOf key custom
   mask := .build [total] fun i => if i < nq then one else zero
   key
   mapping
   sameLabel := .build [total,total] (blockEntry nq total blank blank cross) }

variable {α : Type} [Scalar α]

structure Batch (α : Type) where
 count : Nat
 size : Nat
 width : Nat
 features : Tensor α
 inner : Tensor α
 outer : Tensor α
 mapping : Tensor α
 sameLabel : Tensor α
 verdicts : Tensor α
 masks : Tensor α
 keys : List Value

def padSquares (n : Nat) (pick : Sample α → Tensor α) (samples : Array (Sample α)) (blank : α) :
 Tensor α :=
 .build [samples.size,n,n] fun k =>
  match samples[k / (n * n)]? with
  | none => blank
  | some s =>
   let i := k % (n * n) / n
   let j := k % n
   if i < s.size && j < s.size then (pick s).at2 s.size i j else blank

def widthOfSample (s : Sample α) : Nat := s.features.shape.getLast?.getD 0

def collate (list : List (Sample α)) : Except Error (Batch α) :=
 match list with
 | [] => .error .badValue
 | first :: _ =>
  let samples := list.toArray
  let n := list.foldl (fun m s => max m s.size) 0
  let w := widthOfSample first
  if list.all fun s => widthOfSample s == w then
   .ok {
     count := samples.size
     size := n
     width := w
     features := .build [samples.size,n,w] fun k =>
       match samples[k / (n * w)]? with
       | none => zero
       | some s =>
         let i := k % (n * w) / w
         if i < s.size then s.features.at2 w i (k % w) else zero
     inner := padSquares n Sample.inner samples zero
     outer := padSquares n Sample.outer samples zero
     mapping := padSquares n Sample.mapping samples zero
     sameLabel := padSquares n Sample.sameLabel samples zero
     verdicts := .vector (list.map fun s => ofInt s.verdict)
     masks := .build [samples.size,n] fun k =>
       match samples[k / n]? with
       | none => zero
       | some s => if k % n < s.size then s.mask.entry (k % n) else zero
     keys := list.map Sample.key }
  else .error .badValue

end MotifMatch.Encoding
