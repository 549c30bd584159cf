import MotifMatch.Value.Basic

namespace MotifMatch

structure Tensor (α : Type) where
 shape : List Nat
 data : Array α
 deriving Inhabited

namespace Tensor
variable {α β : Type}

def volume (shape : List Nat) : Nat := shape.foldl (fun acc n => acc * n) 1

def ofScalar (x : α) : Tensor α := ⟨[],#[x]⟩

def vector (xs : List α) : Tensor α := ⟨[xs.length],xs.toArray⟩

def build (shape : List Nat) (f : Nat → α) : Tensor α :=
 ⟨shape,Array.ofFn (n := volume shape) fun i => f i.val⟩

def filled (shape : List Nat) (x : α) : Tensor α := ⟨shape,Array.replicate (volume shape) x⟩

def map (f : α → β) (t : Tensor α) : Tensor β := ⟨t.shape,t.data.map f⟩

def rank (t : Tensor α) : Nat := t.shape.length

def count (t : Tensor α) : Nat := t.data.size

@[inline] def at2 [Scalar α] (t : Tensor α) (columns i j : Nat) : α :=
 t.data.getD (i * columns + j) Scalar.zero

@[inline] def entry [Scalar α] (t : Tensor α) (i : Nat) : α := t.data.getD i Scalar.zero

def stacked {α : Type} : List (Tensor α) → Except Error (Tensor α)
 | [] => .ok ⟨[0],#[]⟩
 | first :: rest =>
  if rest.all fun r => r.shape == first.shape then
   .ok ⟨(rest.length + 1) :: first.shape,rest.foldl (fun acc r => acc ++ r.data) first.data⟩
  else .error .badValue

mutual

def ofNested : Value → Except Error (Tensor Float)
 | .list xs => ofNestedList xs
 | .tuple xs => ofNestedList xs
 | v => match v.toFloat? with
  | some x => .ok (.ofScalar x)
  | none => .error .badValue

def ofNestedList (xs : List Value) : Except Error (Tensor Float) := do stacked (← ofRows xs)

def ofRows : List Value → Except Error (List (Tensor Float))
 | [] => .ok []
 | v :: rest => do return (← ofNested v) :: (← ofRows rest)

end

def stretched (t : Tensor Float) (low high : Float) : Except Error (Tensor Float) :=
 match t.data.toList with
 | [] => .error .badValue
 | x :: rest =>
  let top := rest.foldl Scalar.larger x
  .ok (t.map fun y => y / top * (high - low) + low)

end Tensor
end MotifMatch

namespace MotifMatch.Tensor
open Scalar List Prod
variable {α : Type} [Scalar α]

def unravel : List Nat → Nat → List Nat
 | [], _ => []
 | _ :: rest, k => k / volume rest :: unravel rest (k % volume rest)

def ravel : List Nat → List Nat → Nat
 | _ :: rest, i :: is => i * volume rest + ravel rest is
 | _, _ => 0

def get (t : Tensor α) (coords : List Nat) : α := t.entry (ravel t.shape coords)

def buildAt (shape : List Nat) (f : List Nat → α) : Tensor α :=
 build shape fun k => f (unravel shape k)

def axisOf (rank : Nat) (axis : Int) : Except Error Nat :=
 let a := if axis < 0 then axis + rank else axis
 if 0 ≤ a && a < rank then .ok a.toNat else .error .axisOutOfRange

def fillShape (count : Nat) (sizes : List Int) : Except Error (List Nat) :=
 let known := volume ((sizes.filter fun n => n != -1).map Int.toNat)
 if sizes.any fun n => n < -1 then .error .badValue
 else match (sizes.filter fun n => n == -1).length with
  | 0 => if known = count then .ok (sizes.map Int.toNat) else .error .badValue
  | 1 =>
   if known = 0 || count % known != 0 then .error .badValue
   else .ok (sizes.map fun n => if n == -1 then count / known else n.toNat)
  | _ => .error .badValue

def reshape (t : Tensor α) (sizes : List Int) : Except Error (Tensor α) := do
 return ⟨← fillShape t.count sizes,t.data⟩

def permute (t : Tensor α) (axes : List Int) : Except Error (Tensor α) := do
 if axes.length != t.rank then throw .badValue
 let order ← axes.mapM (axisOf t.rank)
 if order.eraseDups.length != order.length then throw .badValue
 let shape := order.map fun a => t.shape.getD a 0
 return buildAt shape fun c =>
  t.get ((range t.rank).map fun a => c.getD (order.idxOf a) 0)

def expand (t : Tensor α) (axis : Int) : Except Error (Tensor α) := do
 let a ← axisOf (t.rank + 1) axis
 return ⟨t.shape.take a ++ 1 :: t.shape.drop a,t.data⟩

def padShape (rank : Nat) (shape : List Nat) : List Nat := replicate (rank - shape.length) 1 ++ shape

def tile (t : Tensor α) (times : List Int) : Except Error (Tensor α) := do
 if times.any fun n => n < 0 then throw .badValue
 let rank := max t.rank times.length
 let shape := padShape rank t.shape
 let times := replicate (rank - times.length) 1 ++ times.map Int.toNat
 let padded : Tensor α := ⟨shape,t.data⟩
 return buildAt (zipWith (fun n k => n * k) shape times) fun c =>
  padded.get (zipWith (fun i n => i % n) c shape)

def joinSizes (a b : Nat) : Except Error Nat :=
 if a = b then .ok a else if a = 1 then .ok b else if b = 1 then .ok a else .error .badValue

def joinShapes (a b : List Nat) : Except Error (List Nat) :=
 let rank := max a.length b.length
 ((padShape rank a).zip (padShape rank b)).mapM fun p => joinSizes p.1 p.2

def getSpread (t : Tensor α) (coords : List Nat) : α :=
 t.get (zipWith (fun i n => if n = 1 then 0 else i) (coords.drop (coords.length - t.rank)) t.shape)

def spreadTo (t : Tensor α) (shape : List Nat) : Except Error (Tensor α) := do
 if (← joinShapes t.shape shape) != shape then throw .badValue
 return buildAt shape t.getSpread

def zipWith (f : α → α → α) (s t : Tensor α) : Except Error (Tensor α) := do
 if s.shape == t.shape then return ⟨s.shape,Array.zipWith f s.data t.data⟩
 let shape ← joinShapes s.shape t.shape
 return buildAt shape fun c => f (s.getSpread c) (t.getSpread c)

def concat (ts : List (Tensor α)) (axis : Int) : Except Error (Tensor α) := do
 match ts with
 | [] => throw .badValue
 | first :: _ =>
  if first.rank = 0 then throw .badValue
  let a ← axisOf first.rank axis
  let rest (t : Tensor α) : List Nat := t.shape.eraseIdx a
  if ts.any fun t => t.rank != first.rank || rest t != rest first then throw .badValue
  let outer := volume (first.shape.take a)
  let inner := volume (first.shape.drop (a + 1))
  let widths := ts.map fun t => (t.shape.getD a 0)
  let data := (range outer).foldl (fun (acc : Array α) o =>
   (ts.zip widths).foldl (fun acc e =>
    acc ++ e.1.data.extract (o * (e.2 * inner)) ((o + 1) * (e.2 * inner))) acc) #[]
  return ⟨first.shape.set a (widths.foldl (fun total w => total + w) 0),data⟩

def slice (t : Tensor α) (index : Int) : Except Error (Tensor α) :=
 match t.shape with
 | [] => .error .indexOutOfRange
 | n :: rest =>
  let i := if index < 0 then index + n else index
  if 0 ≤ i && i < n then
   let size := volume rest
   .ok ⟨rest,t.data.extract (i.toNat * size) ((i.toNat + 1) * size)⟩
  else .error .indexOutOfRange

def slices (t : Tensor α) : Except Error (List (Tensor α)) :=
 match t.shape with
 | [] => .error .wrongType
 | n :: rest =>
  let size := volume rest
  .ok ((range n).map fun i => ⟨rest,t.data.extract (i * size) ((i + 1) * size)⟩)

variable {α : Type} [Scalar α]

@[inline] def sumTo (n : Nat) (f : Nat → α) : α := n.fold (fun i _ acc => acc + f i) zero

def foldAxes (f : α → α → α) (start : α) (axes : List Nat) (keep : Bool) (t : Tensor α) : Tensor α :=
 let kept (i : Nat) : Bool := !axes.contains i
 let full := t.shape.zipIdx.map fun e => if kept e.2 then e.1 else 1
 let shape := if keep then full else (t.shape.zipIdx.filter fun e => kept e.2).map fst
 let place (k : Nat) : Nat :=
  ravel full ((unravel t.shape k).zipIdx.map fun e => if kept e.2 then e.1 else 0)
 let data := t.data.size.fold (fun k _ (acc : Array α) => acc.modify (place k) fun x =>
  f x (t.entry k))
  (Array.replicate (volume full) start)
 ⟨shape,data⟩

def axesOf (t : Tensor α) : Option (List Int) → Except Error (List Nat)
 | none => .ok (range t.rank)
 | some axes => do
  let known ← axes.mapM (axisOf t.rank)
  if known.eraseDups.length != known.length then throw .badValue
  return known

def sum (t : Tensor α) (axes : Option (List Int)) (keep : Bool) : Except Error (Tensor α) := do
 return t.foldAxes (fun x y => x + y) zero (← t.axesOf axes) keep

def mean (t : Tensor α) (axes : Option (List Int)) (keep : Bool) : Except Error (Tensor α) := do
 let known ← t.axesOf axes
 let count := volume (known.map fun a => t.shape.getD a 0)
 return (t.foldAxes (fun x y => x + y) zero known keep).map fun x => x / ofNat count

def largest (t : Tensor α) (axis : Nat) : Except Error (Tensor α) := do
 if t.shape.getD axis 0 = 0 then throw .badValue
 let full := t.shape.set axis 1
 let n := t.shape.getD axis 0
 return buildAt full fun c =>
  (range n).foldl (fun x i => larger x (t.get (c.set axis i))) (t.get (c.set axis 0))

def tiny : α := ofScientific 1 true 12

def softmax (t : Tensor α) (axis : Int) : Except Error (Tensor α) := do
 let a ← axisOf t.rank axis
 let top ← t.largest a
 let powers := (← t.zipWith (fun x y => x - y) top).map exp
 let total := powers.foldAxes (fun x y => x + y) zero [a] true
 powers.zipWith (fun x y => x / (y + tiny)) total

def norms (t : Tensor α) (order : α) (a : Nat) : Except Error (Tensor α) := do
 let plus := fun x y : α => x + y
 if eq order (ofInt 2) then
  return ((t.map fun x => x * x).foldAxes plus zero [a] true).map sqrt
 else if eq order one then
  return (t.map Scalar.abs).foldAxes plus Scalar.zero [a] true
 else if eq order zero then
  return (t.map fun x => if eq x zero then zero else one).foldAxes plus zero [a] true
 else if eq order (order + order) then
  if Scalar.lt Scalar.zero order then (t.map Scalar.abs).largest a
  else return ((← (t.map fun x => -Scalar.abs x).largest a)).map fun x => -x
 else
  return ((t.map fun x => Scalar.power (Scalar.abs x) order).foldAxes plus Scalar.zero [a] true).map
   fun x => power x (one / order)

def normalize (t : Tensor α) (order : α) (axis : Int) (margin : α) : Except Error (Tensor α) := do
 let a ← axisOf t.rank axis
 let lengths ← t.norms order a
 t.zipWith (fun x y => x / (y + margin)) lengths

variable {α : Type} [Scalar α]

def plus (s t : Tensor α) : Except Error (Tensor α) := s.zipWith (fun x y => x + y) t

def minus (s t : Tensor α) : Except Error (Tensor α) := s.zipWith (fun x y => x - y) t

def times (s t : Tensor α) : Except Error (Tensor α) := s.zipWith (fun x y => x * y) t

def «over» (s t : Tensor α) : Except Error (Tensor α) :=
 s.zipWith (fun x y => x / (if eq y zero then tiny else y)) t

def mark (b : Bool) : α := if b then one else zero

def above (s t : Tensor α) : Except Error (Tensor α) := s.zipWith (fun x y => mark (lt y x)) t

def equals (s t : Tensor α) : Except Error (Tensor α) := s.zipWith (fun x y => mark (eq x y)) t

def held (x : α) : α := atMost (ofInt 50) (atLeast (ofInt (-50)) x)

def power (x : α) : α := exp (held x)

def sigmoid (x : α) : α := one / (one + exp (-(held x)))

def relu (x : α) : α := atLeast zero x

def choose (test s t : Tensor α) : Except Error (Tensor α) := do
 let s ← s.spreadTo test.shape
 let t ← t.spreadTo test.shape
 return build test.shape fun k => if eq (test.entry k) zero then t.entry k else s.entry k

def matmul (s t : Tensor α) : Except Error (Tensor α) := do
 if s.rank = 0 || t.rank = 0 then throw .badValue
 let left := if s.rank = 1 then 1 :: s.shape else s.shape
 let right := if t.rank = 1 then t.shape ++ [1] else t.shape
 let n := left.getD (left.length - 2) 0
 let m := left.getLast?.getD 0
 let p := right.getLast?.getD 0
 if right.getD (right.length - 2) 0 != m then throw .badValue
 let outerLeft := left.take (left.length - 2)
 let outerRight := right.take (right.length - 2)
 let outer ← joinShapes outerLeft outerRight
 let place (shape : List Nat) (c : List Nat) : Nat :=
  ravel shape (List.zipWith (fun i k => if k = 1 then 0 else i)
   (c.drop (c.length - shape.length)) shape)
 let blocks := (range (volume outer)).map fun o =>
  let c := unravel outer o
  (place outerLeft c * (n * m),place outerRight c * (m * p))
 let data := blocks.foldl (fun (acc : Array α) b =>
  (n * p).fold (fun k _ acc =>
   acc.push (sumTo m fun j => s.entry (b.1 + k / p * m + j) * t.entry (b.2 + j * p + k % p))) acc) #[]
 let rows := if s.rank = 1 then [] else [n]
 let columns := if t.rank = 1 then [] else [p]
 return ⟨outer ++ rows ++ columns,data⟩

def letterSizes : List (List Char × Tensor α) → List (Char × Nat) → Except Error (List (Char × Nat))
 | [], known => .ok known
 | (letters,t) :: rest, known => do
  if letters.length != t.rank then throw .badValue
  let known ← (letters.zip t.shape).foldlM (fun known e =>
   match known.find? fun k => k.1 == e.1 with
   | none => return known ++ [e]
   | some k => do
    let size ← joinSizes k.2 e.2
    return known.map fun j => if j.1 == e.1 then (j.1,size) else j) known
  letterSizes rest known

def splitArrow : List Char → List Char × Option (List Char)
 | '-' :: '>' :: rest => ([],some rest)
 | c :: rest =>
  let (before,after) := splitArrow rest
  (c :: before,after)
 | [] => ([],none)

def splitCommas : List Char → List (List Char)
 | [] => [[]]
 | ',' :: rest => [] :: splitCommas rest
 | c :: rest => match splitCommas rest with
  | first :: more => (c :: first) :: more
  | [] => [[c]]

def contract (rule : String) (ts : List (Tensor α)) : Except Error (Tensor α) := do
 let (inputs,result) := splitArrow (rule.toList.filter fun c => c != ' ')
 let names := splitCommas inputs
 if names.length != ts.length then throw .badValue
 if names.any fun n => n.any fun c => !c.isAlpha then throw .badValue
 let sizes ← letterSizes (names.zip ts) []
 let all := names.flatten
 let result := result.getD
  ((sizes.map fst).filter fun c => all.count c == 1).mergeSort
 if result.eraseDups.length != result.length || result.any fun c =>
  !all.contains c then throw .badValue
 let summed := (sizes.map fst).filter fun c => !result.contains c
 let sizeOf (c : Char) : Nat := ((sizes.find? fun k => k.1 == c).map snd).getD 1
 let inner := summed.map sizeOf
 let letters := result ++ summed
 let terms := (names.zip ts).map fun e => (e.1.map fun c => letters.idxOf c,e.2)
 return buildAt (result.map sizeOf) fun c =>
  sumTo (volume inner) fun k =>
   let coords := c ++ unravel inner k
   terms.foldl (fun acc e => acc * e.2.getSpread (e.1.map fun i => coords.getD i 0)) one

def crossEntropy (guess target : Tensor α) : Except Error (Tensor α) := do
 let margin : α := ofScientific 1 true 7
 let p := guess.map fun x => atMost (one - margin) (atLeast margin x)
 let terms ← target.zipWith (fun t p =>
  t * log p + (one - t) * log (one - p)) p
 return (← terms.mean none false).map fun x => -x

end MotifMatch.Tensor
