import MotifMatch.Random.Draw
import MotifMatch.Tensor.Basic

namespace MotifMatch.Network
open Tensor Scalar
variable {α : Type} [Scalar α]

structure Linear (α : Type) where
 inputs : Nat
 outputs : Nat
 weight : Tensor α
 bias : Option (Tensor α)
 deriving Inhabited

namespace Linear

def initial (inputs outputs : Nat) (biased : Bool) : Draw (Linear α) := do
 modify fun s => { s with sampling := .seed (inputs * 31 + outputs) }
 let draws : Array α ← Draw.drawCentred (outputs * inputs) #[]
 return {
   inputs, outputs
   weight := ⟨[outputs,inputs],draws.map fun x => x * ofScientific 5 true 2⟩
   bias := if biased then some (.filled [outputs] zero) else none }

@[inline] def image (l : Linear α) (row : Nat → α) (o : Nat) : α :=
 let r := sumTo l.inputs fun i => row i * l.weight.entry (o * l.inputs + i)
 match l.bias with
 | some b => r + b.entry o
 | none => r

def apply (l : Linear α) (x : Tensor α) : Except Error (Tensor α) :=
 match x.shape.getLast? with
 | none => .error .badValue
 | some n =>
  if n = l.inputs then
   .ok (.build (x.shape.dropLast ++ [l.outputs]) fun k =>
    l.image (fun i => x.entry (k / l.outputs * l.inputs + i)) (k % l.outputs))
  else .error .badValue

def named (l : Linear α) : List (String × Tensor α) :=
 ("weight",l.weight) :: (l.bias.map fun b => ("bias",b)).toList

def restore (l : Linear α) (ts : List (Tensor α)) : Linear α × List (Tensor α) :=
 match l.bias, ts with
 | none, w :: rest => ({ l with weight := w },rest)
 | some _, w :: b :: rest => ({ l with weight := w, bias := some b },rest)
 | _, rest => (l,rest)

end Linear

variable {α : Type} [Scalar α]

structure Layer (α : Type) where
 embedding : Linear α
 scores : Tensor α
 gate : Linear α
 merging : Option (Linear α)
 hops : Nat
 heads : Nat
 width : Nat
 directed : Bool
 deriving Inhabited

structure Attended (α : Type) where
 nodes : Tensor α
 attention : Tensor α

namespace Layer

inductive Joining where
 | mean
 | weighted
 deriving DecidableEq, Repr

def Joining.ofText? : String → Option Joining
 | "mean" => some .mean
 | "weight" => some .weighted
 | _ => none

def initial (inputs width hops heads : Nat) (joining : Option Joining) (directed : Bool) :
 Draw (Layer α) := do
 let embedding ← Linear.initial inputs (width * heads) true
 let gate ← Linear.initial (width * 2) 1 true
 match joining with
 | none => throw .unknownAggregation
 | some j =>
  let merging ← (match j with
   | .mean => return none
   | .weighted => some <$> Linear.initial (width * heads) width false : Draw (Option (Linear α)))
  return { embedding, scores := .filled [width,width] zero, gate, merging, hops, heads, width, directed }

def prefixed (name : String) (l : Linear α) : List (String × Tensor α) :=
 l.named.map fun e => (name ++ "." ++ e.1,e.2)

def named (l : Layer α) : List (String × Tensor α) :=
 ("W_e",l.scores) :: prefixed "W_h" l.embedding ++ prefixed "W_beta" l.gate ++
  (l.merging.map (prefixed "W_o")).getD []

def restore (l : Layer α) : List (Tensor α) → Layer α × List (Tensor α)
 | [] => (l,[])
 | scores :: ts =>
  let (embedding,ts) := l.embedding.restore ts
  let (gate,ts) := l.gate.restore ts
  match l.merging with
  | none => ({ l with scores, embedding, gate },ts)
  | some m =>
   let (m,ts) := m.restore ts
   ({ l with scores, embedding, gate, merging := some m },ts)

@[inline] def at3 (t : Tensor α) (b c i j k : Nat) : α := t.entry ((i * b + j) * c + k)

def embedded (l : Layer α) (n : Nat) (x : Tensor α) : Tensor α :=
 .build [n,l.heads,l.width] fun k =>
  let size := l.heads * l.width
  l.embedding.image (fun i => x.entry (k / size * l.embedding.inputs + i)) (k % size)

def rawScores (l : Layer α) (n : Nat) (h : Tensor α) : Tensor α :=
 let moved : Tensor α := .build [n,l.heads,l.width] fun k =>
  sumTo l.width fun m => h.entry (k / l.width * l.width + m) * l.scores.at2 l.width m (k % l.width)
 .build [n,l.heads,n] fun k =>
  let i := k / n % l.heads
  let j := k / n / l.heads
  sumTo l.width fun c => at3 moved l.heads l.width j i c * at3 h l.heads l.width (k % n) i c

def mutualScores (l : Layer α) (n : Nat) (e : Tensor α) : Tensor α :=
 .build [n,l.heads,n] fun k =>
  e.entry k + at3 e l.heads n (k % n) (k / n % l.heads) (k / n / l.heads)

def attention (l : Layer α) (n : Nat) (e adj : Tensor α) : Tensor α :=
 let masked : Tensor α := .build [n,l.heads,n] fun k =>
  e.entry k * mark (lt zero (adj.at2 n (k / n / l.heads) (k % n)))
 let top : Tensor α := .build [l.heads,n] fun k =>
  (List.range n).foldl (fun m j => larger m (masked.entry (j * (l.heads * n) + k))) (masked.entry k)
 let powers : Tensor α := .build [n,l.heads,n] fun k =>
  exp (masked.entry k - top.entry (k % (l.heads * n)))
 let total : Tensor α := .build [l.heads,n] fun k =>
  sumTo n fun j => powers.entry (j * (l.heads * n) + k)
 .build [n,l.heads,n] fun k =>
  powers.entry k / (total.entry (k % (l.heads * n)) + tiny) * adj.at2 n (k / n / l.heads) (k % n)

def averaged (l : Layer α) (n : Nat) (att z : Tensor α) : Tensor α :=
 .build [n,l.heads,l.width] fun k =>
  let c := k % l.width
  let a := k / l.width % l.heads
  let i := k / l.width / l.heads
  relu (sumTo n fun j => at3 att l.heads n i a j * at3 z l.heads l.width j a c)

def gates (l : Layer α) (n : Nat) (h az : Tensor α) : Tensor α :=
 .build [n,l.heads] fun k =>
  sigmoid (l.gate.image (fun i =>
   if i < l.width then h.entry (k * l.width + i) else az.entry (k * l.width + (i - l.width))) 0)

def rounds (l : Layer α) (n : Nat) (h att beta : Tensor α) : Nat → Tensor α → Tensor α
 | 0, z => z
 | m + 1, z =>
  let az := l.averaged n att z
  l.rounds n h att beta m (.build [n,l.heads,l.width] fun k =>
   let b := beta.entry (k / l.width)
   b * h.entry k + (one - b) * az.entry k)

def joined (l : Layer α) (n : Nat) (z : Tensor α) : Tensor α :=
 match l.merging with
 | none => .build [n,l.width] fun k =>
  sumTo l.heads (fun a => at3 z l.heads l.width (k / l.width) a (k % l.width)) / ofNat l.heads
 | some m => .build [n,l.width] fun k =>
  m.image (fun i => z.entry (k / l.width * (l.heads * l.width) + i)) (k % l.width)

def attend (l : Layer α) (n : Nat) (x adj : Tensor α) : Attended α :=
 let h := l.embedded n x
 let e := l.rawScores n h
 let e := if l.directed then e else l.mutualScores n e
 let att := l.attention n e adj
 let beta := l.gates n h (l.averaged n att h)
 let z := l.rounds n h att beta l.hops h
 { nodes := l.joined n z
   attention := .build [n,n] fun k =>
     sumTo l.heads (fun a => at3 att l.heads n (k / n) a (k % n)) / ofNat l.heads }

def part (t : Tensor α) (size i : Nat) (shape : List Nat) : Tensor α :=
 ⟨shape,t.data.extract (i * size) ((i + 1) * size)⟩

def stack (shape : List Nat) (ts : List (Tensor α)) : Tensor α :=
 ⟨ts.length :: shape,ts.foldl (fun acc t => acc ++ t.data) #[]⟩

def forward (l : Layer α) (x adj : Tensor α) : Except Error (Attended α) :=
 match x.shape, adj.shape with
 | [b,n,f], [b',n',n''] =>
  if f = l.embedding.inputs && b = b' && n = n' && n = n'' then
   let outputs := (List.range b).map fun i =>
    l.attend n (part x (n * f) i [n,f]) (part adj (n * n) i [n,n])
   .ok ⟨stack [n,l.width] (outputs.map Attended.nodes),stack [n,n] (outputs.map Attended.attention)⟩
  else .error .badValue
 | _, _ => .error .badValue

end Layer
end MotifMatch.Network
