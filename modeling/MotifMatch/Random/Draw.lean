import MotifMatch.Decimal.Exact
import MotifMatch.Scalar

namespace MotifMatch
open Scalar Nat

inductive Stream where
 | congruential (state : UInt64)
 | scripted (draws : Nat → Nat) (position : Nat)

variable {α : Type}
namespace Stream

instance : Inhabited Stream := ⟨.congruential 0⟩

def seed (n : Int) : Stream := .congruential (UInt64.ofNat (n % Int.pow 2 64).toNat)

def step (s : UInt64) : UInt64 := s * 6364136223846793005 + 1442695040888963407

def below (n : Nat) : Stream → Nat × Stream
 | .congruential s =>
  let s := step s
  ((s >>> 33).toNat % n,.congruential s)
 | .scripted draws i => (draws i % n,.scripted draws (i + 1))

def unitNumerator : Stream → Nat × Stream
 | .congruential s =>
  let s := step s
  ((s >>> 11).toNat,.congruential s)
 | .scripted draws i => (draws i % Nat.pow 2 53,.scripted draws (i + 1))

def shuffleArray : Nat → Array α → Stream → Array α × Stream
 | 0, xs, s => (xs,s)
 | n + 1, xs, s =>
  let (j,s) := s.below (n + 2)
  shuffleArray n (xs.swapIfInBounds (n + 1) j) s

def shuffle (xs : List α) (s : Stream) : List α × Stream :=
 let (ys,s) := shuffleArray (xs.length - 1) xs.toArray s
 (ys.toList,s)

def stateText : Stream → String
 | .congruential s => toString s.toNat
 | .scripted _ i => toString i

theorem below_lt {n : Nat} (h : 0 < n) (s : Stream) : (s.below n).1 < n := by
 cases s <;> simp [below,mod_lt _ h]

theorem unitNumerator_lt (s : Stream) : s.unitNumerator.1 < Nat.pow 2 53 := by
 cases s with
 | congruential s =>
  simp only [unitNumerator]
  have h := (step s).toNat_lt
  simp only [UInt64.toNat_shiftRight,UInt64.reduceToNat]
  rw [shiftRight_eq_div_pow]
  simp only [Nat.reduceMod,Nat.pow_eq,Nat.reducePow]
  omega
 | scripted d i => exact mod_lt _ (by decide)

end Stream

def cutAt (place : Int) (xs : List α) : List α × List α :=
 let cut := (if place < 0 then place + xs.length else place).toNat
 (xs.take cut,xs.drop cut)

def splitOff (xs : List α) (share : Float) (seed : Int) : List α × List α :=
 let ys := ((Stream.seed seed).shuffle xs).1
 cutAt ((Decimal.truncate? (Float.ofNat ys.length * (1.0 - share))).getD 0) ys

structure Streams where
 sampling : Stream
 shuffling : Stream
 deriving Inhabited

abbrev Draw := ExceptT Error (StateM Streams)

namespace Draw
variable {α : Type} [Scalar α]

def fail (e : Error) : Draw α := throw e

def drawBelow (n : Nat) : Draw Nat := modifyGet fun st =>
 let (k,s) := st.sampling.below n
 (k,{ st with sampling := s })

def tossBelow (n : Nat) : Draw Nat := modifyGet fun st =>
 let (k,s) := st.shuffling.below n
 (k,{ st with shuffling := s })

def toUnit (k : Nat) : α := Scalar.ofNat k / Scalar.ofNat (Nat.pow 2 53)

def drawUnit : Draw α := modifyGet fun st =>
 let (k,s) := st.sampling.unitNumerator
 (toUnit k,{ st with sampling := s })

def tossUnit : Draw α := modifyGet fun st =>
 let (k,s) := st.shuffling.unitNumerator
 (toUnit k,{ st with shuffling := s })

def drawInt (low high : Int) : Draw Int := do
 if high ≤ low then fail .badValue
 else return low + (← drawBelow (high - low).toNat)

def drawFrom (xs : List α) : Draw α := do
 let k ← (if xs.isEmpty then fail .badValue else drawBelow xs.length)
 match xs[k]? with
 | some x => return x
 | none => fail .badValue

def tossFrom (xs : List α) : Draw α := do
 let k ← (if xs.isEmpty then fail .indexOutOfRange else tossBelow xs.length)
 match xs[k]? with
 | some x => return x
 | none => fail .indexOutOfRange

def placeOf (u : α) : α → List α → Nat
 | _, [] => 0
 | _, [_] => 0
 | acc, p :: q :: rest =>
  if lt u (acc + p) then 0 else placeOf u (acc + p) (q :: rest) + 1

def drawMask (keep : α) : Nat → Draw (List Bool)
 | 0 => return []
 | n + 1 => do
  let u : α ← drawUnit
  let k := placeOf u zero [one - keep,keep]
  return (k == 1) :: (← drawMask keep n)

def drawWithout : Nat → List α → Draw (List α)
 | 0, _ => return []
 | n + 1, xs => do
  let k ← (if xs.isEmpty then fail .badValue else drawBelow xs.length)
  match xs[k]? with
  | some x => return x :: (← drawWithout n (xs.eraseIdx k))
  | none => fail .badValue

def drawNormal (mean spread : α) : Draw α := do
 if lt spread zero then fail .badValue
 else
  let u : α ← drawUnit
  return mean + spread * (Scalar.ofInt 2 * u - Scalar.one)

def drawCentred : Nat → Array α → Draw (Array α)
 | 0, acc => return acc
 | n + 1, acc => do
  let u : α ← drawUnit
  drawCentred n (acc.push (Scalar.ofInt 2 * u - Scalar.one))

def shuffle (xs : List α) : Draw (List α) := modifyGet fun st =>
 let (ys,s) := st.shuffling.shuffle xs
 (ys,{ st with shuffling := s })

def patience : Nat := 1000000

end Draw
end MotifMatch
