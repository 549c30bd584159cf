namespace MotifMatch
open Float

inductive Error where
 | missingKey
 | indexOutOfRange
 | badValue
 | wrongType
 | missingAttribute
 | divisionByZero
 | fileNotFound
 | notADirectory
 | isADirectory
 | fileExists
 | malformedJson
 | axisOutOfRange
 | notImplemented
 | malformedGraph
 | unknownNode
 | emptyGraph
 | usage (code : Nat)
 | noMemberAt
 | noMemberWith (shown : String)
 | notJoined
 | notAllowed (shown allowed : String)
 | unknownAggregation
 | unknownTactic (shown : String)
 | outOfPatience
 | unknownName
 deriving DecidableEq, Repr

namespace Error

def message : Error → Option String
 | .usage code => some (toString code)
 | .noMemberAt => some "Index out of range for the Enum class."
 | .noMemberWith shown => some s!"Value is not present in enum: {shown}."
 | .notJoined => some "Graphs couldn't be connected at anchor!"
 | .notAllowed shown allowed => some s!"input {shown} not in allowable set{allowed}:"
 | .unknownAggregation => some "Unknown aggregation"
 | .unknownTactic shown => some s!"Unknown multi-hop tactic: {shown}"
 | _ => none

end Error

class Scalar (α : Type) where
 ofInt : Int → α
 ofScientific : Nat → Bool → Nat → α
 add : α → α → α
 sub : α → α → α
 mul : α → α → α
 div : α → α → α
 neg : α → α
 exp : α → α
 log : α → α
 sqrt : α → α
 power : α → α → α
 lt : α → α → Bool
 eq : α → α → Bool

namespace Scalar
variable {α : Type} [Scalar α]

instance (priority := low) instAdd : Add α := ⟨Scalar.add⟩
instance (priority := low) instSub : Sub α := ⟨Scalar.sub⟩
instance (priority := low) instMul : Mul α := ⟨Scalar.mul⟩
instance (priority := low) instDiv : Div α := ⟨Scalar.div⟩
instance (priority := low) instNeg : Neg α := ⟨Scalar.neg⟩

@[inline] def zero : α := Scalar.ofInt 0

@[inline] def one : α := Scalar.ofInt 1

@[inline] def ofNat (n : Nat) : α := Scalar.ofInt n

@[inline] def le (x y : α) : Bool := Scalar.lt x y || Scalar.eq x y

@[inline] def atLeast (floor x : α) : α := if Scalar.lt x floor then floor else x

@[inline] def atMost (ceiling x : α) : α := if Scalar.lt ceiling x then ceiling else x

@[inline] def larger (x y : α) : α :=
 if Scalar.eq x x then (if Scalar.eq y y then (if Scalar.lt x y then y else x) else y) else x

@[inline] def abs (x : α) : α := if Scalar.lt x zero then -x else x

end Scalar

instance : Scalar Float where
 ofInt := ofInt
 ofScientific := Float.ofScientific
 add := add
 sub := sub
 mul := mul
 div := div
 neg := neg
 exp := exp
 log := log
 sqrt := sqrt
 power := pow
 lt x y := x < y
 eq x y := x == y

end MotifMatch

namespace MotifMatch.Statistics
variable {α : Type} [Scalar α]

def sum (xs : List α) : α := xs.foldl (fun acc x => acc + x) Scalar.zero

def mean (xs : List α) : α := sum xs / Scalar.ofNat xs.length

def deviation (xs : List α) : α :=
 let m := mean xs
 Scalar.sqrt (mean (xs.map fun x => (x - m) * (x - m)))

end MotifMatch.Statistics
