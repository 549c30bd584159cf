import MotifMatch.Decimal.Exact
import MotifMatch.Scalar
import MotifMatch.Table

namespace MotifMatch

inductive Value where
 | none
 | bool (b : Bool)
 | int (i : Int)
 | float (x : Float)
 | str (s : String)
 | list (xs : List Value)
 | tuple (xs : List Value)
 | dict (kvs : List (Value × Value))
 deriving Inhabited

namespace Value

inductive Number where
 | int (i : Int)
 | float (x : Float)

def number? : Value → Option Number
 | .bool b => some (.int (if b then 1 else 0))
 | .int i => some (.int i)
 | .float x => some (.float x)
 | _ => Option.none

def compareExact (i : Int) (x : Float) : Option Ordering :=
 match Decimal.parts x with
 | .undefined => Option.none
 | .infinite negative => some (if negative then .gt else .lt)
 | .finite b =>
  let m : Int := if b.negative then -(b.mantissa : Int) else b.mantissa
  match b.exponent with
  | .ofNat e => some (compare i (m * Int.pow 2 e))
  | .negSucc e => some (compare (i * Int.pow 2 (e + 1)) m)

def Number.compare? : Number → Number → Option Ordering
 | .int i, .int j => some (compare i j)
 | .int i, .float x => compareExact i x
 | .float x, .int i => (compareExact i x).map Ordering.swap
 | .float x, .float y =>
  if x < y then some .lt else if y < x then some .gt else if x == y then some .eq else Option.none

def sameNumber (n : Number) : Value → Bool
 | .bool b => n.compare? (.int (if b then 1 else 0)) == some .eq
 | .int i => n.compare? (.int i) == some .eq
 | .float x => n.compare? (.float x) == some .eq
 | _ => false

mutual

def same : Value → Value → Bool
 | .none, .none => true
 | .str s, .str t => s == t
 | .list xs, .list ys => sameList xs ys
 | .tuple xs, .tuple ys => sameList xs ys
 | .dict xs, .dict ys => xs.length == ys.length && sameEntries xs ys
 | .bool a, w => sameNumber (.int (if a then 1 else 0)) w
 | .int i, w => sameNumber (.int i) w
 | .float x, w => sameNumber (.float x) w
 | _, _ => false
termination_by structural x => x

def sameList : List Value → List Value → Bool
 | [], [] => true
 | x :: xs, y :: ys => same x y && sameList xs ys
 | _, _ => false
termination_by structural xs => xs

def sameEntries : List (Value × Value) → List (Value × Value) → Bool
 | [], _ => true
 | x :: rest, ys => ys.any (sameEntry x) && sameEntries rest ys
termination_by structural xs => xs

def sameEntry : Value × Value → Value × Value → Bool
 | (k,v), e => same k e.1 && same v e.2
termination_by structural x => x

end

instance : BEq Value := ⟨same⟩

theorem same_int (i j : Int) : ((Value.int i) == (Value.int j)) = (i == j) := by
 show same (.int i) (.int j) = _
 simp only [same,sameNumber,Number.compare?]
 rw [Bool.eq_iff_iff]
 simp

theorem same_str (s t : String) : ((Value.str s) == (Value.str t)) = (s == t) := by
 show same (.str s) (.str t) = _
 simp [same]

attribute [irreducible] same sameList sameEntries sameEntry

def truthy : Value → Bool
 | .none => false
 | .bool b => b
 | .int i => i != 0
 | .float x => !(x == 0.0)
 | .str s => !s.isEmpty
 | .list xs => !xs.isEmpty
 | .tuple xs => !xs.isEmpty
 | .dict kvs => !kvs.isEmpty

def hashable : Value → Bool
 | .list _ => false
 | .dict _ => false
 | _ => true

def toInt? : Value → Option Int
 | .int i => some i
 | .bool b => some (if b then 1 else 0)
 | _ => Option.none

def toFloat? : Value → Option Float
 | .int i => some (Float.ofInt i)
 | .bool b => some (if b then 1.0 else 0.0)
 | .float x => some x
 | _ => Option.none

def add : Value → Value → Except Error Value
 | .str s, .str t => .ok (.str (s ++ t))
 | .list xs, .list ys => .ok (.list (xs ++ ys))
 | .tuple xs, .tuple ys => .ok (.tuple (xs ++ ys))
 | v, w =>
  match v.number?, w.number? with
  | some (.int i), some (.int j) => .ok (.int (i + j))
  | some (.int i), some (.float y) => .ok (.float (Float.ofInt i + y))
  | some (.float x), some (.int j) => .ok (.float (x + Float.ofInt j))
  | some (.float x), some (.float y) => .ok (.float (x + y))
  | _, _ => .error .wrongType

end Value

inductive NodeId where
 | num (i : Int)
 | name (s : String)
 deriving DecidableEq, Repr, Hashable, Inhabited

namespace NodeId

def toValue : NodeId → Value
 | .num i => .int i
 | .name s => .str s

def ofValue? : Value → Option NodeId
 | .int i => some (.num i)
 | .bool b => some (.num (if b then 1 else 0))
 | .str s => some (.name s)
 | .float x =>
  match Decimal.parts x with
  | .finite ⟨neg,m,.ofNat e⟩ =>
   some (.num (if neg then -((m * Nat.pow 2 e : Nat) : Int) else (m * Nat.pow 2 e : Nat)))
  | .finite ⟨neg,m,.negSucc e⟩ =>
   if m % Nat.pow 2 (e + 1) = 0 then
    some (.num (if neg then -((m / Nat.pow 2 (e + 1) : Nat) : Int)
     else (m / Nat.pow 2 (e + 1) : Nat)))
   else none
  | _ => none
 | _ => none

@[simp] theorem ofValue?_toValue (n : NodeId) : ofValue? n.toValue = some n := by
 cases n <;> rfl

end NodeId

abbrev Attrs := Table String Value

end MotifMatch

namespace MotifMatch.Value
open Scalar Number
variable {α : Type} [Scalar α]

def scalarOfFloat (x : Float) : α :=
 match Decimal.parts x with
 | .undefined => zero / zero
 | .infinite negative => ofInt (if negative then -1 else 1) / zero
 | .finite b =>
  let m : Int := if b.negative then -(b.mantissa : Int) else b.mantissa
  match b.exponent with
  | .ofNat e => ofInt (m * Int.pow 2 e)
  | .negSucc e => ofInt m / ofInt (Int.pow 2 (e + 1))

def toScalar? : Value → Option α
 | .int i => some (ofInt i)
 | .bool b => some (if b then one else zero)
 | .float x => some (scalarOfFloat x)
 | _ => Option.none

mutual

def less : Value → Value → Except Error Bool
 | .str s, .str t => .ok (decide (s < t))
 | .list xs, .list ys => lessList xs ys
 | .tuple xs, .tuple ys => lessList xs ys
 | v, w =>
  match v.number?, w.number? with
  | some m, some n => .ok (m.compare? n == some .lt)
  | _, _ => .error .wrongType

def lessList : List Value → List Value → Except Error Bool
 | [], ys => .ok !ys.isEmpty
 | _ :: _, [] => .ok false
 | x :: xs, y :: ys => if same x y then lessList xs ys else less x y

end

theorem Number.compare?_int (i j : Int) :
 ((int i).compare? (.int j) == some .lt) = decide (i < j) := by
 rw [Bool.eq_iff_iff]
 simp [compare?,Int.compare_eq_lt]

theorem less_int (i j : Int) : less (.int i) (.int j) = .ok (decide (i < j)) := by
 simp [less,number?,compare?_int]

end MotifMatch.Value

namespace MotifMatch

def insertBy {α : Type} (less : α → α → Except Error Bool) (x : α) : List α → Except Error (List α)
 | [] => .ok [x]
 | y :: ys => do
  if ← less x y then return x :: y :: ys
  return y :: (← insertBy less x ys)

def sortBy {α : Type} (less : α → α → Except Error Bool) : List α → Except Error (List α)
 | xs => xs.foldlM (fun acc x => insertBy less x acc) []

def sortOn {α : Type} (key : α → Value) (downwards : Bool) (xs : List α) :
 Except Error (List α) := do
 if downwards then
  return (← sortBy (fun a b => Value.less (key a) (key b)) xs.reverse).reverse
 else
  sortBy (fun a b => Value.less (key a) (key b)) xs

end MotifMatch
