import MotifMatch.Value.Basic

namespace MotifMatch.Arrange
open List

def flip (kvs : List (Value × Value)) : Except Error (List (Value × Value)) :=
 if kvs.all fun e => e.2.hashable then
  .ok (Table.ofList (kvs.map fun e => (e.2,e.1))).entries
 else .error .wrongType

variable {α : Type}

def rounds : Nat → List (List (Option α)) → List α
 | 0, _ => []
 | n + 1, lists =>
  lists.filterMap (fun l => l.head?.join) ++ rounds n (lists.map tail)

def interleave (lists : List (List (Option α))) : List α :=
 rounds (lists.foldl (fun m l => max m l.length) 0) lists

def chunks (size : Nat) : Nat → List α → List (List α)
 | 0, _ => []
 | _ + 1, [] => []
 | n + 1, x :: xs => (x :: xs).take size :: chunks size n ((x :: xs).drop size)

def batches (size : Int) (xs : List α) : Except Error (List (List α)) :=
 if size = 0 then .error .badValue
 else if size < 0 then .ok []
 else .ok (chunks size.toNat xs.length xs)

theorem flatten_chunks {size : Nat} (h : 0 < size) :
 ∀ (n : Nat) (xs : List α), xs.length ≤ n → (chunks size n xs).flatten = xs := by
 intro n
 induction n with
 | zero => intro xs hn; simp [length_eq_zero_iff.mp (Nat.le_zero.mp hn),chunks]
 | succ n ih =>
  intro xs hn
  cases xs with
  | nil => simp [chunks]
  | cons x xs =>
   have hlen : ((x :: xs).drop size).length ≤ n := by
    simp only [length_drop,length_cons] at hn ⊢
    omega
   simp only [chunks,flatten_cons,ih _ hlen]
   exact take_append_drop size (x :: xs)

def sortByKey (downwards : Bool) (kvs : List (Value × Value)) :
 Except Error (List (Value × Value)) :=
 sortOn Prod.fst downwards kvs

def sortByValue (downwards : Bool) (kvs : List (Value × Value)) :
 Except Error (List (Value × Value)) :=
 sortOn Prod.snd downwards kvs

end MotifMatch.Arrange
