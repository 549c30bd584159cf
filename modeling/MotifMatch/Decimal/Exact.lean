import MotifMatch.Text.Numeral

namespace MotifMatch.Decimal
open Nat String Char

structure Binary where
 negative : Bool
 mantissa : Nat
 exponent : Int
 deriving DecidableEq, Repr

inductive Parts where
 | finite (x : Binary)
 | infinite (negative : Bool)
 | undefined
 deriving DecidableEq, Repr

def parts (x : Float) : Parts :=
 let bits := x.toBits.toNat
 let negative : Bool := bits / Nat.pow 2 63 == 1
 let exponent : Nat := bits / Nat.pow 2 52 % 2048
 let fraction : Nat := bits % Nat.pow 2 52
 if exponent = 2047 then (if fraction = 0 then .infinite negative else .undefined)
 else if exponent = 0 then .finite ⟨negative,fraction,-1074⟩
 else .finite ⟨negative,fraction + Nat.pow 2 52,(exponent : Int) - 1075⟩

def truncate? (x : Float) : Option Int :=
 match parts x with
 | .finite b =>
  let m : Nat := match b.exponent with
   | .ofNat e => b.mantissa * Nat.pow 2 e
   | .negSucc e => b.mantissa / Nat.pow 2 (e + 1)
  some (if b.negative then -(m : Int) else m)
 | _ => none

def roundDiv (num den : Nat) : Nat :=
 let q := num / den
 let r := num % den
 if 2 * r > den ∨ (2 * r = den ∧ q % 2 = 1) then q + 1 else q

theorem roundDiv_one (n : Nat) : roundDiv n 1 = n := by
 simp [roundDiv,mod_one]

def roundedQuotient (num den : Nat) : Nat :=
 let q := num / den
 let e := q.log2
 if 53 ≤ e then roundDiv num (den * Nat.pow 2 (e - 52)) * Nat.pow 2 (e - 52)
 else
  let places := if q = 0 then 53 else 52 - e
  roundDiv (num * Nat.pow 2 places) den / Nat.pow 2 places

def scaleTo (places : Nat) (x : Binary) : Nat :=
 match x.exponent with
 | .ofNat e => x.mantissa * Nat.pow 2 e * Nat.pow 10 places
 | .negSucc e => roundDiv (x.mantissa * Nat.pow 10 places) (Nat.pow 2 (e + 1))

def padLeft (width : Nat) (cs : List Char) : List Char :=
 List.replicate (width - cs.length) '0' ++ cs

def pointed (places : Nat) (units : Nat) : List Char :=
 let digits := padLeft (places + 1) (toString units).toList
 if places = 0 then digits
 else digits.take (digits.length - places) ++ '.' :: digits.drop (digits.length - places)

def fixed (places : Nat) (x : Float) : String :=
 match parts x with
 | .undefined => "nan"
 | .infinite negative => if negative then "-inf" else "inf"
 | .finite b => (if b.negative then "-" else "") ++ ofList (pointed places (scaleTo places b))

def dropTrailing (c : Char) (cs : List Char) : List Char := (cs.reverse.dropWhile (· = c)).reverse

def brief (x : Float) : String :=
 let t := fixed 9 x
 if t.toList.contains '.' then
  let cut := ofList (dropTrailing '.' (dropTrailing '0' t.toList))
  if cut = "-0" then "0" else cut
 else t

structure Digits where
 digits : List Char
 point : Int
 deriving DecidableEq, Repr

def ratio (x : Binary) : Nat × Nat :=
 match x.exponent with
 | .ofNat e => (x.mantissa * Nat.pow 2 e,1)
 | .negSucc e => (x.mantissa,Nat.pow 2 (e + 1))

structure Window where
 low : Nat
 high : Nat
 den : Nat
 closed : Bool

def window (x : Binary) : Window :=
 let (num,den) := ratio x
 let unit := match x.exponent with
  | .ofNat e => Nat.pow 2 e
  | .negSucc _ => 1
 let narrow := x.mantissa = Nat.pow 2 52 ∧ x.exponent > -1074
 { low := if narrow then 4 * num - unit else 4 * num - 2 * unit
   high := 4 * num + 2 * unit
   den := 4 * den
   closed := x.mantissa % 2 = 0 }

def Window.admits (w : Window) (num den : Nat) : Bool :=
 let a := num * w.den
 if w.closed then w.low * den ≤ a && a ≤ w.high * den
 else w.low * den < a && a < w.high * den

def leadingPlace (num den : Nat) : Int :=
 let guess : Int := ((log2 num : Int) - (log2 den : Int)) * 30103 / 100000
 let below (k : Int) : Bool := match k with
  | .ofNat e => num < den * Nat.pow 10 e
  | .negSucc e => num * Nat.pow 10 (e + 1) < den
 let rec settle : Nat → Int → Int
  | 0, k => k
  | n + 1, k => if below k then k else settle n (k + 1)
 settle 6 (guess - 2)

def nearest (num den : Nat) (place : Int) (n : Nat) : Nat × Int :=
 let e := place - n
 match e with
 | .ofNat k => (roundDiv num (den * Nat.pow 10 k),e)
 | .negSucc k => (roundDiv (num * Nat.pow 10 (k + 1)) den,e)

def admitted (w : Window) (units : Nat) (e : Int) : Bool :=
 match e with
 | .ofNat k => w.admits (units * Nat.pow 10 k) 1
 | .negSucc k => w.admits units (Nat.pow 10 (k + 1))

def search (w : Window) (num den : Nat) (place : Int) : Nat → Nat → Nat × Int
 | 0, n => nearest num den place n
 | fuel + 1, n =>
  let (units,e) := nearest num den place n
  if admitted w units e then (units,e) else search w num den place fuel (n + 1)

def shortest (x : Binary) : Digits :=
 if x.mantissa = 0 then ⟨['0'],1⟩
 else
  let (num,den) := ratio x
  let (units,e) := search (window x) num den (leadingPlace num den) 17 1
  let cs := (toString units).toList
  ⟨dropTrailing '0' cs,e + cs.length⟩

structure Style where
 least : Int
 most : Int
 mark : String
 wholeSuffix : String
 pointInMantissa : Bool

def Style.exponentText (s : Style) (e : Int) : String :=
 let digits := ofList (padLeft 2 (toString e.natAbs).toList)
 s.mark ++ (if e < 0 then "-" else "+") ++ digits

def Style.layOut (s : Style) (d : Digits) : String :=
 let n : Int := d.digits.length
 if s.least < d.point ∧ d.point ≤ s.most then
  if d.point ≤ 0 then
   "0." ++ String.ofList (List.replicate d.point.natAbs '0' ++ d.digits)
  else if n ≤ d.point then
   String.ofList (d.digits ++ List.replicate (d.point - n).toNat '0') ++ s.wholeSuffix
  else
   ofList (d.digits.take d.point.toNat ++ '.' :: d.digits.drop d.point.toNat)
 else
  let head := d.digits.take 1
  let tail := d.digits.drop 1
  let body := if tail.isEmpty then (if s.pointInMantissa then head ++ ['.'] else head)
   else head ++ '.' :: tail
  ofList body ++ s.exponentText (d.point - 1)

def Style.render (s : Style) (x : Float) : String :=
 match parts x with
 | .undefined => "nan"
 | .infinite negative => if negative then "-inf" else "inf"
 | .finite b => (if b.negative then "-" else "") ++ s.layOut (shortest b)

def plainStyle : Style := ⟨-4,16,"e",".0",false⟩

def plain (x : Float) : String := plainStyle.render x

def isWordChar (c : Char) : Bool := c.isAlphanum || c = '_'

def takeExponent (cs : List Char) : List Char :=
 match cs with
 | e :: rest =>
  if e = 'e' || e = 'E' then
   let sign := match rest with
    | s :: _ => if s = '+' || s = '-' then [s] else []
    | [] => []
   match (rest.drop sign.length).takeWhile isDigit with
   | [] => []
   | digits => e :: sign ++ digits
  else []
 | [] => []

def literal? (cs : List Char) : Option (List Char) :=
 match cs.takeWhile isDigit, cs.dropWhile isDigit with
 | [], _ => none
 | whole, '.' :: rest =>
  match rest.takeWhile isDigit with
  | [] => none
  | places =>
   let number := whole ++ '.' :: places ++ takeExponent (rest.drop places.length)
   match cs.drop number.length with
   | c :: _ => if isWordChar c then none else some number
   | [] => some number
 | _, _ => none

def shortenFrom (inWord : Bool) : Nat → List Char → List Char
 | _, [] => []
 | skip + 1, _ :: rest => shortenFrom true skip rest
 | 0, c :: rest =>
  match (if inWord then none else literal? (c :: rest)) with
  | some number =>
   let x := (Text.float? (ofList number)).getD 0.0
   (brief x).toList ++ shortenFrom true (number.length - 1) rest
  | none => c :: shortenFrom (isWordChar c || c = '.') 0 rest

def shorten (s : String) : String := ofList (shortenFrom false 0 s.toList)

end MotifMatch.Decimal
