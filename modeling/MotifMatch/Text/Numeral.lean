namespace MotifMatch.Text
open String Int

def isBlank (c : Char) : Bool :=
 let n := c.toNat
 (9 ≤ n && n ≤ 13) || (28 ≤ n && n ≤ 32) || n == 0x85 || n == 0xa0 || n == 0x1680 ||
  (0x2000 ≤ n && n ≤ 0x200a) || n == 0x2028 || n == 0x2029 || n == 0x202f || n ==
   0x205f || n == 0x3000

def strip (cs : List Char) : List Char :=
 ((cs.dropWhile isBlank).reverse.dropWhile isBlank).reverse

def stripString (s : String) : String := ofList (strip s.toList)

def splitChars (sep : Char) : List Char → List (List Char)
 | [] => [[]]
 | c :: cs =>
  if c = sep then [] :: splitChars sep cs
  else match splitChars sep cs with
   | [] => [[c]]
   | piece :: rest => (c :: piece) :: rest

theorem splitChars_ne_nil (sep : Char) (cs : List Char) : splitChars sep cs ≠ [] := by
 cases cs with
 | nil => simp [splitChars]
 | cons c cs =>
  simp only [splitChars]
  split
  · simp
  · cases splitChars sep cs <;> simp

def splitOn (sep : Char) (s : String) : List String :=
 (splitChars sep s.toList).map ofList

def unifyNewlines : List Char → List Char
 | [] => []
 | '\r' :: '\n' :: cs => '\n' :: unifyNewlines cs
 | '\r' :: cs => '\n' :: unifyNewlines cs
 | c :: cs => c :: unifyNewlines cs

def lines (s : String) : List String :=
 let pieces := splitOn '\n' s
 if pieces.getLast? = some "" then pieces.dropLast else pieces

def replaceChars (old new : List Char) : Nat → List Char → List Char
 | 0, cs => cs
 | _ + 1, [] => []
 | n + 1, c :: cs =>
  if old ≠ [] ∧ old.isPrefixOf (c :: cs) then new ++
   replaceChars old new n ((c :: cs).drop old.length)
  else c :: replaceChars old new n cs

def replace (old new s : String) : String :=
 let cs := s.toList
 ofList (replaceChars old.toList new.toList (cs.length + 1) cs)

def isInfixChars (part : List Char) : List Char → Bool
 | [] => part.isEmpty
 | c :: cs => part.isPrefixOf (c :: cs) || isInfixChars part cs

def occursIn (part s : String) : Bool := isInfixChars part.toList s.toList

def zeros : List Nat :=
 [0x30,0x660,0x6f0,0x7c0,0x966,0x9e6,0xa66,0xae6,0xb66,0xbe6,0xc66,0xce6,0xd66,0xde6,
  0xe50,0xed0,0xf20,0x1040,0x1090,0x17e0,0x1810,0x1946,0x19d0,0x1a80,0x1a90,0x1b50,
  0x1bb0,0x1c40,0x1c50,0xa620,0xa8d0,0xa900,0xa9d0,0xa9f0,0xaa50,0xabf0,0xff10,0x104a0,
  0x10d30,0x11066,0x110f0,0x11136,0x111d0,0x112f0,0x11450,0x114d0,0x11650,0x116c0,0x11730,
  0x118e0,0x11950,0x11c50,0x11d50,0x11da0,0x11f50,0x16a60,0x16ac0,0x16b50,0x1d7ce,0x1d7d8,
  0x1d7e2,0x1d7ec,0x1d7f6,0x1e140,0x1e2f0,0x1e4f0,0x1e950,0x1fbf0]

def digit? (c : Char) : Option Nat :=
 if c.isDigit then some (c.toNat - 48)
 else if c.toNat < 128 then none
 else (zeros.find? fun z => z ≤ c.toNat && c.toNat < z + 10).map fun z => c.toNat - z

def scanDigits : List Char → Nat → Nat → Nat × Nat × List Char
 | [], acc, n => (acc,n,[])
 | c :: cs, acc, n =>
  match digit? c with
  | some d => scanDigits cs (acc * 10 + d) (n + 1)
  | none =>
   match c, n, cs with
   | '_', m + 1, d :: rest =>
    match digit? d with
    | some k => scanDigits rest (acc * 10 + k) (m + 2)
    | none => (acc,n,c :: cs)
   | _, _, _ => (acc,n,c :: cs)

def wholeDigits? (cs : List Char) : Option Nat :=
 match scanDigits cs 0 0 with
 | (v,_ + 1,[]) => some v
 | _ => none

def int? (s : String) : Option Int :=
 match strip s.toList with
 | '-' :: cs => (wholeDigits? cs).map fun v => -(v : Int)
 | '+' :: cs => (wholeDigits? cs).map ofNat
 | cs => (wholeDigits? cs).map ofNat

structure Scientific where
 mantissa : Nat
 exponent : Int
 deriving DecidableEq, Repr

inductive Real where
 | finite (negative : Bool) (x : Scientific)
 | infinite (negative : Bool)
 | undefined
 deriving DecidableEq, Repr

def exponent? : List Char → Option Int
 | '-' :: cs => (wholeDigits? cs).map fun v => -(v : Int)
 | '+' :: cs => (wholeDigits? cs).map ofNat
 | cs => (wholeDigits? cs).map ofNat

def scaled (mantissa : Nat) (places : Nat) : List Char → Option Scientific
 | [] => some ⟨mantissa,-(places : Int)⟩
 | c :: cs =>
  if c = 'e' ∨ c = 'E' then (exponent? cs).map fun e => ⟨mantissa,e - places⟩ else none

def magnitude? (cs : List Char) : Option Scientific :=
 match scanDigits cs 0 0 with
 | (v,n,'.' :: rest) =>
  match scanDigits rest v 0 with
  | (w,m,tail) => if n + m = 0 then none else scaled w m tail
 | (v,n,tail) => if n = 0 then none else scaled v 0 tail

def unsigned? (negative : Bool) (cs : List Char) : Option Real :=
 let word := ofList (cs.map Char.toLower)
 if word = "inf" ∨ word = "infinity" then some (.infinite negative)
 else if word = "nan" then some .undefined
 else (magnitude? cs).map (.finite negative)

def real? (s : String) : Option Real :=
 match strip s.toList with
 | '-' :: cs => unsigned? true cs
 | '+' :: cs => unsigned? false cs
 | cs => unsigned? false cs

def Scientific.toFloat (x : Scientific) : Float :=
 if x.mantissa = 0 then 0.0
 else match x.exponent with
  | .ofNat e => if e > 400 then 1.0 / 0.0 else Float.ofScientific x.mantissa false e
  | .negSucc e =>
   if e > (Nat.log2 x.mantissa + 1100) then 0.0 else Float.ofScientific x.mantissa true (e + 1)

def Real.toFloat : Real → Float
 | .finite negative x => if negative then -x.toFloat else x.toFloat
 | .infinite negative => if negative then -(1.0 / 0.0) else 1.0 / 0.0
 | .undefined => 0.0 / 0.0

def float? (s : String) : Option Float := (real? s).map Real.toFloat

end MotifMatch.Text
