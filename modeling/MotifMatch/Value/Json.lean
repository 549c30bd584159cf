import MotifMatch.Value.Text

namespace MotifMatch.Json
open Char String

def isSpace (c : Char) : Bool := c = ' ' || c = '\t' || c = '\n' || c = '\r'

def skip (cs : List Char) : List Char := cs.dropWhile isSpace

def hexValue? (c : Char) : Option Nat :=
 let n := c.toNat
 if 48 ≤ n ∧ n ≤ 57 then some (n - 48)
 else if 97 ≤ n ∧ n ≤ 102 then some (n - 87)
 else if 65 ≤ n ∧ n ≤ 70 then some (n - 55)
 else none

def unit? : List Char → Option (Nat × List Char)
 | a :: b :: c :: d :: rest => do
  let w ← hexValue? a
  let x ← hexValue? b
  let y ← hexValue? c
  let z ← hexValue? d
  return (((w * 16 + x) * 16 + y) * 16 + z,rest)
 | _ => none

def codePoint (u : Nat) (rest : List Char) : Char × List Char :=
 if 0xd800 ≤ u ∧ u < 0xdc00 then
  match rest with
  | '\\' :: 'u' :: more =>
   match unit? more with
   | some (v,tail) =>
    if 0xdc00 ≤ v ∧ v < 0xe000 then
     (ofNat (0x10000 + (u - 0xd800) * 1024 + (v - 0xdc00)),tail)
    else (ofNat 0xfffd,rest)
   | none => (ofNat 0xfffd,rest)
  | _ => (ofNat 0xfffd,rest)
 else if 0xdc00 ≤ u ∧ u < 0xe000 then (ofNat 0xfffd,rest)
 else (ofNat u,rest)

def escape? : Char → Option Char
 | '"' => some '"'
 | '\\' => some '\\'
 | '/' => some '/'
 | 'b' => some '\x08'
 | 'f' => some '\x0c'
 | 'n' => some '\n'
 | 'r' => some '\r'
 | 't' => some '\t'
 | _ => none

def string? : Nat → List Char → List Char → Option (String × List Char)
 | 0, _, _ => none
 | _ + 1, _, [] => none
 | _ + 1, acc, '"' :: cs => some (ofList acc.reverse,cs)
 | n + 1, acc, '\\' :: 'u' :: cs =>
  match unit? cs with
  | some (u,rest) =>
   let (c,tail) := codePoint u rest
   string? n (c :: acc) tail
  | none => none
 | n + 1, acc, '\\' :: c :: cs =>
  match escape? c with
  | some e => string? n (e :: acc) cs
  | none => none
 | n + 1, acc, c :: cs => if c.toNat < 32 then none else string? n (c :: acc) cs

def digits (cs : List Char) : List Char × List Char := (cs.takeWhile isDigit,cs.dropWhile isDigit)

def natOf (ds : List Char) : Nat := ds.foldl (fun acc c => acc * 10 + (c.toNat - 48)) 0

def fraction (cs : List Char) : List Char × List Char :=
 match cs with
 | '.' :: rest =>
  let (ds,tail) := digits rest
  if ds.isEmpty then ([],cs) else (ds,tail)
 | _ => ([],cs)

def exponentPart (cs : List Char) : Option Int × List Char :=
 match cs with
 | c :: rest =>
  if c = 'e' ∨ c = 'E' then
   let (negative,body) := match rest with
    | '-' :: t => (true,t)
    | '+' :: t => (false,t)
    | t => (false,t)
   let (ds,tail) := digits body
   if ds.isEmpty then (none,cs)
   else (some (if negative then -(natOf ds : Int) else natOf ds),tail)
  else (none,cs)
 | [] => (none,cs)

def number? (negative : Bool) (cs : List Char) : Option (Value × List Char) :=
 let (whole,rest) : List Char × List Char := match cs with
  | '0' :: t => (['0'],t)
  | t => digits t
 if whole.isEmpty then none
 else
  let (frac,rest) := fraction rest
  let (e,rest) := exponentPart rest
  match frac, e with
  | [], none =>
   let v : Int := natOf whole
   some (.int (if negative then -v else v),rest)
  | _, _ =>
   let x := (Text.Scientific.mk (natOf (whole ++ frac)) (e.getD 0 - frac.length)).toFloat
   some (.float (if negative then -x else x),rest)

def putEntry (kvs : List (Value × Value)) (k : String) (v : Value) : List (Value × Value) :=
 Table.putEntries (.str k) v kvs

def word? (w : String) (v : Value) (cs : List Char) : Option (Value × List Char) :=
 let p := w.toList
 if p.isPrefixOf cs then some (v,cs.drop p.length) else none

mutual

def value? : Nat → List Char → Option (Value × List Char)
 | 0, _ => none
 | n + 1, cs =>
  match cs with
  | '"' :: rest => (string? n [] rest).map fun (s,t) => (.str s,t)
  | '[' :: rest =>
   match skip rest with
   | ']' :: t => some (.list [],t)
   | t => elements? n [] t
  | '{' :: rest =>
    match skip rest with
    | '}' :: t => some (.dict [],t)
    | t => members? n [] t
  | 'N' :: _ => word? "NaN" (.float (0.0 / 0.0)) cs
  | 'I' :: _ => word? "Infinity" (.float (1.0 / 0.0)) cs
  | 'n' :: _ => word? "null" .none cs
  | 't' :: _ => word? "true" (.bool true) cs
  | 'f' :: _ => word? "false" (.bool false) cs
  | '-' :: 'I' :: _ => word? "-Infinity" (.float (-(1.0 / 0.0))) cs
  | '-' :: rest => number? true rest
  | _ => number? false cs

def elements? : Nat → List Value → List Char → Option (Value × List Char)
 | 0, _, _ => none
 | n + 1, acc, cs =>
  match value? n cs with
  | none => none
  | some (v,rest) =>
   match skip rest with
   | ',' :: t => elements? n (v :: acc) (skip t)
   | ']' :: t => some (.list (v :: acc).reverse,t)
   | _ => none

def members? : Nat → List (Value × Value) → List Char → Option (Value × List Char)
 | 0, _, _ => none
 | n + 1, acc, cs =>
  match cs with
  | '"' :: rest =>
   match string? n [] rest with
   | none => none
   | some (k,rest) =>
    match skip rest with
    | ':' :: rest =>
     match value? n (skip rest) with
     | none => none
     | some (v,rest) =>
      let acc := putEntry acc k v
      match skip rest with
      | ',' :: t => members? n acc (skip t)
      | '}' :: t => some (.dict acc,t)
      | _ => none
    | _ => none
  | _ => none

end

def parse (s : String) : Except Error Value :=
 let cs := s.toList
 match value? (2 * cs.length + 2) (skip cs) with
 | some (v,rest) => if (skip rest).isEmpty then .ok v else .error .malformedJson
 | none => .error .malformedJson

def escapedUnit (u : Nat) : List Char := '\\' :: 'u' :: Value.hex 4 u

def escaped (c : Char) : List Char :=
 match c with
 | '"' => ['\\','"']
 | '\\' => ['\\','\\']
 | '\n' => ['\\','n']
 | '\r' => ['\\','r']
 | '\t' => ['\\','t']
 | '\x08' => ['\\','b']
 | '\x0c' => ['\\','f']
 | c =>
  let n := c.toNat
  if 32 ≤ n ∧ n < 127 then [c]
  else if n < 0x10000 then escapedUnit n
  else escapedUnit (0xd800 + (n - 0x10000) / 1024) ++ escapedUnit (0xdc00 + (n - 0x10000) % 1024)

def quoted (s : String) : String := ofList ('"' :: s.toList.flatMap escaped ++ ['"'])

def numberText (x : Float) : String :=
 match Decimal.parts x with
 | .undefined => "NaN"
 | .infinite negative => if negative then "-Infinity" else "Infinity"
 | .finite _ => Decimal.plain x

def keyText : Value → Except Error String
 | .str s => .ok s
 | .int i => .ok (toString i)
 | .bool b => .ok (if b then "true" else "false")
 | .none => .ok "null"
 | .float x => .ok (numberText x)
 | _ => .error .wrongType

def margin (depth : Nat) : String := ofList (List.replicate (4 * depth) ' ')

def enclosed (opening closing : String) (depth : Nat) (rows : List String) : String :=
 if rows.isEmpty then opening ++ closing
 else
  opening ++ "\n" ++ margin (depth + 1) ++ (",\n" ++ margin (depth + 1)).intercalate rows ++ "\n" ++
   margin depth ++ closing

mutual

def indented (depth : Nat) : Value → Except Error String
 | .none => .ok "null"
 | .bool b => .ok (if b then "true" else "false")
 | .int i => .ok (toString i)
 | .float x => .ok (numberText x)
 | .str s => .ok (quoted s)
 | .list xs => do return enclosed "[" "]" depth (← indentedList (depth + 1) xs)
 | .tuple xs => do return enclosed "[" "]" depth (← indentedList (depth + 1) xs)
 | .dict kvs => do return enclosed "\x7b" "\x7d" depth (← indentedEntries (depth + 1) kvs)

def indentedList (depth : Nat) : List Value → Except Error (List String)
 | [] => .ok []
 | x :: xs => do
  let t ← indented depth x
  return t :: (← indentedList depth xs)

def indentedEntries (depth : Nat) : List (Value × Value) → Except Error (List String)
 | [] => .ok []
 | (k,v) :: rest => do
  let key ← keyText k
  let t ← indented depth v
  return (quoted key ++ ": " ++ t) :: (← indentedEntries depth rest)

end

def render (v : Value) : Except Error String := indented 0 v

mutual

def compact : Value → String
 | .none => "null"
 | .bool b => if b then "true" else "false"
 | .int i => toString i
 | .float x => numberText x
 | .str s => quoted s
 | .list xs => "[" ++ ",".intercalate (compactList xs) ++ "]"
 | .tuple xs => "[" ++ ",".intercalate (compactList xs) ++ "]"
 | .dict kvs => "\x7b" ++ ",".intercalate (compactEntries kvs) ++ "\x7d"

def compactList : List Value → List String
 | [] => []
 | x :: xs => compact x :: compactList xs

def compactEntries : List (Value × Value) → List String
 | [] => []
 | (k,v) :: rest => (quoted k.text ++ ":" ++ compact v) :: compactEntries rest

end
end MotifMatch.Json
