import MotifMatch.Value.Basic

namespace MotifMatch.Value

def hexDigit (n : Nat) : Char := if n < 10 then Char.ofNat (48 + n) else Char.ofNat (87 + n)

def hex (width n : Nat) : List Char :=
 Decimal.padLeft width (go width n [])
where
 go : Nat → Nat → List Char → List Char
  | 0, _, acc => acc
  | f + 1, n, acc => if n < 16 then hexDigit n :: acc else go f (n / 16) (hexDigit (n % 16) :: acc)

def isHidden (n : Nat) : Bool :=
 (0x7f ≤ n && n ≤ 0xa0) || n == 0xad || n == 0x1680 || (0x2000 ≤ n && n ≤ 0x200f) ||
  (0x2028 ≤ n && n ≤ 0x202f) || (0x205f ≤ n && n ≤ 0x206f) || n == 0x3000 || n == 0xfeff ||
  (0xd800 ≤ n && n ≤ 0xf8ff) || (0xfff0 ≤ n && n ≤ 0xfffb) || n == 0xfffe || n == 0xffff ||
  (0xe0000 ≤ n && n ≤ 0x10ffff) || n == 0x61c || (0x600 ≤ n && n ≤ 0x605) || n == 0x6dd ||
   n == 0x70f ||
  n == 0x180e || n == 0x378 || n == 0x379

def quotedChar (quote c : Char) : List Char :=
 if c = quote ∨ c = '\\' then ['\\',c]
 else if c = '\n' then ['\\','n']
 else if c = '\r' then ['\\','r']
 else if c = '\t' then ['\\','t']
 else
  let n := c.toNat
  if n < 32 ∨ n = 127 then '\\' :: 'x' :: hex 2 n
  else if n < 127 then [c]
  else if isHidden n then
   if n < 256 then '\\' :: 'x' :: hex 2 n
   else if n < 65536 then '\\' :: 'u' :: hex 4 n
   else '\\' :: 'U' :: hex 8 n
  else [c]

def quoted (s : String) : String :=
 let cs := s.toList
 let quote := if cs.contains '\'' && !cs.contains '"' then '"' else '\''
 String.ofList (quote :: cs.flatMap (quotedChar quote) ++ [quote])

mutual

def shown : Value → String
 | .none => "None"
 | .bool b => if b then "True" else "False"
 | .int i => toString i
 | .float x => Decimal.plain x
 | .str s => quoted s
 | .list xs => "[" ++ ", ".intercalate (shownList xs) ++ "]"
 | .tuple xs =>
  match xs with
  | [x] => "(" ++ shown x ++ ",)"
  | xs => "(" ++ ", ".intercalate (shownList xs) ++ ")"
 | .dict kvs => "\x7b" ++ ", ".intercalate (shownEntries kvs) ++ "\x7d"

def shownList : List Value → List String
 | [] => []
 | x :: xs => shown x :: shownList xs

def shownEntries : List (Value × Value) → List String
 | [] => []
 | (k,v) :: rest => (shown k ++ ": " ++ shown v) :: shownEntries rest

end

def text : Value → String
 | .str s => s
 | v => shown v

@[simp] theorem text_str (s : String) : (str s).text = s := rfl

@[simp] theorem text_int (i : Int) : (int i).text = toString i := by
 simp [text,shown]

end MotifMatch.Value

namespace MotifMatch.NodeId

def text : NodeId → String
 | .num i => toString i
 | .name s => s

end MotifMatch.NodeId
