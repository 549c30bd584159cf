import MotifMatch.Value.Text

namespace MotifMatch
open String

structure Frame where
 columns : List String
 rows : List (List Value)
 deriving Inhabited

namespace Frame

def isNumber : Value → Bool
 | .int _ => true
 | .float _ => true
 | _ => false

def isWhole : Value → Bool
 | .int _ => true
 | _ => false

def asFraction : Value → Value
 | .int i => .float (Float.ofInt i)
 | .none => .float (0.0 / 0.0)
 | v => v

def settleColumn (cells : List Value) : List Value :=
 if cells.any isNumber && (cells.all fun v => isNumber v || v == .none) && !cells.all isWhole then
  cells.map asFraction
 else cells

def ofRows (columns : List String) (rows : List (List Value)) : Frame :=
 let settled := (List.range columns.length).map fun (j : Nat) =>
  (settleColumn (rows.map fun r => r.getD j .none)).toArray
 ⟨columns,(List.range rows.length).map fun (i : Nat) => settled.map fun c => c.getD i .none⟩

def needsQuotes (s : String) : Bool :=
 s.toList.any fun c => c = ',' || c = '"' || c = '\n' || c = '\r'

def quotedCell (s : String) : String :=
 if needsQuotes s then
  ofList ('"' :: (s.toList.flatMap fun c => if c = '"' then ['"','"'] else [c]) ++ ['"'])
 else s

def cellText : Value → String
 | .none => ""
 | .float x => if x == x then (Value.float x).text else ""
 | v => quotedCell v.text

def lineOf (cells : List String) : String := intercalate "," cells ++ "\n"

def csv (f : Frame) : String :=
 join (lineOf (f.columns.map quotedCell) :: f.rows.map fun r => lineOf (r.map cellText))

def splitCells (quoted : Bool) : List Char → List Char → List (List Char)
 | cell, [] => [cell.reverse]
 | cell, '"' :: '"' :: rest =>
  if quoted then splitCells true ('"' :: cell) rest else splitCells false cell rest
 | cell, '"' :: rest => splitCells (!quoted) cell rest
 | cell, ',' :: rest =>
  if quoted then splitCells true (',' :: cell) rest else cell.reverse :: splitCells false [] rest
 | cell, c :: rest => splitCells quoted (c :: cell) rest

def cells (line : String) : List String := (splitCells false [] line.toList).map ofList

def shortCell (s : String) : String :=
 match Text.float? s with
 | some x => Decimal.brief x
 | none => s

def rowsWithout (dropped : List String) (text : String) : List (List String) :=
 match (Text.splitOn '\n' text).filter (fun line => line != "") |>.map cells with
 | [] => []
 | header :: rows =>
  let kept := header.zipIdx.filter fun e => !dropped.contains e.1
  (header :: rows).map fun row => kept.map fun e => shortCell (row.getD e.2 "")

end Frame
end MotifMatch
