import MotifMatch.Gml.Write

namespace MotifMatch.Gml

inductive Token where
 | key (name : String)
 | real (x : Float)
 | whole (i : Int)
 | text (s : String)
 | opening
 | closing
 deriving Inhabited

def isSpace (c : Char) : Bool := c = ' ' || ('\t' ≤ c && c ≤ '\r') || ('\x1c' ≤ c && c ≤ '\x1f')

def digitsOf (cs : List Char) : List Char := cs.takeWhile Char.isDigit

def signOf : List Char → List Char
 | '+' :: _ => ['+']
 | '-' :: _ => ['-']
 | _ => []

def fractionOf (cs : List Char) : List Char :=
 let whole := digitsOf cs
 match cs.drop whole.length with
 | '.' :: rest =>
  let part := digitsOf rest
  if whole.isEmpty && part.isEmpty then [] else whole ++ '.' :: part
 | _ => if cs.take 3 = "INF".toList then "INF".toList else []

def exponentOf : List Char → List Char
 | c :: rest =>
  if c = 'e' || c = 'E' then
   let sign := signOf rest
   let digits := digitsOf (rest.drop sign.length)
   if digits.isEmpty then [] else c :: sign ++ digits
  else []
 | [] => []

def numberOf (cs : List Char) : Option (List Char × Bool) :=
 let sign := signOf cs
 let rest := cs.drop sign.length
 match fractionOf rest with
 | [] =>
  match digitsOf rest with
  | [] => none
  | digits => some (sign ++ digits,false)
 | fraction => some (sign ++ fraction ++ exponentOf (rest.drop fraction.length),true)

def next : List Char → Option (Option Token × List Char)
 | [] => none
 | '[' :: rest => some (some .opening,rest)
 | ']' :: rest => some (some .closing,rest)
 | '#' :: _ => some (none,[])
 | '"' :: rest =>
  let body := rest.takeWhile fun c => c != '"'
  match rest.drop body.length with
  | _ :: rest => some (some (.text (String.ofList body)),rest)
  | [] => none
 | c :: rest =>
  if isSpace c then some (none,rest.dropWhile isSpace)
  else if c.isAlpha then
   let name := c :: rest.takeWhile fun d => d.isAlphanum || d = '_'
   some (some (.key (String.ofList name)),(c :: rest).drop name.length)
  else match numberOf (c :: rest) with
   | none => none
   | some (digits,fraction) =>
    let text := String.ofList digits
    let token := if fraction then Token.real ((Text.float? text).getD 0.0) else .whole
     ((Text.int? text).getD 0)
    some (some token,(c :: rest).drop digits.length)

def lineTokens : Nat → List Char → Except Error (List Token)
 | _, [] => .ok []
 | 0, _ => .error .malformedGraph
 | n + 1, cs =>
  match next cs with
  | none => .error .malformedGraph
  | some (none,rest) => lineTokens n rest
  | some (some t,rest) => do return t :: (← lineTokens n rest)

def tokens (text : String) : Except Error (List Token) := do
 if text.toList.any fun c => 127 < c.toNat then throw .malformedGraph
 return (← (Text.splitOn '\n' text).mapM fun l => lineTokens l.length l.toList).flatten

abbrev Block := Table String (List Value)

def Block.add (b : Block) (key : String) (v : Value) : Block := b.put key (b.getD key [] ++ [v])

def settle : List Value → Value
 | [v] => v
 | v :: rest => if v == .str listMark then .list rest else .list (v :: rest)
 | [] => .list []

def Block.entries (b : Block) : List (Value × Value) :=
 b.mapValues (fun _ vs => settle vs) |>.entries.map fun e => (.str e.1,e.2)

def looseKeys : List String := ["id","label","source","target"]

def looseValue (key : String) : Token → Except Error Value
 | .key name =>
  if looseKeys.contains key then .ok (.str (decode name))
  else if name = "NAN" then .ok (.float (0.0 / 0.0))
  else if name = "INF" then .ok (.float (1.0 / 0.0))
  else .error .malformedGraph
 | .closing => if looseKeys.contains key then .ok (.str "]") else .error .malformedGraph
 | _ => .error .malformedGraph

def pairs : Nat → Block → List Token → Except Error (List (Value × Value) × List Token)
 | 0, _, _ => .error .malformedGraph
 | n + 1, b, .key k :: rest =>
  match rest with
  | .real x :: rest => pairs n (b.add k (.float x)) rest
  | .whole i :: rest => pairs n (b.add k (.int i)) rest
  | .text s :: rest => pairs n (b.add k (.str (decode s))) rest
  | .opening :: rest => do
   match ← pairs n .empty rest with
   | (inner,.closing :: rest) => pairs n (b.add k (.dict inner)) rest
   | _ => throw .malformedGraph
  | t :: rest => do pairs n (b.add k (← looseValue k t)) rest
  | [] => .error .malformedGraph
 | _ + 1, b, rest => .ok (b.entries,rest)

def member (name : String) (kvs : List (Value × Value)) : Option Value :=
 (Table.mk kvs).get? (.str name)

def blocks (name : String) (kvs : List (Value × Value)) : List Value :=
 match member name kvs with
 | none => []
 | some (.list xs) => xs
 | some v => [v]

def takeOut (names : List String) : Value → Except Error (List Value × Attrs)
 | .dict kvs => do
  let found ← names.mapM fun n => match member n kvs with
   | some v => Except.ok v
   | none => .error .malformedGraph
  let rest := kvs.filterMap fun e => match e.1 with
   | .str k => if names.contains k then none else some (k,e.2)
   | _ => none
  return (found,⟨rest⟩)
 | _ => .error .missingAttribute

def idOf (v : Value) : Except Error NodeId :=
 if v.hashable then .ok ((NodeId.ofValue? v).getD (.name v.text)) else .error .wrongType

structure Reading where
 graph : Graph
 names : Table Value NodeId

def addNode (s : Reading) (block : Value) : Except Error Reading := do
 let (found,attrs) ← takeOut ["id","label"] block
 match found with
 | [number,label] =>
  if !number.hashable then throw .wrongType
  if s.names.contains number then throw .malformedGraph
  let name ← idOf label
  if s.graph.hasNode name then throw .malformedGraph
  return { graph := s.graph.addNode name attrs, names := s.names.put number name }
 | _ => throw .malformedGraph

def Reading.endOf (s : Reading) (number : Value) : Except Error NodeId :=
 match s.names.get? number with
 | some n => .ok n
 | none => .error .malformedGraph

def addEdge (s : Reading) (block : Value) : Except Error Reading := do
 let (found,attrs) ← takeOut ["source","target"] block
 let ends ← found.mapM s.endOf
 match ends with
 | [u,v] =>
  if !s.graph.multi then
   if s.graph.hasEdge u v then throw .malformedGraph
   return { s with graph := s.graph.addEdge u v attrs }
  match attrs.get? "key" with
  | none => return { s with graph := s.graph.addEdge u v attrs }
  | some key =>
   if s.graph.edges.any fun e => s.graph.joins u v e && e.key == key then throw .malformedGraph
   return { s with graph := s.graph.addKeyed u v key (attrs.erase "key") }
 | _ => throw .malformedGraph

def build (kvs : List (Value × Value)) : Except Error Graph := do
 let flag (name : String) : Bool := ((member name kvs).getD (.bool false)).truthy
 let start : Reading := ⟨⟨flag "directed",flag "multigraph",.empty,[]⟩,.empty⟩
 let s ← (blocks "node" kvs).foldlM addNode start
 let s ← (blocks "edge" kvs).foldlM addEdge s
 return s.graph.relisted

def parse (text : String) : Except Error Graph := do
 let ts ← tokens text
 match ← pairs (ts.length + 1) .empty ts with
 | (kvs,[]) =>
  match member "graph" kvs with
  | some (.dict inner) => build inner
  | some (.list _) => throw .malformedGraph
  | some _ => throw .missingAttribute
  | none => throw .malformedGraph
 | _ => throw .malformedGraph

def read (path : String) : Run Graph := do
 match ← Run.entryAt path with
 | .text s => Run.ofExcept (parse s)
 | .stored _ => throw .malformedGraph
 | .folder _ => throw .isADirectory

end MotifMatch.Gml
