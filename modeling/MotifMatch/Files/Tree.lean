import MotifMatch.Catalog
import MotifMatch.Graph.Basic
import MotifMatch.Tensor.Basic

namespace MotifMatch.Path

def root : String := "$ROOT"

def project : String := "glema"

def isAbsolute (p : String) : Bool := p.startsWith "/" || p.startsWith root

def join (a b : String) : String :=
 if isAbsolute b then b
 else if a.isEmpty || a.endsWith "/" then a ++ b
 else a ++ "/" ++ b

def parts (p : String) : List String := (Text.splitOn '/' p).filter fun s => s != "" && s != "."

def tidy (p : String) : String :=
 let body := String.intercalate "/" (parts p)
 if p.startsWith "//" && !p.startsWith "///" then "//" ++ body
 else if p.startsWith "/" then "/" ++ body
 else if body.isEmpty then "." else body

def under (folder p : String) : String := if isAbsolute p then tidy p else tidy (folder ++ "/" ++ p)

def ofRoot (p : String) : String := under root p

def ofProject (p : String) : String := ofRoot (under project p)

def fromRoot? (p : String) : Option (List String) :=
 if p = root || p.startsWith (root ++ "/") then some
  (parts (String.ofList (p.toList.drop root.length)))
 else if isAbsolute p then none
 else some (parts p)

def namesFolder (p : String) : Bool := p.endsWith "/" || p.endsWith "/."

end MotifMatch.Path

namespace MotifMatch

inductive Item where
 | data (v : Value)
 | graph (g : Graph)
 | array (t : Tensor Float)
 | member (m : Member)
 | list (xs : List Item)
 | tuple (xs : List Item)
 | set (xs : List Item)
 | dict (kvs : List (Item × Item))
 deriving Inhabited

namespace Item

def int (i : Int) : Item := .data (.int i)

def nat (n : Nat) : Item := .data (.int n)

def str (s : String) : Item := .data (.str s)

def float (x : Float) : Item := .data (.float x)

def bool (b : Bool) : Item := .data (.bool b)

def none : Item := .data .none

def elements? : Item → Option (List Item)
 | .list xs => some xs
 | .tuple xs => some xs
 | .data (.list xs) => some (xs.map .data)
 | .data (.tuple xs) => some (xs.map .data)
 | .data (.str s) => some (s.toList.map fun c => .str (String.singleton c))
 | _ => Option.none

def entries? : Item → Option (List (Item × Item))
 | .dict kvs => some kvs
 | .data (.dict kvs) => some (kvs.map fun e => (.data e.1,.data e.2))
 | _ => Option.none

mutual

def value? : Item → Option Value
 | .data v => some v
 | .list xs => (valueList? xs).map .list
 | .tuple xs => (valueList? xs).map .tuple
 | .dict kvs => (valueEntries? kvs).map .dict
 | _ => Option.none

def valueList? : List Item → Option (List Value)
 | [] => some []
 | x :: xs => do return (← value? x) :: (← valueList? xs)

def valueEntries? : List (Item × Item) → Option (List (Value × Value))
 | [] => some []
 | (k,v) :: rest => do return (← value? k,← value? v) :: (← valueEntries? rest)

end
end Item

inductive Entry where
 | text (s : String)
 | stored (x : Item)
 | folder (entries : List (String × Entry))
 deriving Inhabited

namespace Entry

def isFolder : Entry → Bool
 | .folder _ => true
 | _ => false

def children : Entry → List (String × Entry)
 | .folder es => es
 | _ => []

def child? (e : Entry) (name : String) : Option Entry :=
 (e.children.find? fun c => c.1 == name).map Prod.snd

def setChild (name : String) (e : Entry) : List (String × Entry) → List (String × Entry)
 | [] => [(name,e)]
 | c :: rest => if c.1 == name then (name,e) :: rest else c :: setChild name e rest

def find (e : Entry) : List String → Except Error Entry
 | [] => .ok e
 | name :: rest =>
  match e with
  | .folder _ =>
   match e.child? name with
   | some c => find c rest
   | none => .error .fileNotFound
  | _ => .error .notADirectory

def put (new : Entry) : List String → Entry → Except Error Entry
 | [], _ => .ok new
 | name :: rest, e =>
  match e with
  | .folder es =>
   match rest, e.child? name with
   | [], _ => .ok (.folder (setChild name new es))
   | _ :: _, some c => do return .folder (setChild name (← put new rest c) es)
   | _ :: _, none => .error .fileNotFound
  | _ => .error .notADirectory

def makeFolders : List String → Entry → Except Error Entry
 | [], e => if e.isFolder then .ok e else .error .fileExists
 | name :: rest, e =>
  match e with
  | .folder es => do
   let inner ← makeFolders rest ((e.child? name).getD (.folder []))
   return .folder (setChild name inner es)
  | _ => .error .notADirectory

def remove : List String → Entry → Entry
 | [], e => e
 | [name], .folder es => .folder (es.filter fun c => c.1 != name)
 | name :: rest, .folder es =>
  .folder (es.map fun c => if c.1 == name then (c.1,remove rest c.2) else c)
 | _, e => e

mutual

def listing (above : String) : Entry → List String
 | .folder es => listingAll above es
 | _ => []

def listingAll (above : String) : List (String × Entry) → List String
 | [] => []
 | (name,e) :: rest =>
  let here := above ++ name
  (if e.isFolder then here ++ "/" else here) :: listing (here ++ "/") e ++ listingAll above rest

end

def resolveFrom (top : Entry) : List String → List String → Except Error (List String)
 | here, [] => .ok here.reverse
 | here, ".." :: rest =>
  match top.find here.reverse with
  | .ok (.folder _) =>
   match here with
   | [] => .error .fileNotFound
   | _ :: up => resolveFrom top up rest
  | .ok _ => .error .notADirectory
  | .error e => .error e
 | here, name :: rest => resolveFrom top (name :: here) rest

def resolve (top : Entry) (p : String) : Except Error (List String) :=
 match Path.fromRoot? p with
 | some ps => resolveFrom top [] ps
 | none => .error .fileNotFound

def lookup (top : Entry) (p : String) : Except Error Entry := do
 let e ← top.find (← top.resolve p)
 if Path.namesFolder p && !e.isFolder then throw .notADirectory
 return e

def exists? (top : Entry) (p : String) : Bool := match top.lookup p with
 | .ok _ => true
 | .error _ => false

def isFolderAt (top : Entry) (p : String) : Bool := match top.lookup p with
 | .ok e => e.isFolder
 | .error _ => false

def isFileAt (top : Entry) (p : String) : Bool := match top.lookup p with
 | .ok e => !e.isFolder
 | .error _ => false

def sortNames (names : List String) : List String := names.mergeSort fun s t => decide (s ≤ t)

def names (top : Entry) (p : String) : Except Error (List String) := do
 match ← top.lookup p with
 | .folder es => return sortNames (es.map Prod.fst)
 | _ => throw .notADirectory

end Entry
end MotifMatch
