import MotifMatch.Curriculum
import MotifMatch.Evaluation.Judge
import MotifMatch.Frame
import MotifMatch.PatternSet

namespace MotifMatch.Workbench

inductive Part where
 | linear
 | module
 | moduleList
 | loss
 | optimizer
 | recorder
 | loader
 | dataset
 | device
 | untracked
 | settings
 | fixedAttention
 | fixedPredictions
 | sampleList
 deriving DecidableEq, Repr, Inhabited

inductive Obj where
 | item (x : Item)
 | list (xs : List Obj)
 | tuple (xs : List Obj)
 | dict (kvs : List (Obj × Obj))
 | ref (slot : Nat) (path : List Item)
 | part (p : Part) (fields : List (String × Obj))
 | catalog (c : Catalog)
 | aggregation (a : Evaluation.Aggregation)
 | layer (l : Network.Layer Float)
 | network (m : Network.Model Float)
 | matcher (m : Network.Matcher Float)
 | curriculum (c : Curriculum)
 | patternSet (s : PatternSet)
 | frame (f : Frame)
 deriving Inhabited

namespace Obj

def data (v : Value) : Obj := .item (.data v)
def none : Obj := data .none
def int (i : Int) : Obj := data (.int i)
def nat (n : Nat) : Obj := data (.int n)
def str (s : String) : Obj := data (.str s)
def bool (b : Bool) : Obj := data (.bool b)
def float (x : Float) : Obj := data (.float x)
def graph (g : Graph) : Obj := .item (.graph g)
def array (t : Tensor Float) : Obj := .item (.array t)
def id (n : NodeId) : Obj := data n.toValue
def ints (xs : List Int) : Obj := .list (xs.map int)
def strs (xs : List String) : Obj := .list (xs.map str)
def ids (xs : List NodeId) : Obj := .list (xs.map id)
def floats (xs : List Float) : Obj := .list (xs.map float)
def graphs (gs : List Graph) : Obj := .list (gs.map graph)

def dictOf {κ ν : Type} (key : κ → Obj) (value : ν → Obj) (kvs : List (κ × ν)) : Obj :=
 .dict (kvs.map fun e => (key e.1,value e.2))

def record (kvs : List (String × Obj)) : Obj := dictOf str (fun o => o) kvs

mutual

def ofValue : Value → Obj
 | .list xs => .list (ofValues xs)
 | .tuple xs => .tuple (ofValues xs)
 | .dict kvs => .dict (ofValueEntries kvs)
 | v => data v

def ofValues : List Value → List Obj
 | [] => []
 | v :: rest => ofValue v :: ofValues rest

def ofValueEntries : List (Value × Value) → List (Obj × Obj)
 | [] => []
 | (k,v) :: rest => (ofValue k,ofValue v) :: ofValueEntries rest

end

mutual

def ofItem : Item → Obj
 | .list xs => .list (ofItems xs)
 | .tuple xs => .tuple (ofItems xs)
 | .dict kvs => .dict (ofEntries kvs)
 | .data v => ofValue v
 | x => .item x

def ofItems : List Item → List Obj
 | [] => []
 | x :: rest => ofItem x :: ofItems rest

def ofEntries : List (Item × Item) → List (Obj × Obj)
 | [] => []
 | (k,x) :: rest => (ofItem k,ofItem x) :: ofEntries rest

end

mutual

def toItem : Obj → Item
 | .item x => x
 | .list xs => .list (toItems xs)
 | .tuple xs => .tuple (toItems xs)
 | .dict kvs => .dict (toEntries kvs)
 | _ => Item.none

def toItems : List Obj → List Item
 | [] => []
 | o :: rest => toItem o :: toItems rest

def toEntries : List (Obj × Obj) → List (Item × Item)
 | [] => []
 | (k,o) :: rest => (toItem k,toItem o) :: toEntries rest

end

def value? : Obj → Option Value
 | .item x => x.value?
 | .list xs => (Obj.list xs).toItem.value?
 | .tuple xs => (Obj.tuple xs).toItem.value?
 | .dict kvs => (Obj.dict kvs).toItem.value?
 | _ => Option.none

def isKey (k : Item) (o : Obj) : Bool :=
 match k, o.toItem with
 | .member m, .member n => m == n
 | x, y => match x.value?, y.value? with
  | some v, some w => v == w
  | _, _ => false

end Obj

abbrev Slots := Array Obj

def slotAt (slots : Slots) (slot : Nat) : Obj := slots.getD slot .none

def placeIn (length : Nat) (k : Item) : Except Error Nat :=
 match k.value?.bind Value.toInt? with
 | none => .error .wrongType
 | some i =>
  let j := if i < 0 then i + length else i
  if 0 ≤ j && j < length then .ok j.toNat else .error .indexOutOfRange

def Obj.part? (o : Obj) (k : Item) : Except Error Obj :=
 match o with
 | .list xs => do return xs.getD (← placeIn xs.length k) .none
 | .tuple xs => do return xs.getD (← placeIn xs.length k) .none
 | .dict kvs => match kvs.find? fun e => Obj.isKey k e.1 with
  | some e => .ok e.2
  | _ => .error .missingKey
 | .part _ fields => match fields.find? fun e => k.value? == some (.str e.1) with
  | some e => .ok e.2
  | _ => .error .missingAttribute
 | .item (.array t) => match k.value?.bind Value.toInt? with
  | some i => do return .array (← t.slice i)
  | _ => .error .wrongType
 | .item (.data (.str s)) => do
  return .str (String.singleton (s.toList.getD (← placeIn s.length k) ' '))
 | _ => .error .wrongType

def Obj.within (o : Obj) (path : List Item) : Except Error Obj := path.foldlM Obj.part? o

section Resolve
variable (follow : Nat → List Item → Except Error Obj)

mutual

def resolveWith : Obj → Except Error Obj
 | .ref slot path => follow slot path
 | .list xs => do return .list (← resolveList xs)
 | .tuple xs => do return .tuple (← resolveList xs)
 | .dict kvs => do return .dict (← resolveEntries kvs)
 | .part p fields => do return .part p (← resolveFields fields)
 | o => .ok o

def resolveList : List Obj → Except Error (List Obj)
 | [] => .ok []
 | o :: rest => do return (← resolveWith o) :: (← resolveList rest)

def resolveEntries : List (Obj × Obj) → Except Error (List (Obj × Obj))
 | [] => .ok []
 | (k,o) :: rest => do return (← resolveWith k,← resolveWith o) :: (← resolveEntries rest)

def resolveFields : List (String × Obj) → Except Error (List (String × Obj))
 | [] => .ok []
 | (name,o) :: rest => do return (name,← resolveWith o) :: (← resolveFields rest)

end
end Resolve

def resolveWithin (slots : Slots) : Nat → Obj → Except Error Obj
 | 0, o => .ok o
 | n + 1, o => resolveWith (fun slot path => do
  (← resolveWithin slots n (slotAt slots slot)).within path) o

def Slots.resolve (slots : Slots) (o : Obj) : Except Error Obj :=
 resolveWithin slots (slots.size + 1) o

section Assign
variable (follow : Nat → List Item → Obj → StateM Slots Unit)

mutual

def writeOver : Obj → Obj → StateM Slots Obj
 | .ref slot path, new => do
  follow slot path new
  return .ref slot path
 | .list xs, .list ys => return .list (← writeList xs ys)
 | .tuple xs, .tuple ys => return .tuple (← writeList xs ys)
 | .dict xs, .dict ys => do
  let kept ← writeEntries xs ys
  return .dict (ys.map fun e => (kept.find? fun x => Obj.isKey e.1.toItem x.1).getD e)
 | .part p xs, .part _ ys => return .part p (← writeFields xs ys)
 | _, new => return new
termination_by structural o => o

def writeList : List Obj → List Obj → StateM Slots (List Obj)
 | x :: xs, y :: ys => do return (← writeOver x y) :: (← writeList xs ys)
 | _, ys => return ys

def writeEntries : List (Obj × Obj) → List (Obj × Obj) → StateM Slots (List (Obj × Obj))
 | [], _ => return []
 | (k,x) :: rest, ys => do
  match ys.find? fun e => Obj.isKey k.toItem e.1 with
  | some e => return (k,← writeOver x e.2) :: (← writeEntries rest ys)
  | none => writeEntries rest ys

def writeFields : List (String × Obj) → List (String × Obj) → StateM Slots (List (String × Obj))
 | [], _ => return []
 | (name,x) :: rest, ys => do
  match ys.find? fun e => e.1 == name with
  | some e => return (name,← writeOver x e.2) :: (← writeFields rest ys)
  | none => return (name,x) :: (← writeFields rest ys)

end

def writeAt : List Item → Obj → Obj → StateM Slots Obj
 | [], old, new => writeOver follow old new
 | k :: rest, .ref slot path, new => do
  follow slot (path ++ k :: rest) new
  return .ref slot path
 | k :: rest, .list xs, new => do
  match placeIn xs.length k with
  | .ok i => return .list (xs.set i (← writeAt rest (xs.getD i .none) new))
  | .error _ => return .list xs
 | k :: rest, .tuple xs, new => do
  match placeIn xs.length k with
  | .ok i => return .tuple (xs.set i (← writeAt rest (xs.getD i .none) new))
  | .error _ => return .tuple xs
 | k :: rest, .dict kvs, new => do
  match kvs.findIdx? fun e => Obj.isKey k e.1 with
  | some i =>
   let e := kvs.getD i (.none,.none)
   return .dict (kvs.set i (e.1,← writeAt rest e.2 new))
  | none => return .dict kvs
 | k :: rest, .part p fields, new => do
  match fields.findIdx? fun e => k.value? == some (.str e.1) with
  | some i =>
   let e := fields.getD i ("",.none)
   return .part p (fields.set i (e.1,← writeAt rest e.2 new))
  | none => return .part p fields
 | _, old, _ => return old

end Assign

def assignWithin : Nat → Nat → List Item → Obj → StateM Slots Unit
 | 0, _, _, _ => return ()
 | n + 1, slot, path, new => do
  let top ← writeAt (assignWithin n) path (slotAt (← get) slot) new
  modify fun slots => slots.setIfInBounds slot top

def Slots.assign (slots : Slots) (old new : Obj) : Slots :=
 ((writeOver (assignWithin (slots.size + 1)) old new).run slots).2

structure Bench where
 session : Session
 slots : Slots := #[]
 names : Table String Nat := .empty
 deriving Inhabited

abbrev Act := ExceptT Error (StateM Bench)

instance (priority := low) : MonadLift Run Act where
 monadLift action := do
  let b ← get
  let (r,session) := action.run.run b.session
  set { b with session }
  r

instance (priority := low) : MonadLift Draw Act := ⟨fun d => Run.draw d⟩

namespace Act

def resolve (o : Obj) : Act Obj := do (← get).slots.resolve o

def save (name : String) (o : Obj) : Act Unit :=
 match o with
 | .ref slot [] => modify fun b => { b with names := b.names.put name slot }
 | o => modify fun b => { b with slots := b.slots.push o, names := b.names.put name b.slots.size }

def «recall» (name : String) (path : List Item) : Act Obj := do
 match (← get).names.get? name with
 | none => throw .unknownName
 | some slot =>
  discard (resolve (.ref slot path))
  return .ref slot path

end Act

abbrev Args := List (Option Obj)

abbrev Command := Args → Act Obj

def graphOf : Item → Except Error Graph
 | .graph g => .ok g
 | _ => .error .missingAttribute

def intOf (v : Value) : Except Error Int := v.toInt?.getDM (throw .wrongType)

def floatOf (v : Value) : Except Error Float := v.toFloat?.getDM (throw .wrongType)

def textIn : Value → Except Error String
 | .str s => .ok s
 | _ => .error .wrongType

def tensorOf : Item → Except Error (Tensor Float)
 | .array t => .ok t
 | .list xs => match (Item.list xs).value? with
  | some v => Tensor.ofNested v
  | none => do
   let rows ← xs.mapM fun x => match x with
    | .array t => Except.ok t
    | .data v => Tensor.ofNested v
    | _ => .error .badValue
   Tensor.stacked rows
 | x => do Tensor.ofNested (← x.value?.getDM (throw .wrongType))

namespace Args
variable (a : Args) (i : Nat)

def raw? : Option Obj := (a[i]?).join

def raw : Act Obj := (a.raw? i).getDM (throw .wrongType)

def obj : Act Obj := do Act.resolve (← a.raw i)

def obj? : Act (Option Obj) := (a.raw? i).mapM Act.resolve

def item : Act Item := return (← a.obj i).toItem

def value : Act Value := do (← a.obj i).value?.getDM (throw .wrongType)

def valueD (d : Value) : Act Value := do
 match ← a.obj? i with
 | some o => o.value?.getDM (throw .wrongType)
 | none => return d

def int : Act Int := do intOf (← a.value i)

def intD (d : Int) : Act Int := do intOf (← a.valueD i (.int d))

def ceilingD (d : Int) : Act Int := do
 match ← a.valueD i (.int d) with
 | .float x => return x.ceil.toInt64.toInt
 | v => intOf v

def float : Act Float := do floatOf (← a.value i)

def floatD (d : Float) : Act Float := do floatOf (← a.valueD i (.float d))

def float? : Act (Option Float) := do (← a.obj? i).mapM fun _ => a.float i

def boolD (d : Bool) : Act Bool := do
 match ← a.obj? i with
 | some o => return o.value?.all Value.truthy
 | none => return d

def bool : Act Bool := do
 discard (a.raw i)
 a.boolD i false

def str : Act String := do textIn (← a.value i)

def strD (d : String) : Act String := do textIn (← a.valueD i (.str d))

def str? : Act (Option String) := do
 match ← a.valueD i .none with
 | .str s => return some s
 | .none => return none
 | v => return some v.text

def listed : Act (List Item) := do (← a.item i).elements?.getDM (throw .wrongType)

def texts : Act (List String) := return (← a.listed i).map fun x => (x.value?.getD .none).text

def graph : Act Graph := do graphOf (← a.item i)

def node : Act NodeId := return (NodeId.ofValue? (← a.value i)).getD (.name "\n")

def node? : Act (Option NodeId) := return NodeId.ofValue? (← a.valueD i .none)

def values : Act (List Value) := return (← a.listed i).filterMap Item.value?

def entries : Act (List (Item × Item)) := do (← a.item i).entries?.getDM (throw .missingAttribute)

def objEntries : Act (List (Value × Obj)) := do
 match ← a.obj i with
 | .dict kvs => kvs.mapM fun e => return (← e.1.value?.getDM (throw .wrongType),e.2)
 | _ => throw .missingAttribute

def valueEntries : Act (List (Value × Value)) := do
 match ← a.value i with
 | .dict kvs => return kvs
 | _ => throw .missingAttribute

def valueEntries? : Act (Option (List (Value × Value))) := do
 match ← a.valueD i .none with
 | .dict kvs => return some kvs
 | .none => return none
 | _ => throw .missingAttribute

def attrs : Act Attrs := return ⟨(← a.valueEntries i).map fun e => (e.1.text,e.2)⟩

def graphs : Act (List Graph) := do (← a.listed i).mapM (graphOf ·)

def graphEntries : Act (List (Value × Graph)) := do
 (← a.entries i).mapM fun e => return (← e.1.value?.getDM (throw .wrongType),← graphOf e.2)

def tensor : Act (Tensor Float) := do tensorOf (← a.item i)

def tensors : Act (List (Tensor Float)) := do
 (← a.listed i).mapM (tensorOf ·)

def sizes : Act (List Int) := do
 match ← a.value i with
 | .list xs => xs.mapM (intOf ·)
 | .tuple xs => xs.mapM (intOf ·)
 | v => return [← intOf v]

def keep (new : Obj) : Act Unit :=
 match a.raw? i with
 | some o => modify fun b => { b with slots := b.slots.assign o new }
 | none => return

def keepGraph (g : Graph) : Act Unit := a.keep i (.graph g)

def keepAs (new : Obj) : Act Obj := do
 a.keep i new
 match a.raw? i with
 | some (.ref slot path) => return .ref slot path
 | _ => return new

end Args

def effect (action : Act Unit) : Act Obj := do
 action
 return .none

end MotifMatch.Workbench
