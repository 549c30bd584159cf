import MotifMatch.Value.Text

namespace MotifMatch

structure Member where
 name : String
 value : String
 deriving DecidableEq, Repr, Inhabited

structure Catalog where
 title : String
 members : List Member
 deriving DecidableEq, Repr, Inhabited

namespace Catalog

def position (c : Catalog) (m : Member) : Nat := c.members.idxOf m + 1

def memberAt (c : Catalog) (index : Value) : Except Error Member :=
 match index.number? with
 | none => .error .wrongType
 | some n =>
  let inside := n.compare? (.int 1) != some .lt && n.compare? (.int c.members.length) != some .gt
   && (n.compare? (.int 1)).isSome
  if inside then
   match n with
   | .float _ => .error .wrongType
   | .int i =>
    match c.members[(i - 1).toNat]? with
    | some m => .ok m
    | none => .error .noMemberAt
  else .error .noMemberAt

def memberWith (c : Catalog) (value : Value) : Except Error Member :=
 match c.members.find? fun m => Value.str m.value == value with
 | some m => .ok m
 | none => .error (.noMemberWith value.text)

def nodeAttr : Catalog := ⟨"NodeAttr",[
 ⟨"LABELS","node_labels"⟩,⟨"SCOPED_RECORD_NAME","node_scopedRecordName"⟩,⟨"DATASET","node_dataset"⟩,
 ⟨"FULL_NAME","node_fullName"⟩,⟨"LOCAL_NAME","node_localName"⟩,⟨"PATTERN_ID_NAME","node_patternId"⟩]⟩

def edgeAttr : Catalog := ⟨"EdgeAttr",[⟨"TYPE","type"⟩]⟩

def edgeType : Catalog := ⟨"EdgeType",[⟨"INTERACTS","INTERACTS"⟩]⟩

def nodeLabel : Catalog := ⟨"NodeLabel",[
 ⟨"RECORD","RecordDeclaration"⟩,⟨"KNOWS_RECORD","KNOWS_RECORD"⟩,⟨"CREATES_RECORD","CREATES_RECORD"⟩,
 ⟨"EXTENDED_BY_RECORD","EXTENDED_BY_RECORD"⟩,⟨"RETURNS_RECORD","RETURNS_RECORD"⟩,
 ⟨"CALLS_RECORD","CALLS_RECORD"⟩]⟩

def designPattern : Catalog := ⟨"DesignPatternType",
 ["ABSTRACT_FACTORY","ADAPTER","BUILDER","FACADE","FACTORY_METHOD","OBSERVER","SINGLETON","DECORATOR",
  "MEMENTO","PROTOTYPE","PROXY","VISITOR"].map fun s => ⟨s,s⟩⟩

def all : List Catalog := [nodeAttr,edgeAttr,edgeType,nodeLabel,designPattern]

def noPattern : String := "N/A"

def recordIndex : Nat := 1

def defaultInteraction : Nat := 1

end Catalog
end MotifMatch

namespace MotifMatch.PatternId

def encode (name pid : Value) : Value :=
 match name, pid with
 | .none, _ => .none
 | .str "None", _ => name
 | _, .none => name
 | _, _ => .str (name.text ++ "#" ++ pid.text)

def afterHash : List Char → Option (List Char)
 | [] => none
 | '#' :: rest => some rest
 | _ :: rest => afterHash rest

def decode (name : String) : Option String := (afterHash name.toList).map String.ofList

end MotifMatch.PatternId
