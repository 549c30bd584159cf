import MotifMatch.Value.Text

namespace MotifMatch

structure Settings where
 table : Table String Value
 deriving Inhabited

namespace Settings

def get (s : Settings) (name : String) : Except Error Value :=
 match s.table.get? name with
 | some v => .ok v
 | none => .error .missingAttribute

def set (s : Settings) (name : String) (v : Value) : Settings := ⟨s.table.put name v⟩

def setAll (s : Settings) (kvs : List (String × Value)) : Settings := ⟨s.table.putAll kvs⟩

def sorted (s : Settings) : List (String × Value) :=
 s.table.entries.mergeSort fun a b => decide (a.1 ≤ b.1)

theorem get_set (s : Settings) (name : String) (v : Value) : (s.set name v).get name = .ok v := by
 simp [get,set,Table.get?_put_self]

end Settings
end MotifMatch

namespace MotifMatch.CommandLine
open Text String

inductive Kind where
 | text
 | whole
 | real
 | choice (allowed : List String)
 | switch
 deriving DecidableEq, Repr

structure Choice where
 name : String
 kind : Kind
 default : Value

def Choice.spelling (c : Choice) : String := "--" ++ c.name

inductive Word where
 | operand (s : String)
 | help (attached : Option String)
 | option (c : Choice) (attached : Option String)
 | unknown (s : String)

def isNegativeNumber (s : String) : Bool :=
 match s.toList with
 | '-' :: cs =>
  let whole := cs.takeWhile fun c => (digit? c).isSome
  match cs.dropWhile fun c => (digit? c).isSome with
  | [] => !whole.isEmpty
  | '.' :: frac => !frac.isEmpty && frac.all fun c => (digit? c).isSome
  | _ => false
 | _ => false

def cut (s : String) : String × Option String :=
 let cs := s.toList
 match cs.dropWhile (· ≠ '=') with
 | [] => (s,none)
 | _ :: rest => (ofList (cs.takeWhile (· ≠ '=')),some (ofList rest))

def spellings (choices : List Choice) : List (String × Option Choice) :=
 [("-h",none),("--help",none)] ++ choices.map fun c => (c.spelling,some c)

def named (c : Option Choice) (attached : Option String) : Word :=
 match c with
 | some c => .option c attached
 | none => .help attached

def readWord (choices : List Choice) (s : String) : Except Error Word :=
 let known := spellings choices
 let exact (t : String) := known.find? fun k => k.1 == t
 if !s.startsWith "-" then .ok (.operand s)
 else match exact s with
  | some k => .ok (named k.2 none)
  | none =>
   if s = "-" then .ok (.operand s)
   else
    let (front,attached) := cut s
    match (if attached.isSome then exact front else none) with
    | some k => .ok (named k.2 attached)
    | none =>
     let fitting :=
      if s.startsWith "--" then
       (known.filter fun k => k.1.startsWith front).map fun k => named k.2 attached
      else if s.startsWith "-h" then [.help (some (ofList (s.toList.drop 2)))]
      else []
     match fitting with
     | [w] => .ok w
     | _ :: _ => .error (.usage 2)
     | [] =>
      if isNegativeNumber s || s.contains ' ' then .ok (.operand s) else .ok (.unknown s)

def readWords (choices : List Choice) : List String → Except Error (List Word)
 | [] => .ok []
 | "--" :: rest => .ok (.unknown "--" :: rest.map .operand)
 | s :: rest => do return (← readWord choices s) :: (← readWords choices rest)

def convert : Kind → String → Option Value
 | .text, s => some (.str s)
 | .whole, s => (int? s).map .int
 | .real, s => (float? s).map .float
 | .choice allowed, s => if allowed.contains s then some (.str s) else none
 | .switch, _ => none

def assign (t : Table String Value) (c : Choice) (s : String) : Except Error (Table String Value) :=
 match convert c.kind s with
 | some v => .ok (t.put c.name v)
 | none => .error (.usage 2)

def follow : List Word → Table String Value → Bool → Except Error (Table String Value)
 | [], t, extra => if extra then .error (.usage 2) else .ok t
 | .operand _ :: rest, t, _ => follow rest t true
 | .unknown _ :: rest, t, _ => follow rest t true
 | .help none :: _, _, _ => .error (.usage 0)
 | .help (some _) :: _, _, _ => .error (.usage 2)
 | .option c (some s) :: rest, t, extra => do follow rest (← assign t c s) extra
 | .option c none :: rest, t, extra =>
  if c.kind = .switch then follow rest (t.put c.name (.bool true)) extra
  else match rest with
   | .operand s :: rest => do follow rest (← assign t c s) extra
   | _ => .error (.usage 2)

def parse (choices : List Choice) (words : List String) : Except Error Settings := do
 let defaults := Table.ofList (choices.map fun c => (c.name,c.default))
 return ⟨← follow (← readWords choices words) defaults false⟩

end MotifMatch.CommandLine

namespace MotifMatch.Settings
open CommandLine in
def options : List Choice := [
 ⟨"neo4j_protocol",.text,.str "bolt://"⟩,
 ⟨"neo4j_host",.text,.str "localhost:"⟩,
 ⟨"neo4j_port",.text,.str "7687"⟩,
 ⟨"neo4j_user",.text,.str "neo4j"⟩,
 ⟨"neo4j_pw",.text,.str "password"⟩,
 ⟨"model",.text,.str "CPG_augm_large"⟩,
 ⟨"pattern_dataset",.text,.str "dpdf"⟩,
 ⟨"seed",.whole,.int 42⟩,
 ⟨"lr",.real,.float 0.0001⟩,
 ⟨"ngpu",.whole,.int 0⟩,
 ⟨"num_workers",.whole,.int 4⟩,
 ⟨"dataset",.text,.str "CPG"⟩,
 ⟨"directed",.switch,.bool false⟩,
 ⟨"iso",.switch,.bool false⟩,
 ⟨"anchored",.switch,.bool true⟩,
 ⟨"device",.text,.str "cpu"⟩,
 ⟨"epoch",.whole,.int 30⟩,
 ⟨"batch_size",.whole,.int 32⟩,
 ⟨"curriculum_training_steps",.whole,.int (-1)⟩,
 ⟨"max_test_data",.whole,.int (-1)⟩,
 ⟨"max_train_data",.whole,.int (-1)⟩,
 ⟨"tactic",(.choice ["static","cont","jump"]),.str "static"⟩,
 ⟨"branch",(.choice ["both","left","right"]),.str "both"⟩,
 ⟨"nhop",.whole,.int 1⟩,
 ⟨"nhead",.whole,.int 1⟩,
 ⟨"embedding_dim",.whole,.int 20⟩,
 ⟨"dropout_rate",.real,.float 0.0⟩,
 ⟨"al_scale",.real,.float 1.0⟩,
 ⟨"n_graph_layer",.whole,.int 4⟩,
 ⟨"d_graph_layer",.whole,.int 140⟩,
 ⟨"n_FC_layer",.whole,.int 4⟩,
 ⟨"d_FC_layer",.whole,.int 128⟩,
 ⟨"confidence",.real,.float 0.5⟩,
 ⟨"mapping_threshold",.real,.float 1.0e-5⟩,
 ⟨"test_data",.switch,.bool false⟩,
 ⟨"source",.whole,.int 0⟩,
 ⟨"query",.whole,.int 0⟩,
 ⟨"data_processed_dir",.text,.str "data/data_processed"⟩,
 ⟨"ckpt_dir",.text,.str "training/save/"⟩,
 ⟨"log_dir",.text,.str "training/runs/"⟩,
 ⟨"result_dir",.text,.str "evaluation/results/"⟩,
 ⟨"config_dir",.text,.str "data/configs/"⟩,
 ⟨"dataset_dir",.text,.str "data/datasets/"⟩,
 ⟨"raw_dataset_dir",.text,.str "data/raw_datasets/"⟩,
 ⟨"ckpt_path",.text,.none⟩,
 ⟨"train_keys",.text,.str "train_keys.pkl"⟩,
 ⟨"test_keys",.text,.str "test_keys.pkl"⟩,
 ⟨"tag",.text,.str ""⟩,
 ⟨"import_dir",.text,.str "datasets/"⟩,
 ⟨"name",.text,.none⟩,
 ⟨"inference",.switch,.bool true⟩,
 ⟨"num_subgraphs",.whole,.int 2000⟩,
 ⟨"real",.switch,.bool false⟩,
 ⟨"testonly",.switch,.bool false⟩,
 ⟨"max_subgraph",.whole,.int (-1)⟩,
 ⟨"import_format",.text,.str ".gml"⟩,
 ⟨"import_prefix",.text,.none⟩,
 ⟨"import_subgraph_radius",.whole,.int 5⟩,
 ⟨"import_subgraph_max",.whole,.int 42⟩,
 ⟨"import_subgraph_min",.whole,.int 7⟩,
 ⟨"split_data",.switch,.bool false⟩,
 ⟨"induced",.switch,.bool true⟩]

def ofCommandLine (words : List String) : Except Error Settings := CommandLine.parse options words

def defaults : Settings := ⟨Table.ofList (options.map fun c => (c.name,c.default))⟩

end MotifMatch.Settings
