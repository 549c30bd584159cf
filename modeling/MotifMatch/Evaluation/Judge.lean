import MotifMatch.Evaluation.Groups
import MotifMatch.Network.Model
import MotifMatch.Normal.Basic

namespace MotifMatch.Evaluation
variable {α : Type} [Scalar α]

inductive Judge (α : Type) where
 | network (m : Network.Matcher α)
 | prepared (left : List α)
 deriving Inhabited

namespace Judge

def predict (j : Judge α) (sources queries : List Graph) (bulk : Int) :
 Except Error (List α × Judge α) :=
 match j with
 | .network m => do return (← m.predictAll sources queries bulk,j)
 | .prepared left =>
  let count := min sources.length queries.length
  .ok (left.take count,.prepared (left.drop count))

end Judge

structure Sample where
 source : Graph
 query : Graph
 notes : Notes

structure Judgement (α : Type) where
 preds : List α
 samples : List Sample
 deriving Inhabited

def withWeight (m : Notes) : Notes := if m.contains "pred_w" then m else m.put "pred_w" (.float 1.0)

def judgeBatch (bulk : Int) (s : Judgement α × Judge α) (batch : List (Except Error Sample)) :
 Except Error (Judgement α × Judge α) := do
 let samples ← batch.mapM fun x => do
  let x ← x
  return { x with notes := withWeight x.notes }
 let (preds,j) ← s.2.predict (samples.map Sample.source) (samples.map Sample.query) bulk
 return (⟨s.1.preds ++ preds,s.1.samples ++ samples⟩,j)

def judgeAll (size : Int) (samples : List (Except Error Sample)) (j : Judge α) :
 Except Error (Judgement α × Judge α) := do
 (← Arrange.batches size samples).foldlM (judgeBatch size) (⟨[],[]⟩,j)

variable {α : Type} [Scalar α]

structure Example (α : Type) where
 source : Graph
 query : Graph
 pred : α
 place : Option Nat

structure SizeLimits where
 least : Int := -1
 most : Int := -1

def SizeLimits.admits (l : SizeLimits) (g : Graph) : Bool :=
 (l.most ≤ 0 || (g.size : Int) ≤ l.most) && (l.least ≤ 0 || l.least < (g.size : Int))

def SizeLimits.bounded (l : SizeLimits) : Bool := 0 < l.most || 0 < l.least

def matchShare (source query : Graph) : Except Error (Option α) := do
 let marks := (← Normal.combine source query).nodeMarks
 let hit := (marks.filter fun m => m == 1).length
 let missed := (marks.filter fun m => m == -1).length
 if hit + missed = 0 || hit < missed then return none
 return some (Scalar.ofNat hit / Scalar.ofNat (hit + missed))

def isOwn (kind : String) (m : Notes) : Except Error Bool := do
 if (← note m "source_type") == .str kind then return (← note m "pattern_type") == .str kind else return false

def candidate (limits : SizeLimits) (sources queries : List Graph) (preds : List α) (kind : String) (e : Notes × Nat) :
 Except Error (Option (Example α × α)) := do
 if !(← isOwn kind e.1) then return none
 let source ← pick sources e.2
 if limits.bounded && !limits.admits source then return none
 let query ← pick queries e.2
 if limits.bounded && !limits.admits query then return none
 match ← matchShare source query with
 | none => return none
 | some share =>
  let pred ← pick preds e.2
  return some (⟨source,query,pred,some e.2⟩,pred * share)

def bestOf {β : Type} (xs : List (β × α)) : Option β :=
 ((xs.mergeSort fun a b => ascending a.2 b.2).getLast?).map Prod.fst

abbrev Examples (α : Type) := Table (String × String) (Example α)

def ownExamples (limits : SizeLimits) (kinds : List String) (sources queries : List Graph) (preds : List α)
 (notes : List Notes) : Except Error (Examples α) :=
 kinds.foldlM (fun (t : Examples α) kind => do
  let found ← notes.zipIdx.mapM (candidate limits sources queries preds kind)
  match bestOf found.reduceOption with
  | none => return t
  | some x => return t.put (kind,kind) x) .empty

def exampleOf (t : Examples α) (kind : String) : Except Error (Example α) :=
 match t.get? (kind,kind) with
 | some x => .ok x
 | none => .error .missingKey

def crossPairs (kinds : List String) (own : Examples α) :
 Except Error (List ((String × String) × Graph × Graph)) := do
 let pairs := kinds.flatMap fun s => (kinds.filter fun q => q != s).map fun q => (s,q)
 pairs.mapM fun p => do
  let source ← exampleOf own p.1
  let query ← exampleOf own p.2
  return (p,source.source,query.query)

def examples (limits : SizeLimits) (kinds : List String) (sources queries : List Graph)
 (preds : List α)
 (notes : List Notes) (j : Judge α) : Except Error (Examples α × Judge α) := do
 let own ← ownExamples limits kinds sources queries preds notes
 let pairs ← crossPairs kinds own
 let (found,j) ← j.predict (pairs.map fun e => e.2.1) (pairs.map fun e => e.2.2) 128
 let all ← pairs.zipIdx.foldlM (fun (t : Examples α) e => do
  return t.put e.1.1 ⟨e.1.2.1,e.1.2.2,← pick found e.2,none⟩) own
 return (all,j)

end MotifMatch.Evaluation
