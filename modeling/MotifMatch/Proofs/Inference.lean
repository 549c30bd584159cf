import MotifMatch.Evaluation.Report
import MotifMatch.Proofs.Neighbourhoods
import MotifMatch.Proofs.Padding

namespace MotifMatch
open List Arrange PatternSet
namespace Arrange
variable {ι α : Type} {size : Nat}

lemma map_chunks (f : ι → α) (size n : Nat) (xs : List ι) :
 chunks size n (xs.map f) = (chunks size n xs).map (map f) := by
 induction n generalizing xs with
 | zero => rfl
 | succ n ih =>
  cases xs with
  | nil => rfl
  | cons x xs => rw [map_cons,chunks,chunks,← map_cons,← map_drop,ih,← map_take,map_cons]

lemma length_le_of_mem_chunks {n : Nat} {xs c : List α} (hc : c ∈ chunks size n xs) :
 c.length ≤ size := by
 induction n generalizing xs with
 | zero => cases hc
 | succ n ih =>
  cases xs with
  | nil => cases hc
  | cons x xs =>
   obtain rfl | hc := mem_cons.1 hc
   · exact length_take_le ..
   · exact ih hc

lemma exists_answering [DecidableEq ι] (d : α) {P : List ι → List α → Prop} {cs : List (List ι)}
 (hnod : cs.flatten.Nodup)
 (h : ∀ c ∈ cs, ∃ out, P c out ∧ out.length = c.length) : ∃ f, ∀ c ∈ cs, P c (c.map f) := by
 induction cs with
 | nil => exact ⟨fun _ => d,by simp⟩
 | cons c cs ih =>
  obtain ⟨hc,hres,hdis⟩ := nodup_append'.1 (flatten_cons ▸ hnod)
  obtain ⟨f,hf⟩ := ih hres fun c hc => h c (mem_cons_of_mem _ hc)
  obtain ⟨out,hP,hlen⟩ := h c mem_cons_self
  refine ⟨fun i => if i ∈ c then out.getD (c.idxOf i) d else f i,
   forall_mem_cons.2 ⟨?_,fun c' hc' => ?_⟩⟩
  · convert hP
    refine ext_getElem (by rw [length_map,hlen]) fun k hk hk' => ?_
    rw [getElem_map,if_pos (getElem_mem _),hc.idxOf_getElem,getD_eq_getElem?_getD,
     getElem?_eq_getElem hk',Option.getD_some]
  · have hsame : c'.map (fun i => if i ∈ c then out.getD (c.idxOf i) d else f i) = c'.map f :=
     map_congr_left fun i hi => if_neg fun hic => hdis hic (mem_flatten_of_mem hc' hi)
    rw [hsame]
    exact hf c' hc'

end Arrange

namespace Network.Matcher
variable {ι α : Type} [Scalar α] {pairs : List (Graph × Graph)} {out : List α}

/-- One output for each pair. -/
def Answers (m : Matcher α) (pairs : List (Graph × Graph)) : Prop :=
 ∃ out, m.judged pairs = .ok out ∧ out.length = pairs.length

lemma answers_of_fitted {m : Matcher ℝ} (hm : m.Fitted) (hlay : m.model.layers ≠ [])
 (hone : Model.breadth m.model.entry.outputs m.model.dense = 1) {c : List ι} (hne : c ≠ [])
 {pair : ι → Graph × Graph}
 {t : ι → Encoding.Sample ℝ} (henc : ∀ i, m.sample (pair i) = .ok (t i)) :
  m.Answers (c.map pair) := by
 have hmap : (c.map pair).mapM m.sample = .ok (c.map t) := by
  rw [mapM_map]
  exact mapM_ok fun i _ => henc i
 refine ⟨m.model.outlooks
  (c.map t),by rw [judged_outlooks hm hlay (by simpa using hne),hmap]; rfl,?_⟩
 have hout : ∀ k s, (m.model.outlook k s).length = 1 :=
  fun k s => by rw [Model.outlook,length_map,length_range,hone]
 simp [Model.outlooks,length_flatMap,hout,Function.comp_def]

lemma predictAll_whole {m : Matcher α} {bulk : Int} (hbulk : 1 ≤ bulk) (hne : pairs ≠ [])
 (hle : pairs.length ≤ bulk.toNat)
 (h : m.judged pairs = .ok out) : m.predictAll (pairs.map Prod.snd) (pairs.map Prod.fst) bulk =
  .ok out := by
 have hzip : (pairs.map Prod.fst).zip (pairs.map Prod.snd) = pairs := (zip_of_prod rfl rfl).symm
 obtain ⟨n,hn⟩ := Nat.exists_eq_succ_of_ne_zero (mt length_eq_zero_iff.1 hne)
 have hone := Arrange.chunks_append (n := n) hne (.inr ⟨hle,rfl⟩)
 rw [append_nil] at hone
 rw [predictAll_judged m _ _ hbulk,hzip,hn,hone]
 have hnil : Arrange.chunks bulk.toNat n ([] : List (Graph × Graph)) = [] := by cases n <;> rfl
 simp [hnil,h]

end Network.Matcher

lemma PatternSet.notes_of_judge {s : PatternSet} {p : PatternSample} {j : Judged}
 (h : s.judge p = .ok j) : j.notes = metaOf p := by
 rw [judge] at h
 split at h
 · cases h
 dsimp only at h
 split at h <;> split at h
 all_goals
  obtain ⟨q,_,h⟩ := bind_eq_ok h
  cases h
  rfl

namespace Evaluation
open Network

abbrev Place (s : PatternSet) := Fin s.samples.length

variable {α : Type} [Scalar α] {s : PatternSet} {m : Network.Matcher α}
 {js : Place s → PatternSet.Judged}
 {bulk : Int} {c : List (Place s)} {cs : List (List (Place s))} {preds : Place s → α}

def recorded (p : PatternSample) : Notes :=
 ⟨[("source_type",.str p.sourceType),("pattern_type",.str p.patternType),("gidx",.int p.number),
  ("record_scope",.str p.scope),
  ("record_dataset",.str p.dataset),("pattern_id",.int p.instanceId),("pred_w",.float 1.0)]⟩

def placed (js : Place s → Judged) (i : Place s) : Sample :=
 ⟨(js i).source,(js i).query,recorded s.samples[i]⟩

def pairAt (js : Place s → Judged) (i : Place s) : Graph × Graph := ((js i).query,(js i).source)

lemma sampleOf_weighted (hjs : ∀ i : Place s, s.sampleAt i = .ok (js i)) (i : Place s) :
 (do let x ← sampleOf s i; return { x with notes := withWeight x.notes }) = .ok (placed js i) := by
 have hnot := notes_of_judge ((sampleAt_eq (getElem?_eq_getElem i.2)).symm.trans (hjs i))
 rw [sampleOf,hjs,placed]
 simp only [bind,Except.bind,hnot,metaOf]
 rfl

variable (hbulk : 1 ≤ bulk) (hjs : ∀ i : Place s, s.sampleAt i = .ok (js i))
include hbulk hjs

lemma judgeBatch_ok (ps : List α) (ss : List Sample) (hne : c ≠ []) (hle : c.length ≤ bulk.toNat)
 (h : m.judged (c.map (pairAt js)) = .ok (c.map preds)) :
  judgeBatch bulk (⟨ps,ss⟩,.network m) (c.map fun i : Place s => sampleOf s i) =
  .ok (⟨ps ++ c.map preds,ss ++ c.map (placed js)⟩,.network m) := by
 have hsam : ((c.map fun i : Place s => sampleOf s i).mapM fun x => do
   let x ← x
   return { x with notes := withWeight x.notes }) = .ok (c.map (placed js)) := by
  rw [mapM_map]
  exact mapM_ok fun i _ => sampleOf_weighted hjs i
 have hpre := Matcher.predictAll_whole hbulk (by simpa using hne) (by simpa using hle) h
 simp only [map_map] at hpre
 rw [judgeBatch,hsam]
 simp only [bind,Except.bind,Judge.predict,map_map]
 rw [show Sample.source ∘ placed js = Prod.snd ∘ pairAt js from rfl,show Sample.query ∘ placed js =
  Prod.fst ∘ pairAt js from rfl,hpre]
 rfl

lemma foldlM_judgeBatch (ps : List α) (ss : List Sample)
 (hcs : ∀ c ∈ cs, c ≠ [] ∧ c.length ≤ bulk.toNat)
 (h : ∀ c ∈ cs, m.judged (c.map (pairAt js)) = .ok (c.map preds)) :
 (cs.map (map fun i : Place s => sampleOf s i)).foldlM (judgeBatch bulk) (⟨ps,ss⟩,.network m) =
  .ok (⟨ps ++ cs.flatten.map preds,ss ++ cs.flatten.map (placed js)⟩,.network m) := by
 induction cs generalizing ps ss with
 | nil => simp; rfl
 | cons c cs ih =>
  obtain ⟨⟨hne,hle⟩,hcs⟩ := forall_mem_cons.1 hcs
  obtain ⟨hc,h⟩ := forall_mem_cons.1 h
  rw [map_cons,foldlM_cons,judgeBatch_ok hbulk hjs ps ss hne hle hc]
  refine (ih _ _ hcs h).trans ?_
  simp

omit hbulk hjs

lemma existsUnique_chunk {ι : Type} {xs : List ι} {cs : List (List ι)} (hflat : cs.flatten = xs)
 (hnod : xs.Nodup) {i : ι} (hi : i ∈ xs) :
 ∃! c, c ∈ cs ∧ i ∈ c := by
 obtain ⟨c,hc,hic⟩ := mem_flatten.1 (hflat ▸ hi)
 refine ⟨c,⟨hc,hic⟩,fun d ⟨hd,hid⟩ => ?_⟩
 have hdis := (nodup_flatten.1 (hflat ▸ hnod)).2
 have : Std.Symm (List.Disjoint (α := ι)) := ⟨fun _ _ h => h.symm⟩
 by_contra hne
 exact hdis.forall hd hc hne hid hic

def bulksOf (bulk : Int) (s : PatternSet) : List (List (Place s)) :=
 chunks bulk.toNat s.samples.length (finRange s.samples.length)

lemma bulks_samplesOf (hbulk : 1 ≤ bulk) (s : PatternSet) : batches bulk (samplesOf s) =
 .ok ((bulksOf bulk s).map (map fun i : Place s => sampleOf s i)) := by
 rw [batches,if_neg (by omega),if_neg (by omega),bulksOf,← map_chunks,samplesOf,length_map,
  length_range,
  ← map_coe_finRange_eq_range,map_map]
 rfl

theorem predictions_in_place (hbulk : 1 ≤ bulk) (hjs : ∀ i : Place s, s.sampleAt i = .ok (js i)) :
 (∀ i, ∃! c, c ∈ bulksOf bulk s ∧ i ∈ c) ∧
 (∀ {α : Type} [Scalar α] (m : Network.Matcher α),
  (∀ c ∈ bulksOf bulk s, m.Answers (c.map (pairAt js))) →
  ∃ preds, judgeAll bulk (samplesOf s) (.network m) =
   .ok (⟨ofFn preds,ofFn (placed js)⟩,.network m) ∧
   ∀ c ∈ bulksOf bulk s, m.judged (c.map (pairAt js)) = .ok (c.map preds)) ∧
 ∀ m : Network.Matcher ℝ, m.Fitted → m.model.layers ≠ [] →
  Model.breadth m.model.entry.outputs m.model.dense = 1 →
  (∀ i, ∃ t, m.sample (pairAt js i) = .ok t) →
   ∀ c ∈ bulksOf bulk s, m.Answers (c.map (pairAt js)) := by
 have hsiz : 0 < bulk.toNat := by omega
 have hflat : (bulksOf bulk s).flatten = finRange s.samples.length :=
  flatten_chunks hsiz _ _ length_finRange.le
 have hne : ∀ c ∈ bulksOf bulk s, c ≠ [] := fun c => ne_nil_of_mem_chunks hsiz
 refine ⟨fun i => existsUnique_chunk hflat (nodup_finRange _) (mem_finRange i),fun m hans => ?_,
  fun m hm hlay hone henc c hc => ?_⟩
 · obtain ⟨preds,hpred⟩ := exists_answering Scalar.zero
    (hflat ▸ nodup_finRange _) (by simpa [Matcher.Answers] using hans)
   refine ⟨preds,?_,hpred⟩
   rw [judgeAll,bulks_samplesOf hbulk s]
   refine (foldlM_judgeBatch hbulk hjs [] []
    (fun c hc => ⟨hne c hc,length_le_of_mem_chunks hc⟩) hpred).trans ?_
   rw [hflat,nil_append,nil_append,← ofFn_eq_map,← ofFn_eq_map]
 · choose t ht using henc
   exact Matcher.answers_of_fitted hm hlay hone (hne c hc) ht

def dots : PatternSet := { (default : PatternSet) with
 relation := 1, samples :=
  replicate 3 { (default : PatternSample) with source := dot, pattern := dot } }

theorem dots_in_place : ∃ preds : Fin 3 → ℝ, ∃ samples, judgeAll 2 (samplesOf dots) (.network lens) =
 .ok (⟨ofFn preds,samples⟩,.network lens) ∧ lens.judged [(dot,dot),(dot,dot)] =
  .ok [preds 0,preds 1] ∧
  lens.judged [(dot,dot)] = .ok [preds 2] := by
 obtain ⟨t,ht,_⟩ := sample_dots
 have hall : ∀ i : Place dots, dots.sampleAt i = .ok ⟨dot,dot,metaOf default⟩ := fun ⟨i,hi⟩ => by
  obtain rfl | rfl | rfl : i = 0 ∨ i = 1 ∨ i = 2 := by
   simp only [dots,length_replicate] at hi
   omega
  all_goals rfl
 obtain ⟨_,hrun,hans⟩ := @predictions_in_place dots _ 2 (by decide) hall
 obtain ⟨preds,hpre,hall⟩ := hrun lens (hans _ lens_fitted (by simp [lens]) rfl fun _ => ⟨t,ht⟩)
 exact ⟨preds,_,hpre,hall [(0 : Fin 3),(1 : Fin 3)] (by decide +kernel),
  hall [(2 : Fin 3)] (by decide +kernel)⟩

end Evaluation
end MotifMatch
