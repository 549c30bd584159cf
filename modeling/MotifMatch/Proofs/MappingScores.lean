import MotifMatch.Evaluation.Report
import MotifMatch.Proofs.Tables
import MotifMatch.Proofs.Tensors

namespace MotifMatch.Evaluation
open List Scalar
variable {κ β : Type} [DecidableEq β] {t : List (κ × β)} {g : κ → List β} {i j : Nat}

lemma sum_real (xs : List ℝ) : Statistics.sum xs = xs.sum := by
 rw [Statistics.sum,zero_real,sum_eq_foldl]

def Hits (g : κ → List β) (i : Nat) (e : κ × β) : Prop := e.2 ∈ (g e.1).take i

instance : DecidablePred (Hits g i) := fun _ => List.instDecidableMemOfLawfulBEq _ _

def hitCount (t : List (κ × β)) (g : κ → List β) (i : Nat) : Nat := t.countP fun e => Hits g i e

noncomputable def reciprocal (g : κ → List β) (e : κ × β) : ℝ :=
 if e.2 ∈ g e.1 then 1 / ((g e.1).idxOf e.2 + 1) else 0

lemma reciprocal_nonneg (e : κ × β) : 0 ≤ reciprocal g e := by
 unfold reciprocal
 split <;> positivity

lemma hits_iff {e : κ × β} : Hits g i e ↔ (g e.1).idxOf e.2 < i ∧ e.2 ∈ g e.1 := by
 by_cases h : e.2 ∈ g e.1
 · simp only [Hits,mem_take_iff_idxOf_lt h,h,and_true]
 · simp only [h,and_false,iff_false]
   exact fun hmem => h (mem_of_mem_take hmem)

lemma one_le_of_hits {e : κ × β} (h : Hits g i e) : 1 ≤ i * reciprocal g e := by
 obtain ⟨hlt,hmem⟩ := hits_iff.1 h
 rw [reciprocal,if_pos hmem,mul_one_div,one_le_div (by positivity)]
 exact_mod_cast hlt

lemma two_mul_reciprocal_le (e : κ × β) :
 2 * reciprocal g e ≤ (if Hits g 1 e then 1 else 0) + 1 := by
 rw [reciprocal]
 split
 · next hmem =>
   rw [mul_one_div,div_le_iff₀ (by positivity)]
   split
   · nlinarith [Nat.cast_nonneg (α := ℝ) ((g e.1).idxOf e.2)]
   · next hnot =>
     have hpos : 1 ≤ (g e.1).idxOf e.2 := not_lt.1 fun hlt => hnot (hits_iff.2 ⟨hlt,hmem⟩)
     have : (1 : ℝ) ≤ (g e.1).idxOf e.2 := by exact_mod_cast hpos
     linarith
 · split <;> norm_num

lemma hitCount_cons (e : κ × β) : (hitCount (e :: t) g i : ℝ) = hitCount t g i +
 if Hits g i e then 1 else 0 := by
 rw [hitCount,countP_cons,hitCount]
 push_cast
 simp

lemma hitCount_le_mul (t : List (κ × β)) :
 (hitCount t g i : ℝ) ≤ i * (t.map (reciprocal g)).sum := by
 induction t with
 | nil => simp [hitCount]
 | cons e t ih =>
  rw [hitCount_cons,map_cons,sum_cons,mul_add,add_comm]
  refine add_le_add ?_ ih
  split
  · next h => exact one_le_of_hits h
  · exact mul_nonneg (Nat.cast_nonneg i) (reciprocal_nonneg e)

lemma two_mul_sum_le (t : List (κ × β)) :
 2 * (t.map (reciprocal g)).sum ≤ hitCount t g 1 + t.length := by
 induction t with
 | nil => simp [hitCount]
 | cons e t ih =>
  rw [hitCount_cons,map_cons,sum_cons,length_cons]
  push_cast
  linarith [two_mul_reciprocal_le (g := g) e]

lemma hitCount_mono (h : i ≤ j) : hitCount t g i ≤ hitCount t g j := by
 refine countP_mono_left fun e _ he => ?_
 rw [decide_eq_true_iff] at he ⊢
 exact (take_subset_take_left _ h) he

noncomputable def row (g : κ → List β) (e : κ × β) : List ℝ := rankScores e.2 (g e.1)

lemma getD_rankScores (e : κ × β) (hi : i < 10) :
 (row g e).getD i zero = if Hits g (i + 1) e then 1 else 0 := by
 rw [row,rankScores,getD_eq_getElem?_getD,getElem?_append_left (by simpa using hi)]
 simp [Hits,hi]

lemma getD_rankScores_last (e : κ × β) : (row g e).getD 10 zero = reciprocal g e := by
 rw [row,rankScores,getD_eq_getElem?_getD,getElem?_append_right (by simp)]
 simp only [length_map,length_range,Nat.sub_self,getElem?_cons_zero,Option.getD_some,reciprocal,
  contains_iff_mem,one_real,zero_real,
  ofNat_real]
 push_cast
 rfl

lemma sum_hits (t : List (κ × β)) : (t.map fun e => if Hits g i e then (1 : ℝ) else 0).sum =
 hitCount t g i := by
 induction t with
 | nil => simp [hitCount]
 | cons e t ih => rw [hitCount_cons,map_cons,sum_cons,ih,add_comm]

noncomputable def hitRate (t : List (κ × β)) (g : κ → List β) (i : Nat) : ℝ :=
 hitCount t g i / t.length

noncomputable def meanReciprocal (t : List (κ × β)) (g : κ → List β) : ℝ :=
 (t.map (reciprocal g)).sum / t.length

lemma mappingScores_eq {f : κ → Except Error (List β)} (hne : t ≠ [])
 (h : ∀ e ∈ t, f e.1 = .ok (g e.1)) :
 mappingScores t f = .ok ((range 10).map (fun i => hitRate t g (i + 1)) ++
  [meanReciprocal t g]) := by
 have hrows : t.mapM (fun e => do return rankScores e.2 (← f e.1)) =
  .ok (t.map (row g)) := mapM_ok fun e he => by rw [h e he]; rfl
 have hmean : ∀ i, Statistics.mean ((t.map (row g)).map fun r => r.getD i zero) =
  (t.map fun e => (row g e).getD i zero).sum / t.length := by
  intro i
  rw [Statistics.mean,sum_real,map_map,length_map,ofNat_real]
  rfl
 rw [mappingScores,hrows]
 have hemp : (t.map (row g)).isEmpty = false := by simpa using hne
 simp only [bind,Except.bind,hemp,meanRows,hmean]
 rw [range_succ,map_append]
 refine congrArg Except.ok (congrArg₂ _ (map_congr_left fun i hi => ?_) ?_)
 · rw [hitRate,← sum_hits]
   exact congrArg (fun xs : List ℝ => xs.sum / _)
    (map_congr_left fun e _ => getD_rankScores e (mem_range.1 hi))
 · simp only [map_cons,map_nil,getD_rankScores_last,meanReciprocal]

theorem mappingScores_bounds {f : κ → Except Error (List β)} (hne : t ≠ [])
 (h : ∀ e ∈ t, f e.1 = .ok (g e.1)) : ∃ (acc : Nat → ℝ) (mrr : ℝ),
 mappingScores t f = .ok ((range 10).map (fun i => acc (i + 1)) ++ [mrr]) ∧
 (∀ i, acc i = (t.countP fun e => e.2 ∈ (g e.1).take i : Nat) / (t.length : ℝ)) ∧
 (∀ i j, i ≤ j → acc i ≤ acc j) ∧ (∀ i, 1 ≤ i → acc i / i ≤ mrr) ∧
  mrr ≤ acc 1 + (1 - acc 1) / 2 := by
 have hlen : (0 : ℝ) < t.length := by exact_mod_cast length_pos_iff.2 hne
 refine ⟨_,_,mappingScores_eq hne h,fun i => rfl,fun i j hij => ?_,fun i hi => ?_,?_⟩
 · exact div_le_div_of_nonneg_right (by exact_mod_cast hitCount_mono hij) hlen.le
 · rw [hitRate,meanReciprocal,div_right_comm]
   refine div_le_div_of_nonneg_right ?_ hlen.le
   rw [div_le_iff₀' (by exact_mod_cast hi)]
   exact hitCount_le_mul t
 · have htwo := two_mul_sum_le (g := g) t
   have hone : (t.length : ℝ) / t.length = 1 := div_self hlen.ne'
   calc meanReciprocal t g
       ≤ (hitCount t g 1 + t.length) / 2 / t.length := by
         exact div_le_div_of_nonneg_right (by linarith) hlen.le
     _ = hitRate t g 1 + (1 - hitRate t g 1) / 2 := by
         rw [hitRate,div_right_comm,add_div,hone]
         ring

theorem second_place_scored : ∃ (acc : Nat → ℝ) (mrr : ℝ), mappingScores [(0,7),(1,8)]
 (fun k => .ok [k + 6,k + 7,9]) =
 .ok ((range 10).map (fun i => acc (i + 1)) ++ [mrr]) ∧ acc 1 = 0 ∧ acc 2 = 1 ∧ 1 / 2 ≤ mrr ∧
  mrr ≤ 1 / 2 := by
 obtain ⟨acc,mrr,hsco,hacc,-,hle,hge⟩ :=
  mappingScores_bounds (t := [(0,7),(1,8)]) (f := fun k => .ok [k + 6,k + 7,9]) (by simp)
  (g := fun k => [k + 6,k + 7,9]) fun _ _ => rfl
 have hone : acc 1 = 0 := by simp [hacc]
 have htwo : acc 2 = 1 := by simp [hacc]
 have hlow := hle 2 (by omega)
 rw [htwo] at hlow
 rw [hone] at hge
 exact ⟨acc,mrr,hsco,hone,htwo,by simpa using hlow,by simpa using hge⟩

end MotifMatch.Evaluation
