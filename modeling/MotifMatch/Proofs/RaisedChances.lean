import Mathlib.Tactic.Positivity
import MotifMatch.Proofs.QueryClasses
import MotifMatch.Proofs.Tensors

namespace MotifMatch.Sampling
open List MotifMatch.Graph Nat Draw
open MotifMatch.Graph (ids pairs numbered tossed)
open Scalar (atMost atLeast one_real)
variable {c : ℝ}
section
variable {β : Type} {attempt : ℝ → Draw (Option β)} {raise : ℝ → ℝ} {P : β → Prop}

lemma exists_of_brings {α : Type} {d : Draw α} {P : α → Prop} (h : d.Brings P fun _ => False)
 (st : Streams) :
 ∃ a st', d.run.run st = (.ok a,st') ∧ P a := by
 have hst := h st
 rw [Proceeds] at hst
 cases hr : d.run.run st with
 | mk r st' =>
  rw [hr] at hst
  cases r with
  | ok a => exact ⟨a,st',rfl,hst⟩
  | error e => exact hst.elim

lemma untilDrawn_run {fuel tries : Nat} {st st' : Streams} {o : Option β}
 (h : (attempt c).run.run st = (.ok o,st')) :
 (untilDrawn attempt raise (fuel + 1) tries c).run.run st =
  (o.elim (if 5 < tries + 1 then untilDrawn attempt raise fuel 0 (raise c)
   else untilDrawn attempt raise fuel (tries + 1) c) pure).run.run st' := by
 rw [untilDrawn,ExceptT.run_bind,StateT.run_bind,h]
 cases o <;> rfl

variable (hsure : ∀ c, 1 ≤ c → (attempt c).Brings (fun o => ∃ b, o = some b ∧ P b) fun _ => False)
include hsure

lemma untilDrawn_sure (hc : 1 ≤ c) (tries : Nat) (st : Streams) :
 ∃ b st', P b ∧ ∀ fuel, 0 < fuel → (untilDrawn attempt raise fuel tries c).run.run st =
  (.ok b,st') := by
 obtain ⟨_,st',hrun,b,rfl,hb⟩ := exists_of_brings (hsure c hc) st
 refine ⟨b,st',hb,fun fuel hfuel => ?_⟩
 obtain ⟨fuel,rfl⟩ := Nat.exists_eq_add_of_lt hfuel
 rw [zero_add,untilDrawn_run hrun]
 rfl

-- The induction is on the draws that are left until the chance has been raised often enough to be certain.
lemma untilDrawn_ends (htry : ∀ c, (attempt c).Brings (fun o => ∀ b, o = some b → P b)
 fun _ => False)
 (hra : ∀ c, 1 ≤ raise c ∨ 1.05 * c ≤ raise c) (n raises tries : Nat) (c : ℝ)
 (hn : 6 * raises ≤ n + tries) (htri : tries ≤ 5) (hc : 1 ≤ 1.05 ^ raises * c) (st : Streams) :
 ∃ b st', P b ∧ ∀ fuel, n < fuel → (untilDrawn attempt raise fuel tries c).run.run st =
  (.ok b,st') := by
 induction n generalizing raises tries c st with
 | zero =>
  obtain rfl : raises = 0 := by omega
  exact untilDrawn_sure hsure (by simpa using hc) tries st
 | succ n ih =>
  cases raises with
  | zero =>
   obtain ⟨b,st',hb,hall⟩ := untilDrawn_sure hsure (by simpa using hc) tries st
   exact ⟨b,st',hb,fun fuel hfuel => hall fuel (by omega)⟩
  | succ raises =>
   obtain ⟨o,st',hrun,ho⟩ := exists_of_brings (htry c) st
   have hste : ∀ fuel, n + 1 < fuel → ∃ k, n < k ∧
    (untilDrawn attempt raise fuel tries c).run.run st =
    (o.elim (if 5 < tries + 1 then untilDrawn attempt raise k 0 (raise c)
     else untilDrawn attempt raise k (tries + 1) c) pure).run.run st' := fun fuel hfuel => by
    obtain ⟨k,rfl⟩ : ∃ k, fuel = k + 1 := ⟨fuel - 1,by omega⟩
    exact ⟨k,by omega,untilDrawn_run hrun⟩
   cases o with
   | some b =>
    refine ⟨b,st',ho b rfl,fun fuel hfuel => ?_⟩
    obtain ⟨k,_,heq⟩ := hste fuel hfuel
    exact heq
   | none =>
    by_cases hfull : 5 < tries + 1
    · have hrai : 1 ≤ 1.05 ^ raises * raise c := by
       have hpow : (1 : ℝ) ≤ 1.05 ^ raises := one_le_pow₀ (by norm_num)
       rcases hra c with h | h
       · exact one_le_mul_of_one_le_of_one_le hpow h
       · calc 1 ≤ 1.05 ^ (raises + 1) * c := hc
           _ = 1.05 ^ raises * (1.05 * c) := by ring
           _ ≤ 1.05 ^ raises * raise c := mul_le_mul_of_nonneg_left h (by positivity)
      obtain ⟨b,s,hb,hall⟩ := ih raises 0 (raise c) (by omega) (by omega) hrai st'
      refine ⟨b,s,hb,fun fuel hfuel => ?_⟩
      obtain ⟨k,hk,heq⟩ := hste fuel hfuel
      rw [heq,Option.elim_none,if_pos hfull,hall k hk]
    · obtain ⟨b,s,hb,hall⟩ := ih (raises + 1) (tries + 1) c (by omega) (by omega) hc st'
      refine ⟨b,s,hb,fun fuel hfuel => ?_⟩
      obtain ⟨k,hk,heq⟩ := hste fuel hfuel
      rw [heq,Option.elim_none,if_neg hfull,hall k hk]

end

/-- So many draws lead, six at a time, from a chance of one in `n` to certainty: fifteen raises more
than double a chance. -/
def drawBound (n : Nat) : Nat := 6 * (15 * (log2 n + 1))

lemma one_le_raised {n : Nat} (hn : 0 < n) (hc : 1 / n ≤ c) :
 1 ≤ 1.05 ^ (15 * (log2 n + 1)) * c := by
 have hpos : (0 : ℝ) < n := cast_pos.2 hn
 have hdou : (2 : ℝ) ≤ 1.05 ^ 15 := by norm_num
 have hlog : (n : ℝ) ≤ 2 ^ (log2 n + 1) := by exact_mod_cast (lt_log2_self (n := n)).le
 calc (1 : ℝ) = n * (1 / n) := by field_simp
   _ ≤ 1.05 ^ (15 * (Nat.log2 n + 1)) * c := by
     refine mul_le_mul ?_ hc (by positivity) (by positivity)
     rw [pow_mul]
     exact hlog.trans (pow_le_pow_left₀ (by norm_num) hdou _)

lemma raised_real (c : ℝ) : raised c = 1.05 * c := by
 change c * OfScientific.ofScientific 105 true 2 = _
 rw [mul_comm]

lemma atMost_real (a x : ℝ) : atMost a x = min a x := by
 by_cases h : a < x
 · simp [atMost,h,min_eq_left h.le]
 · simp [atMost,h,min_eq_right (not_lt.1 h)]

lemma atLeast_real (a x : ℝ) : atLeast a x = max a x := by
 by_cases h : x < a
 · simp [atLeast,h,max_eq_left h.le]
 · simp [atLeast,h,max_eq_right (not_lt.1 h)]

variable {g : Graph} {anchor : Option NodeId} {count : Int}

lemma brings_drawUnit {E : Error → Prop} : (Draw.drawUnit : Draw ℝ).Brings (0 ≤ ·) E := by
 intro st
 change (0 : ℝ) ≤ ((st.sampling.unitNumerator.1 : Int) : ℝ) / ((Nat.pow 2 53 : Nat) : Int)
 positivity

lemma brings_drawMask_sure {E : Error → Prop} (hc : 1 ≤ c) (n : Nat) :
 (drawMask c n).Brings (· = replicate n true) E := by
 induction n with
 | zero => exact brings_pure rfl
 | succ n ih =>
  refine brings_drawUnit.bind fun u hu => ih.bind fun mask hmask => Draw.brings_pure ?_
  have hnot : Scalar.lt u (Scalar.zero + (Scalar.one - c)) = false := by
   change decide (u < ((0 : Int) : ℝ) + (((1 : Int) : ℝ) - c)) = false
   push_cast
   exact decide_eq_false (by linarith)
  rw [hmask,placeOf,hnot]
  rfl

lemma masked_all (g : Graph) (n : Nat) (anchor : Option NodeId) :
 masked g (replicate n true) anchor = g.relisted.induced fun _ => true := by
 have hout : ((replicate n true).zipIdx.filterMap fun e =>
  if e.1 then none else some (NodeId.num e.2)) = [] := by
  refine filterMap_eq_nil_iff.2 fun e he => ?_
  rw [eq_of_mem_replicate (fst_mem_of_mem_zipIdx he)]
  rfl
 unfold masked
 cases anchor <;> simp [hout]

lemma drawn_all (hg : g.Sound) (hcon : g.Connected) (hsiz : 2 ≤ g.size)
 (anchor : Option NodeId) : Drawn g anchor (masked g (replicate g.size true) anchor) := by
 refine ⟨⟨_,rfl⟩,?_,?_⟩
 · rw [masked_all]
   simpa [size_eq_length,ids,Table.keys,induced,Table.filter,relisted] using hsiz
 · have hl := hg.relisted
   rw [masked_all,(hl.induced _).isConnected_iff]
   refine hcon.mono (fun n => ?_) fun u v huv => ?_
   · rw [mem_ids_induced]
     exact and_iff_left rfl
   · rw [hasEdge_induced rfl rfl,hasEdge_relisted hg]
     exact huv

lemma brings_drawPart_sure (hg : g.Sound) (hcon : g.Connected) (hsiz : 2 ≤ g.size) (hc : 1 ≤ c) :
 (drawPart g anchor c).Brings (fun o => ∃ part, o = some part ∧ Drawn g anchor part)
  fun _ => False := by
 have hall := drawn_all hg hcon hsiz anchor
 refine (brings_drawMask_sure hc g.size).bind fun mask hmask => ?_
 subst hmask
 dsimp only
 rw [if_neg (not_lt.2 hall.size),hall.connected]
 exact brings_pure ⟨_,rfl,hall⟩

lemma share_real (hsiz : 0 < g.size) (hcou : 1 ≤ count) : ∃ c :
 ℝ, share ℝ g count = .ok c ∧ 1 / g.size ≤ c := by
 have hpos : (0 : ℝ) < g.size := cast_pos.2 hsiz
 have hone : (1 : ℝ) ≤ g.size := one_le_cast.2 hsiz
 refine ⟨_,if_neg hsiz.ne',?_⟩
 rw [atMost_real,one_real,le_min_iff]
 change _ ∧ _ ≤ (count : ℝ) / ((g.size : Int) : ℝ)
 rw [Int.cast_natCast]
 exact ⟨(div_le_one hpos).2 hone,div_le_div_of_nonneg_right (by exact_mod_cast hcou) hpos.le⟩

lemma connectedPart_ends (hg : g.Sound) (hcon : g.Connected)
 (hsiz : 2 ≤ g.size) (hc : 1 / g.size ≤ c) (anchor : Option NodeId) (st : Streams) :
  ∃ part st', Drawn g anchor part ∧
  ∀ patience, drawBound g.size < patience → (connectedPart patience g anchor c).run.run st =
   (.ok part,st') := by
 refine untilDrawn_ends (fun c => brings_drawPart_sure hg hcon hsiz) (brings_drawPart g anchor)
  (fun c => ?_) _
  (15 * (log2 g.size + 1)) 0 c le_rfl (by omega) (one_le_raised (by omega) hc) st
 rw [atMost_real,raised_real,one_real]
 rcases min_choice 1 (1.05 * c) with h | h
 · exact .inl h.ge
 · exact .inr h.ge

section
variable {n : Nat} {directed : Bool}

lemma mem_pairs {p : Nat × Nat} :
 p ∈ pairs n directed ↔ p.1 < n ∧ p.2 < n ∧ if directed then p.1 ≠ p.2 else p.1 < p.2 := by
 cases directed <;> simp [pairs,Prod.ext_iff]

lemma mem_ids_numbered {joined : List (Nat × Nat)} {u : NodeId} :
 u ∈ (numbered n directed joined).ids ↔ ∃ i : Nat, i < n ∧ u = .num i := by
 simp [ids,Table.keys,numbered,eq_comm]

lemma nodup_ids_numbered (n : Nat) (directed : Bool) (joined : List (Nat × Nat)) :
 (numbered n directed joined).ids.Nodup := by
 have hids : (numbered n directed joined).ids = (range n).map fun i : Nat => .num i := by
  simp [ids,Table.keys,numbered]
 rw [hids]
 exact nodup_range.map fun i j h => by simpa using h

lemma meets_complete {i j : Nat} (hi : i < n) (hj : j < n) (hne : i ≠ j) :
 (numbered n directed (pairs n directed)).Meets (.num i) (.num j) := by
 have hedge : ∀ i j : Nat, (i,j) ∈ pairs n directed →
  (numbered n directed (pairs n directed)).hasEdge (.num i) (.num j) := fun i j h =>
  hasEdge_iff.2 ⟨_,mem_map.2 ⟨(i,j),h,rfl⟩,joins_self _⟩
 cases directed with
 | true => exact .inl (hedge i j (mem_pairs.2 ⟨hi,hj,hne⟩))
 | false =>
  rcases lt_or_gt_of_ne hne with h | h
  · exact .inl (hedge i j (mem_pairs.2 ⟨hi,hj,h⟩))
  · exact .inr (hedge j i (mem_pairs.2 ⟨hj,hi,h⟩))

lemma nodup_pairs (n : Nat) (directed : Bool) : (pairs n directed).Nodup := by
 refine nodup_flatMap.2 ⟨fun u _ => (nodup_range.filter _).map fun _ _ h => (Prod.mk.inj h).2,?_⟩
 refine nodup_range.imp fun {u v} huv p hp hq => huv ?_
 obtain ⟨_,_,rfl⟩ := mem_map.1 hp
 obtain ⟨_,_,hq⟩ := mem_map.1 hq
 exact (congrArg Prod.fst hq).symm

def Tossed (n : Nat) (directed : Bool) (g : Graph) : Prop :=
 ∃ joined, joined.Sublist (pairs n directed) ∧ g = numbered n directed joined

lemma Tossed.sound {g : Graph} (h : Tossed n directed g) : g.Sound := by
 obtain ⟨joined,hjoi,rfl⟩ := h
 refine ⟨nodup_ids_numbered n directed joined,fun e he => ?_,fun e he => ?_,fun e he => ?_,
  fun _ => pairwise_map.2 ?_⟩
 · obtain ⟨_,_,rfl⟩ := mem_map.1 he
   exact nodup_nil
 · obtain ⟨p,hp,rfl⟩ := mem_map.1 he
   obtain ⟨h₁,h₂,_⟩ := mem_pairs.1 (hjoi.subset hp)
   exact ⟨mem_ids_numbered.2 ⟨_,h₁,rfl⟩,mem_ids_numbered.2 ⟨_,h₂,rfl⟩⟩
 · obtain ⟨_,_,rfl⟩ := mem_map.1 he
   exact nodup_nil
 · refine ((nodup_pairs n directed).sublist hjoi).imp_of_mem fun {p q} hp hq hne =>
    Bool.eq_false_iff.2 fun hj => ?_
   have hp' := (mem_pairs.1 (hjoi.subset hp)).2.2
   have hq' := (mem_pairs.1 (hjoi.subset hq)).2.2
   rcases joins_iff.1 hj with ⟨h₁,h₂⟩ | ⟨hdir,h₁,h₂⟩
   · exact hne (Prod.ext (by simpa using h₁.symm) (by simpa using h₂.symm))
   · simp only [numbered] at hdir h₁ h₂
     simp only [NodeId.num.injEq] at h₁ h₂
     rw [hdir] at hp' hq'
     simp only [Bool.false_eq_true,if_false] at hp' hq'
     omega

lemma complete_connected (hn : 2 ≤ n) : (numbered n directed (pairs n directed)).Connected := by
 refine ⟨ne_nil_of_mem (mem_ids_numbered.2 ⟨0,by omega,rfl⟩),fun u hu v hv => ?_⟩
 obtain ⟨i,hi,rfl⟩ := mem_ids_numbered.1 hu
 obtain ⟨j,hj,rfl⟩ := mem_ids_numbered.1 hv
 by_cases hne : i = j
 · rw [hne]
 · exact .single (meets_complete hi hj hne)

section
variable {α : Type} [Scalar α] {E : Error → Prop}

lemma brings_tossEach (c : α) (kept ps : List (Nat × Nat)) :
 (tossEach c kept ps).Brings (fun joined => ∃ more, more.Sublist ps ∧
  joined = kept.reverse ++ more) E := by
 induction ps generalizing kept with
 | nil => exact brings_pure ⟨[],.slnil,by simp⟩
 | cons p ps ih =>
  refine Draw.Brings.bind (P := fun _ => True) (fun _ => trivial) fun u _ =>
   (ih _).imp (fun joined h => ?_) fun _ h => h
  obtain ⟨more,hmore,rfl⟩ := h
  split
  · exact ⟨p :: more,hmore.cons_cons p,by simp⟩
  · exact ⟨more,hmore.cons p,rfl⟩

lemma brings_tossed (n : Nat) (directed : Bool) (c : α) :
 (tossed n c directed).Brings (fun g => Tossed n directed g ∧
 (Scalar.le c Scalar.zero = false → Scalar.le Scalar.one c →
  g = numbered n directed (pairs n directed))) E := by
 unfold tossed
 split
 · next h => exact brings_pure ⟨⟨[],nil_sublist _,rfl⟩,fun hc => absurd h (by rw [hc]; decide)⟩
 · split
   · exact brings_pure ⟨⟨_,.refl _,rfl⟩,fun _ _ => rfl⟩
   · next h =>
     refine (brings_tossEach c [] _).bind fun joined ⟨more,hmore,hjoi⟩ =>
      brings_pure ⟨⟨more,hmore,by rw [hjoi]; rfl⟩,?_⟩
     exact fun _ hc => absurd hc h

lemma brings_tossConnected (hn : 2 ≤ n) (c : α) : (tossConnected n directed c).Brings (fun o =>
 (∀ g, o = some g → Tossed n directed g ∧ g.edges ≠ [] ∧ g.Connected) ∧
  (Scalar.le c Scalar.zero = false → Scalar.le Scalar.one c → ∃ g, o = some g)) fun _ => False := by
 refine (brings_tossed n directed c).bind fun g ⟨htos,hsure⟩ => ?_
 have hids : g.ids ≠ [] := by
  obtain ⟨joined,_,rfl⟩ := htos
  exact ne_nil_of_mem (mem_ids_numbered.2 ⟨0,by omega,rfl⟩)
 obtain ⟨b,hb⟩ := exists_isConnected hids
 rw [hb]
 split
 · next hemp =>
   refine brings_pure ⟨fun _ h => (by cases h),fun hzero hone => ?_⟩
   rw [hsure hzero hone] at hemp
   have hmem : (0,1) ∈ pairs n directed := mem_pairs.2 ⟨by omega,by omega,by cases directed <;> simp⟩
   exact absurd (map_eq_nil_iff.1 (isEmpty_iff.1 hemp)) (ne_nil_of_mem hmem)
 · next hedg =>
   refine brings_pure ⟨fun g' hg => ?_,fun hzero hone => ?_⟩
   · cases b with
     | false => cases hg
     | true =>
      cases hg
      exact ⟨htos,fun h => hedg (isEmpty_iff.2 h),htos.sound.isConnected_iff.1 hb⟩
   · have hcom := htos.sound.isConnected_iff.2 (hsure hzero hone ▸ complete_connected hn)
     obtain rfl := Except.ok.inj (hb.symm.trans hcom)
     exact ⟨_,rfl⟩

end

lemma one_le_clampDegree (hn : 2 ≤ n) (degree : ℝ) :
 1 / (n : ℝ) ≤ clampDegree n degree / Scalar.ofNat (n - 1) := by
 have hpred : (1 : ℝ) ≤ ((n - 1 : Nat)) := Nat.one_le_cast.2 (by omega)
 have hle : ((n - 1 : Nat) : ℝ) ≤ n := Nat.cast_le.2 (by omega)
 rw [clampDegree,atMost_real,atLeast_real,one_real]
 change _ ≤ min (Scalar.ofNat (n - 1)) (max 1 degree) / (Scalar.ofNat (n - 1))
 rw [Scalar.ofNat_real]
 exact div_le_div₀ (le_min (by linarith) (le_max_of_le_left zero_le_one))
  (le_min hpred (le_max_left _ _)) (by linarith) hle

lemma connectedOn_ends (hn : 2 ≤ n) (degree : ℝ) (st : Streams) :
 ∃ g st', (g.edges ≠ [] ∧ g.Connected) ∧
 ∀ patience, drawBound n < patience → (connectedOn patience n directed degree).run.run st =
  (.ok g,st') := by
 refine untilDrawn_ends (fun c hc => ?_)
  (fun c => (brings_tossConnected hn c).imp (fun _ h g hg => (h.1 g hg).2) fun _ h => h)
  (fun c => .inr (raised_real c).ge) _ (15 * (log2 n + 1)) 0 _ le_rfl (by omega)
  (one_le_raised (by omega) (one_le_clampDegree hn degree)) st
 refine (brings_tossConnected hn c).imp (fun o ⟨hgood,hsome⟩ => ?_) fun _ h => h
 have hpos : 0 < c := by linarith
 obtain ⟨g,rfl⟩ := hsome (by simp [Scalar.le,hpos.le,hpos.ne'])
  (by simpa [Scalar.le] using hc.lt_or_eq)
 exact ⟨g,rfl,(hgood g rfl).2⟩

theorem raised_draws_end {g : Graph} (hg : g.Sound) (hm : g.multi = false) (hcon : g.Connected)
 (hsiz : 2 ≤ g.size) :
 (∀ (anchor : Option NodeId) (count : Int), 1 ≤ count → ∃ chance : ℝ, share ℝ g count = .ok chance ∧
  ∀ st, ∃ part st', part.Connected ∧ 2 ≤ part.size ∧ ∀ patience, drawBound g.size < patience →
   (connectedPart patience g anchor chance).run.run st = (.ok part,st')) ∧
 ∀ (n : Nat) (directed : Bool) (degree : ℝ), 2 ≤ n → ∀ st, ∃ h st', h.edges ≠ [] ∧ h.Connected ∧
  ∀ patience, drawBound n < patience → (connectedOn patience n directed degree).run.run st =
   (.ok h,st') := by
 constructor
 · intro anchor count hcou
   obtain ⟨chance,hsha,hcha⟩ := share_real (by omega : 0 < g.size) hcou
   refine ⟨chance,hsha,fun st => ?_⟩
   obtain ⟨part,st',hdraw,hruns⟩ := connectedPart_ends hg hcon hsiz hcha anchor st
   have hsou := (hdraw.within hg hm).1.sound
   exact ⟨part,st',hsou.isConnected_iff.1 hdraw.connected,hdraw.size,hruns⟩
 · intro n directed degree hn st
   obtain ⟨h,st',⟨hedge,hlin⟩,hruns⟩ := connectedOn_ends hn degree st
   exact ⟨h,st',hedge,hlin,hruns⟩

lemma triangle_connected : triangle.Connected :=
 triangle_labelled.sound.isConnected_iff.1 (by decide)

theorem triangle_draws_end : ∃ chance part st', share ℝ triangle 1 = .ok chance ∧ part.Connected ∧
 2 ≤ part.size ∧
 (connectedPart 200 triangle none chance).run.run ⟨.seed 7,.seed 7⟩ = (.ok part,st') := by
 obtain ⟨hpart,_⟩ := raised_draws_end triangle_labelled.sound rfl triangle_connected (by decide)
 obtain ⟨chance,hsha,hends⟩ := hpart none 1 (by decide)
 obtain ⟨part,st',hlin,hsiz,hruns⟩ := hends ⟨.seed 7,.seed 7⟩
 exact ⟨chance,part,st',hsha,hlin,hsiz,hruns 200 (by decide)⟩

end
end MotifMatch.Sampling
