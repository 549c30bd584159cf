import Mathlib.Algebra.Order.Ring.Nat
import Mathlib.Data.List.Nodup
import MotifMatch.Corpus.Generate
import MotifMatch.Proofs.Sessions

namespace MotifMatch
open List Run Nat Decimal Relation
namespace Decimal
variable {n d k : Nat}

lemma roundDiv_le (h : n ≤ k * d) : roundDiv n d ≤ k := by
 rcases Nat.eq_zero_or_pos d with rfl | hd
 · obtain rfl : n = 0 := by omega
   simp [roundDiv]
 · have hdiv : n / d ≤ k := Nat.div_le_of_le_mul (mul_comm k d ▸ h)
   have hspl := div_add_mod n d
   rw [roundDiv]
   split
   · -- a remainder is left, so the quotient itself stays below
     rcases lt_or_eq_of_le hdiv with hlt | heq
     · exact hlt
     · rw [heq,mul_comm d k] at hspl
       omega
   · exact hdiv

lemma le_roundDiv (hd : 0 < d) (h : k * d ≤ n) : k ≤ roundDiv n d := by
 have hdiv : k ≤ n / d := (le_div_iff_mul_le hd).2 h
 rw [roundDiv]
 split <;> omega

lemma roundDiv_le_succ (n d : Nat) : roundDiv n d ≤ n / d + 1 := by
 rw [roundDiv]
 split <;> omega

lemma two_pow_le_of_le_log2 {q e : Nat} (he : 53 ≤ e) (h : e ≤ q.log2) : 2 ^ e ≤ q := by
 refine (le_log2 ?_).1 h
 rintro rfl
 rw [log2_zero] at h
 omega

lemma div_le_roundedQuotient (hd : 0 < d) (h : n ≤ 2 ^ 53 * d) : n / d ≤ roundedQuotient n d := by
 simp only [roundedQuotient,pow_eq]
 split
 · next he =>
   have hge := two_pow_le_of_le_log2 (le_refl 53) he
   have hle : n / d ≤ 2 ^ 53 := Nat.div_le_of_le_mul (mul_comm _ d ▸ h)
   have heq : n / d = 2 ^ 53 := le_antisymm hle hge
   have hn : 2 ^ 53 * d ≤ n := heq ▸ div_mul_le_self n d
   rw [heq,log2_two_pow]
   have := le_roundDiv (k := 2 ^ 52) (d := d * 2 ^ (53 - 52)) (n := n) (by omega) (by omega)
   omega
 · rw [Nat.le_div_iff_mul_le (Nat.two_pow_pos _)]
   refine le_roundDiv hd ?_
   calc n / d * 2 ^ _ * d = n / d * d * 2 ^ _ := by rw [mul_right_comm]
     _ ≤ n * 2 ^ _ := mul_le_mul_right _ (div_mul_le_self n d)

lemma roundedQuotient_one (h : n ≤ 2 ^ 53) : roundedQuotient n 1 = n := by
 simp only [roundedQuotient,pow_eq]
 rw [Nat.div_one]
 split
 · next he =>
   obtain rfl : n = 2 ^ 53 := le_antisymm h (two_pow_le_of_le_log2 (le_refl 53) he)
   rw [log2_two_pow]
   decide
 · rw [roundDiv_one,Nat.mul_div_cancel _ (Nat.two_pow_pos _)]

lemma roundedQuotient_zero (d : Nat) : roundedQuotient 0 d = 0 := by
 simp [roundedQuotient,roundDiv]

lemma roundDiv_mul_le (n d k : Nat) : roundDiv n (d * k) * k ≤ n / d + k :=
 calc roundDiv n (d * k) * k ≤ (n / (d * k) + 1) * k := mul_le_mul_right _ (roundDiv_le_succ _ _)
   _ = n / d / k * k + k := by rw [Nat.add_one_mul,Nat.div_div_eq_div_mul]
   _ ≤ n / d + k := Nat.add_le_add_right (Nat.div_mul_le_self _ _) _

lemma roundDiv_places_lt (hd : 2 ≤ d) (hn : 0 < n) (s : Nat) :
 roundDiv (n * 2 ^ (s + 1)) d < n * 2 ^ (s + 1) := by
 -- with a place after the point the half below the whole number is met exactly
 have hhalf :=
  calc n * 2 ^ (s + 1) = n * 2 ^ s * 2 := by rw [pow_succ,mul_assoc]
    _ ≤ (2 * n - 1) * 2 ^ s * d := Nat.mul_le_mul (Nat.mul_le_mul_right _ (by omega)) hd
 calc roundDiv (n * 2 ^ (s + 1)) d ≤ (2 * n - 1) * 2 ^ s := roundDiv_le hhalf
   _ < 2 * n * 2 ^ s := mul_lt_mul_of_pos_right (by omega) (Nat.two_pow_pos s)
   _ = n * 2 ^ (s + 1) := by rw [pow_succ,mul_comm 2 n,mul_assoc,mul_comm 2]

lemma roundedQuotient_lt (hd : 2 ≤ d) (hn : 0 < n) : roundedQuotient n d < n := by
 have hq : 2 * (n / d) ≤ n := le_trans (mul_le_mul_right _ hd) (mul_div_le n d)
 simp only [roundedQuotient,pow_eq]
 split
 · next he =>
   have hge := two_pow_le_of_le_log2 he (le_refl _)
   obtain ⟨k,hk⟩ : ∃ k, (n / d).log2 = k + 52 := ⟨(n / d).log2 - 52,by omega⟩
   rw [hk,pow_add] at hge
   rw [hk,Nat.add_sub_cancel]
   have hrou := roundDiv_mul_le n d (2 ^ k)
   have hpos := Nat.two_pow_pos k
   omega
 · next he =>
   rcases Nat.eq_zero_or_pos (if n / d = 0 then 53 else 52 - (n / d).log2) with hpla | hpla
   · have hlar : 2 ^ 52 ≤ n / d := by
      split at hpla
      · cases hpla
      · next hne => exact (le_log2 hne).1 (by omega)
     have hrou := roundDiv_le_succ n d
     rw [hpla,Nat.pow_zero,Nat.mul_one,Nat.div_one]
     omega
   · obtain ⟨s,hs⟩ := exists_eq_succ_of_ne_zero (ne_of_gt hpla)
     rw [hs,Nat.div_lt_iff_lt_mul (Nat.two_pow_pos _)]
     exact roundDiv_places_lt hd hn s

end Decimal

namespace Corpus
variable {sources workers share n start stop i m : Nat} {r : Nat × Nat}

def indices (r : Nat × Nat) : List Nat := range' r.1 (r.2 - r.1)

lemma flatMap_shares (hle : start ≤ stop) (hstop : stop ≤ sources) :
 (shares sources share (n + 1) start stop).flatMap indices =
  range' start (min (stop + n * share) sources - start) := by
 induction n generalizing start stop with
 | zero => simp [shares,indices,min_eq_left hstop]
 | succ n ih =>
  have hnext : stop ≤ min (stop + share) sources := Nat.le_min.2 ⟨Nat.le_add_right _ _,hstop⟩
  have hend : min (min (stop + share) sources + n * share) sources =
   min (stop + (n + 1) * share) sources := by
   rw [add_one_mul]
   omega
  rw [shares,flatMap_cons,ih hnext (min_le_right _ _),hend,indices]
  dsimp only
  obtain ⟨k,rfl⟩ := Nat.exists_eq_add_of_le hle
  rw [Nat.add_sub_cancel_left,range'_append_1]
  congr 1
  omega

lemma flatMap_shares_nil : (shares 0 share n start 0).flatMap indices = [] := by
 induction n generalizing start with
 | zero => rfl
 | succ n ih =>
  -- the range runs backwards or is empty, and the next one starts from zero again
  rw [shares,flatMap_cons,Nat.min_zero,ih,append_nil,indices,Nat.zero_sub]
  rfl

lemma flatMap_workShares (sources : Nat) (hw : 0 < workers) :
 (workShares sources workers).flatMap indices = range
 (if workers = 1 ∨ sources = 0 then shareOf sources workers else min (workers *
  shareOf sources workers) sources) := by
 obtain ⟨k,rfl⟩ := exists_eq_add_one_of_ne_zero (ne_of_gt hw)
 rw [range_eq_range',workShares]
 split
 · next h =>
   rcases h with hk | rfl
   · obtain rfl : k = 0 := by omega
     simp [shares,indices]
   · rw [shares,flatMap_cons,min_zero,flatMap_shares_nil,append_nil]
     rfl
 · next h =>
   have hfir : shareOf sources (k + 1) ≤ sources := roundedQuotient_lt (by omega) (by omega)
   rw [flatMap_shares (Nat.zero_le _) hfir,Nat.sub_zero,Nat.add_one_mul,Nat.add_comm]

lemma flatMap_workShares_of_le (hw : 0 < workers) (hle : sources ≤ 2 ^ 53 * workers) :
 (workShares sources workers).flatMap indices =
  range (if workers = 1 ∨ sources = 0 then sources + 1 else sources) := by
 rw [flatMap_workShares sources hw]
 congr 1
 split
 · next h =>
   rw [shareOf]
   rcases h with rfl | rfl
   · rw [roundedQuotient_one (by omega)]
   · rw [roundedQuotient_zero]
 · -- the quotient is not rounded below its whole part here, so the shares reach beyond the last source
   have hquo := div_le_roundedQuotient hw hle
   have hwho : sources < workers * (sources / workers + 1) := lt_mul_div_succ sources hw
   have hsha : workers * (sources / workers + 1) ≤ workers * shareOf sources workers :=
    Nat.mul_le_mul_left _ (Nat.add_le_add_right hquo 1)
   omega

def countOwn (sources : Nat) (r : Nat × Nat) : Nat :=
 (indices r).countP fun i => decide (i < sources)

lemma countP_range (n k : Nat) : (range n).countP (fun i => decide (i < k)) = min n k := by
 induction n with
 | zero => rw [zero_min]; rfl
 | succ n ih =>
  rw [range_succ,countP_append,ih,countP_singleton]
  by_cases h : n < k
  · rw [if_pos (by simpa using h)]
    omega
  · rw [if_neg (by simpa using h)]
    omega

lemma sum_countOwn (hw : 0 < workers) (hle : sources ≤ 2 ^ 53 * workers) :
 ((workShares sources workers).map (countOwn sources)).sum = sources := by
 have hcou := congrArg (countP fun i => decide (i < sources)) (flatMap_workShares_of_le hw hle)
 rw [countP_flatMap,countP_range] at hcou
 refine Eq.trans hcou ?_
 split <;> omega

structure Traffic where
 due : List Nat
 waiting : Nat
 received : Nat

inductive Traffic.Step (total : Nat) : Traffic → Traffic → Prop
 | send {before after : List Nat} {k waiting received : Nat} :
  Step total ⟨before ++ (k + 1) :: after,waiting,received⟩ ⟨before ++ k :: after,waiting + 1,received⟩
 | receive {due : List Nat} {waiting received : Nat} : received < total →
  Step total ⟨due,waiting + 1,received⟩ ⟨due,waiting,received + 1⟩

namespace Traffic
variable {total : Nat} {t t' : Traffic}

lemma Step.balance (h : Step total t t') :
 t'.due.sum + t'.waiting + t'.received = t.due.sum + t.waiting + t.received := by
 cases h with
 | send =>
  simp only [List.sum_append,sum_cons]
  omega
 | receive => dsimp only; omega

lemma Step.bound (h : Step total t t') (ht : t.received ≤ total) : t'.received ≤ total := by
 cases h with
 | send => exact ht
 | receive hlt => exact hlt

lemma steps_keep {sent : List Nat} (h : ReflTransGen (Step total) ⟨sent,0,0⟩ t) :
 t.due.sum + t.waiting + t.received = sent.sum ∧ t.received ≤ total := by
 induction h with
 | refl => exact ⟨rfl,zero_le _⟩
 | tail _ hste ih => exact ⟨hste.balance.trans ih.1,hste.bound ih.2⟩

end Traffic

section
open Run (Ends)
variable {one : Nat → Run Unit} {ready : Session → Prop} {σ : Session}

structure Completes (sources m : Nat) (one : Nat → Run Unit) (ready : Session → Prop) : Prop where
 own : ∀ i < sources, ∀ σ, ready σ → ∃ σ', Ends (one i) σ (.ok ()) σ' ∧ ready σ' ∧
  σ'.progress = σ.progress + m
 other : ∀ i, sources ≤ i → ∀ σ, ready σ → ∃ r σ', Ends (one i) σ r σ' ∧ ready σ' ∧
  σ.progress ≤ σ'.progress
 streams : ∀ σ s, ready σ → ready { σ with streams := s }
 progress : ∀ σ k, ready σ → ready { σ with progress := k }

lemma countP_range'_of_le (h : sources ≤ i) :
 (range' i n).countP (fun j => decide (j < sources)) = 0 := by
 rw [countP_eq_zero]
 intro j hj
 have := (mem_range'_1.1 hj).1
 rw [decide_eq_true_iff]
 omega

lemma Completes.workRange (hc : Completes sources m one ready) (n i : Nat) (hσ : ready σ) : ∃ r σ',
 Ends (workRange one n i) σ r σ' ∧ ready σ' ∧
  σ.progress + m * (range' i n).countP (fun j => decide (j < sources)) ≤ σ'.progress := by
 induction n generalizing i σ with
 | zero => exact ⟨_,_,ends_pure () σ,hσ,le_refl _⟩
 | succ n ih =>
  by_cases hi : i < sources
  · obtain ⟨σ₁,hone,hσ₁,hpro⟩ := hc.own i hi σ hσ
    obtain ⟨r,σ₂,hres,hσ₂,hle⟩ := ih (i + 1) hσ₁
    refine ⟨r,σ₂,hone.bind hres,hσ₂,?_⟩
    rw [range'_succ,countP_cons_of_pos (by simpa using hi),mul_add_one]
    omega
  · -- from here on no source of the range counts, so it does not matter where the worker fails
    obtain ⟨r,σ₁,hone,hσ₁,hpro⟩ := hc.other i (Nat.le_of_not_lt hi) σ hσ
    rw [countP_range'_of_le (Nat.le_of_not_lt hi),mul_zero]
    cases r with
    | error e => exact ⟨_,σ₁,hone.bind_error,hσ₁,hpro⟩
    | ok _ =>
     obtain ⟨r,σ₂,hres,hσ₂,hle⟩ := ih (i + 1) hσ₁
     exact ⟨r,σ₂,hone.bind hres,hσ₂,by omega⟩

lemma ends_apart {w : Run Unit} {r : Except Error Unit} {σ' : Session} (h : Ends w σ r σ') :
 Ends (apart w) σ (.ok ()) { σ' with streams := σ.streams } := by
 have hatt : Ends (attempt w) σ (.ok ()) σ' := by
  simp only [Ends,attempt,tryCatch,tryCatchThe,MonadExceptOf.tryCatch,ExceptT.tryCatch,ExceptT.run_mk,
   StateT.run_bind]
  change StateT.run w σ = (r,σ') at h
  rw [h]
  cases r <;> rfl
 exact (ends_get σ).bind (hatt.bind rfl)

lemma Completes.forM (hc : Completes sources m one ready) (ranges : List (Nat × Nat))
 (hσ : ready σ) : ∃ σ',
 Ends (ranges.forM fun r => apart (Corpus.workRange one (r.2 - r.1) r.1)) σ (.ok ()) σ' ∧
  σ.progress + m * (ranges.map (countOwn sources)).sum ≤ σ'.progress := by
 induction ranges generalizing σ with
 | nil => exact ⟨σ,ends_pure () σ,le_refl _⟩
 | cons r ranges ih =>
  obtain ⟨_,σ₁,hends,hσ₁,hle₁⟩ := hc.workRange (r.2 - r.1) r.1 hσ
  obtain ⟨σ₂,hres,hle₂⟩ := ih (hc.streams σ₁ σ.streams hσ₁)
  refine ⟨σ₂,(ends_apart hends).bind hres,?_⟩
  rw [map_cons,sum_cons,mul_add]
  dsimp only [countOwn,indices] at hle₁ hle₂ ⊢
  omega

lemma Completes.distribute (hc : Completes sources m one ready) (hw : 0 < workers)
 (hle : sources ≤ 2 ^ 53 * workers)
 (hσ : ready σ) : ∃ σ', Ends (distribute sources workers m one) σ (.ok ()) σ' := by
 obtain ⟨σ',hends,hpro⟩ := hc.forM (workShares sources workers) (hc.progress σ 0 hσ)
 rw [sum_countOwn hw hle] at hpro
 refine ⟨σ',?_⟩
 have hres : Ends (modify fun s => { s with progress := 0 }) σ (.ok ()) { σ with progress := 0 } :=
  rfl
 rw [Corpus.distribute,if_neg (by omega),if_pos (by omega),Int.toNat_natCast]
 refine hres.bind (hends.bind ((ends_get σ').bind ?_))
 have hall : ¬ (σ'.progress : Int) < sources * m := by
  rw [zero_add,mul_comm] at hpro
  exact_mod_cast not_lt.2 hpro
 rw [if_neg hall]
 exact ends_pure () σ'

end

end Corpus
end MotifMatch
