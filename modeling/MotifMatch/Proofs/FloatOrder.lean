import MotifMatch.Proofs.Shares
import MotifMatch.Proofs.WholeFloats

namespace MotifMatch
open Float
namespace Decimal
variable {n n' d d' k : Nat}

lemma roundDiv_le_iff (hd : 0 < d) : roundDiv n d ≤ k ↔ 2 * n < (2 * k + 1) * d ∨
 2 * n = (2 * k + 1) * d ∧ k % 2 = 0 := by
 have hspl := Nat.div_add_mod n d
 have hmod := Nat.mod_lt n hd
 have hodd : (2 * k + 1) * d = 2 * (d * k) + d := by ring
 rw [roundDiv,hodd]
 generalize n / d = q at *
 generalize n % d = r at *
 rcases lt_trichotomy q k with hlt | rfl | hgt
 · have hmul : d * q + d ≤ d * k := Nat.mul_le_mul_left d hlt
   exact iff_of_true (by split <;> omega) (.inl (by omega))
 · split <;> omega
 · have hmul : d * k + d ≤ d * q := Nat.mul_le_mul_left d hgt
   exact iff_of_false (by split <;> omega) (by omega)

lemma roundDiv_mono (hd : 0 < d) (hd' : 0 < d') (h : n * d' ≤ n' * d) :
 roundDiv n d ≤ roundDiv n' d' := by
 have hle := (roundDiv_le_iff hd').1 (le_refl (roundDiv n' d'))
 generalize roundDiv n' d' = k at hle ⊢
 rw [roundDiv_le_iff hd]
 have hcro : 2 * n * d' ≤ 2 * n' * d := by linarith
 rcases hle with hlt | ⟨heq,heven⟩
 · refine .inl (Nat.lt_of_mul_lt_mul_right (a := d') ?_)
   calc 2 * n * d' ≤ 2 * n' * d := hcro
     _ < (2 * k + 1) * d' * d := mul_lt_mul_of_pos_right hlt hd
     _ = (2 * k + 1) * d * d' := mul_right_comm _ _ _
 · rw [heq,mul_right_comm (2 * k + 1)] at hcro
   exact (le_of_mul_le_mul_right hcro hd').lt_or_eq.imp_right (⟨·,heven⟩)

lemma roundDiv_congr (hd : 0 < d) (hd' : 0 < d') (h : n * d' = n' * d) :
 roundDiv n d = roundDiv n' d' :=
 le_antisymm (roundDiv_mono hd hd' h.le) (roundDiv_mono hd' hd h.ge)

def binaryRounded (n d : Nat) : Nat :=
 roundDiv n (d * 2 ^ ((n / d).log2 - 52)) * 2 ^ ((n / d).log2 - 52)

lemma binaryRounded_mono (hd : 0 < d) (hd' : 0 < d') (h : n * d' ≤ n' * d) :
 binaryRounded n d ≤ binaryRounded n' d' := by
 have hdiv : n / d ≤ n' / d' := by
  rw [Nat.le_div_iff_mul_le hd']
  refine le_of_mul_le_mul_right ?_ hd
  calc n / d * d' * d = n / d * d * d' := mul_right_comm _ _ _
    _ ≤ n * d' := Nat.mul_le_mul_right d' (Nat.div_mul_le_self n d)
    _ ≤ n' * d := h
 rw [binaryRounded,binaryRounded]
 have hlog : (n / d).log2 ≤ (n' / d').log2 := by
  rw [Nat.log2_eq_log_two,Nat.log2_eq_log_two]
  exact Nat.log_mono_right hdiv
 have hbel : n / d < 2 ^ ((n / d).log2 + 1) := Nat.lt_log2_self
 have habo : 53 ≤ (n' / d').log2 → 2 ^ (n' / d').log2 ≤ n' / d' :=
  fun h => two_pow_le_of_le_log2 h (le_refl _)
 generalize (n / d).log2 = e at hlog hbel
 generalize (n' / d').log2 = e' at hlog habo
 rcases lt_or_ge (e - 52) (e' - 52) with hlt | hge
 · -- a power of two lies between the two quotients, and rounding passes it on neither side
   obtain ⟨j,rfl⟩ : ∃ j, e' = (e - 52) + j + 53 := ⟨e' - 53 - (e - 52),by omega⟩
   have hn : n ≤ 2 ^ (j + 53) * (d * 2 ^ (e - 52)) := by
    have : n < 2 ^ (e + 1) * d := Nat.lt_mul_of_div_lt hbel hd
    calc n ≤ 2 ^ (e + 1) * d := this.le
      _ ≤ 2 ^ (j + 53 + (e - 52)) * d :=
       Nat.mul_le_mul_right d (Nat.pow_le_pow_right (by omega) (by omega))
      _ = 2 ^ (j + 53) * (d * 2 ^ (e - 52)) := by rw [pow_add]; ring
   have hn' : 2 ^ 52 * (d' * 2 ^ (e - 52 + j + 53 - 52)) ≤ n' := by
    calc 2 ^ 52 * (d' * 2 ^ (e - 52 + j + 53 - 52)) = 2 ^ (52 + (e - 52 + j + 53 - 52)) * d' := by rw [pow_add]; ring
      _ = 2 ^ (e - 52 + j + 53) * d' := by congr 2; omega
      _ ≤ n' / d' * d' := Nat.mul_le_mul_right d' (habo (by omega))
      _ ≤ n' := Nat.div_mul_le_self n' d'
   calc roundDiv n (d * 2 ^ (e - 52)) * 2 ^ (e - 52) ≤ 2 ^ (j + 53) * 2 ^ (e - 52) := Nat.mul_le_mul_right _ (roundDiv_le hn)
     _ = 2 ^ 52 * 2 ^ (e - 52 + j + 53 - 52) := by rw [← pow_add,← pow_add]; congr 1; omega
     _ ≤ _ := Nat.mul_le_mul_right _ (le_roundDiv (by positivity) hn')
 · obtain heq : e' - 52 = e - 52 := by omega
   rw [heq]
   refine Nat.mul_le_mul_right _ (roundDiv_mono (by positivity) (by positivity) ?_)
   calc n * (d' * 2 ^ (e - 52)) = n * d' * 2 ^ (e - 52) := by ring
     _ ≤ n' * d * 2 ^ (e - 52) := Nat.mul_le_mul_right _ h
     _ = n' * (d * 2 ^ (e - 52)) := by ring

lemma binaryRounded_congr (hd : 0 < d) (hd' : 0 < d') (h : n * d' = n' * d) :
 binaryRounded n d = binaryRounded n' d' :=
 le_antisymm (binaryRounded_mono hd hd' h.le) (binaryRounded_mono hd' hd h.ge)

lemma binaryRounded_exact (hn : n < 2 ^ 53) (j : Nat) (hd : 0 < d) :
 binaryRounded (n * 2 ^ j * d) d = n * 2 ^ j := by
 rw [binaryRounded_congr hd Nat.one_pos (mul_one _),binaryRounded,Nat.div_one,one_mul]
 rcases Nat.eq_zero_or_pos n with rfl | hpos
 · simp [roundDiv]
 have hle : (n * 2 ^ j).log2 - 52 ≤ j := by
  have := (Nat.log2_lt hpos.ne').2 hn
  rw [log2_mul_two_pow hpos]
  omega
 generalize (n * 2 ^ j).log2 - 52 = e at hle
 obtain ⟨i,rfl⟩ := Nat.exists_eq_add_of_le' hle
 rw [pow_add,← mul_assoc,roundDiv_congr (Nat.two_pow_pos e) Nat.one_pos (mul_one _),roundDiv_one]

def signedRounded (z : Int) (d : Nat) : Int := z.sign * binaryRounded z.natAbs d

lemma signedRounded_mono (hd : 0 < d) {z w : Int} (h : z ≤ w) :
 signedRounded z d ≤ signedRounded w d := by
 have hmono : ∀ a b : Nat, a ≤ b → (binaryRounded a d : Int) ≤ binaryRounded b d := fun _ _ hab =>
  Int.ofNat_le.2 (binaryRounded_mono hd hd (Nat.mul_le_mul_right d hab))
 have hneg := hmono w.natAbs z.natAbs
 have hpos := hmono z.natAbs w.natAbs
 rw [signedRounded,signedRounded]
 rcases lt_trichotomy z 0 with hz | rfl | hz <;> rcases lt_trichotomy w 0 with hw | rfl | hw <;>
  simp only [Int.sign_eq_neg_one_of_neg,Int.sign_eq_one_of_pos,Int.sign_zero, *] <;> omega

end Decimal

namespace Binary64
open Float.Model Float.Model.UnpackedFloat
open Nat (mul_le_mul_right compare_eq_lt compare_eq_eq compare_eq_gt two_pow_pos log2_lt shiftLeft_eq)
open ExtendedMantissa (ofMantissaAndAccuracy shiftRightOne)
open Decimal (roundDiv binaryRounded signedRounded parts truncate?)
open Format (binary64 targetExponent mantissaBits minExponent)
variable {n d : Nat} {e : Int} {s : Sign}

def extended (n d : Nat) : ExtendedMantissa :=
 .ofMantissaAndAccuracy (n / d) (accuracyOfFraction (n % d) d)

lemma extended_shiftRightOne (hd : 0 < d) : (extended n d).shiftRightOne = extended n (d * 2) := by
 have hdiv : n / (d * 2) = n / d / 2 := (Nat.div_div_eq_div_mul n d 2).symm
 have hmod : n % (d * 2) = n % d + d * (n / d % 2) := Nat.mod_mul
 have hlt := Nat.mod_lt n hd
 rw [extended,extended,hdiv,hmod]
 generalize n / d = q
 generalize n % d = r at hlt
 rw [accuracyOfFraction,accuracyOfFraction]
 rcases Nat.mod_two_eq_zero_or_one q with hq | hq <;> rcases Nat.eq_zero_or_pos r with rfl | hr
 · simp [hq,ofMantissaAndAccuracy,shiftRightOne]
 · have hcmp : compare (2 * r) (d * 2) = .lt := compare_eq_lt.2 (by omega)
   simp only [hq,mul_zero,add_zero,if_neg hr.ne',hcmp]
   cases compare (2 * r) d <;> simp [hq,ofMantissaAndAccuracy,shiftRightOne]
 · have hcmp : compare (2 * d) (d * 2) = .eq := compare_eq_eq.2 (by omega)
   simp [hq,hd.ne',hcmp,ofMantissaAndAccuracy,shiftRightOne]
 · have hcmp : compare (2 * (r + d)) (d * 2) = .gt := compare_eq_gt.2 (by omega)
   simp only [hq,mul_one,if_neg hr.ne',if_neg (show r + d ≠ 0 by omega),hcmp]
   cases compare (2 * r) d <;> simp [hq,ofMantissaAndAccuracy,shiftRightOne]

lemma extended_shiftRight (hd : 0 < d) (k : Nat) : extended n d >>> k = extended n (d * 2 ^ k) := by
 change k.repeat shiftRightOne _ = _
 induction k with
 | zero => simp [Nat.repeat]
 | succ k ih => rw [Nat.repeat,ih,extended_shiftRightOne (by positivity),Nat.pow_succ,Nat.mul_assoc]

lemma roundedMantissa_extended (hd : 0 < d) : (extended n d).roundedMantissa = roundDiv n d := by
 rw [extended,roundDiv,accuracyOfFraction]
 generalize n / d = q
 generalize n % d = r
 rcases eq_zero_or_pos r with rfl | hr
 · rw [if_pos rfl,if_neg (by omega)]
   rfl
 rw [if_neg hr.ne']
 rcases lt_trichotomy (2 * r) d with h | h | h
 · rw [compare_eq_lt.2 h,if_neg (by omega)]
   rfl
 · rw [compare_eq_eq.2 h]
   change q + q % 2 = _
   split <;> omega
 · rw [compare_eq_gt.2 h,if_pos (.inl h)]
   rfl

lemma log2_div_two_pow (q k : Nat) : (q / 2 ^ k).log2 = q.log2 - k := by
 induction k with
 | zero => simp
 | succ k ih =>
  rw [pow_succ,← Nat.div_div_eq_div_mul,Nat.log2_eq_log_two,
   Nat.log_div_base,← Nat.log2_eq_log_two,ih]
  omega

lemma log2_mul_div (hpos : 0 < n / d) (k : Nat) : (n * 2 ^ k / d).log2 = (n / d).log2 + k := by
 have hd : 0 < d := pos_of_ne_zero (by rintro rfl; simp at hpos)
 have hlow : 2 ^ ((n / d).log2 + k) ≤ n * 2 ^ k / d := by
  rw [Nat.le_div_iff_mul_le hd]
  calc 2 ^ ((n / d).log2 + k) * d = 2 ^ (n / d).log2 * d * 2 ^ k := by rw [pow_add,mul_right_comm]
    _ ≤ n / d * d * 2 ^ k := mul_le_mul_right _ (mul_le_mul_right _ (Nat.log2_self_le hpos.ne'))
    _ ≤ n * 2 ^ k := mul_le_mul_right _ (Nat.div_mul_le_self n d)
 have hhigh : n * 2 ^ k / d < 2 ^ ((n / d).log2 + k + 1) := by
  rw [Nat.div_lt_iff_lt_mul hd]
  calc n * 2 ^ k < 2 ^ ((n / d).log2 + 1) * d * 2 ^ k :=
        mul_lt_mul_of_pos_right (Nat.lt_mul_of_div_lt Nat.lt_log2_self hd) (two_pow_pos k)
    _ = 2 ^ ((n / d).log2 + k + 1) * d := by rw [add_right_comm,pow_add _ _ k,mul_right_comm]
 exact (Nat.log2_eq_iff (ne_of_gt (lt_of_lt_of_le (two_pow_pos _) hlow))).2 ⟨hlow,hhigh⟩

def units (m : Nat) (e : Int) : Nat := m * 2 ^ (e + 1074).toNat

def perOne : Nat := 2 ^ 1074

def summit : Nat := units (2 ^ 53) 971

def rank : UnpackedFloat → Int
 | .infinity s => s.apply summit
 | .notANumber => 0
 | .zero _ => 0
 | .finite s m e _ => s.apply (units m e)

def Canonical : UnpackedFloat → Prop
 | .finite _ m e _ => m < 2 ^ 53 ∧ -1074 ≤ e ∧ (2 ^ 52 ≤ m ∨ e = -1074)
 | _ => True

structure Stands (u : UnpackedFloat) (z : Int) : Prop where
 canonical : Canonical u
 number : u ≠ .notANumber
 place : rank u = z

lemma shiftToTargetExponent_rounded {r : Nat} (hr : r ≤ 2 ^ 53) (he : -1074 ≤ e) :
 shiftToTargetExponent binary64 r e .exact =
  if r < 2 ^ 53 then (⟨r,false,false⟩,e) else (⟨2 ^ 52,false,false⟩,e + 1) := by
 split
 · next hlt =>
   have hlog : r.log2 ≤ 52 := by
    rcases eq_zero_or_pos r with rfl | hpos
    · simp
    · exact Nat.le_of_lt_succ ((log2_lt hpos.ne').2 hlt)
   have hamo : (binary64.targetExponent (totalExponent r e) - e).toNat = 0 := by
    simp only [targetExponent,totalExponent,mantissaBits,minExponent]
    omega
   rw [shiftToTargetExponent,shiftToExponent,hamo]
   simp only [Nat.cast_zero,Int.add_zero]
   rfl
 · obtain rfl : r = 2 ^ 52 * 2 ^ 1 := by omega
   simpa using shiftToTargetExponent_exact (m := 2 ^ 52) (e := e + 1) Nat.log2_two_pow (by omega) 1

lemma stands_zero (s : Sign) : Stands (.zero s) 0 := ⟨trivial,by simp,rfl⟩

lemma stands_of_shift {m r : Nat} {t : Int} {a : Accuracy} {em : ExtendedMantissa}
 (hshi : shiftToTargetExponent binary64 m e a = (em,t)) (hem : em.roundedMantissa = r)
 (hr : r ≤ 2 ^ 53)
 (ht : -1074 ≤ t) (hfull : 2 ^ 52 ≤ r ∨ t = -1074) :
 Stands (roundWithAccuracy binary64 s m e a) (s.apply (units r t)) := by
 have haga := shiftToTargetExponent_rounded hr ht
 rw [roundWithAccuracy,hshi]
 simp only [hem]
 rcases lt_or_eq_of_le hr with hlt | rfl
 · rw [if_pos hlt] at haga
   simp only [haga]
   split
   · next hzero =>
     have : s.apply (units r t) = 0 := by cases s <;> simp [Sign.apply,units,hzero]
     exact this ▸ stands_zero s
   · exact ⟨⟨hlt,ht,hfull⟩,by simp,rfl⟩
 · rw [if_neg (lt_irrefl _)] at haga
   simp only [haga]
   rw [dif_neg (by decide)]
   refine ⟨⟨by decide,by omega,.inl (by decide)⟩,by simp,?_⟩
   rw [rank,units,units,show (t + 1 + 1074).toNat = (t + 1074).toNat + 1 by omega,pow_succ,pow_succ]
   congr 2
   ring

def placed (q : Nat) (e : Int) : Int := max (q.log2 + e - 52) (-1074)

section
variable (hd : 0 < d) (hpla : 52 ≤ (n / d).log2 ∨ e ≤ -1074)
include hpla

lemma log2_scaled :
 (n * 2 ^ (e + 1074).toNat / (d * 2 ^ (-(e + 1074)).toNat)).log2 - 52 =
  (placed (n / d) e + 1074).toNat := by
 rw [placed]
 rcases lt_or_ge e (-1074) with he | he
 · rw [show (e + 1074).toNat = 0 by omega,pow_zero,mul_one,← Nat.div_div_eq_div_mul,log2_div_two_pow]
   omega
 · rw [show (-(e + 1074)).toNat = 0 by omega,pow_zero,mul_one]
   rcases eq_zero_or_pos (n / d) with hzero | hpos
   · obtain rfl : e = -1074 := by
      rw [hzero,Nat.log2_zero] at hpla
      omega
     simp [hzero]
   · rw [log2_mul_div hpos]
     omega

include hd

lemma shiftToTargetExponent_extended :
 shiftToTargetExponent binary64 (n / d) e (accuracyOfFraction (n % d) d) =
  (extended n (d * 2 ^ (placed (n / d) e - e).toNat),placed (n / d) e) := by
 have htar : binary64.targetExponent (totalExponent (n / d) e) = placed (n / d) e := by
  simp only [targetExponent,totalExponent,mantissaBits,minExponent,placed]
  omega
 rw [shiftToTargetExponent,htar,shiftToExponent]
 refine Prod.ext (extended_shiftRight hd _) ?_
 have : e ≤ placed (n / d) e := by
  rw [placed]
  omega
 dsimp only
 omega

lemma units_roundDiv :
 units (roundDiv n (d * 2 ^ (placed (n / d) e - e).toNat)) (placed (n / d) e) =
  binaryRounded (n * 2 ^ (e + 1074).toNat) (d * 2 ^ (-(e + 1074)).toNat) := by
 rw [binaryRounded,log2_scaled hpla,units]
 congr 1
 refine Decimal.roundDiv_congr (by positivity) (by positivity) ?_
 have hexp : (-(e + 1074)).toNat + (placed (n / d) e + 1074).toNat =
  (e + 1074).toNat + (placed (n / d) e - e).toNat := by
  rw [placed]
  omega
 rw [mul_assoc d,← pow_add,hexp,pow_add]
 ring

lemma roundDiv_placed :
 let r := roundDiv n (d * 2 ^ (placed (n / d) e - e).toNat)
 r ≤ 2 ^ 53 ∧ (2 ^ 52 ≤ r ∨ placed (n / d) e = -1074) := by
 constructor
 · refine Decimal.roundDiv_le ?_
   calc n ≤ 2 ^ ((n / d).log2 + 1) * d := (Nat.lt_mul_of_div_lt Nat.lt_log2_self hd).le
     _ ≤ 2 ^ (53 + (placed (n / d) e - e).toNat) * d := by
         refine mul_le_mul_right d (Nat.pow_le_pow_right (by omega) ?_)
         rw [placed]
         omega
     _ = 2 ^ 53 * (d * 2 ^ (placed (n / d) e - e).toNat) := by rw [pow_add]; ring
 · by_cases hmin : placed (n / d) e = -1074
   · exact .inr hmin
   refine .inl (Decimal.le_roundDiv (by positivity) ?_)
   have hlog : (n / d).log2 = 52 + (placed (n / d) e - e).toNat := by
    rw [placed] at hmin ⊢
    omega
   have hpos : n / d ≠ 0 := fun hzero => by
    rw [hzero,Nat.log2_zero] at hlog
    omega
   calc 2 ^ 52 * (d * 2 ^ (placed (n / d) e - e).toNat) = 2 ^ (n / d).log2 * d := by rw [hlog,pow_add]; ring
     _ ≤ n / d * d := mul_le_mul_right d (Nat.log2_self_le hpos)
     _ ≤ n := Nat.div_mul_le_self n d

lemma stands_quotient :
 Stands (roundWithAccuracy binary64 s (n / d) e (accuracyOfFraction (n % d) d))
  (s.apply (binaryRounded (n * 2 ^ (e + 1074).toNat) (d * 2 ^ (-(e + 1074)).toNat))) := by
 obtain ⟨hle,hfull⟩ := roundDiv_placed hd hpla
 rw [← units_roundDiv hd hpla]
 exact stands_of_shift (shiftToTargetExponent_extended hd hpla)
  (roundedMantissa_extended (mul_pos hd (two_pow_pos _))) hle (le_max_right _ _) hfull

end

lemma stands_whole {m : Nat} (hpla : 52 ≤ m.log2 ∨ e ≤ -1074) :
 Stands (roundWithAccuracy binary64 s m e .exact)
  (s.apply (binaryRounded (m * 2 ^ (e + 1074).toNat) (2 ^ (-(e + 1074)).toNat))) := by
 have hexa : accuracyOfFraction (m % 1) 1 = .exact := by simp [accuracyOfFraction,Nat.mod_one]
 simpa only [Nat.div_one,hexa,Nat.one_mul] using stands_quotient (n := m) (s :=
  s) Nat.one_pos (by simpa using hpla)

section
variable {m : Nat} {u w : UnpackedFloat}

lemma apply_binaryRounded (m d : Nat) :
 s.apply (binaryRounded m d) = signedRounded (s.apply m) d := by
 rcases eq_zero_or_pos m with rfl | hm
 · have hzero : binaryRounded 0 d = 0 := by simp [binaryRounded,roundDiv]
   cases s <;> simp [signedRounded,Sign.apply,hzero]
 · have hsign : ((m : Int)).sign = 1 := Int.sign_eq_one_of_pos (by omega)
   cases s <;> simp [signedRounded,Sign.apply,hsign]

lemma stands_round (hm : 0 < m) (he : -1074 ≤ e) :
 Stands (UnpackedFloat.round binary64 s m e) (signedRounded (s.apply (units m e)) 1) := by
 have htar : binary64.targetExponent (totalExponent m e) = max (m.log2 + e - 52) (-1074) := by
  simp only [targetExponent,totalExponent,mantissaBits,minExponent]
  omega
 simp only [UnpackedFloat.round,htar,decreaseExponent]
 generalize hk : (e - max (m.log2 + e - 52) (-1074)).toNat = k
 rw [shiftLeft_eq]
 have huni : m * 2 ^ k * 2 ^ (e - k + 1074).toNat = units m e := by
  rw [units,mul_assoc,← pow_add]
  congr 2
  omega
 have hsta := stands_whole (m := m * 2 ^ k) (e := e - k) (s :=
  s) (by rw [log2_mul_two_pow hm]; omega)
 rwa [huni,show (-(e - k + 1074)).toNat = 0 by omega,pow_zero,apply_binaryRounded] at hsta

lemma stands_normalize (z : Int) (he : -1074 ≤ e) :
 Stands (UnpackedFloat.normalize binary64 z e s) (signedRounded (z * 2 ^ (e + 1074).toNat) 1) := by
 have huni : ∀ m : Nat, ((units m e : Nat) : Int) = m * 2 ^ (e + 1074).toNat :=
  fun m => by simp [units]
 rw [UnpackedFloat.normalize]
 rcases lt_trichotomy z 0 with hz | rfl | hz
 · have hrou := stands_round (m := (-z).toNat) (s := .negative) (by omega) he
   rw [Sign.apply,huni,Int.toNat_of_nonneg (by omega),Int.neg_mul,Int.neg_neg] at hrou
   rwa [Int.compare_eq_lt.2 hz]
 · rw [Int.compare_eq_eq.2 rfl]
   simpa [signedRounded] using stands_zero s
 · have hrou := stands_round (m := z.toNat) (s := .positive) (by omega) he
   rw [Sign.apply,huni,Int.toNat_of_nonneg (by omega)] at hrou
   rwa [Int.compare_eq_gt.2 hz]

lemma apply_aligned (m : Nat) {e' : Int} (he : -1074 ≤ e') (hle : e' ≤ e) :
 s.apply ((m <<< (e - e').toNat)) * 2 ^ (e' + 1074).toNat = s.apply (units m e) := by
 have huni : (m <<< (e - e').toNat) * 2 ^ (e' + 1074).toNat = units m e := by
  rw [shiftLeft_eq,units,mul_assoc,← pow_add]
  congr 2
  omega
 rw [← huni]
 cases s <;> simp [Sign.apply]

variable {s' : Sign} {m' : Nat} {e' : Int} {hm : 0 < m} {hm' : 0 < m'}
section
variable (hu : Canonical (.finite s m e hm)) (hw : Canonical (.finite s' m' e' hm'))
include hu hw

lemma stands_add : Stands (add binary64 (.finite s m e hm) (.finite s' m' e' hm'))
 (signedRounded (s.apply (units m e) + s'.apply (units m' e')) 1) := by
 have hmin : -1074 ≤ min e e' := le_min hu.2.1 hw.2.1
 rw [← apply_aligned m hmin (min_le_left e e'),← apply_aligned m' hmin (min_le_right e e'),← add_mul]
 exact stands_normalize _ hmin

lemma stands_sub : Stands (sub binary64 (.finite s m e hm) (.finite s' m' e' hm'))
 (signedRounded (s.apply (units m e) - s'.apply (units m' e')) 1) := by
 have hmin : -1074 ≤ min e e' := le_min hu.2.1 hw.2.1
 rw [← apply_aligned m hmin (min_le_left e e'),← apply_aligned m' hmin (min_le_right e e'),← sub_mul]
 exact stands_normalize _ hmin

end

lemma mul_finite (f : Format) (s s' : Sign) (e e' : Int) (hm : 0 < m) (hm' : 0 < m') :
 mul f (.finite s m e hm) (.finite s' m' e' hm') = roundWithAccuracy f (s * s') (m * m')
  (e + e') .exact := rfl

lemma perOne_pos : 0 < perOne := by
 unfold perOne
 positivity

lemma stands_mul (hu : Canonical (.finite s m e hm)) (hw : Canonical (.finite s' m' e' hm')) :
 Stands (mul binary64 (.finite s m e hm) (.finite s' m' e' hm'))
  (signedRounded (s.apply (units m e) * s'.apply (units m' e')) perOne) := by
 obtain ⟨-,he,hfull⟩ := hu
 obtain ⟨-,he',hful'⟩ := hw
 have hpla : 52 ≤ (m * m').log2 ∨ e + e' ≤ -1074 := by
  have hlog : 2 ^ 52 ≤ m * m' → 52 ≤ (m * m').log2 := (Nat.le_log2 (Nat.mul_pos hm hm').ne').2
  rcases hfull with hfull | rfl
  · exact .inl (hlog (hfull.trans (Nat.le_mul_of_pos_right m hm')))
  rcases hful' with hful' | rfl
  · exact .inl (hlog (hful'.trans (Nat.le_mul_of_pos_left m' hm)))
  · exact .inr (by omega)
 have hsca : m * m' * 2 ^ (e + e' + 1074).toNat * perOne = units m e * units m' e' *
  2 ^ (-(e + e' + 1074)).toNat := by
  have hexp : (e + e' + 1074).toNat + 1074 = (e + 1074).toNat + (e' + 1074).toNat +
   (-(e + e' + 1074)).toNat := by omega
  rw [perOne]
  generalize (1074 : Nat) = k at hexp
  calc m * m' * 2 ^ (e + e' + 1074).toNat * 2 ^ k = m * m' * 2 ^ ((e + e' + 1074).toNat + k) := by
        rw [pow_add,mul_assoc]
    _ = units m e * units m' e' * 2 ^ (-(e + e' + 1074)).toNat := by
        rw [hexp,pow_add,pow_add,units,units]
        ring
 have hsign : (s * s').apply ((units m e * units m' e' : Nat) : Int) = s.apply (units m e) *
  s'.apply (units m' e') := by
  rw [Int.natCast_mul]
  cases s <;> cases s'
  · exact (neg_mul_neg _ _).symm
  · exact (neg_mul _ _).symm
  · exact (mul_neg _ _).symm
  · rfl
 have hsta := stands_whole (s := s * s') hpla
 rwa [Decimal.binaryRounded_congr (two_pow_pos _) perOne_pos hsca,apply_binaryRounded,hsign] at hsta

lemma stands_div_two_pow (hu : Canonical (.finite s m e hm)) {j : Nat} (hj : j ≤ e + 1126) :
 Stands (UnpackedFloat.div binary64 (.finite s m e hm)
  (.finite .positive (2 ^ 52) (j - 52) (by decide)))
  (signedRounded (s.apply (units m e)) (2 ^ j)) := by
 obtain ⟨hlt,he,-⟩ := hu
 have hlog : m.log2 ≤ 52 := Nat.le_of_lt_succ ((log2_lt hm.ne').2 hlt)
 have htar : min (e - (j - 52))
  (binary64.targetExponent (totalExponent m e - totalExponent (2 ^ 52) (j - 52))) =
  max (m.log2 + e - j - 53) (-1074) := by
  simp only [targetExponent,totalExponent,mantissaBits,minExponent,Nat.log2_two_pow]
  omega
 have hsign : s / .positive = s := by cases s <;> rfl
 simp only [UnpackedFloat.div,divCore,htar,hsign]
 generalize ht : max (m.log2 + e - j - 53) (-1074) = t
 generalize hk : (e - (j - 52) - t).toNat = k
 rw [shiftLeft_eq]
 have hpla : 52 ≤ (m * 2 ^ k / 2 ^ 52).log2 ∨ t ≤ -1074 := by
  rw [log2_div_two_pow,log2_mul_two_pow hm]
  omega
 have hsca : m * 2 ^ k * 2 ^ (t + 1074).toNat * 2 ^ j = units m e *
  (2 ^ 52 * 2 ^ (-(t + 1074)).toNat) := by
  rw [show (-(t + 1074)).toNat = 0 by omega,units,pow_zero,mul_one,mul_assoc,mul_assoc,mul_assoc,
   ← pow_add,← pow_add,← pow_add]
  congr 2
  omega
 have hsta := stands_quotient (s := s) (two_pow_pos 52) hpla
 rwa [Decimal.binaryRounded_congr (by positivity) (two_pow_pos j) hsca,apply_binaryRounded] at hsta

end

section
variable {m : Nat} {u w : UnpackedFloat} {z : Int}

def Packable : UnpackedFloat → Prop
 | .finite _ m e _ => m < 2 ^ 53 ∧ -1074 ≤ e ∧ e ≤ 971 ∧ (2 ^ 52 ≤ m ∨ e = -1074)
 | _ => True

lemma Packable.canonical (hu : Packable u) : Canonical u := by
 cases u with
 | finite => exact ⟨hu.1,hu.2.1,hu.2.2.2⟩
 | _ => trivial

lemma units_lt_summit (hm : m < 2 ^ 53) (he : e ≤ 971) : units m e < summit := by
 calc units m e < units (2 ^ 53) e := mul_lt_mul_of_pos_right hm (two_pow_pos _)
   _ ≤ summit := Nat.mul_le_mul_left _ (Nat.pow_le_pow_right Nat.two_pos (by omega))

lemma units_double (he : -1074 ≤ e) (m : Nat) : units (m * 2) e = units m (e + 1) := by
 rw [units,units,show (e + 1 + 1074).toNat = (e + 1074).toNat + 1 by omega,pow_succ',mul_assoc]

lemma summit_le_units (hm : 2 ^ 52 ≤ m) (he : 972 ≤ e) : summit ≤ units m e := by
 calc summit = units (2 ^ 52) (971 + 1) := by rw [summit,pow_succ,units_double (by omega)]
   _ ≤ units m e := Nat.mul_le_mul hm (Nat.pow_le_pow_right Nat.two_pos (by omega))

-- From here on it matters where the finite floats end, and no longer what number that is.
attribute [irreducible] summit

lemma unpack_pack_zero (s : Sign) : (Model.pack (.zero s)).unpack = .zero s := by cases s <;> rfl

lemma unpack_pack_infinity (s : Sign) :
 (Model.pack (.infinity s)).unpack = .infinity s := by cases s <;> rfl

lemma unpack_pack_subnormal (s : Sign) (hm : 0 < m) (hlt : m < 2 ^ 52) :
 (Float.Model.pack (.finite s m (-1074) hm)).unpack = .finite s m (-1074) hm := by
 have hlog : m.log2 + 1 ≠ binary64.mantissaBits := by
  have := (log2_lt hm.ne').2 hlt
  simp only [mantissaBits]
  omega
 have hpack : UnpackedFloat.pack binary64 (.finite s m (-1074) hm) =
  packComponents binary64 s 0#11 (BitVec.ofNat 52 m) := if_neg hlog
 have hnat : (BitVec.ofNat 52 m).toNat = m := by rw [BitVec.toNat_ofNat,Nat.mod_eq_of_lt hlt]
 have hne : BitVec.ofNat 52 m ≠ 0#52 :=
  fun h => hm.ne' (by simpa [hnat] using congrArg BitVec.toNat h)
 rw [Model.unpack,Model.pack]
 simp only [hpack,UnpackedFloat.unpack,unpackMantissa_packComponents,unpackExponent_packComponents,
  unpackSign_packComponents]
 rw [if_neg (by decide),if_pos trivial,dif_neg hne]
 simp only [hnat]
 cases s <;> rfl

lemma unpack_pack_overflow (s : Sign) (hm : 0 < m) (he : 972 ≤ e) :
 (Model.pack (.finite s m e hm)).unpack = .infinity s := by
 have hbig : 2 ^ binary64.exponentBits ≤
  (e + binary64.exponentBias + binary64.mantissaBitsWithoutImplicit).toNat + 1 := by
  simp only [Format.exponentBias]
  omega
 have hpack : UnpackedFloat.pack binary64 (.finite s m e hm) = packedInfinity binary64 s :=
  if_pos hbig
 rw [Model.pack]
 simp only [hpack]
 exact unpack_pack_infinity s

def clamped (z : Int) : Int := max (-(summit : Int)) (min summit z)

lemma clamped_mono {z z' : Int} (h : z ≤ z') : clamped z ≤ clamped z' := by
 rw [clamped,clamped]
 omega

lemma Stands.pack (hu : Stands u z) : Stands (Model.pack u).unpack (clamped z) := by
 obtain ⟨hcan,hnum,rfl⟩ := hu
 cases u with
 | notANumber => exact absurd rfl hnum
 | infinity s =>
  rw [unpack_pack_infinity]
  refine ⟨trivial,hnum,?_⟩
  cases s <;> simp [rank,clamped,Sign.apply]
 | zero s =>
  rw [unpack_pack_zero]
  exact ⟨trivial,hnum,by simp [rank,clamped]⟩
 | finite s m e hm =>
  obtain ⟨hlt,he,hfull⟩ := hcan
  rcases le_or_gt e 971 with hsma | hbig
  · have hsame : (Model.pack (.finite s m e hm)).unpack = .finite s m e hm := by
     rcases lt_or_ge m (2 ^ 52) with hsub | hnor
     · obtain rfl : e = -1074 := by omega
       exact unpack_pack_subnormal s hm hsub
     · exact unpack_pack s ((Nat.log2_eq_iff hm.ne').2 ⟨hnor,hlt⟩) he hsma hm
    rw [hsame]
    refine ⟨⟨hlt,he,hfull⟩,hnum,?_⟩
    have := units_lt_summit hlt hsma
    cases s <;> simp only [rank,clamped,Sign.apply] <;> omega
  · rw [unpack_pack_overflow s hm (by omega)]
    refine ⟨trivial,by simp,?_⟩
    have := summit_le_units (m := m) (e := e) (by omega) (by omega)
    cases s <;> simp only [rank,clamped,Sign.apply] <;> omega

lemma Packable.rank_le (hu : Packable u) : -(summit) ≤ rank u ∧ rank u ≤ summit := by
 cases u with
 | notANumber => simp [rank]
 | infinity s => cases s <;> simp only [rank,Sign.apply] <;> omega
 | zero s => simp [rank]
 | finite s m e hm =>
  have := units_lt_summit hu.1 hu.2.2.1
  cases s <;> simp only [rank,Sign.apply] <;> omega

variable {m' : Nat} {e' : Int}

lemma units_lt_units (hm : m < 2 ^ 53) (he : -1074 ≤ e) (hfull : 2 ^ 52 ≤ m' ∨ e' = -1074)
 (hlt : e < e') :
 units m e < units m' e' := by
 have hm' : 2 ^ 52 ≤ m' := hfull.resolve_right (by omega)
 calc units m e < units (2 ^ 52 * 2) e := mul_lt_mul_of_pos_right hm (two_pow_pos _)
   _ = units (2 ^ 52) (e + 1) := units_double he _
   _ ≤ units m' e' := Nat.mul_le_mul hm' (Nat.pow_le_pow_right Nat.two_pos (by omega))

lemma compare_units (hm : m < 2 ^ 53) (hm' : m' < 2 ^ 53) (he : -1074 ≤ e) (he' : -1074 ≤ e')
 (hfull : 2 ^ 52 ≤ m ∨ e = -1074)
 (hful' : 2 ^ 52 ≤ m' ∨ e' = -1074) :
  (compare e e').then (compare m m') = compare (units m e) (units m' e') := by
 rcases lt_trichotomy e e' with hlt | rfl | hgt
 · rw [Int.compare_eq_lt.2 hlt,compare_eq_lt.2 (units_lt_units hm he hful' hlt)]
   rfl
 · rw [Int.compare_eq_eq.2 rfl,Ordering.then]
   have hpos := two_pow_pos (e + 1074).toNat
   rcases lt_trichotomy m m' with h | rfl | h
   · rw [compare_eq_lt.2 h,compare_eq_lt.2 (show units m e <
      units m' e from mul_lt_mul_of_pos_right h hpos)]
   · rw [compare_eq_eq.2 rfl,compare_eq_eq.2 rfl]
   · rw [compare_eq_gt.2 h,compare_eq_gt.2 (show units m' e <
      units m e from mul_lt_mul_of_pos_right h hpos)]
 · rw [Int.compare_eq_gt.2 hgt,compare_eq_gt.2 (units_lt_units hm' he' hfull hgt)]
   rfl

lemma summit_pos : 0 < summit := Nat.lt_of_le_of_lt (Nat.zero_le _)
 (units_lt_summit (m := 0) (e := 0) (by omega) (by omega))

lemma compare_eq (hu : Packable u) (hw : Packable w) (hu' : u ≠ .notANumber)
 (hw' : w ≠ .notANumber) :
 u.compare w = some (compare (rank u) (rank w)) := by
 have hpos := summit_pos
 have hlow : ∀ {m}, 0 < m → ∀ e, 0 < units m e := fun h _ => mul_pos h (two_pow_pos _)
 have hhigh : ∀ {s m e hm}, Packable (.finite s m e hm) → units m e < summit :=
  fun h => units_lt_summit h.1 h.2.2.1
 cases u <;> cases w
 case finite.finite s m e hm s' m' e' hm' =>
  have hcom := compare_units hu.1 hw.1 hu.2.1 hw.2.1 hu.2.2.2 hw.2.2.2
  have := hlow hm e
  have := hlow hm' e'
  cases s <;> cases s' <;> simp only [UnpackedFloat.compare,rank,Sign.apply,hcom] <;>
   simp only [Nat.compare_eq_ite_lt,Int.compare_eq_ite_lt] <;> grind [Ordering.swap]
 case infinity.infinity s s' =>
  cases s <;> cases s' <;> simp only [UnpackedFloat.compare,rank,Sign.apply,
   Int.compare_eq_ite_lt] <;> split_ifs <;>
   first | rfl | omega
 all_goals
  simp only [UnpackedFloat.compare,rank,Int.compare_eq_ite_lt]
  grind [Sign.apply,cases Sign]

end

section
variable {x : Float} {z : Int}

def partsOf : UnpackedFloat → Decimal.Parts
 | .infinity s => .infinite (s == .negative)
 | .notANumber => .undefined
 | .zero s => .finite ⟨s == .negative,0,-1074⟩
 | .finite s m e _ => .finite ⟨s == .negative,m,e⟩

lemma toNat_unpackMantissa (b : BitVec 64) :
 (@unpackMantissa binary64 b).toNat = b.toNat % 2 ^ 52 := by
 simp [unpackMantissa]

lemma toNat_unpackExponent (b : BitVec 64) :
 (@unpackExponent binary64 b).toNat = b.toNat / 2 ^ 52 % 2048 := by
 simp [unpackExponent,Nat.shiftRight_eq_div_pow]

lemma negative_unpackSign (b : BitVec 64) :
 (Sign.ofBitVec (@unpackSign binary64 b) == .negative) = (b.toNat / 2 ^ 63 == 1) := by
 have hsign : (@unpackSign binary64 b).toNat = b.toNat / 2 ^ 63 % 2 := by
  simp [unpackSign,Nat.shiftRight_eq_div_pow]
 rw [Sign.ofBitVec]
 split
 · next h =>
   rw [h] at hsign
   have hne : b.toNat / 2 ^ 63 ≠ 1 := by
    simp at hsign
    omega
   rw [beq_false_of_ne hne]
   rfl
 · next h =>
   have hone : (@unpackSign binary64 b).toNat ≠ 0 := fun hzero => h (BitVec.eq_of_toNat_eq hzero)
   have heq : b.toNat / 2 ^ 63 = 1 := by omega
   rw [heq]
   rfl

lemma parts_eq (x : Float) : parts x = partsOf x.toModel.unpack := by
 have hbias : binary64.exponentBias = 1023 := rfl
 have hbits : x.toBits.toNat = x.toModel.toBits.toBitVec.toNat := rfl
 rw [parts,Model.unpack,UnpackedFloat.unpack]
 simp only [hbits,Nat.pow_eq]
 generalize x.toModel.toBits.toBitVec = b
 simp only [← negative_unpackSign b,← toNat_unpackExponent b,← toNat_unpackMantissa b]
 have htop : (@unpackExponent binary64 b).toNat = 2047 ↔ @unpackExponent binary64 b = -1#11 :=
  @BitVec.toNat_inj 11 _ (-1#11)
 have hzero : ∀ {w} (v : BitVec w), v.toNat = 0 ↔ v = 0#w :=
  fun v => by rw [← BitVec.toNat_inj]; simp
 simp only [htop,hzero]
 split
 · split <;> rfl
 split
 · next hlea =>
   split
   · next hnil =>
     rw [hnil]
     rfl
   · rw [partsOf,hlea,hbias]
     rfl
 · have hm : (1#1 ++ @unpackMantissa binary64 b).toNat = (@unpackMantissa binary64 b).toNat +
    2 ^ 52 := by
    rw [BitVec.toNat_append,← Nat.shiftLeft_add_eq_or_of_lt (BitVec.isLt _),add_comm]
    rfl
   rw [partsOf,hbias,hm]
   rfl

lemma packable_unpack (x : Float) : Packable x.toModel.unpack := by
 have hpar := parts_eq x
 rw [parts] at hpar
 cases hu : x.toModel.unpack with
 | finite =>
  simp only [hu,partsOf,Nat.pow_eq] at hpar
  split at hpar
  · split at hpar <;> cases hpar
  split at hpar
  all_goals
   obtain ⟨-,rfl,rfl⟩ := Decimal.Binary.mk.inj (Decimal.Parts.finite.inj hpar)
   refine ⟨?_,?_,?_,?_⟩ <;> omega
 | _ => trivial

lemma truncate?_of_parts {b : Decimal.Binary} (hb : parts x = .finite b) (he : -1074 ≤ b.exponent) :
 truncate? x = some (if b.negative then -((units b.mantissa b.exponent / perOne : Nat) : Int)
  else ((units b.mantissa b.exponent / perOne : Nat) : Int)) := by
 obtain ⟨negative,m,e⟩ := b
 rw [truncate?,hb]
 cases e with
 | ofNat k =>
  have hdiv : ∀ j, m * 2 ^ (k + j) / 2 ^ j = m * 2 ^ k := fun j => by
   rw [Nat.pow_add,← Nat.mul_assoc,Nat.mul_div_cancel _ (two_pow_pos j)]
  have hwho : units m (Int.ofNat k) / perOne = m * 2 ^ k := by
   rw [units,perOne,show (Int.ofNat k + 1074).toNat = k + 1074 by simp; omega,hdiv]
  rw [hwho]
  rfl
 | negSucc k =>
  have hdiv : ∀ j, m * 2 ^ j / 2 ^ (k + 1 + j) = m / 2 ^ (k + 1) := fun j => by
   rw [Nat.pow_add,Nat.mul_div_mul_right _ _ (two_pow_pos j)]
  have hwho : units m (Int.negSucc k) / perOne = m / 2 ^ (k + 1) := by
   dsimp only at he
   obtain ⟨j,hj⟩ : ∃ j, 1074 = k + 1 + j := ⟨1074 - (k + 1),by omega⟩
   rw [units,perOne,show (Int.negSucc k + 1074).toNat = j by omega,hj,hdiv]
  rw [hwho]
  rfl

-- How many units make one does not matter any more either.
attribute [irreducible] perOne

lemma truncate?_eq_some (h : truncate? x = some z) :
 x.toModel.unpack.isFinite ∧ z = (rank x.toModel.unpack).tdiv (perOne : Int) := by
 have hpar := parts_eq x
 have hpac := packable_unpack x
 generalize x.toModel.unpack = u at hpar hpac ⊢
 have hsign : ∀ (s : Sign) (n : Nat), (if (s == .negative) = true then -((n / perOne : Nat) : Int)
  else ((n / perOne : Nat) : Int)) = (s.apply n).tdiv (perOne : Int) := by
  intro s n
  generalize perOne = d
  cases s <;> simp [Sign.apply]
 cases u with
 | notANumber =>
  rw [truncate?,hpar] at h
  cases h
 | infinity s =>
  rw [truncate?,hpar] at h
  cases h
 | zero s =>
  rw [truncate?_of_parts hpar (by simp)] at h
  have hzero : units 0 (-1074) = 0 := zero_mul _
  have happ : s.apply ((0 : Nat) : Int) = 0 := by cases s <;> rfl
  exact ⟨rfl,(Option.some.inj h).symm.trans
   ((hsign s (units 0 (-1074))).trans (by rw [hzero,happ,rank]))⟩
 | finite s m e hm =>
  rw [truncate?_of_parts hpar hpac.2.1] at h
  exact ⟨rfl,(Option.some.inj h).symm.trans (hsign s (units m e))⟩

end

variable {x y : Float} {u w : UnpackedFloat}

lemma signedRounded_zero (d : Nat) : signedRounded 0 d = 0 := by simp [signedRounded]

lemma isFinite_pack (h : (Model.pack u).unpack.isFinite) : u.isFinite := by
 cases u with
 | notANumber => exact h
 | infinity s =>
  rw [unpack_pack_infinity] at h
  exact h
 | zero => rfl
 | finite => rfl

lemma isFinite_of_mul (h : (mul binary64 u w).isFinite) : u.isFinite ∧ w.isFinite := by
 cases u <;> cases w <;> first
  | exact ⟨rfl,rfl⟩
  | cases h

lemma stands_mul_of_isFinite (hu : Canonical u) (hw : Canonical w) (hu' : u.isFinite)
 (hw' : w.isFinite) :
 Stands (mul binary64 u w) (signedRounded (rank u * rank w) perOne) := by
 have hzero : ∀ s, Stands (.zero s) (signedRounded 0 perOne) :=
  fun s => (signedRounded_zero _).symm ▸ stands_zero s
 cases u <;> cases w <;> first
  | (cases hu'; done)
  | (cases hw'; done)
  | exact stands_mul hu hw
  | (simp only [rank,zero_mul,mul_zero]
     exact hzero _)

section
variable {k : Nat}

lemma apply_mantissaOf (hk : 0 < k) (hlt : k < 2 ^ 53) :
 Sign.positive.apply (units (mantissaOf k) (k.log2 - 52)) = (k * perOne : Int) := by
 have hlog := (log2_lt hk.ne').2 hlt
 have huni : units (mantissaOf k) (k.log2 - 52) = k * perOne := by
  rw [units,mantissaOf,perOne,mul_assoc,← pow_add]
  congr 2
  omega
 rw [Sign.apply,huni,Nat.cast_mul]

lemma canonical_whole (hk : 0 < k) (hlt : k < 2 ^ 53) : Canonical (whole k hk) := by
 have hlog := log2_mantissaOf hk hlt
 have hpos := (mantissaOf_pos hk).ne'
 exact ⟨(log2_lt hpos).1 (by omega),by omega,.inl ((Nat.le_log2 hpos).1 hlog.ge)⟩

lemma Stands.eq_whole {z : Int} (hu : Stands u (signedRounded z d)) (hk : 0 < k) (hlt : k < 2 ^ 53)
 (hd : 0 < d)
 (hz : z = k * perOne * d) : u = whole k hk := by
 have hrou : signedRounded z d = (k * perOne : Nat) := by
  have hexa := apply_binaryRounded (s := .positive) (k * perOne * d) d
  rw [Sign.apply,Sign.apply,perOne,Decimal.binaryRounded_exact hlt 1074 hd] at hexa
  rw [hz,perOne,hexa]
  norm_cast
 rw [hrou] at hu
 obtain ⟨hcan,hnum,hran⟩ := hu
 obtain ⟨hm,he,hfull⟩ := canonical_whole hk hlt
 have hpos : 0 < k * perOne := mul_pos hk perOne_pos
 have hown := apply_mantissaOf hk hlt
 have hlim := units_lt_summit hm (e := k.log2 - 52) (by have := (log2_lt hk.ne').2 hlt; omega)
 cases u with
 | notANumber => exact absurd rfl hnum
 | zero s => simp only [rank] at hran; omega
 | infinity s => cases s <;> simp only [rank,Sign.apply] at hran hown <;> omega
 | finite s m e hm' =>
  cases s with
  | negative => simp only [rank,Sign.apply] at hran; omega
  | positive =>
   have hcom := compare_units hcan.1 hm hcan.2.1 he hcan.2.2 hfull
   have heq : units m e = units (mantissaOf k) (k.log2 - 52) := by
    simp only [rank,Sign.apply] at hran hown
    omega
   rw [heq,compare_eq_eq.2 rfl,Ordering.then_eq_eq,Int.compare_eq_eq,compare_eq_eq] at hcom
   obtain ⟨rfl,rfl⟩ := hcom
   rfl

lemma ofNat_whole (hk : 0 < k) (hlt : k < 2 ^ 53) :
 Float.ofNat k = .ofModel (.pack (whole k hk)) := by
 have hone : (Float.ofBits 0x3FF0000000000000).toModel.unpack = whole 1 one_pos := rfl
 have hfast : Float.ofNat k = k.toUInt64.toFloat * Float.ofBits 0x3FF0000000000000 := by
  change Float.ofScientific k false 0 = _
  rw [Float.ofScientific,dif_pos ⟨hlt,by omega⟩]
  rfl
 have hword : k.toUInt64.toNat = k := by
  rw [Nat.toUInt64,UInt64.toNat_ofNat',Nat.mod_eq_of_lt (by omega)]
 have hnor : UnpackedFloat.normalize binary64 k 0 .positive = whole k hk :=
  (stands_normalize k (by decide)).eq_whole hk hlt Nat.one_pos (by
   rw [perOne,Nat.cast_one,mul_one,Nat.cast_pow]; rfl)
 have hmul : mul binary64 (whole k hk) (whole 1 one_pos) = whole k hk := by
  refine (stands_mul (canonical_whole hk hlt) (canonical_whole one_pos (by decide))).eq_whole hk hlt
   perOne_pos ?_
  rw [apply_mantissaOf hk hlt,apply_mantissaOf one_pos (by decide),Nat.cast_one,one_mul]
 have hflo : k.toUInt64.toFloat = .ofModel (.pack (whole k hk)) := by
  rw [UInt64.toFloat,Float.Model.ofUInt64,UnpackedFloat.ofUInt64,hword,UnpackedFloat.ofNat,
   UnpackedFloat.ofInt,hnor]
 rw [hfast,hflo]
 change Float.ofModel (.pack (mul binary64 (Float.Model.pack (whole k hk)).unpack _)) = _
 rw [hone,unpack_pack_whole hk hlt,hmul]

lemma unpack_ofNat (hk : 0 < k) (hlt : k < 2 ^ 53) :
 (Float.ofNat k).toModel.unpack = whole k hk := by
 rw [ofNat_whole hk hlt]
 exact unpack_pack_whole hk hlt

end

lemma unpack_two : (2.0).toModel.unpack = .finite .positive (2 ^ 52) (-51) (two_pow_pos 52) := by
 have htwo : 2.0 = Float.ofNat 2 := by decide +kernel
 rw [htwo,unpack_ofNat two_pos (by omega)]
 rfl

lemma half_minus_one {k : Nat} (hlt : 2 * (k + 1) < 2 ^ 53) :
 Float.ofNat (2 * (k + 1)) / 2.0 - 1.0 = Float.ofNat k := by
 have hone : 1.0 = Float.ofNat 1 := by decide +kernel
 have hdiv : UnpackedFloat.div binary64 (whole (2 * (k + 1)) (by omega)) (2.0).toModel.unpack =
  whole (k + 1) k.succ_pos := by
  rw [unpack_two]
  refine (stands_div_two_pow (canonical_whole (by omega) hlt) (j :=
   1) (by omega)).eq_whole k.succ_pos (by omega) Nat.two_pos ?_
  rw [apply_mantissaOf (by omega) hlt]
  push_cast
  ring
 have hval : ∀ x y z : Float, x / y - z =
  .ofModel (.pack (sub binary64 (Float.Model.pack (UnpackedFloat.div binary64
  x.toModel.unpack y.toModel.unpack)).unpack z.toModel.unpack)) := fun _ _ _ => rfl
 rw [hval,hone,unpack_ofNat (by omega) hlt,hdiv,unpack_pack_whole _ (by omega),
  unpack_ofNat one_pos (by omega)]
 cases k with
 | zero => decide +kernel
 | succ k =>
  have hsub : sub binary64 (whole (k + 1 + 1) (by omega)) (whole 1 one_pos) =
   whole (k + 1) k.succ_pos := by
   refine (stands_sub (canonical_whole (by omega) (by omega))
    (canonical_whole one_pos (by decide))).eq_whole k.succ_pos
    (by omega) Nat.one_pos ?_
   rw [apply_mantissaOf (by omega) (by omega),apply_mantissaOf one_pos (by decide)]
   push_cast
   ring
  rw [hsub,ofNat_whole k.succ_pos (by omega)]

lemma stands_half (hu : Canonical u)
 (h : (UnpackedFloat.div binary64 u (2.0).toModel.unpack).isFinite) :
 u.isFinite ∧
  Stands (UnpackedFloat.div binary64 u (2.0).toModel.unpack) (signedRounded (rank u) 2) := by
 rw [unpack_two] at h ⊢
 cases u with
 | notANumber => cases h
 | infinity s => cases h
 | zero s => exact ⟨rfl,(signedRounded_zero 2).symm ▸ stands_zero _⟩
 | finite => exact ⟨rfl,stands_div_two_pow (j := 1) hu (by have := hu.2.1; omega)⟩

lemma ofNat_pos {k : Nat} (hk : 0 < k) :
 (Float.ofNat k).toModel.unpack ≠ .notANumber ∧ 0 < rank (Float.ofNat k).toModel.unpack := by
 rcases lt_or_ge k (2 ^ 53) with hlt | hge
 · rw [unpack_ofNat hk hlt]
   exact ⟨by simp [whole],Int.natCast_pos.2 (mul_pos (mantissaOf_pos hk) (two_pow_pos _))⟩
 · have hslow : (Float.ofNat k).toModel = .pack (UnpackedFloat.ofScientific binary64 k 0) := by
    change (Float.ofScientific k false 0).toModel = _
    rw [Float.ofScientific,dif_neg (by omega)]
    rfl
   have hrou : UnpackedFloat.ofScientific binary64 k 0 =
    roundWithAccuracy binary64 .positive (k * 2 ^ 53) (-53) .exact := by
    have hbou : ¬(0 : Int) < -((2 ^ binary64.exponentBits : Int) + k.log2) := by
     simp only
     omega
    rw [UnpackedFloat.ofScientific,dif_neg (by omega),if_neg (by decide),if_neg hbou,
     if_pos (le_refl 0)]
    rw [mul_finite,shiftLeft_eq,Int.toNat_zero,pow_zero,mul_one,add_zero]
    rfl
   have hlog : 53 ≤ k.log2 := (Nat.le_log2 (by omega)).2 hge
   have hsta := (stands_whole (m := k * 2 ^ 53) (e := -53) (s := .positive)
    (.inl (by rw [log2_mul_two_pow (by omega)]; omega))).pack
   have hone : 1 ≤ binaryRounded (k * 2 ^ 53 * 2 ^ (-53 + 1074 : Int).toNat)
    (2 ^ (-(-53 + 1074) : Int).toNat) := by
    refine Nat.le_trans (by decide) (Decimal.binaryRounded_mono (n :=
     1) Nat.one_pos (two_pow_pos _) ?_)
    exact mul_pos (mul_pos (mul_pos hk (two_pow_pos _)) (two_pow_pos _)) one_pos
   rw [hslow,hrou]
   refine ⟨hsta.number,?_⟩
   rw [hsta.place,clamped,Sign.apply]
   have := summit_pos
   omega

lemma ofNat_zero : (Float.ofNat 0).toModel.unpack = .zero .positive := by
 rw [show Float.ofNat 0 = Float.ofBits 0 by decide +kernel]
 rfl

lemma ofInt_nonneg {n : Int} (hn : 0 ≤ n) :
 (Float.ofInt n).toModel.unpack ≠ .notANumber ∧ 0 ≤ rank (Float.ofInt n).toModel.unpack := by
 obtain ⟨k,rfl⟩ := Int.eq_ofNat_of_zero_le hn
 change (Float.ofNat k).toModel.unpack ≠ .notANumber ∧ 0 ≤ rank (Float.ofNat k).toModel.unpack
 rcases eq_zero_or_pos k with rfl | hpos
 · rw [ofNat_zero]
   exact ⟨by simp,le_refl 0⟩
 · exact (ofNat_pos hpos).imp id le_of_lt

lemma lt_iff_compare : x < y ↔ x.toModel.unpack.compare y.toModel.unpack = some .lt := by
 have hlt : x < y ↔ (x.toModel.unpack.compare y.toModel.unpack == some .lt) := decide_eq_true_iff
 rw [hlt,beq_iff_eq]

lemma le_iff_compare : x ≤ y ↔ (x.toModel.unpack.compare y.toModel.unpack).any (·.isLE) :=
 decide_eq_true_iff

lemma lt_iff (hx : x.toModel.unpack ≠ .notANumber) (hy : y.toModel.unpack ≠ .notANumber) :
 x < y ↔ rank x.toModel.unpack < rank y.toModel.unpack := by
 rw [lt_iff_compare,compare_eq (packable_unpack _) (packable_unpack _) hx hy,Option.some_inj,
  Int.compare_eq_lt]

lemma beq_iff_compare : (x == y) ↔ x.toModel.unpack.compare y.toModel.unpack = some .eq := by
 rw [show (x == y) = (x.toModel.unpack.compare y.toModel.unpack == some .eq) from rfl,beq_iff_eq]

lemma beq_iff (hx : x.toModel.unpack ≠ .notANumber) (hy : y.toModel.unpack ≠ .notANumber) :
 (x == y) ↔ rank x.toModel.unpack = rank y.toModel.unpack := by
 rw [beq_iff_compare,compare_eq (packable_unpack _) (packable_unpack _) hx hy,Option.some_inj,
  Int.compare_eq_eq]

lemma not_nan_of_lt (h : x < y) : x.toModel.unpack ≠ .notANumber := by
 intro hnan
 rw [lt_iff_compare,hnan] at h
 cases h

lemma unpack_of_nonneg (h : 0.0 ≤ x) : (∃ s, x.toModel.unpack = .zero s) ∨
 x.toModel.unpack = .infinity .positive ∨
 ∃ m e hm, x.toModel.unpack = .finite .positive m e hm := by
 have hzero : (0.0).toModel.unpack = .zero .positive := by
  rw [show 0.0 = Float.ofBits 0 by decide +kernel]
  rfl
 rw [le_iff_compare,hzero] at h
 generalize x.toModel.unpack = u at h
 cases u with
 | notANumber => cases h
 | infinity s =>
  cases s with
  | negative => cases h
  | positive => exact .inr (.inl rfl)
 | zero s => exact .inl ⟨s,rfl⟩
 | finite s m e hm =>
  cases s with
  | negative => cases h
  | positive => exact .inr (.inr ⟨m,e,hm,rfl⟩)

lemma stands_infinity (s : Sign) : Stands (.infinity s) (s.apply summit) := ⟨trivial,by simp,rfl⟩

lemma stands_finite {s : Sign} {m : Nat} {e : Int} {hm : 0 < m} (h : Canonical (.finite s m e hm)) :
 Stands (.finite s m e hm) (s.apply (units m e)) := ⟨h,by simp,rfl⟩

lemma stands_sub_le_add (hu : Canonical u) (hw : Canonical w)
 (hpos : (∃ s, w = .zero s) ∨ w = .infinity .positive ∨ ∃ m e hm, w = .finite .positive m e hm) :
 (sub binary64 u w = .notANumber ∧
  (add binary64 u w = .notANumber ∨ add binary64 u w = .infinity .positive)) ∨
 add binary64 u w = .notANumber ∨
 ∃ a b, a ≤ b ∧ Stands (sub binary64 u w) a ∧ Stands (add binary64 u w) b := by
 rcases hpos with ⟨s,rfl⟩ | rfl | ⟨m,e,hm,rfl⟩
 · cases u with
   | notANumber => exact .inl ⟨rfl,.inl rfl⟩
   | infinity s' => exact .inr (.inr ⟨_,_,le_refl _,stands_infinity s',stands_infinity s'⟩)
   | zero s' =>
    refine .inr (.inr ⟨0,0,le_refl _,?_,?_⟩)
    · cases s <;> cases s' <;> exact stands_zero _
    · cases s <;> cases s' <;> exact stands_zero _
   | finite s' m e hm => exact .inr (.inr ⟨_,_,le_refl _,stands_finite hu,stands_finite hu⟩)
 · have hle : Sign.negative.apply summit ≤ Sign.positive.apply summit := by
    simp only [Sign.apply]
    omega
   cases u with
   | notANumber => exact .inl ⟨rfl,.inl rfl⟩
   | infinity s' =>
    cases s' with
    | negative => exact .inr (.inl rfl)
    | positive => exact .inl ⟨rfl,.inr rfl⟩
   | zero s' => exact .inr (.inr ⟨_,_,hle,stands_infinity .negative,stands_infinity .positive⟩)
   | finite s' m e hm =>
    exact .inr (.inr ⟨_,_,hle,stands_infinity .negative,stands_infinity .positive⟩)
 · cases u with
   | notANumber => exact .inl ⟨rfl,.inl rfl⟩
   | infinity s' => exact .inr (.inr ⟨_,_,le_refl _,stands_infinity s',stands_infinity s'⟩)
   | zero s' =>
    refine .inr (.inr ⟨_,_,?_,stands_finite hw,stands_finite hw⟩)
    simp only [Sign.apply]
    omega
   | finite s' m' e' hm' =>
    refine .inr (.inr ⟨_,_,Decimal.signedRounded_mono one_pos ?_,stands_sub hu hw,stands_add hu hw⟩)
    simp only [Sign.apply]
    omega

end Binary64
end MotifMatch
