import Mathlib

namespace MotifMatch
open Float.Model Float.Model.UnpackedFloat
-- the whole library is imported for unpackSign_packComponents, which no smaller part of it brings
open Format (binary64 targetExponent mantissaBits minExponent exponentBias)
variable {m n : Nat} {e : Int}

lemma log2_mul_two_pow (hm : 0 < m) (j : Nat) : (m * 2 ^ j).log2 = m.log2 + j := by
 induction j with
 | zero => simp
 | succ j ih =>
  have hpos : m * 2 ^ j ≠ 0 := (mul_pos hm (Nat.two_pow_pos j)).ne'
  rw [pow_succ,← mul_assoc,mul_comm _ 2,Nat.log2_two_mul hpos,ih,add_assoc]

lemma shiftRight_exact (m j : Nat) :
 ExtendedMantissa.ofMantissaAndAccuracy (m * 2 ^ j) .exact >>> j = ⟨m,false,false⟩ := by
 change j.repeat ExtendedMantissa.shiftRightOne _ = _
 induction j generalizing m with
 | zero => simp [Nat.repeat,ExtendedMantissa.ofMantissaAndAccuracy]
 | succ j ih =>
  rw [Nat.repeat,Nat.pow_succ,Nat.mul_comm (2 ^ j),← Nat.mul_assoc,ih (m * 2)]
  simp [ExtendedMantissa.shiftRightOne]

lemma shiftToTargetExponent_exact (hm : m.log2 = 52) (he : -1074 ≤ e) (j : Nat) :
 shiftToTargetExponent binary64 (m * 2 ^ j) (e - j) .exact = (⟨m,false,false⟩,e) := by
 have hpos : 0 < m := pos_of_ne_zero (by rintro rfl; simp at hm)
 have htar : binary64.targetExponent (totalExponent (m * 2 ^ j) (e - j)) = e := by
  simp only [targetExponent,totalExponent,mantissaBits,minExponent,log2_mul_two_pow hpos,hm]
  omega
 simp only [shiftToTargetExponent,htar,shiftToExponent]
 rw [show (e - (e - j)).toNat = j by omega,shiftRight_exact,show e - j + j = e by omega]

lemma unpack_pack (s : Sign) (hm : m.log2 = 52) (he : -1074 ≤ e) (he' : e ≤ 971) (hpos : 0 < m) :
 (Float.Model.pack (.finite s m e hpos)).unpack = .finite s m e hpos := by
 obtain ⟨k,rfl⟩ : ∃ k : Nat, e = k - 1074 := ⟨(e + 1074).toNat,by omega⟩
 have hexp : ((k : Int) - 1074 + binary64.exponentBias +
  binary64.mantissaBitsWithoutImplicit).toNat = k + 1 := by
  simp only [exponentBias]
  omega
 have hlow : 2 ^ 52 ≤ m := (Nat.le_log2 hpos.ne').1 hm.ge
 have hhigh : m < 2 ^ 53 := (Nat.log2_lt hpos.ne').1 (by omega)
 have hpack : UnpackedFloat.pack binary64 (.finite s m (k - 1074) hpos) =
  packComponents binary64 s (BitVec.ofNat _ (k + 1)) (BitVec.ofNat _ m) := by
  simp only [UnpackedFloat.pack,hexp,hm,mantissaBits]
  rw [if_neg (by omega),if_pos trivial]
 have hk : (BitVec.ofNat 11 (k + 1)).toNat = k + 1 := by
  rw [BitVec.toNat_ofNat,Nat.mod_eq_of_lt (by omega)]
 have hmant : (1#1 ++ BitVec.ofNat 52 m).toNat = m := by
  rw [BitVec.toNat_append,← Nat.shiftLeft_add_eq_or_of_lt (BitVec.isLt _),BitVec.toNat_ofNat,
   Nat.shiftLeft_eq]
  simp only [BitVec.toNat_ofNat]
  omega
 rw [Float.Model.unpack,Float.Model.pack]
 simp only [hpack,UnpackedFloat.unpack,unpackMantissa_packComponents,
  unpackExponent_packComponents,unpackSign_packComponents]
 have hbia : ((k + 1 : Nat) : Int) - (binary64.exponentBias + (52 : Nat)) = k - 1074 := by
  simp only [exponentBias]
  omega
 have hnan : BitVec.ofNat 11 (k + 1) ≠ -1#11 := fun h => by
  have : k = 2046 := by simpa [hk] using congrArg BitVec.toNat h
  omega
 have hsub : BitVec.ofNat 11 (k + 1) ≠ 0#11 := fun h => by simpa [hk] using congrArg BitVec.toNat h
 rw [if_neg hnan,if_neg hsub]
 simp only [hk,hmant,hbia]
 cases s <;> rfl

def mantissaOf (n : Nat) : Nat := n * 2 ^ (52 - n.log2)

lemma mantissaOf_pos (hn : 0 < n) : 0 < mantissaOf n := mul_pos hn (Nat.two_pow_pos _)

lemma log2_mantissaOf (hn : 0 < n) (hlt : n < 2 ^ 53) : (mantissaOf n).log2 = 52 := by
 have := (Nat.log2_lt hn.ne').2 hlt
 rw [mantissaOf,log2_mul_two_pow hn]
 omega

def whole (n : Nat) (hn : 0 < n) : UnpackedFloat :=
 .finite .positive (mantissaOf n) (n.log2 - 52) (mantissaOf_pos hn)

lemma unpack_pack_whole (hn : 0 < n) (hlt : n < 2 ^ 53) :
 (Float.Model.pack (whole n hn)).unpack = whole n hn := by
 have := (Nat.log2_lt hn.ne').2 hlt
 exact unpack_pack .positive (log2_mantissaOf hn hlt) (by omega) (by omega) _

end MotifMatch
