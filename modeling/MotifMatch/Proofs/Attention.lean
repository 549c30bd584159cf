import MotifMatch.Proofs.Tensors

namespace MotifMatch.Tensor
variable {α : Type} [Scalar α]

lemma sumTo_congr {n : Nat} {f g : Nat → α} (h : ∀ i < n, f i = g i) : sumTo n f = sumTo n g := by
 induction n with
 | zero => rfl
 | succ n ih =>
  rw [sumTo,sumTo,Nat.fold_succ,Nat.fold_succ,← sumTo,← sumTo,ih fun i hi => h i (by omega),
   h n (by omega)]

end MotifMatch.Tensor

namespace MotifMatch.Network
open Finset (range)
open Finset (sum_congr mem_range sum_nonneg)
open Real (exp exp_pos exp_add)
open Tensor (tiny sigmoid entry_build place_lt place_lt_pair place_lt_volume place_div place_mod sumTo sumTo_real build mark tiny_pos)

lemma Linear.image_congr {l : Linear ℝ} {row row' : Nat → ℝ}
 (h : ∀ i < l.inputs, row i = row' i) (o : Nat) :
 l.image row o = l.image row' o := by
 simp only [Linear.image]
 rw [Tensor.sumTo_congr fun i hi => by rw [h i hi]]

namespace Layer
section
variable (l : Layer ℝ) (n extra : Nat)

noncomputable def headed (x : Nat → Nat → ℝ) (i a c : Nat) : ℝ :=
 l.embedding.image (x i) (a * l.width + c)

noncomputable def score (h : Nat → Nat → Nat → ℝ) (i a j : Nat) : ℝ :=
 ∑ c ∈ range l.width, (∑ m ∈ range l.width, h i a m * l.scores.entry (m * l.width + c)) * h j a c

noncomputable def balanced (e : Nat → Nat → Nat → ℝ) (i a j : Nat) : ℝ :=
 if l.directed then e i a j else e i a j + e j a i

noncomputable def peak (s : Nat → ℝ) : ℝ :=
 (List.range extra).foldl (fun m _ => max m 0) ((List.range n).foldl (fun m j => max m (s j)) (s 0))

noncomputable def share (s : Nat → ℝ) (i : Nat) : ℝ :=
 exp (s i - peak n extra s) /
  (∑ j ∈ range n, exp (s j - peak n extra s) + extra * exp (0 - peak n extra s) + tiny)

noncomputable def weight (adj : Nat → Nat → ℝ) (e : Nat → Nat → Nat → ℝ) (i a j : Nat) : ℝ :=
 share n extra (fun k => if 0 < adj k j then e k a j else 0) i * adj i j

noncomputable def gathered (w z : Nat → Nat → Nat → ℝ) (i a c : Nat) : ℝ :=
 max 0 (∑ j ∈ range n, w i a j * z j a c)

noncomputable def hold (h y : Nat → Nat → Nat → ℝ) (i a : Nat) : ℝ :=
 sigmoid (l.gate.image (fun c => if c < l.width then h i a c else y i a (c - l.width)) 0)

noncomputable def settled (w h : Nat → Nat → Nat → ℝ) (b : Nat → Nat → ℝ) :
 Nat → (Nat → Nat → Nat → ℝ) → Nat → Nat → Nat → ℝ
 | 0, z => z
 | m + 1, z => settled w h b m fun i a c => b i a * h i a c + (1 - b i a) * gathered n w z i a c

noncomputable def merged (z : Nat → Nat → Nat → ℝ) (i c : Nat) : ℝ :=
 match l.merging with
 | none => (∑ a ∈ range l.heads, z i a c) / l.heads
 | some m => m.image (fun k => z i (k / l.width) (k % l.width)) c

noncomputable def weights (x adj : Nat → Nat → ℝ) : Nat → Nat → Nat → ℝ :=
 weight n extra adj (l.balanced (l.score (l.headed x)))

noncomputable def regard (x adj : Nat → Nat → ℝ) (i j : Nat) : ℝ :=
 (∑ a ∈ range l.heads, l.weights n extra x adj i a j) / l.heads

noncomputable def among (x adj : Nat → Nat → ℝ) : Nat → Nat → ℝ :=
 let h := l.headed x
 let w := l.weights n extra x adj
 l.merged (settled n w h (l.hold h (gathered n w h)) l.hops h)

end

variable {i j : Nat}
section
variable {l : Layer ℝ} {n b c : Nat} {t : Tensor ℝ} {f : Nat → Nat → Nat → ℝ}
 {w y : Nat → Nat → Nat → ℝ}

def Cells (t : Tensor ℝ) (n b c : Nat) (f : Nat → Nat → Nat → ℝ) : Prop :=
 ∀ i < n, ∀ j < b, ∀ k < c, at3 t b c i j k = f i j k

lemma cells_build {g : Nat → ℝ} (h : ∀ i < n, ∀ j < b, ∀ k < c, g ((i * b + j) * c + k) = f i j k) :
 Cells (.build [n,b,c] g) n b c f := by
 intro i hi j hj k hk
 rw [at3,entry_build (place_lt_volume hi hj hk),h i hi j hj k hk]

lemma cells_embedded {x : Tensor ℝ} {rows : Nat → Nat → ℝ}
 (hx : ∀ i < n, ∀ c < l.embedding.inputs, x.entry (i * l.embedding.inputs + c) = rows i c) :
 Cells (l.embedded n x) n l.heads l.width (l.headed rows) := by
 refine cells_build fun i hi a ha c hc => ?_
 have hpla : (i * l.heads + a) * l.width + c = i * (l.heads * l.width) + (a * l.width + c) := by ring
 have hlt := place_lt ha hc
 dsimp only
 rw [hpla,place_div hlt,place_mod hlt,headed]
 exact Linear.image_congr (hx i hi) _

lemma cells_rawScores {h : Tensor ℝ} (hh : Cells h n l.heads l.width f) :
 Cells (l.rawScores n h) n l.heads n (l.score f) := by
 have hmov : Cells (.build [n,l.heads,l.width] fun k =>
  sumTo l.width fun m => h.entry (k / l.width * l.width + m) * l.scores.at2 l.width m (k % l.width))
  n l.heads l.width fun i a c => ∑ m ∈ range l.width, f i a m *
   l.scores.entry (m * l.width + c) := by
  refine cells_build fun i hi a ha c hc => ?_
  rw [sumTo_real,place_div hc,place_mod hc]
  refine sum_congr rfl fun m hm => ?_
  rw [← hh i hi a ha m (mem_range.1 hm)]
  rfl
 refine cells_build fun i hi a ha j hj => ?_
 rw [sumTo_real,place_div hj,place_mod hj,place_div ha,place_mod ha,score]
 refine sum_congr rfl fun c hc => ?_
 have hc := mem_range.1 hc
 exact congrArg₂ (fun x y : ℝ => x * y) (hmov i hi a ha c hc) (hh j hj a ha c hc)

lemma cells_balanced {e : Tensor ℝ} (he : Cells e n l.heads n f) :
 Cells (if l.directed then e else l.mutualScores n e) n l.heads n (l.balanced f) := by
 cases hdir : l.directed with
 | true =>
  intro i hi a ha j hj
  simpa [balanced,hdir] using he i hi a ha j hj
 | false =>
  rw [if_neg Bool.false_ne_true]
  refine cells_build fun i hi a ha j hj => ?_
  rw [place_div hj,place_mod hj,place_div ha,place_mod ha,balanced,hdir]
  exact congrArg₂ (fun x y : ℝ => x + y) (he i hi a ha j hj) (he j hj a ha i hi)

lemma at3_eq (t : Tensor ℝ) (b c i j k : Nat) :
 at3 t b c i j k = t.entry (i * (b * c) + (j * c + k)) := by
 rw [at3]
 congr 1
 ring

lemma entry_build_pair {g : Nat → ℝ} (hi : i < n) (hj : j < b) :
 (build [n,b] g).entry (i * b + j) = g (i * b + j) :=
 entry_build (place_lt_pair hi hj)

lemma entry_top (ht : Cells t n b c f) {j k : Nat} (hj : j < b) (hk : k < c) (hn : 0 < n) :
 (build [b,c] fun p =>
  (List.range n).foldl (fun m i => Scalar.larger m (t.entry (i * (b * c) + p))) (t.entry p)).entry
   (j * c + k) =
  peak n 0 fun i => f i j k := by
 have hcell : ∀ i < n, t.entry (i * (b * c) + (j * c + k)) = f i j k :=
  fun i hi => by rw [← at3_eq,ht i hi j hj k hk]
 have hfir : t.entry (j * c + k) = f 0 j k := by
  rw [← hcell 0 hn,zero_mul,zero_add]
 rw [entry_build_pair hj hk,peak,List.range_zero,List.foldl_nil,hfir]
 refine List.foldl_ext _ _ _ fun m i hi => ?_
 rw [Scalar.larger_real,hcell i (List.mem_range.1 hi)]

lemma cells_powers {top : Tensor ℝ} {g : Nat → Nat → ℝ} (ht : Cells t n b c f)
 (htop : ∀ j < b, ∀ k < c, top.entry (j * c + k) = g j k) :
 Cells (.build [n,b,c] fun p => Scalar.exp (t.entry p - top.entry (p % (b * c)))) n b c
  fun i j k => exp (f i j k - g j k) := by
 refine cells_build fun i hi j hj k hk => ?_
 have hpla : (i * b + j) * c + k = i * (b * c) + (j * c + k) := by ring
 rw [hpla,place_mod (place_lt hj hk),← at3_eq,ht i hi j hj k hk,htop j hj k hk]
 rfl

lemma entry_total (ht : Cells t n b c f) {j k : Nat} (hj : j < b) (hk : k < c) :
 (build [b,c] fun p => sumTo n fun i => t.entry (i * (b * c) + p)).entry (j * c + k) =
  ∑ i ∈ range n, f i j k := by
 rw [entry_build_pair hj hk,sumTo_real]
 refine sum_congr rfl fun i hi => ?_
 rw [← at3_eq,ht i (mem_range.1 hi) j hj k hk]

lemma cells_attention {e adj : Tensor ℝ} {joins : Nat → Nat → ℝ} (he : Cells e n l.heads n f)
 (hadj : ∀ i < n, ∀ j < n, adj.at2 n i j = joins i j) :
 Cells (l.attention n e adj) n l.heads n (weight n 0 joins f) := by
 have hmas : Cells (.build [n,l.heads,n] fun k =>
  e.entry k * mark (Scalar.lt Scalar.zero (adj.at2 n (k / n / l.heads) (k % n))))
  n l.heads n fun i a j => if 0 < joins i j then f i a j else 0 := by
  refine cells_build fun i hi a ha j hj => ?_
  rw [place_div hj,place_mod hj,place_div ha,hadj i hi j hj,Scalar.lt_real,Scalar.zero_real,
   Tensor.mark_real]
  refine (congrArg (fun x : ℝ => x * if 0 < joins i j then 1 else 0) (he i hi a ha j hj)).trans ?_
  simp
 refine cells_build fun i hi a ha j hj => ?_
 have hpow := cells_powers hmas fun a ha j hj => entry_top hmas ha hj (by omega)
 have hpo := hpow i hi a ha j hj
 have htot := entry_total hpow ha hj
 have hpla : (i * l.heads + a) * n + j = i * (l.heads * n) + (a * n + j) := by ring
 rw [place_div hj,place_mod hj,place_div ha,hadj i hi j hj,hpla,
  place_mod (place_lt ha hj),← at3_eq,hpo,htot,weight,share,Nat.cast_zero,zero_mul,add_zero]

lemma cells_averaged {att z : Tensor ℝ} (hatt : Cells att n l.heads n w)
 (hz : Cells z n l.heads l.width y) :
  Cells (l.averaged n att z) n l.heads l.width (gathered n w y) := by
 refine cells_build fun i hi a ha c hc => ?_
 dsimp only
 rw [place_div hc,place_mod hc,place_div ha,place_mod ha,Tensor.relu_real,sumTo_real,
  gathered]
 congr 1
 refine sum_congr rfl fun j hj => ?_
 have hj := mem_range.1 hj
 exact congrArg₂ (fun x y : ℝ => x * y) (hatt i hi a ha j hj) (hz j hj a ha c hc)

lemma entry_gates {h az : Tensor ℝ} {y : Nat → Nat → Nat → ℝ} (hgate : l.gate.inputs = l.width * 2)
 (hh : Cells h n l.heads l.width f) (haz : Cells az n l.heads l.width y) {i a : Nat} (hi : i < n)
 (ha : a < l.heads) :
 (l.gates n h az).entry (i * l.heads + a) = l.hold f y i a := by
 rw [gates,entry_build_pair hi ha,hold]
 refine congrArg sigmoid (Linear.image_congr (fun c hc => ?_) 0)
 split
 · next hlt => exact hh i hi a ha c hlt
 · next hge => exact haz i hi a ha (c - l.width) (by omega)

lemma cells_rounds {h att beta z : Tensor ℝ} {b : Nat → Nat → ℝ}
 (hh : Cells h n l.heads l.width f) (hatt : Cells att n l.heads n w)
 (hbeta : ∀ i < n, ∀ a < l.heads, beta.entry (i * l.heads + a) = b i a) (m : Nat)
 (hz : Cells z n l.heads l.width y) :
 Cells (l.rounds n h att beta m z) n l.heads l.width (settled n w f b m y) := by
 induction m generalizing z y with
 | zero => exact hz
 | succ m ih =>
  have haz := cells_averaged hatt hz
  refine ih (cells_build fun i hi a ha c hc => ?_)
  dsimp only
  rw [place_div hc,hbeta i hi a ha,← hh i hi a ha c hc,← haz i hi a ha c hc,← Scalar.one_real]
  rfl

lemma entry_joined {z : Tensor ℝ} (hmer : ∀ m, l.merging = some m → m.inputs = l.heads * l.width)
 (hz : Cells z n l.heads l.width f) {i c : Nat} (hi : i < n) (hc : c < l.width) :
 (l.joined n z).entry (i * l.width + c) = l.merged f i c := by
 cases h : l.merging with
 | none =>
  simp only [joined,merged,h]
  rw [entry_build_pair hi hc,place_div hc,place_mod hc,sumTo_real,Scalar.ofNat_real]
  exact congrArg (fun x : ℝ => x / l.heads)
   (sum_congr rfl fun a ha => hz i hi a (mem_range.1 ha) c hc)
 | some m =>
  simp only [joined,merged,h]
  rw [entry_build_pair hi hc,place_div hc,place_mod hc]
  refine Linear.image_congr (fun k hk => ?_) c
  rw [hmer m h] at hk
  have hwid : 0 < l.width := by omega
  have hhead : k / l.width < l.heads := Nat.div_lt_of_lt_mul (by rwa [mul_comm])
  rw [← hz i hi _ hhead _ (Nat.mod_lt k hwid),at3_eq,Nat.div_add_mod']

structure Fits (l : Layer ℝ) : Prop where
 gate : l.gate.inputs = l.width * 2
 merging : ∀ m, l.merging = some m → m.inputs = l.heads * l.width

section
variable {x adj : Tensor ℝ} {rows joins : Nat → Nat → ℝ}
 (hx : ∀ i < n, ∀ c < l.embedding.inputs, x.entry (i * l.embedding.inputs + c) = rows i c)
 (hadj : ∀ i < n, ∀ j < n, adj.at2 n i j = joins i j)
include hx hadj

lemma cells_weights : Cells (l.attention n (if l.directed then l.rawScores n (l.embedded n x)
 else l.mutualScores n (l.rawScores n (l.embedded n x))) adj) n l.heads n
  (l.weights n 0 rows joins) :=
 cells_attention (cells_balanced (cells_rawScores (cells_embedded hx))) hadj

lemma entry_nodes (hl : l.Fits) {i c : Nat} (hi : i < n) (hc : c < l.width) :
 (l.attend n x adj).nodes.entry (i * l.width + c) = l.among n 0 rows joins i c := by
 have hh := cells_embedded hx
 have hatt := cells_weights hx hadj
 refine entry_joined hl.merging (cells_rounds hh hatt (fun i hi a ha => ?_) l.hops hh) hi hc
 exact entry_gates hl.gate hh (cells_averaged hatt hh) hi ha

lemma entry_attention (hi : i < n) (hj : j < n) :
 (l.attend n x adj).attention.entry (i * n + j) = l.regard n 0 rows joins i j := by
 have hatt := cells_weights hx hadj
 refine (entry_build_pair hi hj).trans ?_
 rw [place_div hj,place_mod hj,sumTo_real,Scalar.ofNat_real]
 exact congrArg (fun y : ℝ => y / l.heads)
  (sum_congr rfl fun a ha => hatt i hi a (mem_range.1 ha) j hj)

end
end

section
variable {l : Layer ℝ} {n extra : Nat} {s : Nat → ℝ}

lemma peak_padded {s s' : Nat → ℝ} (hn : 0 < n) (hs : ∀ i < n, s i = s' i)
 (hzero : ∀ i, n ≤ i → i < n + extra → s i = 0) :
 peak (n + extra) 0 s = peak n extra s' := by
 rw [peak,peak,List.range_add,List.foldl_append,List.range_zero,List.foldl_nil,
  List.foldl_map,hs 0 hn]
 have hown : (List.range n).foldl (fun m j => max m (s j)) (s' 0) =
  (List.range n).foldl (fun m j => max m (s' j)) (s' 0) :=
  List.foldl_ext _ _ _ fun m j hj => by rw [hs j (List.mem_range.1 hj)]
 rw [hown]
 refine List.foldl_ext _ _ _ fun m j hj => ?_
 have hj := List.mem_range.1 hj
 rw [hzero (n + j) (by omega) (by omega)]

lemma share_padded {s s' : Nat → ℝ} (hs : ∀ i < n, s i = s' i)
 (hzero : ∀ i, n ≤ i → i < n + extra → s i = 0)
 (hi : i < n) : share (n + extra) 0 s i = share n extra s' i := by
 have hown : ∀ p : ℝ, ∑ j ∈ range n, exp (s j - p) = ∑ j ∈ range n, exp (s' j - p) := fun p =>
  sum_congr rfl fun j hj => by rw [hs j (mem_range.1 hj)]
 have hmore : ∀ p : ℝ, ∑ j ∈ range extra, exp (s (n + j) - p) = extra * exp (0 - p) := by
  intro p
  rw [sum_congr rfl fun j hj => by rw [hzero (n + j) (by omega) (by have := mem_range.1 hj; omega)]]
  simp
 rw [share,share,peak_padded (by omega) hs hzero,Finset.sum_range_add,hown,hmore,hs i hi,
  Nat.cast_zero,zero_mul,
  add_zero]

section
variable {x x' adj adj' : Nat → Nat → ℝ} (hx : ∀ i < n, ∀ c < l.embedding.inputs, x i c = x' i c)
 (hadj : ∀ i < n, ∀ j < n, adj i j = adj' i j)
 (hapa : ∀ i j, n ≤ i ∨ n ≤ j → i < n + extra → j < n + extra → adj i j = 0)
include hx in
lemma headed_congr (hi : i < n) (a c : Nat) : l.headed x i a c = l.headed x' i a c :=
 Linear.image_congr (hx i hi) _

include hx in
lemma balanced_congr (hi : i < n) (hj : j < n) (a : Nat) :
 l.balanced (l.score (l.headed x)) i a j = l.balanced (l.score (l.headed x')) i a j := by
 simp only [balanced,score,headed_congr hx hi,headed_congr hx hj]

include hx hadj hapa

lemma weights_padded (hi : i < n) (hj : j < n) (a : Nat) :
 l.weights (n + extra) 0 x adj i a j = l.weights n extra x' adj' i a j := by
 rw [weights,weight,weights,weight,hadj i hi j hj]
 congr 1
 refine share_padded (fun k hk => ?_) (fun k hk hlt => ?_) hi
 · rw [hadj k hk j hj,balanced_congr hx hk hj]
 · rw [hapa k j (.inl hk) hlt (by omega),if_neg (lt_irrefl 0)]

lemma gathered_padded {z z' : Nat → Nat → Nat → ℝ} (hz : ∀ j < n, ∀ a c, z j a c = z' j a c)
 (hi : i < n)
 (a c : Nat) : gathered (n + extra) (l.weights (n + extra) 0 x adj) z i a c =
  gathered n (l.weights n extra x' adj') z' i a c := by
 have hmore : ∀ j ∈ range extra, l.weights (n + extra) 0 x adj i a (n + j) * z (n + j) a c = 0 := by
  intro j hj
  have hj := mem_range.1 hj
  rw [weights,weight,hapa i (n + j) (.inr (by omega)) (by omega) (by omega),mul_zero,zero_mul]
 rw [gathered,gathered,Finset.sum_range_add,Finset.sum_eq_zero hmore,add_zero]
 congr 1
 refine sum_congr rfl fun j hj => ?_
 have hj := mem_range.1 hj
 rw [weights_padded hx hadj hapa hi hj,hz j hj]

lemma settled_padded {h h' z z' : Nat → Nat → Nat → ℝ} {b b' : Nat → Nat → ℝ}
 (hh : ∀ i < n, ∀ a c, h i a c = h' i a c)
 (hb : ∀ i < n, ∀ a, b i a = b' i a) (m : Nat) (hz : ∀ i < n, ∀ a c, z i a c = z' i a c) :
 ∀ i < n, ∀ a c, settled (n + extra) (l.weights (n + extra) 0 x adj) h b m z i a c =
  settled n (l.weights n extra x' adj') h' b' m z' i a c := by
 induction m generalizing z z' with
 | zero => exact hz
 | succ m ih =>
  -- A round reads the round before at own nodes only, since no further node is joined to one.
  refine ih fun i hi a c => ?_
  rw [hh i hi,hb i hi,gathered_padded hx hadj hapa hz hi]

lemma among_padded (hi : i < n) (c : Nat) :
 l.among (n + extra) 0 x adj i c = l.among n extra x' adj' i c := by
 have hh : ∀ i < n, ∀ a c, l.headed x i a c = l.headed x' i a c :=
  fun i hi a c => headed_congr hx hi a c
 have hhold : ∀ i < n, ∀ a, l.hold (l.headed x)
  (gathered (n + extra) (l.weights (n + extra) 0 x adj) (l.headed x)) i a =
  l.hold (l.headed x') (gathered n (l.weights n extra x' adj') (l.headed x')) i a := by
  intro i hi a
  simp only [hold,hh i hi,gathered_padded hx hadj hapa hh hi]
 have hset := settled_padded hx hadj hapa hh hhold l.hops hh
 simp only [among,merged,hset i hi]

lemma regard_padded (hi : i < n) (hj : j < n) :
 l.regard (n + extra) 0 x adj i j = l.regard n extra x' adj' i j := by
 simp only [regard,weights_padded hx hadj hapa hi hj]

end

lemma share_eq (s : Nat → ℝ) (i : Nat) : share n extra s i =
 exp (s i) / (∑ j ∈ range n, exp (s j) + extra + tiny * exp (peak n extra s)) := by
 have hpos := exp_pos (peak n extra s)
 rw [share,← mul_div_mul_right _ _ hpos.ne',add_mul,add_mul,Finset.sum_mul,
  mul_assoc,← exp_add,← exp_add]
 simp only [← exp_add,sub_add_cancel,Real.exp_zero,mul_one]

lemma share_pos (i : Nat) : 0 < share n extra s i := by
 have hsum : 0 ≤ ∑ j ∈ range n, exp (s j) := sum_nonneg fun j _ => (exp_pos _).le
 have hpos := mul_pos tiny_pos (exp_pos (peak n extra s))
 have hext : (0 : ℝ) ≤ extra := Nat.cast_nonneg extra
 rw [share_eq]
 exact div_pos (exp_pos _) (by linarith)

lemma share_lt_one (hi : i < n) : share n extra s i < 1 := by
 have hown : exp (s i) ≤ ∑ j ∈ range n, exp (s j) :=
  Finset.single_le_sum (f := fun j => exp (s j)) (fun j _ => (exp_pos _).le) (mem_range.2 hi)
 have hpos := mul_pos tiny_pos (exp_pos (peak n extra s))
 have hext : (0 : ℝ) ≤ extra := Nat.cast_nonneg extra
 have hless : exp (s i) < ∑ j ∈ range n, exp (s j) + extra + tiny *
  exp (peak n extra s) := by linarith
 rw [share_eq]
 exact (div_lt_one ((exp_pos _).trans hless)).2 hless

lemma peak_le (n extra : Nat) (s : Nat → ℝ) : peak n 0 s ≤ peak n extra s := by
 have h : ∀ (k : Nat) (m : ℝ), m ≤ (List.range k).foldl (fun m _ => max m 0) m := by
  intro k m
  induction k with
  | zero => exact le_rfl
  | succ k ih =>
   rw [List.range_succ,List.foldl_append]
   exact ih.trans (le_max_left _ _)
 exact h extra _

lemma share_lt (hext : 0 < extra) (i : Nat) : share n extra s i < share n 0 s i := by
 rw [share_eq,share_eq,Nat.cast_zero,add_zero]
 have hsum : 0 ≤ ∑ j ∈ range n, exp (s j) := sum_nonneg fun j _ => (exp_pos _).le
 have hpeak := mul_le_mul_of_nonneg_left (Real.exp_le_exp.2 (peak_le n extra s)) tiny_pos.le
 have hpos := mul_pos tiny_pos (exp_pos (peak n 0 s))
 have hmore : (0 : ℝ) < extra := Nat.cast_pos.2 hext
 exact div_lt_div_of_pos_left (exp_pos _) (by linarith) (by linarith)

lemma regard_lt {x adj : Nat → Nat → ℝ} (hext : 0 < extra) (hhea : 0 < l.heads)
 (hjoi : 0 < adj i j) :
 l.regard n extra x adj i j < l.regard n 0 x adj i j := by
 have hlt : ∀ a ∈ range l.heads, l.weights n extra x adj i a j < l.weights n 0 x adj i a j :=
  fun a _ =>
  mul_lt_mul_of_pos_right (share_lt hext i) hjoi
 exact div_lt_div_of_pos_right (Finset.sum_lt_sum_of_nonempty
  (Finset.nonempty_range_iff.2 hhea.ne') hlt)
  (Nat.cast_pos.2 hhea)

structure Padded (n extra f : Nat) (x adj x' adj' : Tensor ℝ) : Prop where
 rows : ∀ i < n, ∀ c < f, x'.at2 f i c = x.at2 f i c
 joins : ∀ i < n + extra, ∀ j < n + extra, adj'.at2 (n + extra) i j = if i < n ∧
  j < n then adj.at2 n i j else 0

section
variable {x adj x' adj' : Tensor ℝ} (h : Padded n extra l.embedding.inputs x adj x' adj')
include h

lemma Padded.own (hi : i < n) (hj : j < n) : adj'.at2 (n + extra) i j = adj.at2 n i j := by
 rw [h.joins i (by omega) j (by omega),if_pos ⟨hi,hj⟩]

lemma Padded.apart (hout : n ≤ i ∨ n ≤ j) (hi : i < n + extra) (hj : j < n + extra) :
 adj'.at2 (n + extra) i j = 0 := by
 rw [h.joins i hi j hj,if_neg (by omega)]

lemma Padded.nodes (hl : l.Fits) {i c : Nat} (hi : i < n) (hc : c < l.width) :
 (l.attend (n + extra) x' adj').nodes.at2 l.width i c = l.among n extra (x.at2 l.embedding.inputs)
  (adj.at2 n) i c :=
 (entry_nodes (fun _ _ _ _ => rfl) (fun _ _ _ _ => rfl) hl (by omega) hc).trans
  (among_padded h.rows (fun _ hi _ hj => h.own hi hj)
   (fun _ _ hout hi hj => h.apart hout hi hj) hi c)

lemma Padded.attention (hi : i < n) (hj : j < n) :
 (l.attend (n + extra) x' adj').attention.at2 (n + extra) i j =
  l.regard n extra (x.at2 l.embedding.inputs) (adj.at2 n) i j :=
 (entry_attention (fun _ _ _ _ => rfl) (fun _ _ _ _ => rfl) (by omega) (by omega)).trans
  (regard_padded h.rows (fun _ hi _ hj => h.own hi hj)
   (fun _ _ hout hi hj => h.apart hout hi hj) hi hj)

lemma Padded.attention_lt (hext : 0 < extra) (hhea : 0 < l.heads) (hi : i < n) (hj : j < n)
 (hjoi : 0 < adj.at2 n i j) :
 (l.attend (n + extra) x' adj').attention.at2 (n + extra) i j <
  (l.attend n x adj).attention.at2 n i j := by
 have halo : (l.attend n x adj).attention.at2 n i j = l.regard n 0 (x.at2 l.embedding.inputs)
  (adj.at2 n) i j :=
  entry_attention (fun _ _ _ _ => rfl) (fun _ _ _ _ => rfl) hi hj
 rw [h.attention hi hj,halo]
 exact regard_lt hext hhea hjoi

end
end
end Layer
end MotifMatch.Network
