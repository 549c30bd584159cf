import Mathlib.Analysis.SpecialFunctions.Pow.Real
import MotifMatch.Network.Layer

namespace MotifMatch
open Finset (range)

noncomputable instance : Scalar ℝ where
 ofInt := Int.cast
 ofScientific m s e := OfScientific.ofScientific m s e
 add x y := x + y
 sub x y := x - y
 mul x y := x * y
 div x y := x / y
 neg x := -x
 exp := Real.exp
 log := Real.log
 sqrt := Real.sqrt
 power x y := x ^ y
 lt x y := decide (x < y)
 eq x y := decide (x = y)

namespace Scalar

@[simp] lemma zero_real : (zero : ℝ) = 0 := Int.cast_zero

@[simp] lemma one_real : (one : ℝ) = 1 := Int.cast_one

@[simp] lemma ofNat_real (n : Nat) : (ofNat n : ℝ) = n := Int.cast_natCast n

@[simp] lemma lt_real (x y : ℝ) : Scalar.lt x y = decide (x < y) := rfl

@[simp] lemma eq_real (x y : ℝ) : Scalar.eq x y = decide (x = y) := rfl

lemma larger_real (x y : ℝ) : larger x y = max x y := by
 by_cases h : x < y
 · simp [larger,h,max_eq_right h.le]
 · simp [larger,h,max_eq_left (not_lt.1 h)]

end Scalar

namespace Tensor

lemma sumTo_real (n : Nat) (f : Nat → ℝ) : sumTo n f = ∑ i ∈ range n, f i := by
 induction n with
 | zero => exact Scalar.zero_real
 | succ n ih =>
  rw [Finset.sum_range_succ,← ih,sumTo,Nat.fold_succ]
  rfl

lemma relu_real (x : ℝ) : relu x = max 0 x := by
 by_cases h : x < 0
 · simp [relu,Scalar.atLeast,h,max_eq_left h.le]
 · simp [relu,Scalar.atLeast,h,max_eq_right (not_lt.1 h)]

lemma mark_real (p : Prop) [Decidable p] : (mark (decide p) : ℝ) = if p then 1 else 0 := by
 by_cases h : p <;> simp [mark,h]

lemma tiny_pos : (0 : ℝ) < tiny := by
 have h : (tiny : ℝ) = OfScientific.ofScientific 1 true 12 := rfl
 rw [h]
 norm_num

open List Nat Scalar
variable {p m c d : Nat}

lemma place_lt (hp : p < m) (hd : d < c) : p * c + d < m * c :=
 calc p * c + d < p * c + c := by omega
   _ = (p + 1) * c := by ring
   _ ≤ m * c := mul_le_mul_right c hp

lemma place_div (hd : d < c) : (p * c + d) / c = p := by
 rw [mul_comm,mul_add_div (by omega),div_eq_of_lt hd,add_zero]

lemma place_mod (hd : d < c) : (p * c + d) % c = d := by
 rw [mul_comm,mul_add_mod,mod_eq_of_lt hd]

lemma place_inj {q e : Nat} (hd : d < c) (he : e < c) : p * c + d = q * c + e ↔ p = q ∧ d = e := by
 constructor
 · intro h
   have hdiv := congrArg (· / c) h
   have hmod := congrArg (· % c) h
   simp only [place_div hd,place_mod hd,place_div he,place_mod he] at hdiv hmod
   exact ⟨hdiv,hmod⟩
 · rintro ⟨rfl,rfl⟩
   rfl

lemma volume_cons (n : Nat) (shape : List Nat) : volume (n :: shape) = n * volume shape := by
 have h : ∀ a s, s.foldl (fun acc n => acc * n) a = a * volume s := by
  intro a s
  induction s generalizing a with
  | nil => simp [volume]
  | cons k s ih =>
   have hk : volume (k :: s) = 1 * k * volume s := ih (1 * k)
   rw [foldl_cons,ih,hk]
   ring
 rw [volume,foldl_cons,h]
 ring

lemma volume_concat (shape : List Nat) (n : Nat) : volume (shape ++ [n]) = volume shape * n := by
 rw [volume,foldl_append]
 rfl

lemma volume_pair (n w : Nat) : volume [n,w] = n * w := by simp [volume]

lemma place_lt_pair (hp : p < m) (hd : d < c) : p * c + d < volume [m,c] :=
 volume_pair m c ▸ place_lt hp hd

lemma place_lt_volume {i j n : Nat} (hi : i < m) (hj : j < n) (hd : d < c) :
 (i * n + j) * c + d < volume [m,n,c] := by
 have hvol : volume [m,n,c] = m * n * c := by simp [volume]
 exact hvol ▸ place_lt (place_lt hi hj) hd

section
variable {α β : Type} [Scalar α] {t : Tensor α} {k : Nat} {shape : List Nat} {f : Nat → α}

structure Shaped (t : Tensor β) (shape : List Nat) : Prop where
 shape_eq : t.shape = shape
 size_eq : t.data.size = volume shape

lemma shaped_build (shape : List Nat) (f : Nat → β) : Shaped (build shape f) shape :=
 ⟨rfl,Array.size_ofFn⟩

lemma entry_build (hk : k < volume shape) : (build shape f).entry k = f k := by
 simp [entry,build,hk]

lemma entry_of_lt (hk : k < t.data.size) : t.entry k = t.data[k] := by
 simp [entry,hk]

omit [Scalar α] in
lemma Shaped.map (h : Shaped t shape) (g : α → β) : Shaped (t.map g) shape :=
 ⟨h.shape_eq,by rw [Tensor.map,Array.size_map,h.size_eq]⟩

lemma Shaped.entry_map (h : Shaped t shape) (g : α → α) (hk : k < volume shape) :
 (t.map g).entry k = g (t.entry k) := by
 have hk' : k < t.data.size := h.size_eq ▸ hk
 simp [entry,Tensor.map,hk']

end

section
variable {α : Type} [Scalar α] {s t : Tensor α} {shape : List Nat} {f : α → α → α}

lemma zipWith_same (hs : Shaped s shape) (ht : Shaped t shape) :
 ∃ r, s.zipWith f t = .ok r ∧ Shaped r shape ∧
 ∀ k < volume shape, r.entry k = f (s.entry k) (t.entry k) := by
 refine ⟨⟨s.shape,Array.zipWith f s.data t.data⟩,?_,⟨hs.shape_eq,?_⟩,?_⟩
 · simp [zipWith,hs.shape_eq,ht.shape_eq]
   rfl
 · rw [Array.size_zipWith,hs.size_eq,ht.size_eq,min_self]
 · intro k hk
   have hs' : k < s.data.size := hs.size_eq ▸ hk
   have ht' : k < t.data.size := ht.size_eq ▸ hk
   simp [entry,hs',ht']

lemma joinSizes_self (n : Nat) : joinSizes n n = .ok n := by simp [joinSizes]

lemma joinSizes_one (n : Nat) : joinSizes n 1 = .ok n := by
 by_cases h : n = 1 <;> simp [joinSizes,h]

lemma joinShapes_ones {shape flat : List Nat} (h : Forall₂ (fun n m => m = n ∨ m = 1) shape flat) :
 joinShapes shape flat = .ok shape := by
 have hzip : ((shape.zip flat).mapM fun p => joinSizes p.1 p.2) = .ok shape := by
  induction h with
  | nil => rfl
  | @cons n m _ _ h _ ih =>
   have hn : joinSizes n m = .ok n := by
    rcases h with h | h
    · rw [h,joinSizes_self]
    · rw [h,joinSizes_one]
   rw [zip_cons_cons,mapM_cons,hn,ih]
   rfl
 simp only [joinShapes,padShape,h.length_eq,Nat.max_self,Nat.sub_self,replicate_zero,nil_append]
 exact hzip

lemma length_unravel (shape : List Nat) (k : Nat) : (unravel shape k).length = shape.length := by
 induction shape generalizing k with
 | nil => rfl
 | cons n shape ih => rw [unravel,length_cons,ih,length_cons]

lemma ravel_unravel {shape : List Nat} {k : Nat} (hk : k < volume shape) :
 ravel shape (List.zipWith (fun i n => if n = 1 then 0 else i) (unravel shape k) shape) = k := by
 induction shape generalizing k with
 | nil => exact (lt_one_iff.1 hk).symm
 | cons n shape ih =>
  rw [volume_cons] at hk
  have hpos : 0 < volume shape := Nat.pos_of_lt_mul_left hk
  have hcoo : (if n = 1 then 0 else k / volume shape) = k / volume shape := by
   split
   · next h =>
     subst h
     exact (div_eq_of_lt (by omega)).symm
   · rfl
  rw [unravel,zipWith_cons_cons,ravel,hcoo,ih (Nat.mod_lt k hpos)]
  exact div_add_mod' k (volume shape)

lemma ravel_unravel_block {shape : List Nat} {d p c : Nat} (hp : p < volume shape) (hc : c < d) :
 ravel (shape ++ [1]) (List.zipWith (fun i n => if n = 1 then 0 else i)
  (unravel (shape ++ [d]) (p * d + c)) (shape ++ [1])) =
  p := by
 induction shape generalizing p with
 | nil =>
  obtain rfl := lt_one_iff.1 hp
  simp [ravel,unravel]
 | cons n shape ih =>
  rw [volume_cons] at hp
  have hpos : 0 < volume shape := Nat.pos_of_lt_mul_left hp
  have hdiv : (p * d + c) / (volume shape * d) = p / volume shape := by
   rw [mul_comm (volume shape),← Nat.div_div_eq_div_mul,place_div hc]
  have hmod : (p * d + c) % (volume shape * d) = p % volume shape * d + c := by
   rw [mul_comm (volume shape),mod_mul,place_mod hc,place_div hc]
   ring
  have hcoo : (if n = 1 then 0 else p / volume shape) = p / volume shape := by
   split
   · next h =>
     subst h
     exact (div_eq_of_lt (by omega)).symm
   · rfl
  rw [cons_append,cons_append,unravel,zipWith_cons_cons,ravel,volume_concat,volume_concat,hdiv,hmod,
   hcoo,ih (mod_lt p hpos),mul_one]
  exact div_add_mod' p (volume shape)

lemma Shaped.getSpread (h : Shaped t shape) {k : Nat} (hk : k < volume shape) :
 t.getSpread (unravel shape k) = t.entry k := by
 rw [Tensor.getSpread,rank,length_unravel,h.shape_eq,Nat.sub_self,drop_zero,get,h.shape_eq,
  ravel_unravel hk]

lemma Shaped.getSpread_block {d p c : Nat} (h : Shaped t (shape ++ [1])) (hp : p < volume shape)
 (hc : c < d) :
 t.getSpread (unravel (shape ++ [d]) (p * d + c)) = t.entry p := by
 rw [Tensor.getSpread,rank,length_unravel,h.shape_eq,length_append,length_append,length_singleton,
  length_singleton,Nat.sub_self,drop_zero,get,h.shape_eq,ravel_unravel_block hp hc]

lemma zipWith_block (f : α → α → α) (shape : List Nat) {d : Nat} (hs : Shaped s (shape ++ [d]))
 (ht : Shaped t (shape ++ [1])) :
 ∃ r, s.zipWith f t = .ok r ∧ Shaped r (shape ++ [d]) ∧
  ∀ p < volume shape, ∀ c < d, r.entry (p * d + c) = f (s.entry (p * d + c)) (t.entry p) := by
 by_cases hd : d = 1
 · subst hd
   obtain ⟨r,hr,hsha,hent⟩ := zipWith_same hs ht
   refine ⟨r,hr,hsha,?_⟩
   intro p hp c hc
   obtain rfl := lt_one_iff.1 hc
   rw [mul_one,add_zero]
   exact hent p (by rwa [volume_concat,mul_one])
 · let spread c : α := f (s.getSpread c) (t.getSpread c)
   refine ⟨_,?_,shaped_build (shape ++ [d]) fun k => spread (unravel (shape ++ [d]) k),?_⟩
   · have hjoin : joinShapes s.shape t.shape = .ok (shape ++ [d]) := by
      rw [hs.shape_eq,ht.shape_eq]
      refine joinShapes_ones (rel_append ?_ (.cons (.inr rfl) .nil))
      exact forall₂_same.2 fun _ _ => .inl rfl
     have hne : (s.shape == t.shape) = false := by simp [hs.shape_eq,ht.shape_eq,hd]
     rw [zipWith,hne,hjoin]
     rfl
   · intro p hp c hc
     have hk : p * d + c < volume (shape ++ [d]) := by
      rw [volume_concat]
      exact place_lt hp hc
     rw [entry_build hk,← hs.getSpread hk,← ht.getSpread_block hp hc]

end

section
variable {t : Tensor ℝ} {b n : Nat}

lemma entry_real (t : Tensor ℝ) (k : Nat) :
 t.entry k = t.data.getD k 0 := by rw [entry,Scalar.zero_real]

noncomputable def gather (place : Nat → Nat) (xs : Nat → ℝ) (size : Nat) (acc : Array ℝ) : Array ℝ :=
 size.fold (fun k _ acc => acc.modify (place k) fun x => add x (xs k)) acc

lemma size_gather (place : Nat → Nat) (xs : Nat → ℝ) (size : Nat) (acc : Array ℝ) :
 (gather place xs size acc).size = acc.size := by
 induction size with
 | zero => rfl
 | succ m ih => rw [gather,fold_succ,Array.size_modify,← gather,ih]

lemma getD_gather (place : Nat → Nat) (xs : Nat → ℝ) (size : Nat) {acc : Array ℝ} {p : Nat}
 (hp : p < acc.size) :
 (gather place xs size acc).getD p 0 = acc.getD p 0 + ∑ k ∈ range size, if place k =
  p then xs k else 0 := by
 induction size with
 | zero => rw [Finset.sum_range_zero,add_zero]; rfl
 | succ m ih =>
  have hsiz := size_gather place xs m acc
  rw [gather,Nat.fold_succ,← gather,Finset.sum_range_succ,← add_assoc,← ih]
  have hpm : p < (gather place xs m acc).size := hsiz ▸ hp
  by_cases h : place m = p
  · simp only [h,hpm,Array.getD_eq_getD_getElem?,Array.getElem?_modify,if_true,getElem?_pos,
     Option.map_some,
     Option.getD_some]
    rfl
  · simp [h,hpm,Array.getElem_modify]

lemma sum_places (f : Nat → ℝ) {i c : Nat} (hi : i < b) (hc : c < d) :
 (∑ k ∈ range (b * n * d), if k / (n * d) * d + k % d = i * d + c then f k else 0) =
  ∑ j ∈ range n, f ((i * n + j) * d + c) := by
 have hd : 0 < d := by omega
 rw [← Finset.sum_filter]
 symm
 refine Finset.sum_nbij' (fun j => (i * n + j) * d + c) (fun k => k / d % n) ?_ ?_ ?_ ?_
  fun _ _ => rfl
 · intro j hj
   have hj := mem_range.1 hj
   rw [Finset.mem_filter,Finset.mem_range]
   refine ⟨place_lt (place_lt hi hj) hc,?_⟩
   rw [mul_comm n,← Nat.div_div_eq_div_mul,place_div hc,place_div hj,place_mod hc]
 · intro k hk
   have hn : 0 < n := by
    rw [Finset.mem_filter,Finset.mem_range] at hk
    exact pos_of_ne_zero fun h => by simp [h] at hk
   exact mem_range.2 (mod_lt _ hn)
 · intro j hj
   rw [place_div hc,place_mod (mem_range.1 hj)]
 · intro k hk
   have hpla := (Finset.mem_filter.1 hk).2
   have hcol : k % d = c := by
    rw [← place_mod (p := i) hc,← hpla,place_mod (Nat.mod_lt k hd)]
   have hblo : k / d / n = i := by
    rw [Nat.div_div_eq_div_mul,Nat.mul_comm d,← place_div (p := i) hc,← hpla,
     place_div (Nat.mod_lt k hd)]
   rw [← hblo,← hcol,Nat.div_add_mod',Nat.div_add_mod']

lemma getD_gather_blocks (xs : Nat → ℝ) {i c : Nat} (hi : i < b) (hc : c < d) :
 (gather (fun k => k / (n * d) * d + k % d) xs (b * n * d) (Array.replicate (b * d) 0)).getD
  (i * d + c) 0 =
  ∑ j ∈ range n, xs ((i * n + j) * d + c) := by
 have hp : i * d + c < b * d := place_lt hi hc
 have hzero : (Array.replicate (b * d) (0 : ℝ)).getD (i * d + c) 0 = 0 := by simp [hp]
 rw [getD_gather _ xs _ (Array.size_replicate.symm ▸ hp),hzero,zero_add,sum_places xs hi hc]

lemma sum_middle (ht : Shaped t [b,n,d]) : ∃ r, t.sum (some [1]) false = .ok r ∧ Shaped r [b,d] ∧
 ∀ i < b, ∀ c < d, r.entry (i * d + c) = ∑ j ∈ range n, t.entry ((i * n + j) * d + c) := by
 have hsiz : t.data.size = b * n * d := by rw [ht.size_eq]; simp [volume]
 refine ⟨⟨[b,d],gather (fun k => k / (n * d) * d + k % d) t.entry (b * n * d)
  (Array.replicate (b * d) 0)⟩,?_,⟨rfl,?_⟩,?_⟩
 · obtain ⟨shape,data⟩ := t
   obtain rfl : shape = [b,n,d] := ht.shape_eq
   have hpla : ∀ k, ravel [b,1,d] ((unravel [b,n,d] k).zipIdx.map fun e =>
    if !([1].contains e.2) then e.1 else 0) =
    k / (n * d) * d + k % d := by
    intro k
    simp [ravel,unravel,volume]
   have hvol : volume [b,1,d] = b * d := by simp [volume]
   rw [← Scalar.zero_real,← funext hpla,← hsiz,← hvol]
   rfl
 · simp [size_gather,volume]
 · intro i hi c hc
   rw [entry_real,getD_gather_blocks t.entry hi hc]

lemma sum_last (ht : Shaped t [b,n]) : ∃ r, t.sum (some [1]) true = .ok r ∧ Shaped r [b,1] ∧
 ∀ i < b, r.entry i = ∑ j ∈ range n, t.entry (i * n + j) := by
 have hsiz : t.data.size = b * n * 1 := by rw [ht.size_eq]; simp [volume]
 refine ⟨⟨[b,1],gather (fun k => k / (n * 1) * 1 + k % 1) t.entry (b * n * 1)
  (Array.replicate (b * 1) 0)⟩,?_,⟨rfl,?_⟩,?_⟩
 · obtain ⟨shape,data⟩ := t
   obtain rfl : shape = [b,n] := ht.shape_eq
   have hpla : ∀ k, ravel [b,1] ((unravel [b,n] k).zipIdx.map fun e =>
    if !([1].contains e.2) then e.1 else 0) =
    k / (n * 1) * 1 + k % 1 := by
    intro k
    simp [ravel,unravel,volume,mod_one]
   have hvol : volume [b,1] = b * 1 := by simp [volume]
   rw [← Scalar.zero_real,← funext hpla,← hsiz,← hvol]
   rfl
 · simp [size_gather,volume]
 · intro i hi
   have h := getD_gather_blocks (n := n) t.entry hi Nat.zero_lt_one
   simp only [mul_one,add_zero] at h
   rw [entry_real]
   simpa only [mul_one] using h

lemma normalize_ok (ht : t.shape = [b,n,d]) (margin : ℝ) :
 ∃ r, t.normalize (ofInt 2) 1 margin = .ok r := by
 have haxis : axisOf t.rank 1 = .ok 1 := by simp [axisOf,rank,ht]
 have hnor : ∃ u, t.norms (ofInt 2) 1 = .ok u ∧ u.shape = [b,1,d] := by
  refine ⟨_,by simp [norms]; rfl,?_⟩
  simp [map,foldAxes,ht]
 obtain ⟨u,hu,hsha⟩ := hnor
 have hjoin : joinShapes t.shape u.shape = .ok [b,n,d] := by
  rw [ht,hsha]
  exact joinShapes_ones (.cons (.inl rfl) (.cons (.inr rfl) (.cons (.inl rfl) .nil)))
 simp only [normalize,haxis,hu,bind,Except.bind,zipWith,hjoin]
 split
 · exact ⟨_,rfl⟩
 · exact ⟨_,rfl⟩

end

section
open Network
variable {α : Type} {t : Tensor α} {ts : List (Tensor α)} {shape : List Nat}

lemma toList_stack (shape : List Nat) (ts : List (Tensor α)) :
 (Layer.stack shape ts).data.toList = ts.flatMap fun u => u.data.toList := by
 have h : ∀ acc : Array α, (ts.foldl (fun acc u => acc ++ u.data) acc).toList =
  acc.toList ++ ts.flatMap fun u => u.data.toList := by
  induction ts with
  | nil => intro acc; simp
  | cons u ts ih => intro acc; rw [foldl_cons,ih,Array.toList_append,flatMap_cons,append_assoc]
 exact h #[]

lemma getElem?_flatMap_blocks {β : Type} {xs : List β} {f : β → List α} {v i r : Nat} {x : β}
 (hxs : ∀ y ∈ xs, (f y).length = v) (hx : xs[i]? = some x) (hr : r < v) :
 (xs.flatMap f)[i * v + r]? = (f x)[r]? := by
 induction xs generalizing i with
 | nil => simp at hx
 | cons y xs ih =>
  have hy := hxs y mem_cons_self
  rw [flatMap_cons]
  cases i with
  | zero =>
   obtain rfl : y = x := by simpa using hx
   rw [zero_mul,zero_add,getElem?_append_left (by omega)]
  | succ i =>
   have hpla : (i + 1) * v + r = (f y).length + (i * v + r) := by rw [hy]; ring
   rw [hpla,getElem?_append_right (by omega),Nat.add_sub_cancel_left]
   exact ih (fun z hz => hxs z (mem_cons_of_mem y hz)) (by simpa using hx)

lemma shaped_stack (hts : ∀ u ∈ ts, Shaped u shape) :
 Shaped (Layer.stack shape ts) (ts.length :: shape) := by
 refine ⟨rfl,?_⟩
 have hlen : (ts.map fun u => u.data.toList.length) = ts.map fun _ => volume shape :=
  map_congr_left fun u hu => (hts u hu).size_eq
 rw [volume_cons,← Array.length_toList,toList_stack,length_flatMap,hlen]
 simp

variable [Scalar α]

lemma entry_part {size i r : Nat} (hr : r < size) :
 (Layer.part t size i shape).entry r = t.entry (i * size + r) := by
 have hlt : r < (i + 1) * size - i * size := by
  rw [add_mul,one_mul]
  omega
 simp only [entry,Layer.part,Array.getD_eq_getD_getElem?,Array.getElem?_extract]
 by_cases h : i * size + r < t.data.size
 · rw [if_pos]
   omega
 · rw [if_neg (by omega),getElem?_neg t.data _ h]

lemma entry_stack (hts : ∀ u ∈ ts, Shaped u shape) {i r : Nat} {u : Tensor α} (hu : ts[i]? = some u)
 (hr : r < volume shape) : (Layer.stack shape ts).entry (i * volume shape + r) = u.entry r := by
 have h := getElem?_flatMap_blocks (fun y hy => (hts y hy).size_eq) hu hr
 rw [← toList_stack shape,Array.getElem?_toList,Array.getElem?_toList] at h
 rw [entry,Array.getD_eq_getD_getElem?,h,← Array.getD_eq_getD_getElem?,← entry]

end
end Tensor
end MotifMatch
