import MotifMatch.Proofs.SampleBlocks

namespace MotifMatch
open Encoding List Scalar Tensor
variable {α : Type} [Scalar α]

namespace Tensor
variable {shape : List Nat} {f : Nat → α} {t x : Tensor α} {m c n w i j k : Nat}

lemma Shaped.build_eq (ht : t.Shaped shape) (h : ∀ k < volume shape, f k = t.entry k) :
 build shape f = t := by
 obtain ⟨rfl,hsiz⟩ := ht
 have hdat : (build t.shape f).data = t.data := by
  refine Array.ext (by rw [hsiz]; exact Array.size_ofFn) fun k hk hk' => ?_
  rw [← entry_of_lt hk,← entry_of_lt hk',entry_build (hsiz ▸ hk'),h k (hsiz ▸ hk')]
 cases t
 exact congrArg (Tensor.mk _) hdat

def block (t : Tensor α) (n w i : Nat) : Tensor α := build [n,w] fun k => t.entry (i * (n * w) + k)

def framed (x : Tensor α) (m c n w : Nat) : Tensor α :=
 build [n,w] fun k => if k / w < m ∧ k % w < c then x.at2 c (k / w) (k % w) else zero

def corner (t : Tensor α) (w m c : Nat) : Tensor α := build [m,c] fun k => t.at2 w (k / c) (k % c)

lemma corner_framed (hx : x.Shaped [m,c]) (hm : m ≤ n) (hc : c ≤ w) :
 (x.framed m c n w).corner w m c = x := by
 refine hx.build_eq fun k hk => ?_
 rw [volume_pair] at hk
 have hrow : k / c < m := Nat.div_lt_of_lt_mul (Nat.mul_comm m c ▸ hk)
 have hcol : k % c < c := Nat.mod_lt k (Nat.pos_of_mul_pos_left (Nat.zero_lt_of_lt hk))
 rw [framed,at2_build (by omega) (by omega),place_div (by omega),place_mod (by omega),
  if_pos ⟨hrow,hcol⟩,at2,Nat.mul_comm,
  Nat.div_add_mod]
 rfl

lemma block_build {b : Nat} (hi : i < b) (h : ∀ k < n * w, f (i * (n * w) + k) =
 if k / w < m ∧ k % w < c then x.at2 c (k / w) (k % w) else zero) : (build [b,n,w] f).block n w i =
  x.framed m c n w := by
 refine (shaped_build _ _).build_eq fun k hk => ?_
 have hvol : volume [b,n,w] = b * (n * w) := by simp [volume,Nat.mul_assoc]
 rw [entry_build hk]
 rw [volume_pair] at hk
 rw [entry_build (hvol ▸ place_lt hi hk),h k hk]

lemma entry_of_block (h : t.block n w i = x.framed m c n w) (hj : j < n) (hk : k < w) :
 t.entry ((i * n + j) * w + k) = if j < m ∧ k < c then x.at2 c j k else zero := by
 have hat := congrArg (·.at2 w j k) h
 simp only [block,framed,at2_build hj hk,place_div hk,place_mod hk] at hat
 rw [← hat]
 congr 1
 ring

end Tensor

namespace Encoding
variable {s : Sample α} {w i : Nat}

structure Sample.Regular (s : Sample α) (w : Nat) : Prop where
 features : s.features.Shaped [s.size,w]
 inner : s.inner.Shaped [s.size,s.size]
 outer : s.outer.Shaped [s.size,s.size]
 mapping : s.mapping.Shaped [s.size,s.size]
 sameLabel : s.sameLabel.Shaped [s.size,s.size]
 mask : s.mask.Shaped [s.size]
 verdict : s.verdict = -1 ∨ s.verdict = 0 ∨ s.verdict = 1

def mirror (n : Nat) (t : Array α) (p : Nat × Nat) : Array α :=
 (t.setIfInBounds (p.1 * n + p.2) one).setIfInBounds (p.2 * n + p.1) one

lemma size_mirror {n : Nat} {t : Array α} {p : Nat × Nat} : (mirror n t p).size = t.size := by
 rw [mirror,Array.size_setIfInBounds,Array.size_setIfInBounds]

lemma size_foldl_mirror {n : Nat} {t : Array α} (ps : List (Nat × Nat)) :
 (ps.foldl (mirror n) t).size = t.size := by
 induction ps generalizing t with
 | nil => rfl
 | cons p ps ih => rw [foldl_cons,ih,size_mirror]

lemma shaped_mappingMatrix {n total : Nat} {pairs : List (Int × Int)} {t : Tensor α}
 (h : mappingMatrix n total pairs = .ok t) :
 t.Shaped [total,total] := by
 obtain ⟨places,_,h⟩ := bind_eq_ok h
 cases h
 exact ⟨rfl,(size_foldl_mirror places).trans (by simp [volume])⟩

lemma verdictOf_cases {key : Value} {custom : Bool} {v : Int} (h : verdictOf key custom = .ok v) :
 v = -1 ∨ v = 0 ∨ v = 1 := by
 unfold verdictOf at h
 split at h
 · exact .inl (Except.ok.inj h).symm
 · split at h
   · exact .inl (Except.ok.inj h).symm
   · obtain ⟨iso,_,h⟩ := bind_eq_ok h
     cases h
     split <;> simp

lemma encode_regular {query source : Graph} {width key : Value} {anchored custom : Bool}
 {pairs : Except Error (List (Int × Int))}
 (h : encode query source width anchored pairs key custom = .ok s) :
 s.size = query.size + source.size ∧ ∃ w, widthOf width = .ok w ∧ s.Regular (2 * w) := by
 obtain ⟨w,_,_,_,_,_,_,_,hpar,_,hmap,hver,rfl⟩ := exists_parts h
 exact ⟨rfl,w,hpar.width,⟨rfl,Array.size_ofFn⟩,⟨rfl,Array.size_ofFn⟩,⟨rfl,Array.size_ofFn⟩,
  shaped_mappingMatrix hmap,
  ⟨rfl,Array.size_ofFn⟩,⟨rfl,Array.size_ofFn⟩,verdictOf_cases hver⟩

omit [Scalar α] in
lemma Sample.Regular.width_eq (h : s.Regular w) : widthOfSample s = w := by
 rw [widthOfSample,h.features.shape_eq]
 rfl

def Sample.padded (s : Sample α) (n w : Nat) : Sample α where
 size := n
 features := s.features.framed s.size w n w
 inner := s.inner.framed s.size s.size n n
 outer := s.outer.framed s.size s.size n n
 verdict := s.verdict
 mask := .build [n] fun k => if k < s.size then s.mask.entry k else zero
 key := s.key
 mapping := s.mapping.framed s.size s.size n n
 sameLabel := s.sameLabel.framed s.size s.size n n

def Sample.cut (s : Sample α) (m w : Nat) : Sample α where
 size := m
 features := s.features.corner w m w
 inner := s.inner.corner s.size m m
 outer := s.outer.corner s.size m m
 verdict := s.verdict
 mask := .build [m] s.mask.entry
 key := s.key
 mapping := s.mapping.corner s.size m m
 sameLabel := s.sameLabel.corner s.size m m

lemma Sample.Regular.cut_padded {n : Nat} (h : s.Regular w) (hn : s.size ≤ n) :
 (s.padded n w).cut s.size w = s := by
 have hmas : build [s.size] (s.padded n w).mask.entry = s.mask := h.mask.build_eq fun k hk => by
  have hk : k < s.size := by simpa [volume] using hk
  rw [padded,entry_build (by simpa [volume] using hk.trans_le hn),if_pos hk]
 rw [cut,hmas]
 simp only [padded,corner_framed h.features hn le_rfl,corner_framed h.inner hn hn,
  corner_framed h.outer hn hn,
  corner_framed h.mapping hn hn,corner_framed h.sameLabel hn hn]

structure Batch.Seats (b : Batch α) (places : Nat) : Prop where
 count : b.count = places
 features : b.features.Shaped [places,b.size,b.width]
 squares : ∀ t ∈ [b.inner,b.outer,b.mapping,b.sameLabel], t.Shaped [places,b.size,b.size]
 masks : b.masks.Shaped [places,b.size]
 verdicts : b.verdicts.Shaped [places]
 keys : b.keys.length = places

def Batch.sampleAt (b : Batch α) (read : α → Int) (i : Nat) : Sample α where
 size := b.size
 features := b.features.block b.size b.width i
 inner := b.inner.block b.size b.size i
 outer := b.outer.block b.size b.size i
 verdict := read (b.verdicts.entry i)
 mask := .build [b.size] fun k => b.masks.entry (i * b.size + k)
 key := (b.keys[i]?).getD .none
 mapping := b.mapping.block b.size b.size i
 sameLabel := b.sameLabel.block b.size b.size i

section
variable {ss : List (Sample α)} {n : Nat}

def widest (ss : List (Sample α)) : Nat := ss.foldl (fun m s => max m s.size) 0

omit [Scalar α] in
lemma widest_spec (ss : List (Sample α)) :
 (widest ss = 0 ∨ ∃ s ∈ ss, s.size = widest ss) ∧ ∀ s ∈ ss, s.size ≤ widest ss := by
 have hmax : (0 :: ss.map Sample.size).max? = some (widest ss) := by
  rw [max?_cons',widest,foldl_map]
 obtain ⟨hmem,hle⟩ := max?_eq_some_iff.1 hmax
 refine ⟨?_,fun s hs => hle s.size (mem_cons_of_mem 0 (mem_map_of_mem hs))⟩
 rw [mem_cons,mem_map] at hmem
 exact hmem

lemma block_padSquares (pick : Sample α → Tensor α) (hs : ss[i]? = some s) :
 (padSquares n pick ss.toArray zero).block n n i = (pick s).framed s.size s.size n n := by
 refine block_build (by simpa using lt_length hs) fun k hk => ?_
 rw [place_div hk,place_mod hk,← Nat.mul_assoc,Nat.mul_add_mod_self_right,getElem?_toArray,hs]
 simp

lemma collate_ok (hss : ss ≠ []) (hwid : ∀ s ∈ ss, widthOfSample s = w) :
 ∃ b, collate ss = .ok b ∧ b.size = widest ss ∧ b.width = w ∧ b.Seats ss.length ∧
  ∀ i s, ss[i]? = some s →
  b.verdicts.entry i = ofInt s.verdict ∧
  ∀ read : α → Int, read (ofInt s.verdict) = s.verdict → b.sampleAt read i = s.padded b.size w := by
 obtain ⟨first,rest,rfl⟩ := exists_cons_of_ne_nil hss
 obtain rfl := hwid first mem_cons_self
 have hall : (first :: rest).all (fun s => widthOfSample s == widthOfSample first) := by
  rw [all_eq_true]
  intro s hs
  rw [hwid s hs,beq_self_eq_true]
 refine ⟨_,by rw [collate,if_pos hall],rfl,rfl,?_⟩
 generalize widthOfSample first = w
 generalize (first :: rest).foldl (fun m s => max m s.size) 0 = n
 generalize first :: rest = ss
 simp only [size_toArray]
 refine ⟨⟨rfl,?_,?_,?_,⟨by simp [vector],by simp [vector,volume]⟩,length_map _⟩,fun i s hs => ?_⟩
 · dsimp only
   exact shaped_build _ _
 · have hsqu : ∀ n (pick : Sample α → Tensor α),
    (padSquares n pick ss.toArray zero).Shaped [ss.length,n,n] := fun _ _ =>
    shaped_build _ _
   simp [hsqu]
 · dsimp only
   exact shaped_build _ _
 · have hver : (vector (ss.map fun s => ofInt s.verdict : List α)).entry i =
    ofInt s.verdict := by simp [vector,entry,hs]
   refine ⟨hver,fun read hread => ?_⟩
   simp only [Batch.sampleAt,Sample.padded,block_padSquares _ hs,hver,hread,getElem?_map,hs,
    Option.map_some,Option.getD_some,
    Sample.mk.injEq,true_and,and_true]
   refine ⟨block_build (lt_length hs) fun k hk => ?_,(shaped_build _ _).build_eq fun k hk => ?_⟩
   · have hcol : k % w < w := Nat.mod_lt k (Nat.pos_of_mul_pos_left (Nat.zero_lt_of_lt hk))
     rw [place_div hk,place_mod hk,← Nat.mul_assoc,Nat.mul_add_mod_self_right,getElem?_toArray,hs]
     simp [hcol]
   · have hk' : k < n := by simpa [volume] using hk
     rw [entry_build hk,entry_build (place_lt_pair (lt_length hs) hk'),place_div hk',place_mod hk',
      getElem?_toArray,hs]

end

def verdictOfFloat (y : Float) : Int := if y == 1.0 then 1 else if y == 0.0 then 0 else -1

theorem collate_lossless {ss : List (Sample Float)} {width : Value} (hss : ss ≠ [])
 (henc : ∀ s ∈ ss, ∃ query source anchored pairs key custom,
  encode query source width anchored pairs key custom = .ok s) :
 ∃ b, collate ss = .ok b ∧ b.Seats ss.length ∧ IsGreatest {n | ∃ s ∈ ss, s.size = n} b.size ∧
  (∀ i s, ss[i]? = some s → b.verdicts.entry i = ofInt s.verdict ∧
   b.sampleAt verdictOfFloat i = s.padded b.size b.width ∧
    (b.sampleAt verdictOfFloat i).cut s.size b.width = s) ∧
  ∀ ss', ss'.Perm ss → ∃ b', collate ss' = .ok b' ∧ b'.size = b.size ∧ b'.width = b.width ∧
   b'.Seats ss.length ∧
   ∀ i j s, ss'[i]? = some s → ss[j]? = some s →
    b'.verdicts.entry i = b.verdicts.entry j ∧ b'.sampleAt verdictOfFloat i =
     b.sampleAt verdictOfFloat j := by
 obtain ⟨w,hreg⟩ : ∃ w, ∀ s ∈ ss, s.Regular w := by
  obtain ⟨first,rest,rfl⟩ := exists_cons_of_ne_nil hss
  obtain ⟨_,_,_,_,_,_,h⟩ := henc first mem_cons_self
  obtain ⟨_,w,hw,_⟩ := encode_regular h
  refine ⟨2 * w,fun s hs => ?_⟩
  obtain ⟨_,_,_,_,_,_,h⟩ := henc s hs
  obtain ⟨_,w',hw',hs⟩ := encode_regular h
  rwa [Except.ok.inj (hw'.symm.trans hw)] at hs
 have hwid : ∀ s ∈ ss, widthOfSample s = w := fun s hs => (hreg s hs).width_eq
 have hread : ∀ s ∈ ss, verdictOfFloat (ofInt s.verdict) = s.verdict := fun s hs => by
  rcases (hreg s hs).verdict with h | h | h <;> rw [h] <;> decide +kernel
 obtain ⟨b,hb,hsiz,rfl,hsea,hhol⟩ := collate_ok hss hwid
 obtain ⟨hsome,hle⟩ := widest_spec ss
 have hpla : ∀ i s, ss[i]? = some s → b.sampleAt verdictOfFloat i = s.padded b.size b.width :=
  fun i s hs =>
  (hhol i s hs).2 _ (hread s (mem_of_getElem? hs))
 refine ⟨b,hb,hsea,⟨?_,?_⟩,fun i s hs => ⟨(hhol i s hs).1,hpla i s hs,?_⟩,fun ss' hper => ?_⟩
 · rw [hsiz]
   refine hsome.elim (fun hzero => ?_) id
   obtain ⟨s,hs⟩ := exists_mem_of_ne_nil ss hss
   exact ⟨s,hs,by have := hle s hs; omega⟩
 · rintro _ ⟨s,hs,rfl⟩
   exact hsiz ▸ hle s hs
 · have hmem := mem_of_getElem? hs
   rw [hpla i s hs,(hreg s hmem).cut_padded (hsiz ▸ hle s hmem)]
 · obtain ⟨b',hb',hsiz',hwid',hsea',hhol'⟩ := collate_ok (fun h => hss (Perm.eq_nil (h ▸ hper.symm)))
    fun s hs => hwid s (hper.mem_iff.1 hs)
   have hsame : b'.size = b.size := by
    rw [hsiz,hsiz',widest,widest]
    exact hper.foldl_eq' (fun _ _ _ _ _ => by omega) 0
   refine ⟨b',hb',hsame,hwid',hper.length_eq ▸ hsea',fun i j s hi hj => ?_⟩
   obtain ⟨hver,hpad⟩ := hhol' i s hi
   exact ⟨hver.trans
    (hhol j s hj).1.symm,by rw [hpad _ (hread s (mem_of_getElem? hj)),hpla j s hj,hsame]⟩

theorem hook_net_collated : ∃ s t :
 Sample Float, encode hook net (.int 3) true (.ok []) .none false = .ok s ∧
 encode hook hook (.int 3) true (.ok []) .none false = .ok t ∧ s.size = 5 ∧ t.size = 4 ∧
  ∃ b, collate [s,t] = .ok b ∧
  (b.sampleAt verdictOfFloat 0).cut 5 b.width = s ∧
   (b.sampleAt verdictOfFloat 1).cut 4 b.width = t := by
 have henc : ∀ g ∈ [net,hook], ∃ s :
  Sample Float, encode hook g (.int (3 : Nat)) true (.ok []) .none false = .ok s := by
  refine forall_mem_cons.2 ⟨?_,forall_mem_singleton.2 ?_⟩
  · obtain ⟨_,_,_,_,hpar,_⟩ := exists_parts_of_legible (α :=
     Float) true hook_sound net_sound hook_legible net_legible
     (by decide) (by decide) (le_refl 3)
    exact ⟨_,hpar.encode_eq⟩
  · obtain ⟨_,_,_,_,hpar,_⟩ := exists_parts_of_legible (α :=
     Float) true hook_sound hook_sound hook_legible hook_legible
     (by decide) (by decide) (le_refl 3)
    exact ⟨_,hpar.encode_eq⟩
 obtain ⟨s,hs⟩ := henc net (by simp)
 obtain ⟨t,ht⟩ := henc hook (by simp)
 have hs' : s.size = 5 := (encode_regular hs).1
 have ht' : t.size = 4 := (encode_regular ht).1
 obtain ⟨b,hb,_,_,hpla,_⟩ := collate_lossless (cons_ne_nil s [t])
  (forall_mem_cons.2 ⟨⟨_,_,_,_,_,_,hs⟩,forall_mem_singleton.2 ⟨_,_,_,_,_,_,ht⟩⟩)
 exact ⟨s,t,hs,ht,hs',ht',b,hb,hs' ▸ (hpla 0 s rfl).2.2,ht' ▸ (hpla 1 t rfl).2.2⟩

end Encoding
end MotifMatch
