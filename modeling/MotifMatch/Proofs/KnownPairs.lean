import MotifMatch.Proofs.Bulks

namespace MotifMatch.Encoding
open List MotifMatch.Graph Tensor Scalar Except
variable {α : Type} [Scalar α]
variable {n i j : Nat} {p : Nat × Nat} {t : Array α}

lemma getD_set_place (ht : t.size = n * n) {k l : Nat} (hl : l < n) (hi : i < n)
 (hj : j < n) (x : α) :
 (t.setIfInBounds (k * n + l) x).getD (i * n + j) zero =
  if k = i ∧ l = j then x else t.getD (i * n + j) zero := by
 have hlt : i * n + j < t.size := ht ▸ place_lt hi hj
 simp only [Array.getD_eq_getD_getElem?,Array.getElem?_setIfInBounds,place_inj hl hj]
 split
 · next hkl => rw [if_pos ((place_inj hl hj).2 hkl ▸ hlt),Option.getD_some]
 · rfl

lemma getD_mirror (ht : t.size = n * n) (hp : p.1 < n ∧ p.2 < n) (hi : i < n) (hj : j < n) :
 (mirror n t p).getD (i * n + j) zero =
  if p = (i,j) ∨ p = (j,i) then one else t.getD (i * n + j) zero := by
 rw [mirror,getD_set_place (by rw [Array.size_setIfInBounds,ht]) hp.1 hi hj,
  getD_set_place ht hp.2 hi hj]
 obtain ⟨k,l⟩ := p
 simp only [Prod.mk.injEq]
 grind

lemma getD_foldl_mirror (ht : t.size = n * n) {ps : List (Nat × Nat)}
 (hps : ∀ p ∈ ps, p.1 < n ∧ p.2 < n) (hi : i < n)
 (hj : j < n) : (ps.foldl (mirror n) t).getD (i * n + j) zero =
  if (i,j) ∈ ps ∨ (j,i) ∈ ps then one else t.getD (i * n + j) zero := by
 induction ps generalizing t with
 | nil => simp
 | cons p ps ih =>
  rw [foldl_cons,ih (size_mirror.trans ht) fun q hq => hps q (by simp [hq]),
   getD_mirror ht (hps p (by simp)) hi hj]
  grind

variable {nq ns : Nat} {f : Nat → Nat}

def Joined (nq : Nat) (f : Nat → Nat) (i j : Nat) : Prop :=
 (i < nq ∧ j = nq + f i) ∨ (j < nq ∧ i = nq + f j)

instance (nq : Nat) (f : Nat → Nat) (i j : Nat) : Decidable (Joined nq f i j) :=
 inferInstanceAs (Decidable (_ ∨ _))

lemma joined_comm : Joined nq f i j ↔ Joined nq f j i := or_comm

lemma joined_of_lt (hi : i < nq) : Joined nq f i j ↔ j = nq + f i := by
 unfold Joined
 omega

lemma joined_of_le (hi : nq ≤ i) : Joined nq f i j ↔ j < nq ∧ i = nq + f j := by
 unfold Joined
 omega

lemma Joined.crosses (h : Joined nq f i j) : ¬(i < nq ↔ j < nq) := by
 unfold Joined at h
 omega

lemma placeAmong_eq (h : i < j) : placeAmong j (i : Int) = .ok i := by
 have hran : (0 ≤ (i : Int) && decide ((i : Int) < j)) := by simp [h]
 simp only [placeAmong,show ¬ (i : Int) < 0 by omega,if_false,hran,if_true,Int.toNat_natCast]

def pairsAlong (nq : Nat) (f : Nat → Nat) : List (Int × Int) := (List.range nq).map fun i :
 Nat => (Int.ofNat i,Int.ofNat (f i))

def placesAlong (nq : Nat) (f : Nat → Nat) : List (Nat × Nat) := (range nq).map fun i => (i,nq + f i)

lemma mem_placesAlong : (i,j) ∈ placesAlong nq f ↔ i < nq ∧ j = nq + f i := by
 simp only [placesAlong,mem_map,mem_range,Prod.mk.injEq]
 constructor
 · rintro ⟨k,hk,rfl,rfl⟩
   exact ⟨hk,rfl⟩
 · rintro ⟨hi,rfl⟩
   exact ⟨i,hi,rfl,rfl⟩

lemma mapM_placeAmong (hf : ∀ i < nq, f i < ns) : ((pairsAlong nq f).mapM fun p => do
 return (← placeAmong (nq + ns) p.1,← placeAmong (nq + ns) (p.2 + nq))) =
  .ok (placesAlong nq f) := by
 rw [pairsAlong,mapM_map]
 refine mapM_ok fun i hi => ?_
 have hlt := mem_range.1 hi
 have hfir : placeAmong (nq + ns) (Int.ofNat i) = .ok i := placeAmong_eq (Nat.lt_add_right ns hlt)
 have hsec : placeAmong (nq + ns) (Int.ofNat (f i) + nq) = .ok (nq + f i) := by
  rw [Int.add_comm]
  exact placeAmong_eq (Nat.add_lt_add_left (hf i hlt) nq)
 simp only [Function.comp_apply,hfir,hsec]
 rfl

lemma mappingMatrix_eq (hf : ∀ i < nq, f i < ns) : ∃ t :
 Tensor α, mappingMatrix nq (nq + ns) (pairsAlong nq f) = .ok t ∧
 t.Shaped [nq + ns,nq + ns] ∧
 ∀ i < nq + ns, ∀ j < nq + ns, t.at2 (nq + ns) i j = if Joined nq f i j then one else zero := by
 have hbou : ∀ p ∈ placesAlong nq f, p.1 < nq + ns ∧ p.2 < nq + ns := by
  rintro ⟨i,j⟩ hp
  obtain ⟨hi,rfl⟩ := mem_placesAlong.1 hp
  exact ⟨Nat.lt_add_right ns hi,Nat.add_lt_add_left (hf i hi) nq⟩
 have hmat : mappingMatrix nq (nq + ns) (pairsAlong nq f) =
  .ok ⟨[nq + ns,nq + ns],(placesAlong nq f).foldl
  (mirror (nq + ns)) (Array.replicate ((nq + ns) * (nq + ns)) (zero : α))⟩ := by
  rw [mappingMatrix,mapM_placeAmong hf]
  rfl
 refine ⟨_,hmat,shaped_mappingMatrix hmat,fun i hi j hj => ?_⟩
 refine (getD_foldl_mirror Array.size_replicate hbou hi hj).trans (if_congr ?_ rfl ?_)
 · rw [mem_placesAlong,mem_placesAlong]
   rfl
 · simp [place_lt hi hj]

section
variable {g query source : Graph} {u v : NodeId} {w : Nat} {width label anchor : Value}
 {xs : List Value}

lemma setAt_eq_set {ys : List Value} {place x : Value} (h : setAt xs place x = .ok ys) :
 ∃ i, ys = xs.set i x := by
 rw [setAt] at h
 split at h
 · next i _ =>
   dsimp only at h
   generalize (if i < 0 then i + xs.length else i) = j at h
   split at h
   · exact ⟨_,(ok.inj h).symm⟩
   · cases h
 · cases h

lemma oneHot_entries (h : oneHot label anchor width true = .ok xs) (hw : widthOf width = .ok w) :
 xs.length = w ∧ ∀ v ∈ xs, v = .int 0 ∨ v = .int 1 ∨ v = anchor := by
 rw [oneHot,hw] at h
 obtain ⟨_,hw,h⟩ := bind_eq_ok h
 cases hw
 obtain ⟨_,_,h⟩ := bind_eq_ok h
 obtain ⟨marked,hmar,h⟩ := bind_eq_ok h
 obtain ⟨i,rfl⟩ := setAt_eq_set hmar
 obtain ⟨j,rfl⟩ := setAt_eq_set h
 refine ⟨by simp,fun v hv => ?_⟩
 rcases mem_or_eq_of_mem_set hv with hv | rfl
 · rcases mem_or_eq_of_mem_set hv with hv | rfl
   · exact .inl (eq_of_mem_replicate hv)
   · exact .inr (.inr rfl)
 · exact .inr (.inl rfl)

lemma nodeVector_entries (h : nodeVector oneHot g u width true = .ok xs)
 (hw : widthOf width = .ok w) {k : Int}
 (hanc : g.nodeAttr? u "anchor" = some (.int k)) (hk : k = 0 ∨ k = 1) :
 xs.length = w ∧ ∀ v ∈ xs, v = .int 0 ∨ v = .int 1 := by
 rw [nodeVector] at h
 split at h
 · cases h
 · next a ha =>
   obtain ⟨l,_,h⟩ := bind_eq_ok h
   obtain ⟨hlen,hent⟩ := oneHot_entries h hw
   refine ⟨hlen,fun v hv => ?_⟩
   rw [nodeAttr?,ha,Option.bind_some] at hanc
   rw [if_pos rfl,Table.getD,hanc,Option.getD_some] at hent
   rcases hent v hv with hv | hv | rfl
   · exact .inl hv
   · exact .inr hv
   · rcases hk with rfl | rfl
     · exact .inl rfl
     · exact .inr rfl

lemma nodeVector_congr (hu : u ∈ query.ids) (hv : v ∈ source.ids)
 (hlab : query.nodeAttr? u "label" = source.nodeAttr? v "label")
 (hanc : query.nodeAttr? u "anchor" = source.nodeAttr? v "anchor") (width : Value) :
 nodeVector oneHot query u width true = nodeVector oneHot source v width true := by
 obtain ⟨a,ha⟩ := exists_attrs hu
 obtain ⟨b,hb⟩ := exists_attrs hv
 rw [nodeAttr?,nodeAttr?,ha,hb] at hlab hanc
 simp only [Option.bind_some] at hlab hanc
 simp only [nodeVector,ha,hb,attrOf,hlab,Table.getD,hanc]

lemma numbers_entries {r : List α} (h : numbers xs = .ok r)
 (hxs : ∀ v ∈ xs, v = .int 0 ∨ v = .int 1) :
 r.length = xs.length ∧ ∀ x ∈ r, x = zero ∨ x = one := by
 have hall := forall₂_of_mapM h
 clear h
 induction hall with
 | nil => simp
 | @cons v x xs r hv _ ih =>
  obtain ⟨hlen,hent⟩ := ih fun v hv => hxs v (by simp [hv])
  refine ⟨by simp [hlen],?_⟩
  rw [forall_mem_cons]
  refine ⟨?_,hent⟩
  rcases hxs v (by simp) with rfl | rfl
  · exact .inl (ok.inj hv).symm
  · exact .inr (ok.inj hv).symm

lemma nodeMatrix_row {t : Tensor α} (ht : nodeMatrix g width true = .ok t)
 (hw : widthOf width = .ok w)
 (hanc : ∀ u ∈ g.ids, ∃ k, g.nodeAttr? u "anchor" = some (.int k) ∧ (k = 0 ∨ k = 1)) {i : Nat}
 (hu : g.ids[i]? = some u) : ∃ r :
  List α, (do numbers (← nodeVector oneHot g u width true)) = .ok r ∧
  (∀ x ∈ r, x = zero ∨ x = one) ∧ ∀ k < w, r[k]? = some (t.at2 w i k) := by
 obtain ⟨rows,hrows,_⟩ := bind_eq_ok ht
 have hall := forall₂_of_mapM hrows
 have hent : ∀ u r, u ∈ g.ids → (do numbers (← nodeVector oneHot g u width true)) = .ok r →
  r.length = w ∧ ∀ x ∈ r, x = (Scalar.zero : α) ∨ x = Scalar.one := by
  intro u r hu hr
  obtain ⟨xs,hxs,hr⟩ := bind_eq_ok hr
  obtain ⟨k,hk,hflag⟩ := hanc u hu
  obtain ⟨hle,hval⟩ := nodeVector_entries hxs hw hk hflag
  obtain ⟨hlen',hsca⟩ := numbers_entries hr hval
  exact ⟨hlen'.trans hle,hsca⟩
 have hlen : ∀ r ∈ rows, r.length = w := by
  intro r hr
  obtain ⟨i,hi,rfl⟩ := getElem_of_mem hr
  have hi' : i < g.ids.length := hall.length_eq ▸ hi
  exact (hent _ _ (getElem_mem hi') (hall.get hi' hi)).1
 obtain ⟨hi,rfl⟩ := List.getElem?_eq_some_iff.1 hu
 have hi' : i < rows.length := hall.length_eq ▸ hi
 obtain ⟨t',ht',hat⟩ := nodeMatrix_rows hrows (ne_nil_of_length_pos (Nat.zero_lt_of_lt hi')) hlen
 obtain rfl : t = t' := ok.inj (ht.symm.trans ht')
 have hvec := hall.get hi hi'
 exact ⟨rows[i],hvec,(hent _ _ (getElem_mem hi) hvec).2,fun k hk =>
  (hat i _ (getElem?_eq_getElem hi') k hk).symm⟩

variable [Scalar.Exact α]

lemma sameRow_of_alike {hQuery hSource : Tensor α} (hQ : nodeMatrix query width true = .ok hQuery)
 (hS : nodeMatrix source width true = .ok hSource) (hw : widthOf width = .ok w)
 (hanc : ∀ u ∈ query.ids, ∃ k : Int, query.nodeAttr? u "anchor" = some (.int k) ∧ (k = 0 ∨ k = 1))
 (hanc' : ∀ u ∈ source.ids, ∃ k : Int, source.nodeAttr? u "anchor" = some (.int k) ∧
  (k = 0 ∨ k = 1)) {i j : Nat}
 (hu : query.ids[i]? = some u) (hv : source.ids[j]? = some v)
 (hlab : query.nodeAttr? u "label" = source.nodeAttr? v "label")
 (hmark : query.nodeAttr? u "anchor" = source.nodeAttr? v "anchor") :
  sameRow hQuery hSource w i j := by
 obtain ⟨r,hr,hent,hat⟩ := nodeMatrix_row hQ hw hanc hu
 obtain ⟨r',hr',_,hat'⟩ := nodeMatrix_row hS hw hanc' hv
 rw [← nodeVector_congr (mem_of_getElem? hu) (mem_of_getElem? hv) hlab hmark width,hr] at hr'
 cases hr'
 refine sameRow_iff.2 fun k hk => ?_
 rw [← Option.some.inj ((hat k hk).symm.trans (hat' k hk))]
 rcases hent _ (mem_of_getElem? (hat k hk)) with hx | hx
 · rw [hx,Exact.eq_zero]
 · rw [hx,Exact.eq_one]

end

section
variable {query source : Graph} {pairs : List (Int × Int)} {width key : Value} {custom : Bool}
 {s : Sample α}

structure Pairing (query source : Graph) (pairs : List (Int × Int)) (f : Nat → Nat) : Prop where
 eq : pairs = pairsAlong query.size f
 lt : ∀ i < query.size, f i < source.size
 inj : ∀ i < query.size, ∀ j < query.size, f i = f j → i = j
 label : ∀ i u v, query.ids[i]? = some u → source.ids[f i]? = some v → query.nodeAttr? u "label" =
  source.nodeAttr? v "label"
 mark : ∀ i u v, query.ids[i]? = some u → source.ids[f i]? = some v → query.nodeAttr? u "anchor" =
  source.nodeAttr? v "anchor"
 query : ∀ u ∈ query.ids, ∃ k : Int, query.nodeAttr? u "anchor" = some (.int k) ∧ (k = 0 ∨ k = 1)
 source : ∀ u ∈ source.ids, ∃ k : Int, source.nodeAttr? u "anchor" = some (.int k) ∧ (k = 0 ∨ k = 1)

/-- The known pairs of a sample match each node of the query with one of the source that is shown
alike; the pairs that are alike but not known are ones in a matrix of zeros too. -/
structure Matched (nq ns : Nat) (s : Sample α) : Prop where
 mapping : s.mapping.Shaped [nq + ns,nq + ns]
 sameLabel : s.sameLabel.Shaped [nq + ns,nq + ns]
 binary : ∀ i < nq + ns, ∀ j < nq + ns, s.mapping.at2 (nq + ns) i j = zero ∨
  s.mapping.at2 (nq + ns) i j = one
 symm : ∀ i < nq + ns, ∀ j < nq + ns, s.mapping.at2 (nq + ns) i j = s.mapping.at2 (nq + ns) j i
 inside : ∀ i < nq + ns, ∀ j < nq + ns, (i < nq ↔ j < nq) → s.mapping.at2 (nq + ns) i j = zero
 queryRow : ∀ i < nq, ∃! j, j < nq + ns ∧ s.mapping.at2 (nq + ns) i j = one
 sourceRow : ∀ i < nq + ns, nq ≤ i → ∀ j < nq + ns, ∀ k < nq + ns,
  s.mapping.at2 (nq + ns) i j = one → s.mapping.at2 (nq + ns) i k = one → j = k
 le : ∀ i < nq + ns, ∀ j < nq + ns, le (s.mapping.at2 (nq + ns) i j)
  (s.sameLabel.at2 (nq + ns) i j) = true
 unknown : ∃ d, s.sameLabel.minus s.mapping = .ok d ∧ d.Shaped [nq + ns,nq + ns] ∧
  ∀ i < nq + ns, ∀ j < nq + ns, d.at2 (nq + ns) i j = zero ∨ d.at2 (nq + ns) i j = one

lemma blockEntry_binary {nq n : Nat} {cross : Nat → Nat → α}
 (hcro : ∀ i j, cross i j = zero ∨ cross i j = one)
 (k : Nat) : blockEntry nq n (.filled [0,0] zero) (.filled [0,0] zero) cross k = zero ∨
  blockEntry nq n (.filled [0,0] zero) (.filled [0,0] zero) cross k = one := by
 unfold blockEntry
 dsimp only
 split <;> split
 · exact .inl (at2_blank _ _ _)
 · exact hcro _ _
 · exact hcro _ _
 · exact .inl (at2_blank _ _ _)

variable [Scalar.Exact α]

lemma mark_eq_one {p : Prop} [Decidable p] :
 (if p then Scalar.one else Scalar.zero : α) = Scalar.one ↔ p := by
 by_cases hp : p
 · simp [hp]
 · simp [hp,Exact.one_ne_zero.symm]

lemma matched_of_entries {nq ns : Nat} (hm : s.mapping.Shaped [nq + ns,nq + ns])
 (hs : s.sameLabel.Shaped [nq + ns,nq + ns])
 (hf : ∀ i < nq, f i < ns) (hinj : ∀ i < nq, ∀ j < nq, f i = f j → i = j)
 (hmap : ∀ i < nq + ns, ∀ j < nq + ns,
  s.mapping.at2 (nq + ns) i j = if Joined nq f i j then one else zero)
 (hbin : ∀ i < nq + ns, ∀ j < nq + ns,
  s.sameLabel.at2 (nq + ns) i j = zero ∨ s.sameLabel.at2 (nq + ns) i j = one)
 (hali : ∀ i < nq + ns, ∀ j < nq + ns, Joined nq f i j → s.sameLabel.at2 (nq + ns) i j = one) :
 Matched nq ns s := by
 have hone : ∀ i < nq + ns, ∀ j < nq + ns, s.mapping.at2 (nq + ns) i j = one ↔ Joined nq f i j :=
  fun i hi j hj => by
  rw [hmap i hi j hj,mark_eq_one]
 obtain ⟨d,hd,hsha,hent⟩ := zipWith_same hs hm
 refine ⟨hm,hs,?_,?_,?_,?_,?_,?_,d,hd,hsha,?_⟩
 · intro i hi j hj
   rw [hmap i hi j hj]
   split
   · exact .inr rfl
   · exact .inl rfl
 · intro i hi j hj
   rw [hmap i hi j hj,hmap j hj i hi]
   exact if_congr joined_comm rfl rfl
 · intro i hi j hj hside
   rw [hmap i hi j hj,if_neg fun h => h.crosses hside]
 · intro i hi
   have hlt := hf i hi
   refine ⟨nq + f i,⟨by omega,(hone i (by omega) _ (by omega)).2 ((joined_of_lt hi).2 rfl)⟩,?_⟩
   rintro j ⟨hj,hij⟩
   exact (joined_of_lt hi).1 ((hone i (by omega) j hj).1 hij)
 · intro i hi hside j hj k hk hij hik
   obtain ⟨hj',hfj⟩ := (joined_of_le hside).1 ((hone i hi j hj).1 hij)
   obtain ⟨hk',hfk⟩ := (joined_of_le hside).1 ((hone i hi k hk).1 hik)
   exact hinj j hj' k hk' (by omega)
 · intro i hi j hj
   rw [hmap i hi j hj,le]
   split
   · next h => rw [hali i hi j hj h,Exact.eq_one,Bool.or_true]
   · rcases hbin i hi j hj with h | h
     · rw [h,Exact.eq_zero,Bool.or_true]
     · rw [h,Exact.lt_zero_one,Bool.true_or]
 · intro i hi j hj
   have hen : d.at2 (nq + ns) i j = s.sameLabel.at2 (nq + ns) i j - s.mapping.at2 (nq + ns) i j :=
    hent _ (place_lt_pair hi hj)
   rw [hen,hmap i hi j hj]
   split
   · next h => exact .inl (by rw [hali i hi j hj h,Exact.one_sub_one])
   · rcases hbin i hi j hj with h | h
     · exact .inl (by rw [h,Exact.zero_sub_zero])
     · exact .inr (by rw [h,Exact.one_sub_zero])

lemma Pairing.matched (h : Pairing query source pairs f)
 (henc : encode query source width true (.ok pairs) key custom = .ok s) :
  Matched query.size source.size s := by
 obtain ⟨w,adjQuery,hQuery,adjSource,hSource,mapping,verdict,_,hpar,⟨⟩,hmap,_,rfl⟩ :=
  exists_parts henc
 obtain ⟨t,ht,hsha,hent⟩ := mappingMatrix_eq (α := α) h.lt
 rw [h.eq] at hmap
 obtain rfl := ok.inj (ht.symm.trans hmap)
 have hcro : ∀ i j, crossOf query.size source.size w hQuery hSource i j = zero ∨
  crossOf query.size source.size w hQuery hSource i j = one := by
  intro i j
  unfold crossOf
  split
  · exact .inr rfl
  · exact .inl rfl
 have hali : ∀ i < query.size, crossOf query.size source.size w hQuery hSource i (f i) = one := by
  intro i hi
  have hu := getElem?_eq_getElem (size_eq_length query ▸ hi)
  have hv := getElem?_eq_getElem (size_eq_length source ▸ h.lt i hi)
  rw [crossOf_eq hi (h.lt i hi),
   if_pos (sameRow_of_alike hpar.hQuery hpar.hSource hpar.width h.query h.source hu hv
   (h.label i _ _ hu hv) (h.mark i _ _ hu hv))]
 refine matched_of_entries hsha ⟨rfl,Array.size_ofFn⟩ h.lt h.inj hent (fun i hi j hj => ?_)
  fun i hi j hj hij => ?_
 · rw [assemble,at2_build hi hj]
   exact blockEntry_binary hcro _
 · rw [assemble,at2_build hi hj,blockEntry,place_div hj,place_mod hj]
   rcases hij with ⟨h,rfl⟩ | ⟨h,rfl⟩
   · rw [if_pos h,if_neg (by omega),Nat.add_sub_cancel_left,hali i h]
   · rw [if_neg (by omega),if_pos h,Nat.add_sub_cancel_left,hali j h]

lemma Pairing.encode_ok (h : Pairing query source pairs f) (hq : query.Sound) (hs : source.Sound)
 (hq' : Legible query)
 (hs' : Legible source) (hnq : query.ids ≠ []) (hns : source.ids ≠ []) {w : Nat} (hw : 3 ≤ w) :
 ∃ s : Sample α, encode query source (.int w) true (.ok pairs) .none false = .ok s := by
 obtain ⟨adjQuery,hQuery,adjSource,hSource,hpar,_⟩ :=
  exists_parts_of_legible (α := α) true hq hs hq' hs' hnq hns hw
 obtain ⟨t,ht,_⟩ := mappingMatrix_eq (α := α) h.lt
 refine ⟨assemble query.size source.size w adjQuery hQuery adjSource hSource t (-1) .none,?_⟩
 rw [hpar.encode_eq,h.eq]
 simp only [bind,Except.bind,ht]
 rfl

end
end MotifMatch.Encoding
