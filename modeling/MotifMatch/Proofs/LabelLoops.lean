import MotifMatch.Proofs.Loops
import MotifMatch.Proofs.Slices

namespace MotifMatch.Corpus
open List Table MotifMatch.Graph Int Except
section
variable {v : View} {g h : Graph} {members order : List NodeId} {names : List (NodeId × Nat)}
 {k : NodeId → Int} {n : NodeId}

lemma exists_label_of_compactLabels (hg : g.Sound) (hc : compactLabels g = .ok h) (hn : n ∈ g.ids) :
 ∃ v, g.nodeAttr? n "label" = some v := by
 obtain ⟨entries,hent,_⟩ := bind_eq_ok hc
 obtain ⟨e,he,rfl⟩ := mem_map.1 hn
 have hatt : g.attrs? e.1 = some e.2 := get?_of_mem hg.ids he
 rw [nodeAttr?,hatt,Option.bind_some]
 obtain ⟨_,_,hste⟩ := exists_of_forall₂ (forall₂_of_mapM hent).flip he
 cases hlab : e.2.get? "label" with
 | none => simp [hlab] at hste
 | some v => exact ⟨v,rfl⟩

lemma Plain.crops (hg : Plain g) (hcut : cutOut v g members = .ok (h,names)) :
 ∃ order k, order.Nodup ∧ Crops h g order k := by
 have hpart := sound_relist v (hg.sound.induced members.contains)
 have hcop := copies_placed hpart hg.single
 have hlab : ∀ n ∈ (v.part g members).ids, ∃ l, g.nodeAttr? n "label" = some (.int l) := by
  intro n hn
  rw [cutOut_eq hg.sound] at hcut
  obtain ⟨_,hcom,_⟩ := bind_eq_ok hcut
  obtain ⟨v,hv⟩ := exists_label_of_compactLabels hcop.sound hcom ((hcop.ids _).2 ⟨n,hn,rfl⟩)
  rw [hcop.label n hn,nodeAttr?,attrs?_part hg.sound hn] at hv
  obtain ⟨a,ha,hla⟩ := Option.bind_eq_some_iff.1 hv
  obtain ⟨l,rfl⟩ := hg.labels _ (mem_of_get? ha) v hla
  exact ⟨l,hv⟩
 choose! k hk using hlab
 obtain ⟨h',hcut',hcro⟩ := hg.cutOut_crops rfl hk
 rw [hcut] at hcut'
 obtain ⟨rfl,_⟩ := Prod.mk.inj (ok.inj hcut')
 exact ⟨_,k,hpart.ids,hcro⟩

lemma sources_crops {raw : Raw} {s : Sources} (hraw : Plain raw.graph) (hs : raw.sources v = .ok s) :
 ∀ x ∈ s.graphs, ∃ order k, order.Nodup ∧ Crops x.2 raw.graph order k := by
 refine foldlM_keeps (P := fun s : Sources => ∀ x ∈ s.graphs, ∃ order k, order.Nodup ∧
  Crops x.2 raw.graph order k) ?_
  (by simp) hs
 intro s e _ s' ih hste
 obtain ⟨⟨g,names⟩,hcut,hste⟩ := bind_eq_ok hste
 have hgra : s'.graphs = s.graphs ++ [(e.1,g)] := by
  dsimp only at hste
  split at hste
  · cases hste
  · split at hste
    · cases hste
    · split at hste
      · cases hste
      · rw [← ok.inj hste]
 rw [hgra]
 intro x hx
 rcases mem_append.1 hx with hx | hx
 · exact ih x hx
 · rw [mem_singleton.1 hx]
   exact hraw.crops hcut

lemma Crops.counted (hc : Crops h g order k) (hord : order.Nodup) :
 ∀ n ∈ h.ids, ∃ i < h.size, n = .num (ofNat i) := by
 have hmem : ∀ n, n ∈ h.ids ↔ n ∈ (List.range order.length).map fun i => .num (ofNat i) := by
  intro n
  rw [hc.ids,mem_map]
  constructor
  · rintro ⟨m,hm,rfl⟩
    exact ⟨_,mem_range.2 (idxOf_lt_length_iff.2 hm),rfl⟩
  · rintro ⟨i,hi,rfl⟩
    refine ⟨order.get ⟨i,mem_range.1 hi⟩,get_mem _ _,?_⟩
    rw [placeIn,get_eq_getElem,hord.idxOf_getElem]
    rfl
 have hnum : ((List.range order.length).map fun i => NodeId.num (ofNat i)).Nodup :=
  nodup_range.map fun i j heq => ofNat.inj (NodeId.num.inj heq)
 have hlen := ((perm_ext_iff_of_nodup hc.listable.sound.ids hnum).2 hmem).length_eq
 rw [← size_eq_length,length_map,length_range] at hlen
 intro n hn
 obtain ⟨i,hi,rfl⟩ := mem_map.1 ((hmem n).1 hn)
 exact ⟨i,hlen ▸ mem_range.1 hi,rfl⟩

lemma exists_rank_zero {ks : List Int} (h : ks ≠ []) : ∃ k ∈ ks, rank ks k = 0 := by
 obtain ⟨k,hk,hmin⟩ := ks.toFinset.exists_min_image id (by simpa using h)
 refine ⟨k,mem_toFinset.1 hk,?_⟩
 rw [rank,Finset.card_eq_zero,Finset.filter_eq_empty_iff]
 exact fun j hj => not_lt.2 (hmin j hj)

lemma Crops.label_int (hc : Crops h g order k) (hn : n ∈ h.ids) :
 ∃ l, h.nodeAttr? n "label" = some (.int l) := by
 obtain ⟨m,hm,rfl⟩ := (hc.ids n).1 hn
 exact ⟨_,hc.label m hm⟩

lemma Crops.exists_label_one (hc : Crops h g order k) (hn : n ∈ h.ids) :
 ∃ m ∈ h.ids, h.nodeAttr? m "label" = some (.int 1) := by
 obtain ⟨m,hm,_⟩ := (hc.ids n).1 hn
 obtain ⟨_,hk,hzero⟩ := exists_rank_zero (ne_nil_of_mem (mem_map_of_mem hm))
 obtain ⟨m,hm,rfl⟩ := mem_map.1 hk
 refine ⟨_,(hc.ids _).2 ⟨m,hm,rfl⟩,?_⟩
 rw [hc.label m hm,hzero]
 rfl

end

lemma foldl_distinct_reverse (vs acc : List Value) :
 vs.foldl (fun acc v => if acc.any fun w => w == v then acc else v :: acc) acc.reverse =
  (vs.foldl (fun acc v => if acc.any fun w => w == v then acc else acc ++ [v]) acc).reverse := by
 induction vs generalizing acc with
 | nil => rfl
 | cons v vs ih =>
  rw [foldl_cons,foldl_cons,← ih,any_reverse]
  split
  · rfl
  · rw [reverse_append]
    rfl

lemma countDistinct_eq (ks : List Int) : countDistinct (ks.map .int) = ks.toFinset.card := by
 obtain ⟨es,hes,hnod,hmem⟩ := foldl_distinct ks [] nodup_nil
 have hset : ks.toFinset = es.toFinset := by
  ext k
  simp [hmem]
 have hcou := congrArg length (foldl_distinct_reverse (ks.map .int) (([]).map .int))
 rw [hes,length_reverse,length_map] at hcou
 rw [hset,toFinset_card_of_nodup hnod]
 exact hcou

lemma two_le_countDistinct_iff {vs : List Value} (hvs : ∀ v ∈ vs, ∃ l, v = .int l) :
 2 ≤ countDistinct vs ↔ ∃ v ∈ vs, ∃ w ∈ vs, v ≠ w := by
 obtain ⟨ks,rfl⟩ : vs ∈ Set.range (map .int) := by
  rw [Set.range_list_map]
  exact fun v hv => (hvs v hv).imp fun _ h => h.symm
 rw [countDistinct_eq,Nat.succ_le_iff,Finset.one_lt_card]
 simp

lemma mem_labelsOf {g : Graph} (hg : g.Sound) {ls : List Value} (h : labelsOf g = .ok ls)
 {v : Value} :
 v ∈ ls ↔ ∃ n ∈ g.ids, g.nodeAttr? n "label" = some v := by
 have hall := forall₂_of_mapM h
 constructor
 · intro hv
   obtain ⟨a,ha,hlab⟩ := exists_of_forall₂ hall hv
   obtain ⟨e,he,rfl⟩ := mem_map.1 ha
   have hatt : g.attrs? e.1 = some e.2 := get?_of_mem hg.ids he
   refine ⟨e.1,mem_map_of_mem he,Option.bind_eq_some_iff.2 ⟨e.2,hatt,?_⟩⟩
   cases hget : e.2.get? "label" <;> simp_all
 · rintro ⟨n,_,hv⟩
   obtain ⟨a,hatt,ha⟩ := Option.bind_eq_some_iff.1 hv
   obtain ⟨w,hw,hlab⟩ := exists_of_forall₂ hall.flip (mem_map_of_mem (mem_of_get? hatt))
   simp only [ha,ok.injEq] at hlab
   rwa [hlab]

lemma profile_labels {gs : List Graph} {perSource : Value} {p : Profile} (hgs : ∀ g ∈ gs, g.Sound)
 (h : profile gs perSource = .ok p) :
  ∃ vs, profileInt p "number_label_node" = .ok (countDistinct vs) ∧
  ∀ v, v ∈ vs ↔ ∃ g ∈ gs, ∃ n ∈ g.ids, g.nodeAttr? n "label" = some v := by
 obtain ⟨labels,hlab,h⟩ := bind_eq_ok h
 obtain ⟨degrees,_,h⟩ := bind_eq_ok h
 cases h
 have hall := forall₂_of_mapM hlab
 refine ⟨labels.flatten,rfl,fun v => ?_⟩
 rw [mem_flatten]
 constructor
 · rintro ⟨ls,hls,hv⟩
   obtain ⟨g,hg,hlab⟩ := exists_of_forall₂ hall hls
   exact ⟨g,hg,(mem_labelsOf (hgs g hg) hlab).1 hv⟩
 · rintro ⟨g,hg,hv⟩
   obtain ⟨ls,hls,hlab⟩ := exists_of_forall₂ hall.flip hg
   exact ⟨ls,hls,(mem_labelsOf (hgs g hg) hlab).2 hv⟩

end MotifMatch.Corpus

namespace MotifMatch.Sampling
open Corpus (Crops Profile Raw Sources View)
variable {view : View} {raw : Raw} {s : Sources} {p : Profile} {perSource : Value} {k l : Int}

def Usual (k : Int) (v : Value) : Prop := ∃ l : Int, v = .int l ∧ (k ≤ 1 → l = 1)

lemma changeLabel_canEnd_iff (hl : k ≤ 1 → l = 1) :
 (Loop.changeLabel (.int l) k).CanEnd ↔ 2 ≤ k := by
 simp only [Loop.CanEnd,Value.same_int,beq_eq_false_iff_ne]
 constructor
 · rintro ⟨m,hm,hmk,hne⟩
   by_contra hk
   exact hne (by rw [hl (by omega)]; omega)
 · intro hk
   by_cases h : l = 1
   · exact ⟨2,by decide,hk,by omega⟩
   · exact ⟨1,by decide,by omega,by omega⟩

lemma exists_two_labels_iff {vs : List Value}
 (hcro : ∀ x ∈ s.graphs, ∃ order k, order.Nodup ∧ Crops x.2 raw.graph order k)
 (hvs : ∀ v, v ∈ vs ↔ ∃ x ∈ s.graphs, ∃ n ∈ x.2.ids, x.2.nodeAttr? n "label" = some v) :
 (∃ v ∈ vs, ∃ w ∈ vs, v ≠ w) ↔
  ∃ x ∈ s.graphs, ∃ m ∈ x.2.ids, ∃ n ∈ x.2.ids, x.2.nodeAttr? m "label" ≠
   x.2.nodeAttr? n "label" := by
 constructor
 · rintro ⟨v,hv,w,hw,hne⟩
   obtain ⟨u,hu,hne⟩ : ∃ u ∈ vs, u ≠ .int 1 := by
    by_cases h : v = .int 1
    · exact ⟨w,hw,fun hw => hne (h.trans hw.symm)⟩
    · exact ⟨v,hv,h⟩
   obtain ⟨x,hx,n,hn,hlab⟩ := (hvs u).1 hu
   obtain ⟨_,_,_,hc⟩ := hcro x hx
   obtain ⟨m,hm,hone⟩ := hc.exists_label_one hn
   refine ⟨x,hx,n,hn,m,hm,fun h => hne ?_⟩
   exact Option.some.inj (hlab.symm.trans (h.trans hone))
 · rintro ⟨x,hx,m,hm,n,hn,hne⟩
   obtain ⟨_,_,_,hc⟩ := hcro x hx
   obtain ⟨i,hi⟩ := hc.label_int hm
   obtain ⟨j,hj⟩ := hc.label_int hn
   exact ⟨_,(hvs _).2 ⟨x,hx,m,hm,hi⟩,_,(hvs _).2 ⟨x,hx,n,hn,hj⟩,fun h => hne (by rw [hi,hj,h])⟩

lemma usual_labels {labels edges numbers anchors : String}
 (hraw : Corpus.ofTexts labels edges numbers anchors = .ok raw)
 (hs : raw.sources view = .ok s) (hp : Corpus.profile (s.graphs.map Prod.snd) perSource = .ok p) :
 ∃ k : Int, Corpus.profileInt p "number_label_node" = .ok k ∧
  (2 ≤ k ↔ ∃ x ∈ s.graphs, ∃ m ∈ x.2.ids, ∃ n ∈ x.2.ids, x.2.nodeAttr? m "label" ≠
   x.2.nodeAttr? n "label") ∧
  ∀ x ∈ s.graphs, Framed (Usual k) x.2.size x.2 ∧ ∀ n ∈ x.2.ids, ∃ i < x.2.size, n =
   .num (Int.ofNat i) := by
 have hcro := Corpus.sources_crops (Corpus.plain_ofTexts hraw) hs
 have hsou : ∀ g ∈ s.graphs.map Prod.snd, g.Sound := by
  intro g hg
  obtain ⟨x,hx,rfl⟩ := List.mem_map.1 hg
  obtain ⟨_,_,_,hc⟩ := hcro x hx
  exact hc.listable.sound
 obtain ⟨vs,hcou,hvs⟩ := Corpus.profile_labels hsou hp
 simp only [List.mem_map,exists_exists_and_eq_and] at hvs
 have hint : ∀ v ∈ vs, ∃ l : Int, v = .int l := by
  intro v hv
  obtain ⟨x,hx,n,hn,hlab⟩ := (hvs v).1 hv
  obtain ⟨_,_,_,hc⟩ := hcro x hx
  obtain ⟨l,hl⟩ := hc.label_int hn
  exact ⟨l,Option.some.inj (hlab.symm.trans hl)⟩
 have htwo := Corpus.two_le_countDistinct_iff hint
 refine ⟨Corpus.countDistinct vs,hcou,?_,fun x hx => ?_⟩
 · rw [← exists_two_labels_iff hcro hvs,← htwo]
   omega
 · obtain ⟨_,_,hord,hc⟩ := hcro x hx
   have hids := hc.counted hord
   refine ⟨⟨hc.listable.sound,hc.listable.single,hc.listable.undirected,
    fun _ => lt_size_of_num_mem hids,fun n v hv => ?_⟩,hids⟩
   obtain ⟨a,ha,_⟩ := Option.bind_eq_some_iff.1 hv
   have hn : n ∈ x.2.ids := Graph.attrs?_isSome_iff.1 (by rw [ha]; rfl)
   obtain ⟨l,hl⟩ := hc.label_int hn
   obtain ⟨m,hm,hone⟩ := hc.exists_label_one hn
   obtain rfl := Option.some.inj (hv.symm.trans hl)
   refine ⟨l,rfl,fun hk => ?_⟩
   by_contra hne
   have htwo := htwo.2 ⟨_,(hvs _).2 ⟨x,hx,n,hn,hl⟩,_,(hvs _).2 ⟨x,hx,m,hm,hone⟩,
    fun h => hne (Value.int.inj h)⟩
   omega

theorem label_loops_can_end_iff {labels edges numbers anchors : String}
 (hraw : Corpus.ofTexts labels edges numbers anchors = .ok raw)
 (hs : raw.sources view = .ok s) (hp : Corpus.profile (s.graphs.map Prod.snd) perSource = .ok p) :
 ∃ k : Int, Corpus.profileInt p "number_label_node" = .ok k ∧
  (2 ≤ k ↔ ∃ x ∈ s.graphs, ∃ m ∈ x.2.ids, ∃ n ∈ x.2.ids, x.2.nodeAttr? m "label" ≠
   x.2.nodeAttr? n "label") ∧
  ∀ x ∈ s.graphs, ∀ (patience : Nat) (induced : Bool) (count : Nat) (mean spread : Float)
   (edgeLabels : Int) (st : Streams),
   ∃ log, Logged.on (estrange patience induced count mean spread ⟨k,edgeLabels⟩) x.2 st =
    (Edit.on (estrange patience induced count mean spread ⟨k,edgeLabels⟩) x.2 st,log) ∧
    ∀ loop ∈ log, loop.overGraph = false → (loop.CanEnd ↔ 2 ≤ k) := by
 obtain ⟨k,hk,htwo,hfra⟩ := usual_labels hraw hs hp
 refine ⟨k,hk,htwo,fun x hx patience induced count mean spread edgeLabels st => ?_⟩
 obtain ⟨hx,hids⟩ := hfra x hx
 refine (hx.follows_estrange hids fun l hl (hl' : l ≤ k) => ⟨l,rfl,fun hk => by omega⟩).on
  (fun loop hfits hover => ?_) st
 cases loop with
 | changeLabel old labels =>
  obtain ⟨⟨l,rfl,hl⟩,rfl⟩ := hfits
  exact changeLabel_canEnd_iff hl
 | _ => cases hover

theorem uniform_labels_stuck : ∃ raw s p, Corpus.ofTexts "1\n1\n1" "1,2\n1,3\n2,3" "1\n1\n1" "1 1" =
 .ok raw ∧ raw.sources .asListed = .ok s ∧
 Corpus.profile (s.graphs.map Prod.snd) (.int 1) = .ok p ∧
  Corpus.profileInt p "number_label_node" = .ok 1 ∧
 ∃ x ∈ s.graphs, ∃ loop ∈ (Logged.on (estrange 100 false 3 2.0 1.0 ⟨1,1⟩) x.2 ⟨.seed 11,.seed 0⟩).2,
  ¬loop.CanEnd := by
 have hraw : Corpus.ofTexts "1\n1\n1" "1,2\n1,3\n2,3" "1\n1\n1" "1 1" =
  .ok ⟨triangle,Corpus.membersOf [0,0,0],⟨[(0,0)]⟩⟩ := by cbv
 have hs : (Raw.mk triangle (Corpus.membersOf [0,0,0]) ⟨[(0,0)]⟩).sources .asListed =
  .ok ⟨[(.int 0,triangle)],[(.int 0,[(.num 0,0),(.num 1,1),(.num 2,2)])],[(.int 0,0)]⟩ := by cbv
 obtain ⟨p,hp,hone⟩ : ∃ p, Corpus.profile [triangle] (.int 1) = .ok p ∧
  Corpus.profileInt p "number_label_node" = .ok 1 :=
  ⟨_,rfl,congrArg (fun c : Nat => Except.ok (c : Int))
   ((Corpus.countDistinct_eq [1,1,1]).trans (by decide))⟩
 refine ⟨_,_,p,hraw,hs,hp,hone,_,List.mem_singleton_self _,?_⟩
 have hche : (Logged.on (estrange 100 false 3 2.0 1.0 ⟨1,1⟩) triangle ⟨.seed 11,.seed 0⟩).2.any
  (fun l => !l.overGraph) = true := by
  decide +kernel
 obtain ⟨loop,hloop,hover⟩ := List.any_eq_true.1 hche
 refine ⟨loop,hloop,fun hend => ?_⟩
 obtain ⟨k,hk,_,hiff⟩ := label_loops_can_end_iff hraw hs hp
 obtain rfl := Except.ok.inj (hone.symm.trans hk)
 obtain ⟨log,hrun,hlog⟩ :=
  hiff _ (List.mem_singleton_self _) 100 false 3 2.0 1.0 1 ⟨.seed 11,.seed 0⟩
 rw [Nat.cast_ofNat] at hrun
 rw [hrun] at hloop
 exact absurd ((hlog loop hloop (by simpa using hover)).1 hend) (by decide)

end MotifMatch.Sampling
