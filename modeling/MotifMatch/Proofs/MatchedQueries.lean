import MotifMatch.Proofs.KnownPairs
import MotifMatch.Proofs.QueryClasses
import MotifMatch.Proofs.Samples

namespace MotifMatch.Graph
variable {g : Graph} {index : NodeId → Int} {order : List NodeId} {directed : Bool}

lemma ids_listedBase (hnod : (order.map index).Nodup) :
 (g.listedBase index order directed).ids = order.map fun n => .num (index n) := by
 have hkey : (g.listedNodes index order).map Prod.fst = order.map fun n => .num (index n) := by
  rw [listedNodes,List.map_map]
  rfl
 have hnum := hnod.map fun _ _ h => NodeId.num.inj h
 rw [List.map_map] at hnum
 rw [listedBase,ids_foldl_addNode]
 · exact hkey
 · rw [hkey]
   exact hnum

lemma ids_graph_upwards (hg : g.Sound) (hnod : (order.map index).Nodup)
 (hord : ∀ n ∈ g.ids, n ∈ order) :
 ((g.contents index order).upwards.graph directed).ids = order.map fun n => .num (index n) := by
 have hends : ∀ e ∈ g.edgeList.map fun e => listedEdge index (upward index e),
  e.source ∈ (g.listedBase index order directed).ids ∧
   e.target ∈ (g.listedBase index order directed).ids := by
  intro e he
  obtain ⟨x,hx,rfl⟩ := List.mem_map.1 he
  obtain ⟨hs,ht,_⟩ := mem_edgeList_ends hg hx
  rw [mem_ids_listedBase,mem_ids_listedBase]
  rcases ends_upward index x with ⟨hsou,htar⟩ | ⟨hsou,htar⟩
  · exact ⟨⟨_,hord _ (hsou ▸ hs),rfl⟩,_,hord _ (htar ▸ ht),rfl⟩
  · exact ⟨⟨_,hord _ (hsou ▸ ht),rfl⟩,_,hord _ (htar ▸ hs),rfl⟩
 rw [graph_upwards,ids,(foldl_addListed_frame hends).1,← ids,ids_listedBase hnod]

end MotifMatch.Graph

namespace MotifMatch.Sampling
open MotifMatch.Graph (Within)
section
variable {g : Graph} {anchor : Option NodeId} {a : NodeId} {induced : Bool} {count : Int}
 {mean spread : Float}

lemma isoQuery_within (hg : g.Sound) (hm : g.multi = false) (ha : a ∈ g.ids) :
 (isoQuery g (some a) induced count mean spread).Gives fun s => Within s g ∧
  s.directed = g.directed ∧ a ∈ s.ids := by
 refine gives_carved (fun part hpart => ⟨(hpart.within hg hm).1,?_⟩) fun _ h u v ⟨hh,hd,hmem⟩ =>
  ⟨?_,hd,hmem⟩
 · obtain ⟨mask,rfl⟩ := hpart.left
   exact ⟨rfl,mem_ids_masked ha mask⟩
 · exact hh.trans (Graph.within_removeEdge hh.sound hh.single u v)

end
end MotifMatch.Sampling

namespace MotifMatch.Preparation
open List MotifMatch.Graph Listing Run Sampling MotifMatch.Path
open Corpus Encoding
open MotifMatch.Graph (Within)
variable {g s : Graph} {q : Graph × List NodeId} {n : Nat} {a : Int}

lemma Listable.of_within (hg : Listable g) (hw : Within s g) (hd : s.directed = g.directed) :
 Listable s where
 sound := hw.sound
 single := hw.single
 undirected := hd.trans hg.undirected
 numbered := {
   nodes := fun n hn => by
     rw [nodeAttr?,hw.nodes n hn]
     exact hg.numbered.nodes n (hw.ids hn)
   edges := fun e he => by
     have hatt :=
      hw.edges _ _ _ ((hw.sound.edgeAttrs?_eq_some_iff hw.single).2 ⟨e,he,joins_self e,rfl⟩)
     obtain ⟨f,hf,_,heq⟩ := (hg.sound.edgeAttrs?_eq_some_iff hg.single).1 hatt
     rw [← heq]
     exact hg.numbered.edges f hf }

lemma ids_raised (directed : Bool) (hs : Listable q.1) (hper : q.2.Perm q.1.ids) :
 (raised directed q).ids = (List.range q.2.length).map fun i => .num (Int.ofNat i) := by
 have hnod : q.2.Nodup := hper.nodup_iff.2 hs.sound.ids
 have hpla : (q.2.map (placeIn q.2)).Nodup :=
  (nodup_map_iff_inj_on hnod).2 fun _ hm _ _ h => placeIn_inj hm h
 rw [raised,ids_graph_upwards hs.sound hpla fun _ hn => hper.mem_iff.2 hn]
 refine ext_getElem (by simp) fun i _ _ => ?_
 simp [placeIn,hnod.idxOf_getElem]

lemma ids_raisedSource (directed : Bool) (hg : Listable g) :
 (raisedSource directed g).ids = g.ids := by
 have hnum : (g.ids.map idNumber).Nodup := (nodup_map_iff_inj_on hg.sound.ids).2 hg.idNumber_inj
 rw [raisedSource,ids_graph_upwards hg.sound hnum fun _ hn => hn]
 exact (map_congr_left fun n hn => (hg.numbered.id_eq hn).symm).trans (map_id _)

def partner (order : List NodeId) (i : Nat) : Nat := (idNumber (order.getD i (.num 0))).toNat

lemma partner_spec {order : List NodeId} {i : Nat} (hi : i < order.length)
 (hmem : order[i] ∈ (List.range n).map fun k => NodeId.num (Int.ofNat k)) :
 partner order i < n ∧ order[i] = .num (Int.ofNat (partner order i)) := by
 obtain ⟨k,hk,heq⟩ := mem_map.1 hmem
 have hpla : partner order i = k := by
  rw [partner,getD_eq_getElem?_getD,getElem?_eq_getElem hi,Option.getD_some,← heq]
  rfl
 exact ⟨hpla ▸ mem_range.1 hk,hpla ▸ heq.symm⟩

lemma pairing_query (hg : Listable g)
 (hids : g.ids = (List.range n).map fun k => .num (Int.ofNat k)) (hs : Listable q.1)
 (hw : Within q.1 g) (hper : q.2.Perm q.1.ids) :
 Pairing ((raised false q).marked (.num (placeIn q.2 (.num a))))
  ((raisedSource false g).marked (.num a))
  (queryPairs false q) (partner q.2) := by
 have hr := restores_query hs hper a
 have hr' := restores_source hg a
 have hnod : q.2.Nodup := hper.nodup_iff.2 hs.sound.ids
 have hque : ((raised false q).marked (.num (placeIn q.2 (.num a)))).ids =
  (List.range q.2.length).map fun i =>
   .num (Int.ofNat i) := by rw [ids_marked,ids_raised false hs hper]
 have hsou : ((raisedSource false g).marked (.num a)).ids = (List.range n).map fun k =>
  .num (Int.ofNat k) := by
  rw [ids_marked,ids_raisedSource false hg,hids]
 have hnode : ∀ i (hi : i < q.2.length), partner q.2 i < n ∧
  q.2[i] = .num (Int.ofNat (partner q.2 i)) := fun i hi =>
  partner_spec hi (hids ▸ hw.ids (hper.mem_iff.1 (getElem_mem hi)))
 have hpla : ∀ i (hi : i < q.2.length), placeIn q.2 q.2[i] = Int.ofNat i := fun i hi => by
  rw [placeIn,hnod.idxOf_getElem]
  rfl
 have hat : ∀ i u v, ((raised false q).marked (.num (placeIn q.2 (.num a)))).ids[i]? = some u →
  ((raisedSource false g).marked (.num a)).ids[partner q.2 i]? = some v → v ∈ q.1.ids ∧
   u = .num (placeIn q.2 v) := by
  intro i u v hu hv
  obtain ⟨hi,rfl⟩ := List.getElem?_eq_some_iff.1 hu
  obtain ⟨_,rfl⟩ := List.getElem?_eq_some_iff.1 hv
  simp only [hque,hsou,length_map,length_range,getElem_map,getElem_range] at hi ⊢
  rw [← (hnode i hi).2,hpla i hi]
  exact ⟨hper.mem_iff.1 (getElem_mem hi),rfl⟩
 have hsiz : ((raised false q).marked (.num (placeIn q.2 (.num a)))).size =
  q.2.length := by simp [size_eq_length,hque]
 have hsiz' : ((raisedSource false g).marked (.num a)).size = n := by simp [size_eq_length,hsou]
 have hflag : ∀ (p : Prop) [Decidable p], (if p then 1 else 0 : Int) = 0 ∨
  (if p then 1 else 0 : Int) = 1 := fun p _ => by
  split <;> simp
 refine ⟨?_,?_,?_,?_,?_,?_,?_⟩
 · rw [queryPairs_part,hsiz,pairsAlong]
   refine ext_getElem (by simp) fun i hi _ => ?_
   rw [length_map] at hi
   simp only [getElem_map,getElem_range,hpla i hi,Prod.mk.injEq,true_and]
   exact congrArg idNumber (hnode i hi).2
 · rw [hsiz,hsiz']
   exact fun i hi => (hnode i hi).1
 · rw [hsiz]
   intro i hi j hj heq
   refine hnod.getElem_inj_iff.1 (?_ : q.2[i] = q.2[j])
   rw [(hnode i hi).2,(hnode j hj).2,heq]
 · intro i u v hu hv
   obtain ⟨hmem,rfl⟩ := hat i u v hu hv
   rw [hr.label v hmem,nodeAttr?,hw.nodes v hmem]
   exact (hr'.label v (hw.ids hmem)).symm
 · intro i u v hu hv
   obtain ⟨hmem,rfl⟩ := hat i u v hu hv
   exact (hr.anchor v hmem).trans (hr'.anchor v (hw.ids hmem)).symm
 · intro u hu
   obtain ⟨m,hm,rfl⟩ := (hr.ids u).1 hu
   exact ⟨_,hr.anchor m hm,hflag _⟩
 · intro u hu
   obtain ⟨m,hm,rfl⟩ := (hr'.ids u).1 hu
   exact ⟨_,hr'.anchor m hm,hflag _⟩

lemma legible_of_restores {h : Graph} {f : NodeId → NodeId} {m : NodeId} (hr : h.Restores g f m)
 (hg : Listable g)
 (hpos : ∀ n ∈ g.ids, ∀ l, g.nodeAttr? n "label" = some (.int l) → 0 < l)
 (hwei : ∀ e ∈ h.edges, e.attrs.get? "weight" = none) : Legible h where
 label u hu := by
  obtain ⟨n,hn,rfl⟩ := (hr.ids u).1 hu
  obtain ⟨_,l,_,hl⟩ := hg.numbered.nodes n hn
  exact ⟨_,l,(hr.label n hn).trans hl,rfl,hpos n hn l hl⟩
 anchor u hu v hv := by
  obtain ⟨n,hn,rfl⟩ := (hr.ids u).1 hu
  obtain rfl := Option.some.inj ((hr.anchor n hn).symm.trans hv)
  split
  · exact .inr rfl
  · exact .inl rfl
 weight := hwei

variable {σ : Session} {folder : String} {d : List String} {i : Int}
 {iso nonIso : List Graph} {v : Value}

theorem loaded_matched (hroom : Room σ folder (toString i) d) (hne : folder ≠ "")
 (hdir : ∃ w, σ.settings.get "directed" = .ok w ∧ w.truthy = false) (hi : i ≠ -1)
 (hv : v = .int i ∨ v = .str (toString i))
 (hg : Listable g) (hids : g.ids = (List.range n).map fun k => .num (Int.ofNat k))
 (ha : .num a ∈ g.ids)
 (hiso : ∀ s ∈ iso, ∃ st induced count mean spread,
  ((isoQuery g (some (.num a)) induced count mean spread).run.run st).1 = .ok s)
 (hnon : ∀ s ∈ nonIso, Foreign s ∧ s.ids ≠ []) (names : List (Int × Int)) (limit : Int) :
 ∃ σ' b, Ends (write folder ⟨.int i,g,names.map fun x => (.int x.1,.int x.2),.int a,iso,nonIso⟩) σ
  (.ok ()) σ' ∧
  Ends (load folder v limit) σ' (.ok b) σ' ∧
  b.iso.map Prod.fst = ((range iso.length).filter (Listing.admits limit)).map Int.ofNat ∧
  ∀ k query, (k,query) ∈ b.iso → ∃ pairs, b.isoPairs.get? k = some pairs ∧
   ∀ (α : Type) [Scalar α] [Scalar.Exact α],
   (∀ width key custom (s : Sample α),
    encode query b.source width true (.ok pairs) key custom = .ok s →
    Matched query.size b.source.size s) ∧
   ((∀ m ∈ g.ids, ∀ l, g.nodeAttr? m "label" = some (.int l) → 0 < l) → ∀ w : Nat, 3 ≤ w →
    ∃ s : Sample α, encode query b.source (.int w) true (.ok pairs) .none false = .ok s) := by
 have hpart : ∀ s ∈ iso, Within s g ∧ Listable s ∧ .num a ∈ s.ids := by
  intro s hs
  obtain ⟨st,induced,count,mean,spread,hrun⟩ := hiso s hs
  obtain ⟨hw,hd,hmem⟩ :=
   Sampling.isoQuery_within hg.sound hg.single ha st s _ trivial (Prod.ext hrun rfl)
  exact ⟨hw,Listable.of_within hg hw hd,hmem⟩
 have hnat : g.Natural := by
  intro m hm
  rw [hids] at hm
  obtain ⟨k,_,rfl⟩ := mem_map.1 hm
  exact ⟨k,rfl⟩
 obtain ⟨σ',b,hwri,hload,hb,hpairs,hgra⟩ := ends_write_load hroom hne hdir hi hv hg hnat ha
  (fun s hs => (hpart s hs).2) hnon names limit
 have hord := ordered_shuffled σ.streams.shuffling iso
 refine ⟨σ',b,hwri,hload,?_,fun k query hmem => ?_⟩
 · rw [hgra,← hord.length]
   exact keys_admitted limit _ _
 · rw [hgra] at hmem
   obtain ⟨k,q,hq,hadm,heq⟩ := mem_admitted.1 hmem
   obtain ⟨rfl,rfl⟩ := Prod.mk.inj heq
   have hmem := mem_of_getElem? hq
   obtain ⟨hw,hs,hanc⟩ := hpart q.1 (hord.mem hmem)
   have hper := hord.perm q hmem
   have hpair := pairing_query (a := a) hg hids hs hw hper
   refine ⟨_,hpairs ▸ get?_admitted _ hq hadm,
    fun α _ _ => ⟨fun width key custom s h => ?_,fun hpos w hwid => ?_⟩⟩
   · rw [hb] at h ⊢
     exact hpair.matched h
   · have hr := restores_query hs hper a
     have hr' := restores_source hg a
     have hpos' : ∀ m ∈ q.1.ids, ∀ l, q.1.nodeAttr? m "label" = some (.int l) → 0 < l :=
      fun m hm l hl =>
      hpos m (hw.ids hm) l (by rwa [nodeAttr?,hw.nodes m hm] at hl)
     rw [hb]
     exact hpair.encode_ok hr.sound hr'.sound
      (legible_of_restores hr hs hpos' (Contents.weight_graph _ _))
      (legible_of_restores hr' hg hpos (Contents.weight_graph _ _))
      (ne_nil_of_mem ((hr.ids _).2 ⟨_,hanc,rfl⟩)) (ne_nil_of_mem ((hr'.ids _).2 ⟨_,ha,rfl⟩)) hwid

theorem fence_matched : ∃ s σ' b query pairs, ∃ t : Sample Float,
 ((isoQuery fence (some (.num 2)) false 3 2.0 1.0).run.run ⟨.seed 3,.seed 0⟩).1 = .ok s ∧
 Ends (write (ofProject "data/datasets//CPG_train")
  ⟨.int 0,fence,fenceNames.map fun x => (.int x.1,.int x.2),.int 2,[s],[graft 3 8]⟩) emptyCorpus
   (.ok ()) σ' ∧
 Ends (load (ofProject "data/datasets//CPG_train") (.int 0) (-1)) σ' (.ok b) σ' ∧ (0,query) ∈ b.iso ∧
 b.isoPairs.get? 0 = some pairs ∧ encode query b.source (.int 3) true (.ok pairs) .none false =
  .ok t ∧
 Matched query.size b.source.size t := by
 have hroom : Room emptyCorpus (ofProject "data/datasets//CPG_train") (toString (0 : Int))
  ["glema","data","datasets","CPG_train"] := ⟨emptyCorpus_leads,⟨[],rfl⟩,fun e he => by cases he⟩
 have hdraw : ((isoQuery fence (some (.num 2)) false 3 2.0 1.0).run.run
  ⟨.seed 3,.seed 0⟩).1.toOption.isSome = true := by
  decide +kernel
 have hpos : ∀ m ∈ fence.ids, ∀ l, fence.nodeAttr? m "label" = some (.int l) → 0 < l := by
  intro m hm l hl
  fin_cases hm <;> cases hl <;> decide
 have hoth : ∀ s ∈ [graft 3 8], Foreign s ∧ s.ids ≠ [] := by
  intro s hs
  obtain rfl := mem_singleton.1 hs
  exact ⟨graft_foreign (by decide),by decide⟩
 generalize hrun : ((isoQuery fence (some (.num 2)) false 3 2.0 1.0).run.run ⟨.seed 3,.seed 0⟩).1 =
  x at hdraw ⊢
 obtain _ | s := x
 · cases hdraw
 have hiso : ∀ r ∈ [s], ∃ st induced count mean spread,
  ((isoQuery fence (some (.num 2)) induced count mean spread).run.run st).1 = .ok r := by
  intro r hr
  obtain rfl := mem_singleton.1 hr
  exact ⟨_,_,_,_,_,hrun⟩
 obtain ⟨σ',b,hwri,hload,hkey,hque⟩ :=
  loaded_matched (n := 4) hroom (by decide +kernel) ⟨_,rfl,rfl⟩ (by decide)
  (.inl rfl) fence_listable rfl (by decide) hiso hoth fenceNames (-1)
 obtain ⟨⟨_,query⟩,hmem,rfl⟩ : ∃ e ∈ b.iso, e.1 = 0 :=
  mem_map.1 (hkey ▸ (by decide : (0 : Int) ∈ [0]))
 obtain ⟨pairs,hpair,hall⟩ := hque 0 query hmem
 obtain ⟨hmat,henc⟩ := hall Float
 obtain ⟨t,ht⟩ := henc hpos 3 (by decide)
 exact ⟨s,σ',b,query,pairs,t,rfl,hwri,hload,hmem,hpair,ht,hmat _ _ _ _ ht⟩

end MotifMatch.Preparation
