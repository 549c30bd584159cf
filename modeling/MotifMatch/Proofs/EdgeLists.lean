import Mathlib.Data.List.Pairwise
import MotifMatch.Proofs.Graphs

namespace MotifMatch.Graph
open List Table
variable {g : Graph} {u v : NodeId} {e : Edge}

lemma Sound.eq_of_joins (hg : g.Sound) (hm : g.multi = false) {f : Edge} (he : e ∈ g.edges)
 (hf : f ∈ g.edges)
 (hje : g.joins u v e) (hjf : g.joins u v f) : e = f := by
 by_contra hne
 have hsymm : Std.Symm fun e f : Edge => g.joins e.source e.target f = false :=
  ⟨fun a b h => by rwa [joins_symm]⟩
 have happ := (hg.single hm).forall he hf hne
 rw [← joins_of_joins hje,hjf] at happ
 cases happ

def edgeAttrs? (g : Graph) (u v : NodeId) : Option Attrs := (g.edge? u v).map Edge.attrs

lemma isSome_edgeAttrs? : (g.edgeAttrs? u v).isSome = g.hasEdge u v := by
 rw [edgeAttrs?,Option.isSome_map,edge?,Bool.eq_iff_iff,find?_isSome,hasEdge_iff]

lemma Sound.edge?_eq_some_iff (hg : g.Sound) (hm : g.multi = false) :
 g.edge? u v = some e ↔ e ∈ g.edges ∧ g.joins u v e := by
 constructor
 · intro h
   exact ⟨mem_of_find?_eq_some h,find?_some h⟩
 · rintro ⟨he,hj⟩
   have hsome := find?_isSome.2 ⟨e,he,hj⟩
   obtain ⟨f,hf⟩ := Option.isSome_iff_exists.1 hsome
   rw [edge?,hf,hg.eq_of_joins hm (mem_of_find?_eq_some hf) he (find?_some hf) hj]

lemma Sound.edgeAttrs?_eq_some_iff (hg : g.Sound) (hm : g.multi = false) {a : Attrs} :
 g.edgeAttrs? u v = some a ↔ ∃ e ∈ g.edges, g.joins u v e ∧ e.attrs = a := by
 simp only [edgeAttrs?,Option.map_eq_some_iff,hg.edge?_eq_some_iff hm,and_assoc]

section

lemma mem_leaving : e ∈ g.leaving u ↔
 ∃ f ∈ g.edges, ∃ v, g.joins u v f ∧ e = { f with source := u, target := v } := by
 simp only [leaving,mem_filterMap,Option.map_eq_some_iff,farEnd?_eq_some_iff]
 constructor
 · rintro ⟨f,hf,v,hj,rfl⟩
   exact ⟨f,hf,v,hj,rfl⟩
 · rintro ⟨f,hf,v,hj,rfl⟩
   exact ⟨f,hf,v,hj,rfl⟩

lemma fan_eq_leaving (hm : g.multi = false) (u : NodeId) : g.fan u = g.leaving u := by
 simp [fan,hm]

lemma mem_fan : e ∈ g.fan u ↔ e ∈ g.leaving u := by
 unfold fan
 split
 · simp only [mem_flatMap,mem_filter]
   constructor
   · rintro ⟨_,_,he,_⟩
     exact he
   · intro he
     obtain ⟨f,hf,v,hj,rfl⟩ := mem_leaving.1 he
     exact ⟨v,mem_neighbors_iff.2 (hasEdge_iff.2 ⟨f,hf,hj⟩),he,by simp⟩
 · rfl

variable {ns done : List NodeId}

lemma mem_listFrom (he : e ∈ g.listFrom done ns) :
 e.source ∈ ns ∧ e ∈ g.leaving e.source ∧ (g.directed = false → e.target ∉ done) := by
 induction ns generalizing done with
 | nil => simp [listFrom] at he
 | cons n ns ih =>
  rcases mem_append.1 he with he | he
  · obtain ⟨hfan,hkeep⟩ := mem_filter.1 he
    rw [mem_fan] at hfan
    have hsou : e.source = n := by
     obtain ⟨f,_,v,_,rfl⟩ := mem_leaving.1 hfan
     rfl
    rw [hsou]
    refine ⟨by simp,hfan,fun hd => ?_⟩
    simpa [hd] using hkeep
  · obtain ⟨hsou,hlea,hdone⟩ := ih he
    exact ⟨by simp [hsou],hlea,fun hd hmem => hdone hd (by simp [hmem])⟩

lemma exists_mem_listFrom {f : Edge} (hf : f ∈ g.edges)
 (hj : g.joins u v f) (hu : u ∈ ns) (hdone : g.directed = false → u ∉ done ∧ v ∉ done) :
 ∃ e ∈ g.listFrom done ns, g.joins u v e ∧ e.attrs = f.attrs ∧ e.key = f.key := by
 induction ns generalizing done with
 | nil => simp at hu
 | cons n ns ih =>
  -- the edge is listed where the first of its ends is met
  by_cases hnu : n = u
  · refine ⟨{ f with source := u, target := v },mem_append_left _ (mem_filter.2 ⟨?_,?_⟩),
     joins_iff.2 (.inl ⟨rfl,rfl⟩),rfl,rfl⟩
    · rw [mem_fan,hnu]
      exact mem_leaving.2 ⟨f,hf,v,hj,rfl⟩
    · cases hd : g.directed with
      | true => rfl
      | false => simp [hdone hd]
  · by_cases hnv : g.directed = false ∧ n = v
    · obtain ⟨hd,rfl⟩ := hnv
      refine ⟨{ f with source := n, target := u },mem_append_left _ (mem_filter.2 ⟨?_,?_⟩),
       joins_iff.2 (.inr ⟨hd,rfl,rfl⟩),rfl,rfl⟩
      · rw [mem_fan]
        exact mem_leaving.2 ⟨f,hf,u,by rwa [joins_comm hd],rfl⟩
      · simp [hdone hd]
    · have hu' : u ∈ ns := (mem_cons.1 hu).resolve_left (Ne.symm hnu)
      have hdon' : g.directed = false → u ∉ n :: done ∧ v ∉ n :: done := by
       intro hd
       have hnv' : v ≠ n := fun h => hnv ⟨hd,h.symm⟩
       simp [hdone hd,Ne.symm hnu,hnv']
      obtain ⟨e,he,hres⟩ := ih hu' hdon'
      exact ⟨e,mem_append_right _ he,hres⟩

lemma exists_mem_edgeList {f : Edge} (hf : f ∈ g.edges) (hj : g.joins u v f) (hu : u ∈ g.ids) :
 ∃ e ∈ g.edgeList, g.joins u v e ∧ e.attrs = f.attrs ∧ e.key = f.key :=
 exists_mem_listFrom hf hj hu fun _ => ⟨by simp,by simp⟩

variable (hg : g.Sound)
include hg

lemma listFrom_apart (hm : g.multi = false) (hns : ns.Nodup) :
 (g.listFrom done ns).Pairwise fun e f => g.joins e.source e.target f = false := by
 induction ns generalizing done with
 | nil => exact .nil
 | cons n ns ih =>
  rw [nodup_cons] at hns
  refine pairwise_append.2 ⟨?_,ih hns.2,?_⟩
  · refine Pairwise.filter _ ?_
    rw [fan_eq_leaving hm,leaving]
    refine Pairwise.filterMap _ ?_ (hg.single hm)
    intro e f hef x hx y hy
    obtain ⟨s,hs,rfl⟩ := Option.map_eq_some_iff.1 hx
    obtain ⟨t,ht,rfl⟩ := Option.map_eq_some_iff.1 hy
    rw [farEnd?_eq_some_iff] at hs ht
    rw [Bool.eq_false_iff]
    intro hj
    have hst : t = s := by
     rcases joins_iff.1 hj with ⟨_,h⟩ | ⟨_,h,h'⟩
     · exact h
     · exact Eq.trans h' h
    rw [← joins_of_joins hs,← hst,ht] at hef
    cases hef
  · intro e he f hf
    obtain ⟨hfan,_⟩ := mem_filter.1 he
    rw [fan_eq_leaving hm] at hfan
    obtain ⟨x,_,v,_,rfl⟩ := mem_leaving.1 hfan
    obtain ⟨hsou,_,hdone⟩ := mem_listFrom hf
    rw [Bool.eq_false_iff]
    intro hj
    rcases joins_iff.1 hj with ⟨h,_⟩ | ⟨hd,_,h⟩
    · rw [h] at hsou
      exact hns.1 hsou
    · exact hdone hd (by simp [h])

lemma mem_edgeList_ends (he : e ∈ g.edgeList) :
 e.source ∈ g.ids ∧ e.target ∈ g.ids ∧ e.attrs.keys.Nodup := by
 obtain ⟨hsou,hlea,_⟩ := mem_listFrom he
 obtain ⟨f,hf,v,hj,heq⟩ := mem_leaving.1 hlea
 have hedge : g.hasEdge e.source v := hasEdge_iff.2 ⟨f,hf,hj⟩
 refine ⟨hsou,?_,?_⟩
 · rw [heq]
   exact (hg.of_hasEdge hedge).2
 · rw [heq]
   exact hg.edgeAttrs f hf

lemma exists_mem_edgeList_iff {a : Attrs} :
 (∃ e ∈ g.edgeList, g.joins u v e ∧ e.attrs = a) ↔ ∃ f ∈ g.edges, g.joins u v f ∧ f.attrs = a := by
 constructor
 · rintro ⟨e,he,hj,rfl⟩
   obtain ⟨_,hlea,_⟩ := mem_listFrom he
   obtain ⟨f,hf,x,hjf,heq⟩ := mem_leaving.1 hlea
   have htar : e.target = x := by rw [heq]
   refine ⟨f,hf,?_,by rw [heq]⟩
   rw [joins_of_joins hj,htar]
   exact hjf
 · rintro ⟨f,hf,hj,rfl⟩
   have hends := hg.of_hasEdge (hasEdge_iff.2 ⟨f,hf,hj⟩)
   obtain ⟨e,he,hj,hatt,_⟩ := exists_mem_edgeList hf hj hends.1
   exact ⟨e,he,hj,hatt⟩

lemma Sound.relisted : g.relisted.Sound where
 ids := hg.ids
 attrs := hg.attrs
 ends := fun _ he => ⟨(mem_edgeList_ends hg he).1,(mem_edgeList_ends hg he).2.1⟩
 edgeAttrs := fun _ he => (mem_edgeList_ends hg he).2.2
 single := fun hm => listFrom_apart hg hm hg.ids

lemma edgeAttrs?_relisted (hm : g.multi = false) : g.relisted.edgeAttrs? u v = g.edgeAttrs? u v := by
 ext a
 rw [(hg.relisted).edgeAttrs?_eq_some_iff hm,hg.edgeAttrs?_eq_some_iff hm]
 exact exists_mem_edgeList_iff hg

lemma hasEdge_relisted : g.relisted.hasEdge u v = g.hasEdge u v := by
 rw [Bool.eq_iff_iff,hasEdge_iff,hasEdge_iff]
 constructor
 · rintro ⟨e,he,hj⟩
   obtain ⟨f,hf,hjoi,_⟩ := (exists_mem_edgeList_iff hg).1 ⟨e,he,hj,rfl⟩
   exact ⟨f,hf,hjoi⟩
 · rintro ⟨f,hf,hj⟩
   obtain ⟨e,he,hjoi,_⟩ := (exists_mem_edgeList_iff hg).2 ⟨f,hf,hj,rfl⟩
   exact ⟨e,he,hjoi⟩

end

section

lemma joins_of_directed {h : Graph} (hd : h.directed = g.directed) :
 h.joins u v e = g.joins u v e := by
 simp [joins,hd]

lemma hasEdge_edges_map {k : Edge → Edge}
 (hk : ∀ f, (k f).source = f.source ∧ (k f).target = f.target) :
 ({ g with edges := g.edges.map k }).hasEdge u v = g.hasEdge u v := by
 simp only [hasEdge,any_map]
 exact congrArg g.edges.any (funext fun f => joins_congr (hk f).1 (hk f).2 u v)

lemma hasEdge_place {known : Edge → Bool} (hkno : ∀ f, known f → g.joins e.source e.target f) :
 (g.place e known).hasEdge u v = (g.hasEdge u v || g.joins u v e) := by
 unfold place
 split
 · next hany =>
   obtain ⟨f,hf,hkf⟩ := any_eq_true.1 hany
   rw [hasEdge_edges_map (fun x => by split <;> exact ⟨rfl,rfl⟩),Bool.eq_iff_iff,Bool.or_eq_true]
   constructor
   · exact .inl
   · rintro (h | h)
     · exact h
     · exact hasEdge_iff.2 ⟨f,hf,(joins_of_joins h).trans (hkno f hkf)⟩
 · simp only [hasEdge,any_append,any_cons,any_nil,Bool.or_false]
   rfl

lemma hasEdge_addListed (e : Edge) :
 (g.addListed e).hasEdge u v = (g.hasEdge u v || g.joins u v e) := by
 have htou : ((g.touch e.source).touch e.target).hasEdge u v = g.hasEdge u v := by
  simp only [hasEdge,edges_touch]
  exact congrArg g.edges.any (funext fun _ => joins_of_directed (by simp))
 have hjoi : ∀ f : Edge, ((g.touch e.source).touch e.target).joins u v f = g.joins u v f := fun f =>
  joins_of_directed (by simp)
 have hcon : ∀ k : Value, g.joins u v ⟨e.source,e.target,k,e.attrs⟩ = g.joins u v e := fun _ =>
  joins_congr rfl rfl u v
 unfold addListed
 split
 · unfold addKeyed
   rw [hasEdge_place (fun f hf => (Bool.and_eq_true_iff.1 hf).1),htou,hjoi,hcon]
 · unfold addEdge
   simp only
   split
   · rw [← htou,← hcon (freshKey (((g.touch e.source).touch e.target).edges.filter
      (((g.touch e.source).touch e.target).joins e.source e.target))),← hjoi]
     simp only [hasEdge,any_append,any_cons,any_nil,Bool.or_false]
     rfl
   · rw [hasEdge_place (fun f hf => hf),htou,hjoi,hcon]

lemma hasEdge_foldl_addListed (es : List Edge) :
 (es.foldl addListed g).hasEdge u v = (g.hasEdge u v || es.any (g.joins u v)) := by
 induction es generalizing g with
 | nil => simp
 | cons e es ih =>
  have hd : (g.addListed e).directed = g.directed := by
   unfold addListed
   split
   · simp [addKeyed]
   · exact directed_addEdge _ _ _
  have hjoi : (g.addListed e).joins u v = g.joins u v := funext fun _ => joins_of_directed hd
  rw [foldl_cons,ih,hasEdge_addListed,hjoi,any_cons,Bool.or_assoc]

lemma hasEdge_entered (h : g.edges = []) (es : List Edge) :
 (es.foldl addListed g).hasEdge u v ↔ ∃ e ∈ es, g.joins u v e := by
 rw [hasEdge_foldl_addListed,hasEdge,h,any_nil,Bool.false_or,any_eq_true]

lemma addListed_of_mem (hm : g.multi = false) (hs : e.source ∈ g.ids) (ht : e.target ∈ g.ids) :
 g.addListed e = g.place ⟨e.source,e.target,.none,e.attrs⟩ (g.joins e.source e.target) := by
 rw [addListed,hm]
 exact addEdge_of_mem hm hs ht _

lemma exists_place (hs : e.source ∈ g.ids) (ht : e.target ∈ g.ids) : ∃ key known,
 g.addListed e = g.place ⟨e.source,e.target,key,e.attrs⟩ known ∧
  (g.multi = false → known = g.joins e.source e.target) := by
 cases hm : g.multi with
 | false => exact ⟨_,_,addListed_of_mem hm hs ht,fun _ => rfl⟩
 | true =>
  refine ⟨e.key,fun f => g.joins e.source e.target f && f.key == e.key,?_,by simp⟩
  rw [addListed,hm,if_pos rfl,addKeyed,touch_of_mem hs,touch_of_mem ht]

variable {es : List Edge}

lemma foldl_addListed_frame (hes : ∀ e ∈ es, e.source ∈ g.ids ∧ e.target ∈ g.ids) :
 (es.foldl addListed g).nodes = g.nodes ∧ (es.foldl addListed g).directed = g.directed ∧
  (es.foldl addListed g).multi = g.multi := by
 induction es generalizing g with
 | nil => exact ⟨rfl,rfl,rfl⟩
 | cons e es ih =>
  obtain ⟨key,known,hste,_⟩ := exists_place (hes e (by simp)).1 (hes e (by simp)).2
  have hids : (g.addListed e).ids = g.ids := by rw [hste,ids,nodes_place,ids]
  have hres : ∀ f ∈ es, f.source ∈ (g.addListed e).ids ∧ f.target ∈ (g.addListed e).ids := by
   intro f hf
   rw [hids]
   exact hes f (by simp [hf])
  obtain ⟨h1,h2,h3⟩ := ih hres
  rw [foldl_cons]
  refine ⟨?_,?_,?_⟩
  · rw [h1,hste,nodes_place]
  · rw [h2,hste,directed_place]
  · rw [h3,hste,multi_place]

section
variable (hg : g.Sound) (hs : e.source ∈ g.ids) (ht : e.target ∈ g.ids) (ha : e.attrs.keys.Nodup)
include hg hs ht ha

lemma Sound.place
 {known : Edge → Bool} (hkno : g.multi = false → known = g.joins e.source e.target) :
  (g.place e known).Sound := by
 unfold Graph.place
 split
 · have hends : ∀ f : Edge, (if known f = true then
    { f with attrs := f.attrs.putAll e.attrs.entries } else f).source = f.source ∧
    (if known f = true then
    { f with attrs := f.attrs.putAll e.attrs.entries } else f).target = f.target := by
    intro f
    split <;> exact ⟨rfl,rfl⟩
   refine ⟨hg.ids,hg.attrs,?_,?_,fun hm => ?_⟩
   · intro x hx
     obtain ⟨f,hf,rfl⟩ := mem_map.1 hx
     rw [(hends f).1,(hends f).2]
     exact hg.ends f hf
   · intro x hx
     obtain ⟨f,hf,rfl⟩ := mem_map.1 hx
     split
     · exact nodup_putAll (hg.edgeAttrs f hf) _
     · exact hg.edgeAttrs f hf
   · refine pairwise_map.2 ((hg.single hm).imp fun {a b} hab => ?_)
     rw [(hends a).1,(hends a).2]
     exact (joins_congr (hends b).1 (hends b).2 _ _).trans hab
 · next hnone =>
   refine ⟨hg.ids,hg.attrs,?_,?_,fun hm => pairwise_append.2 ⟨hg.single hm,by simp,?_⟩⟩
   · intro x hx
     rcases mem_append.1 hx with hx | hx
     · exact hg.ends x hx
     · rw [mem_singleton.1 hx]
       exact ⟨hs,ht⟩
   · intro x hx
     rcases mem_append.1 hx with hx | hx
     · exact hg.edgeAttrs x hx
     · rw [mem_singleton.1 hx]
       exact ha
   · intro x hx y hy
     rw [mem_singleton.1 hy]
     change g.joins x.source x.target _ = false
     rw [joins_symm,← hkno hm]
     simpa using (any_eq_false.1 (Bool.not_eq_true _ ▸ hnone)) x hx

lemma Sound.addListed : (g.addListed e).Sound := by
 obtain ⟨key,known,hste,hkno⟩ := exists_place hs ht
 rw [hste]
 exact hg.place (e := ⟨e.source,e.target,key,e.attrs⟩) hs ht ha hkno

end

lemma Sound.foldl_addListed (hg : g.Sound)
 (hes : ∀ e ∈ es, e.source ∈ g.ids ∧ e.target ∈ g.ids ∧ e.attrs.keys.Nodup) :
 (es.foldl Graph.addListed g).Sound := by
 induction es generalizing g with
 | nil => exact hg
 | cons e es ih =>
  obtain ⟨hs,ht,ha⟩ := hes e (by simp)
  obtain ⟨key,known,hste,_⟩ := exists_place hs ht
  have hids : (g.addListed e).ids = g.ids := by rw [hste,Graph.ids,nodes_place,Graph.ids]
  refine ih (hg.addListed hs ht ha) fun f hf => ?_
  rw [hids]
  exact hes f (by simp [hf])

lemma foldl_addListed_apart (hm : g.multi = false)
 (hes : ∀ e ∈ es, e.source ∈ g.ids ∧ e.target ∈ g.ids)
 (hap : (g.edges ++ es).Pairwise fun e f : Edge => g.joins e.source e.target f = false) :
 es.foldl addListed g = { g with edges := g.edges ++ es.map fun e => { e with key := .none } } := by
 induction es generalizing g with
 | nil => simp
 | cons e es ih =>
  have hnone : g.edges.any (g.joins e.source e.target) = false := by
   rw [any_eq_false]
   intro f hf
   have hfe := (pairwise_append.1 hap).2.2 f hf e (by simp)
   rw [joins_symm,hfe]
   simp
  have hste : g.addListed e = { g with edges := g.edges ++ [{ e with key := .none }] } := by
   rw [addListed_of_mem hm (hes e (by simp)).1 (hes e (by simp)).2,place_of_not_known hnone]
  have hap' : (g.edges ++ [{ e with key := .none }] ++ es).Pairwise fun e f : Edge =>
   g.joins e.source e.target f = false := by
   rw [append_assoc,pairwise_append] at *
   refine ⟨hap.1,pairwise_cons.2 ⟨fun f hf => ?_,(pairwise_cons.1 hap.2.1).2⟩,fun x hx f hf => ?_⟩
   · exact (pairwise_cons.1 hap.2.1).1 f hf
   · rcases mem_cons.1 hf with rfl | hf
     · exact hap.2.2 x hx e (by simp)
     · exact hap.2.2 x hx f (mem_cons_of_mem e hf)
  rw [foldl_cons,hste]
  have hres := ih (g := { g with edges := g.edges ++ [{ e with key := .none }] }) hm
   (fun f hf => hes f (by simp [hf])) hap'
  rw [hres]
  simp

end

section
variable {keep : NodeId → Bool}

lemma mem_ids_induced {n : NodeId} :
 n ∈ (g.induced keep).ids ↔ n ∈ g.ids ∧ keep n := by
 simp only [ids,Table.keys,induced,mem_map,mem_entries_filter]
 constructor
 · rintro ⟨e,⟨he,hk⟩,rfl⟩
   exact ⟨⟨e,he,rfl⟩,hk⟩
 · rintro ⟨⟨e,he,rfl⟩,hk⟩
   exact ⟨e,⟨he,hk⟩,rfl⟩

lemma Sound.induced (hg : g.Sound) (keep : NodeId → Bool) : (g.induced keep).Sound where
 ids := nodup_filter hg.ids _
 attrs := fun e he => hg.attrs e (mem_entries_filter.1 he).1
 ends := by
  intro e he
  obtain ⟨he,hk⟩ := mem_filter.1 he
  rw [Bool.and_eq_true] at hk
  exact ⟨mem_ids_induced.2 ⟨(hg.ends e he).1,hk.1⟩,mem_ids_induced.2 ⟨(hg.ends e he).2,hk.2⟩⟩
 edgeAttrs := fun e he => hg.edgeAttrs e (mem_filter.1 he).1
 single := fun hm => (hg.single hm).filter _

lemma attrs?_induced (hg : g.ids.Nodup) {n : NodeId} (hk : keep n) :
 (g.induced keep).attrs? n = g.attrs? n := by
 have hids : (g.induced keep).ids.Nodup := nodup_filter hg _
 ext a
 rw [attrs?,attrs?,get?_eq_some_iff hids,get?_eq_some_iff hg]
 exact mem_entries_filter.trans (and_iff_left hk)

lemma hasEdge_induced (hu : keep u) (hv : keep v) :
 (g.induced keep).hasEdge u v = g.hasEdge u v := by
 rw [Bool.eq_iff_iff,hasEdge_iff,hasEdge_iff]
 constructor
 · rintro ⟨e,he,hj⟩
   exact ⟨e,(mem_filter.1 he).1,hj⟩
 · rintro ⟨e,he,hj⟩
   refine ⟨e,mem_filter.2 ⟨he,?_⟩,hj⟩
   rcases joins_iff.1 hj with ⟨rfl,rfl⟩ | ⟨_,rfl,rfl⟩ <;> simp [hu,hv]

variable (hg : g.Sound)
include hg

lemma mem_flatMap_fan (he : e ∈ g.ids.flatMap g.fan) :
 e.source ∈ g.ids ∧ e.target ∈ g.ids ∧ e.attrs.keys.Nodup ∧ g.hasEdge e.source e.target := by
 obtain ⟨n,hn,he⟩ := mem_flatMap.1 he
 obtain ⟨f,hf,v,hj,rfl⟩ := mem_leaving.1 (mem_fan.1 he)
 have hedge : g.hasEdge n v := hasEdge_iff.2 ⟨f,hf,hj⟩
 exact ⟨hn,(hg.of_hasEdge hedge).2,hg.edgeAttrs f hf,hedge⟩

lemma Sound.recast (directed multi : Bool) : (g.recast directed multi).Sound := by
 have hbare : ({ g with directed := directed, multi := multi, edges := [] } : Graph).Sound :=
  ⟨hg.ids,hg.attrs,by simp,by simp,fun _ => .nil⟩
 refine hbare.foldl_addListed fun e he => ?_
 obtain ⟨hs,ht,ha,_⟩ := mem_flatMap_fan hg he
 exact ⟨hs,ht,ha⟩

lemma recast_spec (directed multi : Bool) : (g.recast directed multi).nodes = g.nodes ∧
 (g.recast directed multi).directed = directed ∧ (g.recast directed multi).multi = multi ∧
 ∀ u v, (g.recast directed multi).hasEdge u v = (g.hasEdge u v || !directed && g.hasEdge v u) := by
 have hends : ∀ e ∈ g.ids.flatMap g.fan, e.source ∈ g.ids ∧ e.target ∈ g.ids := fun e he =>
  ⟨(mem_flatMap_fan hg he).1,(mem_flatMap_fan hg he).2.1⟩
 obtain ⟨hnod,hdir,hmul⟩ := foldl_addListed_frame (g :=
  { g with directed, multi, edges := [] }) hends
 refine ⟨hnod,hdir,hmul,fun u v => ?_⟩
 have hlis : ∀ x y, g.hasEdge x y → ∃ e ∈ g.ids.flatMap g.fan, e.source = x ∧ e.target = y := by
  intro x y hxy
  obtain ⟨f,hf,hj⟩ := hasEdge_iff.1 hxy
  refine ⟨{ f with source := x, target := y },mem_flatMap.2 ⟨x,(hg.of_hasEdge hxy).1,?_⟩,rfl,rfl⟩
  exact mem_fan.2 (mem_leaving.2 ⟨f,hf,y,hj,rfl⟩)
 rw [Bool.eq_iff_iff,Bool.or_eq_true,Bool.and_eq_true,Bool.not_eq_true',recast,hasEdge_entered rfl]
 constructor
 · rintro ⟨e,he,hj⟩
   rcases joins_iff.1 hj with ⟨rfl,rfl⟩ | ⟨hd,rfl,rfl⟩
   · exact .inl (mem_flatMap_fan hg he).2.2.2
   · exact .inr ⟨hd,(mem_flatMap_fan hg he).2.2.2⟩
 · rintro (h | ⟨hd,h⟩)
   · obtain ⟨e,he,hs,ht⟩ := hlis u v h
     exact ⟨e,he,joins_iff.2 (.inl ⟨hs,ht⟩)⟩
   · obtain ⟨e,he,hs,ht⟩ := hlis v u h
     exact ⟨e,he,joins_iff.2 (.inr ⟨hd,hs,ht⟩)⟩

lemma recast_undirected (multi : Bool) : (g.recast false multi).nodes = g.nodes ∧
 (g.recast false multi).directed = false ∧ (g.recast false multi).multi = multi ∧
 ∀ u v, (g.recast false multi).hasEdge u v = (g.hasEdge u v || g.hasEdge v u) :=
  recast_spec hg false multi

lemma toUndirected_spec : g.toUndirected.nodes = g.nodes ∧
 g.toUndirected.directed = false ∧ g.toUndirected.multi = g.multi ∧
 ∀ u v, g.toUndirected.hasEdge u v = (g.hasEdge u v || g.hasEdge v u) := by
 unfold toUndirected
 split
 · exact recast_undirected hg g.multi
 · next hd =>
   rw [Bool.not_eq_true] at hd
   refine ⟨rfl,hd,rfl,fun u v => ?_⟩
   rw [hasEdge_relisted hg,hasEdge_comm hd v u,Bool.or_self]

end

variable {h : Graph} {n : NodeId}
section

def moved (f : NodeId → NodeId) (e : Edge) : Edge :=
 { e with source := f e.source, target := f e.target }

def bare (g : Graph) (f : NodeId → NodeId) : Graph :=
 { g with nodes := ofList (g.nodes.entries.map fun e => (f e.1,e.2)), edges := [] }

lemma renamed_eq (f : NodeId → NodeId) :
 g.renamed f = (g.edgeList.map (moved f)).foldl addListed (g.bare f) := by
 rw [renamed,bare,ofList,putAll,foldl_map,foldl_map]
 rfl

lemma mem_ids_bare {f : NodeId → NodeId} : n ∈ (g.bare f).ids ↔ ∃ m ∈ g.ids, f m = n := by
 rw [ids,bare,ofList,mem_keys_putAll,keys_empty]
 simp [ids,Table.keys]

section
variable (hg : g.Sound)
include hg

lemma moved_ends (f : NodeId → NodeId) :
 ∀ e ∈ g.edgeList.map (moved f), e.source ∈ (g.bare f).ids ∧ e.target ∈ (g.bare f).ids ∧
  e.attrs.keys.Nodup := by
 intro e he
 obtain ⟨x,hx,rfl⟩ := mem_map.1 he
 obtain ⟨hs,ht,ha⟩ := mem_edgeList_ends hg hx
 exact ⟨mem_ids_bare.2 ⟨_,hs,rfl⟩,mem_ids_bare.2 ⟨_,ht,rfl⟩,ha⟩

lemma nodes_renamed (hm : g.multi = false) (f : NodeId → NodeId) :
 (g.renamed f).nodes = (g.bare f).nodes ∧ (g.renamed f).directed = g.directed ∧
 (g.renamed f).multi = false := by
 rw [renamed_eq]
 obtain ⟨hnod,hdir,hmul⟩ := foldl_addListed_frame fun e he =>
  ⟨(moved_ends hg f e he).1,(moved_ends hg f e he).2.1⟩
 exact ⟨hnod,hdir,hmul.trans hm⟩

lemma Sound.bare (f : NodeId → NodeId) : (g.bare f).Sound := by
 refine ⟨nodup_ofList _,?_,by simp [Graph.bare],by simp [Graph.bare],fun _ => .nil⟩
 intro e he
 have hget := get?_of_mem (nodup_ofList _) he
 rw [ofList,get?_putAll] at hget
 rcases Option.or_eq_some_iff.1 hget with hget | ⟨_,hget⟩
 · obtain ⟨x,hx,hxe⟩ := mem_map.1 (mem_reverse.1 (mem_of_get? hget))
   obtain rfl : e = (f x.1,x.2) := hxe.symm
   exact hg.attrs x hx
 · cases hget

lemma Sound.renamed (f : NodeId → NodeId) : (g.renamed f).Sound := by
 rw [renamed_eq]
 exact (hg.bare f).foldl_addListed (moved_ends hg f)

lemma mem_ids_renamed (hm : g.multi = false) (f : NodeId → NodeId) :
 n ∈ (g.renamed f).ids ↔ ∃ m ∈ g.ids, f m = n := by
 rw [ids,(nodes_renamed hg hm f).1]
 exact mem_ids_bare

lemma hasEdge_iff_listed : g.hasEdge u v ↔ ∃ e ∈ g.edgeList, g.joins u v e := by
 rw [← hasEdge_relisted hg,hasEdge_iff]
 rfl

lemma hasEdge_renamed (f : NodeId → NodeId) {x y : NodeId} :
 (g.renamed f).hasEdge x y ↔ ∃ u v, g.hasEdge u v ∧ f u = x ∧ f v = y := by
 rw [renamed_eq,hasEdge_entered rfl]
 constructor
 · rintro ⟨e,he,hj⟩
   obtain ⟨a,ha,rfl⟩ := mem_map.1 he
   have hedge := (hasEdge_iff_listed hg).2 ⟨a,ha,joins_self a⟩
   rcases joins_iff.1 hj with ⟨hx,hy⟩ | ⟨hd,hy,hx⟩
   · exact ⟨_,_,hedge,hx,hy⟩
   · exact ⟨_,_,(hasEdge_comm (g := g) hd _ _).trans hedge,hx,hy⟩
 · rintro ⟨u,v,huv,rfl,rfl⟩
   obtain ⟨a,ha,hj⟩ := (hasEdge_iff_listed hg).1 huv
   refine ⟨_,mem_map_of_mem ha,joins_iff.2 ?_⟩
   rcases joins_iff.1 hj with ⟨rfl,rfl⟩ | ⟨hd,rfl,rfl⟩
   · exact .inl ⟨rfl,rfl⟩
   · exact .inr ⟨hd,rfl,rfl⟩

end

variable {f : NodeId → NodeId}
variable (hg : g.Sound) (hm : g.multi = false) (hf : ∀ u ∈ g.ids, ∀ v ∈ g.ids, f u = f v → u = v)
include hg hm hf

lemma entries_renamed : (g.renamed f).nodes.entries = g.nodes.entries.map fun e => (f e.1,e.2) := by
 rw [(nodes_renamed hg hm f).1,bare,entries_ofList]
 rw [map_map,show Prod.fst ∘ (fun e : NodeId × Attrs => (f e.1,e.2)) = f ∘ Prod.fst from rfl,
  ← map_map]
 exact (nodup_map_iff_inj_on hg.ids).2 hf

lemma attrs?_renamed (hn : n ∈ g.ids) : (g.renamed f).attrs? (f n) = g.attrs? n := by
 obtain ⟨a,ha⟩ := exists_attrs hn
 rw [ha,attrs?,get?_eq_some_iff (hg.renamed f).ids,entries_renamed hg hm hf]
 exact mem_map.2 ⟨(n,a),mem_of_get? ha,rfl⟩

end

section

lemma foldl_addNode_frame (es : List (NodeId × Attrs)) :
 (es.foldl (fun acc e => acc.addNode e.1 e.2) g).edges = g.edges ∧
 (es.foldl (fun acc e => acc.addNode e.1 e.2) g).directed = g.directed ∧
 (es.foldl (fun acc e => acc.addNode e.1 e.2) g).multi = g.multi := by
 induction es generalizing g with
 | nil => exact ⟨rfl,rfl,rfl⟩
 | cons e es ih => exact ih

variable {es : List (NodeId × Attrs)}

lemma mem_ids_foldl_addNode :
 n ∈ (es.foldl (fun acc e => acc.addNode e.1 e.2) g).ids ↔ n ∈ g.ids ∨ n ∈ es.map Prod.fst := by
 induction es generalizing g with
 | nil => simp
 | cons e es ih =>
  have hste : n ∈ (g.addNode e.1 e.2).ids ↔ n ∈ g.ids ∨ n = e.1 := mem_keys_put
  rw [foldl_cons,ih,hste,map_cons,mem_cons,or_assoc]

lemma attrs?_foldl_addNode (hes : (es.map Prod.fst).Nodup) :
 (es.foldl (fun acc e => acc.addNode e.1 e.2) g).attrs? n =
  match (Table.mk es).get? n with
  | some b => some (((g.attrs? n).getD .empty).putAll b.entries)
  | none => g.attrs? n := by
 induction es generalizing g with
 | nil => rfl
 | cons e es ih =>
  rw [map_cons,nodup_cons] at hes
  rw [foldl_cons,ih hes.2,get?_mk_cons,attrs?_addNode]
  by_cases hn : n = e.1
  · subst hn
    have hnone : (Table.mk es).get? e.1 = none := (get?_eq_none_iff _ _).2 hes.1
    simp [hnone]
  · have hbeq : (e.1 == n) = false := beq_eq_false_iff_ne.2 (Ne.symm hn)
    simp [hbeq,hn]

lemma Sound.foldl_addNode (hg : g.Sound) (es : List (NodeId × Attrs)) :
 (es.foldl (fun acc e => acc.addNode e.1 e.2) g).Sound := by
 induction es generalizing g with
 | nil => exact hg
 | cons e es ih => exact ih (hg.addNode e.1 e.2)

variable (hg : g.Sound) (hh : h.Sound) (hmg : g.multi = false) (hd : h.directed = g.directed)
include hg hh hmg hd

lemma overlay_spec : (g.overlay h).directed = g.directed ∧ (g.overlay h).multi = false ∧
 (g.overlay h).Sound ∧
 (∀ n, n ∈ (g.overlay h).ids ↔ n ∈ g.ids ∨ n ∈ h.ids) ∧
 (∀ n, (g.overlay h).attrs? n = match h.attrs? n with
  | some b => some (((g.attrs? n).getD .empty).putAll b.entries)
  | none => g.attrs? n) ∧
 ∀ u v, (g.overlay h).hasEdge u v = (g.hasEdge u v || h.hasEdge u v) := by
 have hbase := (hg.relisted).foldl_addNode h.nodes.entries
 obtain ⟨hedg,hdir,hmul⟩ := foldl_addNode_frame (g := g.relisted) h.nodes.entries
 have hmem : ∀ n, n ∈ (h.nodes.entries.foldl (fun acc e => acc.addNode e.1 e.2) g.relisted).ids ↔
  n ∈ g.ids ∨ n ∈ h.ids := fun n => mem_ids_foldl_addNode
 have hends : ∀ e ∈ h.edgeList,
  e.source ∈ (h.nodes.entries.foldl (fun acc e => acc.addNode e.1 e.2) g.relisted).ids ∧
  e.target ∈ (h.nodes.entries.foldl (fun acc e => acc.addNode e.1 e.2) g.relisted).ids ∧
   e.attrs.keys.Nodup := by
  intro e he
  obtain ⟨hs,ht,ha⟩ := mem_edgeList_ends hh he
  exact ⟨(hmem _).2 (.inr hs),(hmem _).2 (.inr ht),ha⟩
 obtain ⟨hnod,hdir',hmul'⟩ := foldl_addListed_frame fun e he => ⟨(hends e he).1,(hends e he).2.1⟩
 refine ⟨hdir'.trans hdir,hmul'.trans (hmul.trans hmg),hbase.foldl_addListed hends,?_,?_,?_⟩
 · intro n
   rw [ids,overlay,show ({ g with edges := g.edgeList } : Graph) = g.relisted from rfl,hnod]
   exact hmem n
 · intro n
   rw [attrs?,overlay,show ({ g with edges := g.edgeList } : Graph) = g.relisted from rfl,hnod]
   exact attrs?_foldl_addNode hh.ids
 · intro u v
   have hjoi : (h.nodes.entries.foldl (fun acc e => acc.addNode e.1 e.2) g.relisted).joins u v =
    h.joins u v :=
    funext fun _ => joins_of_directed (hdir.trans hd.symm)
   have hold : (h.nodes.entries.foldl (fun acc e => acc.addNode e.1 e.2) g.relisted).hasEdge u v =
    g.hasEdge u v := by
    rw [← hasEdge_relisted hg,hasEdge,hasEdge,hedg]
    exact congrArg g.relisted.edges.any (funext fun _ => joins_of_directed hdir)
   have hnew : h.edgeList.any (h.joins u v) = h.hasEdge u v := by
    rw [← hasEdge_relisted hh]
    rfl
   rw [overlay,show ({ g with edges := g.edgeList } : Graph) = g.relisted from rfl,
    hasEdge_foldl_addListed,
    hold,hjoi,hnew]

lemma nodeAttr?_overlay (n : NodeId) (k : String) :
 (g.overlay h).nodeAttr? n k = (h.nodeAttr? n k).or (g.nodeAttr? n k) := by
 obtain ⟨_,_,_,_,hatt,_⟩ := overlay_spec hg hh hmg hd
 rw [nodeAttr?,nodeAttr?,nodeAttr?,hatt]
 cases hb : h.attrs? n with
 | none => rfl
 | some b =>
  have hnod : b.keys.Nodup := hh.attrs (n,b) (mem_of_get? hb)
  simp only [Option.bind_some,get?_putAll_entries _ hnod]
  cases g.attrs? n with
  | none => rfl
  | some a => rfl

end
end MotifMatch.Graph
