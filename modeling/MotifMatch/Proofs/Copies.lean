import MotifMatch.Graph.Anchor
import MotifMatch.Proofs.EdgeLists
import MotifMatch.Proofs.Listings

namespace MotifMatch.Graph
open List Table Listing NodeId Function
variable {g h base : Graph} {f : NodeId → NodeId}
section
variable {edge : Edge → Edge} {change : Attrs → Attrs}

structure Turns (g : Graph) (f : NodeId → NodeId) (edge : Edge → Edge) (change : Attrs → Attrs) :
 Prop where
 ends : ∀ e, ((edge e).source = f e.source ∧ (edge e).target = f e.target) ∨
  (g.directed = false ∧ (edge e).source = f e.target ∧ (edge e).target = f e.source)
 attrs : ∀ e, (edge e).attrs = change e.attrs
 nodup : ∀ a : Attrs, a.keys.Nodup → (change a).keys.Nodup
 inj : ∀ u ∈ g.ids, ∀ v ∈ g.ids, f u = f v → u = v

lemma Turns.joins (base : Graph) (ht : Turns g f edge change) (hd : base.directed = g.directed)
 {u v : NodeId} (hu : u ∈ g.ids)
 (hv : v ∈ g.ids) {e : Edge} (hs : e.source ∈ g.ids) (ht' : e.target ∈ g.ids) :
 base.joins (f u) (f v) (edge e) = g.joins u v e := by
 have hiff : ∀ {x y}, x ∈ g.ids → y ∈ g.ids → (f x = f y ↔ x = y) := fun hx hy =>
  ⟨ht.inj _ hx _ hy,congrArg f⟩
 rw [Bool.eq_iff_iff,joins_iff,joins_iff,hd]
 rcases ht.ends e with ⟨hsou,htar⟩ | ⟨hund,hsou,htar⟩
 · rw [hsou,htar,hiff hs hu,hiff ht' hv,hiff hs hv,hiff ht' hu]
 · rw [hsou,htar,hiff ht' hu,hiff hs hv,hiff ht' hv,hiff hs hu]
   simp only [hund,true_and]
   rw [or_comm,and_comm,and_comm (a := e.target = u)]

lemma Turns.joins_ends (base : Graph) (ht : Turns g f edge change) (hd : base.directed = g.directed)
 {x y : Edge}
 (hxs : x.source ∈ g.ids) (hxt : x.target ∈ g.ids) (hys : y.source ∈ g.ids)
 (hyt : y.target ∈ g.ids) :
 base.joins (edge x).source (edge x).target (edge y) = g.joins x.source x.target y := by
 rcases ht.ends x with ⟨hsou,htar⟩ | ⟨hund,hsou,htar⟩
 · rw [hsou,htar,ht.joins base hd hxs hxt hys hyt]
 · rw [hsou,htar,ht.joins base hd hxt hxs hys hyt,joins_comm hund]

variable (ht : Turns g f edge change) (hg : g.Sound) (hm : g.multi = false) (hb : base.Sound)
 (hbm : base.multi = false)
 (hbd : base.directed = g.directed) (hbe : base.edges = []) (hmem : ∀ n ∈ g.ids, f n ∈ base.ids)
include ht hg hm hb hbm hbd hbe hmem

lemma Turns.entered_edges : ((g.edges.map edge).foldl addListed base).Sound ∧
 ((g.edges.map edge).foldl addListed base).nodes = base.nodes ∧
 ((g.edges.map edge).foldl addListed base).directed = g.directed ∧
 ((g.edges.map edge).foldl addListed base).multi = false ∧
 ∀ u ∈ g.ids, ∀ v ∈ g.ids,
  ((g.edges.map edge).foldl addListed base).edgeAttrs? (f u) (f v) =
   (g.edgeAttrs? u v).map change := by
 have hends : ∀ e ∈ g.edges.map edge, e.source ∈ base.ids ∧ e.target ∈ base.ids ∧
  e.attrs.keys.Nodup := by
  intro e he
  obtain ⟨x,hx,rfl⟩ := mem_map.1 he
  obtain ⟨hs,ht'⟩ := hg.ends x hx
  rw [ht.attrs]
  have ha := ht.nodup _ (hg.edgeAttrs x hx)
  rcases ht.ends x with ⟨hsou,htar⟩ | ⟨_,hsou,htar⟩
  · exact hsou ▸ htar ▸ ⟨hmem _ hs,hmem _ ht',ha⟩
  · exact hsou ▸ htar ▸ ⟨hmem _ ht',hmem _ hs,ha⟩
 have hend' : ∀ e ∈ g.edges.map edge, e.source ∈ base.ids ∧ e.target ∈ base.ids := fun e he =>
  ⟨(hends e he).1,(hends e he).2.1⟩
 obtain ⟨hnod,hdir,hmul⟩ := foldl_addListed_frame hend'
 rw [hbm] at hmul
 have hso := hb.foldl_addListed hends
 -- no edge is entered twice
 have hapa : (base.edges ++ g.edges.map edge).Pairwise fun e f =>
  base.joins e.source e.target f = false := by
  rw [hbe,nil_append,pairwise_map]
  refine (hg.single hm).imp_of_mem fun {x y} hx hy hxy => ?_
  rw [ht.joins_ends base hbd (hg.ends x hx).1 (hg.ends x hx).2 (hg.ends y hy).1 (hg.ends y hy).2]
  exact hxy
 have hedg := congrArg edges (foldl_addListed_apart hbm hend' hapa)
 refine ⟨hso,hnod,hdir.trans hbd,hmul,fun u hu v hv => ?_⟩
 ext a
 rw [hso.edgeAttrs?_eq_some_iff hmul,Option.map_eq_some_iff]
 simp only [hedg,hbe,nil_append,map_map,mem_map,comp_apply]
 have hjoi : ∀ x ∈ g.edges, ((g.edges.map edge).foldl addListed base).joins (f u) (f v) (edge x) =
  g.joins u v x :=
  fun x hx => (joins_of_directed hdir).trans
   (ht.joins base hbd hu hv (hg.ends x hx).1 (hg.ends x hx).2)
 constructor
 · rintro ⟨_,⟨x,hx,rfl⟩,hj,rfl⟩
   refine ⟨x.attrs,?_,(ht.attrs x).symm⟩
   exact (hg.edgeAttrs?_eq_some_iff hm).2 ⟨x,hx,(hjoi x hx).symm.trans hj,rfl⟩
 · rintro ⟨b,hb',rfl⟩
   obtain ⟨x,hx,hj,rfl⟩ := (hg.edgeAttrs?_eq_some_iff hm).1 hb'
   exact ⟨_,⟨x,hx,rfl⟩,(hjoi x hx).trans hj,ht.attrs x⟩

lemma Turns.entered : ((g.edgeList.map edge).foldl addListed base).Sound ∧
 ((g.edgeList.map edge).foldl addListed base).nodes = base.nodes ∧
 ((g.edgeList.map edge).foldl addListed base).directed = g.directed ∧
 ((g.edgeList.map edge).foldl addListed base).multi = false ∧
 ∀ u ∈ g.ids, ∀ v ∈ g.ids,
  ((g.edgeList.map edge).foldl addListed base).edgeAttrs? (f u) (f v) =
   (g.edgeAttrs? u v).map change := by
 have htur : Turns g.relisted f edge change := ⟨ht.ends,ht.attrs,ht.nodup,ht.inj⟩
 obtain ⟨hsou,hnod,hdir,hmul,hatt⟩ := htur.entered_edges hg.relisted hm hb hbm hbd hbe hmem
 refine ⟨hsou,hnod,hdir,hmul,fun u hu v hv => ?_⟩
 rw [← edgeAttrs?_relisted hg hm]
 exact hatt u hu v hv

end

variable {u v : NodeId} {f' : NodeId → NodeId}

def edgeLabel? (g : Graph) (u v : NodeId) : Option Value :=
 (g.edgeAttrs? u v).bind fun a => a.get? "label"

structure Copies (h g : Graph) (f : NodeId → NodeId) : Prop where
 sound : h.Sound
 multi : h.multi = false
 directed : h.directed = g.directed
 inj : ∀ m ∈ g.ids, ∀ n ∈ g.ids, f m = f n → m = n
 ids : ∀ n, n ∈ h.ids ↔ ∃ m ∈ g.ids, f m = n
 label : ∀ n ∈ g.ids, h.nodeAttr? (f n) "label" = g.nodeAttr? n "label"
 hasEdge : ∀ u ∈ g.ids, ∀ v ∈ g.ids, h.hasEdge (f u) (f v) = g.hasEdge u v
 edgeLabel : ∀ u ∈ g.ids, ∀ v ∈ g.ids, h.edgeLabel? (f u) (f v) = g.edgeLabel? u v

lemma Copies.congr (hc : Copies h g f) (heq : ∀ n ∈ g.ids, f n = f' n) : Copies h g f' where
 sound := hc.sound
 multi := hc.multi
 directed := hc.directed
 inj m hm n hn h := hc.inj m hm n hn (by rw [heq m hm,heq n hn,h])
 ids n := by
  rw [hc.ids]
  exact exists_congr fun m => and_congr_right fun hm => by rw [heq m hm]
 label n hn := heq n hn ▸ hc.label n hn
 hasEdge u hu v hv := heq u hu ▸ heq v hv ▸ hc.hasEdge u hu v hv
 edgeLabel u hu v hv := heq u hu ▸ heq v hv ▸ hc.edgeLabel u hu v hv

lemma edgeAttrs?_renamed (hg : g.Sound) (hm : g.multi = false)
 (hf : ∀ u ∈ g.ids, ∀ v ∈ g.ids, f u = f v → u = v)
 (hu : u ∈ g.ids) (hv : v ∈ g.ids) : (g.renamed f).edgeAttrs? (f u) (f v) = g.edgeAttrs? u v := by
 have htur : Turns g f (moved f) id := ⟨fun _ => .inl ⟨rfl,rfl⟩,fun _ => rfl,fun _ h => h,hf⟩
 obtain ⟨_,_,_,_,hatt⟩ := htur.entered hg hm (hg.bare f) hm rfl rfl fun n hn =>
  mem_ids_bare.2 ⟨n,hn,rfl⟩
 rw [renamed_eq,hatt u hu v hv,Option.map_id,id]

lemma renamed_congr (hg : g.Sound) (h : ∀ n ∈ g.ids, f n = f' n) :
 g.renamed f = g.renamed f' := by
 have hedg : g.edgeList.map (moved f) = g.edgeList.map (moved f') := by
  refine map_congr_left fun e he => ?_
  obtain ⟨hs,ht,_⟩ := mem_edgeList_ends hg he
  rw [moved,moved,h _ hs,h _ ht]
 have hbare : g.bare f = g.bare f' := by
  rw [bare,bare]
  congr 2
  exact map_congr_left fun e he => by rw [h e.1 (mem_map_of_mem he)]
 rw [renamed_eq,renamed_eq,hedg,hbare]

lemma Copies.renamed (hc : Copies h g f)
 (hinj : ∀ m ∈ h.ids, ∀ n ∈ h.ids, f' m = f' n → m = n) : Copies (h.renamed f') g (f' ∘ f) := by
 have hmem : ∀ {n}, n ∈ g.ids → f n ∈ h.ids := fun hn => (hc.ids _).2 ⟨_,hn,rfl⟩
 have hatt : ∀ {u v}, u ∈ g.ids → v ∈ g.ids →
  (h.renamed f').edgeAttrs? (f' (f u)) (f' (f v)) = h.edgeAttrs? (f u) (f v) := fun hu hv =>
  edgeAttrs?_renamed hc.sound hc.multi hinj (hmem hu) (hmem hv)
 refine ⟨hc.sound.renamed f',(nodes_renamed hc.sound hc.multi f').2.2,
  (nodes_renamed hc.sound hc.multi f').2.1.trans hc.directed,?_,?_,?_,?_,?_⟩
 · intro m hm n hn heq
   exact hc.inj m hm n hn (hinj _ (hmem hm) _ (hmem hn) heq)
 · intro n
   rw [mem_ids_renamed hc.sound hc.multi]
   constructor
   · rintro ⟨m,hm,rfl⟩
     obtain ⟨k,hk,rfl⟩ := (hc.ids m).1 hm
     exact ⟨k,hk,rfl⟩
   · rintro ⟨k,hk,rfl⟩
     exact ⟨_,hmem hk,rfl⟩
 · intro n hn
   rw [comp_apply,nodeAttr?,attrs?_renamed hc.sound hc.multi hinj (hmem hn),← nodeAttr?,hc.label n hn]
 · intro u hu v hv
   rw [comp_apply,comp_apply,← isSome_edgeAttrs?,hatt hu hv,isSome_edgeAttrs?,hc.hasEdge u hu v hv]
 · intro u hu v hv
   rw [comp_apply,comp_apply,edgeLabel?,hatt hu hv,← edgeLabel?,hc.edgeLabel u hu v hv]

structure Numbered (g : Graph) : Prop where
 nodes : ∀ n ∈ g.ids, ∃ i l : Int, n = .num i ∧ g.nodeAttr? n "label" = some (.int l)
 edges : ∀ e ∈ g.edges, ∃ l : Int, e.attrs.get? "label" = some (.int l)

lemma numbered_iff : Numbered g ↔
 (∀ n ∈ g.ids, (n matches .num _) ∧ (g.nodeAttr? n "label" matches some (.int _))) ∧
  ∀ e ∈ g.edges, e.attrs.get? "label" matches some (.int _) := by
 have hint : ∀ v : Option Value, (v matches some (.int _)) = true ↔ ∃ l, v = some (.int l) := by
  intro v
  split <;> simp_all
 have hnum : ∀ n : NodeId, (n matches .num _) = true ↔ ∃ i, n = .num i := by
  intro n
  cases n <;> simp
 simp only [hint,hnum]
 exact ⟨fun h => ⟨fun n hn => by simpa using h.nodes n hn,h.edges⟩,
  fun h => ⟨fun n hn => by simpa using h.1 n hn,h.2⟩⟩

instance : Decidable (Numbered g) := decidable_of_iff _ numbered_iff.symm
def idNumber : NodeId → Int
 | .num i => i
 | .name _ => 0

lemma Numbered.id_eq (hn : Numbered g) {n : NodeId} (hmem : n ∈ g.ids) : n = .num (idNumber n) := by
 obtain ⟨i,_,rfl,_⟩ := hn.nodes n hmem
 rfl

def labelNumber (a : Attrs) : Int :=
 match a.get? "label" with
 | some (.int l) => l
 | _ => 0

def contents (g : Graph) (index : NodeId → Int) (order : List NodeId) : Contents where
 nodes := order.map fun n => (index n,labelNumber ((g.attrs? n).getD .empty))
 edges := g.edgeList.map fun e => (index e.source,index e.target,labelNumber e.attrs)

lemma labelNumber_eq {a : Attrs} {l : Int} (h : a.get? "label" = some (.int l)) :
 labelNumber a = l := by
 simp [labelNumber,h]

lemma Numbered.label (hn : Numbered g) {n : NodeId} (hmem : n ∈ g.ids) :
 g.nodeAttr? n "label" = some (.int (labelNumber ((g.attrs? n).getD .empty))) := by
 obtain ⟨_,l,_,hl⟩ := hn.nodes n hmem
 obtain ⟨a,ha⟩ := exists_attrs hmem
 rw [nodeAttr?,ha,Option.bind_some] at hl
 rw [nodeAttr?,ha,Option.bind_some,Option.getD_some,hl,labelNumber_eq hl]

lemma get?_labelled (l : Int) : (labelled l).get? "label" = some (.int l) := by
 simp [labelled,ofList,putAll,get?_put]

lemma sound_empty (directed : Bool) : (empty directed).Sound where
 ids := nodup_nil
 attrs := by simp [Graph.empty,Table.empty]
 ends := by simp [empty]
 edgeAttrs := by simp [empty]
 single := fun _ => .nil

lemma foldl_addEdge_eq (hm : base.multi = false) (es : List Edge) :
 es.foldl (fun g e => g.addEdge e.source e.target e.attrs) base = es.foldl addListed base := by
 induction es generalizing base with
 | nil => rfl
 | cons e es ih =>
  have hste : base.addListed e = base.addEdge e.source e.target e.attrs := by
   rw [addListed,hm]
   rfl
  rw [foldl_cons,foldl_cons,hste,ih ((multi_addEdge _ _ _).trans hm)]

def listedNodes (g : Graph) (index : NodeId → Int) (order : List NodeId) : List (NodeId × Attrs) :=
 order.map fun n => (.num (index n),labelled (labelNumber ((g.attrs? n).getD .empty)))

def listedBase (g : Graph) (index : NodeId → Int) (order : List NodeId) (directed : Bool) : Graph :=
 (g.listedNodes index order).foldl (fun acc e => acc.addNode e.1 e.2) (.empty directed)

def listedEdge (index : NodeId → Int) (e : Edge) : Edge :=
 ⟨.num (index e.source),.num (index e.target),.none,labelled (labelNumber e.attrs)⟩

variable {index : NodeId → Int} {order : List NodeId} {directed : Bool} {n : NodeId}

lemma listedBase_frame (g : Graph) (index : NodeId → Int) (order : List NodeId) (directed : Bool) :
 (g.listedBase index order directed).Sound ∧ (g.listedBase index order directed).edges = [] ∧
 (g.listedBase index order directed).directed = directed ∧
  (g.listedBase index order directed).multi = false :=
 ⟨(sound_empty directed).foldl_addNode _,foldl_addNode_frame _⟩

lemma mem_ids_listedBase : n ∈ (g.listedBase index order directed).ids ↔
 ∃ m ∈ order, num (index m) = n := by
 rw [listedBase,mem_ids_foldl_addNode]
 simp [ids,empty,listedNodes]

lemma label_listedBase (hnod : (order.map index).Nodup) (hn : n ∈ order) :
 (g.listedBase index order directed).nodeAttr? (.num (index n)) "label" =
  some (.int (labelNumber ((g.attrs? n).getD .empty))) := by
 have hkey : ((g.listedNodes index order).map Prod.fst).Nodup := by
  rw [listedNodes,map_map]
  have hnum := hnod.map fun _ _ h => num.inj h
  rwa [map_map] at hnum
 have hent : (Table.mk (g.listedNodes index order)).get? (.num (index n)) =
  some (labelled (labelNumber ((g.attrs? n).getD .empty))) :=
  get?_of_mem hkey (mem_map_of_mem hn)
 have hnone : (empty directed).attrs? (.num (index n)) = none := rfl
 rw [nodeAttr?,listedBase,attrs?_foldl_addNode hkey,hent]
 simp only [hnone,Option.getD_none,Option.bind_some]
 exact get?_labelled _

lemma graph_contents : (g.contents index order).graph directed =
 (g.edgeList.map (listedEdge index)).foldl addListed (g.listedBase index order directed) := by
 rw [← foldl_addEdge_eq (listedBase_frame g index order directed).2.2.2]
 simp only [Contents.graph,contents,listedBase,listedNodes,foldl_map]
 rfl

variable {edge : Edge → Edge}

lemma Numbered.copies_edges (hn : Numbered g) (hg : g.Sound) (hm : g.multi = false)
 (htur : Turns g (fun n => .num (index n)) edge fun a => labelled (labelNumber a))
 (hno : order.Nodup)
 (hord : ∀ n, n ∈ order ↔ n ∈ g.ids) :
 Copies ((g.edges.map edge).foldl addListed (g.listedBase index order g.directed)) g fun n =>
  .num (index n) := by
 have hind : (order.map index).Nodup := (nodup_map_iff_inj_on hno).2 fun m hm n hn heq =>
  htur.inj m ((hord m).1 hm) n ((hord n).1 hn) (congrArg num heq)
 have hids : ∀ n, n ∈ (g.listedBase index order g.directed).ids ↔
  ∃ m ∈ g.ids, num (index m) = n := by
  intro n
  simp only [mem_ids_listedBase,hord]
 obtain ⟨hbase,hedg,hdir,hmul⟩ := listedBase_frame g index order g.directed
 obtain ⟨hsou,hnod,hdir',hmul',hatt⟩ := htur.entered_edges hg hm hbase hmul hdir hedg
  fun n hn => (hids _).2 ⟨n,hn,rfl⟩
 refine ⟨hsou,hmul',hdir',htur.inj,?_,?_,?_,?_⟩
 · intro n
   rw [ids,hnod]
   exact hids n
 · intro n hmem
   rw [hn.label hmem,nodeAttr?,attrs?,hnod]
   exact label_listedBase hind ((hord n).2 hmem)
 · intro u hu v hv
   rw [← isSome_edgeAttrs?,hatt u hu v hv,Option.isSome_map,isSome_edgeAttrs?]
 · intro u hu v hv
   rw [edgeLabel?,hatt u hu v hv,edgeLabel?]
   cases ha : g.edgeAttrs? u v with
   | none => rfl
   | some a =>
    obtain ⟨e,he,_,rfl⟩ := (hg.edgeAttrs?_eq_some_iff hm).1 ha
    obtain ⟨l,hl⟩ := hn.edges e he
    simp only [Option.map_some,Option.bind_some,get?_labelled,hl,labelNumber_eq hl]

lemma Numbered.relisted (hn : Numbered g) (hg : g.Sound) : Numbered g.relisted where
 nodes := hn.nodes
 edges e he := by
  obtain ⟨x,hx,_,hatt⟩ := (exists_mem_edgeList_iff hg).1 ⟨e,he,joins_self e,rfl⟩
  exact hatt ▸ hn.edges x hx

lemma Copies.of_relisted (hc : Copies h g.relisted f) (hg : g.Sound) (hm : g.multi = false) :
 Copies h g f where
 sound := hc.sound
 multi := hc.multi
 directed := hc.directed
 inj := hc.inj
 ids := hc.ids
 label := hc.label
 hasEdge u hu v hv := (hc.hasEdge u hu v hv).trans (hasEdge_relisted hg)
 edgeLabel u hu v hv := by
  rw [hc.edgeLabel u hu v hv,edgeLabel?,edgeAttrs?_relisted hg hm,edgeLabel?]

lemma Numbered.copies_entered (hn : Numbered g) (hg : g.Sound) (hm : g.multi = false)
 (htur : Turns g (fun n => .num (index n)) edge fun a => labelled (labelNumber a))
 (hnod : order.Nodup)
 (hord : ∀ n, n ∈ order ↔ n ∈ g.ids) :
 Copies ((g.edgeList.map edge).foldl addListed (g.listedBase index order g.directed)) g fun n =>
  .num (index n) :=
 ((hn.relisted hg).copies_edges hg.relisted hm ⟨htur.ends,htur.attrs,htur.nodup,htur.inj⟩ hnod
  hord).of_relisted hg hm

lemma Numbered.copies (hn : Numbered g) (hg : g.Sound) (hm : g.multi = false)
 (hinj : ∀ m ∈ g.ids, ∀ n ∈ g.ids, index m = index n → m = n) (hnod : order.Nodup)
 (hord : ∀ n, n ∈ order ↔ n ∈ g.ids) :
 Copies ((g.contents index order).graph g.directed) g fun n => .num (index n) := by
 rw [graph_contents]
 exact hn.copies_entered hg hm ⟨fun _ => .inl ⟨rfl,rfl⟩,fun _ => rfl,fun _ _ => nodup_ofList _,
  fun m hm n hn heq => hinj m hm n hn (num.inj heq)⟩ hnod hord

def upward (index : NodeId → Int) (e : Edge) : Edge :=
 if index e.source < index e.target then e else { e with source := e.target, target := e.source }

lemma attrs_upward (index : NodeId → Int) (e : Edge) : (upward index e).attrs = e.attrs := by
 unfold upward
 split <;> rfl

lemma ends_upward (index : NodeId → Int) (e : Edge) :
 ((upward index e).source = e.source ∧ (upward index e).target = e.target) ∨
  ((upward index e).source = e.target ∧ (upward index e).target = e.source) := by
 unfold upward
 split
 · exact .inl ⟨rfl,rfl⟩
 · exact .inr ⟨rfl,rfl⟩

lemma graph_upwards {directed : Bool} : (g.contents index order).upwards.graph directed =
 (g.edgeList.map fun e => listedEdge index (upward index e)).foldl addListed
  (g.listedBase index order directed) := by
 rw [← foldl_addEdge_eq (listedBase_frame g index order directed).2.2.2]
 simp only [Contents.graph,Contents.upwards,contents,listedBase,listedNodes,foldl_map]
 congr 1
 funext acc e
 unfold upward
 split <;> rfl

lemma Numbered.copies_upwards (hn : Numbered g) (hg : g.Sound) (hm : g.multi = false)
 (hd : g.directed = false)
 (hinj : ∀ m ∈ g.ids, ∀ n ∈ g.ids, index m = index n → m = n) (hnod : order.Nodup)
 (hord : ∀ n, n ∈ order ↔ n ∈ g.ids) :
 Copies ((g.contents index order).upwards.graph false) g fun n => .num (index n) := by
 rw [graph_upwards,← hd]
 refine hn.copies_entered hg hm ⟨fun e => ?_,fun e => ?_,fun _ _ => nodup_ofList _,
  fun m hm n hn heq => hinj m hm n hn (num.inj heq)⟩ hnod hord
 · rcases ends_upward index e with ⟨hs,ht⟩ | ⟨hs,ht⟩
   · exact .inl ⟨congrArg (fun n => num (index n)) hs,congrArg (fun n => num (index n)) ht⟩
   · exact .inr ⟨hd,congrArg (fun n => num (index n)) hs,congrArg (fun n => num (index n)) ht⟩
 · exact congrArg (fun a => labelled (labelNumber a)) (attrs_upward index e)

end MotifMatch.Graph
