import MotifMatch.Proofs.Edits
import MotifMatch.Proofs.Embeddings
import MotifMatch.Sampling.Queries

namespace MotifMatch.Graph
open List Table Option Sampling
variable {g h k : Graph} {u v : NodeId}

structure Within (h g : Graph) : Prop where
 sound : h.Sound
 single : h.multi = false
 nodes : ∀ n ∈ h.ids, h.attrs? n = g.attrs? n
 edges : ∀ u v a, h.edgeAttrs? u v = some a → g.edgeAttrs? u v = some a

lemma Within.ids (hw : Within h g) {n : NodeId} (hn : n ∈ h.ids) : n ∈ g.ids := by
 rw [← attrs?_isSome_iff,← hw.nodes n hn,attrs?_isSome_iff]
 exact hn

lemma Within.hasEdge (hw : Within h g) (huv : h.hasEdge u v) : g.hasEdge u v := by
 rw [← isSome_edgeAttrs?,isSome_iff_exists] at huv ⊢
 obtain ⟨a,ha⟩ := huv
 exact ⟨a,hw.edges u v a ha⟩

lemma Within.trans (hw : Within h g) (hk : Within k h) : Within k g where
 sound := hk.sound
 single := hk.single
 nodes n hn := (hk.nodes n hn).trans (hw.nodes n (hk.ids hn))
 edges u v a ha := hw.edges u v a (hk.edges u v a ha)

lemma within_relisted (hg : g.Sound) (hm : g.multi = false) : Within g.relisted g where
 sound := hg.relisted
 single := hm
 nodes _ _ := rfl
 edges u v a ha := by rwa [edgeAttrs?_relisted hg hm] at ha

lemma within_of_subset (hh : h.Sound) (hg : g.Sound) (hm : g.multi = false)
 (hmul : h.multi = g.multi)
 (hdir : h.directed = g.directed) (hnod : ∀ n ∈ h.ids, h.attrs? n = g.attrs? n)
 (hedg : ∀ e ∈ h.edges, e ∈ g.edges) :
 Within h g where
 sound := hh
 single := hmul.trans hm
 nodes := hnod
 edges u v a ha := by
  rw [hh.edgeAttrs?_eq_some_iff (hmul.trans hm)] at ha
  obtain ⟨e,he,hj,rfl⟩ := ha
  exact (hg.edgeAttrs?_eq_some_iff hm).2 ⟨e,hedg e he,joins_of_directed hdir ▸ hj,rfl⟩

lemma within_induced (hg : g.Sound) (hm : g.multi = false) (keep : NodeId → Bool) :
 Within (g.induced keep) g :=
 within_of_subset (hg.induced keep) hg hm rfl rfl
  (fun _ hn => attrs?_induced hg.ids (mem_ids_induced.1 hn).2)
  fun _ he => mem_of_mem_filter he

lemma edgeAttrs?_induced (hg : g.Sound) (hm : g.multi = false) {keep : NodeId → Bool} (hu : keep u)
 (hv : keep v) : (g.induced keep).edgeAttrs? u v = g.edgeAttrs? u v := by
 ext a
 rw [(hg.induced keep).edgeAttrs?_eq_some_iff hm,hg.edgeAttrs?_eq_some_iff hm]
 constructor
 · rintro ⟨e,he,hj,rfl⟩
   exact ⟨e,mem_of_mem_filter he,hj,rfl⟩
 · rintro ⟨e,he,hj,rfl⟩
   refine ⟨e,mem_filter.2 ⟨he,?_⟩,hj,rfl⟩
   rcases joins_iff.1 hj with ⟨rfl,rfl⟩ | ⟨_,rfl,rfl⟩ <;> simp [hu,hv]

lemma removeNode_eq_induced (g : Graph) (n : NodeId) :
 g.removeNode n = g.induced fun m => !(m == n) := by
 simp only [removeNode,induced,Bool.not_or]
 rfl

lemma within_removeNode (hg : g.Sound) (hm : g.multi = false) (n : NodeId) :
 Within (g.relisted.removeNode n) g := by
 rw [removeNode_eq_induced]
 exact (within_relisted hg hm).trans (within_induced hg.relisted hm _)

lemma within_removeEdge (hg : g.Sound) (hm : g.multi = false) (u v : NodeId) :
 Within (g.relisted.removeEdge u v) g := by
 have hl := hg.relisted
 have hsou : (g.relisted.removeEdge u v).Sound :=
  ⟨hl.ids,hl.attrs,fun e he => hl.ends e (mem_of_mem_filter he),
   fun e he => hl.edgeAttrs e (mem_of_mem_filter he),
   fun hm => (hl.single hm).filter _⟩
 exact (within_relisted hg hm).trans (within_of_subset hsou hl hm rfl rfl (fun _ _ => rfl)
  fun e he => mem_of_mem_filter he)

section

lemma Labelled.of_within (hg : Labelled g) (hw : Within h g) : Labelled h where
 sound := hw.sound
 single := hw.single
 nodes n hn := by
  rw [nodeAttr?,hw.nodes n hn]
  exact hg.nodes n (hw.ids hn)
 edges e he := by
  have hatt := hw.edges _ _ _ ((hw.sound.edgeAttrs?_eq_some_iff hw.single).2 ⟨e,he,joins_self e,rfl⟩)
  obtain ⟨f,hf,_,heq⟩ := (hg.sound.edgeAttrs?_eq_some_iff hg.single).1 hatt
  rw [← heq]
  exact hg.edges f hf

lemma Sound.setNodeAttr (hg : g.Sound) (n : NodeId) (name : String) (v : Value) :
 (g.setNodeAttr n name v).Sound where
 ids := by
  rw [ids_setNodeAttr]
  exact hg.ids
 attrs e he := by
  have hids : (g.nodes.modify n fun a => a.put name v).keys.Nodup := by
   rw [keys_modify]
   exact hg.ids
  have hget := get?_of_mem hids he
  rw [get?_modify] at hget
  split at hget
  · obtain ⟨a,ha,heq⟩ := map_eq_some_iff.1 hget
    rw [← heq]
    exact nodup_put (hg.attrs _ (mem_of_get? ha)) _ _
  · exact hg.attrs e (mem_of_get? hget)
 ends := by
  rw [ids_setNodeAttr]
  exact hg.ends
 edgeAttrs := hg.edgeAttrs
 single := hg.single

variable (hg : Labelled g)
include hg

lemma Labelled.setNodeAttr (n : NodeId) (name : String) (v : Value) :
 Labelled (g.setNodeAttr n name v) where
 sound := hg.sound.setNodeAttr n name v
 single := hg.single
 nodes m hm := by
  rw [ids_setNodeAttr] at hm
  obtain ⟨l,hl⟩ := hg.nodes m hm
  obtain ⟨a,ha,hl⟩ := bind_eq_some_iff.1 hl
  rw [nodeAttr?,attrs?,Graph.setNodeAttr,get?_modify]
  rw [attrs?] at ha
  split
  · rw [ha,map_some,bind_some,get?_put]
    split
    · exact ⟨v,rfl⟩
    · exact ⟨l,hl⟩
  · rw [ha]
    exact ⟨l,hl⟩
 edges := hg.edges

lemma Labelled.addEdge (hu : u ∈ g.ids) (hv : v ∈ g.ids) (l : Value) :
 Labelled (g.addEdge u v (.ofList [("label",l)])) where
 sound := by
  have hsou := hg.sound.addListed (e := ⟨u,v,.none,.ofList [("label",l)]⟩) hu hv (nodup_ofList _)
  rwa [addListed,hg.single] at hsou
 single := (multi_addEdge u v _).trans hg.single
 nodes n hn := by
  rw [ids_addEdge hu hv] at hn
  rw [nodeAttr?,attrs?,addEdge_of_mem hg.single hu hv,nodes_place]
  exact hg.nodes n hn
 edges := by
  refine attrs_addEdge (P := fun a => ∃ v, a.get? "label" = some v) hg.edges ⟨l,rfl⟩
   (fun a _ => ⟨l,?_⟩) u v
  exact get?_put_self a "label" l

lemma Labelled.addNode (n : NodeId) (l v : Value) :
 Labelled (g.addNode n (.ofList [("label",l),("modified",v)])) where
 sound := hg.sound.addNode n _
 single := hg.single
 nodes m hm := by
  rw [nodeAttr?,attrs?_addNode]
  split
  · rw [bind_some]
    have hne : "label" ≠ "modified" := by decide
    exact ⟨l,(get?_put_of_ne _ v hne).trans (get?_put_self _ "label" l)⟩
  · next hne =>
    rcases mem_keys_put.1 hm with hm | heq
    · exact hg.nodes m hm
    · exact absurd heq hne
 edges := hg.edges

lemma Labelled.addAll (i : Int) (ls : List Int) : Labelled (addAll (newNodes i ls) g) := by
 induction ls generalizing i g with
 | nil => exact hg
 | cons l ls ih => exact ih (hg.addNode (.num i) (.int l) _) (i + 1)

lemma Labelled.putEach (v : NodeId → Value) : Labelled (g.putEach "modified" v) where
 sound := hg.sound.putEach "modified" v
 single := hg.single
 nodes n hn := by
  rw [ids_putEach] at hn
  obtain ⟨l,hl⟩ := hg.nodes n hn
  obtain ⟨a,ha,hl⟩ := bind_eq_some_iff.1 hl
  rw [nodeAttr?,attrs?_putEach hg.sound ha,bind_some,get?_put_of_ne _ _ (by decide)]
  exact ⟨l,hl⟩
 edges := hg.edges

end
end MotifMatch.Graph

namespace MotifMatch.Sampling
open MotifMatch.Graph Turns Draw List Draft
open MotifMatch.Graph (Labelled Within Occurs)
variable {g r s : Graph} {anchor : Option NodeId} {induced : Bool} {count : Int}
 {mean spread : Float} {labels : LabelCounts}

lemma stable_labelled : Stable fun _ d => Labelled d.work where
 ends _ _ _ _ hd huv := (hd.sound.of_hasEdge huv).2
 withoutNode _ _ n hd _ := hd.of_within (within_removeNode hd.sound hd.single n)
 withoutEdge _ _ e hd _ := hd.of_within (within_removeEdge hd.sound hd.single e.source e.target)
 linked _ _ _ _ l hd hu hv := hd.addEdge hu hv (.int l)
 marked _ _ n hd _ := hd.setNodeAttr n _ _
 relabelled _ _ n _ hd _ := (hd.setNodeAttr n _ _).setNodeAttr n _ _
 added i _ ls hd := hd.addAll i ls

lemma unmarkAll_eq (g : Graph) : unmarkAll g = g.putEach "modified" fun _ => .bool false := rfl

lemma ids_unmarkAll (g : Graph) : (unmarkAll g).ids = g.ids := by rw [unmarkAll_eq,ids_putEach]

variable {E : Error → Prop}

lemma brings_drawMask {α : Type} [Scalar α] (keep : α) (n : Nat) :
 (drawMask keep n).Brings (fun _ => True) E := by
 induction n with
 | zero => exact brings_pure trivial
 | succ n ih =>
  refine Draw.Brings.bind (P := fun _ => True) (fun _ => trivial) fun u _ => ih.bind fun _ _ =>
   Draw.brings_pure trivial

lemma brings_untilDrawn {α β : Type} {attempt : α → Draw (Option β)} {K : α → Prop} {P : β → Prop}
 (h : ∀ chance, K chance → (attempt chance).Brings (fun o => ∀ b, o = some b → P b) E)
 (hE : E .outOfPatience) {raise : α → α}
 (hrai : ∀ chance, K chance → K (raise chance)) (fuel tries : Nat) {chance : α} (hc : K chance) :
 (untilDrawn attempt raise fuel tries chance).Brings P E := by
 induction fuel generalizing tries chance with
 | zero => exact brings_throw hE
 | succ fuel ih =>
  refine (h chance hc).bind fun o ho => ?_
  cases o with
  | some b => exact brings_pure (ho b rfl)
  | none =>
   dsimp only
   split
   · exact ih 0 (hrai chance hc)
   · exact ih (tries + 1) hc

structure Drawn (g : Graph) (anchor : Option NodeId) (part : Graph) : Prop where
 left : ∃ mask, part = masked g mask anchor
 size : 2 ≤ part.size
 connected : part.isConnected true = .ok true

lemma brings_drawPart {α : Type} [Scalar α] (g : Graph) (anchor : Option NodeId) (chance : α) :
 (drawPart g anchor chance).Brings (fun o => ∀ part, o = some part → Drawn g anchor part)
  fun _ => False := by
 refine (brings_drawMask chance g.size).bind fun mask _ => ?_
 dsimp only
 split
 · exact brings_pure fun _ h => by cases h
 · next hsiz =>
   refine Brings.bind ((brings_lift _).imp (fun _ h => h) fun e he => ?_) fun b hb =>
    brings_pure fun part heq => ?_
   · have hne : (masked g mask anchor).ids ≠ [] := fun hnil => hsiz (by simp [size_eq_length,hnil])
     obtain ⟨b,hb⟩ := exists_isConnected hne
     cases hb.symm.trans he
   · cases b with
     | false => cases heq
     | true =>
      cases heq
      exact ⟨⟨mask,rfl⟩,by omega,hb⟩

lemma brings_connectedPart {α : Type} [Scalar α] (patience : Nat) (g : Graph)
 (anchor : Option NodeId) (chance : α) :
 (connectedPart patience g anchor chance).Brings (Drawn g anchor) (· = .outOfPatience) :=
 brings_untilDrawn (K := fun _ => True) (E := (· = .outOfPatience))
  (fun c _ => (brings_drawPart g anchor c).imp (fun _ h => h) fun _ h => h.elim) rfl
   (fun _ _ => trivial) patience 0 trivial

lemma brings_drawThinning (g : Graph) :
 (drawThinning g).Brings (fun n => n = 0 ∨ g.size + n ≤ g.edges.length + 1) E := by
 unfold drawThinning
 dsimp only
 split
 · refine Brings.bind ((brings_drawInt 0 _).imp (fun _ h => h) fun _ h => by omega) fun n hn =>
    brings_pure ?_
   omega
 · exact brings_pure (.inl rfl)

lemma Drawn.within (hd : Drawn g anchor s) (hg : g.Sound) (hm : g.multi = false) :
 Within s g ∧ ∀ u ∈ s.ids, ∀ v ∈ s.ids, s.edgeAttrs? u v = g.edgeAttrs? u v := by
 obtain ⟨mask,rfl⟩ := hd.left
 have hl := hg.relisted
 refine ⟨(within_relisted hg hm).trans (within_induced hl hm _),fun u hu v hv => ?_⟩
 unfold masked
 rw [edgeAttrs?_induced hl hm (mem_ids_induced.1 hu).2 (mem_ids_induced.1 hv).2,
  edgeAttrs?_relisted hg hm]

lemma nodup_left_out (mask : List Bool) :
 (mask.zipIdx.filterMap fun e => if e.1 then none else some (NodeId.num e.2)).Nodup := by
 have hpla : mask.zipIdx.Pairwise fun x y => x.2 ≠ y.2 := by
  refine pairwise_map.1 (?_)
  rw [zipIdx_map_snd]
  exact nodup_range'
 refine hpla.filterMap _ ?_
 rintro ⟨b,i⟩ ⟨c,j⟩ hij m hm n hn rfl
 cases b <;> cases c <;> simp at hm hn
 exact hij (Int.ofNat_inj.1 (by simpa using hm.trans hn.symm))

lemma mem_ids_masked {a : NodeId} (ha : a ∈ g.ids) (mask : List Bool) :
 a ∈ (masked g mask (some a)).ids := by
 refine mem_ids_induced.2 ⟨ha,?_⟩
 have hnot := (nodup_left_out mask).not_mem_erase (a := a)
 simpa using hnot

variable {patience : Nat} {d : Draft} {F : Error → Draft → Prop}

lemma turns_leaveForPart {Q : Unit → Draft → Prop} {chance : Float}
 (hQ : ∀ part, Drawn d.work anchor part → Q () (d.leave part))
 (hF : F .outOfPatience d) : Turns (leaveForPart patience anchor chance) d Q F :=
 bind (turns_graph (bind (turns_draw (brings_connectedPart patience d.work anchor chance)
  (fun part hpart => turns_leave (hQ part hpart)) fun _ he => he ▸ hF)))

lemma turns_share {Q : Float → Draft → Prop} (hQ : ∀ chance, Q chance d)
 (hF : ∀ e, d.work.size = 0 → F e d) :
 Turns (liftM (share Float d.work count)) d Q F := by
 refine turns_lift (fun chance _ => hQ chance) fun e he => hF e ?_
 by_contra hne
 rw [share,if_neg hne] at he
 cases he

lemma turns_thinOut {I : Draft → Prop}
 (hste : ∀ d, I d → Turns (removeEdge patience) d (fun _ => I) F) (least : Int) (n : Nat)
 (hd : I d) : Turns (thinOut patience least n) d (fun _ => I) F := by
 induction n generalizing d with
 | zero => exact turns_pure hd
 | succ n ih =>
  refine bind (turns_graph ?_)
  split
  · exact turns_pure hd
  · exact bind ((hste d hd).imp (fun _ _ hd => ih hd) fun _ _ h => h)

lemma turns_carve {I : Draft → Prop} (hpart : ∀ part, Drawn g anchor part → I ((start g).leave part))
 (hste : induced = false → ∀ d, I d → Turns (removeEdge patience) d (fun _ => I) F)
 (hF : ∀ e, (e = .outOfPatience ∨ g.size = 0 ∨ partBounds count mean spread = .error e) →
  F e (.start g)) :
 Turns (carve patience anchor induced count mean spread) (.start g) (fun _ => I) F := by
 refine bind (turns_graph (bind (turns_share (fun chance => ?_) fun e h => hF e (.inr (.inl h)))))
 refine bind (turns_lift (fun bounds _ => ?_) fun e h => hF e (.inr (.inr h)))
 refine bind (turns_leaveForPart (fun part hpar' => ?_) (hF _ (.inl rfl)))
 cases induced with
 | true => exact turns_pure (hpart part hpar')
 | false =>
  refine bind (turns_graph (bind (turns_draw (brings_drawThinning (E := fun _ => False) _)
   (fun times _ => ?_)
   fun _ h => h.elim)))
  exact turns_thinOut (hste rfl) bounds.least times (hpart part hpar')

lemma gives_carved {I : Graph → Prop} (hpart : ∀ part, Drawn g anchor part → I part)
 (hste : induced = false → ∀ h u v, I h → I (h.relisted.removeEdge u v)) :
 (isoQuery g anchor induced count mean spread).Gives I := by
 have hcar : Turns (carve patience anchor induced count mean spread) (.start g)
  (fun _ d => I d.work) fun _ _ => True :=
  turns_carve hpart
   (fun hi d hd => turns_removeEdge (fun e _ _ => hste hi d.work e.source e.target hd) fun _ _ =>
    trivial) fun _ _ => trivial
 exact (brings_result hcar).gives.bind fun _ hr => gives_pure hr

lemma gives_isoQuery (hg : g.Sound) (hm : g.multi = false) :
 (isoQuery g anchor induced count mean spread).Gives fun s =>
 Within s g ∧ (induced → ∀ u ∈ s.ids, ∀ v ∈ s.ids, s.edgeAttrs? u v = g.edgeAttrs? u v) := by
 refine gives_carved (fun part hpart => ?_) fun hi h u v hh =>
  ⟨?_,fun htrue => by cases hi.symm.trans htrue⟩
 · obtain ⟨hw,hfull⟩ := hpart.within hg hm
   exact ⟨hw,fun _ => hfull⟩
 · exact hh.1.trans (within_removeEdge hh.1.sound hh.1.single u v)

variable {I I' : Int → Draft → Prop} {bounds : EdgeBounds} {i : Int}

lemma Upkeep.turns_untilForeign
 (h : Upkeep patience labels.nodes labels.edges bounds.least bounds.most I I' F) (source : Graph)
 (n : Nat) (hd : I i d) : Turns (untilForeign patience source labels bounds n i) d (fun found d =>
  (∃ i, I i d) ∧ (found → embeds labelLikeness source d.work ≠ .ok true)) F := by
 induction n generalizing i d with
 | zero => exact turns_pure ⟨⟨i,hd⟩,fun h => by cases h⟩
 | succ n ih =>
  refine bind (turns_graph ?_)
  split
  · exact bind ((h.turns_modifyAtRandom hd).imp (fun _ _ hd => ih hd) fun _ _ h => h)
  · next hfor => exact turns_pure ⟨⟨i,hd⟩,fun _ => hfor⟩

lemma turns_estrange (h : ∀ bounds, cappedBounds count mean spread = .ok bounds →
 Upkeep patience labels.nodes labels.edges bounds.least bounds.most I I' F ∧
  ∀ part, Drawn g none part →
  Turns (resize patience count g.size labels bounds) (((start g).leave part).edit unmarkAll) I F)
 (hF : ∀ e, (e = .outOfPatience ∨ g.size = 0 ∨ cappedBounds count mean spread = .error e) →
  F e (.start g)) :
 Turns (estrange patience induced count mean spread labels) (.start g) (fun found d =>
  (∃ i, I i d) ∧ (found → embeds labelLikeness g d.work ≠ .ok true)) F := by
 refine bind (turns_graph (bind (turns_share (fun chance => ?_) fun e h => hF e (.inr (.inl h)))))
 refine bind (turns_lift (fun bounds hbou => ?_) fun e h => hF e (.inr (.inr h)))
 obtain ⟨hup,hpart⟩ := h bounds hbou
 refine bind (turns_leaveForPart (fun part hdra => ?_) (hF _ (.inl rfl)))
 refine bind (turns_edit (bind ((hpart part hdra).imp (fun i d hd => ?_) fun _ _ h => h)))
 have hmod : ∀ d, I i d → Turns (do
  let start ← modifyAtRandom patience labels.nodes labels.edges i bounds.least bounds.most
  untilForeign patience g labels bounds 3 start) d (fun found d =>
   (∃ i, I i d) ∧ (found → embeds labelLikeness g d.work ≠ .ok true)) F := fun d hd =>
  bind ((hup.turns_modifyAtRandom hd).imp (fun _ _ hd => hup.turns_untilForeign g 3 hd)
   fun _ _ h => h)
 cases induced with
 | true => exact hmod d hd
 | false =>
  refine bind (turns_graph (bind (turns_draw (brings_drawThinning (E := fun _ => False) _)
   (fun times _ => ?_)
   fun _ h => h.elim)))
  exact bind ((hup.turns_removeEdges times hd).imp (fun _ d hd => hmod d hd) fun _ _ h => h)

lemma Stable.turns_resize (hI : Stable I) (labels : LabelCounts) (bounds : EdgeBounds) (count : Int)
 (hd : I i d) :
 Turns (resize patience count i labels bounds) d I fun _ d => ∃ i, I i d := by
 refine bind (turns_graph ?_)
 dsimp only
 split
 · exact bind ((hI.turns_removeNodesDownTo count hd).imp (fun _ _ hd => turns_pure hd)
    fun _ _ h => h)
 · split
   · exact hI.turns_addNodes _ _ _ _ _ hd
   · exact turns_pure hd

lemma Stable.turns_estrange (hI : Stable I) (hsta : ∀ part, Drawn g none part →
 I g.size (((start g).leave part).edit unmarkAll)) :
 Turns (estrange patience induced count mean spread labels) (.start g) (fun found d =>
  (∃ i, I i d) ∧ (found → embeds labelLikeness g d.work ≠ .ok true))
  fun _ d => d = .start g ∨ ∃ i, I i d := by
 refine Sampling.turns_estrange (fun bounds _ =>
  ⟨(hI.upkeep patience _ _ _ _).weaken fun _ _ => .inr,fun part hpart => ?_⟩)
  fun _ _ => .inl rfl
 exact (hI.turns_resize labels bounds count (hsta part hpart)).imp (fun _ _ h => h) fun _ _ => .inr

lemma gives_estranged {Q : Bool → Draft → Prop} {P : Graph → Prop}
 (h : Turns (estrange Draw.patience induced count mean spread labels) (.start g) Q F)
 (hQ : ∀ d, Q true d → P d.work) :
 (nonIsoQuery g induced count mean spread labels).Gives fun o => ∀ r, o = some r → P r := by
 have hres : (Edit.result (estrange Draw.patience induced count mean spread labels) g).Brings
  (fun r => r.1 = true → P r.2)
  fun _ => True :=
  brings_result (Q := fun found q => found = true → P q)
   (h.imp (fun _ d hd hfou => hQ d (hfou ▸ hd)) fun _ _ _ => trivial)
 refine hres.gives.bind fun x hx => Draw.gives_pure fun r hr => ?_
 obtain ⟨found,q⟩ := x
 cases found with
 | false => cases hr
 | true => exact Option.some.inj hr ▸ hx rfl

lemma lt_size_of_num_mem (hids : ∀ n ∈ g.ids, ∃ k < g.size, n = .num (Int.ofNat k)) {j : Int}
 (hj : .num j ∈ g.ids) :
 j < g.size := by
 obtain ⟨k,hk,heq⟩ := hids _ hj
 exact NodeId.num.inj heq ▸ Int.ofNat_lt.2 hk

lemma gives_nonIsoQuery (hg : Labelled g) :
 (nonIsoQuery g induced count mean spread labels).Gives fun o =>
 ∀ r, o = some r → Labelled r ∧ ∀ φ, ¬Occurs r g φ := by
 have hsta : ∀ part, Drawn g none part →
  Labelled (((Draft.start g).leave part).edit unmarkAll).work := fun part hpart =>
  (hg.of_within (hpart.within hg.sound hg.single).1).putEach fun _ => .bool false
 refine gives_estranged (stable_labelled.turns_estrange hsta) fun d ⟨⟨_,hlab⟩,hfor⟩ =>
  ⟨hlab,fun φ hφ => ?_⟩
 -- The search that ends the loop is complete, so that no copy is left where it finds none.
 exact hfor rfl (hφ.embeds hg hlab)

def Alike (r s : Graph) : Prop := ∃ φ, Occurs r s φ ∧ ∀ n ∈ s.ids, ∃ m ∈ r.ids, φ m = n

lemma occurs_of_within {φ : NodeId → NodeId} (hw : Within s g)
 (hfull : ∀ u ∈ s.ids, ∀ v ∈ s.ids, g.hasEdge u v → s.hasEdge u v) (h : Occurs r s φ) :
  Occurs r g φ where
 mem n hn := hw.ids (h.mem n hn)
 inj := h.inj
 label n hn := by
  rw [nodeAttr?,← hw.nodes _ (h.mem n hn)]
  exact h.label n hn
 hasEdge m hm n hn := by
  rw [← h.hasEdge m hm n hn,Bool.eq_iff_iff]
  exact ⟨hfull _ (h.mem m hm) _ (h.mem n hn),hw.hasEdge⟩
 edgeLabel m hm n hn hmn := by
  have hlab := h.edgeLabel m hm n hn hmn
  rw [← h.hasEdge m hm n hn,← isSome_edgeAttrs?,Option.isSome_iff_exists] at hmn
  obtain ⟨a,ha⟩ := hmn
  rw [edgeLabel?,ha] at hlab
  rw [edgeLabel?,hw.edges _ _ a ha]
  exact hlab

theorem alike_queries_thinned {st st' : Streams} {count' : Int} {mean' spread' : Float}
 (hg : Labelled g)
 (hr : ((nonIsoQuery g induced count mean spread labels).run.run st).1 = .ok (some r))
 (hs : ((isoQuery g anchor induced count' mean' spread').run.run st').1 = .ok s) :
 Within s g ∧ (∀ φ, ¬Occurs r g φ) ∧ (induced = true → ¬Alike r s) ∧
  (Alike r s → ∃ u ∈ s.ids, ∃ v ∈ s.ids, g.hasEdge u v = true ∧ s.hasEdge u v = false) := by
 obtain ⟨hwith,hfull⟩ := gives_isoQuery hg.sound hg.single st' s _ trivial (Prod.ext hs rfl)
 obtain ⟨_,hfor⟩ := gives_nonIsoQuery hg st _ _ trivial (Prod.ext hr rfl) r rfl
 have hthi : Alike r s → ∃ u ∈ s.ids, ∃ v ∈ s.ids, g.hasEdge u v = true ∧ s.hasEdge u v = false := by
  rintro ⟨φ,hφ,_⟩
  by_contra hnone
  push Not at hnone
  refine hfor φ (occurs_of_within hwith (fun u hu v hv huv => ?_) hφ)
  exact Bool.not_eq_false _ ▸ hnone u hu v hv huv
 refine ⟨hwith,hfor,fun hind hali => ?_,hthi⟩
 obtain ⟨u,hu,v,hv,huv,hnot⟩ := hthi hali
 rw [← isSome_edgeAttrs?,hfull hind u hu v hv,isSome_edgeAttrs?,huv] at hnot
 cases hnot

def triangle : Graph where
 directed := false
 multi := false
 nodes := ⟨[(.num 0,⟨[("label",.int 1)]⟩),(.num 1,⟨[("label",.int 1)]⟩),
  (.num 2,⟨[("label",.int 1)]⟩)]⟩
 edges := [⟨.num 0,.num 1,.none,⟨[("label",.int 1)]⟩⟩,⟨.num 0,.num 2,.none,⟨[("label",.int 1)]⟩⟩,
  ⟨.num 1,.num 2,.none,⟨[("label",.int 1)]⟩⟩]

lemma triangle_labelled : Labelled triangle where
 sound := by decide
 single := rfl
 nodes n hn := by
  have hall : ∀ n ∈ triangle.ids, (triangle.nodeAttr? n "label").isSome := by decide
  exact Option.isSome_iff_exists.1 (hall n hn)
 edges e he := by
  have hall : ∀ e ∈ triangle.edges, (e.attrs.get? "label").isSome := by decide
  exact Option.isSome_iff_exists.1 (hall e he)

lemma triangle_foreign : ∃ d st', Edit.on (estrange 100 false 3 2.0 1.0 ⟨2,1⟩) triangle
 ⟨.seed 0,.seed 0⟩ = (.ok true,d,st') := by
 have hche : (Edit.on (estrange 100 false 3 2.0 1.0 ⟨2,1⟩) triangle ⟨.seed 0,.seed 0⟩).1.toOption =
  some true := by decide +kernel
 generalize Edit.on (estrange 100 false 3 2.0 1.0 ⟨2,1⟩) triangle ⟨.seed 0,.seed 0⟩ = o at hche ⊢
 obtain ⟨_ | found,d,st'⟩ := o
 · cases hche
 · cases hche
   exact ⟨d,st',rfl⟩

theorem triangle_thinned :
 ∃ r s, ((nonIsoQuery triangle false 3 2.0 1.0 ⟨2,1⟩).run.run ⟨.seed 0,.seed 0⟩).1 = .ok (some r) ∧
 ((isoQuery triangle (some (.num 0)) false 3 2.0 1.0).run.run ⟨.seed 4,.seed 0⟩).1 =
  .ok s ∧ Alike r s ∧
 ∃ u ∈ s.ids, ∃ v ∈ s.ids, triangle.hasEdge u v = true ∧ s.hasEdge u v = false := by
 have hche : (((nonIsoQuery triangle false 3 2.0 1.0 ⟨2,1⟩).run.run
  ⟨.seed 0,.seed 0⟩).1.toOption.any fun o => o.any fun r =>
  ((isoQuery triangle (some (.num 0)) false 3 2.0 1.0).run.run ⟨.seed 4,.seed 0⟩).1.toOption.any
   fun s =>
   decide (Occurs r s id ∧ ∀ n ∈ s.ids, n ∈ r.ids)) = true := by decide +kernel
 generalize hr : ((nonIsoQuery triangle false 3 2.0 1.0 ⟨2,1⟩).run.run ⟨.seed 0,.seed 0⟩).1 =
  x at hche ⊢
 generalize hs : ((isoQuery triangle (some (.num 0)) false 3 2.0 1.0).run.run ⟨.seed 4,.seed 0⟩).1 =
  y at hche ⊢
 obtain _ | _ | r := x
 · cases hche
 · cases hche
 obtain _ | s := y
 · cases hche
 obtain ⟨hocc,hids⟩ := of_decide_eq_true hche
 have hali : Alike r s := ⟨id,hocc,fun n hn => ⟨n,hids n hn,rfl⟩⟩
 obtain ⟨_,_,_,hthi⟩ := alike_queries_thinned triangle_labelled hr hs
 exact ⟨r,s,rfl,rfl,hali,hthi hali⟩

end MotifMatch.Sampling
