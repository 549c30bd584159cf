import MotifMatch.Proofs.ChangedNodes
import MotifMatch.Proofs.ConnectedQueries

namespace MotifMatch.Sampling
open List MotifMatch.Graph Table Edit Draw Option Editor

def Loop.CanEnd : Loop → Prop
 | .removeEdge g => ∃ e ∈ g.edgeList, (g.relisted.removeEdge e.source e.target).Connected
 | .removeNode g => ∃ n ∈ g.ids, (g.relisted.removeNode n).Connected
 | .joinPair g => ∃ u ∈ g.ids, ∃ v ∈ g.ids, u ≠ v ∧ g.hasEdge u v = false
 | .changeLabel old labels => ∃ l : Int, 1 ≤ l ∧ l ≤ labels ∧ (.int l == old) = false

def Loop.overGraph : Loop → Bool
 | .changeLabel .. => false
 | _ => true

abbrev Logged := ExceptT Error (StateM ((Streams × Draft) × List Loop))

instance : Editor Logged where
 perform action := fun s =>
  let (r,t) := action.run.run s.1
  (r,(t,s.2))
 enter loop := modify fun s => (s.1,s.2 ++ [loop s.1.2.work])

def Logged.on {α : Type} (action : Logged α) (g : Graph) (streams : Streams) :
 (Except Error α × Draft × Streams) × List Loop :=
 let (r,((streams,draft),log)) := action.run.run ((streams,.start g),[])
 ((r,draft,streams),log)

section
variable {α β : Type} {x x' : Logged α} {y y' : Edit α} {f : α → Logged β} {k : α → Edit β}
 {d : Draft} {P : Loop → Prop}
 {Q Q' : α → Draft → Prop} {R : β → Draft → Prop}

def Follows (P : Loop → Prop) (x : Logged α) (y : Edit α) (d : Draft) (Q : α → Draft → Prop) :
 Prop :=
 ∀ st log, ∃ more, x.run.run ((st,d),log) =
  ((y.run.run (st,d)).1,((y.run.run (st,d)).2,log ++ more)) ∧
  (∀ loop ∈ more, P loop) ∧ Outcome (fun a s => Q a s.2) (fun _ _ => True) (y.run.run (st,d))

lemma Follows.imp (h : Follows P x y d Q) (hQ : ∀ a d, Q a d → Q' a d) : Follows P x y d Q' :=
 fun st log => by
 obtain ⟨more,hrun,hP,hout⟩ := h st log
 exact ⟨more,hrun,hP,hout.imp (fun a s => hQ a s.2) fun _ _ h => h⟩

lemma Follows.bind (h : Follows P x y d Q) (hf : ∀ a d', Q a d' → Follows P (f a) (k a) d' R) :
 Follows P (x >>= f) (y >>= k) d R := by
 intro st log
 obtain ⟨more,hrun,hP,hout⟩ := h st log
 rw [ExceptT.run_bind,StateT.run_bind,ExceptT.run_bind,StateT.run_bind,hrun]
 cases hy : y.run.run (st,d) with
 | mk r s =>
  rw [hy] at hout
  cases r with
  | error e => exact ⟨more,rfl,hP,trivial⟩
  | ok a =>
   obtain ⟨more',hrun',hP',hout'⟩ := hf a s.2 hout s.1 (log ++ more)
   refine ⟨more ++ more',?_,forall_mem_append.2 ⟨hP,hP'⟩,hout'⟩
   rw [← append_assoc]
   exact hrun'

lemma follows_perform (h : Turns y d Q fun _ _ => True) : Follows P (perform y) y d Q :=
 fun st log => ⟨[],by rw [append_nil]; rfl,by simp,h st⟩

lemma follows_pure {a : α} (h : Q a d) : Follows P (pure a) (pure a) d Q :=
 fun _ _ => ⟨[],by rw [append_nil]; rfl,by simp,h⟩

lemma follows_pure_bind {a : α} (h : Follows P (f a) (k a) d R) :
 Follows P (pure a >>= f) (pure a >>= k) d R :=
 (follows_pure (Q := fun b d' => b = a ∧ d' = d) ⟨rfl,rfl⟩).bind fun _ _ ⟨hb,hd⟩ => hb ▸ hd ▸ h

lemma follows_throw (e : Error) : Follows P (perform (throw e)) (perform (throw e)) d Q :=
 follows_perform (turns_throw trivial)

lemma follows_enter {f : Unit → Logged α} {k : Unit → Edit α} {loop : Graph → Loop}
 (hP : P (loop d.work))
 (hf : Follows P (f ()) (k ()) d Q) : Follows P (enter loop >>= f) (enter loop >>= k) d Q := by
 intro st log
 obtain ⟨more,hrun,hmore,hout⟩ := hf st (log ++ [loop d.work])
 refine ⟨loop d.work :: more,?_,forall_mem_cons.2 ⟨hP,hmore⟩,hout⟩
 rw [append_cons]
 exact hrun

lemma follows_graph {f : Graph → Logged α} {k : Graph → Edit α}
 (h : Follows P (f d.work) (k d.work) d Q) :
 Follows P (perform graph >>= f) (perform graph >>= k) d Q :=
 (follows_perform (Q := fun g d' => g = d.work ∧ d' = d) (turns_graph ⟨rfl,rfl⟩)).bind
  fun _ _ ⟨hg,hd⟩ => hg ▸ hd ▸ h

lemma follows_draw {draw : Draw α} {B : α → Prop} {E : Error → Prop} (hdraw : draw.Brings B E)
 (hf : ∀ a, B a → Follows P (f a) (k a) d R) :
 Follows P (perform (Edit.draw draw) >>= f) (perform (Edit.draw draw) >>= k) d R :=
 (follows_perform (Q := fun a d' => B a ∧ d' = d)
  (turns_draw hdraw (fun _ ha => ⟨ha,rfl⟩) fun _ _ => trivial)).bind
  fun a _ ⟨ha,hd⟩ => hd ▸ hf a ha

lemma follows_edit {f : Unit → Logged α} {k : Unit → Edit α} {e : Graph → Graph}
 (h : Follows P (f ()) (k ()) (d.edit e) Q) :
 Follows P (perform (edit e) >>= f) (perform (edit e) >>= k) d Q :=
 (follows_perform (Q := fun _ d' => d' = d.edit e) (turns_edit rfl)).bind fun _ _ hd => hd ▸ h

lemma follows_ite {c : Prop} [Decidable c] (ht : c → Follows P x y d Q)
 (he : ¬c → Follows P x' y' d Q) :
 Follows P (if c then x else x') (if c then y else y') d Q := by
 split
 · next h => exact ht h
 · next h => exact he h

end

section
open MotifMatch.Graph (Within)
variable {A : Value → Prop} {i : Int} {g h : Graph} {u v : NodeId}

structure Framed (A : Value → Prop) (i : Int) (g : Graph) : Prop where
 sound : g.Sound
 single : g.multi = false
 undirected : g.directed = false
 below : ∀ j, .num j ∈ g.ids → j < i
 labels : ∀ n v, g.nodeAttr? n "label" = some v → A v

lemma Framed.of_within (hg : Framed A i g) (hw : Within h g) (hd : h.directed = g.directed) :
 Framed A i h where
 sound := hw.sound
 single := hw.single
 undirected := hd.trans hg.undirected
 below j hj := hg.below j (hw.ids hj)
 labels n v hv := by
  obtain ⟨a,ha,_⟩ := bind_eq_some_iff.1 hv
  rw [nodeAttr?,hw.nodes n (attrs?_isSome_iff.1 (by rw [ha]; rfl))] at hv
  exact hg.labels n v hv

lemma Framed.setNodeAttr (hg : Framed A i g) (n : NodeId) {name : String} {v : Value}
 (hv : name = "label" → A v) :
 Framed A i (g.setNodeAttr n name v) where
 sound := hg.sound.setNodeAttr n name v
 single := hg.single
 undirected := hg.undirected
 below := by
  rw [ids_setNodeAttr]
  exact hg.below
 labels m w hw := by
  by_cases hmn : m = n
  · subst hmn
    rw [nodeAttr?,attrs?,Graph.setNodeAttr,get?_modify,if_pos rfl] at hw
    obtain ⟨b,hb,hw⟩ := bind_eq_some_iff.1 hw
    obtain ⟨a,ha,rfl⟩ := map_eq_some_iff.1 hb
    rw [get?_put] at hw
    split at hw
    · next heq => exact some.inj hw ▸ hv heq.symm
    · exact hg.labels m w (bind_eq_some_iff.2 ⟨a,ha,hw⟩)
  · rw [nodeAttr?_setNodeAttr_of_ne hmn] at hw
    exact hg.labels m w hw

lemma Framed.mark (hg : Framed A i g) (n : NodeId) : Framed A i (mark n g) :=
 hg.setNodeAttr n fun h => absurd h (by decide)

lemma Framed.link (hg : Framed A i g) (hu : u ∈ g.ids) (hv : v ∈ g.ids) (l : Value) :
 Framed A i (link u v l g) where
 sound := by
  have hsou := hg.sound.addListed (e := ⟨u,v,.none,.ofList [("label",l)]⟩) hu hv (nodup_ofList _)
  rwa [addListed,hg.single] at hsou
 single := (multi_addEdge u v _).trans hg.single
 undirected := (directed_addEdge u v _).trans hg.undirected
 below := by
  rw [Sampling.link,ids_addEdge hu hv]
  exact hg.below
 labels n w hw := by
  rw [nodeAttr?,attrs?,Sampling.link,addEdge_of_mem hg.single hu hv,nodes_place] at hw
  exact hg.labels n w hw

lemma label_addAll {ls : List Int} (hg : ∀ n v, g.nodeAttr? n "label" = some v → A v)
 (hls : ∀ l ∈ ls, A (.int l)) (n : NodeId)
 (v : Value) (hv : (addAll (newNodes i ls) g).nodeAttr? n "label" = some v) : A v := by
 induction ls generalizing i g with
 | nil => exact hg n v hv
 | cons l ls ih =>
  obtain ⟨hl,hls⟩ := forall_mem_cons.1 hls
  refine ih (fun m w hw => ?_) hls hv
  rw [nodeAttr?,attrs?_addNode] at hw
  split at hw
  · rw [bind_some] at hw
    have hne : "label" ≠ "modified" := by decide
    have hlab := fun t :
     Attrs => (get?_put_of_ne _ (.bool true) hne).trans (get?_put_self t "label" (.int l))
    exact some.inj ((hlab _).symm.trans hw) ▸ hl
  · exact hg m w hw

lemma directed_addAll (new : List (NodeId × Attrs)) : (addAll new g).directed = g.directed := by
 induction new generalizing g with
 | nil => rfl
 | cons e new ih => exact ih

lemma Framed.addAll (hg : Framed A i g) {ls : List Int} (hls : ∀ l ∈ ls, A (.int l)) :
 Framed A (i + ls.length) (addAll (newNodes i ls) g) where
 sound := hg.sound.addAll _
 single := (multi_addAll _).trans hg.single
 undirected := (directed_addAll _).trans hg.undirected
 below _ := below_addAll hg.sound.ids hg.below ls
 labels := label_addAll hg.labels hls

structure Sturdy (A : Value → Prop) (i : Int) (g : Graph) : Prop extends Framed A i g where
 connected : g.Connected

variable (hg : Sturdy A i g)
include hg

lemma Sturdy.mark (n : NodeId) : Sturdy A i (mark n g) :=
 ⟨hg.toFramed.mark n,hg.connected.mono (fun _ => by rw [Sampling.mark,ids_setNodeAttr])
  fun _ _ h => h⟩

lemma Sturdy.relabel (n : NodeId) {l : Value} (hl : A l) : Sturdy A i (relabel n l g) :=
 Sturdy.mark ⟨hg.setNodeAttr n fun _ => hl,hg.connected.mono (fun _ => by rw [ids_setNodeAttr])
  fun _ _ h => h⟩ n

lemma Sturdy.link (hu : u ∈ g.ids) (hv : v ∈ g.ids) (l : Value) : Sturdy A i (link u v l g) where
 toFramed := hg.toFramed.link hu hv l
 connected := hg.connected.mono (fun _ => by rw [Sampling.link,ids_addEdge hu hv]) fun a b hab => by
  rw [hasEdge_link hg.single,hab,Bool.true_or]

lemma Sturdy.withoutEdge (hc : (g.relisted.removeEdge u v).isConnected true = .ok true) :
 Sturdy A i (g.relisted.removeEdge u v) :=
 have hw := within_removeEdge hg.sound hg.single u v
 ⟨hg.of_within hw rfl,hw.sound.isConnected_iff.1 hc⟩

lemma Sturdy.withoutNode {n : NodeId} (hc : (g.relisted.removeNode n).isConnected true = .ok true) :
 Sturdy A i (g.relisted.removeNode n) :=
 have hw := within_removeNode hg.sound hg.single n
 ⟨hg.of_within hw rfl,hw.sound.isConnected_iff.1 hc⟩

lemma Sturdy.size_pos : 0 < g.size := by
 rw [size_eq_length]
 exact length_pos_iff.2 hg.connected.ids

end

section
variable {A : Value → Prop} {i k : Int} {d : Draft} {patience : Nat} {labels : LabelCounts}
 {least most : Int}
 {edgeLabels : Int} {nodeLabels : Int}

def Loop.Fits (A : Value → Prop) (k : Int) : Loop → Prop
 | .changeLabel old labels => A old ∧ labels = k
 | loop => loop.CanEnd

lemma Sturdy.follows_removeEdge (hd : Sturdy A i d.work) (hsiz : d.work.size ≤ d.work.edges.length) :
 Follows (Loop.Fits A k) (removeEdge patience) (removeEdge patience) d fun _ d' =>
  Sturdy A i d'.work ∧ d'.work.size = d.work.size ∧ d'.work.edges.length + 1 =
   d.work.edges.length := by
 refine follows_enter (hd.connected.exists_spare_edge hd.sound hd.single hd.undirected hsiz)
  (follows_perform (turns_removeEdge
  (fun e he hc => ⟨hd.withoutEdge hc,rfl,?_⟩) fun _ _ => trivial))
 have hlis : d.work.relisted.hasEdge e.source e.target := hasEdge_iff.2 ⟨e,he,joins_self e⟩
 exact (length_removeEdge hd.sound.relisted hd.single hlis).trans
  (length_edgeList hd.sound hd.single hd.undirected)

section
variable (n : Nat) (hd : Sturdy A i d.work) (hn : n = 0 ∨ d.work.size + n ≤ d.work.edges.length + 1)
include n hd hn

lemma Sturdy.follows_removeEdges :
 Follows (Loop.Fits A k) (removeEdges patience n) (removeEdges patience n) d fun _ d =>
  Sturdy A i d.work := by
 induction n generalizing d with
 | zero => exact follows_pure hd
 | succ n ih =>
  exact (hd.follows_removeEdge (by omega)).bind fun _ d' ⟨hd',hsiz,hedg⟩ => ih hd' (by omega)

lemma Sturdy.follows_thinOut :
 Follows (Loop.Fits A k) (thinOut patience least n) (thinOut patience least n) d fun _ d =>
  Sturdy A i d.work := by
 induction n generalizing d with
 | zero => exact follows_pure hd
 | succ n ih =>
  refine follows_graph (follows_ite (fun _ => follows_pure hd) fun _ => ?_)
  exact (hd.follows_removeEdge (by omega)).bind fun _ d' ⟨hd',hsiz,hedg⟩ => ih hd' (by omega)

end

lemma Sturdy.follows_removeNodesBy (n : Nat) (hd : Sturdy A i d.work) (hn : n < d.work.size) :
 Follows (Loop.Fits A k) (removeNodesBy patience n) (removeNodesBy patience n) d fun _ d =>
  Sturdy A i d.work := by
 induction n generalizing d with
 | zero => exact follows_pure hd
 | succ n ih =>
  refine Follows.bind (follows_enter (hd.connected.exists_spare_node hd.sound (by omega))
   (follows_perform
   (turns_removeNode (Q := fun _ d' => Sturdy A i d'.work ∧ d'.work.size + 1 = d.work.size)
    (fun m hm hc =>
    ⟨hd.withoutNode hc,size_removeNode hd.sound hd.single hm⟩) fun _ _ => trivial)))
   fun _ d' ⟨hd',hsiz⟩ => ih hd' (by omega)

lemma Sturdy.follows_removeNodesDownTo {count : Int} (hd : Sturdy A i d.work) (hcou : 1 ≤ count) :
 Follows (Loop.Fits A k) (removeNodesDownTo patience count) (removeNodesDownTo patience count) d
  fun _ d => Sturdy A i d.work := by
 have hpos := hd.size_pos
 exact follows_graph (hd.follows_removeNodesBy _ (by omega))

lemma Sturdy.follows_joinPairs {s : Nat} {edgeLabels target : Int} (fuel : Nat)
 (hd : Sturdy A i d.work ∧ d.work.size = s)
 (htar : 2 * target ≤ (s : Int) * (s - 1)) :
 Follows (Loop.Fits A k) (joinPairs patience edgeLabels target fuel)
  (joinPairs patience edgeLabels target fuel) d
  fun _ d => Sturdy A i d.work ∧ d.work.size = s := by
 induction fuel generalizing d with
 | zero => exact follows_throw _
 | succ fuel ih =>
  obtain ⟨hd,hsiz⟩ := hd
  refine follows_graph (follows_ite (fun _ => follows_pure ⟨hd,hsiz⟩) fun htar' => ?_)
  have hfew : 2 * d.work.edges.length < d.work.size * (d.work.size - 1) := by
   have hpos := hd.size_pos
   zify [hpos]
   rw [hsiz]
   omega
  refine follows_enter (exists_unjoined hd.sound.ids hfew) ?_
  refine Follows.bind (follows_perform (turns_drawPair (Q :=
   fun p d' => d' = d ∧ p.1 ∈ d.work.ids ∧ p.2 ∈ d.work.ids)
   (fun u hu v hv => ⟨rfl,hu,hv⟩) fun _ _ => trivial)) ?_
  rintro ⟨u,v⟩ _ ⟨hpair,hu,hv⟩
  rw [hpair]
  refine Follows.bind (follows_perform (turns_drawLabel (Q :=
   fun _ d' => d' = d) (fun _ => rfl) fun _ _ => trivial)) ?_
  intro l _ hlab
  rw [hlab]
  refine follows_edit (follows_edit (follows_edit (ih ⟨((hd.link hu hv l).mark u).mark v,?_⟩)))
  rw [← hsiz,size_eq_length,size_eq_length]
  exact congrArg length ((ids_setNodeAttr _ v _ _).trans (ids_linkMark hu hv u l))

lemma turns_joinLoneNodes_sturdy {k : Nat} (hk : 0 < k) (fuel : Nat) {linked lone : List NodeId}
 (hd : Framed A i d.work ∧ d.work.Gathers linked lone ∧ d.work.size = k) :
 Turns (joinLoneNodes patience edgeLabels fuel linked lone) d (fun _ d => Sturdy A i d.work ∧
  d.work.size = k)
  fun _ _ => True := by
 have hjoi : ∀ (g : Graph) u v l, Framed A i g → u ∈ g.ids → v ∈ g.ids → g.size = k →
  Framed A i (mark u (link u v l g)) ∧ (mark u (link u v l g)).size = k := by
  intro g u v l hg hu hv hsiz
  refine ⟨(hg.link hu hv l).mark u,?_⟩
  rw [size_eq_length,ids_linkMark hu hv,← size_eq_length,hsiz]
 refine turns_joinLoneNodes (J := fun linked lone d => Framed A i d.work ∧
  d.work.Gathers linked lone ∧ d.work.size = k)
  ?_ ?_ ?_ (fun _ _ _ _ _ _ => trivial) fuel hd
 · rintro linked lone d ⟨hf,hg,hsiz⟩ (hc | rfl)
   · exact ⟨⟨hf,hf.sound.isConnected_iff.1 hc⟩,hsiz⟩
   · refine ⟨⟨hf,hg.connected fun hnil => ?_⟩,hsiz⟩
     rw [size_eq_length,hnil,length_nil] at hsiz
     omega
 · rintro lone d new old l ⟨hf,hg,hsiz⟩ hnew hold hne
   obtain ⟨hf',hsiz'⟩ := hjoi d.work old new (.int l) hf (hg.known old (.inr hold))
    (hg.known new (.inr hnew)) hsiz
   exact ⟨hf',hg.first hf.single hnew hold hne _,hsiz'⟩
 · rintro linked lone d new old l ⟨hf,hg,hsiz⟩ hnew hold
   obtain ⟨hf',hsiz'⟩ := hjoi d.work old new (.int l) hf (hg.known old (.inl hold))
    (hg.known new (.inr hnew)) hsiz
   exact ⟨hf',hg.join hf.single hnew hold _,hsiz'⟩

lemma Framed.follows_addEdges (hd : Framed A i d.work) (hpos : 0 < d.work.size) (hlin : ∀ u v u' v',
 d.work.hasEdge u v → d.work.hasEdge u' v' → Relation.ReflTransGen d.work.Meets v v') :
 Follows (Loop.Fits A k) (addEdges patience edgeLabels least most)
  (addEdges patience edgeLabels least most) d
  fun _ d' => Sturdy A i d'.work ∧ d'.work.size = d.work.size := by
 refine follows_graph (follows_ite (fun hzero => absurd hzero hpos.ne') fun _ => ?_)
 refine (follows_perform (turns_joinLoneNodes_sturdy hpos _ ⟨hd,gathers_start hd.sound hlin,
  rfl⟩)).bind fun _ d' hd' => ?_
 refine follows_draw (brings_drawInt _ _) fun drawn _ => Sturdy.follows_joinPairs _ hd' ?_
 generalize d.work.size * (d.work.size - 1) = pairs
 omega

lemma Sturdy.follows_addEdges (hd : Sturdy A i d.work) :
 Follows (Loop.Fits A k) (addEdges patience edgeLabels least most)
  (addEdges patience edgeLabels least most) d
  fun _ d' => Sturdy A i d'.work ∧ d'.work.size = d.work.size :=
 hd.toFramed.follows_addEdges hd.size_pos fun _ _ _ _ h h' =>
  hd.connected.links _ (hd.sound.of_hasEdge h).2 _ (hd.sound.of_hasEdge h').2

lemma Sturdy.follows_addNodes {count nodeLabels edgeLabels : Int}
 (hA : ∀ l, 1 ≤ l → l ≤ nodeLabels → A (.int l))
 (hd : Sturdy A i d.work) :
 Follows (Loop.Fits A k) (addNodes patience count i nodeLabels edgeLabels least most)
  (addNodes patience count i nodeLabels edgeLabels least most) d
  fun i d' => Sturdy A i d'.work ∧ d'.work.size = d.work.size + (count - d.work.size).toNat := by
 refine follows_graph (Follows.bind (follows_perform (turns_drawNodes_numbered (Q :=
  fun new d' => d' = d ∧
  ∃ ls : List Int, ls.length = (count - d.work.size).toNat ∧ (∀ l ∈ ls, A (.int l)) ∧
   new = newNodes i ls) _ i
  (fun ls hls hA' => ⟨rfl,ls,hls,fun l hl => hA l (hA' l hl).1 (hA' l hl).2,rfl⟩) fun _ _ =>
   trivial)) ?_)
 rintro _ _ ⟨hd',ls,hls,hlab,rfl⟩
 rw [hd']
 have hsiz := size_addAll hd.sound.ids hd.below ls
 refine follows_edit (Follows.bind (Framed.follows_addEdges (hd.toFramed.addAll hlab) ?_ ?_)
  fun _ d' hd' => follows_pure ?_)
 · exact lt_of_lt_of_eq (by have := hd.size_pos; omega) hsiz.symm
 · intro u v u' v' h h'
   rw [Draft.edit,hasEdge_addAll] at h h'
   rw [Draft.edit,meets_addAll]
   exact hd.connected.links _ (hd.sound.of_hasEdge h).2 _ (hd.sound.of_hasEdge h').2
 · rw [← hls]
   exact ⟨hd'.1,hd'.2.trans hsiz⟩

lemma Sturdy.follows_changeLabel {nodeLabels : Int} (hA : ∀ l, 1 ≤ l → l ≤ nodeLabels → A (.int l))
 (hd : Sturdy A i d.work) :
 Follows (Loop.Fits A nodeLabels) (changeLabel patience nodeLabels)
  (changeLabel patience nodeLabels) d
  fun _ d => Sturdy A i d.work := by
 refine follows_graph (follows_draw (brings_drawFrom _) fun n _ => ?_)
 cases hlab : d.work.nodeAttr? n "label" with
 | none => exact (follows_throw (Q := fun _ _ => False) _).bind fun _ _ h => h.elim
 | some old =>
  refine follows_pure_bind (follows_enter ⟨hd.labels n old hlab,rfl⟩
   (Follows.bind (follows_perform (turns_drawOther
   (Q := fun v d' => d' = d ∧ A v) (fun l hl hl' => ⟨rfl,hA l hl hl'⟩) fun _ _ => trivial)) ?_))
  rintro v _ ⟨hd',hv⟩
  rw [hd']
  exact follows_perform (turns_edit (hd.relabel n hv))

lemma Sturdy.follows_moveEdge (hd : Sturdy A i d.work) :
 Follows (Loop.Fits A k) (moveEdge patience edgeLabels) (moveEdge patience edgeLabels) d fun _ d =>
  Sturdy A i d.work := by
 have hrem : ∀ d', Sturdy A i d'.work ∧ d'.work.size = d.work.size → Follows (Loop.Fits A k)
  (do if (d.work.size : Int) ≤ (← perform graph).edges.length then removeEdge patience)
  (do if (d.work.size : Int) ≤ (← perform graph).edges.length then removeEdge patience) d'
   fun _ d => Sturdy A i d.work := by
  rintro d' ⟨hd',hsiz⟩
  refine follows_graph (follows_ite (fun hle => ?_) fun _ => follows_pure hd')
  exact (hd'.follows_removeEdge (by omega)).imp fun _ _ h => h.1
 refine follows_graph (follows_ite (fun _ => ?_) fun _ => hrem d ⟨hd,rfl⟩)
 exact hd.follows_addEdges.bind fun _ d' hd' => hrem d' hd'

lemma Sturdy.follows_modifySteps (hA : ∀ l, 1 ≤ l → l ≤ nodeLabels → A (.int l)) (n : Nat)
 (hd : Sturdy A i d.work) :
 Follows (Loop.Fits A nodeLabels) (modifySteps patience nodeLabels edgeLabels least most n i)
  (modifySteps patience nodeLabels edgeLabels least most n i) d fun i d => Sturdy A i d.work := by
 induction n generalizing i d with
 | zero => exact follows_pure hd
 | succ n ih =>
  refine follows_draw (brings_drawInt 0 3) fun kind hkind => ?_
  obtain rfl | rfl | rfl : kind = 0 ∨ kind = 1 ∨ kind = 2 := by omega
  · exact (hd.follows_changeLabel hA).bind fun _ _ hd => follows_pure_bind (ih hd)
  · refine follows_graph ((hd.follows_addNodes hA).bind fun j d' ⟨hd',hsiz⟩ => follows_graph ?_)
    have hpos := hd.size_pos
    exact (hd'.follows_removeNodesDownTo (by omega)).bind fun _ _ hd => follows_pure_bind (ih hd)
  · exact hd.follows_moveEdge.bind fun _ _ hd => follows_pure_bind (ih hd)

lemma Sturdy.follows_modifyAtRandom (hA : ∀ l, 1 ≤ l → l ≤ nodeLabels → A (.int l))
 (hd : Sturdy A i d.work) :
 Follows (Loop.Fits A nodeLabels) (modifyAtRandom patience nodeLabels edgeLabels i least most)
  (modifyAtRandom patience nodeLabels edgeLabels i least most) d fun i d => Sturdy A i d.work :=
 follows_graph (follows_draw (brings_drawInt _ _) fun _ _ => hd.follows_modifySteps hA _)

variable (hA : ∀ l, 1 ≤ l → l ≤ labels.nodes → A (.int l))
include hA

lemma Sturdy.follows_untilForeign {source : Graph} {bounds : EdgeBounds} (n : Nat)
 (hd : Sturdy A i d.work) :
 Follows (Loop.Fits A labels.nodes) (untilForeign patience source labels bounds n i)
  (untilForeign patience source labels bounds n i) d
  fun _ _ => True := by
 induction n generalizing i d with
 | zero => exact follows_pure trivial
 | succ n ih =>
  refine follows_graph ?_
  rcases embeds labelLikeness source d.work with e | _ | _
  · exact follows_pure trivial
  · exact follows_pure trivial
  · exact (hd.follows_modifyAtRandom hA).bind fun _ _ hd => ih hd

lemma Sturdy.follows_resize {count : Int} {bounds : EdgeBounds} (hcou : 1 ≤ count)
 (hd : Sturdy A i d.work) :
 Follows (Loop.Fits A labels.nodes) (resize patience count i labels bounds)
  (resize patience count i labels bounds) d
  fun i d => Sturdy A i d.work := by
 refine follows_graph (follows_ite (fun _ => ?_) fun _ => follows_ite (fun _ => ?_) fun _ =>
  follows_pure hd)
 · exact (hd.follows_removeNodesDownTo hcou).bind fun _ _ hd => follows_pure hd
 · exact (hd.follows_addNodes hA).imp fun _ _ h => h.1

end

section
open Binary64 Float.Model
variable {g : Graph} {c : Float}

lemma rank_toUnit {k : Nat} (hk : k < 2 ^ 53) :
 (Draw.toUnit k : Float).toModel.unpack ≠ .notANumber ∧
  rank (Draw.toUnit k : Float).toModel.unpack < perOne := by
 have hdiv : (Float.ofInt (Nat.pow 2 53 : Nat)).toModel.unpack = .finite .positive (2 ^ 52)
  ((53 : Nat) - 52) (by decide) := by
  rw [show Float.ofInt (Nat.pow 2 53 : Nat) = Float.ofBits 0x4340000000000000 by decide +kernel]
  rfl
 have hunit : (Draw.toUnit k : Float).toModel.unpack =
  (Float.Model.pack (UnpackedFloat.div Format.binary64
  (Float.ofNat k).toModel.unpack (.finite .positive (2 ^ 52) ((53 : Nat) - 52)
   (by decide)))).unpack := by
  rw [← hdiv]
  rfl
 rw [hunit]
 rcases eq_zero_or_pos k with rfl | hpos
 · rw [ofNat_zero,UnpackedFloat.div,unpack_pack_zero]
   exact ⟨by simp,Int.natCast_pos.2 perOne_pos⟩
 · rw [unpack_ofNat hpos hk]
   have hsta := (stands_div_two_pow (canonical_whole hpos hk) (j := 53) (by omega)).pack
   rw [apply_mantissaOf hpos hk] at hsta
   refine ⟨hsta.number,lt_of_eq_of_lt hsta.place ?_⟩
   have hmost : Decimal.signedRounded ((2 ^ 53 - 1 : Nat) * perOne) (2 ^ 53) <
    perOne := by decide +kernel
   have hle : (k * perOne : Int) ≤ (2 ^ 53 - 1 : Nat) * perOne := by
    exact_mod_cast Nat.mul_le_mul_right perOne (by omega)
   have hmono := Decimal.signedRounded_mono (d := 2 ^ 53) (Nat.two_pow_pos _) hle
   have hone := Int.natCast_pos.2 perOne_pos
   rw [clamped]
   omega

def Vain (c : Float) : Prop := ∃ s, c.toModel.unpack = .zero s

lemma Vain.lt_rest (hc : Vain c) {k : Nat} (hk : k < 2 ^ 53) :
 Scalar.lt (Draw.toUnit k) (Scalar.zero + (Scalar.one - c)) := by
 obtain ⟨s,hc⟩ := hc
 have hres : (Scalar.one - c).toModel.unpack = .finite .positive (2 ^ 52) (-52) (by decide) := by
  change (Float.Model.pack (UnpackedFloat.sub Format.binary64
   (Float.ofInt 1).toModel.unpack c.toModel.unpack)).unpack = _
  rw [hc,show Float.ofInt 1 = Float.ofBits 0x3FF0000000000000 by decide +kernel]
  cases s <;> rfl
 have hsum : (Scalar.zero + (Scalar.one - c)).toModel.unpack = .finite .positive (2 ^ 52) (-52)
  (by decide) := by
  change (Float.Model.pack (UnpackedFloat.add Format.binary64 (Float.ofInt 0).toModel.unpack
   (Scalar.one - c).toModel.unpack)).unpack = _
  rw [hres,show Float.ofInt 0 = Float.ofBits 0 by decide +kernel]
  rfl
 have hunit := rank_toUnit hk
 refine decide_eq_true ((lt_iff hunit.1 (by rw [hsum]; simp)).2 ?_)
 rw [hsum]
 exact lt_of_lt_of_eq hunit.2 (by decide +kernel)

lemma Vain.atMost_one (hc : Vain c) : Vain (Scalar.atMost Scalar.one c) := by
 obtain ⟨s,hs⟩ := hc
 have hnot : Scalar.lt Scalar.one c = false := by
  refine decide_eq_false fun hlt => ?_
  have hone := ofInt_nonneg (n := 1) (by decide)
  have hlt := (lt_iff hone.1 (by rw [hs]; simp)).1 hlt
  rw [hs] at hlt
  exact absurd hone.2 (not_le.2 hlt)
 rw [Scalar.atMost,hnot]
 exact ⟨s,hs⟩

lemma Vain.raised (hc : Vain c) : Vain (raised c) := by
 obtain ⟨s,hs⟩ := hc
 have hfin : (Scalar.ofScientific 105 true 2 : Float).toModel.unpack.isFinite := by decide +kernel
 have hmul : (Sampling.raised c).toModel.unpack =
  (Float.Model.pack (UnpackedFloat.mul Format.binary64 c.toModel.unpack
  (Scalar.ofScientific 105 true 2 : Float).toModel.unpack)).unpack := rfl
 rw [Vain,hmul,hs]
 generalize (Scalar.ofScientific 105 true 2 : Float).toModel.unpack = u at hfin ⊢
 cases u with
 | notANumber => cases hfin
 | infinity => cases hfin
 | zero s' => exact ⟨s * s',unpack_pack_zero _⟩
 | finite s' => exact ⟨s * s',unpack_pack_zero _⟩

lemma vain_share (h : share Float g 0 = .ok c) : Vain c := by
 rw [share] at h
 split at h
 · cases h
 · next hsiz =>
   cases h
   refine Vain.atMost_one ?_
   have hdiv : (Scalar.ofInt 0 / Scalar.ofNat g.size : Float).toModel.unpack =
    (Float.Model.pack (UnpackedFloat.div Format.binary64
    (Float.ofNat 0).toModel.unpack (Float.ofNat g.size).toModel.unpack)).unpack := rfl
   obtain ⟨hnum,hpos⟩ := ofNat_pos (pos_of_ne_zero hsiz)
   rw [Vain,hdiv,ofNat_zero]
   generalize (Float.ofNat g.size).toModel.unpack = u at hnum hpos
   obtain ⟨s,hs⟩ : ∃ s, UnpackedFloat.div Format.binary64 (.zero .positive) u = .zero s := by
    cases u with
    | notANumber => exact absurd rfl hnum
    | zero => exact absurd hpos (lt_irrefl 0)
    | infinity => exact ⟨_,rfl⟩
    | finite => exact ⟨_,rfl⟩
   rw [hs]
   exact ⟨s,unpack_pack_zero s⟩

lemma Vain.brings_drawMask {E : Error → Prop} (hc : Vain c) (n : Nat) :
 (drawMask c n).Brings (· = replicate n false) E := by
 induction n with
 | zero => exact brings_pure rfl
 | succ n ih =>
  have hunit : (Draw.drawUnit : Draw Float).Brings (fun u => ∃ k < 2 ^ 53, u = Draw.toUnit k) E :=
   fun st =>
   ⟨_,st.sampling.unitNumerator_lt,rfl⟩
  refine hunit.bind fun u ⟨k,hk,hu⟩ => ih.bind fun mask hmask => brings_pure ?_
  rw [hu,hmask,placeOf,hc.lt_rest hk]
  rfl

lemma Vain.brings_connectedPart (hc : Vain c)
 (hids : ∀ n ∈ g.ids, ∃ k < g.size, n = .num (Int.ofNat k))
 (patience : Nat) : (connectedPart patience g none c).Brings (fun _ => False)
  (· = .outOfPatience) := by
 have hnot : (masked g (replicate g.size false) none).size = 0 := by
  rw [size_eq_length,length_eq_zero_iff,eq_nil_iff_forall_not_mem]
  intro n hn
  obtain ⟨hn,hkeep⟩ := mem_ids_induced.1 hn
  obtain ⟨k,hk,rfl⟩ := hids n hn
  have hout : NodeId.num (Int.ofNat k) ∈ (replicate g.size false).zipIdx.filterMap fun e =>
   if e.1 then none else some (NodeId.num e.2) :=
   mem_filterMap.2 ⟨(false,k),by simp [mem_zipIdx_iff_getElem?,hk],rfl⟩
  rw [contains_iff_mem.2 hout] at hkeep
  cases hkeep
 refine brings_untilDrawn (K := Vain) (E :=
  (· = .outOfPatience)) (fun c hc => ?_) rfl (fun c hc => hc.raised.atMost_one) patience 0 hc
 refine (hc.brings_drawMask g.size).bind fun mask hmask => ?_
 rw [hmask,if_pos (by omega)]
 exact brings_pure fun _ h => by cases h

end

variable {A : Value → Prop} {i : Int} {g part : Graph} {anchor : Option NodeId} {patience : Nat}
 {induced : Bool}
 {mean spread : Float} {labels : LabelCounts}

lemma Drawn.sturdy (hpart : Drawn g anchor part) (hg : Framed A i g) : Sturdy A i part := by
 have hw := (hpart.within hg.sound hg.single).1
 obtain ⟨mask,hmask⟩ := hpart.left
 exact ⟨hg.of_within hw (by rw [hmask]; rfl),hw.sound.isConnected_iff.1 hpart.connected⟩

lemma Sturdy.unmarkAll (hg : Sturdy A i g) : Sturdy A i (unmarkAll g) where
 sound := unmarkAll_eq g ▸ hg.sound.putEach _ _
 single := hg.single
 undirected := hg.undirected
 below := by
  rw [ids_unmarkAll]
  exact hg.below
 labels n v hv := by
  obtain ⟨b,hb,_⟩ := bind_eq_some_iff.1 hv
  have hn : n ∈ g.ids := by
   rw [← ids_unmarkAll]
   exact attrs?_isSome_iff.1 (by rw [hb]; rfl)
  obtain ⟨a,ha⟩ := exists_attrs hn
  rw [unmarkAll_eq,nodeAttr?,attrs?_putEach hg.sound ha,bind_some,
   get?_put_of_ne _ _ (by decide)] at hv
  exact hg.labels n v (bind_eq_some_iff.2 ⟨a,ha,hv⟩)
 connected := hg.connected.mono (fun _ => by rw [ids_unmarkAll]) fun _ _ h => h

lemma follows_lift {α β : Type} {P : Loop → Prop} {d : Draft} {f : α → Logged β} {k : α → Edit β}
 {R : β → Draft → Prop}
 {x : Except Error α} (hf : ∀ a, x = .ok a → Follows P (f a) (k a) d R) :
 Follows P (perform (liftM x) >>= f) (perform (liftM x) >>= k) d R :=
 (follows_perform (Q := fun a d' => x = .ok a ∧ d' = d)
  (turns_lift (fun _ ha => ⟨ha,rfl⟩) fun _ _ => trivial)).bind
  fun a _ ⟨ha,hd⟩ => hd ▸ hf a ha

lemma Framed.follows_carve {count : Int} (hg : Framed A i g) :
 Follows (Loop.Fits A k) (carve patience anchor induced count mean spread)
  (carve patience anchor induced count mean spread)
  (.start g) fun _ _ => True := by
 refine follows_graph (follows_lift fun chance _ => follows_lift fun bounds _ => ?_)
 refine (follows_perform (turns_leaveForPart (Q :=
  fun _ d => Sturdy A i d.work) (fun part hpart => hpart.sturdy hg) trivial)).bind
  fun _ d hd => ?_
 cases induced with
 | true => exact follows_pure trivial
 | false =>
  refine follows_graph (follows_draw (brings_drawThinning (E := fun _ => False) _) fun n hn => ?_)
  exact (hd.follows_thinOut n hn).imp fun _ _ _ => trivial

lemma Framed.follows_estrange {count : Nat} (hg : Framed A g.size g)
 (hids : ∀ n ∈ g.ids, ∃ k < g.size, n = .num (Int.ofNat k)) (hA : ∀ l, 1 ≤ l → l ≤ labels.nodes →
  A (.int l)) :
 Follows (Loop.Fits A labels.nodes) (estrange patience induced count mean spread labels)
  (estrange patience induced count mean spread labels) (.start g) fun _ _ => True := by
 refine follows_graph (follows_lift fun chance hcha => follows_lift fun bounds _ => ?_)
 have hdra : (connectedPart patience g none chance).Brings (fun part => Drawn g none part ∧
  1 ≤ count) fun _ => True := by
  rcases eq_zero_or_pos count with rfl | hpos
  · exact ((vain_share hcha).brings_connectedPart hids patience).imp (fun _ h => h.elim)
     fun _ _ => trivial
  · exact (brings_connectedPart patience g none chance).imp (fun _ h => ⟨h,hpos⟩) fun _ _ => trivial
 have hlea : Turns (leaveForPart patience none chance) (.start g)
  (fun _ d => Sturdy A g.size d.work ∧ 1 ≤ count)
  fun _ _ => True :=
  Turns.bind (turns_graph
   (Turns.bind (turns_draw hdra (fun _ ⟨hpart,hcou⟩ => turns_leave ⟨hpart.sturdy hg,hcou⟩)
   fun _ _ => trivial)))
 refine (follows_perform hlea).bind fun _ d ⟨hd,hcou⟩ => follows_edit ?_
 refine (Sturdy.follows_resize hA (by omega) hd.unmarkAll).bind fun i d hd => ?_
 have hres : ∀ d, Sturdy A i d.work → Follows (Loop.Fits A labels.nodes) (do
  let start ← modifyAtRandom patience labels.nodes labels.edges i bounds.least bounds.most
  untilForeign patience g labels bounds 3 start)
  (do
   let start ← modifyAtRandom patience labels.nodes labels.edges i bounds.least bounds.most
   untilForeign patience g labels bounds 3 start) d fun _ _ => True := fun d hd =>
  (hd.follows_modifyAtRandom hA).bind fun _ _ hd => hd.follows_untilForeign hA 3
 cases induced with
 | true => exact hres d hd
 | false =>
  refine follows_graph (follows_draw (brings_drawThinning (E := fun _ => False) _) fun n hn => ?_)
  exact (hd.follows_removeEdges n hn).bind fun _ d hd => hres d hd

lemma Follows.on {α : Type} {P P' : Loop → Prop} {x : Logged α} {y : Edit α} {Q : α → Draft → Prop}
 (h : Follows P x y (.start g) Q)
 (hP : ∀ loop, P loop → P' loop) (st : Streams) :
  ∃ log, x.on g st = (y.on g st,log) ∧ ∀ loop ∈ log, P' loop := by
 obtain ⟨log,hrun,hlog,_⟩ := h st []
 refine ⟨log,?_,fun loop hloop => hP loop (hlog loop hloop)⟩
 rw [Logged.on,hrun]
 rfl

theorem loops_can_end (hg : g.Sound) (hm : g.multi = false) (hd : g.directed = false)
 (hids : ∀ n ∈ g.ids, ∃ k < g.size, n = .num (Int.ofNat k)) (count : Nat) (st : Streams) :
 (∃ log, Logged.on (carve patience anchor induced count mean spread) g st =
  (Edit.on (carve patience anchor induced count mean spread) g st,log) ∧
  ∀ loop ∈ log, loop.overGraph = true → loop.CanEnd) ∧
 ∃ log, Logged.on (estrange patience induced count mean spread labels) g st =
  (Edit.on (estrange patience induced count mean spread labels) g st,log) ∧
  ∀ loop ∈ log, loop.overGraph = true → loop.CanEnd := by
 have hfra : Framed (fun _ => True) g.size g :=
  ⟨hg,hm,hd,fun _ => lt_size_of_num_mem hids,fun _ _ _ => trivial⟩
 have hfits : ∀ loop, Loop.Fits (fun _ => True) labels.nodes loop → loop.overGraph = true →
  loop.CanEnd := by
  intro loop hfits hover
  cases loop with
  | changeLabel => cases hover
  | _ => exact hfits
 exact ⟨hfra.follows_carve.on hfits st,(hfra.follows_estrange hids fun _ _ _ => trivial).on hfits st⟩

theorem triangle_loops_can_end :
 ∃ log, Logged.on (estrange 100 false 3 2.0 1.0 ⟨2,1⟩) triangle ⟨.seed 24,.seed 0⟩ =
 (Edit.on (estrange 100 false 3 2.0 1.0 ⟨2,1⟩) triangle ⟨.seed 24,.seed 0⟩,log) ∧
 log.map Loop.overGraph = [true,true,true,true] ∧ ∀ loop ∈ log, loop.overGraph = true →
  loop.CanEnd := by
 have hche : (Logged.on (estrange 100 false 3 2.0 1.0 ⟨2,1⟩) triangle ⟨.seed 24,.seed 0⟩).2.map
  Loop.overGraph =
  [true,true,true,true] := by decide +kernel
 obtain ⟨log,hrun,hlog⟩ :=
  (@loops_can_end triangle none 100 false 2.0 1.0 ⟨2,1⟩ triangle_labelled.sound rfl rfl (by decide) 3
  ⟨.seed 24,.seed 0⟩).2
 rw [Nat.cast_ofNat] at hrun
 rw [hrun] at hche
 exact ⟨log,hrun,hche,hlog⟩

end MotifMatch.Sampling
