import MotifMatch.Proofs.Adjacency
import MotifMatch.Proofs.FloatOrder
import MotifMatch.Proofs.QueryClasses
import MotifMatch.Proofs.Tries

namespace MotifMatch
open List MotifMatch.Graph Subtype Bool Relation Nat
open Sampling (link addAll mark)
namespace Graph
variable {g h : Graph}

lemma Connected.edgeList_ne_nil (hc : g.Connected) (hg : g.Sound) (hsiz : 2 ≤ g.size) :
 g.edgeList ≠ [] := by
 obtain ⟨u,us,hus⟩ := exists_cons_of_ne_nil hc.ids
 obtain ⟨v,hv⟩ := hc.exists_meets (hus ▸ mem_cons_self) hsiz hg.ids
 have hlis : ∀ u v, g.hasEdge u v → g.edgeList ≠ [] := by
  intro u v huv
  rw [← hasEdge_relisted hg,hasEdge_iff] at huv
  obtain ⟨e,he,_⟩ := huv
  exact ne_nil_of_mem he
 exact hv.elim (hlis u v) (hlis v u)

lemma mem_ids_removeNode {m n : NodeId} : m ∈ (g.relisted.removeNode n).ids ↔ m ∈ g.ids ∧ m ≠ n := by
 rw [removeNode_eq_induced,mem_ids_induced,not_eq_true',beq_eq_false_iff_ne]
 rfl

lemma size_removeNode (hg : g.Sound) (hm : g.multi = false) {n : NodeId} (hn : n ∈ g.ids) :
 (g.relisted.removeNode n).size + 1 = g.size := by
 have hnod :=
  nodup_cons.2 ⟨fun h => (mem_ids_removeNode.1 h).2 rfl,(within_removeNode hg hm n).sound.ids⟩
 have hper : (n :: (g.relisted.removeNode n).ids).Perm g.ids := by
  refine (perm_ext_iff_of_nodup hnod hg.ids).2 fun m => ?_
  rw [mem_cons,mem_ids_removeNode]
  by_cases hmn : m = n
  · simp [hmn,hn]
  · simp [hmn]
 rw [size_eq_length,size_eq_length,← hper.length_eq,length_cons]

lemma hasEdge_link (hm : g.multi = false) (u v a b : NodeId) (l : Value) :
 (link u v l g).hasEdge a b = (g.hasEdge a b || g.joins a b ⟨u,v,.none,.ofList [("label",l)]⟩) := by
 have hadd := hasEdge_addListed (g := g) (u := a) (v := b) ⟨u,v,.none,.ofList [("label",l)]⟩
 rwa [addListed,hm] at hadd

lemma hasEdge_addAll (new : List (NodeId × Attrs)) (u v : NodeId) :
 (addAll new g).hasEdge u v = g.hasEdge u v := by
 induction new generalizing g with
 | nil => rfl
 | cons e new ih => exact ih

lemma meets_addAll (new : List (NodeId × Attrs)) : (addAll new g).Meets = g.Meets := by
 funext u v
 simp only [Meets,hasEdge_addAll]

variable {linked lone : List NodeId} {new old : NodeId}

structure Gathers (g : Graph) (linked lone : List NodeId) : Prop where
 links : ∀ u ∈ linked, ∀ v ∈ linked, ReflTransGen g.Meets u v
 all : ∀ n ∈ g.ids, n ∈ linked ∨ n ∈ lone
 known : ∀ n, n ∈ linked ∨ n ∈ lone → n ∈ g.ids

lemma gathers_start (hg : g.Sound)
 (hlin : ∀ u v u' v', g.hasEdge u v → g.hasEdge u' v' → ReflTransGen g.Meets v v') :
 g.Gathers (distinct (g.ids.flatMap g.neighbors))
  (g.ids.filter fun n => !(distinct (g.ids.flatMap g.neighbors)).contains n) := by
 have hmem : ∀ v, v ∈ distinct (g.ids.flatMap g.neighbors) → ∃ u, g.hasEdge u v := by
  intro v hv
  obtain ⟨u,_,hv⟩ := mem_flatMap.1 (mem_distinct.1 hv)
  exact ⟨u,mem_neighbors_iff.1 hv⟩
 refine ⟨fun v hv v' hv' => ?_,fun n hn => ?_,?_⟩
 · obtain ⟨u,hu⟩ := hmem v hv
   obtain ⟨u',hu'⟩ := hmem v' hv'
   exact hlin u v u' v' hu hu'
 · by_cases h : n ∈ distinct (g.ids.flatMap g.neighbors)
   · exact .inl h
   · exact .inr (mem_filter.2 ⟨hn,by simpa using h⟩)
 · rintro n (hn | hn)
   · obtain ⟨u,hu⟩ := hmem n hn
     exact (hg.of_hasEdge hu).2
   · exact mem_of_mem_filter hn

lemma Gathers.join (hg : g.Gathers linked lone) (hm : g.multi = false) (hnew : new ∈ lone)
 (hold : old ∈ linked) (l : Value) :
 (mark old (link old new l g)).Gathers (linked ++ [new]) (lone.erase new) := by
 have hold' := hg.known old (.inl hold)
 have hnew' := hg.known new (.inr hnew)
 have hids := Sampling.ids_linkMark hold' hnew' old l
 have hedg : ∀ u v, g.hasEdge u v → (mark old (link old new l g)).hasEdge u v := fun u v huv =>
  (hasEdge_link hm old new u v l).trans (by rw [huv,Bool.true_or])
 have hste : (mark old (link old new l g)).Meets old new :=
  .inl ((hasEdge_link hm old new old new l).trans (by
   rw [joins_self ⟨old,new,.none,.ofList [("label",l)]⟩,Bool.or_true]))
 have hlin : ∀ u ∈ linked, ∀ v ∈ linked,
  ReflTransGen (mark old (link old new l g)).Meets u v := fun u hu v hv =>
  ReflTransGen.mono (fun a b hab => hab.imp (hedg a b) (hedg b a)) u v (hg.links u hu v hv)
 refine ⟨?_,fun n hn => ?_,fun n hn => ?_⟩
 · -- All nodes meet at the old one, which is next to the new one from now on.
   have hto : ∀ u ∈ linked ++ [new], ReflTransGen (mark old (link old new l g)).Meets u old := by
    intro u hu
    rcases mem_append.1 hu with hu | hu
    · exact hlin u hu old hold
    · obtain rfl := mem_singleton.1 hu
      exact .single hste.symm
   exact fun u hu v hv => (hto u hu).trans (links_symm (hto v hv))
 · rw [hids] at hn
   by_cases hnn : n = new
   · exact .inl (by simp [hnn])
   · exact (hg.all n hn).imp (fun h => mem_append_left _ h) fun h => (mem_erase_of_ne hnn).2 h
 · rw [hids]
   rcases hn with hn | hn
   · rcases mem_append.1 hn with hn | hn
     · exact hg.known n (.inl hn)
     · exact mem_singleton.1 hn ▸ hnew'
   · exact hg.known n (.inr (mem_of_mem_erase hn))

lemma Gathers.first (hg : g.Gathers [] lone) (hm : g.multi = false) (hnew : new ∈ lone)
 (hold : old ∈ lone) (hne : old ≠ new)
 (l : Value) : (mark old (link old new l g)).Gathers [old,new] ((lone.erase old).erase new) := by
 have hsta : g.Gathers [old] (lone.erase old) := by
  refine ⟨fun u hu v hv => ?_,fun n hn => ?_,fun n hn => ?_⟩
  · rw [mem_singleton.1 hu,mem_singleton.1 hv]
  · by_cases hno : n = old
    · exact .inl (by simp [hno])
    · exact .inr ((mem_erase_of_ne hno).2 ((hg.all n hn).resolve_left not_mem_nil))
  · rcases hn with hn | hn
    · exact mem_singleton.1 hn ▸ hg.known old (.inr hold)
    · exact hg.known n (.inr (mem_of_mem_erase hn))
 exact hsta.join hm ((mem_erase_of_ne hne.symm).2 hnew) (mem_singleton.2 rfl) l

lemma Gathers.connected (hg : g.Gathers linked []) (hids : g.ids ≠ []) : g.Connected where
 ids := hids
 links u hu v hv := hg.links u ((hg.all u hu).resolve_right not_mem_nil) v
  ((hg.all v hv).resolve_right not_mem_nil)

end Graph

namespace Sampling
open MotifMatch.Graph (Within Labelled)
variable {g h : Graph} {d : Draft} {anchor : Option NodeId} {patience : Nat} {induced : Bool}
 {count : Int}
 {mean spread : Float} {u v : NodeId}

structure Excerpt (g : Graph) (anchor : Option NodeId) (induced : Bool) (h : Graph) : Prop where
 within : Within h g
 directed : h.directed = g.directed
 size : 2 ≤ h.size
 connected : h.Connected
 anchored : ∀ a ∈ anchor, a ∈ h.ids
 full : induced = true → ∀ u ∈ h.ids, ∀ v ∈ h.ids, h.edgeAttrs? u v = g.edgeAttrs? u v

lemma Drawn.excerpt (hd : Drawn g anchor h) (hg : g.Sound) (hm : g.multi = false)
 (hanc : ∀ a ∈ anchor, a ∈ g.ids) :
 Excerpt g anchor induced h := by
 obtain ⟨hw,hfull⟩ := hd.within hg hm
 obtain ⟨mask,hmask⟩ := hd.left
 exact {
   within := hw
   directed := by rw [hmask]; rfl
   size := hd.size
   connected := hw.sound.isConnected_iff.1 hd.connected
   anchored := by
     rintro a rfl
     exact hmask ▸ mem_ids_masked (hanc a rfl) mask
   full := fun _ => hfull }

lemma Excerpt.withoutEdge (hh : Excerpt g anchor false h)
 (hc : (h.relisted.removeEdge u v).isConnected true = .ok true) :
  Excerpt g anchor false (h.relisted.removeEdge u v) where
 within := hh.within.trans (within_removeEdge hh.within.sound hh.within.single u v)
 directed := hh.directed
 size := hh.size
 connected := (within_removeEdge hh.within.sound hh.within.single u v).sound.isConnected_iff.1 hc
 anchored := hh.anchored
 full htrue := by cases htrue

lemma turns_carve_excerpt (hg : g.Sound) (hm : g.multi = false) (hsiz : g.size ≠ 0)
 (hanc : ∀ a ∈ anchor, a ∈ g.ids) :
 Turns (carve patience anchor induced count mean spread) (.start g)
  (fun _ d => d.Apart g ∧ Excerpt g anchor induced d.work)
  fun e d => d.given = g ∧ (e = .outOfPatience ∨ partBounds count mean spread = .error e) := by
 refine turns_carve
  (fun part hpart => ⟨⟨[],rfl⟩,hpart.excerpt hg hm hanc⟩) ?_ fun e he => ⟨rfl,?_⟩
 · rintro rfl d ⟨hapa,hd⟩
   refine turns_removeEdge (fun e _ hc => ⟨hapa.leave _,hd.withoutEdge hc⟩) fun e he =>
    ⟨hapa.given,.inl ?_⟩
   exact he.resolve_right (hd.connected.edgeList_ne_nil hd.within.sound hd.size)
 · exact he.imp id fun he => he.resolve_left hsiz

theorem carved_excerpt (patience : Nat) (hg : g.Sound) (hm : g.multi = false) (hsiz : 2 ≤ g.size)
 (hanc : ∀ a ∈ anchor, a ∈ g.ids) (st : Streams) :
 (∀ s, ((isoQuery g anchor induced count mean spread).run.run st).1 = .ok s →
  Excerpt g anchor induced s) ∧
  ∀ r d st', Edit.on (carve patience anchor induced count mean spread) g st = (r,d,st') →
   d.given = g ∧ (r = .ok () → Excerpt g anchor induced d.work) ∧
    ∀ e, r = .error e → e = .outOfPatience ∨ partBounds count mean spread = .error e := by
 have hcar : ∀ patience, Turns (carve patience anchor induced count mean spread) (.start g)
  (fun _ d => d.Apart g ∧ Excerpt g anchor induced d.work)
  fun e d => d.given = g ∧ (e = .outOfPatience ∨ partBounds count mean spread = .error e) :=
  fun _ => turns_carve_excerpt hg hm (by omega) hanc
 constructor
 · intro s hs
   have hque :=
    (brings_result
     ((hcar Draw.patience).imp (fun _ _ h => h.2) fun _ _ _ => trivial)).gives.bind fun _ hr =>
      Draw.gives_pure hr
   exact hque st s _ trivial (Prod.ext hs rfl)
 · intro r d st' hrun
   have hout := (hcar patience).on st
   rw [hrun] at hout
   cases r with
   | ok => exact ⟨hout.1.given,fun _ => hout.2,fun _ he => by cases he⟩
   | error e => exact ⟨hout.1,fun h => (by cases h),fun _ he => Except.error.inj he ▸ hout.2⟩

theorem triangle_excerpt :
 ∃ s, ((isoQuery triangle (some (.num 0)) false 3 2.0 1.0).run.run ⟨.seed 4,.seed 0⟩).1 = .ok s ∧
 s.edges.length = 2 ∧ Excerpt triangle (some (.num 0)) false s := by
 have hche : (((isoQuery triangle (some (.num 0)) false 3 2.0 1.0).run.run
  ⟨.seed 4,.seed 0⟩).1.toOption.any fun s =>
  s.edges.length == 2) = true := by decide +kernel
 generalize hs : ((isoQuery triangle (some (.num 0)) false 3 2.0 1.0).run.run ⟨.seed 4,.seed 0⟩).1 =
  x at hche
 obtain _ | s := x
 · cases hche
 have hanc : ∀ a ∈ some (.num 0), a ∈ triangle.ids := by decide
 have hque :=
  (carved_excerpt 0 triangle_labelled.sound triangle_labelled.single (by decide) hanc _).1 s hs
 exact ⟨s,rfl,beq_iff_eq.1 hche,hque⟩

section
open Binary64 Float.Model
variable {n p q : Int} {x y : Float}

lemma edgeCount_eq (hx : edgeCount n x = .ok p) :
 p = (clamped (Decimal.signedRounded (clamped (Decimal.signedRounded
 (rank (Float.ofInt n).toModel.unpack * rank x.toModel.unpack) perOne)) 2)).tdiv (perOne : Int) := by
 rw [edgeCount] at hx
 split at hx
 · next count hcou =>
   obtain ⟨hfin,rfl⟩ := truncate?_eq_some hcou
   cases hx
   obtain ⟨hpro,hhalf⟩ :=
    stands_half (packable_unpack (Float.ofInt n * x)).canonical (isFinite_pack hfin)
   obtain ⟨hn,hx⟩ := isFinite_of_mul (isFinite_pack hpro)
   have hmul := stands_mul_of_isFinite (packable_unpack _).canonical
    (packable_unpack _).canonical hn hx
   rw [← hmul.pack.place]
   exact congrArg (Int.tdiv · _) hhalf.pack.place
 · cases hx

lemma edgeCount_mono (hn : 0 ≤ n) (hx : edgeCount n x = .ok p) (hy : edgeCount n y = .ok q)
 (h : rank x.toModel.unpack ≤ rank y.toModel.unpack) : p ≤ q := by
 rw [edgeCount_eq hx,edgeCount_eq hy]
 refine Int.tdiv_le_tdiv (Int.natCast_pos.2 perOne_pos)
  (clamped_mono (Decimal.signedRounded_mono two_pos (clamped_mono
  (Decimal.signedRounded_mono perOne_pos ?_))))
 exact Int.mul_le_mul_of_nonneg_left h (ofInt_nonneg hn).2

lemma capped_mono (hn : 1 ≤ n) (hnan : x.toModel.unpack = .notANumber → ¬y < Float.ofInt (n - 1))
 (h : x.toModel.unpack ≠ .notANumber → y.toModel.unpack ≠ .notANumber →
  rank x.toModel.unpack ≤ rank y.toModel.unpack) :
 rank (capped n x).toModel.unpack ≤ rank (capped n y).toModel.unpack := by
 have htop := (ofInt_nonneg (n := n - 1) (by omega)).1
 rw [capped,capped]
 by_cases hx : x < Float.ofInt (n - 1) <;> by_cases hy : y < Float.ofInt (n - 1)
 · rw [if_pos hx,if_pos hy]
   exact h (not_nan_of_lt hx) (not_nan_of_lt hy)
 · rw [if_pos hx,if_neg hy]
   exact ((lt_iff (not_nan_of_lt hx) htop).1 hx).le
 · have hx' : x.toModel.unpack ≠ .notANumber := fun hx' => hnan hx' hy
   have hle := h hx' (not_nan_of_lt hy)
   rw [lt_iff hx' htop] at hx
   rw [lt_iff (not_nan_of_lt hy) htop] at hy
   omega
 · rw [if_neg hx,if_neg hy]

lemma least_le_most {bounds : EdgeBounds} (hn : 1 ≤ n) (hspr : 0.0 ≤ spread)
 (h : cappedBounds n mean spread = .ok bounds) :
 bounds.least ≤ bounds.most := by
 obtain ⟨p,hp,h⟩ := bind_eq_ok h
 obtain ⟨q,hq,h⟩ := bind_eq_ok h
 cases h
 have hsum := stands_sub_le_add (packable_unpack mean).canonical (packable_unpack spread).canonical
  (unpack_of_nonneg hspr)
 have hsub : (mean - spread).toModel.unpack =
  (Float.Model.pack (UnpackedFloat.sub Format.binary64 mean.toModel.unpack
   spread.toModel.unpack)).unpack := rfl
 have hadd : (mean + spread).toModel.unpack =
  (Float.Model.pack (UnpackedFloat.add Format.binary64 mean.toModel.unpack
   spread.toModel.unpack)).unpack := rfl
 have hnan : (Float.Model.pack .notANumber).unpack = .notANumber := rfl
 refine edgeCount_mono (by omega) hp hq (capped_mono hn (fun hlow hlt => ?_) fun hlow hhigh => ?_)
 -- Where the lower degree is no number it is capped, and the upper one is no number either or infinite.
 · have hhigh := not_nan_of_lt hlt
   rcases hsum with ⟨-,hsum | hsum⟩ | hsum | ⟨a,b,hle,ha,hb⟩
   · exact hhigh (by rw [hadd,hsum,hnan])
   · rw [lt_iff hhigh (ofInt_nonneg (by omega)).1,hadd,hsum,unpack_pack_infinity] at hlt
     exact absurd (packable_unpack _).rank_le.2 (not_le.2 hlt)
   · exact hhigh (by rw [hadd,hsum,hnan])
   · exact ha.pack.number (hsub ▸ hlow)
 · rcases hsum with ⟨hsum,-⟩ | hsum | ⟨a,b,hle,ha,hb⟩
   · exact absurd (by rw [hsub,hsum,hnan]) hlow
   · exact absurd (by rw [hadd,hsum,hnan]) hhigh
   · rw [hsub,hadd,ha.pack.place,hb.pack.place]
     exact clamped_mono hle

end

section
variable {k n : Nat} {i : Int} {labels : LabelCounts} {F : Error → Draft → Prop}

structure Sized (k : Nat) (i : Int) (g : Graph) : Prop where
 labelled : Labelled g
 size : g.size = k
 below : ∀ j, .num j ∈ g.ids → j < i

structure Whole (k : Nat) (i : Int) (g : Graph) : Prop extends Sized k i g where
 connected : g.Connected

variable (hg : Whole k i g) {linked lone : List NodeId}
include hg

lemma Whole.connected_of {h : Graph} (hids : h.ids = g.ids)
 (hedg : ∀ u v, g.hasEdge u v → h.hasEdge u v)
 (hlab : Labelled h) : Whole k i h where
 labelled := hlab
 connected := hg.connected.mono (fun n => by rw [hids]) hedg
 size := by rw [size_eq_length,hids,← size_eq_length,hg.size]
 below := by
  rw [hids]
  exact hg.below

lemma Whole.mark (n : NodeId) : Whole k i (mark n g) :=
 hg.connected_of (ids_setNodeAttr g n _ _) (fun _ _ h => h) (hg.labelled.setNodeAttr n _ _)

lemma Whole.relabel (n : NodeId) (l : Value) : Whole k i (relabel n l g) :=
 Whole.mark (hg.connected_of (ids_setNodeAttr g n _ _) (fun _ _ h => h)
  (hg.labelled.setNodeAttr n _ _)) n

lemma Whole.link (hu : u ∈ g.ids) (hv : v ∈ g.ids) (l : Value) : Whole k i (link u v l g) := by
 refine hg.connected_of (ids_addEdge hu hv _) (fun a b hab => ?_) (hg.labelled.addEdge hu hv l)
 rw [hasEdge_link hg.labelled.single,hab,Bool.true_or]

lemma Whole.withoutEdge (hc : (g.relisted.removeEdge u v).isConnected true = .ok true) :
 Whole k i (g.relisted.removeEdge u v) where
 labelled := hg.labelled.of_within (within_removeEdge hg.labelled.sound hg.labelled.single u v)
 connected := (within_removeEdge hg.labelled.sound hg.labelled.single u v).sound.isConnected_iff.1 hc
 size := hg.size
 below := hg.below

omit hg

lemma Whole.withoutNode (hg : Whole (k + 1) i g) {n : NodeId} (hn : n ∈ g.ids)
 (hc : (g.relisted.removeNode n).isConnected true = .ok true) :
  Whole k i (g.relisted.removeNode n) where
 labelled := hg.labelled.of_within (within_removeNode hg.labelled.sound hg.labelled.single n)
 connected := (within_removeNode hg.labelled.sound hg.labelled.single n).sound.isConnected_iff.1 hc
 size := by
  have := size_removeNode hg.labelled.sound hg.labelled.single hn
  have := hg.size
  omega
 below j hj := hg.below j (mem_ids_removeNode.1 hj).1

structure Joinable (k : Nat) (i : Int) (g : Graph) : Prop extends Sized k i g where
 edge : ∃ u v, g.hasEdge u v = true
 links : ∀ u v u' v', g.hasEdge u v = true → g.hasEdge u' v' = true → ReflTransGen g.Meets v v'

lemma Whole.joinable (hg : Whole k i g) (hk : 2 ≤ k) : Joinable k i g where
 toSized := hg.toSized
 edge := by
  obtain ⟨u,us,hus⟩ := exists_cons_of_ne_nil hg.connected.ids
  obtain ⟨v,hv⟩ := hg.connected.exists_meets (hus ▸ mem_cons_self)
   (by rw [hg.size]; exact hk) hg.labelled.sound.ids
  exact hv.elim (fun h => ⟨u,v,h⟩) fun h => ⟨v,u,h⟩
 links u v u' v' h h' :=
  hg.connected.links v (hg.labelled.sound.of_hasEdge h).2 v' (hg.labelled.sound.of_hasEdge h').2

lemma Joinable.addAll (hg : Joinable k i g) (ls : List Int) :
 Joinable (k + ls.length) (i + ls.length) (addAll (newNodes i ls) g) where
 labelled := hg.labelled.addAll i ls
 size := by rw [size_addAll hg.labelled.sound.ids hg.below,hg.size]
 below _ := below_addAll hg.labelled.sound.ids hg.below ls
 edge := by simpa only [hasEdge_addAll] using hg.edge
 links := by simpa only [hasEdge_addAll,meets_addAll] using hg.links

structure Hanging (k : Nat) (i : Int) (linked lone : List NodeId) (g : Graph) : Prop extends
 Sized k i g, g.Gathers linked lone where
 some : linked ≠ []

lemma Joinable.hanging (hg : Joinable k i g) :
 Hanging k i (distinct (g.ids.flatMap g.neighbors))
  (g.ids.filter fun n => !(distinct (g.ids.flatMap g.neighbors)).contains n) g := by
 refine ⟨hg.toSized,gathers_start hg.labelled.sound hg.links,?_⟩
 obtain ⟨u,v,huv⟩ := hg.edge
 exact ne_nil_of_mem (mem_distinct.2 (mem_flatMap.2 ⟨u,(hg.labelled.sound.of_hasEdge huv).1,
  mem_neighbors_iff.2 huv⟩))

lemma Hanging.join (hg : Hanging k i linked lone g) {new old : NodeId} (hnew : new ∈ lone)
 (hold : old ∈ linked) (l : Value) :
  Hanging k i (linked ++ [new]) (lone.erase new) (mark old (link old new l g)) := by
 have hold' := hg.known old (.inl hold)
 have hnew' := hg.known new (.inr hnew)
 have hids := ids_linkMark hold' hnew' old l
 exact {
   labelled := (hg.labelled.addEdge hold' hnew' l).setNodeAttr old _ _
   size := by rw [size_eq_length,hids,← size_eq_length,hg.size]
   below := by
     rw [hids]
     exact hg.below
   toGathers := hg.toGathers.join hg.labelled.single hnew hold l
   some := by simp }

lemma Hanging.whole (hg : Hanging k i linked lone g)
 (h : g.isConnected true = .ok true ∨ lone = []) : Whole k i g where
 toSized := hg.toSized
 connected := by
  rcases h with h | rfl
  · exact hg.labelled.sound.isConnected_iff.1 h
  · obtain ⟨n,hn⟩ := exists_mem_of_ne_nil linked hg.some
    exact hg.toGathers.connected (ne_nil_of_mem (hg.known n (.inl hn)))

variable {patience : Nat} {labels least most : Int} (hk : 2 ≤ k) (hpat : ∀ d, F .outOfPatience d)
include hk hpat

lemma Hanging.turns_joinLoneNodes (hlab : 1 ≤ labels) (fuel : Nat)
 (hd : Hanging k i linked lone d.work) :
 Turns (joinLoneNodes patience labels fuel linked lone) d (fun _ d => Whole k i d.work) F := by
 refine Sampling.turns_joinLoneNodes (J := fun linked lone d => Hanging k i linked lone d.work)
  (fun _ _ _ h => h.whole)
  (fun _ _ _ _ _ h => absurd rfl h.some)
   (fun _ _ _ _ _ l h hnew hold => h.join hnew hold (.int l)) ?_ fuel hd
 rintro linked lone d e hd (rfl | he | he)
 · exact hpat d
 · omega
 · have hsiz := hd.size
   rw [size_eq_length,he,length_nil] at hsiz
   omega

lemma Whole.turns_joinPairs (hd : Whole k i d.work) (hlab : 1 ≤ labels) (target : Int) (fuel : Nat) :
 Turns (joinPairs patience labels target fuel) d (fun _ d => Whole k i d.work) F := by
 refine Sampling.turns_joinPairs (I := fun d => Whole k i d.work)
  (fun d u v l hd hu hv => ?_) ?_ target fuel hd
 · exact ((hd.link hu hv _).mark u).mark v
 · rintro d e hd (rfl | he | he)
   · exact hpat d
   · omega
   · have hsiz := hd.size
     rw [size_eq_length] at hsiz
     omega

lemma Joinable.turns_addEdges (hd : Joinable k i d.work) (hlab : 1 ≤ labels) (hbou : least ≤ most) :
 Turns (addEdges patience labels least most) d (fun _ d => Whole k i d.work) F := by
 have hsiz := hd.size
 refine Turns.bind (turns_graph ?_)
 rw [if_neg (by omega)]
 refine Turns.bind ((hd.hanging.turns_joinLoneNodes hk hpat hlab _).imp (fun _ d hd => ?_)
  fun _ _ h => h)
 exact Turns.bind (turns_draw (Draw.brings_drawInt least (most + 1))
  (fun _ _ => hd.turns_joinPairs hk hpat hlab _ _)
  fun _ h => by omega)

lemma Whole.turns_addNodes {nodeLabels count : Int} (hd : Whole k i d.work) (hn : k ≤ n)
 (hcou : count = n)
 (hnod : 1 ≤ nodeLabels) (hlab : 1 ≤ labels) (hbou : least ≤ most) :
 Turns (addNodes patience count i nodeLabels labels least most) d
  (fun i d => Whole n i d.work) F := by
 have hsiz := hd.size
 have hmis : k + (count - d.work.size).toNat = n := by omega
 refine Turns.bind (turns_graph (Turns.bind (turns_drawNodes _ i (fun ls hls => ?_)
  fun _ h => by omega)))
 refine Turns.bind (turns_edit
  (Turns.bind ((Joinable.turns_addEdges (by omega) hpat ((hd.joinable hk).addAll ls) hlab
  hbou).imp (fun _ d hd => turns_pure ?_) fun _ _ h => h)))
 rwa [hls,hmis] at hd

lemma Whole.turns_removeNode (hd : Whole (k + 1) i d.work) :
 Turns (removeNode patience) d (fun _ d => Whole k i d.work) F := by
 refine Sampling.turns_removeNode (fun n hn hc => hd.withoutNode hn hc) ?_
 rintro e (rfl | ⟨n,hn⟩)
 · exact hpat d
 · have hsub : d.work.ids ⊆ [n] := fun m hm => mem_singleton.2 (hn m hm)
   have hle := (subperm_of_subset hd.labelled.sound.ids hsub).length_le
   have hsiz := hd.size
   rw [size_eq_length] at hsiz
   rw [length_singleton] at hle
   omega

lemma Whole.turns_removeNodesBy (n : Nat) (hd : Whole (k + n) i d.work) :
 Turns (removeNodesBy patience n) d (fun _ d => Whole k i d.work) F := by
 induction n generalizing d with
 | zero => exact turns_pure hd
 | succ n ih =>
  exact Turns.bind ((Whole.turns_removeNode (k := k + n) (by omega) hpat hd).imp
   (fun _ _ hd => ih hd) fun _ _ h => h)

lemma Whole.turns_removeEdge (hd : Whole k i d.work) :
 Turns (removeEdge patience) d (fun _ d => Whole k i d.work) F := by
 refine Sampling.turns_removeEdge (fun e _ hc => hd.withoutEdge hc) ?_
 rintro e (rfl | he)
 · exact hpat d
 · exact absurd he (hd.connected.edgeList_ne_nil hd.labelled.sound (hd.size ▸ hk))

omit hk in
lemma Whole.turns_changeLabel (hd : Whole k i d.work) (hlab : 1 ≤ labels) :
 Turns (changeLabel patience labels) d (fun _ d => Whole k i d.work) F := by
 refine Sampling.turns_changeLabel (fun n _ l => hd.relabel n _) ?_
 rintro e (rfl | he | he | ⟨n,hn,he⟩)
 · exact hpat d
 · omega
 · exact absurd he hd.connected.ids
 · obtain ⟨l,hl⟩ := hd.labelled.nodes n hn
   cases hl.symm.trans he

lemma upkeep_whole {nodeLabels : Int} (hnod : 1 ≤ nodeLabels) (hlab : 1 ≤ labels)
 (hbou : least ≤ most) :
 Upkeep patience nodeLabels labels least most (fun i d => Whole k i d.work)
  (fun i d => Whole (k + 1) i d.work) F where
 changeLabel _ _ hd := hd.turns_changeLabel hpat hnod
 addEdge _ _ _ hd := (hd.joinable hk).turns_addEdges hk hpat hlab (le_refl _)
 removeEdge _ _ hd := hd.turns_removeEdge hk hpat
 addNode i d hd := hd.turns_addNodes hk hpat (le_succ k) (by rw [hd.size]; rfl) hnod hlab hbou
 removeNode i d hd := by
  refine Turns.bind (turns_graph ?_)
  -- One node was added before, and one is taken out for it.
  rw [show ((d.work.size : Int) - (d.work.size - 1)).toNat = 1 by omega]
  exact Whole.turns_removeNodesBy hk hpat 1 hd

lemma Whole.turns_resize {count : Int} {labels : LabelCounts} {bounds : EdgeBounds}
 (hd : Whole n i d.work) (hn : 2 ≤ n)
 (hcou : count = k) (hnod : 1 ≤ labels.nodes) (hedg : 1 ≤ labels.edges)
 (hbou : bounds.least ≤ bounds.most) :
 Turns (resize patience count i labels bounds) d (fun i d => Whole k i d.work) F := by
 have hsiz := hd.size
 refine Turns.bind (turns_graph ?_)
 dsimp only
 split
 · next hlar =>
   have hmore : n = k + (d.work.size - count).toNat := by omega
   rw [hmore] at hd
   exact Turns.bind (Turns.bind (turns_graph
    ((Whole.turns_removeNodesBy hk hpat _ hd).imp (fun _ _ hd => turns_pure hd)
    fun _ _ h => h)))
 · split
   · exact hd.turns_addNodes hn hpat (by omega) hcou hnod hedg hbou
   · obtain rfl : n = k := by omega
     exact turns_pure hd

end

variable {labels : LabelCounts}

lemma Drawn.whole {part : Graph} (hpart : Drawn g none part) (hg : Labelled g)
 (hbel : ∀ j : Int, .num j ∈ g.ids → j < g.size) :
 Whole part.size g.size (unmarkAll part) := by
 have hwit := (hpart.within hg.sound hg.single).1
 have hids := ids_unmarkAll part
 exact {
   labelled := (hg.of_within hwit).putEach fun _ => .bool false
   connected := (hwit.sound.isConnected_iff.1 hpart.connected).mono (fun n => by rw [hids])
    fun _ _ h => h
   size := by rw [size_eq_length,hids,← size_eq_length]
   below := by
     intro j hj
     rw [hids] at hj
     exact hbel j (hwit.ids hj) }

structure Completed (count : Int) (h : Graph) : Prop where
 connected : h.Connected
 size : (h.size : Int) = count
 edges : ∀ e ∈ h.edges, ∃ l, e.attrs.get? "label" = some l

lemma Whole.completed {i : Int} (hh : Whole count.toNat i h) (hcou : 0 ≤ count) :
 Completed count h where
 connected := hh.connected
 size := by rw [hh.size]; omega
 edges := hh.labelled.edges

theorem estranged_whole (patience : Nat) (hg : Labelled g)
 (hids : ∀ n ∈ g.ids, ∃ k < g.size, n = .num (Int.ofNat k))
 (hcou : 2 ≤ count) (hsiz : count ≤ g.size) (hspr : 0.0 ≤ spread) (hnode : 1 ≤ labels.nodes)
 (hedge : 1 ≤ labels.edges)
 (st : Streams) :
 (∀ q, ((nonIsoQuery g induced count mean spread labels).run.run st).1 = .ok (some q) →
  Completed count q) ∧
  ∀ r d st', Edit.on (estrange patience induced count mean spread labels) g st = (r,d,st') →
   (∀ found, r = .ok found → Completed count d.work) ∧
    ∀ e, r = .error e → e = .outOfPatience ∨ cappedBounds count mean spread = .error e ∧
     d = .start g := by
 have hturn : ∀ patience, Turns (estrange patience induced count mean spread labels) (.start g)
  (fun _ d => ∃ i, Whole count.toNat i d.work)
  fun e d => e = .outOfPatience ∨ cappedBounds count mean spread = .error e ∧ d = .start g := by
  intro patience
  refine (turns_estrange (fun bounds hbou => ⟨upkeep_whole (by omega)
   (fun _ => .inl rfl) hnode hedge (least_le_most (by omega) hspr hbou),fun part hpart => ?_⟩) ?_).imp
   (fun _ _ h => h.1) fun _ _ h => h
  · exact (hpart.whole hg fun _ => lt_size_of_num_mem hids).turns_resize (by omega)
     (fun _ => .inl rfl) hpart.size (by omega)
     hnode hedge (least_le_most (by omega) hspr hbou)
  · rintro e (he | he | he)
    · exact .inl he
    · omega
    · exact .inr ⟨he,rfl⟩
 constructor
 · intro q hq
   exact gives_estranged (hturn Draw.patience)
    (fun _ ⟨_,hd⟩ => hd.completed (by omega)) st _ _ trivial (Prod.ext hq rfl) q rfl
 · intro r d st' hrun
   have hout := (hturn patience).on st
   rw [hrun] at hout
   cases r with
   | ok found =>
    obtain ⟨i,hd⟩ := hout
    exact ⟨fun _ _ => hd.completed (by omega),fun _ he => by cases he⟩
   | error e => exact ⟨fun _ h => (by cases h),fun _ he => Except.error.inj he ▸ hout⟩

theorem triangle_estranged : ∃ d st', Edit.on (estrange 100 false 3 2.0 1.0 ⟨2,1⟩) triangle
 ⟨.seed 0,.seed 0⟩ = (.ok true,d,st') ∧
 Completed 3 d.work := by
 obtain ⟨d,st',hrun⟩ := triangle_foreign
 exact ⟨d,st',hrun,((estranged_whole 100 triangle_labelled (by decide) (by decide) (by decide)
  (by decide +kernel) (by decide)
  (by decide) _).2 _ _ _ hrun).1 true rfl⟩

end Sampling

def Edge.ends (e : Edge) : Sym2 NodeId := s(e.source,e.target)

namespace Graph
variable {g h : Graph} {u v a b : NodeId} {e : Edge}

lemma joins_iff_ends (hd : g.directed = false) : g.joins u v e ↔ e.ends = s(u,v) := by
 simp [joins_iff,hd,Edge.ends]

lemma hasEdge_iff_ends (hd : g.directed = false) :
 g.hasEdge u v ↔ s(u,v) ∈ g.edges.map Edge.ends := by
 simp only [hasEdge_iff,joins_iff_ends hd,mem_map]

lemma Sound.nodup_ends (hg : g.Sound) (hm : g.multi = false) (hd : g.directed = false) :
 (g.edges.map Edge.ends).Nodup :=
 pairwise_map.2 ((hg.single hm).imp fun {e f} h heq => by
  rw [(joins_iff_ends hd).2 heq.symm] at h
  cases h)

lemma length_edgeList (hg : g.Sound) (hm : g.multi = false) (hd : g.directed = false) :
 g.edgeList.length = g.edges.length := by
 have hper : (g.relisted.edges.map Edge.ends).Perm (g.edges.map Edge.ends) := by
  refine (perm_ext_iff_of_nodup ((hg.relisted).nodup_ends hm hd) (hg.nodup_ends hm hd)).2 fun p => ?_
  induction p with
  | h u v =>
   rw [← hasEdge_iff_ends hd,← hasEdge_iff_ends (g := g.relisted) hd,hasEdge_relisted hg]
 simpa [relisted] using hper.length_eq

lemma hasEdge_removeEdge (hd : g.directed = false) :
 (g.removeEdge u v).hasEdge a b ↔ g.hasEdge a b ∧ s(a,b) ≠ s(u,v) := by
 rw [hasEdge_iff_ends hd,hasEdge_iff_ends (g := g.removeEdge u v) hd]
 simp only [removeEdge,mem_map,mem_filter,not_eq_true',← not_eq_true,joins_iff_ends hd]
 constructor
 · rintro ⟨e,⟨he,hne⟩,heq⟩
   exact ⟨⟨e,he,heq⟩,heq ▸ hne⟩
 · rintro ⟨⟨e,he,heq⟩,hne⟩
   exact ⟨e,⟨he,heq ▸ hne⟩,heq⟩

lemma length_removeEdge (hg : g.Sound) (hm : g.multi = false) (h : g.hasEdge u v) :
 (g.removeEdge u v).edges.length + 1 = g.edges.length := by
 have hone := linkCount_single hg hm u v
 rw [h,if_pos rfl,linkCount] at hone
 rw [removeEdge,← countP_eq_length_filter,length_eq_countP_add_countP (g.joins u v),hone,add_comm]
 simp

lemma card_nodes (hg : g.ids.Nodup) : Nat.card {n // n ∈ g.ids} = g.size := by
 rw [card_eq_fintype_card,Fintype.card_of_subtype g.ids.toFinset fun n => mem_toFinset,
  toFinset_card_of_nodup hg,size_eq_length]

lemma Connected.skeleton (hc : g.Connected) (hg : g.Sound) : g.skeleton.Connected := by
 have hrea : ∀ u hu v, ReflTransGen g.Meets u v →
  ∃ hv, g.skeleton.Reachable ⟨u,hu⟩ ⟨v,hv⟩ := by
  intro u hu v huv
  induction huv with
  | refl => exact ⟨hu,.rfl⟩
  | @tail v w _ hvw ih =>
   obtain ⟨hv,hrea⟩ := ih
   have hw : w ∈ g.ids := hvw.elim (fun h => (hg.of_hasEdge h).2) fun h => (hg.of_hasEdge h).1
   refine ⟨hw,?_⟩
   by_cases heq : v = w
   · subst heq
     exact hrea
   · have hadj : g.skeleton.Adj ⟨v,hv⟩ ⟨w,hw⟩ := ⟨fun h => heq (Subtype.ext_iff.1 h),hvw⟩
     exact hrea.trans hadj.reachable
 obtain ⟨n,ns,hns⟩ := exists_cons_of_ne_nil hc.ids
 have : Nonempty {n // n ∈ g.ids} := ⟨n,hns ▸ mem_cons_self⟩
 exact ⟨fun u v => (hrea u u.2 v (hc.links u u.2 v v.2)).2⟩

lemma connected_of_laid {V : Type} {G : SimpleGraph V} (hG : G.Connected) (f : V → NodeId)
 (hadj : ∀ x y, G.Adj x y → h.Meets (f x) (f y)) (hids : ∀ n, n ∈ h.ids ↔ ∃ x, f x = n) :
  h.Connected where
 ids := by
  obtain ⟨x⟩ := hG.nonempty
  exact ne_nil_of_mem ((hids (f x)).2 ⟨x,rfl⟩)
 links u hu v hv := by
  obtain ⟨x,rfl⟩ := (hids u).1 hu
  obtain ⟨y,rfl⟩ := (hids v).1 hv
  exact ((SimpleGraph.reachable_iff_reflTransGen x y).1 (hG.preconnected x y)).lift f hadj

lemma length_edges_le (hg : g.Sound) (hm : g.multi = false) (hd : g.directed = false)
 (hloop : ∀ n, g.hasEdge n n = false) : g.edges.length ≤ Nat.card g.skeleton.edgeSet := by
 have hlaid : ∀ p ∈ g.edges.map Edge.ends, p ∈ (Sym2.map val) '' g.skeleton.edgeSet := by
  intro p hp
  induction p with
  | h u v =>
   have huv := (hasEdge_iff_ends hd).2 hp
   obtain ⟨hu,hv⟩ := hg.of_hasEdge huv
   refine ⟨s(⟨u,hu⟩,⟨v,hv⟩),⟨fun heq => ?_,.inl huv⟩,rfl⟩
   have heq : u = v := Subtype.ext_iff.1 heq
   rw [heq,hloop] at huv
   cases huv
 calc g.edges.length = (g.edges.map Edge.ends).toFinset.card := by
       rw [toFinset_card_of_nodup (hg.nodup_ends hm hd),length_map]
   _ = ((g.edges.map Edge.ends).toFinset : Set (Sym2 NodeId)).ncard := (Set.ncard_coe_finset _).symm
   _ ≤ (Sym2.map val '' g.skeleton.edgeSet).ncard :=
       Set.ncard_le_ncard (fun p hp => hlaid p (by simpa using hp)) (Set.toFinite _)
   _ = g.skeleton.edgeSet.ncard := Set.ncard_image_of_injective _ (Sym2.map.injective val_injective)
   _ = Nat.card g.skeleton.edgeSet := rfl

lemma Connected.exists_spare_edge (hc : g.Connected) (hg : g.Sound) (hm : g.multi = false)
 (hd : g.directed = false)
 (hsiz : g.size ≤ g.edges.length) :
  ∃ e ∈ g.edgeList, (g.relisted.removeEdge e.source e.target).Connected := by
 obtain ⟨u,v,huv,hcon⟩ : ∃ u v, g.hasEdge u v ∧ (g.relisted.removeEdge u v).Connected := by
  have hkept : ∀ u v a b, g.hasEdge a b → s(a,b) ≠ s(u,v) →
   (g.relisted.removeEdge u v).hasEdge a b :=
   fun u v a b hab hne => (hasEdge_removeEdge (g :=
    g.relisted) hd).2 ⟨by rwa [hasEdge_relisted hg],hne⟩
  by_cases hloop : ∃ n, g.hasEdge n n
  · obtain ⟨n,hn⟩ := hloop
    refine ⟨n,n,hn,connected_of_laid (hc.skeleton hg) val (fun x y hxy => ?_) fun m => ?_⟩
    · have hne : s(x.1,y.1) ≠ s(n,n) := by
       intro heq
       obtain ⟨hx,hy⟩ : x.1 = n ∧ y.1 = n := by simpa using heq
       exact hxy.1 (Subtype.ext (hx.trans hy.symm))
      exact hxy.2.imp (hkept n n _ _ · hne) (hkept n n _ _ · (Sym2.eq_swap ▸ hne))
    · exact ⟨fun hm => ⟨⟨m,hm⟩,rfl⟩,fun ⟨x,hx⟩ => hx ▸ x.2⟩
  · push Not at hloop
    have hske := hc.skeleton hg
    -- As many edges as nodes are too many for a tree, so that some edge is no bridge.
    have hcyc : ¬g.skeleton.IsAcyclic := fun hacy => by
     have hcard := (SimpleGraph.isTree_iff_connected_and_card.1 ⟨hske,hacy⟩).2
     have hle := length_edges_le hg hm hd fun n => not_eq_true _ ▸ hloop n
     rw [card_nodes hg.ids] at hcard
     omega
    rw [SimpleGraph.isAcyclic_iff_forall_adj_isBridge] at hcyc
    push Not at hcyc
    obtain ⟨x,y,hxy,hbri⟩ := hcyc
    have hjoi : g.hasEdge x y := hxy.2.elim id fun h => by rwa [hasEdge_comm hd]
    refine ⟨x,y,hjoi,connected_of_laid (hske.connected_delete_edge_of_not_isBridge hbri) val
     (fun a b hab => ?_) fun m => ⟨fun hm => ⟨⟨m,hm⟩,rfl⟩,fun ⟨x,hx⟩ => hx ▸ x.2⟩⟩
    obtain ⟨hadj,hnot⟩ := SimpleGraph.deleteEdges_adj.1 hab
    have hne : s(a.1,b.1) ≠ s(x.1,y.1) := fun heq => hnot (Sym2.map.injective val_injective heq)
    exact hadj.2.imp (hkept _ _ _ _ · hne) (hkept _ _ _ _ · (Sym2.eq_swap ▸ hne))
 rw [← hasEdge_relisted hg,hasEdge_iff_ends (g := g.relisted) hd] at huv
 obtain ⟨e,he,hends⟩ := mem_map.1 huv
 refine ⟨e,he,?_⟩
 rcases Sym2.eq_iff.1 hends with ⟨rfl,rfl⟩ | ⟨rfl,rfl⟩
 · exact hcon
 · refine hcon.mono (fun _ => Iff.rfl) fun a b hab => ?_
   rw [hasEdge_removeEdge (g := g.relisted) hd,Sym2.eq_swap (a := e.source)]
   exact (hasEdge_removeEdge (g := g.relisted) hd).1 hab

lemma Connected.exists_spare_node (hc : g.Connected) (hg : g.Sound) (hsiz : 2 ≤ g.size) :
 ∃ n ∈ g.ids, (g.relisted.removeNode n).Connected := by
 have : Nontrivial {n // n ∈ g.ids} :=
  Finite.one_lt_card_iff_nontrivial.1 (by rw [card_nodes hg.ids]; omega)
 obtain ⟨n,hn⟩ := (hc.skeleton hg).exists_connected_induce_compl_singleton_of_finite_nontrivial
 refine ⟨n,n.2,connected_of_laid hn (fun x => x.1.1) (fun x y hxy => ?_) fun m => ?_⟩
 · have hkept : ∀ a b, a ≠ n.1 → b ≠ n.1 → g.hasEdge a b → (g.relisted.removeNode n).hasEdge a b := by
    intro a b ha hb hab
    rw [removeNode_eq_induced,hasEdge_induced (by simpa using ha) (by simpa using hb),
     hasEdge_relisted hg]
    exact hab
   have hx : x.1.1 ≠ n.1 := fun heq => x.2 (Subtype.ext heq)
   have hy : y.1.1 ≠ n.1 := fun heq => y.2 (Subtype.ext heq)
   exact hxy.2.imp (hkept _ _ hx hy) (hkept _ _ hy hx)
 · rw [mem_ids_removeNode]
   constructor
   · rintro ⟨hm,hne⟩
     exact ⟨⟨⟨m,hm⟩,fun heq => hne (Subtype.ext_iff.1 heq)⟩,rfl⟩
   · rintro ⟨x,rfl⟩
     exact ⟨x.1.2,fun heq => x.2 (Subtype.ext heq)⟩

lemma exists_unjoined (hg : g.ids.Nodup) (hfew : 2 * g.edges.length < g.size * (g.size - 1)) :
 ∃ u ∈ g.ids, ∃ v ∈ g.ids, u ≠ v ∧ g.hasEdge u v = false := by
 by_contra hnone
 push Not at hnone
 have hcov : g.ids.toFinset.offDiag ⊆ (g.edges.flatMap fun e =>
  [(e.source,e.target),(e.target,e.source)]).toFinset := by
  rintro ⟨u,v⟩ huv
  simp only [Finset.mem_offDiag,mem_toFinset] at huv
  obtain ⟨e,he,hj⟩ := hasEdge_iff.1 (ne_false_iff.1 (hnone u huv.1 v huv.2.1 huv.2.2))
  refine mem_toFinset.2 (mem_flatMap.2 ⟨e,he,?_⟩)
  rcases joins_iff.1 hj with ⟨rfl,rfl⟩ | ⟨_,rfl,rfl⟩ <;> simp
 have hle := (Finset.card_le_card hcov).trans (toFinset_card_le _)
 rw [Finset.offDiag_card,toFinset_card_of_nodup hg,← size_eq_length] at hle
 simp only [length_flatMap,length_cons,length_nil,map_const',sum_replicate,smul_eq_mul] at hle
 rw [mul_sub_one] at hfew
 omega

end Graph
end MotifMatch
