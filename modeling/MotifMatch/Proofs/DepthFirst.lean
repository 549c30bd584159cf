import MotifMatch.Proofs.Tries

namespace MotifMatch.Graph
open List Nat Prod MotifMatch.Normal
variable {ns : List NodeId}
variable {g : Graph}

lemma sum_indicator_le (hns : ns.Nodup) (a : NodeId) :
 (ns.map fun v => if v = a then 1 else 0).sum ≤ 1 := by
 induction ns with
 | nil => simp
 | cons n ns ih =>
  rw [nodup_cons] at hns
  rw [map_cons,sum_cons]
  by_cases hn : n = a
  · have hzero : (ns.map fun v => if v = a then 1 else 0) = ns.map fun _ => 0 := by
     refine map_congr_left fun v hv => if_neg ?_
     rintro rfl
     exact hns.1 (hn ▸ hv)
    rw [hzero,if_pos hn]
    simp
  · rw [if_neg hn,zero_add]
    exact ih hns.2

lemma farEnd_count_le (e : Edge) (v : NodeId) :
 ([e].filterMap (g.farEnd? v)).length ≤ (if v = e.source then 1 else 0) + if v =
  e.target then 1 else 0 := by
 cases h : g.farEnd? v e with
 | none => simp [h]
 | some x =>
  rw [farEnd?_eq_some_iff] at h
  rcases joins_iff.1 h with ⟨rfl,_⟩ | ⟨_,_,rfl⟩
  · simp [filterMap_cons]
    split <;> simp
  · simp [filterMap_cons]
    split <;> simp

lemma sum_degrees_le (hns : ns.Nodup) (es : List Edge) :
 (ns.map fun v => (es.filterMap (g.farEnd? v)).length).sum ≤ 2 * es.length := by
 induction es with
 | nil => simp
 | cons e es ih =>
  have hspl : (ns.map fun v => ((e :: es).filterMap (g.farEnd? v)).length).sum =
   (ns.map fun v => ([e].filterMap (g.farEnd? v)).length).sum +
    (ns.map fun v => (es.filterMap (g.farEnd? v)).length).sum := by
   rw [← sum_map_add]
   refine congrArg sum (map_congr_left fun v _ => ?_)
   rw [← length_append,← filterMap_append,singleton_append]
  have hone : (ns.map fun v => ([e].filterMap (g.farEnd? v)).length).sum ≤ 2 := by
   calc (ns.map fun v => ([e].filterMap (g.farEnd? v)).length).sum
       ≤ (ns.map fun v => (if v = e.source then 1 else 0) + if v = e.target then 1 else 0).sum :=
         sum_le_sum fun v _ => farEnd_count_le e v
     _ = (ns.map fun v => if v = e.source then 1 else 0).sum +
         (ns.map fun v => if v = e.target then 1 else 0).sum := sum_map_add
     _ ≤ 1 + 1 := Nat.add_le_add (sum_indicator_le hns _) (sum_indicator_le hns _)
  rw [hspl,length_cons]
  omega

variable {next : NodeId → List NodeId} {child : NodeId → NodeId → Prop}

def effort (next : NodeId → List NodeId) (ns seen : List NodeId)
 (stack : List (NodeId × List NodeId)) : Nat :=
 (stack.map fun f => f.2.length + 1).sum +
  ((ns.filter fun v => !seen.contains v).map fun v => (next v).length + 1).sum

lemma unseen_sum (seen : List NodeId) (hns : ns.Nodup) {v : NodeId} (hv : v ∈ ns) (hseen : v ∉ seen)
 (cost : NodeId → Nat) : ((ns.filter fun x => !(v :: seen).contains x).map cost).sum + cost v =
  ((ns.filter fun x => !seen.contains x).map cost).sum := by
 induction ns with
 | nil => simp at hv
 | cons n ns ih =>
  rw [nodup_cons] at hns
  by_cases hnv : n = v
  · subst hnv
    have hsame : (ns.filter fun x => !(n :: seen).contains x) = ns.filter fun x =>
     !seen.contains x := by
     refine filter_congr fun x hx => ?_
     have hxn : x ≠ n := fun h => hns.1 (h ▸ hx)
     simp [hxn]
    rw [filter_cons_of_neg (by simp),filter_cons_of_pos (by simpa using hseen),hsame,map_cons,
     sum_cons,add_comm]
  · have hv' : v ∈ ns := (mem_cons.1 hv).resolve_left (Ne.symm hnv)
    have hres := ih hns.2 hv'
    by_cases hn : n ∈ seen
    · rw [filter_cons_of_neg (by simp [hn]),filter_cons_of_neg (by simp [hn]),hres]
    · rw [filter_cons_of_pos (by simp [hn,hnv]),filter_cons_of_pos (by simp [hn]),map_cons,
       map_cons,sum_cons,sum_cons,add_assoc,hres]

structure Searching (next : NodeId → List NodeId) (seen : List NodeId)
 (stack : List (NodeId × List NodeId)) : Prop where
 frames : ∀ f ∈ stack, f.1 ∈ seen ∧ ∀ v ∈ f.2, v ∈ next f.1
 pending : ∀ u ∈ seen, ∀ v ∈ next u, v ∈ seen ∨ ∃ f ∈ stack, f.1 = u ∧ v ∈ f.2

variable {seen vs : List NodeId} {stack : List (NodeId × List NodeId)}
 {tree : List (NodeId × NodeId)} {u v : NodeId}

lemma Searching.pop (h : Searching next seen ((u,[]) :: stack)) : Searching next seen stack where
 frames := fun f hf => h.frames f (by simp [hf])
 pending := by
  intro x hx v hv
  rcases h.pending x hx v hv with hseen | ⟨f,hf,hfx,hvf⟩
  · exact .inl hseen
  · rcases mem_cons.1 hf with rfl | hf
    · simp at hvf
    · exact .inr ⟨f,hf,hfx,hvf⟩

section
variable (h : Searching next seen ((u,v :: vs) :: stack))
include h

lemma Searching.frames_rest : ∀ f ∈ (u,vs) :: stack, f.1 ∈ seen ∧ ∀ x ∈ f.2, x ∈ next f.1 := by
 intro f hf
 rcases mem_cons.1 hf with rfl | hf
 · obtain ⟨hu,hvs⟩ := h.frames (u,v :: vs) (by simp)
   exact ⟨hu,fun x hx => hvs x (by simp [hx])⟩
 · exact h.frames f (by simp [hf])

lemma Searching.pending_rest {x y : NodeId} (hx : x ∈ seen) (hy : y ∈ next x) :
 y = v ∨ y ∈ seen ∨ ∃ f ∈ (u,vs) :: stack, f.1 = x ∧ y ∈ f.2 := by
 rcases h.pending x hx y hy with hseen | ⟨f,hf,hfx,hyf⟩
 · exact .inr (.inl hseen)
 · rcases mem_cons.1 hf with rfl | hf
   · exact (mem_cons.1 hyf).imp_right fun hyf => .inr ⟨(u,vs),by simp,hfx,hyf⟩
   · exact .inr (.inr ⟨f,by simp [hf],hfx,hyf⟩)

lemma Searching.skip (hv : v ∈ seen) : Searching next seen ((u,vs) :: stack) where
 frames := h.frames_rest
 pending := fun _ hx _ hy => (h.pending_rest hx hy).elim (fun heq => .inl (heq ▸ hv)) id

lemma Searching.push : Searching next (v :: seen) ((v,next v) :: (u,vs) :: stack) where
 frames := forall_mem_cons.2 ⟨⟨by simp,fun _ hx => hx⟩,
  fun f hf => (h.frames_rest f hf).imp_left (mem_cons_of_mem v)⟩
 pending := by
  intro x hx y hy
  rcases mem_cons.1 hx with rfl | hx
  · exact .inr ⟨(x,next x),by simp,rfl,hy⟩
  · rcases h.pending_rest hx hy with rfl | hseen | ⟨f,hf,hyf⟩
    · exact .inl (by simp)
    · exact .inl (mem_cons_of_mem v hseen)
    · exact .inr ⟨f,mem_cons_of_mem _ hf,hyf⟩

end

def Grows : List NodeId → List (NodeId × NodeId) → Prop
 | _, [] => True
 | seen, e :: tree => e.1 ∈ seen ∧ e.2 ∉ seen ∧ Grows (e.2 :: seen) tree

lemma Searching.deepLoop (hns : ns.Nodup) (hmem : ∀ u v, v ∈ next u → v ∈ ns) :
 ∀ n seen stack, Searching next seen stack →
  effort next ns seen stack < n → ∃ tree, deepLoop next n seen stack = tree ∧ Grows seen tree ∧
   (∀ e ∈ tree, e.2 ∈ next e.1) ∧ ∀ u, u ∈ seen ∨ u ∈ tree.map snd → ∀ v ∈ next u, v ∈ seen ∨
    v ∈ tree.map snd := by
 intro n
 induction n with
 | zero => intro seen stack _ hn; omega
 | succ n ih =>
  intro seen stack h hn
  match stack with
  | [] =>
   refine ⟨[],by rw [Graph.deepLoop],trivial,by simp,fun u hu v hv => ?_⟩
   rcases h.pending u (by simpa using hu) v hv with hseen | ⟨f,hf,_⟩
   · exact .inl hseen
   · simp at hf
  | (u,[]) :: stack =>
   rw [Graph.deepLoop]
   exact ih seen stack h.pop (by simp [effort] at hn ⊢; omega)
  | (u,v :: vs) :: stack =>
   rw [Graph.deepLoop]
   by_cases hv : v ∈ seen
   · rw [if_pos (by simpa using hv)]
     exact ih seen _ (h.skip hv) (by simp [effort] at hn ⊢; omega)
   · rw [if_neg (by simpa using hv)]
     obtain ⟨hu,hvs⟩ := h.frames (u,v :: vs) (by simp)
     have hsum := unseen_sum seen hns (hmem u v (hvs v (by simp))) hv fun x => (next x).length + 1
     have heff : effort next ns (v :: seen) ((v,next v) :: (u,vs) :: stack) < n := by
      simp only [effort,map_cons,sum_cons,length_cons] at hn hsum ⊢
      omega
     obtain ⟨tree,htree,hgro,hedg,hclo⟩ := ih _ _ h.push heff
     refine ⟨(u,v) :: tree,by rw [htree],⟨hu,hv,hgro⟩,?_,fun x hx y hy => ?_⟩
     · exact forall_mem_cons.2 ⟨hvs v (by simp),hedg⟩
     · simp only [map_cons,mem_cons] at hx hclo ⊢
       have hx' : (x = v ∨ x ∈ seen) ∨ x ∈ tree.map snd := by
        rcases hx with hx | hx | hx
        · exact .inl (.inr hx)
        · exact .inl (.inl hx)
        · exact .inr hx
       rcases hclo x hx' y hy with (hy | hy) | hy
       · exact .inr (.inl hy)
       · exact .inl hy
       · exact .inr (.inr hy)

lemma Grows.downward (huniq : ∀ u u' v, child u v → child u' v → u = u') (h : Grows seen tree)
 (hup : ∀ v ∈ seen, ∀ u, child u v → u ∈ seen) (hedg : ∀ e ∈ tree, child e.1 e.2 ∨ child e.2 e.1) :
 ∀ e ∈ tree, child e.1 e.2 := by
 induction tree generalizing seen with
 | nil => simp
 | cons e tree ih =>
  obtain ⟨hold,hnew,hres⟩ := h
  obtain ⟨he,hedg⟩ := forall_mem_cons.1 hedg
  have hchi : child e.1 e.2 := he.resolve_right fun hc => hnew (hup e.1 hold e.2 hc)
  refine forall_mem_cons.2 ⟨hchi,ih hres (fun v hv u hc => ?_) hedg⟩
  rcases mem_cons.1 hv with rfl | hv
  · rw [huniq u e.1 _ hc hchi]
    exact mem_cons_of_mem _ hold
  · exact mem_cons_of_mem _ (hup v hv u hc)

lemma length_neighbors_le (g : Graph) (u : NodeId) :
 (g.neighbors u).length ≤ (g.edges.filterMap (g.farEnd? u)).length := by
 unfold neighbors
 dsimp only
 split
 · exact (subperm_of_subset (nodup_distinct _) fun _ h => mem_distinct.1 h).length_le
 · exact le_refl _

lemma effort_start (hids : g.ids.Nodup) {r : NodeId} (hr : r ∈ g.ids) :
 effort g.neighbors g.ids [r] [(r,g.neighbors r)] < 2 * g.edges.length + g.size + 1 := by
 have hsum := unseen_sum [] hids hr (by simp) fun x => (g.neighbors x).length + 1
 have hall : (g.ids.filter fun x => !([]).contains x) = g.ids := by simp
 have hcos : (g.ids.map fun x => (g.neighbors x).length + 1).sum =
  (g.ids.map fun x => (g.neighbors x).length).sum + g.size := by
  rw [sum_map_add,map_const',sum_replicate]
  simp [ids,Table.keys,size,Table.size]
 have hdeg :=
  (sum_le_sum fun u _ => length_neighbors_le g u).trans (sum_degrees_le hids g.edges)
 rw [hall,hcos] at hsum
 simp only [effort,map_cons,map_nil,sum_cons,sum_nil]
 omega

lemma deepTree_spec (hids : g.ids.Nodup) (hends : ∀ u v, g.hasEdge u v → u ∈ g.ids ∧ v ∈ g.ids)
 {r : NodeId} (hr : r ∈ g.ids) :
 ∃ tree, g.deepTree r = .ok tree ∧ Grows [r] tree ∧ (∀ e ∈ tree, g.hasEdge e.1 e.2) ∧
  ∀ v, Relation.ReflTransGen (fun u v => g.hasEdge u v) r v → v ∈ r :: tree.map snd := by
 have hmem : ∀ u v, v ∈ g.neighbors u → v ∈ g.ids :=
  fun u v hv => (hends u v (mem_neighbors_iff.1 hv)).2
 have hsta : Searching g.neighbors [r] [(r,g.neighbors r)] := ⟨by simp,fun u hu v hv => by
  rw [mem_singleton.1 hu] at hv ⊢
  exact .inr ⟨(r,g.neighbors r),by simp,rfl,hv⟩⟩
 obtain ⟨tree,htree,hgro,hedg,hclo⟩ := hsta.deepLoop hids hmem _ _ _ (effort_start hids hr)
 refine ⟨tree,by rw [deepTree,if_pos (hasNode_iff.2 hr),htree],hgro,fun e he => mem_neighbors_iff.1 (hedg e he),?_⟩
 intro v hv
 induction hv with
 | refl => exact mem_cons_self
 | tail _ hste ih =>
  simp only [mem_cons,not_mem_nil,or_false] at ih hclo ⊢
  exact hclo _ ih _ (mem_neighbors_iff.2 hste)

variable {α : Type} {word : NodeId → List α}

def Child (g : Graph) (word : NodeId → List α) (u v : NodeId) : Prop :=
 u ∈ g.ids ∧ v ∈ g.ids ∧ Prolongs (word u) (word v)

lemma mem_neighbors_trie (hd : g.directed = false)
 (hends : ∀ u v, g.hasEdge u v → u ∈ g.ids ∧ v ∈ g.ids) (h : Trie g word) {u v : NodeId} :
 v ∈ g.neighbors u ↔ Child g word u v ∨ Child g word v u := by
 rw [mem_neighbors_iff]
 constructor
 · intro huv
   obtain ⟨hu,hv⟩ := hends u v huv
   rcases (h.joined u hu v hv).1 (.inl huv) with hpro | hpro
   · exact .inl ⟨hu,hv,hpro⟩
   · exact .inr ⟨hv,hu,hpro⟩
 · intro hc
   have huv : g.hasEdge u v ∨ g.hasEdge v u := by
    rcases hc with ⟨hu,hv,hpro⟩ | ⟨hv,hu,hpro⟩
    · exact (h.joined u hu v hv).2 (.inl hpro)
    · exact (h.joined u hu v hv).2 (.inr hpro)
   rwa [hasEdge_comm hd v u,or_self] at huv

lemma Child.not_root (h : Trie g word) {r u : NodeId} (hlen : (word r).length = 1) :
 ¬ Child g word u r := by
 rintro ⟨hu,_,hpro⟩
 have hlong := hpro.length
 have hpos := h.length_pos hu
 omega

lemma deepTree_trie (hd : g.directed = false) (hids : g.ids.Nodup)
 (hends : ∀ u v, g.hasEdge u v → u ∈ g.ids ∧ v ∈ g.ids) (h : Trie g word) {r : NodeId}
 (hr : r ∈ g.ids) (hlen : (word r).length = 1) :
 ∃ tree, g.deepTree r = .ok tree ∧ ∀ u v, (u,v) ∈ tree ↔ Child g word u v := by
 have huniq : ∀ u u' v, Child g word u v → Child g word u' v → u = u' := by
  rintro u u' v ⟨hu,_,hpro⟩ ⟨hu',_,hpro'⟩
  exact h.inj u hu u' hu' (hpro.dropLast.trans hpro'.dropLast.symm)
 have hnext : ∀ u v, g.hasEdge u v ↔ Child g word u v ∨ Child g word v u := fun u v => by
  rw [← mem_neighbors_iff,mem_neighbors_trie hd hends h]
 obtain ⟨tree,htree,hgro,hedg,hall⟩ := deepTree_spec hids hends hr
 have hdown := hgro.downward huniq (fun v hv u hc => absurd (mem_singleton.1 hv ▸ hc)
  (Child.not_root h hlen))
  fun e he => (hnext _ _).1 (hedg e he)
 -- every node is reached, by induction on the length of its word
 have hrea : ∀ k x, x ∈ g.ids → (word x).length = k + 1 →
  Relation.ReflTransGen (fun u v => g.hasEdge u v) r x := by
  intro k
  induction k with
  | zero =>
   intro x hx hk
   rw [h.eq_root hr hlen hx (by omega)]
  | succ k ih =>
   intro x hx hk
   obtain ⟨p,hp,hpro⟩ := h.parent x hx (by omega)
   have hplen := hpro.length
   exact .tail (ih p hp (by omega)) ((hnext p x).2 (.inl ⟨hp,hx,hpro⟩))
 refine ⟨tree,htree,fun u v => ⟨fun huv => hdown _ huv,fun hc => ?_⟩⟩
 have hpos := h.length_pos hc.2.1
 rcases mem_cons.1 (hall v (hrea ((word v).length - 1) v hc.2.1 (by omega))) with rfl | hv
 · exact absurd hc (Child.not_root h hlen)
 · obtain ⟨e,he,rfl⟩ := mem_map.1 hv
   rwa [huniq u e.1 e.2 hc (hdown e he)]

end MotifMatch.Graph
