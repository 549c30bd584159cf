import MotifMatch.Encoding.Sample
import MotifMatch.Proofs.Graphs
import MotifMatch.Proofs.Tensors

namespace MotifMatch
open List MotifMatch.Graph Scalar

class Scalar.Exact (α : Type) [Scalar α] : Prop where
 zero_add_one : (zero : α) + one = one
 zero_sub_zero : (zero : α) - zero = zero
 one_sub_zero : (one : α) - zero = one
 one_sub_one : (one : α) - one = zero
 eq_zero : eq (zero : α) zero = true
 eq_one : eq (one : α) one = true
 eq_zero_one : eq (zero : α) one = false
 eq_one_zero : eq (one : α) zero = false
 lt_zero_one : lt (zero : α) one = true

instance : Exact Float where
 zero_add_one := by decide +kernel
 zero_sub_zero := by decide +kernel
 one_sub_zero := by decide +kernel
 one_sub_one := by decide +kernel
 eq_zero := by decide +kernel
 eq_one := by decide +kernel
 eq_zero_one := by decide +kernel
 eq_one_zero := by decide +kernel
 lt_zero_one := by decide +kernel

instance : Exact ℝ where
 zero_add_one := by simp
 zero_sub_zero := by simp
 one_sub_zero := by simp
 one_sub_one := by simp
 eq_zero := by simp
 eq_one := by simp
 eq_zero_one := by simp
 eq_one_zero := by simp
 lt_zero_one := by simp

lemma Scalar.Exact.one_ne_zero {α : Type} [Scalar α] [Scalar.Exact α] :
 (Scalar.one : α) ≠ Scalar.zero := by
 intro h
 have hfal := Scalar.Exact.eq_one_zero (α := α)
 rw [h,Exact.eq_zero] at hfal
 cases hfal

namespace Graph

def linkCount (g : Graph) (u v : NodeId) : Nat := g.edges.countP (g.joins u v)

lemma linkCount_single {g : Graph} (hg : g.Sound) (hm : g.multi = false) (u v : NodeId) :
 g.linkCount u v = if g.hasEdge u v then 1 else 0 := by
 have hsin : ∀ es : List Edge, es.Pairwise (fun e f => g.joins e.source e.target f = false) →
  es.countP (g.joins u v) = if es.any (g.joins u v) then 1 else 0 := by
  intro es hes
  induction es with
  | nil => rfl
  | cons e es ih =>
   obtain ⟨hapa,hes⟩ := pairwise_cons.1 hes
   by_cases he : g.joins u v e
   · have hnone : es.countP (g.joins u v) = 0 := by
      refine countP_eq_zero.2 fun f hf hjoi => ?_
      rw [joins_of_joins he,hapa f hf] at hjoi
      cases hjoi
     rw [countP_cons_of_pos he,hnone,any_cons,he]
     rfl
   · rw [countP_cons_of_neg he,ih hes,any_cons,Bool.eq_false_iff.2 he,Bool.false_or]
 exact hsin g.edges (hg.single hm)

end Graph

namespace Encoding
variable {α : Type} [Scalar α]

def tally : Nat → α
 | 0 => zero
 | n + 1 => tally n + one

variable {ids : List NodeId} {t : Array α} {c : NodeId → NodeId → Nat} {u v : NodeId}

def cell (ids : List NodeId) (u v : NodeId) : Nat := ids.idxOf u * ids.length + ids.idxOf v

structure Counts (ids : List NodeId) (c : NodeId → NodeId → Nat) (t : Array α) : Prop where
 size : t.size = ids.length * ids.length
 entry : ∀ u ∈ ids, ∀ v ∈ ids, t.getD (cell ids u v) zero = tally (c u v)

lemma cell_lt (hu : u ∈ ids) (hv : v ∈ ids) : cell ids u v < ids.length * ids.length :=
 Tensor.place_lt (idxOf_lt_length_of_mem hu) (idxOf_lt_length_of_mem hv)

lemma cell_inj {x y : NodeId} (hu : u ∈ ids) (hv : v ∈ ids) (hy : y ∈ ids) :
 cell ids u v = cell ids x y ↔ u = x ∧ v = y := by
 rw [cell,cell,Tensor.place_inj (idxOf_lt_length_of_mem hv) (idxOf_lt_length_of_mem hy),idxOf_inj hu,
  idxOf_inj hv]

lemma counts_blank (ids : List NodeId) :
 Counts ids (fun _ _ => 0) (Array.replicate (ids.length * ids.length) (Scalar.zero : α)) where
 size := Array.size_replicate
 entry u hu v hv := by simp [cell_lt hu hv,tally]

lemma Counts.congr (h : Counts ids c t) {c' : NodeId → NodeId → Nat}
 (hc : ∀ u ∈ ids, ∀ v ∈ ids, c u v = c' u v) :
 Counts ids c' t :=
 ⟨h.size,fun u hu v hv => hc u hu v hv ▸ h.entry u hu v hv⟩

lemma Counts.at2 {t : Tensor α} (h : Counts ids c t.data) (hids : ids.Nodup) {i j : Nat}
 (hu : ids[i]? = some u)
 (hv : ids[j]? = some v) : t.at2 ids.length i j = tally (c u v) := by
 have hent := h.entry u (mem_of_getElem? hu) v (mem_of_getElem? hv)
 obtain ⟨hi,rfl⟩ := List.getElem?_eq_some_iff.1 hu
 obtain ⟨hj,rfl⟩ := List.getElem?_eq_some_iff.1 hv
 rwa [cell,hids.idxOf_getElem,hids.idxOf_getElem] at hent

def bump (ids : List NodeId) (t : Array α) (u v : NodeId) : Array α :=
 t.modify (cell ids u v) fun x => x + one

lemma Counts.bumped (h : Counts ids c t) (hu : u ∈ ids) (hv : v ∈ ids) :
 Counts ids (fun x y => c x y + if u = x ∧ v = y then 1 else 0) (bump ids t u v) where
 size := by rw [bump,Array.size_modify,h.size]
 entry x hx y hy := by
  have hlt : cell ids x y < t.size := h.size ▸ cell_lt hx hy
  have hold := h.entry x hx y hy
  simp only [Array.getD_eq_getD_getElem?,Array.getElem?_eq_getElem hlt,Option.getD_some] at hold
  rw [bump,Array.getD_eq_getD_getElem?,Array.getElem?_eq_getElem (by rwa [Array.size_modify]),
   Option.getD_some,
   Array.getElem_modify]
  by_cases hcell : u = x ∧ v = y
  · rw [if_pos ((cell_inj hu hv hy).2 hcell),if_pos hcell,hold]
    rfl
  · rw [if_neg fun heq => hcell ((cell_inj hu hv hy).1 heq),if_neg hcell,hold]
    rfl

lemma Counts.set_eq_bump [Exact α] (h : Counts ids c t) (hu : u ∈ ids) (hv : v ∈ ids)
 (hc : c u v = 0) :
 t.setIfInBounds (cell ids u v) one = bump ids t u v := by
 have hlt : cell ids u v < t.size := h.size ▸ cell_lt hu hv
 have hold := h.entry u hu v hv
 simp only [Array.getD_eq_getD_getElem?,Array.getElem?_eq_getElem hlt,Option.getD_some,hc,
  tally] at hold
 refine Array.ext (by simp [bump]) fun i hi _ => ?_
 rw [Array.getElem_setIfInBounds (by simpa using hi)]
 simp only [bump,Array.getElem_modify]
 split
 · next heq =>
   subst heq
   rw [hold,Exact.zero_add_one]
 · rfl

section
variable [Scalar.Exact α] {g : Graph} {t : Array α} {c : NodeId → NodeId → Nat} {e : Edge}

def enter (g : Graph) (t : Array α) (u v : NodeId) : Array α :=
 if g.multi then bump g.ids t u v else t.setIfInBounds (cell g.ids u v) one

def link (g : Graph) (t : Array α) (e : Edge) : Array α :=
 let t := enter g t e.source e.target
 if g.directed || e.source == e.target then t else enter g t e.target e.source

lemma Counts.entered (h : Counts g.ids c t) {u v : NodeId} (hu : u ∈ g.ids) (hv : v ∈ g.ids)
 (hfree : g.multi = false → c u v = 0) :
 Counts g.ids (fun x y => c x y + if u = x ∧ v = y then 1 else 0) (enter g t u v) := by
 unfold enter
 cases hm : g.multi with
 | true => exact h.bumped hu hv
 | false =>
  rw [if_neg (by simp),h.set_eq_bump hu hv (hfree hm)]
  exact h.bumped hu hv

lemma Counts.linked (h : Counts g.ids c t) (hs : e.source ∈ g.ids) (ht : e.target ∈ g.ids)
 (hfree : g.multi = false → ∀ x y, g.joins x y e → c x y = 0) :
 Counts g.ids (fun x y => c x y + if g.joins x y e then 1 else 0) (link g t e) := by
 have hone := h.entered hs ht fun hm => hfree hm _ _ (joins_self e)
 unfold link
 dsimp only
 by_cases hway : (g.directed || e.source == e.target)
 · -- one place: the way back is no other or does not exist
   rw [if_pos hway]
   refine hone.congr fun x _ y _ => ?_
   congr 1
   refine if_congr ?_ rfl rfl
   rw [joins_iff]
   rw [Bool.or_eq_true,beq_iff_eq] at hway
   constructor
   · exact .inl
   · rintro (h | ⟨hd,hsy,htx⟩)
     · exact h
     · rcases hway with hd' | hloop
       · rw [hd] at hd'
         cases hd'
       · exact ⟨hloop.trans htx,hloop ▸ hsy⟩
 · rw [if_neg hway]
   rw [Bool.or_eq_true,beq_iff_eq,not_or,Bool.not_eq_true] at hway
   obtain ⟨hd,hapa⟩ := hway
   have hback : g.joins e.target e.source e := by rw [joins_comm hd,joins_self]
   have htwo := hone.entered ht hs fun hm => by
    rw [hfree hm _ _ hback,if_neg fun h => hapa h.1]
   refine htwo.congr fun x _ y _ => ?_
   rw [add_assoc]
   congr 1
   by_cases hjoin : g.joins x y e
   · rw [if_pos hjoin]
     rcases joins_iff.1 hjoin with ⟨rfl,rfl⟩ | ⟨_,rfl,rfl⟩
     · rw [if_pos ⟨rfl,rfl⟩,if_neg fun h => hapa h.2]
     · rw [if_neg fun h => hapa h.1,if_pos ⟨rfl,rfl⟩]
   · rw [if_neg hjoin,if_neg fun h => hjoin (joins_iff.2 (.inl h)),
      if_neg fun h => hjoin (joins_iff.2 (.inr ⟨hd,h.2,h.1⟩))]

lemma Counts.foldl_link {es : List Edge} (h : Counts g.ids c t)
 (hends : ∀ e ∈ es, e.source ∈ g.ids ∧ e.target ∈ g.ids)
 (hfree : g.multi = false → ∀ e ∈ es, ∀ x y, g.joins x y e → c x y = 0)
 (hapa : g.multi = false → es.Pairwise fun e f => g.joins e.source e.target f = false) :
 Counts g.ids (fun x y => c x y + es.countP (g.joins x y)) (es.foldl (link g) t) := by
 induction es generalizing t c with
 | nil => exact h
 | cons e es ih =>
  have hste := h.linked (hends e (by simp)).1 (hends e (by simp)).2 fun hm => hfree hm e (by simp)
  have hres := ih hste (fun f hf => hends f (by simp [hf])) ?_ fun hm =>
   (pairwise_cons.1 (hapa hm)).2
  · refine hres.congr fun x _ y _ => ?_
    rw [countP_cons]
    omega
  · intro hm f hf x y hjoin
    have hnot : g.joins x y e = false := by
     rw [← Bool.not_eq_true]
     intro he
     rw [joins_of_joins he,(pairwise_cons.1 (hapa hm)).1 f hf] at hjoin
     cases hjoin
    rw [hfree hm f (by simp [hf]) x y hjoin,hnot]
    rfl

omit [Scalar.Exact α] in
lemma Counts.foldl_bump {ids us : List NodeId} (h : Counts ids c t) (hus : ∀ u ∈ us, u ∈ ids) :
 Counts ids (fun x y => c x y + if x = y then us.count x else 0)
  (us.foldl (fun t u => bump ids t u u) t) := by
 induction us generalizing t c with
 | nil => exact h.congr fun x _ y _ => by simp
 | cons u us ih =>
  refine (ih (h.bumped (hus u (by simp)) (hus u (by simp))) fun x hx => hus x (by simp [hx])).congr
   fun x _ y _ => ?_
  rw [Nat.add_assoc]
  congr 1
  rw [count_cons]
  by_cases hxy : x = y
  · subst hxy
    simp [Nat.add_comm]
  · rw [if_neg hxy,if_neg hxy,if_neg fun h => hxy (h.1.symm.trans h.2)]

end

section
variable [Scalar.Exact α] {g : Graph}

omit [Scalar.Exact α] in
lemma foldl_range {ids : List NodeId} (hids : ids.Nodup) (t : Array α) :
 (List.range ids.length).foldl (fun t i => t.modify (i * ids.length + i) fun x => x + Scalar.one) t =
  ids.foldl (fun t u => bump ids t u u) t := by
 have hran : List.range ids.length = ids.map ids.idxOf :=
  ext_getElem (by simp) fun i hi hi' => by simp [hids.idxOf_getElem]
 rw [hran,foldl_map]
 simp [bump,cell]

lemma adjacency_entries (hg : g.Sound) (hwei : ∀ e ∈ g.edges, e.attrs.get? "weight" = none) :
 ∃ t : Tensor α, adjacency g = .ok t ∧ t.shape = [g.ids.length,g.ids.length] ∧
  Counts g.ids (fun u v => g.linkCount u v + if u = v then 1 else 0) t.data := by
 have hlin := (counts_blank (α := α) g.ids).foldl_link hg.ends (fun _ _ _ _ _ _ => rfl) hg.single
 have hdiag := hlin.foldl_bump fun u hu => hu
 refine ⟨⟨[g.ids.length,g.ids.length],g.ids.foldl (fun t u => bump g.ids t u u)
  (g.edges.foldl (link g) (Array.replicate (g.ids.length * g.ids.length) zero))⟩,?_,rfl,?_⟩
 · rw [adjacency]
   dsimp only
   rw [foldlM_eq_ok (k := link g) fun t e he => by rw [hwei e he]; rfl]
   simp only [bind,Except.bind,pure,Except.pure,foldl_range hg.ids]
 · refine hdiag.congr fun u hu v _ => ?_
   rw [zero_add,linkCount,count_eq_one_of_mem hg.ids hu]

end
end Encoding
end MotifMatch
