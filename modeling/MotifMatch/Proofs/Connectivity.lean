import Mathlib.Data.List.Perm.Subperm
import MotifMatch.Proofs.EdgeLists

namespace MotifMatch.Graph
open List Int
open Relation (ReflTransGen)
variable {next : NodeId → List NodeId} {seen layer ids : List NodeId} {u v : NodeId}

lemma mem_fresh {xs : List NodeId} : v ∈ fresh seen xs ↔ v ∈ xs ∧ v ∉ seen := by
 induction xs generalizing seen with
 | nil => simp [fresh]
 | cons x xs ih =>
  rw [fresh]
  by_cases hx : x ∈ seen
  · rw [if_pos (by simpa using hx),ih,mem_cons]
    constructor
    · exact fun h => ⟨.inr h.1,h.2⟩
    · rintro ⟨rfl | h,hv⟩
      · exact absurd hx hv
      · exact ⟨h,hv⟩
  · rw [if_neg (by simpa using hx),mem_cons,ih,mem_cons,mem_cons]
    by_cases hv : v = x
    · simp [hv,hx]
    · simp [hv]

lemma nodup_fresh (seen xs : List NodeId) : (fresh seen xs).Nodup := by
 induction xs generalizing seen with
 | nil => exact nodup_nil
 | cons x xs ih =>
  rw [fresh]
  split
  · exact ih seen
  · exact nodup_cons.2 ⟨fun h => (mem_fresh.1 h).2 mem_cons_self,ih _⟩

lemma mem_nextLayer : v ∈ (nextLayer next seen layer).map Prod.snd ↔ v ∉ seen ∧
 ∃ u ∈ layer, v ∈ next u := by
 induction layer generalizing seen with
 | nil => simp [nextLayer]
 | cons u layer ih =>
  have hfou : (fresh seen (next u)).map (Prod.snd ∘ fun v => (u,v)) = fresh seen (next u) := map_id _
  simp only [nextLayer,map_append,map_map,hfou,mem_append,ih,mem_fresh,exists_mem_cons_iff]
  by_cases hu : v ∈ next u <;> by_cases hv : v ∈ seen <;> simp [hu,hv]

lemma nodup_nextLayer (next : NodeId → List NodeId) (seen layer : List NodeId) :
 ((nextLayer next seen layer).map Prod.snd).Nodup := by
 induction layer generalizing seen with
 | nil => exact nodup_nil
 | cons u layer ih =>
  have hfou : (fresh seen (next u)).map (Prod.snd ∘ fun v => (u,v)) = fresh seen (next u) := map_id _
  simp only [nextLayer,map_append,map_map,hfou]
  refine nodup_append.2 ⟨nodup_fresh _ _,ih _,fun v hv w hw heq => ?_⟩
  exact (mem_nextLayer.1 hw).1 (mem_append_left _ (heq ▸ hv))

structure UnderWay (next : NodeId → List NodeId) (ids : List NodeId) (fuel : Nat)
 (seen layer : List NodeId) : Prop where
 nodup : seen.Nodup
 known : ∀ v ∈ seen, v ∈ ids
 last : ∀ v ∈ layer, v ∈ seen
 closed : ∀ u ∈ seen, u ∉ layer → ∀ v ∈ next u, v ∈ seen
 enough : ids.length < fuel + seen.length

lemma UnderWay.step {fuel : Nat} (h : UnderWay next ids (fuel + 1) seen layer)
 (hnext : ∀ u ∈ ids, ∀ v ∈ next u, v ∈ ids)
 (hne : nextLayer next seen layer ≠ []) :
 UnderWay next ids fuel ((nextLayer next seen layer).map Prod.snd ++ seen)
  ((nextLayer next seen layer).map Prod.snd) where
 nodup := by
  refine nodup_append.2 ⟨nodup_nextLayer next seen layer,h.nodup,fun v hv w hw heq => ?_⟩
  exact (mem_nextLayer.1 hv).1 (heq ▸ hw)
 known v hv := by
  rcases mem_append.1 hv with hv | hv
  · obtain ⟨_,u,hu,hste⟩ := mem_nextLayer.1 hv
    exact hnext u (h.known u (h.last u hu)) v hste
  · exact h.known v hv
 last v hv := mem_append_left _ hv
 closed u hu hnot v hv := by
  have hseen : u ∈ seen := (mem_append.1 hu).resolve_left hnot
  by_cases hv' : v ∈ seen
  · exact mem_append_right _ hv'
  · refine mem_append_left _ (mem_nextLayer.2 ⟨hv',u,?_,hv⟩)
    exact of_not_not fun hu' => hv' (h.closed u hseen hu' v hv)
 enough := by
  have hpos := length_pos_iff.2 hne
  have := h.enough
  simp only [length_append,length_map]
  omega

def Near (step : NodeId → NodeId → Prop) : Nat → NodeId → NodeId → Prop
 | 0, u, v => u = v
 | n + 1, u, v => Near step n u v ∨ ∃ w, step u w ∧ Near step n w v

lemma near_self {step : NodeId → NodeId → Prop} (v : NodeId) : ∀ n, Near step n v v
 | 0 => rfl
 | n + 1 => .inl (near_self v n)

lemma Near.links {step : NodeId → NodeId → Prop} {n : Nat} (h : Near step n u v) :
 ReflTransGen step u v := by
 induction n generalizing u with
 | zero => exact h ▸ .refl
 | succ n ih => exact h.elim ih fun ⟨_,hste,hnear⟩ => .head hste (ih hnear)

lemma exists_near {step : NodeId → NodeId → Prop} (h : ReflTransGen step u v) :
 ∃ n, Near step n u v := by
 induction h using ReflTransGen.head_induction_on with
 | refl => exact ⟨0,rfl⟩
 | head hste _ ih => exact ih.imp' Nat.succ fun _ hnear => .inr ⟨_,hste,hnear⟩

lemma UnderWay.layersFrom {fuel : Nat} (h : UnderWay next ids fuel seen layer)
 (hnext : ∀ u ∈ ids, ∀ v ∈ next u, v ∈ ids) (k : Nat) :
 ∃ met, (((layersFrom next fuel seen layer).take k).flatten.map Prod.snd ++ seen).Perm met ∧
  met.Nodup ∧ (∀ v ∈ met, v ∈ ids) ∧
  ∀ v, v ∈ met ↔ ∃ u ∈ seen, Near (fun u v => v ∈ next u) k u v := by
 induction k generalizing fuel seen layer with
 | zero => exact ⟨seen,by simp,h.nodup,h.known,fun v => by simp [Near]⟩
 | succ k ih =>
  cases fuel with
  | zero =>
   have hle := (subperm_of_subset h.nodup h.known).length_le
   have := h.enough
   omega
  | succ fuel =>
   rw [layersFrom]
   split
   · next hnone =>
     have hclo : ∀ n, ∀ u ∈ seen, ∀ v, Near (fun u v => v ∈ next u) n u v → v ∈ seen := by
      intro n
      induction n with
      | zero => exact fun u hu v h => h ▸ hu
      | succ n ih =>
       rintro u hu v (hnear | ⟨w,hw,hnear⟩)
       · exact ih u hu v hnear
       · refine ih w ?_ v hnear
         by_contra hnot
         have hlay : u ∈ layer := of_not_not fun hlay => hnot (h.closed u hu hlay w hw)
         have hmem := mem_nextLayer.2 ⟨hnot,u,hlay,hw⟩
         simp [hnone] at hmem
     refine ⟨seen,by simp,h.nodup,h.known,fun v => ⟨fun hv => ⟨v,hv,?_⟩,fun ⟨u,hu,hnear⟩ => hclo _ u hu v hnear⟩⟩
     exact near_self _ (k + 1)
   · next hne =>
     obtain ⟨met,hper,hnod,hids,hmem⟩ := ih (h.step hnext hne)
     refine ⟨met,?_,hnod,hids,fun v => (hmem v).trans ⟨?_,?_⟩⟩
     · refine Perm.trans ?_ hper
       simp only [take_succ_cons,flatten_cons,map_append,append_assoc]
       rw [← append_assoc,← append_assoc]
       exact perm_append_comm.append_right seen
     · rintro ⟨u,hu,hnear⟩
       rcases mem_append.1 hu with hu | hu
       · obtain ⟨_,w,hw,hste⟩ := mem_nextLayer.1 hu
         exact ⟨w,h.last w hw,.inr ⟨u,hste,hnear⟩⟩
       · exact ⟨u,hu,.inl hnear⟩
     · rintro ⟨u,hu,hnear | ⟨w,hw,hnear⟩⟩
       · exact ⟨u,mem_append_right _ hu,hnear⟩
       · refine ⟨w,mem_append.2 ?_,hnear⟩
         by_cases hseen : w ∈ seen
         · exact .inr hseen
         · refine .inl (mem_nextLayer.2 ⟨hseen,u,?_,hw⟩)
           exact of_not_not fun hlay => hseen (h.closed u hu hlay w hw)

lemma ballNodes_spec {g : Graph} {start : NodeId} (hsta : start ∈ g.ids)
 (hnext : ∀ u ∈ g.ids, ∀ v ∈ next u, v ∈ g.ids) (r : Nat) :
 (g.ballNodes next start r).Nodup ∧ (∀ v ∈ g.ballNodes next start r, v ∈ g.ids) ∧
  ∀ v, v ∈ g.ballNodes next start r ↔ Near (fun u v => v ∈ next u) r start v := by
 have hway : UnderWay next g.ids g.size [start] [start] := {
   nodup := nodup_singleton start
   known := by simpa using hsta
   last := by simp
   closed := by simp
   enough := by simp [size_eq_length] }
 obtain ⟨met,hper,hnod,hids,hmem⟩ := hway.layersFrom hnext r
 have hmet : (g.ballNodes next start r).Perm met := by
  rw [ballNodes,if_neg (Int.not_lt.2 (Int.natCast_nonneg r))]
  exact perm_append_comm.trans hper
 refine ⟨hmet.nodup_iff.2 hnod,fun v hv => hids v (hmet.mem_iff.1 hv),fun v => ?_⟩
 rw [hmet.mem_iff,hmem]
 simp

lemma ballNodes_nat (g : Graph) (start : NodeId) (r : Nat) :
 g.ballNodes next start r = start :: ((g.layers next start).take r).flatten.map Prod.snd := by
 rw [ballNodes,if_neg (Int.not_lt.2 (Int.natCast_nonneg r)),Int.toNat_natCast]

lemma reached_eq_ballNodes (g : Graph) (start : NodeId) :
 g.reached next start = g.ballNodes next start (g.layers next start).length := by
 rw [ballNodes_nat,take_length,reached]

lemma reached_spec {g : Graph} {start : NodeId} (hsta : start ∈ g.ids)
 (hnext : ∀ u ∈ g.ids, ∀ v ∈ next u, v ∈ g.ids) :
 (g.reached next start).Nodup ∧ (∀ v ∈ g.reached next start, v ∈ g.ids) ∧
  ∀ v, v ∈ g.reached next start ↔ ReflTransGen (fun u v => v ∈ next u) start v := by
 rw [reached_eq_ballNodes]
 obtain ⟨hnod,hids,hmem⟩ := ballNodes_spec hsta hnext (g.layers next start).length
 refine ⟨hnod,hids,fun v => ⟨fun hv => ((hmem v).1 hv).links,fun hv => ?_⟩⟩
 obtain ⟨n,hnear⟩ := exists_near hv
 have hball := ((ballNodes_spec hsta hnext n).2.2 v).2 hnear
 rw [ballNodes_nat] at hball
 rw [← reached_eq_ballNodes]
 refine (mem_cons.1 hball).elim (fun h => h ▸ mem_cons_self) fun h => mem_cons_of_mem _ ?_
 obtain ⟨e,he,rfl⟩ := mem_map.1 h
 obtain ⟨layer,hlay,he⟩ := mem_flatten.1 he
 exact mem_map_of_mem (mem_flatten.2 ⟨layer,mem_of_mem_take hlay,he⟩)

variable {g h : Graph} {w : NodeId}

def Meets (g : Graph) (u v : NodeId) : Prop := g.hasEdge u v = true ∨ g.hasEdge v u = true

structure Connected (g : Graph) : Prop where
 ids : g.ids ≠ []
 links : ∀ u ∈ g.ids, ∀ v ∈ g.ids, ReflTransGen g.Meets u v

lemma Meets.symm (h : g.Meets u v) : g.Meets v u := Or.symm h

lemma links_symm (h : ReflTransGen g.Meets u v) : ReflTransGen g.Meets v u := by
 induction h with
 | refl => exact .refl
 | tail _ hste ih => exact .head hste.symm ih

lemma mem_around : v ∈ g.around u ↔ g.Meets u v := by
 unfold around Meets
 split
 · rw [mem_append,mem_neighbors_iff,mem_predecessors_iff]
 · next hd => rw [mem_neighbors_iff,hasEdge_comm (by simpa using hd) v u,or_self]

lemma isConnected_true (g : Graph) :
 g.isConnected true = g.spans g.around := by simp [isConnected,isWeaklyConnected]

lemma exists_isConnected (h : g.ids ≠ []) : ∃ b, g.isConnected true = .ok b := by
 obtain ⟨n,ns,hns⟩ := exists_cons_of_ne_nil h
 rw [isConnected_true,spans,hns]
 exact ⟨_,rfl⟩

lemma isConnected_iff (hids : g.ids.Nodup) (hends : ∀ u v, g.hasEdge u v → u ∈ g.ids ∧ v ∈ g.ids) :
 g.isConnected true = .ok true ↔ g.Connected := by
 rw [isConnected_true,spans]
 split
 · next hnone => exact iff_of_false (fun h => by cases h) fun h => h.ids hnone
 next n ns hns =>
  have hn : n ∈ g.ids := hns ▸ mem_cons_self
  have hnext : ∀ u ∈ g.ids, ∀ v ∈ g.around u, v ∈ g.ids := fun u _ v hv =>
   (mem_around.1 hv).elim (fun h => (hends u v h).2) fun h => (hends v u h).1
  obtain ⟨hnod,hsub,hrea⟩ := reached_spec hn hnext
  have hrea : ∀ v, v ∈ g.reached g.around n ↔ ReflTransGen g.Meets n v := fun v => by
   rw [hrea]
   simp only [mem_around]
  have hall : (g.reached g.around n).length = g.size ↔ ∀ v ∈ g.ids, v ∈ g.reached g.around n := by
   have hsu := subperm_of_subset hnod hsub
   rw [size_eq_length]
   constructor
   · exact fun hlen v hv => (hsu.perm_of_length_le (Nat.le_of_eq hlen.symm)).mem_iff.2 hv
   · exact fun h => Nat.le_antisymm hsu.length_le (subperm_of_subset hids h).length_le
  simp only [Except.ok.injEq,beq_iff_eq,hall,hrea]
  constructor
  · exact fun h => ⟨ne_nil_of_mem hn,fun u hu v hv => (links_symm (h u hu)).trans (h v hv)⟩
  · exact fun h v hv => h.links n hn v hv

lemma Sound.isConnected_iff (hg : g.Sound) : g.isConnected true = .ok true ↔ g.Connected :=
 Graph.isConnected_iff hg.ids fun _ _ => hg.of_hasEdge

lemma Connected.mono (hg : g.Connected) (hids : ∀ n, n ∈ h.ids ↔ n ∈ g.ids)
 (hedg : ∀ u v, g.hasEdge u v → h.hasEdge u v) : h.Connected where
 ids hnone := by
  obtain ⟨n,ns,hns⟩ := exists_cons_of_ne_nil hg.ids
  have := (hids n).2 (hns ▸ mem_cons_self)
  simp [hnone] at this
 links u hu v hv :=
  ReflTransGen.mono (fun a b hab => hab.imp (hedg a b) (hedg b a)) u v
   (hg.links u ((hids u).1 hu) v ((hids v).1 hv))

lemma Connected.exists_meets (hg : g.Connected) (hu : u ∈ g.ids) (hsiz : 2 ≤ g.size)
 (hnod : g.ids.Nodup) :
 ∃ v, g.Meets u v := by
 obtain ⟨v,hv,hne⟩ : ∃ v ∈ g.ids, v ≠ u := by
  by_contra hnone
  push Not at hnone
  have hsub : g.ids ⊆ [u] := fun v hv => mem_singleton.2 (hnone v hv)
  have hle := (subperm_of_subset hnod hsub).length_le
  rw [← size_eq_length,length_singleton] at hle
  omega
 rcases ReflTransGen.cases_head (hg.links u hu v hv) with heq | ⟨w,hw,_⟩
 · exact absurd heq.symm hne
 · exact ⟨w,hw⟩

end MotifMatch.Graph
