import Mathlib.Data.Set.Card
import MotifMatch.Import.Datasets
import MotifMatch.PatternSet
import MotifMatch.Proofs.Connectivity

namespace MotifMatch.Graph
open List
variable {g h : Graph} {a u v : NodeId} {name : String}

def edgeAttr? (g : Graph) (u v : NodeId) (name : String) : Option Value :=
 (g.edge? u v).bind fun e => e.attrs.get? name

lemma edgeAttr?_edges (es : List Edge) : ({ g with edges := es }).edgeAttr? u v name =
 (es.find? (g.joins u v)).bind fun e => e.attrs.get? name := rfl

lemma edgeAttr?_addListed {e : Edge} (hm : g.multi = false) (hs : e.source ∈ g.ids)
 (ht : e.target ∈ g.ids)
 (ha : e.attrs.keys.Nodup) : (g.addListed e).edgeAttr? u v name =
  if g.joins u v e then (e.attrs.get? name).or (g.edgeAttr? u v name) else g.edgeAttr? u v name := by
 have hkey : g.joins u v ⟨e.source,e.target,.none,e.attrs⟩ = g.joins u v e := joins_congr rfl rfl u v
 rw [addListed_of_mem hm hs ht,place]
 split
 · next hany =>
   have hends : (g.joins u v ∘ fun f : Edge => if g.joins e.source e.target f then
    { f with attrs := f.attrs.putAll e.attrs.entries } else f) = g.joins u v := funext fun f => by
    simp only [Function.comp_apply]
    split <;> rfl
   rw [edgeAttr?_edges,find?_map,hends,edgeAttr?,edge?]
   cases hfind : g.edges.find? (g.joins u v) with
   | none =>
    obtain ⟨f,hf,hjoi⟩ := any_eq_true.1 hany
    have hnot : g.joins u v e = false := Bool.eq_false_iff.2 fun hj =>
     find?_eq_none.1 hfind f hf ((joins_of_joins hj).trans hjoi)
    simp [hnot]
   | some f =>
    have hsame : g.joins e.source e.target f = g.joins u v e := by
     rw [joins_symm,joins_of_joins (find?_some hfind)]
    cases hj : g.joins u v e <;> simp [hsame,hj,Table.get?_putAll_entries _ ha]
 · next hnone =>
   rw [edgeAttr?_edges,find?_append,find?_singleton,hkey,edgeAttr?,edge?]
   cases hj : g.joins u v e with
   | false => simp
   | true =>
    have hfind := find?_eq_none.2 fun f hf hf' =>
     hnone (any_eq_true.2 ⟨f,hf,(joins_of_joins hj).symm.trans hf'⟩)
    simp [hfind]

lemma edgeAttr?_foldl_addListed {es : List Edge} (hm : g.multi = false)
 (hes : ∀ e ∈ es, e.source ∈ g.ids ∧ e.target ∈ g.ids ∧ e.attrs.keys.Nodup) :
  (es.foldl addListed g).edgeAttr? u v name =
  ((es.reverse.filter (g.joins u v)).findSome? fun e => e.attrs.get? name).or
   (g.edgeAttr? u v name) := by
 induction es generalizing g with
 | nil => simp
 | cons e es ih =>
  obtain ⟨hs,ht,ha⟩ := hes e (by simp)
  have hste := addListed_of_mem hm hs ht
  have hids : (g.addListed e).ids = g.ids := by rw [hste,ids,nodes_place,ids]
  have hjoi : (g.addListed e).joins u v = g.joins u v :=
   funext fun _ => joins_of_directed (by rw [hste,directed_place])
  rw [foldl_cons,ih (by rw [hste,multi_place,hm]) fun f hf => hids ▸ hes f (by simp [hf]),hjoi,
   edgeAttr?_addListed hm hs ht ha,reverse_cons,filter_append,findSome?_append,Option.or_assoc]
  cases hj : g.joins u v e <;> simp [hj]

lemma edgeAttr?_recast (hg : g.Sound) {x : Value} :
 ((g.recast true false).edgeAttr? u v name = some x → ∃ e ∈ g.edges, g.joins u v e ∧
  e.attrs.get? name = some x) ∧
 ∀ e ∈ g.edges, g.joins u v e → e.attrs.get? name = some x →
  ((g.recast true false).edgeAttr? u v name).isSome := by
 let bare : Graph := { g with directed := true, multi := false, edges := [] }
 have hrec : (g.recast true false).edgeAttr? u v name =
  ((g.ids.flatMap g.fan).reverse.filter (bare.joins u v)).findSome? fun e => e.attrs.get? name := by
  refine (edgeAttr?_foldl_addListed rfl fun e he => ?_).trans Option.or_none
  obtain ⟨hs,ht,ha,_⟩ := mem_flatMap_fan hg he
  exact ⟨hs,ht,ha⟩
 rw [hrec]
 constructor
 · intro hsome
   obtain ⟨e,he,hx⟩ := exists_of_findSome?_eq_some hsome
   obtain ⟨he,hj⟩ := mem_filter.1 he
   obtain ⟨n,hn,hfan⟩ := mem_flatMap.1 (mem_reverse.1 he)
   obtain ⟨f,hf,w,hfj,rfl⟩ := mem_leaving.1 (mem_fan.1 hfan)
   obtain ⟨rfl,rfl⟩ : n = u ∧ w = v := by simpa [joins,bare] using hj
   exact ⟨f,hf,hfj,hx⟩
 · intro e he hj hx
   refine findSome?_isSome_iff.2 ⟨{ e with source := u, target := v },
    mem_filter.2 ⟨?_,by simp [joins,bare]⟩,by simp [hx]⟩
   refine mem_reverse.2 (mem_flatMap.2 ⟨u,(hg.of_hasEdge (hasEdge_iff.2 ⟨e,he,hj⟩)).1,?_⟩)
   exact mem_fan.2 (mem_leaving.2 ⟨e,he,v,hj,rfl⟩)

variable {r s : Nat}

def within (g : Graph) (a : NodeId) (r : Nat) : Set NodeId := {n | Near g.Meets r a n}

/-- The number of nodes within a radius lies between two bounds. -/
def Admits (g : Graph) (a : NodeId) (least most : Int) (r : Nat) : Prop :=
 least ≤ (g.within a r).ncard ∧ (g.within a r).ncard ≤ most

/-- A directed graph with the nodes of a set and all edges between them, parallel ones merged. -/
structure InducedOn (g : Graph) (s : Set NodeId) (h : Graph) : Prop where
 directed : h.directed = true
 single : h.multi = false
 sound : h.Sound
 nodes : h.nodes.entries.Sublist g.nodes.entries
 ids : ∀ n, n ∈ h.ids ↔ n ∈ s
 edges : ∀ u v, h.hasEdge u v = true ↔ u ∈ s ∧ v ∈ s ∧ g.hasEdge u v = true
 merged : ∀ u v name x, h.edgeAttr? u v name = some x → ∃ e ∈ g.edges, g.joins u v e = true ∧
  e.attrs.get? name = some x
 kept : ∀ u ∈ s, ∀ v ∈ s, ∀ e ∈ g.edges, g.joins u v e = true →
  ∀ name x, e.attrs.get? name = some x →
  (h.edgeAttr? u v name).isSome

/-- The nodes of a set with all edges between them, nodes and edges with what is noted at them. -/
structure Restricts (g : Graph) (s : Set NodeId) (h : Graph) : Prop where
 directed : h.directed = g.directed
 multi : h.multi = g.multi
 ids : ∀ n, n ∈ h.ids ↔ n ∈ s
 nodes : h.nodes.entries.Sublist g.nodes.entries
 edges : ∀ u v a, (∃ e ∈ h.edges, h.joins u v e = true ∧ e.attrs = a) ↔
  u ∈ s ∧ v ∈ s ∧ ∃ e ∈ g.edges, g.joins u v e = true ∧ e.attrs = a

section
variable {s : Set NodeId}

lemma restricts_relisted (hg : g.Sound) {keep : NodeId → Bool}
 (hs : ∀ n, n ∈ g.ids ∧ keep n ↔ n ∈ s) :
 g.Restricts s (g.induced keep).relisted where
 directed := rfl
 multi := rfl
 ids n := mem_ids_induced.trans (hs n)
 nodes := filter_sublist
 edges u v a := by
  refine (exists_mem_edgeList_iff (hg.induced keep)).trans ⟨?_,?_⟩
  · rintro ⟨e,he,hj,ha⟩
    obtain ⟨hu,hv⟩ := (hg.induced keep).of_hasEdge (hasEdge_iff.2 ⟨e,he,hj⟩)
    rw [mem_ids_induced] at hu hv
    exact ⟨(hs u).1 hu,(hs v).1 hv,e,mem_of_mem_filter he,hj,ha⟩
  · rintro ⟨hu,hv,e,he,hj,ha⟩
    refine ⟨e,mem_filter.2 ⟨he,?_⟩,hj,ha⟩
    rcases joins_iff.1 hj with ⟨rfl,rfl⟩ | ⟨_,rfl,rfl⟩ <;> simp [((hs _).2 hu).2,((hs _).2 hv).2]

lemma Restricts.hasEdge_iff {h : Graph} (hr : g.Restricts s h) :
 h.hasEdge u v ↔ u ∈ s ∧ v ∈ s ∧ g.hasEdge u v := by
 rw [Graph.hasEdge_iff,Graph.hasEdge_iff]
 constructor
 · rintro ⟨e,he,hj⟩
   obtain ⟨hu,hv,f,hf,hj,_⟩ := (hr.edges u v _).1 ⟨e,he,hj,rfl⟩
   exact ⟨hu,hv,f,hf,hj⟩
 · rintro ⟨hu,hv,e,he,hj⟩
   obtain ⟨f,hf,hj,_⟩ := (hr.edges u v _).2 ⟨hu,hv,e,he,hj,rfl⟩
   exact ⟨f,hf,hj⟩

lemma inducedOn_recast (hg : g.Sound) {keep : NodeId → Bool} (hs : ∀ n, n ∈ g.ids ∧ keep n ↔ n ∈ s) :
 InducedOn g s ((g.induced keep).relisted.recast true false) := by
 have hr := restricts_relisted hg hs
 have hi := (hg.induced keep).relisted
 obtain ⟨hnod,hdir,hsin,hedg⟩ := recast_spec hi true false
 refine ⟨hdir,hsin,hi.recast true false,hnod ▸ hr.nodes,fun n => ?_,fun u v => ?_,
  fun u v name x hx => ?_,
  fun u hu v hv e he hj name x hx => ?_⟩
 · rw [ids,hnod]
   exact hr.ids n
 · rw [hedg,Bool.not_true,Bool.false_and,Bool.or_false,hr.hasEdge_iff]
 · obtain ⟨e,he,hj,hx⟩ := (edgeAttr?_recast hi).1 hx
   obtain ⟨_,_,f,hf,hj,hatt⟩ := (hr.edges u v _).1 ⟨e,he,hj,rfl⟩
   exact ⟨f,hf,hj,hatt ▸ hx⟩
 · obtain ⟨f,hf,hj,hatt⟩ := (hr.edges u v _).2 ⟨hu,hv,e,he,hj,rfl⟩
   exact (edgeAttr?_recast hi).2 f hf hj (hatt ▸ hx)

end

lemma Near.mono {step : NodeId → NodeId → Prop} (h : Near step r u v) (hrs : r ≤ s) :
 Near step s u v := by
 induction hrs with
 | refl => exact h
 | step _ ih => exact .inl ih

def part (g : Graph) (a : NodeId) (r : Int) : Graph :=
 (g.induced (g.ballNodes g.around a r).contains).relisted

lemma ball_eq (ha : a ∈ g.ids) (r : Int) : g.ball a r = .ok (g.part a r) := by
 rw [ball,ballBy,if_pos (hasNode_iff.2 ha)]
 rfl

lemma ballNodes_around (hg : g.Sound) (ha : a ∈ g.ids) (r : Nat) : (g.ballNodes g.around a r).Nodup ∧
 (∀ v ∈ g.ballNodes g.around a r, v ∈ g.ids) ∧ ∀ v, v ∈ g.ballNodes g.around a r ↔
  v ∈ g.within a r := by
 have hnext : ∀ u ∈ g.ids, ∀ v ∈ g.around u, v ∈ g.ids := fun u _ v hv =>
  (mem_around.1 hv).elim (fun h => (hg.of_hasEdge h).2) fun h => (hg.of_hasEdge h).1
 have hspec := ballNodes_spec ha hnext r
 simp only [mem_around] at hspec
 exact hspec

lemma mem_ballNodes (hg : g.Sound) (ha : a ∈ g.ids) (r : Nat) {n : NodeId} :
 n ∈ g.ids ∧ (g.ballNodes g.around a r).contains n ↔ n ∈ g.within a r := by
 obtain ⟨_,hids,hmem⟩ := ballNodes_around hg ha r
 rw [contains_iff_mem]
 exact ⟨fun h => (hmem n).1 h.2,fun h => ⟨hids n ((hmem n).2 h),(hmem n).2 h⟩⟩

lemma size_part (hg : g.Sound) (ha : a ∈ g.ids) (r : Nat) :
 (g.part a r).size = (g.within a r).ncard := by
 have hids : (g.part a r).ids.Nodup := (hg.induced _).ids
 have hset : g.within a r = ((g.part a r).ids.toFinset) := by
  ext n
  rw [coe_toFinset]
  exact (mem_ballNodes hg ha r).symm.trans mem_ids_induced.symm
 rw [hset,Set.ncard_coe_finset,toFinset_card_of_nodup hids,size_eq_length]

lemma within_zero (g : Graph) (a : NodeId) : g.within a 0 = {a} := Set.ext fun _ => eq_comm

lemma ncard_within_mono (hg : g.Sound) (ha : a ∈ g.ids) ⦃r s : Nat⦄ (hrs : r ≤ s) :
 ((g.within a r).ncard : Int) ≤ (g.within a s).ncard := by
 have hfin : (g.within a s).Finite :=
  (finite_toSet g.ids).subset fun n hn => ((mem_ballNodes hg ha s).2 hn).1
 exact Int.ofNat_le.2 (Set.ncard_le_ncard (fun n hn => Near.mono hn hrs) hfin)

end MotifMatch.Graph

namespace MotifMatch.Import
open MotifMatch.Graph
variable {g : Graph} {a : NodeId} {least most : Int} {k : Nat}

lemma resize_spec (ha : a ∈ g.ids) (unfit : Nat → Bool) (step : Int) (n : Nat) (r : Int) :
 ∃ j ≤ n, resize g a unfit step n ⟨r,g.part a r⟩ =
  .ok (n - j,⟨r + j * step,g.part a (r + j * step)⟩) ∧
  (∀ i < j, unfit (g.part a (r + i * step)).size) ∧
   (j < n → unfit (g.part a (r + j * step)).size = false) := by
 induction n generalizing r with
 | zero => exact ⟨0,le_rfl,by simp [resize],by simp,by simp⟩
 | succ n ih =>
  rw [resize]
  split
  · next hunf =>
    obtain ⟨j,hj,hrun,hall,hlast⟩ := ih (r + step)
    have hrad : ∀ i : Nat, r + step + i * step = r + (i + 1 : Nat) * step := fun i => by
     rw [Nat.cast_add_one,add_one_mul]
     omega
    rw [hrad] at hrun hlast
    refine ⟨j + 1,by omega,?_,fun i hi => ?_,fun h => hlast (by omega)⟩
    · simp only [ball_eq ha,Nat.add_sub_add_right]
      exact hrun
    · cases i with
      | zero => simpa using hunf
      | succ i => exact hrad i ▸ hall i (by omega)
  · next hfit => exact ⟨0,by omega,by simp,by simp,fun _ => by simpa using hfit⟩

lemma closest_of_steps {size : Nat → Int} {j₁ j₂ : Nat} (hmono : ∀ ⦃i j⦄, i ≤ j → size i ≤ size j)
 (hzero : size 0 ≤ most) (hk : k ≤ maxTries)
 (hj₁ : j₁ ≤ k) (hdown : ∀ i < j₁, most < size (k - i))
 (hdow' : j₁ < maxTries → size (k - j₁) ≤ most)
 (hj₂ : j₂ ≤ maxTries - j₁) (hup : ∀ i < j₂, size (k - j₁ + i) < least)
 (hup' : j₂ < maxTries - j₁ → least ≤ size (k - j₁ + j₂)) {r : Nat} (hr : r ≤ k + maxTries)
 (hlea : least ≤ size r)
 (hmost : size r ≤ most) : (least ≤ size (k - j₁ + j₂) ∧ size (k - j₁ + j₂) ≤ most) ∧
  (r ≠ k - j₁ + j₂ → ((k - j₁ + j₂ : Nat) - k : Int).natAbs < (r - k : Int).natAbs) := by
 unfold maxTries at *
 have hlow : size (k - j₁) ≤ most := by
  by_cases h : j₁ < 10
  · exact hdow' h
  · rwa [show k - j₁ = 0 by omega]
 rcases eq_zero_or_pos j₁ with rfl | hpos
 · rcases eq_zero_or_pos j₂ with rfl | hpos
   · exact ⟨⟨hup' (by omega),hlow⟩,by omega⟩
   · have hge : k + j₂ ≤ r := by
      by_contra hlt
      have hle : size r ≤ size (k - 0 + (j₂ - 1)) := hmono (by omega)
      have := hup (j₂ - 1) (by omega)
      omega
     have hle : size (k - 0 + j₂) ≤ size r := hmono (by omega)
     refine ⟨⟨?_,hle.trans hmost⟩,by omega⟩
     by_cases h : j₂ < 10
     · exact hup' h
     · rwa [show k - 0 + j₂ = r by omega]
 · have hrk : r ≤ k - j₁ := by
    by_contra hlt
    have hle : size (k - (j₁ - 1)) ≤ size r := hmono (by omega)
    have := hdown (j₁ - 1) (by omega)
    omega
   have hle : size r ≤ size (k - j₁) := hmono hrk
   obtain rfl : j₂ = 0 := by
    by_contra h
    have hfir : size (k - j₁) < least := hup 0 (by omega)
    omega
   exact ⟨⟨hlea.trans hle,hlow⟩,by omega⟩

theorem neighbourhood_closest (hg : g.Sound) (ha : a ∈ g.ids) (hk : k ≤ 10) (hlea : 1 ≤ least)
 (hmost : least ≤ most) :
 ∃ h, neighbourhood g a k least most = .ok h ∧
  (h.ids ≠ [] ↔ ∃ r ≤ k + 10, g.Admits a least most r) ∧
  (h.ids ≠ [] → ∃ r ≤ k + 10, g.Admits a least most r ∧ g.InducedOn (g.within a r) h ∧
   ∀ s ≤ k + 10, g.Admits a least most s → s ≠ r → (r - k : Int).natAbs < (s - k : Int).natAbs) ∧
  (h.ids = [] → h = .empty true) := by
 have hsiz := size_part hg ha
 have hzero : ((g.within a 0).ncard : Int) ≤ most := by
  rw [within_zero,Set.ncard_singleton]
  omega
 obtain ⟨j₁,hj₁,hrun₁,hdown,hdown'⟩ := resize_spec ha (fun n => most < n) (-1) maxTries k
 have hback : ∀ i ≤ k, (k : Int) + (i : Nat) * -1 = (k - i : Nat) := fun i hi => by omega
 have hle : j₁ ≤ k := by
  by_contra hlt
  have htop := hdown k (by omega)
  rw [hback k le_rfl,hsiz,Nat.sub_self] at htop
  simp only [decide_eq_true_eq] at htop
  omega
 rw [hback j₁ hle] at hrun₁ hdown'
 obtain ⟨j₂,hj₂,hrun₂,hup,hup'⟩ :=
  resize_spec ha (fun n => (n : Int) < least) 1 (maxTries - j₁) (k - j₁ : Nat)
 have hfor : ∀ i, ((k - j₁ : Nat) : Int) + (i : Nat) * 1 = (k - j₁ + i : Nat) := fun i => by omega
 simp only [hfor,hsiz,decide_eq_true_eq,decide_eq_false_iff_not,not_lt] at hrun₂ hdown' hup hup'
 have hdown : ∀ i < j₁, most < (g.within a (k - i)).ncard := fun i hi => by
  have htop := hdown i hi
  rw [hback i (by omega),hsiz] at htop
  exact of_decide_eq_true htop
 have hclo := fun {s : Nat} =>
  closest_of_steps (Graph.ncard_within_mono hg ha) hzero hk hle hdown hdown' hj₂ hup hup' (r := s)
 have hrea : k - j₁ + j₂ ≤ k + 10 := by
  unfold maxTries at hj₂
  omega
 have hrun : neighbourhood g a k least most = .ok (if most < (g.part a (k - j₁ + j₂ : Nat)).size ||
  ((g.part a (k - j₁ + j₂ : Nat)).size : Int) <
   least then .empty true else (g.part a (k - j₁ + j₂ : Nat)).recast true false) := by
  simp only [neighbourhood,ball_eq ha,hrun₁,hrun₂,bind,Except.bind]
  split <;> rfl
 refine ⟨_,hrun,?_⟩
 rw [hsiz]
 split
 · next hunf =>
   simp only [Bool.or_eq_true,decide_eq_true_eq] at hunf
   have hnone : ¬∃ r ≤ k + 10, g.Admits a least most r := by
    rintro ⟨r,hr,hadm⟩
    have := (hclo hr hadm.1 hadm.2).1
    omega
   have hids : (empty true).ids = [] := rfl
   exact ⟨iff_of_false (fun h => h hids) hnone,fun h => absurd hids h,fun _ => rfl⟩
 · next hfit =>
   simp only [Bool.or_eq_true,decide_eq_true_eq,not_or,not_lt] at hfit
   have hon := inducedOn_recast hg fun n => mem_ballNodes hg ha (k - j₁ + j₂) (n := n)
   have hne : ((g.part a (k - j₁ + j₂ : Nat)).recast true false).ids ≠ [] :=
    List.ne_nil_of_mem ((hon.ids a).2 (near_self a _))
   refine ⟨iff_of_true hne ⟨_,hrea,hfit.2,hfit.1⟩,fun _ => ?_,fun h => absurd h hne⟩
   exact ⟨_,hrea,⟨hfit.2,hfit.1⟩,hon,fun s hs hadm => (hclo hs hadm.1 hadm.2).2⟩

def lane : Graph where
 directed := true
 multi := true
 nodes := ⟨[(.num 0,.empty),(.num 1,.empty),(.num 2,.empty),(.num 3,.empty)]⟩
 edges := [⟨.num 0,.num 1,.int 0,.empty⟩,⟨.num 0,.num 1,.int 1,⟨[("label",.int 1)]⟩⟩,
  ⟨.num 2,.num 1,.int 0,.empty⟩,
  ⟨.num 2,.num 3,.int 0,.empty⟩]

lemma lane_sound : lane.Sound := by decide

theorem lane_narrowed : ∃ h, neighbourhood lane (.num 0) (3 : Nat) 2 3 = .ok h ∧ h.ids ≠ [] ∧
 lane.InducedOn (lane.within (.num 0) 2) h := by
 have ha : (.num 0) ∈ lane.ids := by decide
 have hsiz := size_part lane_sound ha
 have hadm : lane.Admits (.num 0) 2 3 2 := by
  rw [Admits,← hsiz]
  decide
 obtain ⟨h,hrun,hiff,hfou,_⟩ := @neighbourhood_closest lane (.num 0) 2 3 3 lane_sound ha (by decide)
  (by decide) (by decide)
 have hne := hiff.2 ⟨2,by decide,hadm⟩
 obtain ⟨r,_,hr,hon,hclo⟩ := hfou hne
 obtain rfl : r = 2 := by
  by_contra hoth
  have hnear := hclo 2 (by decide) hadm (Ne.symm hoth)
  obtain rfl : r = 3 := by omega
  rw [Admits,← hsiz] at hr
  exact absurd hr (by decide)
 exact ⟨h,hrun,hne,hon⟩

end MotifMatch.Import

namespace MotifMatch.Graph
open List Relation Int
variable {g h : Graph} {a m n : NodeId} {next : NodeId → List NodeId} {s : Set NodeId} {k r : Nat}

/-- The part with so many of the nodes that are joined to the anchor, those nearest to it. -/
structure Nucleus (g : Graph) (k : Nat) (h : Graph) : Prop where
 restricts : g.Restricts {n | n ∈ h.ids} h
 size : h.size = min k {n | ReflTransGen g.Meets g.anchor n}.ncard
 anchor : g.anchor ∈ h.ids
 connected : h.Connected
 nearest : ∀ m ∈ h.ids, ∀ n, n ∉ h.ids → ∀ r, Near g.Meets r g.anchor n → Near g.Meets r g.anchor m

lemma Restricts.meets (hr : g.Restricts s h) (hm : m ∈ s) (hn : n ∈ s) (h' : g.Meets m n) :
 h.Meets m n :=
 h'.imp (fun hmn => hr.hasEdge_iff.2 ⟨hm,hn,hmn⟩) fun hnm => hr.hasEdge_iff.2 ⟨hn,hm,hnm⟩

lemma Near.last {step : NodeId → NodeId → Prop} (h : Near step (r + 1) m n) :
 Near step r m n ∨ ∃ w, Near step r m w ∧ step w n := by
 induction r generalizing m with
 | zero => exact h.imp_right fun ⟨w,hw,hwn⟩ => ⟨m,rfl,hwn ▸ hw⟩
 | succ r ih =>
  rcases h with h | ⟨w,hw,h⟩
  · exact .inl h
  rcases ih h with h | ⟨x,hx,hxn⟩
  · exact .inl (.inr ⟨w,hw,h⟩)
  · exact .inr ⟨x,.inr ⟨w,hw,hx⟩,hxn⟩

lemma ballNodes_starts (g : Graph) (next : NodeId → List NodeId) (a : NodeId) (r : Nat) :
 g.ballNodes next a r <+: g.reached next a := by
 refine ⟨((g.layers next a).drop r).flatten.map Prod.snd,?_⟩
 rw [ballNodes,if_neg (not_lt.2 (natCast_nonneg r)),reached,
  cons_append,← map_append,← flatten_append,toNat_natCast,
  take_append_drop]

/-- Both a ball and what is kept are beginnings of the order in which nodes are reached. -/
lemma near_of_take (ha : a ∈ g.ids) (hnext : ∀ u ∈ g.ids, ∀ v ∈ next u, v ∈ g.ids)
 (hm : m ∈ (g.reached next a).take k)
 (hn : n ∉ (g.reached next a).take k) (hnear : Near (fun u v => v ∈ next u) r a n) :
  Near (fun u v => v ∈ next u) r a m := by
 have hball := (ballNodes_spec ha hnext r).2.2
 rcases prefix_or_prefix_of_prefix (g.ballNodes_starts next a r) ( take_prefix k _) with h | h
 · exact absurd (h.subset ((hball n).2 hnear)) hn
 · exact (hball m).1 (h.subset hm)

lemma connected_of_nearest (hr : g.Restricts {n | n ∈ h.ids} h) (ha : a ∈ h.ids)
 (hlin : ∀ n ∈ h.ids, ReflTransGen g.Meets a n)
 (hnea : ∀ m ∈ h.ids, ∀ n, n ∉ h.ids → ∀ r, Near g.Meets r a n → Near g.Meets r a m) :
  h.Connected := by
 have hall : ∀ r, ∀ n ∈ h.ids, Near g.Meets r a n → ReflTransGen h.Meets a n := by
  intro r
  induction r with
  | zero => exact fun n _ heq => heq ▸ .refl
  | succ r ih =>
   intro n hn hnear
   rcases hnear.last with hnear | ⟨w,hw,hwn⟩
   · exact ih n hn hnear
   by_cases hmem : w ∈ h.ids
   · exact (ih w hmem hw).tail (hr.meets hmem hn hwn)
   -- A neighbour that is left out is no nearer, so the node itself is as near.
   · exact ih n hn (hnea n hn w hmem r hw)
 have hfrom : ∀ n ∈ h.ids, ReflTransGen h.Meets a n := fun n hn =>
  have ⟨r,hnear⟩ := exists_near (hlin n hn)
  hall r n hn hnear
 exact ⟨ne_nil_of_mem ha,fun u hu v hv => (links_symm (hfrom u hu)).trans (hfrom v hv)⟩

lemma nucleus_of_order (hg : g.Sound) {order : List NodeId} (hnod : order.Nodup)
 (hsub : ∀ n ∈ order, n ∈ g.ids)
 (hrea : ∀ n, n ∈ order ↔ ReflTransGen g.Meets g.anchor n) (hanc : g.anchor ∈ order.take k)
 (hnear : ∀ m ∈ order.take k, ∀ n, n ∉ order.take k → ∀ r, Near g.Meets r g.anchor n →
  Near g.Meets r g.anchor m) :
 g.Nucleus k (g.induced (order.take k).contains).relisted := by
 have hmem : ∀ n, n ∈ (g.induced (order.take k).contains).relisted.ids ↔ n ∈ order.take k :=
  fun n => by
  refine mem_ids_induced.trans ?_
  rw [contains_iff_mem]
  exact and_iff_right_of_imp fun hn => hsub n (mem_of_mem_take hn)
 have hres : g.Restricts _ (g.induced (order.take k).contains).relisted :=
  restricts_relisted hg fun n => mem_ids_induced.symm
 simp only [← hmem] at hanc hnear
 refine ⟨hres,?_,hanc,connected_of_nearest hres hanc
  (fun n hn => (hrea n).1 (mem_of_mem_take ((hmem n).1 hn))) hnear,hnear⟩
 have hcomp : {n | ReflTransGen g.Meets g.anchor n} = order.toFinset := by
  ext n
  simp [hrea]
 rw [hcomp,Set.ncard_coe_finset,toFinset_card_of_nodup hnod,← length_take,size_eq_length]
 exact ((perm_ext_iff_of_nodup (hg.induced _).relisted.ids (hnod.sublist (take_sublist k _))).2
  hmem).length_eq

lemma core_ok (hg : g.Sound) (ha : g.anchor ∈ g.ids) (hk : 1 ≤ k) :
 ∃ h, g.core k = .ok h ∧ g.Nucleus k h := by
 obtain ⟨hnod,_,_,hedg⟩ := toUndirected_spec hg
 have hids : g.toUndirected.ids = g.ids := congrArg Table.keys hnod
 have hste : (fun u v => v ∈ g.toUndirected.neighbors u) = g.Meets := by
  funext u v
  rw [mem_neighbors_iff,hedg,Bool.or_eq_true,Meets]
 have hnext : ∀ u ∈ g.toUndirected.ids, ∀ v ∈ g.toUndirected.neighbors u, v ∈ g.toUndirected.ids :=
  fun u _ v hv => by
  rw [hids]
  exact (hste ▸ hv : g.Meets u v).elim (fun h => (hg.of_hasEdge h).2) fun h => (hg.of_hasEdge h).1
 rw [← hids] at ha
 obtain ⟨hnodu,hsub,hrea⟩ := reached_spec ha hnext
 rw [core,if_pos (hasNode_iff.2 ha)]
 refine ⟨_,rfl,?_⟩
 rw [if_neg (not_lt.2 (natCast_nonneg k)),toNat_natCast]
 obtain ⟨k,rfl⟩ := Nat.exists_eq_add_of_le' hk
 exact nucleus_of_order hg hnodu (hids ▸ hsub) (hste ▸ hrea) mem_cons_self fun m hm n hn r =>
  hste ▸ near_of_take ha hnext hm hn

variable {es : List (NodeId × NodeId)}

lemma ballNodes_succ (h : (g.layers next a)[k]? = some es) :
 g.ballNodes next a (k + 1 : Nat) = g.ballNodes next a k ++ es.map Prod.snd := by
 rw [ballNodes_nat,ballNodes_nat,take_add_one,h]
 simp

def Apart (g : Graph) (a n : NodeId) (d : Nat) : Prop := IsLeast {r | n ∈ g.within a r} d

lemma apart_self (g : Graph) (a : NodeId) : g.Apart a a 0 := ⟨rfl,fun _ _ => Nat.zero_le _⟩

lemma layer_apart (hg : g.Sound) (ha : a ∈ g.ids)
 (h : (g.layers g.around a)[k]? = some es) (hn : n ∈ es.map Prod.snd) : g.Apart a n (k + 1) := by
 obtain ⟨hnod,_,hmem⟩ := ballNodes_around hg ha (k + 1)
 rw [ballNodes_succ h] at hnod hmem
 refine ⟨(hmem n).1 (mem_append_right _ hn),fun r hr => ?_⟩
 by_contra hlt
 have hold := ((ballNodes_around hg ha k).2.2 n).2 (Near.mono hr (by omega))
 exact (nodup_append.1 hnod).2.2 n hold n hn rfl

lemma parent_mem_layer {seen layer : List NodeId} {e : NodeId × NodeId}
 (h : e ∈ nextLayer next seen layer) : e.1 ∈ layer := by
 induction layer generalizing seen with
 | nil => simp [nextLayer] at h
 | cons u layer ih =>
  rcases mem_append.1 h with h | h
  · obtain ⟨v,_,rfl⟩ := mem_map.1 h
    exact mem_cons_self
  · exact mem_cons_of_mem _ (ih h)

lemma layersFrom_parents {fuel : Nat} {seen layer : List NodeId}
 (h : (layersFrom next fuel seen layer)[k]? = some es) :
 ∃ ps, (layer :: (layersFrom next fuel seen layer).map (map Prod.snd))[k]? = some ps ∧
  ∀ e ∈ es, e.1 ∈ ps := by
 induction fuel generalizing seen layer k with
 | zero => simp [layersFrom] at h
 | succ fuel ih =>
  rw [layersFrom] at h ⊢
  split at h
  · simp at h
  · next hne =>
    cases k with
    | zero => exact ⟨layer,rfl,fun e he => parent_mem_layer (Option.some.inj h ▸ he)⟩
    | succ k => simpa using ih h

lemma layer_parent {e : NodeId × NodeId} (h : (g.layers next a)[k]? = some es) (he : e ∈ es) :
 e.1 = a ∧ k = 0 ∨ ∃ j ps, k = j + 1 ∧ (g.layers next a)[j]? = some ps ∧ e.1 ∈ ps.map Prod.snd := by
 obtain ⟨ps,hps,hmem⟩ := layersFrom_parents h
 cases k with
 | zero => exact .inl ⟨mem_singleton.1 (Option.some.inj hps ▸ hmem e he),rfl⟩
 | succ j =>
  rw [getElem?_cons_succ,getElem?_map,Option.map_eq_some_iff] at hps
  obtain ⟨qs,hqs,rfl⟩ := hps
  exact .inr ⟨j,qs,rfl,hqs,hmem e he⟩

lemma layer_induction {P : NodeId → Prop} (ha : P a)
 (hstep : ∀ e ∈ (g.layers next a).flatten, P e.1 → P e.2)
 (h : (g.layers next a)[k]? = some es) : ∀ e ∈ es, P e.2 := by
 induction k using Nat.strong_induction_on generalizing es with
 | h k ih =>
  intro e he
  refine hstep e (mem_flatten.2 ⟨es,mem_of_getElem? h,he⟩) ?_
  rcases layer_parent h he with ⟨heq,_⟩ | ⟨j,ps,rfl,hps,hmem⟩
  · exact heq ▸ ha
  · obtain ⟨f,hf,heq⟩ := mem_map.1 hmem
    exact heq ▸ ih j (Nat.lt_succ_self j) hps f hf

/-- A tree whose edges lead one step further away from its root, to every node that can be reached.
-/
structure Spans (g : Graph) (a : NodeId) (tree : List (NodeId × NodeId)) : Prop where
 once : (a :: tree.map Prod.snd).Nodup
 further : ∀ e ∈ tree, ∀ d, g.Apart a e.1 d → g.Apart a e.2 (d + 1)
 all : ∀ n d, g.Apart a n d → ∀ P : NodeId → Prop, P a → (∀ e ∈ tree, P e.1 → P e.2) → P n

lemma spans_spanningTree (hg : g.Sound) (ha : a ∈ g.ids) : g.Spans a (g.spanningTree a) := by
 refine ⟨?_,fun e he d hd => ?_,fun n d hn P hP hstep => ?_⟩
 · have h := (ballNodes_around hg ha (g.layers g.around a).length).1
   rwa [ballNodes_nat,take_length] at h
 · obtain ⟨es,hes,hin⟩ := mem_flatten.1 he
   obtain ⟨i,hi⟩ := mem_iff_getElem?.1 hes
   have hpar : g.Apart a e.1 i := by
    rcases layer_parent hi hin with ⟨heq,rfl⟩ | ⟨j,ps,rfl,hps,hmem⟩
    · exact heq ▸ apart_self g a
    · exact layer_apart hg ha hps hmem
   exact hd.unique hpar ▸ layer_apart hg ha hi (mem_map_of_mem hin)
 · have hball := ((ballNodes_around hg ha d).2.2 n).2 hn.1
   rw [ballNodes_nat] at hball
   rcases mem_cons.1 hball with rfl | hball
   · exact hP
   · obtain ⟨e,he,rfl⟩ := mem_map.1 hball
     obtain ⟨es,hes,hin⟩ := mem_flatten.1 he
     obtain ⟨i,hi⟩ := mem_iff_getElem?.1 (mem_of_mem_take hes)
     exact layer_induction hP hstep hi e hin

section Descent
variable {tree : List (NodeId × NodeId)} {popped stack : List (NodeId × Nat)} {u : NodeId}
 {d deepest fuel : Nat}

/-- A descent over the tree, halfway: the nodes popped so far and those that wait, with their
depths. -/
structure Plumbing (g : Graph) (a : NodeId) (tree : List (NodeId × NodeId)) (fuel : Nat)
 (popped stack : List (NodeId × Nat))
 (deepest : Nat) : Prop where
 once : ((stack ++ popped).map Prod.fst).Nodup
 apart : ∀ e ∈ stack ++ popped, g.Apart a e.1 e.2
 origin : ∀ e ∈ stack ++ popped, e.1 = a ∨ ∃ p ∈ popped, (p.1,e.1) ∈ tree
 start : a ∈ (stack ++ popped).map Prod.fst
 closed : ∀ p ∈ popped, ∀ v, (p.1,v) ∈ tree → v ∈ (stack ++ popped).map Prod.fst
 bound : ∀ p ∈ popped, p.2 ≤ deepest
 met : deepest = 0 ∨ ∃ p ∈ popped, p.2 = deepest
 enough : tree.length < fuel + popped.length

lemma Plumbing.step (ht : g.Spans a tree)
 (h : Plumbing g a tree (fuel + 1) popped ((u,d) :: stack) deepest) :
 Plumbing g a tree fuel ((u,d) :: popped)
  (((tree.filter fun e => e.1 == u).map fun e => (e.2,d + 1)).reverse ++ stack) (max deepest d) := by
 generalize hbel : (tree.filter fun e => e.1 == u).map (fun e => (e.2,d + 1)) = below
 have hmem : ∀ e, e ∈ below ↔ (u,e.1) ∈ tree ∧ e.2 = d + 1 := by
  rintro ⟨w,k⟩
  subst hbel
  simp [and_comm,eq_comm (a := k)]
 have hper : (below.reverse ++ stack ++ (u,d) :: popped).Perm (below ++
  ((u,d) :: stack ++ popped)) := by
  rw [append_assoc]
  exact (reverse_perm below).append perm_middle
 obtain ⟨ha,htree⟩ := nodup_cons.1 ht.once
 have hpop : ∀ {p}, p ∈ popped → p ∈ (u,d) :: popped := mem_cons_of_mem _
 refine ⟨?_,fun e he => ?_,fun e he => ?_,?_,fun p hp v hv => ?_,fun p hp => ?_,?_,?_⟩
 · rw [(hper.map Prod.fst).nodup_iff,map_append]
   refine nodup_append.2 ⟨?_,h.once,fun v hv w hw heq => ?_⟩
   · rw [← hbel,List.map_map]
     exact htree.sublist (filter_sublist.map Prod.snd)
   · subst heq
     obtain ⟨e,he,rfl⟩ := mem_map.1 hv
     obtain ⟨f,hf,heq⟩ := mem_map.1 hw
     have hedge := ((hmem e).1 he).1
     rcases heq ▸ h.origin f hf with heq | ⟨p,hp,hedge'⟩
     · exact ha (heq ▸ mem_map_of_mem hedge)
     · have hsame := inj_on_of_nodup_map htree hedge hedge' rfl
       refine (nodup_cons.1 h.once).1 (mem_map.2 ⟨p,mem_append_right _ hp,?_⟩)
       exact (congrArg Prod.fst hsame).symm
 · rcases mem_append.1 (hper.mem_iff.1 he) with he | he
   · obtain ⟨hedge,heq⟩ := (hmem e).1 he
     exact heq ▸ ht.further _ hedge d (h.apart (u,d) mem_cons_self)
   · exact h.apart e he
 · rcases mem_append.1 (hper.mem_iff.1 he) with he | he
   · exact .inr ⟨_,mem_cons_self,((hmem e).1 he).1⟩
   · exact (h.origin e he).imp_right fun ⟨p,hp,hedge⟩ => ⟨p,hpop hp,hedge⟩
 · rw [(hper.map Prod.fst).mem_iff,map_append]
   exact mem_append_right _ h.start
 · rw [(hper.map Prod.fst).mem_iff,map_append]
   rcases mem_cons.1 hp with rfl | hp
   · exact mem_append_left _ (mem_map.2 ⟨(v,d + 1),(hmem _).2 ⟨hv,rfl⟩,rfl⟩)
   · exact mem_append_right _ (h.closed p hp v hv)
 · rcases mem_cons.1 hp with rfl | hp
   · exact le_max_right _ _
   · exact (h.bound p hp).trans (le_max_left _ _)
 · rcases le_total deepest d with hle | hle
   · exact .inr ⟨(u,d),mem_cons_self,(max_eq_right hle).symm⟩
   · rw [max_eq_left hle]
     exact h.met.imp_right fun ⟨p,hp,heq⟩ => ⟨p,hpop hp,heq⟩
 · have := h.enough
   rw [length_cons]
   omega

lemma Plumbing.run (ht : g.Spans a tree) (h : Plumbing g a tree fuel popped stack deepest) :
 ∃ popped' fuel', Plumbing g a tree fuel' popped' [] (plumb tree fuel stack deepest) := by
 induction fuel generalizing popped stack deepest with
 | zero =>
  -- every node on the stack or popped before is another node of the tree, so nothing can wait any more
  have hsub : (stack ++ popped).map Prod.fst ⊆ a :: tree.map Prod.snd := fun v hv => by
   obtain ⟨e,he,rfl⟩ := mem_map.1 hv
   rcases h.origin e he with heq | ⟨p,_,hedge⟩
   · exact heq ▸ mem_cons_self
   · exact mem_cons_of_mem _ (mem_map_of_mem hedge)
  have hle := (subperm_of_subset h.once hsub).length_le
  simp only [map_append,length_append,length_map,length_cons] at hle
  have hlen := h.enough
  obtain rfl : stack = [] := length_eq_zero_iff.1 (by omega)
  exact ⟨popped,0,h⟩
 | succ fuel ih =>
  cases stack with
  | nil => exact ⟨popped,fuel + 1,h⟩
  | cons e stack => exact ih (h.step ht)

lemma Plumbing.greatest (ht : g.Spans a tree) (h : Plumbing g a tree fuel popped [] deepest) :
 IsGreatest {d | ∃ v, g.Apart a v d} deepest := by
 constructor
 · rcases h.met with rfl | ⟨p,hp,rfl⟩
   · exact ⟨a,apart_self g a⟩
   · exact ⟨p.1,h.apart p hp⟩
 · rintro d ⟨v,hv⟩
   obtain ⟨p,hp,rfl⟩ := mem_map.1 (ht.all v d hv (· ∈ popped.map Prod.fst) h.start fun e he hpar => by
    obtain ⟨p,hp,heq⟩ := mem_map.1 hpar
    exact h.closed p hp e.2 (heq ▸ he))
   exact hv.unique (h.apart p hp) ▸ h.bound p hp

end Descent

theorem spanningRadius_eccentric (hg : g.Sound) (ha : a ∈ g.ids) :
 ∃ r, g.spanningRadius a = .ok r ∧ IsGreatest {d | ∃ n, g.Apart a n d} r := by
 have htree := spans_spanningTree hg ha
 have hbeg : Plumbing g a (g.spanningTree a) ((g.spanningTree a).length + 1) [] [(a,0)] 0 := {
   once := by simp
   apart := by simp [apart_self]
   origin := by simp
   start := by simp
   closed := by simp
   bound := by simp
   met := .inl rfl
   enough := by simp }
 obtain ⟨popped,fuel,hend⟩ := hbeg.run htree
 exact ⟨_,if_pos (hasNode_iff.2 ha),hend.greatest htree⟩

theorem lane_eccentric : Import.lane.spanningRadius (.num 0) = .ok 3 ∧
 IsGreatest {d | ∃ n, Import.lane.Apart (.num 0) n d} 3 := by
 obtain ⟨r,hr,hmax⟩ :=
  spanningRadius_eccentric Import.lane_sound (by decide : .num 0 ∈ Import.lane.ids)
 have hval : Import.lane.spanningRadius (.num 0) = .ok 3 := by decide
 cases hval.symm.trans hr
 exact ⟨hval,hmax⟩

end MotifMatch.Graph

namespace MotifMatch.PatternSet
variable {s : PatternSet} {p : PatternSample} {g h : Graph} {i : Nat}

def sides (s : PatternSet) (p : PatternSample) : Graph × Graph :=
 if s.queriesArePatterns then (p.source,p.pattern) else (p.pattern,p.source)

def Fits (room : Nat) (g h : Graph) : Prop :=
 h.size ≤ room ∧ if g.size ≤ room then h = g else g.Nucleus room h

lemma sampleAt_eq (hp : s.samples[i]? = some p) : s.sampleAt i = s.judge p := by
 have hneg : ¬ (i : Int) < 0 := by omega
 simp only [sampleAt,hneg,if_false,Int.toNat_natCast,hp]

lemma sampleAt_ok (hp : s.samples[i]? = some p) (hg : (s.sides p).2.Sound)
 (ha : (s.sides p).2.anchor ∈ (s.sides p).2.ids)
 (hrel : 1 ≤ s.relation) (hroom : s.relation ≤ (s.sides p).1.size) :
 ∃ q, s.sampleAt i = .ok ⟨(s.sides p).1,q,metaOf p⟩ ∧
  Fits ((s.sides p).1.size / s.relation.toNat) (s.sides p).2 q := by
 obtain ⟨rel,hre⟩ := Int.eq_ofNat_of_zero_le (by omega : 0 ≤ s.relation)
 rw [hre] at hrel hroom
 have hroom : 1 ≤ (s.sides p).1.size / rel := Nat.div_pos (by omega) (by omega)
 have hjud : s.judge p = do
   let q ← if (((s.sides p).1.size / rel : Nat) : Int) < (s.sides p).2.size then
     (s.sides p).2.core ((s.sides p).1.size / rel : Nat) else pure (s.sides p).2
   return ⟨(s.sides p).1,q,metaOf p⟩ := by
  rw [judge,hre,if_neg (by omega)]
  unfold sides
  cases s.queriesArePatterns <;> simp [Int.fdiv_eq_ediv_of_nonneg]
 rw [sampleAt_eq hp,hjud,hre,Int.toNat_natCast]
 split
 · next hlar =>
   obtain ⟨h,hcore,hnuc⟩ := Graph.core_ok hg ha hroom
   refine ⟨h,by rw [hcore]; rfl,hnuc.size ▸ min_le_left ..,?_⟩
   rwa [if_neg (by omega)]
 · next hsma => exact ⟨_,rfl,by omega,by rw [if_pos (by omega)]⟩

theorem queries_cut_to_nearest (hg : g.Sound) (ha : g.anchor ∈ g.ids) :
 (∀ k : Nat, 1 ≤ k → ∃ h, g.core k = .ok h ∧ g.Nucleus k h) ∧
 ∀ (s : PatternSet) (p : PatternSample) (i : Nat), s.samples[i]? = some p → (s.sides p).2 = g →
  1 ≤ s.relation →
  s.relation ≤ (s.sides p).1.size →
  ∃ q, s.sampleAt i = .ok ⟨(s.sides p).1,q,metaOf p⟩ ∧
   Fits ((s.sides p).1.size / s.relation.toNat) g q := by
 refine ⟨fun k => Graph.core_ok hg ha,fun s p i hp heq => ?_⟩
 subst heq
 exact sampleAt_ok hp hg ha

def bridge : Graph where
 directed := true
 multi := false
 nodes := ⟨[(.num 0,.empty),(.num 1,⟨[("label",.int 1)]⟩),(.num 2,⟨[("anchor",.int 1)]⟩),
  (.num 3,.empty)]⟩
 edges := [⟨.num 0,.num 1,.none,.empty⟩,⟨.num 1,.num 2,.none,.empty⟩,⟨.num 3,.num 0,.none,.empty⟩]

def bridgeSample : PatternSample :=
 { (default : PatternSample) with source := bridge, pattern := bridge }

theorem bridge_halved : ∃ q, { (default : PatternSet) with relation := 2, samples := [bridgeSample] }.sampleAt 0 =
 .ok ⟨bridge,q,metaOf bridgeSample⟩ ∧ q.size ≤ 2 ∧ bridge.Nucleus 2 q := by
 have hg : bridge.Sound := by decide
 have ha : bridge.anchor ∈ bridge.ids := by decide +kernel
 obtain ⟨q,hrun,hle,hcut⟩ := (queries_cut_to_nearest hg ha).2
  { (default : PatternSet) with relation := 2, samples := [bridgeSample] }
  bridgeSample 0 rfl rfl (by decide) (by decide)
 exact ⟨q,hrun,hle,hcut⟩

end MotifMatch.PatternSet
