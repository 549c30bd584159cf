import Mathlib.Combinatorics.SimpleGraph.Acyclic
import MotifMatch.Proofs.Graphs

namespace MotifMatch
open Nat Fintype

def Graph.skeleton (g : Graph) : SimpleGraph {n // n ∈ g.ids} where
 Adj u v := u ≠ v ∧ (g.hasEdge u v = true ∨ g.hasEdge v u = true)
 symm := ⟨fun _ _ h => ⟨h.1.symm,h.2.symm⟩⟩
 loopless := ⟨fun _ h => h.1 rfl⟩

namespace Normal
variable {V : Type} {G : SimpleGraph V} {root : V} {depth : V → Nat} {parent : V → V}

lemma connected_of_parent (hd : ∀ v, v ≠ root → depth (parent v) < depth v)
 (hadj : ∀ v, v ≠ root → G.Adj v (parent v)) : G.Connected := by
 have hrea : ∀ n v, depth v = n → G.Reachable v root := by
  intro n
  induction n using Nat.strong_induction_on with
  | h n ih =>
   intro v hv
   by_cases hroot : v = root
   · rw [hroot]
   · exact (hadj v hroot).reachable.trans (ih _ (hv ▸ hd v hroot) (parent v) rfl)
 have : Nonempty V := ⟨root⟩
 exact ⟨fun u v => (hrea _ u rfl).trans (hrea _ v rfl).symm⟩

lemma isTree_of_parent [Finite V] (depth : V → Nat) (hd : ∀ v, v ≠ root → depth (parent v) < depth v)
 (hadj : ∀ u v, G.Adj u v ↔ (u ≠ root ∧ parent u = v) ∨ (v ≠ root ∧ parent v = u)) : G.IsTree := by
 have hup : ∀ v, v ≠ root → G.Adj v (parent v) := fun v hv => (hadj _ _).2 (.inl ⟨hv,rfl⟩)
 rw [SimpleGraph.isTree_iff_connected_and_card]
 refine ⟨connected_of_parent hd hup,?_⟩
 -- the edges correspond to the nodes other than the root
 let edge (v : {v // v ≠ root}) : G.edgeSet := ⟨s(v.1,parent v.1),hup v.1 v.2⟩
 have hinj : Function.Injective edge := by
  rintro ⟨u,hu⟩ ⟨v,hv⟩ h
  have hs : s(u,parent u) = s(v,parent v) := congrArg Subtype.val h
  rcases Sym2.eq_iff.1 hs with ⟨h1,_⟩ | ⟨h1,h2⟩
  · exact Subtype.ext h1
  · have h3 := hd u hu
    have h4 := hd v hv
    rw [h2] at h3
    rw [← h1] at h4
    omega
 have hsurj : Function.Surjective edge := by
  rintro ⟨e,he⟩
  induction e using Sym2.inductionOn with
  | _ u v =>
   rcases (hadj u v).1 he with ⟨hu,rfl⟩ | ⟨hv,rfl⟩
   · exact ⟨⟨u,hu⟩,rfl⟩
   · exact ⟨⟨v,hv⟩,Subtype.ext Sym2.eq_swap⟩
 have hcard :=
  card_congr (Equiv.ofBijective edge ⟨hinj,hsurj⟩)
 have : Fintype V := ofFinite V
 classical
 rw [← hcard,card_eq_fintype_card,card_eq_fintype_card,card_subtype_compl,
  card_subtype_eq]
 have hpos : 0 < card V := card_pos_iff.2 ⟨root⟩
 omega

variable {α : Type} {g : Graph} {word : NodeId → List α}

def Prolongs (v w : List α) : Prop := ∃ x, w = v ++ [x]

structure Trie (g : Graph) (word : NodeId → List α) : Prop where
 inj : ∀ u ∈ g.ids, ∀ v ∈ g.ids, word u = word v → u = v
 joined : ∀ u ∈ g.ids, ∀ v ∈ g.ids, g.hasEdge u v = true ∨ g.hasEdge v u = true ↔
  Prolongs (word u) (word v) ∨ Prolongs (word v) (word u)
 root : ∃ r ∈ g.ids, (word r).length = 1 ∧ ∀ v ∈ g.ids, word r <+: word v
 parent : ∀ v ∈ g.ids, 2 ≤ (word v).length → ∃ u ∈ g.ids, Prolongs (word u) (word v)

lemma Prolongs.length {v w : List α} (h : Prolongs v w) : w.length = v.length + 1 := by
 obtain ⟨x,rfl⟩ := h
 simp

lemma Prolongs.dropLast {v w : List α} (h : Prolongs v w) : v = w.dropLast := by
 obtain ⟨x,rfl⟩ := h
 simp

structure Carries (g : Graph) (held : List α → Prop) (node : List α → NodeId)
 (word : NodeId → List α) : Prop where
 back : ∀ w, held w → word (node w) = w
 ids : ∀ n, n ∈ g.ids ↔ ∃ w, held w ∧ n = node w
 root : ∃ l, held [l] ∧ ∀ w, held w → [l] <+: w
 closed : ∀ w l, held (w ++ [l]) → w ≠ [] → held w
 joined : ∀ u v, held u → held v → (g.hasEdge (node u) (node v) = true ∨
  g.hasEdge (node v) (node u) = true ↔
  Prolongs u v ∨ Prolongs v u)

lemma Carries.trie {held : List α → Prop} {node : List α → NodeId} (h : Carries g held node word) :
 Trie g word where
 inj := by
  intro u hu v hv huv
  obtain ⟨x,hx,rfl⟩ := (h.ids u).1 hu
  obtain ⟨y,hy,rfl⟩ := (h.ids v).1 hv
  rw [h.back x hx,h.back y hy] at huv
  rw [huv]
 joined := by
  intro u hu v hv
  obtain ⟨x,hx,rfl⟩ := (h.ids u).1 hu
  obtain ⟨y,hy,rfl⟩ := (h.ids v).1 hv
  rw [h.back x hx,h.back y hy]
  exact h.joined x y hx hy
 root := by
  obtain ⟨l,hl,hpre⟩ := h.root
  refine ⟨node [l],(h.ids _).2 ⟨[l],hl,rfl⟩,by rw [h.back _ hl]; rfl,?_⟩
  intro v hv
  obtain ⟨w,hw,rfl⟩ := (h.ids v).1 hv
  rw [h.back _ hl,h.back w hw]
  exact hpre w hw
 parent := by
  intro v hv hlen
  obtain ⟨w,hw,rfl⟩ := (h.ids v).1 hv
  rw [h.back w hw] at hlen ⊢
  have hne : w ≠ [] := by
   rintro rfl
   simp at hlen
  obtain ⟨u,l,rfl⟩ : ∃ u l, w = u ++ [l] := ⟨_,_,(List.dropLast_append_getLast hne).symm⟩
  have hu : u ≠ [] := by
   rintro rfl
   simp at hlen
  have hheld := h.closed u l hw hu
  refine ⟨node u,(h.ids _).2 ⟨u,hheld,rfl⟩,l,?_⟩
  rw [h.back u hheld]

lemma Trie.length_pos (h : Trie g word) {v : NodeId} (hv : v ∈ g.ids) : 0 < (word v).length := by
 obtain ⟨r,_,hlen,hpre⟩ := h.root
 have := (hpre v hv).length_le
 omega

lemma Trie.eq_root (h : Trie g word) {r v : NodeId} (hr : r ∈ g.ids) (hlen : (word r).length = 1)
 (hv : v ∈ g.ids)
 (hsho : (word v).length ≤ 1) : v = r := by
 obtain ⟨s,_,hs,hpre⟩ := h.root
 have hpos := h.length_pos hv
 have hsv := (hpre v hv).eq_of_length (by omega)
 have hsr := (hpre r hr).eq_of_length (by omega)
 exact h.inj v hv r hr (hsv.symm.trans hsr)

lemma Trie.isTree (h : Trie g word) : g.skeleton.IsTree := by
 classical
 obtain ⟨r,hr,hlen,hpre⟩ := h.root
 have hlong : ∀ v : {n // n ∈ g.ids}, v ≠ ⟨r,hr⟩ → 2 ≤ (word v.1).length := by
  rintro ⟨v,hv⟩ hne
  by_contra hsho
  have hpos := h.length_pos hv
  have heq : word r = word v := (hpre v hv).eq_of_length (by rw [hlen]; simp only at hsho; omega)
  exact hne (Subtype.ext (h.inj v hv r hr heq.symm))
 have hpar : ∀ v : {n // n ∈ g.ids}, ∃ u :
  {n // n ∈ g.ids}, v ≠ ⟨r,hr⟩ → Prolongs (word u.1) (word v.1) := by
  intro v
  by_cases hv : v = ⟨r,hr⟩
  · exact ⟨v,fun hne => absurd hv hne⟩
  · obtain ⟨u,hu,hpro⟩ := h.parent v.1 v.2 (hlong v hv)
    exact ⟨⟨u,hu⟩,fun _ => hpro⟩
 choose parent hpro using hpar
 have huniq : ∀ {u v : {n // n ∈ g.ids}}, Prolongs (word u.1) (word v.1) → v ≠ ⟨r,hr⟩ ∧
  parent v = u := by
  intro u v huv
  have hne : v ≠ ⟨r,hr⟩ := by
   rintro rfl
   have h1 := huv.length
   have h2 := h.length_pos u.2
   simp only [hlen] at h1
   omega
  exact ⟨hne,Subtype.ext (h.inj _ (parent v).2 _ u.2
   ((hpro v hne).dropLast.trans huv.dropLast.symm))⟩
 have : Finite {n // n ∈ g.ids} := (List.finite_toSet g.ids).to_subtype
 have hdep : ∀ v, v ≠ ⟨r,hr⟩ → (word (parent v).1).length < (word v.1).length := by
  intro v hv
  have := (hpro v hv).length
  omega
 refine isTree_of_parent (fun v => (word v.1).length) hdep ?_
 intro u v
 have hjoin := h.joined u.1 u.2 v.1 v.2
 constructor
 · rintro ⟨_,hedge⟩
   rcases hjoin.1 hedge with huv | hvu
   · exact .inr (huniq huv)
   · exact .inl (huniq hvu)
 · rintro (⟨hu,rfl⟩ | ⟨hv,rfl⟩)
   · refine ⟨?_,hjoin.2 (.inr (hpro u hu))⟩
     intro heq
     have h1 := (hpro u hu).length
     rw [← heq] at h1
     omega
   · refine ⟨?_,hjoin.2 (.inl (hpro v hv))⟩
     intro heq
     have h1 := (hpro v hv).length
     rw [heq] at h1
     omega

end Normal
end MotifMatch
