import MotifMatch.Proofs.Tries
import MotifMatch.Proofs.Walks

namespace MotifMatch.Normal
open List Nat

structure AnchorPath (t : Graph) (p : List NodeId) : Prop where
 start : p[0]? = some t.anchor
 mem : ∀ n ∈ p, n ∈ t.ids
 joined : ∀ (i : Nat) (u v : NodeId), p[i]? = some u → p[i + 1]? = some v →
  t.hasEdge u v = true ∨ t.hasEdge v u = true
 simple : p.Nodup

def Reads (t : Graph) (n : NodeId) (s : String) : Prop :=
 ∃ p, AnchorPath t p ∧ p.getLast? = some n ∧ t.labelText p = s

def Spells (t : Graph) (s : String) : Prop := ∃ n, Reads t n s

structure HoldsTexts (t : Graph) (texts : String → Prop) : Prop where
 isTree : t.skeleton.IsTree
 reached : ∀ n ∈ t.ids, ∃ s, Reads t n s
 spells : ∀ s, Spells t s ↔ texts s
 once : ∀ s m n, Reads t m s → Reads t n s → m = n

structure Rising {α : Type} (t : Graph) (word : NodeId → List α) : Prop where
 trie : Trie t word
 anchor : t.anchor ∈ t.ids
 root : (word t.anchor).length = 1

structure Scripted {α : Type} (t : Graph) (word : NodeId → List α) (char : α → Char) :
 Prop extends Rising t word where
 label : ∀ n ∈ t.ids, ∃ v x, t.nodeAttr? n "label" = some v ∧ (word n).getLast? = some x ∧
  v.text.toList = [char x]

variable {α : Type} {t : Graph} {word : NodeId → List α} {char : α → Char} {p : List NodeId}
 {n : NodeId}

lemma AnchorPath.ne_nil (hp : AnchorPath t p) : p ≠ [] := by
 rintro rfl
 simpa using hp.start

lemma anchorPath_singleton (h : t.anchor ∈ t.ids) : AnchorPath t [t.anchor] where
 start := rfl
 mem := by simpa using h
 joined := by simp
 simple := by simp

lemma AnchorPath.take (hp : AnchorPath t p) {k : Nat} (hk : 0 < k) : AnchorPath t (p.take k) where
 start := by
  rw [getElem?_take_of_lt hk]
  exact hp.start
 mem := fun x hx => hp.mem x (mem_of_mem_take hx)
 joined := by
  intro j x y hx hy
  have hj := lt_length hy
  rw [length_take] at hj
  rw [getElem?_take_of_lt (by omega)] at hx hy
  exact hp.joined j x y hx hy
 simple := hp.simple.sublist (take_sublist _ _)

lemma AnchorPath.init (hne : p ≠ []) (hp : AnchorPath t (p ++ [n])) : AnchorPath t p := by
 simpa using hp.take (length_pos_iff.2 hne)

lemma AnchorPath.concat (hp : AnchorPath t p) {u : NodeId} (hu : p.getLast? = some u)
 (hn : n ∈ t.ids)
 (hnew : n ∉ p) (hjoin : t.hasEdge u n ∨ t.hasEdge n u) : AnchorPath t (p ++ [n]) where
 start := by
  rw [getElem?_append_left (length_pos_iff.2 hp.ne_nil)]
  exact hp.start
 mem := by
  intro x hx
  rcases mem_append.1 hx with hx | hx
  · exact hp.mem x hx
  · rw [mem_singleton.1 hx]
    exact hn
 joined := by
  refine isChain_iff_places.1 (isChain_append.2 ⟨isChain_iff_places.2 hp.joined,.singleton n,?_⟩)
  simpa [hu] using hjoin
 simple := nodup_append.2 ⟨hp.simple,by simp,fun x hx y hy => by
  rw [mem_singleton.1 hy]
  exact fun hxy => hnew (hxy ▸ hx)⟩

section
variable (h : Rising t word)
include h

lemma AnchorPath.descends (hp : AnchorPath t p) (i : Nat) :
 ∀ u v, p[i]? = some u → p[i + 1]? = some v → Prolongs (word u) (word v) := by
 have hmem : ∀ {j : Nat} {x : NodeId}, p[j]? = some x → x ∈ t.ids := fun hx =>
  hp.mem _ (mem_of_getElem? hx)
 induction i with
 | zero =>
  intro u v hu hv
  obtain rfl : u = t.anchor := Option.some.inj (hu.symm.trans hp.start)
  rcases (h.trie.joined _ (hmem hu) _ (hmem hv)).1 (hp.joined 0 _ _ hu hv) with hpro | hpro
  · exact hpro
  · have hlong := hpro.length
    have hpos := h.trie.length_pos (hmem hv)
    rw [h.root] at hlong
    omega
 | succ i ih =>
  intro u v hu hv
  have hlt := lt_length hu
  obtain ⟨x,hx⟩ : ∃ x, p[i]? = some x := ⟨_,getElem?_eq_getElem (by omega)⟩
  rcases (h.trie.joined _ (hmem hu) _ (hmem hv)).1 (hp.joined (i + 1) _ _ hu hv) with hpro | hpro
  · exact hpro
  · -- going up again would lead back to the node before
    have hsame : x = v := h.trie.inj x (hmem hx) v (hmem hv)
     ((ih x u hx hu).dropLast.trans hpro.dropLast.symm)
    have hij := (getElem?_inj (by omega) hp.simple).1 (hx.trans (hsame ▸ hv.symm))
    omega

lemma AnchorPath.last_prolongs {u : NodeId} (hp : AnchorPath t (p ++ [n]))
 (hu : p.getLast? = some u) : Prolongs (word u) (word n) := by
 rw [getLast?_eq_getElem?] at hu
 have hlt := lt_length hu
 refine hp.descends h (p.length - 1) u n ?_ ?_
 · rw [getElem?_append_left hlt]
   exact hu
 · rw [show p.length - 1 + 1 = p.length by omega,getElem?_append_right (le_refl _)]
   simp

lemma AnchorPath.init_eq_nil_iff (hp : AnchorPath t (p ++ [n])) : p = [] ↔ n = t.anchor := by
 constructor
 · rintro rfl
   simpa using hp.start
 · rintro rfl
   by_contra hne
   obtain ⟨u,hu⟩ : ∃ u, p.getLast? = some u := ⟨_,getLast?_eq_some_getLast hne⟩
   have hpro := hp.last_prolongs h hu
   have hpos := h.trie.length_pos (hp.mem u (by simp [mem_of_getLast? hu]))
   have hlong := hpro.length
   rw [h.root] at hlong
   omega

lemma AnchorPath.letters (hp : AnchorPath t p) (hn : p.getLast? = some n) :
 Forall₂ (fun k x => k ∈ t.ids ∧ (word k).getLast? = some x) p (word n) := by
 induction p using reverseRecOn generalizing n with
 | nil => exact absurd rfl hp.ne_nil
 | append_singleton p k ih =>
  obtain rfl : k = n := by simpa using hn
  have hmem := hp.mem k (by simp)
  by_cases hk : k = t.anchor
  · obtain ⟨x,hx⟩ := length_eq_one_iff.1 (hk ▸ h.root)
    rw [(hp.init_eq_nil_iff h).2 hk,hx]
    exact .cons ⟨hmem,by rw [hx]; rfl⟩ .nil
  · have hpne : p ≠ [] := fun h' => hk ((hp.init_eq_nil_iff h).1 h')
    obtain ⟨u,hu⟩ : ∃ u, p.getLast? = some u := ⟨_,getLast?_eq_some_getLast hpne⟩
    obtain ⟨x,hx⟩ := hp.last_prolongs h hu
    rw [hx]
    exact rel_append (ih (hp.init hpne) hu) (.cons ⟨hmem,by rw [hx,getLast?_concat]⟩ .nil)

lemma AnchorPath.eq_map {node : α → NodeId}
 (hnode : ∀ n ∈ t.ids, (word n).getLast?.map node = some n) (hp : AnchorPath t p)
 (hn : p.getLast? = some n) :
 p = (word n).map node := by
 have hall : Forall₂ Eq p ((word n).map node) :=
  forall₂_map_right_iff.2 ((hp.letters h hn).imp fun k x ⟨hk,hx⟩ => by
  simpa [hx,eq_comm] using hnode k hk)
 rwa [forall₂_eq_eq_eq] at hall

lemma Rising.exists_path : ∀ {n : NodeId}, n ∈ t.ids → ∃ p, AnchorPath t p ∧
 p.getLast? = some n := by
 have hall : ∀ k n, n ∈ t.ids → (word n).length = k + 1 →
  ∃ p, AnchorPath t p ∧ p.getLast? = some n := by
  intro k
  induction k with
  | zero =>
   intro n hn hk
   rw [h.trie.eq_root h.anchor h.root hn (by omega)]
   exact ⟨[t.anchor],anchorPath_singleton h.anchor,rfl⟩
  | succ k ih =>
   intro n hn hk
   obtain ⟨u,hu,hpro⟩ := h.trie.parent n hn (by omega)
   obtain ⟨p,hp,hlast⟩ := ih u hu (by have := hpro.length; omega)
   -- the nodes of the path have shorter words, so the path stays simple
   have hnew : n ∉ p := by
    intro hmem
    obtain ⟨i,hi⟩ := mem_iff_getElem?.1 hmem
    have hlt := lt_length hi
    have hend : (p.take (i + 1)).getLast? = some n := by
     rw [getLast?_eq_getElem?,length_take,min_eq_left (by omega),
      getElem?_take_of_lt (by omega)]
     exact hi
    have hsho := ((hp.take (succ_pos i)).letters h hend).length_eq
    have hlong := (hp.letters h hlast).length_eq
    have hste := hpro.length
    rw [length_take] at hsho
    omega
   exact ⟨p ++ [n],hp.concat hlast hn hnew ((h.trie.joined _ hu _ hn).2 (.inl hpro)),by simp⟩
 intro n hn
 have hpos := h.trie.length_pos hn
 exact hall ((word n).length - 1) n hn (by omega)

end

lemma AnchorPath.toList_labelText (h : Scripted t word char) (hp : AnchorPath t p)
 (hn : p.getLast? = some n) :
 (t.labelText p).toList = (word n).map char := by
 have hlet := hp.letters h.toRising hn
 generalize word n = w at hlet
 clear hp hn
 induction hlet with
 | nil => rfl
 | @cons k x p w hk _ ih =>
  obtain ⟨v,y,hv,hy,htext⟩ := h.label k hk.1
  obtain rfl : y = x := Option.some.inj (hy.symm.trans hk.2)
  rw [map_cons,← ih]
  simp [Graph.labelText,hv,htext]

lemma Scripted.reads_iff (h : Scripted t word char) {s : String} :
 Reads t n s ↔ n ∈ t.ids ∧ s = String.ofList ((word n).map char) := by
 constructor
 · rintro ⟨p,hp,hn,rfl⟩
   refine ⟨hp.mem n (mem_of_getLast? hn),?_⟩
   rw [← String.toList_inj,String.toList_ofList]
   exact hp.toList_labelText h hn
 · rintro ⟨hn,rfl⟩
   obtain ⟨p,hp,hlast⟩ := h.exists_path hn
   refine ⟨p,hp,hlast,?_⟩
   rw [← String.toList_inj,String.toList_ofList]
   exact hp.toList_labelText h hlast

section
variable {held : List α → Prop} {node : List α → NodeId}

structure Inscribed (t : Graph) (held : List α → Prop) (node : List α → NodeId) (char : α → Char) :
 Prop where
 ids : t.ids.Nodup
 label : ∀ w l, held (w ++ [l]) → ∃ v, t.nodeAttr? (node (w ++ [l])) "label" = some v ∧
  v.text.toList = [char l]
 anchor : ∀ w, held w → ((t.nodeAttr? (node w) "anchor" == some (.int 1)) = true ↔ w.length = 1)

variable (hc : Carries t held node word)
include hc

lemma Carries.ne_nil {w : List α} (hw : held w) : w ≠ [] := by
 obtain ⟨l,_,hpre⟩ := hc.root
 rintro rfl
 simpa using hpre _ hw

lemma Carries.mem {w : List α} (hw : held w) : node w ∈ t.ids :=
 (hc.ids _).2 ⟨w,hw,rfl⟩

variable (hi : Inscribed t held node char)
include hi

lemma Carries.anchoredAt : ∃ l, held [l] ∧ t.AnchoredAt (node [l]) := by
 obtain ⟨l,hl,hpre⟩ := hc.root
 refine ⟨l,hl,Graph.anchoredAt_iff.2 fun n => ?_⟩
 by_cases hn : n ∈ t.ids
 · obtain ⟨w,hw,rfl⟩ := (hc.ids n).1 hn
   rw [hi.anchor w hw]
   constructor
   · intro hlen
     rw [(hpre w hw).eq_of_length hlen.symm]
   · intro heq
     rw [← hc.back w hw,heq,hc.back _ hl]
     rfl
 · have hne : n ≠ node [l] := fun heq => hn (heq ▸ hc.mem hl)
   simp [Graph.nodeAttr?_of_not_mem hn,hne]

lemma Carries.anchor_eq {l : α} (hl : held [l]) : t.anchor = node [l] := by
 obtain ⟨k,hk,hanc⟩ := hc.anchoredAt hi
 obtain ⟨r,_,hpre⟩ := hc.root
 have hrl : [r] = [l] := (hpre _ hl).eq_of_length rfl
 have hrk : [r] = [k] := (hpre _ hk).eq_of_length rfl
 rw [hanc.anchor_eq hi.ids,← hrk,hrl]

lemma Carries.scripted : Scripted t word char := by
 obtain ⟨l,hl,hanc⟩ := hc.anchoredAt hi
 have han := hanc.anchor_eq hi.ids
 refine ⟨⟨hc.trie,han ▸ hanc.mem,by rw [han,hc.back _ hl]; rfl⟩,fun n hn => ?_⟩
 obtain ⟨w,hw,rfl⟩ := (hc.ids n).1 hn
 obtain ⟨w,k,rfl⟩ : ∃ w' k, w = w' ++ [k] := ⟨_,_,(dropLast_append_getLast (hc.ne_nil hw)).symm⟩
 obtain ⟨v,hv,htext⟩ := hi.label w k hw
 exact ⟨v,k,hv,by rw [hc.back _ hw,getLast?_concat],htext⟩

lemma Carries.reads_iff {s : String} : Reads t n s ↔ ∃ w, held w ∧ n = node w ∧
 s = String.ofList (w.map char) := by
 rw [(hc.scripted hi).reads_iff,hc.ids]
 constructor
 · rintro ⟨⟨w,hw,rfl⟩,hs⟩
   exact ⟨w,hw,rfl,by rwa [hc.back w hw] at hs⟩
 · rintro ⟨w,hw,rfl,hs⟩
   exact ⟨⟨w,hw,rfl⟩,by rwa [hc.back w hw]⟩

lemma Carries.spells_iff {s : String} :
 Spells t s ↔ ∃ w, held w ∧ s = String.ofList (w.map char) := by
 simp only [Spells,hc.reads_iff hi]
 constructor
 · rintro ⟨_,w,hw,rfl,hs⟩
   exact ⟨w,hw,hs⟩
 · rintro ⟨w,hw,hs⟩
   exact ⟨_,w,hw,rfl,hs⟩

lemma Carries.holdsTexts (hinj : ∀ u v, held u → held v → u.map char = v.map char → u = v)
 {texts : String → Prop}
 (htex : ∀ s, texts s ↔ ∃ w, held w ∧ s = String.ofList (w.map char)) : HoldsTexts t texts where
 isTree := hc.trie.isTree
 reached := by
  intro n hn
  obtain ⟨w,hw,rfl⟩ := (hc.ids n).1 hn
  exact ⟨_,(hc.reads_iff hi).2 ⟨w,hw,rfl,rfl⟩⟩
 spells := fun s => (hc.spells_iff hi).trans (htex s).symm
 once := by
  intro s m n hm hn
  obtain ⟨u,hu,rfl,hsu⟩ := (hc.reads_iff hi).1 hm
  obtain ⟨v,hv,rfl,hsv⟩ := (hc.reads_iff hi).1 hn
  rw [hinj u v hu hv (String.ofList_injective (hsu.symm.trans hsv))]

end
end MotifMatch.Normal
