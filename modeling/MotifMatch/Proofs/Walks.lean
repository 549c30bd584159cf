import Mathlib.Data.List.Chain
import MotifMatch.Proofs.Trails

namespace MotifMatch
open List MotifMatch.Graph Table Prod

def Graph.AnchoredAt (g : Graph) (a : NodeId) : Prop :=
 ∀ n, (∃ b, g.attrs? n = some b ∧ isAnchor b = true) ↔ n = a

def Graph.labelText (g : Graph) (ns : List NodeId) : String :=
 String.join (ns.map fun n => ((g.nodeAttr? n "label").getD .none).text)

variable {g : Graph} {a : NodeId}

lemma Graph.nodeAttr?_of_not_mem {n : NodeId} (hn : n ∉ g.ids) (k : String) :
 g.nodeAttr? n k = none := by
 have hnone : g.attrs? n = none := by
  rw [← Option.not_isSome_iff_eq_none,attrs?_isSome_iff]
  exact hn
 rw [nodeAttr?,hnone,Option.bind_none]

lemma Graph.AnchoredAt.mem (h : g.AnchoredAt a) : a ∈ g.ids := by
 obtain ⟨b,hb,_⟩ := (h a).2 rfl
 exact attrs?_isSome_iff.1 (by rw [hb]; rfl)

lemma Graph.AnchoredAt.anchor_eq (h : g.AnchoredAt a) (hg : g.ids.Nodup) :
 g.anchor = a := by
 obtain ⟨b,hb,hanc⟩ := (h a).2 rfl
 have hmem : (a,b) ∈ g.nodes.entries := mem_of_get? hb
 have hsome : (g.nodes.entries.find? fun e => isAnchor e.2).isSome := by
  rw [find?_isSome]
  exact ⟨_,hmem,hanc⟩
 obtain ⟨⟨n,c⟩,hfind⟩ := Option.isSome_iff_exists.1 hsome
 have hc : isAnchor c := by simpa using find?_some hfind
 have hn : n = a := (h n).1 ⟨c,get?_of_mem hg (mem_of_find?_eq_some hfind),hc⟩
 simp [anchor,anchor?,hfind,hn]

lemma Graph.anchoredAt_iff :
 g.AnchoredAt a ↔ ∀ n, (g.nodeAttr? n "anchor" == some (.int 1)) ↔ n = a := by
 refine forall_congr' fun n => iff_congr ?_ Iff.rfl
 cases hn : g.attrs? n with
 | none => simp [nodeAttr?,hn]
 | some b => simp [nodeAttr?,hn,isAnchor]

lemma Graph.anchoredAt_of_filter (hg : g.ids.Nodup)
 (h : (g.nodes.entries.filter fun e => isAnchor e.2).map fst = [a]) : g.AnchoredAt a := by
 intro n
 have hmem : n ∈ (g.nodes.entries.filter fun e => isAnchor e.2).map fst ↔ n = a := by
  rw [h,mem_singleton]
 rw [← hmem,mem_map]
 constructor
 · rintro ⟨b,hb,hanc⟩
   exact ⟨(n,b),mem_filter.2 ⟨mem_of_get? hb,hanc⟩,rfl⟩
 · rintro ⟨⟨_,b⟩,he,rfl⟩
   obtain ⟨he,hanc⟩ := mem_filter.1 he
   exact ⟨b,get?_of_mem hg he,hanc⟩

instance (g : Graph) : Decidable g.Lettered :=
 decidable_of_iff (∀ n ∈ g.ids, ((g.nodeAttr? n "label").map fun v => v.text.length) = some 1) (by
  simp only [Lettered,Option.map_eq_some_iff])

lemma Graph.Lettered.toList_labelText (hg : g.Lettered) {ns : List NodeId}
 (hns : ∀ n ∈ ns, n ∈ g.ids) : (g.labelText ns).toList = ns.map g.letter := by
 induction ns with
 | nil => simp [labelText]
 | cons n ns ih =>
  obtain ⟨v,hv,_⟩ := hg n (hns n (by simp))
  have hn := hg.toList_label (hns n (by simp)) hv
  have hres := ih fun x hx => hns x (by simp [hx])
  simp only [labelText,String.toList_join] at hres
  simp [labelText,hv,hn,hres]

namespace Normal

structure IsWalk (g : Graph) (a : NodeId) (w : List NodeId) : Prop where
 start : w[0]? = some a
 joined : ∀ i u v, w[i]? = some u → w[i + 1]? = some v → g.hasEdge u v = true
 away : ∀ i, 1 ≤ i → w[i]? ≠ some a
 onward : ∀ i u v, w[i]? = some u → w[i + 2]? = some v → v ≠ u

section
variable {α : Type} {R Q : α → α → Prop} {P : α → Prop} {s u v : α} {w : List α}

def Strides (s : α) (R Q : α → α → Prop) (P : α → Prop) (w : List α) : Prop :=
 w.head? = some s ∧ w.IsChain R ∧ (∀ x ∈ w.tail, P x) ∧ ∀ i x y, w[i]? = some x →
  w[i + 2]? = some y → Q x y

lemma isChain_iff_places : w.IsChain R ↔ ∀ i x y, w[i]? = some x → w[i + 1]? = some y → R x y := by
 rw [isChain_iff_getElem]
 constructor
 · intro h i x y hx hy
   obtain ⟨hi,rfl⟩ := List.getElem?_eq_some_iff.1 hy
   rw [getElem?_eq_getElem (by omega)] at hx
   exact Option.some.inj hx ▸ h i hi
 · exact fun h i hi => h i _ _ (getElem?_eq_getElem _) (getElem?_eq_getElem hi)

lemma getElem?_concat_iff {i : Nat} {x : α} :
 (w ++ [v])[i]? = some x ↔ w[i]? = some x ∨ i = w.length ∧ x = v := by
 grind

lemma strides_concat : Strides s R Q P (w ++ [u] ++ [v]) ↔
 Strides s R Q P (w ++ [u]) ∧ R u v ∧ P v ∧ ∀ x, w.getLast? = some x → Q x v := by
 have hhead : (w ++ [u] ++ [v]).head? = (w ++ [u]).head? := head?_append_of_ne_nil _ (by simp)
 have hcha : (w ++ [u] ++ [v]).IsChain R ↔ (w ++ [u]).IsChain R ∧ R u v := by simp
 have htail : (∀ x ∈ (w ++ [u] ++ [v]).tail, P x) ↔ (∀ x ∈ (w ++ [u]).tail, P x) ∧ P v := by
  rw [tail_append_of_ne_nil (by simp),forall_mem_append,forall_mem_singleton]
 have hgap : (∀ i x y, (w ++ [u] ++ [v])[i]? = some x → (w ++ [u] ++ [v])[i + 2]? = some y → Q x y) ↔
  (∀ i x y, (w ++ [u])[i]? = some x → (w ++ [u])[i + 2]? = some y → Q x y) ∧
   ∀ x, w.getLast? = some x → Q x v := by
  constructor
  · intro h
    refine ⟨fun i x y hx hy => h i x y (getElem?_concat_iff.2 (.inl hx))
     (getElem?_concat_iff.2 (.inl hy)),fun x hx => ?_⟩
    rw [getLast?_eq_getElem?] at hx
    have hlt := lt_length hx
    refine h (w.length - 1) x v (by rwa [append_assoc,getElem?_append_left hlt]) ?_
    rw [show w.length - 1 + 2 = (w ++ [u]).length by simp; omega,getElem?_concat_length]
  · rintro ⟨h,hlast⟩ i x y hx hy
    rcases getElem?_concat_iff.1 hy with hy | ⟨hi,rfl⟩
    · have hlt := lt_length hy
      rw [getElem?_append_left (by omega)] at hx
      exact h i x y hx hy
    · -- only the new step ends so far out
      simp only [length_append,length_singleton] at hi
      rw [append_assoc,getElem?_append_left (by omega),show i = w.length -
       1 by omega,← getLast?_eq_getElem?] at hx
      exact hlast x hx
 rw [Strides,Strides,hhead,hcha,htail,hgap]
 tauto

end

variable {w : List NodeId}

lemma isWalk_iff : IsWalk g a w ↔ Strides a (fun u v => g.hasEdge u v) (fun u v => v ≠ u)
 (· ≠ a) w := by
 constructor
 · intro h
   refine ⟨head?_eq_getElem?.trans h.start,isChain_iff_places.2 h.joined,fun x hx => ?_,h.onward⟩
   obtain ⟨i,hi⟩ := mem_iff_getElem?.1 hx
   rw [getElem?_tail] at hi
   rintro rfl
   exact h.away (i + 1) (by omega) hi
 · rintro ⟨hsta,hcha,haway,hon⟩
   refine ⟨head?_eq_getElem?.symm.trans hsta,isChain_iff_places.1 hcha,fun i hi hx => ?_,hon⟩
   obtain ⟨j,rfl⟩ := Nat.exists_eq_add_of_le' hi
   exact haway a (mem_iff_getElem?.2 ⟨j,by rwa [getElem?_tail]⟩) rfl

lemma isWalk_singleton : IsWalk g a [a] := isWalk_iff.2 ⟨rfl,by simp,by simp,by simp⟩

lemma isWalk_concat {u v : NodeId} : IsWalk g a (w ++ [u] ++ [v]) ↔
 IsWalk g a (w ++ [u]) ∧ g.hasEdge u v ∧ v ≠ a ∧ w.getLast? ≠ some v := by
 have hlast : (∀ x, w.getLast? = some x → v ≠ x) ↔ w.getLast? ≠ some v :=
  ⟨fun h hv => h v hv rfl,fun h x hx heq => h (heq ▸ hx)⟩
 rw [isWalk_iff,isWalk_iff,strides_concat,hlast]

def trailOf : List NodeId → Trail
 | [] => []
 | a :: rest => (rest.map fun n => (n,true)).reverse ++ [(a,false)]

lemma trailOf_concat (hw : w ≠ []) (v : NodeId) :
 trailOf (w ++ [v]) = (v,true) :: trailOf w := by
 cases w with
 | nil => exact absurd rfl hw
 | cons u w => simp [trailOf]

lemma length_trailOf (w : List NodeId) : (trailOf w).length = w.length := by
 cases w <;> simp [trailOf]

lemma head?_trailOf (w : List NodeId) : (trailOf w).head?.map fst = w.getLast? := by
 induction w using reverseRecOn with
 | nil => rfl
 | append_singleton w v _ =>
  by_cases hw : w = []
  · subst hw
    rfl
  · simp [trailOf_concat hw]

variable {m : Manner}

lemma leads_along (hm : m.marked = false) {u : NodeId} {e : NodeId × Bool} :
 m.Leads g u e ↔ e.2 ∧ g.hasEdge u e.1 := by
 simp [Manner.Leads,hm]

def met (t : Trail) : List NodeId := (t.map Prod.fst).reverse

lemma met_cons (e : NodeId × Bool) (t : Trail) : met (e :: t) = met t ++ [e.1] := by simp [met]

lemma getLast?_met (t : Trail) : (met t).getLast? = t.head?.map Prod.fst := by
 rw [met,getLast?_reverse,head?_map]

lemma exists_roams_iff {h : Graph} (hlead : ∀ u v, (∃ f, m.Leads g u (v,f)) ↔ h.hasEdge u v)
 {p : List NodeId} :
 (∃ t, Roams m g t ∧ met t = p) ↔ IsWalk h m.anchor p := by
 constructor
 · rintro ⟨t,ht,rfl⟩
   induction ht with
   | start => exact isWalk_singleton
   | @step u e rest _ hl haway hturn ih =>
    rw [met_cons] at ih
    rw [met_cons,met_cons]
    refine isWalk_concat.2 ⟨ih,(hlead u.1 e.1).1 ⟨e.2,hl⟩,haway,?_⟩
    rw [getLast?_met]
    exact hturn
 · intro hp
   induction p using reverseRecOn with
   | nil => simpa using hp.start
   | append_singleton p v ih =>
    rcases eq_nil_or_concat' p with rfl | ⟨p,u,rfl⟩
    · obtain rfl : v = m.anchor := by simpa using hp.start
      exact ⟨_,.start,rfl⟩
    · obtain ⟨hwalk,hedge,haway,hturn⟩ := isWalk_concat.1 hp
      obtain ⟨t,ht,hmet⟩ := ih hwalk
      obtain ⟨⟨x,f⟩,rest,rfl⟩ := exists_cons_of_ne_nil ht.ne_nil
      rw [met_cons] at hmet
      obtain ⟨rfl,hx⟩ := append_inj' hmet rfl
      obtain rfl : x = u := (cons.inj hx).1
      obtain ⟨f',hl⟩ := (hlead x v).2 hedge
      refine ⟨_,.step ht hl haway ?_,?_⟩
      · rw [← getLast?_met]
        exact hturn
      · rw [met_cons,met_cons]

lemma trailOf_met (hm : m.marked = false) {t : Trail} (ht : Roams m g t) : trailOf (met t) = t := by
 induction ht with
 | start => rfl
 | @step u e rest _ hl _ _ ih =>
  obtain ⟨hf,_⟩ := (leads_along hm).1 hl
  rw [met_cons,trailOf_concat (by simp [met]),ih,← hf]

lemma roams_iff_walk (hm : m.marked = false) {t : Trail} :
 Roams m g t ↔ ∃ w, IsWalk g m.anchor w ∧ trailOf w = t := by
 have hlead : ∀ u v, (∃ f, m.Leads g u (v,f)) ↔ g.hasEdge u v := by simp [leads_along hm]
 constructor
 · intro h
   exact ⟨met t,(exists_roams_iff hlead).1 ⟨t,h,rfl⟩,trailOf_met hm h⟩
 · rintro ⟨w,hw,rfl⟩
   obtain ⟨t,ht,rfl⟩ := (exists_roams_iff hlead).2 hw
   rwa [trailOf_met hm ht]

lemma text_trailOf (hm : m.marked = false) (hg : g.Lettered) (hw : ∀ n ∈ w, n ∈ g.ids) :
 m.text (word g (trailOf w)) = g.labelText w := by
 have hcha : (word g (trailOf w)).map Letter.char = w.map g.letter := by
  cases w with
  | nil => rfl
  | cons u w => simp [word,trailOf,Function.comp_def]
 rw [← String.toList_inj,Manner.text,hm,spell_unmarked,hcha,String.toList_ofList,
  hg.toList_labelText hw]

lemma IsWalk.mem_ids (hr : Ready m g) (hm : m.marked = false) (hw : IsWalk g m.anchor w) :
 ∀ n ∈ w, n ∈ g.ids := by
 have hroa := (roams_iff_walk hm).2 ⟨w,hw,rfl⟩
 intro n hn
 have hmem : ∃ e ∈ trailOf w, e.1 = n := by
  cases w with
  | nil => simp at hn
  | cons u w =>
   rcases mem_cons.1 hn with rfl | hn
   · exact ⟨(n,false),by simp [trailOf],rfl⟩
   · exact ⟨(n,true),by simp [trailOf,hn],rfl⟩
 obtain ⟨e,he,rfl⟩ := hmem
 exact hroa.mem_ids hr e he

end Normal
end MotifMatch
