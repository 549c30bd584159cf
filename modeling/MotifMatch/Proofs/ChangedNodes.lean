import MotifMatch.Proofs.QueryClasses
import MotifMatch.Proofs.Writing

namespace MotifMatch.Graph
open Table Sampling Prod List
variable {g h : Graph} {m n : NodeId} {name name' : String} {v : Value}

lemma nodeAttr?_setNodeAttr_of_ne (hmn : m ≠ n) :
 (g.setNodeAttr n name v).nodeAttr? m name' = g.nodeAttr? m name' := by
 rw [nodeAttr?,attrs?,setNodeAttr,get?_modify,if_neg hmn]
 rfl

lemma nodeAttr?_setNodeAttr (hn : n ∈ g.ids) :
 (g.setNodeAttr n name v).nodeAttr? n name' = if name' =
  name then some v else g.nodeAttr? n name' := by
 obtain ⟨a,ha⟩ := exists_attrs hn
 rw [attrs?] at ha
 rw [nodeAttr?,attrs?,setNodeAttr,get?_modify,if_pos rfl,nodeAttr?,attrs?,ha]
 exact get?_put a name name' v

lemma nodeAttr?_setNodeAttr_self (hn : n ∈ g.ids) :
 (g.setNodeAttr n name v).nodeAttr? n name = some v := by
 rw [nodeAttr?_setNodeAttr hn,if_pos rfl]

lemma Sound.addAll (hg : g.Sound) (new : List (NodeId × Attrs)) : (addAll new g).Sound := by
 induction new generalizing g with
 | nil => exact hg
 | cons e new ih => exact ih (hg.addNode e.1 e.2)

lemma multi_addAll (new : List (NodeId × Attrs)) : (addAll new g).multi = g.multi := by
 induction new generalizing g with
 | nil => rfl
 | cons e new ih => exact ih

lemma attrs?_addAll_of_not_mem {new : List (NodeId × Attrs)} (hm : m ∉ new.map fst) :
 (addAll new g).attrs? m = g.attrs? m := by
 induction new generalizing g with
 | nil => rfl
 | cons e new ih =>
  rw [map_cons,mem_cons,not_or] at hm
  refine (ih hm.2).trans ?_
  rw [attrs?_addNode,if_neg hm.1]

lemma modified_addAll {i : Int} {ls : List Int} (hm : m ∈ (newNodes i ls).map fst) :
 (addAll (newNodes i ls) g).nodeAttr? m "modified" = some (.bool true) := by
 induction ls generalizing i g with
 | nil => cases hm
 | cons l ls ih =>
  by_cases hlat : m ∈ (newNodes (i + 1) ls).map fst
  · exact ih hlat
  · have hm : m = (newNode i (.int l)).1 := (mem_cons.1 hm).resolve_right hlat
    rw [nodeAttr?,newNodes]
    refine (congrArg (Option.bind · fun a => a.get? "modified")
     (attrs?_addAll_of_not_mem hlat)).trans ?_
    rw [attrs?_addNode,if_pos hm]
    exact get?_put_self _ "modified" _

end MotifMatch.Graph

namespace MotifMatch.Sampling
open List MotifMatch.Graph Int Form
open MotifMatch.Graph (Within)
variable {g h k : Graph} {d d' : Draft} {i i' : Int} {n : NodeId}
section

structure Traced (g h : Graph) : Prop where
 told : ∀ n ∈ h.ids, h.nodeAttr? n "modified" = some (.bool true) ∨ h.nodeAttr? n "modified" =
  some (.bool false)
 kept : ∀ n ∈ h.ids, h.nodeAttr? n "modified" = some (.bool false) → n ∈ g.ids ∧
  h.nodeAttr? n "label" = g.nodeAttr? n "label"
 added : ∀ n ∈ h.ids, n ∉ g.ids → h.nodeAttr? n "modified" = some (.bool true) ∧ ∃ j :
  Int, g.size ≤ j ∧ n = .num j

variable (hh : Traced g h)
include hh

lemma Traced.step (hk : ∀ n ∈ k.ids,
 (n ∈ h.ids ∧ k.nodeAttr? n "modified" = h.nodeAttr? n "modified" ∧
  k.nodeAttr? n "label" = h.nodeAttr? n "label") ∨
 k.nodeAttr? n "modified" = some (.bool true) ∧
  (n ∈ h.ids ∨ ∃ j : Int, g.size ≤ j ∧ n = .num j)) : Traced g k where
 told n hn := by
  rcases hk n hn with ⟨hn,hmark,_⟩ | ⟨hmark,_⟩
  · exact hmark ▸ hh.told n hn
  · exact .inl hmark
 kept n hn hfal := by
  rcases hk n hn with ⟨hn,hmark,hlab⟩ | ⟨hmark,_⟩
  · exact hlab ▸ hh.kept n hn (hmark ▸ hfal)
  · cases hmark.symm.trans hfal
 added n hn hnot := by
  rcases hk n hn with ⟨hn,hmark,_⟩ | ⟨hmark,hn | hnam⟩
  · exact hmark ▸ hh.added n hn hnot
  · exact ⟨hmark,(hh.added n hn hnot).2⟩
  · exact ⟨hmark,hnam⟩

lemma Traced.of_within (hw : Within k h) : Traced g k :=
 hh.step fun n hn =>
  .inl ⟨hw.ids hn,by rw [nodeAttr?,hw.nodes n hn]; rfl,by rw [nodeAttr?,hw.nodes n hn]; rfl⟩

lemma Traced.mark (hn : n ∈ h.ids) : Traced g (mark n h) := by
 refine hh.step fun m hm => ?_
 rw [Sampling.mark,ids_setNodeAttr] at hm
 by_cases hmn : m = n
 · exact .inr ⟨by rw [hmn,Sampling.mark,nodeAttr?_setNodeAttr_self hn],.inl hm⟩
 · exact .inl ⟨hm,nodeAttr?_setNodeAttr_of_ne hmn,nodeAttr?_setNodeAttr_of_ne hmn⟩

lemma Traced.relabel (hn : n ∈ h.ids) (l : Value) : Traced g (relabel n l h) := by
 refine hh.step fun m hm => ?_
 rw [Sampling.relabel,Sampling.mark,ids_setNodeAttr,ids_setNodeAttr] at hm
 by_cases hmn : m = n
 · refine .inr ⟨?_,.inl hm⟩
   rw [hmn,Sampling.relabel,Sampling.mark,nodeAttr?_setNodeAttr_self]
   rwa [ids_setNodeAttr]
 · refine .inl ⟨hm,?_,?_⟩ <;>
    rw [Sampling.relabel,Sampling.mark,nodeAttr?_setNodeAttr_of_ne hmn,
     nodeAttr?_setNodeAttr_of_ne hmn]

lemma Traced.addAll (hnod : h.ids.Nodup) (hbel : ∀ j, .num j ∈ h.ids → j < i) (hi : g.size ≤ i)
 (ls : List Int) : Traced g (addAll (newNodes i ls) h) := by
 refine hh.step fun m hm => ?_
 rw [ids_addAll hnod hbel,mem_append] at hm
 by_cases hnew : m ∈ (newNodes i ls).map Prod.fst
 · obtain ⟨j,hle,_,heq⟩ := mem_newNodes.1 hnew
   exact .inr ⟨modified_addAll hnew,.inr ⟨j,by omega,heq⟩⟩
 · have hatt := attrs?_addAll_of_not_mem (g := h) hnew
   refine .inl ⟨hm.resolve_right hnew,?_,?_⟩ <;> rw [nodeAttr?,hatt] <;> rfl

end

def arrivals : List Graph → List NodeId
 | h :: g :: rest => (h.ids.filter fun n => !g.ids.contains n) ++ arrivals (g :: rest)
 | _ => []

structure Marked (g part : Graph) (hs : List Graph) : Prop where
 traced : ∀ h ∈ hs, Traced g h
 once : (arrivals (hs ++ [part])).Nodup
 fresh : ∀ n ∈ arrivals (hs ++ [part]), ∃ j : Int, g.size ≤ j ∧ n = .num j

structure Course (g : Graph) (i : Int) (d : Draft) : Prop where
 sound : d.work.Sound
 single : d.work.multi = false
 free : g.size ≤ i
 below : ∀ j, .num j ∈ d.work.ids → j < i
 apart : d.Apart g
 marked : ∃ hs part, d.past.map graph = hs ++ [part,g] ∧ Marked g part (d.work :: hs) ∧
  ∀ j, .num j ∈ arrivals (d.work :: hs ++ [part]) → j < i

lemma Course.traced (hd : Course g i d) : Traced g d.work := by
 obtain ⟨hs,part,_,hmar,_⟩ := hd.marked
 exact hmar.traced _ mem_cons_self

lemma arrivals_cons (h w : Graph) (hs : List Graph) (part : Graph) :
 arrivals (h :: (w :: hs) ++ [part]) = (h.ids.filter fun n => !w.ids.contains n) ++
  arrivals (w :: hs ++ [part]) := rfl

lemma mem_arrivals_cons {w part : Graph} {hs : List Graph} :
 n ∈ arrivals (h :: (w :: hs) ++ [part]) ↔
 (n ∈ h.ids ∧ n ∉ w.ids) ∨ n ∈ arrivals (w :: hs ++ [part]) := by
 rw [arrivals_cons,mem_append,mem_filter,Bool.not_eq_true',contains_eq_mem,decide_eq_false_iff_not]

lemma Marked.cons {w part : Graph} {hs : List Graph} (hmar : Marked g part (w :: hs))
 (htra : Traced g h)
 (hnod : h.ids.Nodup) (hfree : g.size ≤ i)
 (hbel : ∀ j, .num j ∈ arrivals (w :: hs ++ [part]) → j < i)
 (hcome : ∀ n ∈ h.ids, n ∉ w.ids → ∃ j, i ≤ j ∧ n = .num j) : Marked g part (h :: w :: hs) where
 traced := forall_mem_cons.2 ⟨htra,hmar.traced⟩
 once := by
  rw [arrivals_cons,nodup_append]
  refine ⟨hnod.filter _,hmar.once,fun a ha b hb hab => ?_⟩
  obtain ⟨ha,hnot⟩ := mem_filter.1 ha
  obtain ⟨j,hle,rfl⟩ := hcome a ha (by simpa using hnot)
  have := hbel j (hab ▸ hb)
  omega
 fresh n hn := by
  rcases mem_arrivals_cons.1 hn with ⟨hn,hnot⟩ | hn
  · obtain ⟨j,hle,rfl⟩ := hcome n hn hnot
    exact ⟨j,Int.le_trans hfree hle,rfl⟩
  · exact hmar.fresh n hn

lemma Course.next (hd : Course g i d) (hpast : d'.past.map graph = d.work :: d.past.map graph)
 (hapa : d'.Apart g)
 (hsou : d'.work.Sound) (hsin : d'.work.multi = false) (htra : Traced g d'.work) (hi : i ≤ i')
 (hnew : ∀ n ∈ d'.work.ids, n ∈ d.work.ids ∨ ∃ j, i ≤ j ∧ j < i' ∧ n = .num j) : Course g i' d' := by
 obtain ⟨hs,part,hgra,hmar,hbel⟩ := hd.marked
 have hlt : ∀ j, .num j ∈ d'.work.ids → .num j ∉ d.work.ids → j < i' := by
  intro j hj hnot
  obtain ⟨j',_,hlt,heq⟩ := (hnew _ hj).resolve_left hnot
  exact NodeId.num.inj heq ▸ hlt
 have hcome : ∀ n ∈ d'.work.ids, n ∉ d.work.ids → ∃ j, i ≤ j ∧ n = .num j := by
  intro n hn hnot
  obtain ⟨j,hle,_,heq⟩ := (hnew n hn).resolve_left hnot
  exact ⟨j,hle,heq⟩
 exact {
   sound := hsou
   single := hsin
   free := Int.le_trans hd.free hi
   below := fun j hj => by
     by_cases hold : .num j ∈ d.work.ids
     · exact Int.lt_of_lt_of_le (hd.below j hold) hi
     · exact hlt j hj hold
   apart := hapa
   marked := by
     refine ⟨d.work :: hs,part,by rw [hpast,hgra,cons_append],
       hmar.cons htra hsou.ids hd.free hbel hcome,fun j hj => ?_⟩
     rcases mem_arrivals_cons.1 hj with ⟨hj,hnot⟩ | hj
     · exact hlt j hj hnot
     · exact Int.lt_of_lt_of_le (hbel j hj) hi }

lemma Course.leave (hd : Course g i d) (hw : Within h d.work) : Course g i (d.leave h) :=
 hd.next rfl (hd.apart.leave h) hw.sound hw.single (hd.traced.of_within hw) (Int.le_refl i)
  fun _ hn => .inl (hw.ids hn)

lemma Course.edit (hd : Course g i d) {f : Graph → Graph} (hids : (f d.work).ids = d.work.ids)
 (hsou : (f d.work).Sound)
 (hsin : (f d.work).multi = false) (htra : Traced g (f d.work)) : Course g i (d.edit f) :=
 hd.next rfl (hd.apart.edit f) hsou hsin htra (Int.le_refl i) fun _ hn => .inl (hids ▸ hn)

lemma stable_course (g : Graph) : Stable (Course g) where
 ends _ _ _ _ hd huv := (hd.sound.of_hasEdge huv).2
 withoutNode _ _ n hd _ := hd.leave (within_removeNode hd.sound hd.single n)
 withoutEdge _ _ e hd _ := hd.leave (within_removeEdge hd.sound hd.single e.source e.target)
 linked i d u v l hd hu hv := by
  have hnod : (link u v (.int l) d.work).nodes = d.work.nodes := by
   rw [link,addEdge_of_mem hd.single hu hv,nodes_place]
  refine hd.edit (ids_addEdge hu hv _) ?_ ((multi_addEdge u v _).trans hd.single)
   (hd.traced.step fun n hn => .inl ?_)
  · have hsou := hd.sound.addListed (e :=
     ⟨u,v,.none,.ofList [("label",.int l)]⟩) hu hv (Table.nodup_ofList _)
    rwa [addListed,hd.single] at hsou
  · have hatt : ∀ name, (link u v (.int l) d.work).nodeAttr? n name = d.work.nodeAttr? n name :=
     fun name => by
     rw [nodeAttr?,attrs?,hnod]
     rfl
    exact ⟨ids_addEdge hu hv _ ▸ hn,hatt _,hatt _⟩
 marked _ _ n hd hn := hd.edit (ids_setNodeAttr _ n _ _)
  (hd.sound.setNodeAttr n _ _) hd.single (hd.traced.mark hn)
 relabelled _ _ n l hd hn := hd.edit (by rw [relabel,mark,ids_setNodeAttr,ids_setNodeAttr])
  ((hd.sound.setNodeAttr n _ _).setNodeAttr n _ _) hd.single (hd.traced.relabel hn _)
 added i d ls hd := by
  refine hd.next rfl (hd.apart.edit _) (hd.sound.addAll _) ((multi_addAll _).trans hd.single)
   (hd.traced.addAll hd.sound.ids hd.below hd.free ls) (by omega) fun n hn => ?_
  rw [Draft.edit,ids_addAll hd.sound.ids hd.below,mem_append] at hn
  exact hn.imp id fun hn => mem_newNodes.1 hn

lemma Drawn.traced {part : Graph} (hpart : Drawn g none part) (hg : g.Sound) (hm : g.multi = false) :
 Traced g (unmarkAll part) := by
 have hw := (hpart.within hg hm).1
 have hids := ids_unmarkAll part
 have hatt : ∀ n ∈ part.ids, (unmarkAll part).nodeAttr? n "modified" = some (.bool false) ∧
  (unmarkAll part).nodeAttr? n "label" = g.nodeAttr? n "label" := by
  intro n hn
  obtain ⟨a,ha⟩ := exists_attrs hn
  have hput : (unmarkAll part).attrs? n = some (a.put "modified" (.bool false)) := by
   rw [unmarkAll_eq]
   exact attrs?_putEach hw.sound ha
  rw [nodeAttr?,nodeAttr?,nodeAttr?,← hw.nodes n hn,hput,ha]
  exact ⟨Table.get?_put_self a _ _,Table.get?_put_of_ne a _ (by decide)⟩
 rw [← hids] at hatt
 exact {
   told := fun n hn => .inr (hatt n hn).1
   kept := fun n hn _ => ⟨hw.ids (hids ▸ hn),(hatt n hn).2⟩
   added := fun n hn hnot => absurd (hw.ids (hids ▸ hn)) hnot }

lemma Drawn.course {part : Graph} (hpart : Drawn g none part) (hg : g.Sound) (hm : g.multi = false)
 (hbel : ∀ j : Int, .num j ∈ g.ids → j < g.size) :
  Course g g.size (((Draft.start g).leave part).edit unmarkAll) := by
 have hw := (hpart.within hg hm).1
 have hids := ids_unmarkAll part
 -- The part has no other names than its source, so that nothing has come up yet.
 have hnone : arrivals [unmarkAll part,part] = [] := by simp [arrivals,hids]
 exact {
   sound := hw.sound.putEach "modified" fun _ => .bool false
   single := hw.single
   free := Int.le_refl _
   below := fun j hj => hbel j (hw.ids (hids ▸ hj))
   apart := ⟨[⟨part,false⟩],rfl⟩
   marked := by
     refine ⟨[],part,rfl,?_,fun j hj => ?_⟩
     · change Marked g part [unmarkAll part]
       refine ⟨fun h hh => mem_singleton.1 hh ▸ hpart.traced hg hm,?_,?_⟩ <;> simp [hnone]
     · change .num j ∈ arrivals [unmarkAll part,part] at hj
       simp [hnone] at hj }

end MotifMatch.Sampling

namespace MotifMatch.Corpus
open List MotifMatch.Graph
open Sampling (Traced)
variable {g q : Graph} {order : List NodeId}

def Pairing (g : Graph) (qs : List (Graph × List NodeId)) (row : String) : Prop :=
 (∃ k : Nat, row = "t # " ++ toString k) ∨ ∃ q ∈ qs, ∃ n ∈ q.2, n ∈ g.ids ∧
  row = "v " ++ toString (q.2.idxOf n) ++ " " ++ n.text ∧ q.1.nodeAttr? n "label" =
   g.nodeAttr? n "label"

lemma Pairing.mono {qs qs' : List (Graph × List NodeId)} {row : String} (h : Pairing g qs row)
 (hsub : ∀ q ∈ qs, q ∈ qs') :
 Pairing g qs' row :=
 h.imp id fun ⟨q,hq,h⟩ => ⟨q,hsub q hq,h⟩

lemma pairing_queryLines (hq : Traced g q) (hper : order.Perm q.ids) (k : Nat) {l : Line}
 (hl : l ∈ queryLines k true q order)
 (hto : l.toMapping) : ∃ row, l = .pair row ∧ Pairing g [(q,order)] row := by
 rw [queryLines] at hl
 rcases mem_append.1 hl with hl | hl
 · rcases mem_append.1 hl with hl | hl
   · rcases mem_pair.1 hl with rfl | rfl
     · cases hto
     · exact ⟨_,rfl,.inl ⟨k,rfl⟩⟩
   · obtain ⟨n,hn,hl⟩ := mem_flatMap.1 hl
     rcases mem_cons.1 hl with rfl | hl
     · cases hto
     · have hmem := hper.mem_iff.1 hn
       obtain ⟨a,ha⟩ := exists_attrs hmem
       have htold := hq.told n hmem
       have hkept := hq.kept n hmem
       simp only [nodeAttr?,ha,Option.bind_some] at htold hkept
       rw [if_pos rfl,ha,Option.getD_some] at hl
       -- A node with a mark has no row; one without has the label that it has in the source.
       rcases htold with hmark | hmark
       · rw [hmark] at hl
         cases hl
       · rw [hmark] at hl
         obtain ⟨hg,hlab⟩ := hkept hmark
         refine ⟨_,mem_singleton.1 hl,.inr ⟨_,mem_singleton_self _,n,hn,hg,rfl,?_⟩⟩
         rw [nodeAttr?,ha]
         exact hlab
 · obtain ⟨e,_,rfl⟩ := mem_map.1 hl
   cases hto

lemma pairing_shuffledLines (qs : List Graph) (hqs : ∀ q ∈ qs, Traced g q) (k : Nat) (st : Streams) :
 ∃ lines, ((shuffledLines true k qs).run.run st).1 = .ok lines ∧
  ∀ l ∈ lines, l.toMapping → ∃ row, l = .pair row ∧ Pairing g (shuffled st.shuffling qs) row := by
 induction qs generalizing k st with
 | nil => exact ⟨[],rfl,fun _ h => by cases h⟩
 | cons q qs ih =>
  have hfir : ∀ l ∈ queryLines k true q (st.shuffling.shuffle q.ids).1, l.toMapping →
   ∃ row, l = .pair row ∧ Pairing g (shuffled st.shuffling (q :: qs)) row := by
   intro l hl hto
   obtain ⟨row,hrow,hpair⟩ :=
    pairing_queryLines (hqs q (by simp)) (Stream.shuffle_perm q.ids st.shuffling) k hl hto
   exact ⟨row,hrow,hpair.mono fun x hx => by rw [mem_singleton.1 hx,shuffled]; exact mem_cons_self⟩
  obtain ⟨lines,hrun,hres⟩ := ih (fun q' hq' => hqs q' (by simp [hq'])) (k + 1)
   { st with shuffling := (st.shuffling.shuffle q.ids).2 }
  rw [shuffledLines_cons]
  dsimp only
  split
  · exact ⟨_,rfl,hfir⟩
  · refine ⟨queryLines k true q (st.shuffling.shuffle q.ids).1 ++ lines,append_run hrun,
     fun l hl hto => ?_⟩
    rcases mem_append.1 hl with hl | hl
    · exact hfir l hl hto
    · obtain ⟨row,hrow,hpair⟩ := hres l hl hto
      exact ⟨row,hrow,hpair.mono fun x hx => mem_cons_of_mem _ hx⟩

lemma filterMap_takeWhile {P : String → Prop} {f : Line → Option String}
 (hpair : ∀ row, f (.pair row) = some (row ++ "\n"))
 (hoth : ∀ l, l.toMapping = false → f l = none) {lines : List Line}
 (h : ∀ l ∈ lines, l.toMapping → ∃ row, l = .pair row ∧ P row) :
 ∃ rows : List String, (lines.takeWhile isWritten).filterMap f = rows.map (· ++ "\n") ∧
  ∀ row ∈ rows, P row := by
 induction lines with
 | nil => exact ⟨[],rfl,fun _ h => by cases h⟩
 | cons l lines ih =>
  obtain ⟨rows,hrows,hall⟩ := ih fun l hl => h l (mem_cons_of_mem _ hl)
  by_cases hwri : isWritten l
  · rw [takeWhile_cons_of_pos hwri]
    cases hto : l.toMapping with
    | true =>
     obtain ⟨row,rfl,hrow⟩ := h l mem_cons_self hto
     refine ⟨row :: rows,?_,forall_mem_cons.2 ⟨hrow,hall⟩⟩
     rw [filterMap_cons_some (hpair row),hrows,map_cons]
    | false =>
     rw [filterMap_cons_none (hoth l hto)]
     exact ⟨rows,hrows,hall⟩
  · rw [takeWhile_cons_of_neg hwri]
    exact ⟨[],rfl,fun _ h => by cases h⟩

lemma written_true {P : String → Prop} {lines : List Line}
 (h : ∀ l ∈ lines, l.toMapping → ∃ row, l = .pair row ∧ P row) :
 ∃ rows : List String, written true lines = Text.ended rows ∧ ∀ row ∈ rows, P row := by
 unfold written
 refine (filterMap_takeWhile ?_ ?_ h).imp fun rows hrows => ⟨congrArg String.join hrows.1,hrows.2⟩
 · exact fun _ => rfl
 · exact fun l hl => if_neg (by rw [hl]; decide)

end MotifMatch.Corpus

namespace MotifMatch.Sampling
open Corpus Form
variable {g : Graph}

lemma turns_course (hg : g.Sound) (hm : g.multi = false)
 (hids : ∀ n ∈ g.ids, ∃ k < g.size, n = .num (Int.ofNat k))
 (patience : Nat) (induced : Bool) (count : Int) (mean spread : Float) (labels : LabelCounts) :
 Turns (estrange patience induced count mean spread labels) (.start g) (fun _ d => ∃ i, Course g i d)
  fun _ d => d = .start g ∨ ∃ i, Course g i d :=
 ((stable_course g).turns_estrange fun _ hpart => hpart.course hg hm fun _ =>
  lt_size_of_num_mem hids).imp
  (fun _ _ h => h.1) fun _ _ h => h

theorem marks_tell (hg : g.Sound) (hm : g.multi = false)
 (hids : ∀ n ∈ g.ids, ∃ k < g.size, n = .num (Int.ofNat k)) :
 (∀ patience induced count mean spread labels st r d st',
  Edit.on (estrange patience induced count mean spread labels) g st = (r,d,st') → d.given = g ∧
   ((d = .start g ∧ ∃ e, r = .error e) ∨
    ∃ hs part, d.past.map graph = hs ++ [part,g] ∧ Marked g part (d.work :: hs))) ∧
 ∀ qs : List Graph, (∀ q ∈ qs, ∃ induced count mean spread labels st,
  ((nonIsoQuery g induced count mean spread labels).run.run st).1 = .ok (some q)) →
  ∀ k st, ∃ lines rows, ((shuffledLines true k qs).run.run st).1 = .ok lines ∧
   written true lines = Text.ended rows ∧ ∀ row ∈ rows, Pairing g (shuffled st.shuffling qs) row := by
 constructor
 · intro patience induced count mean spread labels st r d st' hrun
   have hout := (turns_course hg hm hids patience induced count mean spread labels).on st
   rw [hrun] at hout
   have htold : ∀ i, Course g i d → d.given = g ∧ ((d = .start g ∧ ∃ e, r = .error e) ∨
    ∃ hs part, d.past.map graph = hs ++ [part,g] ∧ Marked g part (d.work :: hs)) := by
    intro i hd
    obtain ⟨hs,part,hgra,hmark,_⟩ := hd.marked
    exact ⟨hd.apart.given,.inr ⟨hs,part,hgra,hmark⟩⟩
   cases r with
   | ok found =>
    obtain ⟨i,hd⟩ := hout
    exact htold i hd
   | error e =>
    rcases hout with hsta | ⟨i,hd⟩
    · have hd : d = .start g := hsta
      exact ⟨hd ▸ rfl,.inl ⟨hd,e,rfl⟩⟩
    · exact htold i hd
 · intro qs hqs k st
   have htra : ∀ q ∈ qs, Traced g q := by
    intro q hq
    obtain ⟨induced,count,mean,spread,labels,st,hrun⟩ := hqs q hq
    exact gives_estranged (turns_course hg hm hids _ _ _ _ _ _)
     (fun _ ⟨_,hd⟩ => hd.traced) st _ _ trivial (Prod.ext hrun rfl) q rfl
   obtain ⟨lines,hrun,hline⟩ := pairing_shuffledLines qs htra k st
   obtain ⟨rows,hrows,hall⟩ := written_true hline
   exact ⟨lines,rows,hrun,hrows,hall⟩

theorem triangle_marks : ∃ d st' hs part, Edit.on (estrange 100 false 3 2.0 1.0 ⟨2,1⟩) triangle
 ⟨.seed 0,.seed 0⟩ = (.ok true,d,st') ∧
 d.given = triangle ∧ d.past.map graph = hs ++ [part,triangle] ∧
  Marked triangle part (d.work :: hs) := by
 obtain ⟨d,st',hrun⟩ := triangle_foreign
 obtain ⟨hgiv,⟨_,_,he⟩ | ⟨hs,part,hgra,hmark⟩⟩ :=
  (marks_tell triangle_labelled.sound triangle_labelled.single (by decide)).1 _ _ _ _ _ _
   _ _ _ _ hrun
 · cases he
 · exact ⟨d,st',hs,part,hrun,hgiv,hgra,hmark⟩

end MotifMatch.Sampling
