import MotifMatch.Proofs.Rounds
import MotifMatch.Proofs.Tries
import MotifMatch.Proofs.Walks

namespace MotifMatch.Normal
open List Manner Nat MotifMatch.Graph
variable {g : Graph} {a : NodeId} {u v : Word} {w : Word}
section
variable {t : Graph} {ws : List Word}

def wordAt (ws : List Word) : NodeId → Word
 | .num i => ws.getD i.toNat []
 | _ => []

lemma wordAt_nodeOf (hw : w ∈ ws) : wordAt ws (nodeOf ws w) = w := by
 simp [wordAt,nodeOf,getElem?_idxOf hw]

lemma arc_or_arc : Arc u v ∨ Arc v u ↔ Prolongs u v ∨ Prolongs v u := by
 constructor
 · rintro ((⟨l,_,h⟩ | ⟨l,_,h⟩) | (⟨l,_,h⟩ | ⟨l,_,h⟩))
   · exact .inl ⟨l,h⟩
   · exact .inr ⟨l,h⟩
   · exact .inr ⟨l,h⟩
   · exact .inl ⟨l,h⟩
 · rintro (⟨l,rfl⟩ | ⟨l,rfl⟩) <;> cases hl : l.forward
   · exact .inr (.inr ⟨l,hl,rfl⟩)
   · exact .inl (.inl ⟨l,hl,rfl⟩)
   · exact .inl (.inr ⟨l,hl,rfl⟩)
   · exact .inr (.inl ⟨l,hl,rfl⟩)

structure Spread (t : Graph) (ws : List Word) : Prop where
 rooted : Rooted ws
 ids : t.ids = (range ws.length).map fun i => .num i
 arcs : ∀ u ∈ ws, ∀ v ∈ ws, t.hasEdge (nodeOf ws u) (nodeOf ws v) = true ↔
  Arc u v ∨ (t.directed = false ∧ Arc v u)

lemma Grown.spread (h : Grown t ws) : Spread t ws :=
 ⟨h.rooted,h.ids,fun _ hu _ hv => h.hasEdge_iff hu hv⟩

variable (h : Spread t ws)
include h

lemma Spread.nodeOf_mem (hw : w ∈ ws) : nodeOf ws w ∈ t.ids := by
 rw [h.ids]
 exact mem_map.2 ⟨_,mem_range.2 (idxOf_lt_length_of_mem hw),rfl⟩

lemma Spread.eq_nodeOf {n : NodeId} (hn : n ∈ t.ids) : ∃ w ∈ ws, n = nodeOf ws w := by
 rw [h.ids] at hn
 obtain ⟨i,hi,rfl⟩ := mem_map.1 hn
 rw [mem_range] at hi
 exact ⟨ws[i],getElem_mem hi,by rw [nodeOf,h.rooted.nodup.idxOf_getElem]⟩

lemma Spread.joined_iff (hu : u ∈ ws) (hv : v ∈ ws) :
 t.hasEdge (nodeOf ws u) (nodeOf ws v) ∨ t.hasEdge (nodeOf ws v) (nodeOf ws u) ↔
  Prolongs u v ∨ Prolongs v u := by
 rw [h.arcs u hu v hv,h.arcs v hv u hu,← arc_or_arc]
 constructor
 · rintro ((h | ⟨_,h⟩) | (h | ⟨_,h⟩))
   · exact .inl h
   · exact .inr h
   · exact .inr h
   · exact .inl h
 · rintro (h | h)
   · exact .inl (.inl h)
   · exact .inr (.inl h)

lemma Spread.carries (hne : ws ≠ []) : Carries t (· ∈ ws) (nodeOf ws) (wordAt ws) where
 back := fun _ hw => wordAt_nodeOf hw
 ids := fun n => ⟨h.eq_nodeOf,fun ⟨_,hw,heq⟩ => heq ▸ h.nodeOf_mem hw⟩
 root := by
  obtain ⟨r,hr⟩ := exists_mem_of_ne_nil ws hne
  obtain ⟨l,rest,rfl⟩ := exists_cons_of_ne_nil (h.rooted.pos r hr)
  refine ⟨l,h.rooted.take_mem hr one_pos,fun w hw => ?_⟩
  have hsame : w.take 1 = [l] :=
   Option.some.inj ((h.rooted.root w hw).symm.trans (h.rooted.root _ hr))
  rw [← hsame]
  exact take_prefix 1 w
 closed := h.rooted.closed
 joined := fun _ _ hu hv => h.joined_iff hu hv

end

variable {m : Manner} {done counted : List Trail} {ws : List Word} {s : Growth}

lemma distance_along (hm : m.marked = false) {n : Nat} (hn : 0 < n) :
 m.distance (m.unit * n) = .int ((n - 1 : Nat) : Int) := by
 simp only [distance,unit,hm,Bool.false_eq_true,if_false,one_mul,Value.int.injEq]
 omega

lemma furthest_along (hm : m.marked = false) (k : Nat) : m.furthest (m.unit * (k + 1)) = .int k := by
 rw [Manner.furthest,distance_along hm (by omega),Nat.add_sub_cancel]
 simp only [unit,hm,Bool.false_eq_true,if_false,one_mul]
 split
 · next h => rw [show k = 0 by omega]; rfl
 · rfl

lemma Traced.longest_word (h : Traced m g done done ws s) (hsta : [(m.anchor,false)] ∈ done) :
 ∃ k : Nat, s.longest = m.unit * (k + 1) ∧ (∃ w ∈ ws, w.length = k + 1) ∧
  ∀ w ∈ ws, w.length ≤ k + 1 := by
 have hunit : 0 < m.unit := by
  rw [unit]
  split <;> omega
 have hpos : m.unit * 1 ≤ s.longest := h.within _ hsta
 obtain ⟨t,ht,hlen⟩ := h.attained.resolve_left (by omega)
 have htpos : 0 < t.length := length_pos_iff.2 (h.roams t ht).ne_nil
 refine ⟨t.length - 1,?_,⟨word g t,(h.words _).2 ⟨t,ht,rfl⟩,?_⟩,?_⟩
 · rw [Nat.sub_add_cancel htpos,hlen]
 · rw [word_length,Nat.sub_add_cancel htpos]
 · intro w hw
   obtain ⟨x,hx,rfl⟩ := (h.words w).1 hw
   rw [word_length,Nat.sub_add_cancel htpos]
   exact le_of_mul_le_mul_left (le_trans (h.within x hx) (le_of_eq hlen.symm)) hunit

lemma Traced.nodeAttr? (h : Traced m g done counted ws s) (hw : w ∈ ws) {k : String}
 (hk : k ∉ scratch) : ∃ e rest, e :: rest ∈ done ∧ word g (e :: rest) = w ∧
  s.tree.nodeAttr? (nodeOf ws w) k = g.nodeAttr? e.1 k := by
 obtain ⟨a,ha,hb⟩ := h.nodes w hw
 obtain ⟨e,rest,b,hdone,hword,hatt,hali⟩ := hb.origin
 refine ⟨e,rest,hdone,hword,?_⟩
 simp only [Graph.nodeAttr?,ha,hatt,Option.bind_some]
 exact hali k hk

lemma Traced.label (hr : Ready m g) (h : Traced m g done counted ws s) {l : Letter}
 (hw : w ++ [l] ∈ ws) : ∃ v, s.tree.nodeAttr? (nodeOf ws (w ++ [l])) "label" = some v ∧
  v.text.toList = [l.char] := by
 obtain ⟨e,rest,hdone,hword,hattr⟩ := h.nodeAttr? hw (k := "label") (by decide)
 have he : e.1 ∈ g.ids := (h.roams _ hdone).mem_ids hr e (by simp)
 obtain ⟨v,hv,_⟩ := hr.lettered e.1 he
 rw [word_cons] at hword
 have hl := (append_inj' hword rfl).2
 refine ⟨v,hattr.trans hv,?_⟩
 rw [hr.lettered.toList_label he hv,← (cons.inj hl).1]

lemma Proper.text_push_iff (hm : m.marked = false) (hu : Proper m u) (hv : Proper m v) :
 (∃ c, m.text v = (m.text u).push c) ↔ Prolongs u v := by
 constructor
 · rintro ⟨c,hc⟩
   rw [← String.toList_inj,String.toList_push,text,text,String.toList_ofList,
    String.toList_ofList] at hc
   have hlen := congrArg length hc
   rw [length_append,spell_length,spell_length,length_singleton] at hlen
   simp only [unit,hm,Bool.false_eq_true,if_false,one_mul] at hlen
   have hpos : 0 < u.length := length_pos_iff.2 hu.ne_nil
   obtain ⟨v',l,rfl⟩ : ∃ v' l, v = v' ++ [l] := ⟨_,_,(dropLast_append_getLast hv.ne_nil).symm⟩
   rw [spell_append] at hc
   have hsame := (append_inj' hc (by simp [spell,inscribe,hm])).1
   have hv' : Proper m v' := by
    have := hv.take (n := v'.length) (by simp at hlen; omega)
    rwa [take_left] at this
   exact ⟨l,by rw [hu.spell_inj hv' hsame.symm]⟩
 · rintro ⟨l,rfl⟩
   refine ⟨l.char,?_⟩
   rw [← String.toList_inj,String.toList_push,text,text,String.toList_ofList,
    String.toList_ofList,spell_append]
   simp [spell,inscribe,hm]

lemma form_traced (limit : Int) (hg : g.Sound) (hd : g.directed = false) (ha : g.AnchoredAt a)
 (hl : g.Lettered) : ∃ s ws done, (form g limit false).2 =
  .ok ⟨s.tree,furthest ⟨false,limit,a⟩ s.longest⟩ ∧
  s.tree.directed = false ∧
  Traced ⟨false,limit,a⟩ g done done ws s ∧
  ∀ t, t ∈ done ↔ Roams ⟨false,limit,a⟩ g t ∧ ((t.length - 1 : Nat) : Int) < limit := by
 have hanc := ha.anchor_eq hg.ids
 have hr : Ready ⟨false,limit,g.anchor⟩ g := ⟨hg,hl,hanc ▸ ha.mem,hd.symm⟩
 obtain ⟨s,ws,done,hform,hdir,htr,hdone⟩ := formBy_traced hr false
 rw [hanc] at hform htr hdone
 refine ⟨s,ws,done,?_,hdir,htr,by simpa using hdone⟩
 rw [form,hd]
 simp [hform]

structure HoldsWalks (g : Graph) (a : NodeId) (limit : Int) (f : Form) (texts : List String) :
 Prop where
 undirected : f.tree.directed = false
 ids : f.tree.ids = (range texts.length).map fun i => .num i
 distinct : texts.Nodup
 walks : ∀ s, s ∈ texts ↔ ∃ w, IsWalk g a w ∧ (w.length : Int) ≤ limit ∧ g.labelText w = s
 root : texts[0]? = some (g.labelText [a])
 joined : ∀ (i j : Nat) (s t : String), texts[i]? = some s → texts[j]? = some t →
  (f.tree.hasEdge (.num i) (.num j) = true ↔ (∃ c, t = s.push c) ∨ ∃ c, s = t.push c)
 isTree : f.tree.skeleton.IsTree
 edges : f.tree.edges.length + 1 = texts.length
 siblings : ∀ (i j : Nat) (r s t : String) (v x : Value), texts[i]? = some s → texts[j]? = some t →
  (∃ c, s = r.push c) → (∃ c, t = r.push c) → f.tree.nodeAttr? (.num i) "label" = some v →
  f.tree.nodeAttr? (.num j) "label" = some x → v.text = x.text → i = j
 distance : ∀ (i : Nat) (s : String), texts[i]? = some s →
  f.tree.nodeAttr? (.num i) "distance" = some (.int (s.length - 1))
 label : ∀ (i : Nat) (s : String), texts[i]? = some s → ∃ w n v, IsWalk g a (w ++ [n]) ∧
  g.nodeAttr? n "label" = some v ∧ s = g.labelText w ++ v.text ∧
   f.tree.nodeAttr? (.num i) "label" = some v
 furthest : ∃ k : Nat, f.furthest = .int k ∧ (∃ s ∈ texts, s.length = k + 1) ∧
  ∀ s ∈ texts, s.length ≤ k + 1

lemma Traced.mem_texts (hr : Ready m g) (hm : m.marked = false) (h : Traced m g done counted ws s)
 (hdone : ∀ t, t ∈ done ↔ Roams m g t ∧ ((t.length - 1 : Nat) : Int) < m.limit) (x : String) :
 x ∈ ws.map m.text ↔ ∃ w, IsWalk g m.anchor w ∧ (w.length : Int) ≤ m.limit ∧ g.labelText w = x := by
 rw [mem_map]
 constructor
 · rintro ⟨w,hw,rfl⟩
   obtain ⟨t,ht,rfl⟩ := (h.words w).1 hw
   obtain ⟨hroa,hlim⟩ := (hdone t).1 ht
   have hpos : 0 < t.length := length_pos_iff.2 hroa.ne_nil
   obtain ⟨p,hp,rfl⟩ := (roams_iff_walk hm).1 hroa
   rw [length_trailOf] at hlim hpos
   exact ⟨p,hp,by omega,(text_trailOf hm hr.lettered (hp.mem_ids hr hm)).symm⟩
 · rintro ⟨p,hp,hlim,rfl⟩
   have hroa := (roams_iff_walk hm).2 ⟨p,hp,rfl⟩
   have hpos : 0 < p.length := by
    rw [← length_trailOf]
    exact length_pos_iff.2 hroa.ne_nil
   refine ⟨_,(h.words _).2 ⟨_,(hdone _).2 ⟨hroa,?_⟩,rfl⟩,
    text_trailOf hm hr.lettered (hp.mem_ids hr hm)⟩
   rw [length_trailOf]
   omega

lemma Traced.nodup_texts (h : Traced m g done counted ws s) : (ws.map m.text).Nodup :=
 (nodup_map_iff_inj_on h.tree.rooted.nodup).2 fun _ hu _ hv huv =>
  (h.proper hu).text_inj (h.proper hv) huv

lemma Grown.place {t : Graph} (h : Grown t ws) {i : Nat} {x : String}
 (hx : (ws.map m.text)[i]? = some x) :
 ∃ w ∈ ws, m.text w = x ∧ NodeId.num i = nodeOf ws w := by
 rw [getElem?_map,Option.map_eq_some_iff] at hx
 obtain ⟨w,hw,rfl⟩ := hx
 obtain ⟨hi,rfl⟩ := List.getElem?_eq_some_iff.1 hw
 exact ⟨_,getElem_mem hi,rfl,by rw [nodeOf,h.rooted.nodup.idxOf_getElem]⟩

lemma Traced.root_text (hr : Ready m g) (h : Traced m g done counted ws s)
 (hsta : [(m.anchor,false)] ∈ done) (hm : m.marked = false) :
 (ws.map m.text)[0]? = some (g.labelText [m.anchor]) := by
 have hmem : word g [(m.anchor,false)] ∈ ws := (h.words _).2 ⟨_,hsta,rfl⟩
 have hhead := h.tree.rooted.root _ hmem
 rw [take_of_length_le (by simp [word]),head?_eq_getElem?] at hhead
 rw [getElem?_map,hhead,Option.map_some]
 exact congrArg some (text_trailOf hm hr.lettered (isWalk_singleton.mem_ids hr hm))

lemma Traced.joined_texts (hm : m.marked = false) (h : Traced m g done counted ws s)
 (hd : s.tree.directed = false) (hu : u ∈ ws) (hv : v ∈ ws) :
 s.tree.hasEdge (nodeOf ws u) (nodeOf ws v) ↔
  (∃ c, m.text v = (m.text u).push c) ∨ ∃ c, m.text u = (m.text v).push c := by
 rw [(h.proper hu).text_push_iff hm (h.proper hv),(h.proper hv).text_push_iff hm (h.proper hu),
  ← h.tree.spread.joined_iff hu hv,Graph.hasEdge_comm hd (nodeOf ws v),or_self]

lemma Traced.sibling_texts (hr : Ready m g) (hm : m.marked = false)
 (h : Traced m g done counted ws s)
 (hu : u ∈ ws) (hv : v ∈ ws) {r : String} (hur : ∃ c, m.text u = r.push c)
 (hvr : ∃ c, m.text v = r.push c) {x y : Value}
 (hx : s.tree.nodeAttr? (nodeOf ws u) "label" = some x)
 (hy : s.tree.nodeAttr? (nodeOf ws v) "label" = some y) (hxy : x.text = y.text) : u = v := by
 have hlast : ∀ {w : Word} {z : Value} {c : Char}, w ∈ ws →
  s.tree.nodeAttr? (nodeOf ws w) "label" = some z → m.text w = r.push c → z.text.toList = [c] := by
  intro w z c hw hz hc
  obtain ⟨w',l,rfl⟩ : ∃ w' l, w = w' ++ [l] :=
   ⟨_,_,(dropLast_append_getLast (h.tree.rooted.pos w hw)).symm⟩
  obtain ⟨z',hz',htext⟩ := h.label hr hw
  obtain rfl := Option.some.inj (hz.symm.trans hz')
  rw [← String.toList_inj,String.toList_push,text,String.toList_ofList,spell_append] at hc
  rw [htext,← (append_inj' hc (by simp [spell,inscribe,hm])).2]
  simp [spell,inscribe,hm]
 obtain ⟨c,hc⟩ := hur
 obtain ⟨d,hd⟩ := hvr
 have hcd : [c] = [d] := by rw [← hlast hu hx hc,← hlast hv hy hd,hxy]
 refine (h.proper hu).text_inj (h.proper hv) ?_
 rw [hc,hd,(cons.inj hcd).1]

lemma Traced.walk_label (hr : Ready m g) (hm : m.marked = false)
 (h : Traced m g done counted ws s) {u : Word}
 (hu : u ∈ ws) : ∃ w n v, IsWalk g m.anchor (w ++ [n]) ∧ g.nodeAttr? n "label" = some v ∧
  m.text u = g.labelText w ++ v.text ∧ s.tree.nodeAttr? (nodeOf ws u) "label" = some v := by
 obtain ⟨e,rest,hdone,rfl,hattr⟩ := h.nodeAttr? hu (k := "label") (by decide)
 have hroa := h.roams _ hdone
 obtain ⟨p,hp,hpt⟩ := (roams_iff_walk hm).1 hroa
 have hne : p ≠ [] := by
  rintro rfl
  simp [trailOf] at hpt
 obtain ⟨w,n,rfl⟩ : ∃ w n, p = w ++ [n] := ⟨_,_,(dropLast_append_getLast hne).symm⟩
 obtain rfl : n = e.1 := by
  have := head?_trailOf (w ++ [n])
  rw [hpt] at this
  simpa using this.symm
 obtain ⟨v,hv,_⟩ := hr.lettered e.1 (hroa.mem_ids hr e (by simp))
 refine ⟨w,e.1,v,hp,hv,?_,hattr.trans hv⟩
 rw [← hpt,text_trailOf hm hr.lettered (hp.mem_ids hr hm)]
 simp [Graph.labelText,hv]

lemma Traced.furthest_text (hm : m.marked = false) (h : Traced m g done done ws s)
 (hsta : [(m.anchor,false)] ∈ done) : ∃ k : Nat, m.furthest s.longest = .int k ∧
  (∃ x ∈ ws.map m.text, x.length = k + 1) ∧ ∀ x ∈ ws.map m.text, x.length ≤ k + 1 := by
 have hlen : ∀ w : Word, (m.text w).length = w.length := by
  intro w
  rw [text_length,unit,hm]
  simp
 obtain ⟨k,hk,⟨w,hw,hwk⟩,hall⟩ := h.longest_word hsta
 refine ⟨k,by rw [hk,furthest_along hm],⟨_,mem_map_of_mem hw,(hlen w).trans hwk⟩,?_⟩
 intro x hx
 obtain ⟨w,hw,rfl⟩ := mem_map.1 hx
 rw [hlen]
 exact hall w hw

theorem form_holdsWalks {limit : Int} (hg : g.Sound) (hd : g.directed = false) (ha : g.AnchoredAt a)
 (hl : g.Lettered) (hlim : 1 ≤ limit) :
 ∃ f texts, (form g limit false).2 = .ok f ∧ HoldsWalks g a limit f texts := by
 obtain ⟨s,ws,done,hform,hdir,h,hdone⟩ := form_traced limit hg hd ha hl
 have hr : Ready ⟨false,limit,a⟩ g := ⟨hg,hl,ha.mem,hd.symm⟩
 have hsta : [(a,false)] ∈ done := (hdone _).2 ⟨.start,show ((0 : Nat) : Int) < limit by omega⟩
 have hne : ws ≠ [] := ne_nil_of_mem ((h.words _).2 ⟨_,hsta,rfl⟩)
 refine ⟨_,ws.map (text ⟨false,limit,a⟩),hform,hdir,?_,h.nodup_texts,h.mem_texts hr rfl hdone,
  h.root_text hr hsta rfl,?_,(h.tree.spread.carries hne).trie.isTree,?_,?_,?_,?_,
   h.furthest_text rfl hsta⟩
 · rw [List.length_map]
   exact h.tree.ids
 · intro i j x y hx hy
   obtain ⟨u,hu,rfl,hi⟩ := h.tree.place hx
   obtain ⟨v,hv,rfl,hj⟩ := h.tree.place hy
   rw [hi,hj]
   exact h.joined_texts rfl hdir hu hv
 · have hpos : 0 < ws.length := length_pos_iff.2 hne
   rw [h.tree.edges,List.length_map,List.length_map,List.length_tail]
   omega
 · intro i j r x y v z hx hy hxr hyr hv hz hvz
   obtain ⟨u,hu,rfl,hi⟩ := h.tree.place hx
   obtain ⟨w,hw,rfl,hj⟩ := h.tree.place hy
   rw [hi] at hv
   rw [hj] at hz
   have huw := h.sibling_texts hr rfl hu hw hxr hyr hv hz hvz
   rw [huw,← hj] at hi
   simpa only [NodeId.num.injEq,Int.natCast_inj] using hi
 · intro i x hx
   obtain ⟨u,hu,rfl,hi⟩ := h.tree.place hx
   obtain ⟨b,hb,hbea⟩ := h.nodes u hu
   rw [hi,nodeAttr?,hb,Option.bind_some,hbea.distance,text_length]
   rfl
 · intro i x hx
   obtain ⟨u,hu,rfl,hi⟩ := h.tree.place hx
   rw [hi]
   exact h.walk_label hr rfl hu

def loopedTriangle : Graph where
 directed := false
 multi := false
 nodes := ⟨[(.num 1,⟨[("label",.str "A"),("anchor",.int 1)]⟩),
  (.num 2,⟨[("label",.str "B"),("anchor",.int 0)]⟩),
   (.num 3,⟨[("label",.str "B"),("anchor",.int 0)]⟩)]⟩
 edges := [⟨.num 1,.num 2,.none,.empty⟩,⟨.num 2,.num 3,.none,.empty⟩,⟨.num 1,.num 3,.none,.empty⟩,
  ⟨.num 2,.num 2,.none,.empty⟩]

lemma loopedTriangle_sound : loopedTriangle.Sound := by decide

lemma loopedTriangle_anchored : loopedTriangle.AnchoredAt (.num 1) :=
 anchoredAt_of_filter loopedTriangle_sound.ids (by
  simp [loopedTriangle,isAnchor,Table.get?,Value.same_int])

theorem loopedTriangle_holdsWalks : loopedTriangle.Lettered ∧
 ∃ f texts, (form loopedTriangle 4 false).2 = .ok f ∧ HoldsWalks loopedTriangle (.num 1) 4 f texts :=
 ⟨by decide,form_holdsWalks loopedTriangle_sound rfl loopedTriangle_anchored (by decide) (by decide)⟩

end MotifMatch.Normal
