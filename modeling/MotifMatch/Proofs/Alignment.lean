import MotifMatch.Proofs.AnchorPaths
import MotifMatch.Proofs.DepthFirst
import MotifMatch.Proofs.EdgeLists
import MotifMatch.Proofs.NormalForms

namespace MotifMatch.Normal
open List MotifMatch.Graph Nat NodeId Letter Manner

structure Spelt (m : Manner) (t : Graph) (ws : List Word) : Prop where
 spread : Spread t ws
 nonempty : ws ≠ []
 sound : t.Sound
 multi : t.multi = false
 kind : t.directed = m.marked
 proper : ∀ w ∈ ws, Proper m w
 label : ∀ w l, w ++ [l] ∈ ws → ∃ v, t.nodeAttr? (nodeOf ws (w ++ [l])) "label" = some v ∧
  v.text.toList = [l.char]
 anchored : t.AnchoredAt (.num 0)

structure Worded (m : Manner) (t : Graph) (ws : List Word) (node : Word → NodeId)
 (back : NodeId → Word) : Prop where
 rooted : Rooted ws
 carries : Carries t (· ∈ ws) node back
 inscribed : Inscribed t (· ∈ ws) node char
 sound : t.Sound
 multi : t.multi = false
 kind : t.directed = m.marked
 proper : ∀ w ∈ ws, Proper m w
 number : ∀ w ∈ ws, ∃ i : Nat, node w = .num i
 forward : t.directed = true → ∀ v l, v ∈ ws → v ++ [l] ∈ ws →
  t.hasEdge (node v) (node (v ++ [l])) = l.forward

variable {m : Manner} {g t : Graph} {ws : List Word} {done counted : List Trail}
 {s : Growth} {w : Word}
 {node : Word → NodeId} {back : NodeId → Word}
lemma Rooted.nodeOf_root (hr : Rooted ws) (hw : w ∈ ws) : nodeOf ws w = .num 0 ↔ w.length = 1 := by
 have hroot := hr.root w hw
 obtain ⟨r,rest,rfl⟩ : ∃ r rest, ws = r :: rest := exists_cons_of_ne_nil (ne_nil_of_mem hw)
 simp only [head?_cons,Option.some.injEq] at hroot
 have hpos : 0 < w.length := length_pos_iff.2 (hr.pos w hw)
 constructor
 · intro h
   have hzero : nodeOf (r :: rest) r = .num 0 := by simp [nodeOf]
   rw [nodeOf_inj hw (h.trans hzero.symm),hroot,length_take]
   omega
 · intro h
   rw [take_of_length_le (by omega)] at hroot
   rw [← hroot]
   simp [nodeOf]

lemma Roams.eq_start {e : NodeId × Bool} {rest : Trail} (h : Roams m g (e :: rest)) :
 e.1 = m.anchor ↔ rest = [] := by
 constructor
 · intro he
   cases h with
   | start => rfl
   | step _ _ haway _ => exact absurd he haway
 · rintro rfl
   cases h
   rfl

lemma Traced.anchored (ha : g.AnchoredAt m.anchor) (h : Traced m g done counted ws s)
 (hne : ws ≠ []) :
 s.tree.AnchoredAt (.num 0) := by
 have hword : ∀ w ∈ ws, (s.tree.nodeAttr? (nodeOf ws w) "anchor" == some (.int 1)) ↔
  nodeOf ws w = .num 0 := by
  intro w hw
  obtain ⟨e,rest,hdone,rfl,hattr⟩ := h.nodeAttr? hw (k := "anchor") (by decide)
  rw [hattr,anchoredAt_iff.1 ha,(h.roams _ hdone).eq_start,h.tree.rooted.nodeOf_root hw,word_length]
  simp
 rw [anchoredAt_iff]
 intro n
 by_cases hn : n ∈ s.tree.ids
 · obtain ⟨w,hw,rfl⟩ := h.tree.spread.eq_nodeOf hn
   exact hword w hw
 · have hroot : num 0 ∈ s.tree.ids := by
    rw [h.tree.mem_ids]
    exact ⟨0,length_pos_iff.2 hne,rfl⟩
   have hn0 : n ≠ .num 0 := fun heq => hn (heq ▸ hroot)
   simp [nodeAttr?_of_not_mem hn,hn0]

lemma Traced.spelt (hr : Ready m g) (ha : g.AnchoredAt m.anchor) (h : Traced m g done counted ws s)
 (hne : ws ≠ []) (hd : s.tree.directed = m.marked) : Spelt m s.tree ws where
 spread := h.tree.spread
 nonempty := hne
 sound := h.tree.sound
 multi := h.tree.multi
 kind := hd
 proper := fun _ hw => h.proper hw
 label := fun _ _ hw => h.label hr hw
 anchored := h.anchored ha hne

lemma form_undirected (hd : g.directed = false) (limit : Int) :
 form g limit false = formBy g limit g.directed g.directed := by
 simp [form,hd]

lemma formBy_nonempty {a : NodeId} {limit : Int} (hg : g.Sound) (ha : g.AnchoredAt a)
 (hl : g.Lettered)
 (hlim : 1 ≤ limit) : ∃ f, (formBy g limit g.directed g.directed).2 = .ok f ∧ f.tree.ids ≠ [] := by
 obtain rfl := ha.anchor_eq hg.ids
 have hr : Ready ⟨g.directed,limit,g.anchor⟩ g := ⟨hg,hl,ha.mem,rfl⟩
 obtain ⟨s,ws,done,hform,_,h,hdone⟩ := formBy_traced hr g.directed
 have hsta : [(g.anchor,false)] ∈ done := (hdone _).2 ⟨.start,by rw [length_singleton]; omega⟩
 refine ⟨_,by rw [hform],?_⟩
 exact ne_nil_of_mem (h.tree.spread.nodeOf_mem ((h.words _).2 ⟨_,hsta,rfl⟩))

lemma formBy_spelt {a : NodeId} {limit : Int} {f : Form} (hm : m.marked = g.directed) (hg : g.Sound)
 (ha : g.AnchoredAt a) (hl : g.Lettered) (hf : (formBy g limit g.directed g.directed).2 = .ok f)
 (hne : f.tree.ids ≠ []) : ∃ ws, Spelt m f.tree ws ∧ ∀ w, w ∈ ws ↔
  ∃ t, Roams ⟨g.directed,limit,a⟩ g t ∧
  (((if g.directed then 2 else 1) * (t.length - 1) : Nat) : Int) < limit ∧ word g t = w := by
 obtain rfl := ha.anchor_eq hg.ids
 have hr : Ready ⟨g.directed,limit,g.anchor⟩ g := ⟨hg,hl,ha.mem,rfl⟩
 obtain ⟨s,ws,done,hform,hdir,h,hdone⟩ := formBy_traced hr g.directed
 rw [hform] at hf
 cases hf
 have hws : ws ≠ [] := by
  rintro rfl
  exact hne h.tree.spread.ids
 have hs := h.spelt hr ha hws hdir
 refine ⟨ws,{ hs with kind := hs.kind.trans hm.symm, proper := fun w hw => ?_ },fun w => ?_⟩
 · exact ⟨(hs.proper w hw).start,fun hunm => (hs.proper w hw).along (hm.symm.trans hunm)⟩
 · rw [h.words]
   constructor
   · rintro ⟨t,ht,hw⟩
     exact ⟨t,((hdone t).1 ht).1,((hdone t).1 ht).2,hw⟩
   · rintro ⟨t,hroa,hlim,hw⟩
     exact ⟨t,(hdone t).2 ⟨hroa,hlim⟩,hw⟩

section
variable (h : Spelt m t ws)
include h

lemma Spelt.anchor_eq : t.anchor = .num 0 := h.anchored.anchor_eq h.sound.ids

lemma Spelt.carries : Carries t (· ∈ ws) (nodeOf ws) (wordAt ws) := h.spread.carries h.nonempty

lemma Spelt.inscribed : Inscribed t (· ∈ ws) (nodeOf ws) char where
 ids := h.sound.ids
 label := h.label
 anchor := fun _ hw => (anchoredAt_iff.1 h.anchored _).trans (h.spread.rooted.nodeOf_root hw)

lemma Spelt.hasEdge_forward (hd : t.directed) {v : Word} {l : Letter} (hv : v ∈ ws)
 (hw : v ++ [l] ∈ ws) : t.hasEdge (nodeOf ws v) (nodeOf ws (v ++ [l])) = l.forward := by
 rw [Bool.eq_iff_iff,h.spread.arcs _ hv _ hw,hd]
 simp only [Bool.true_eq_false,false_and,or_false]
 constructor
 · rintro (⟨k,hk,heq⟩ | ⟨k,_,heq⟩)
   · have hlk := (append_inj' heq rfl).2
     rw [(cons.inj hlk).1]
     exact hk
   · have hlen := congrArg length heq
     simp only [length_append,length_singleton] at hlen
     omega
 · intro hl
   exact .inl ⟨l,hl,rfl⟩

lemma Spelt.worded : Worded m t ws (nodeOf ws) (wordAt ws) where
 rooted := h.spread.rooted
 carries := h.carries
 inscribed := h.inscribed
 sound := h.sound
 multi := h.multi
 kind := h.kind
 proper := h.proper
 number := fun w _ => ⟨ws.idxOf w,rfl⟩
 forward := fun hd _ _ hv hw => h.hasEdge_forward hd hv hw

end

section
variable (h : Worded m t ws node back)
include h

lemma Worded.relisted : Worded m t.relisted ws node back where
 rooted := h.rooted
 carries := ⟨h.carries.back,h.carries.ids,h.carries.root,h.carries.closed,fun u v hu hv => by
  rw [hasEdge_relisted h.sound,hasEdge_relisted h.sound]
  exact h.carries.joined u v hu hv⟩
 inscribed := ⟨h.inscribed.ids,h.inscribed.label,h.inscribed.anchor⟩
 sound := h.sound.relisted
 multi := h.multi
 kind := h.kind
 proper := h.proper
 number := h.number
 forward := fun hd v l hv hw => by
  rw [hasEdge_relisted h.sound]
  exact h.forward hd v l hv hw

lemma Worded.exists_root : ∃ l, [l] ∈ ws ∧ node [l] = t.anchor := by
 obtain ⟨l,hl,hat⟩ := h.carries.anchoredAt h.inscribed
 exact ⟨l,hl,(hat.anchor_eq h.sound.ids).symm⟩

lemma Worded.inj {u v : Word} (hu : u ∈ ws) (hv : v ∈ ws) (huv : node u = node v) : u = v := by
 rw [← h.carries.back u hu,huv,h.carries.back v hv]

lemma Worded.size_eq : t.size = ws.length := by
 have hnod : (ws.map node).Nodup := h.rooted.nodup.map_on fun u hu v hv => h.inj hu hv
 have hper : t.ids.Perm (ws.map node) := (perm_ext_iff_of_nodup h.sound.ids hnod).2 fun n => by
  rw [h.carries.ids,mem_map]
  exact exists_congr fun w => and_congr_right fun _ => eq_comm
 rw [size_eq_length,hper.length_eq,length_map]

end

lemma formBy_label {a : NodeId} {limit : Int} {f : Form} (hg : g.Sound) (ha : g.AnchoredAt a)
 (hl : g.Lettered)
 (hf : (formBy g limit g.directed g.directed).2 = .ok f) (hne : f.tree.ids ≠ []) :
 ∃ v, f.tree.nodeAttr? f.tree.anchor "label" = some v ∧ v.text.toList = [g.letter a] := by
 obtain ⟨ws,hs,hws⟩ := formBy_spelt (m := ⟨g.directed,limit,a⟩) rfl hg ha hl hf hne
 obtain ⟨l,hroot,hnode⟩ := hs.worded.exists_root
 obtain ⟨v,hv,htext⟩ := hs.label [] l hroot
 obtain ⟨t,hroa,_,hword⟩ := (hws _).1 hroot
 obtain ⟨e,rest,rfl⟩ := exists_cons_of_ne_nil hroa.ne_nil
 have hres : rest = [] := length_eq_zero_iff.1 (by simpa [word_length] using congrArg length hword)
 have hea : e.1 = a := hroa.eq_start.2 hres
 rw [hres,word_cons] at hword
 have hchar : g.letter e.1 = l.char := congrArg char (cons.inj hword).1
 exact ⟨v,by rwa [nil_append,hnode] at hv,by rw [htext,← hchar,hea]⟩

def pathOf (node : Word → NodeId) (w : Word) : List NodeId :=
 (range w.length).map fun i => node (w.take (i + 1))

def strand (marked : Bool) (w : Word) : List Char := (spell marked w).drop (if marked then 1 else 0)

def Leaf (ws : List Word) (w : Word) : Prop := ∀ l, w ++ [l] ∉ ws

def branchOf (m : Manner) (node : Word → NodeId) (w : Word) : Branch :=
 ⟨pathOf node w,String.ofList (strand m.marked w)⟩

def Lists (m : Manner) (node : Word → NodeId) (ws : List Word) (bs : List Branch) : Prop :=
 ∀ b, b ∈ bs ↔ ∃ w ∈ ws, Leaf ws w ∧ b = branchOf m node w

def stem (node : Word → NodeId) (v : Word) : Option NodeId := if v = [] then none else some (node v)

lemma pathOf_concat (w : Word) (l : Letter) :
 pathOf node (w ++ [l]) = pathOf node w ++ [node (w ++ [l])] := by
 unfold pathOf
 rw [length_append,length_singleton,range_succ,map_append,map_singleton]
 congr 1
 · refine map_congr_left fun i hi => ?_
   rw [mem_range] at hi
   rw [take_append_of_le_length (by omega)]
 · rw [take_of_length_le (by simp)]

lemma length_pathOf (w : Word) : (pathOf node w).length = w.length := by simp [pathOf]

lemma getElem?_pathOf {i : Nat} (hi : i < w.length) :
 (pathOf node w)[i]? = some (node (w.take (i + 1))) := by
 simp [pathOf,hi]

lemma strand_singleton (marked : Bool) (l : Letter) : strand marked [l] = [l.char] := by
 cases marked <;> rfl

lemma strand_concat (marked : Bool) (hw : w ≠ []) (l : Letter) :
 strand marked (w ++ [l]) = strand marked w ++ inscribe marked l := by
 have hlen : (if marked then 1 else 0) ≤ (spell marked w).length := by
  obtain ⟨k,rest,rfl⟩ := exists_cons_of_ne_nil hw
  cases marked <;> simp [spell,inscribe]
 rw [strand,spell_append,drop_append_of_le_length hlen,← strand]
 simp [spell]

variable {v : Word} {l : Letter}

lemma Worded.labelText (h : Worded m t ws node back) (hw : v ++ [l] ∈ ws) :
 labelText t (node (v ++ [l])) = .ok (String.ofList [l.char]) := by
 obtain ⟨x,hx,htext⟩ := h.inscribed.label v l hw
 rw [Normal.labelText,hx]
 exact congrArg Except.ok (String.toList_injective (by rw [htext,String.toList_ofList]))

lemma Worded.neighbors_iff (h : Worded m t ws node back) (hd : t.directed) (hv : v ∈ ws)
 (hw : v ++ [l] ∈ ws) : (t.neighbors (node v)).contains (node (v ++ [l])) = l.forward := by
 rw [← h.forward hd v l hv hw,Bool.eq_iff_iff,contains_iff_mem,mem_neighbors_iff]

lemma Worded.branchPiece (h : Worded m t ws node back) (hw : v ++ [l] ∈ ws) :
 ∃ piece, branchPiece t (stem node v) (node (v ++ [l])) = .ok piece ∧
  String.ofList (strand m.marked v) ++ piece = String.ofList (strand m.marked (v ++ [l])) := by
 by_cases hv : v = []
 · subst hv
   refine ⟨String.ofList [l.char],?_,?_⟩
   · rw [branchPiece,h.labelText hw,stem,if_pos rfl]
     rfl
   · rw [nil_append,strand_singleton]
     simp [strand,spell]
 · refine ⟨String.ofList (inscribe m.marked l),?_,?_⟩
   · have hmem := h.rooted.closed v l hw hv
     rw [Normal.branchPiece,h.labelText hw,stem,if_neg hv,← h.kind]
     cases hd : t.directed with
     | false => rfl
     | true =>
      simp only [if_true,h.neighbors_iff hd hmem hw,inscribe]
      refine congrArg Except.ok ?_
      rw [← String.toList_inj,String.toList_append]
      cases l.forward <;> simp
   · rw [strand_concat _ hv,String.ofList_append]

lemma Rooted.eq_or_prolonged (hr : Rooted ws) {u w : Word} (hw : w ∈ ws) (hpre : u <+: w) :
 w = u ∨ ∃ k, u ++ [k] ∈ ws ∧ u ++ [k] <+: w := by
 obtain ⟨rest,rfl⟩ := hpre
 cases rest with
 | nil => exact .inl (append_nil u)
 | cons k rest =>
  have hpre : u ++ [k] <+: u ++ k :: rest := ⟨rest,by simp⟩
  refine .inr ⟨k,?_,hpre⟩
  rw [prefix_iff_eq_take.1 hpre]
  exact hr.take_mem hw (by simp)

lemma Leaf.eq_of_prefix {u w : Word} (hu : Leaf ws u) (hr : Rooted ws) (hw : w ∈ ws)
 (hpre : u <+: w) : w = u := by
 rcases hr.eq_or_prolonged hw hpre with h | ⟨k,hk,_⟩
 · exact h
 · exact absurd hk (hu k)

lemma Worded.child_iff (h : Worded m t ws node back) (hv : v ∈ ws) {n : NodeId} :
 Child t back (node v) n ↔ ∃ l, v ++ [l] ∈ ws ∧ n = node (v ++ [l]) := by
 constructor
 · rintro ⟨_,hn,l,hl⟩
   obtain ⟨w,hw,rfl⟩ := (h.carries.ids n).1 hn
   rw [h.carries.back w hw,h.carries.back v hv] at hl
   exact ⟨l,hl ▸ hw,by rw [hl]⟩
 · rintro ⟨l,hl,rfl⟩
   refine ⟨h.carries.mem hv,h.carries.mem hl,l,?_⟩
   rw [h.carries.back _ hl,h.carries.back _ hv]

/-- The branches that go on through `v`: one for every leaf at or below it. -/
def Through (m : Manner) (ws : List Word) (node : Word → NodeId) (v : Word) (b : Branch) : Prop :=
 ∃ w ∈ ws, Leaf ws w ∧ v <+: w ∧ b = branchOf m node w

lemma Leaf.through_iff (hv : Leaf ws v) (hr : Rooted ws) (hmem : v ∈ ws) {b : Branch} :
 Through m ws node v b ↔ b = branchOf m node v := by
 constructor
 · rintro ⟨w,hw,_,hpre,rfl⟩
   rw [hv.eq_of_prefix hr hw hpre]
 · rintro rfl
   exact ⟨v,hmem,hv,prefix_rfl,rfl⟩

lemma through_iff_below (hr : Rooted ws) (hv : ¬ Leaf ws v) {b : Branch} :
 Through m ws node v b ↔ ∃ k, v ++ [k] ∈ ws ∧ Through m ws node (v ++ [k]) b := by
 constructor
 · rintro ⟨w,hw,hleaf,hpre,rfl⟩
   rcases hr.eq_or_prolonged hw hpre with rfl | ⟨k,hk,hpre'⟩
   · exact absurd hleaf hv
   · exact ⟨k,hk,w,hw,hleaf,hpre',rfl⟩
 · rintro ⟨k,_,w,hw,hleaf,hpre,rfl⟩
   exact ⟨w,hw,hleaf,(prefix_append _ _).trans hpre,rfl⟩

lemma Worded.mem_children (h : Worded m t ws node back) {tree : List (NodeId × NodeId)}
 (htree : ∀ u v, (u,v) ∈ tree ↔ Child t back u v) (hv : v ∈ ws) (n : NodeId) :
 n ∈ (tree.filter fun e => e.1 == node v).map Prod.snd ↔ ∃ k, v ++ [k] ∈ ws ∧
  n = node (v ++ [k]) := by
 rw [← h.child_iff hv,← htree,mem_map]
 constructor
 · rintro ⟨⟨a,b⟩,he,rfl⟩
   obtain ⟨he,ha⟩ := mem_filter.1 he
   rwa [← eq_of_beq ha]
 · intro he
   exact ⟨_,mem_filter.2 ⟨he,beq_self_eq_true _⟩,rfl⟩

lemma Worded.branchesFrom (h : Worded m t ws node back) {tree : List (NodeId × NodeId)}
 (htree : ∀ u v, (u,v) ∈ tree ↔ Child t back u v) (n : Nat) : ∀ (v : Word) (l : Letter),
  v ++ [l] ∈ ws → (∀ w ∈ ws, v ++ [l] <+: w → w.length ≤ v.length + n) →
  ∃ bs, branchesFrom t tree n (stem node v) (pathOf node v) (String.ofList (strand m.marked v))
   (node (v ++ [l])) = .ok bs ∧ ∀ b, b ∈ bs ↔ Through m ws node (v ++ [l]) b := by
 induction n with
 | zero =>
  intro v l hw hlen
  have := hlen _ hw prefix_rfl
  rw [length_append,length_singleton] at this
  omega
 | succ n ih =>
  intro v l hw hlen
  obtain ⟨piece,hpie,htext⟩ := h.branchPiece hw
  have hchi := h.mem_children htree hw
  rw [Normal.branchesFrom,hpie]
  simp only [bind,Except.bind,htext,← pathOf_concat]
  split
  · next hnone =>
    have hleaf : Leaf ws (v ++ [l]) := by
     intro k hk
     have := (hchi _).2 ⟨k,hk,rfl⟩
     rw [hnone] at this
     simp at this
    exact ⟨_,rfl,fun b => mem_singleton.trans (hleaf.through_iff h.rooted hw).symm⟩
  · rename_i hsome
    obtain ⟨x,hx⟩ := exists_mem_of_ne_nil _ hsome
    have hinner : ¬ Leaf ws (v ++ [l]) := fun hleaf => by
     obtain ⟨k,hk,_⟩ := (hchi _).1 hx
     exact hleaf k hk
    have hstem : stem node (v ++ [l]) = some (node (v ++ [l])) := if_neg (by simp)
    have hbel : ∀ x ∈ (tree.filter fun e => e.1 == node (v ++ [l])).map Prod.snd, ∃ bs,
     Normal.branchesFrom t tree n (some (node (v ++ [l]))) (pathOf node (v ++ [l]))
      (String.ofList (strand m.marked (v ++ [l]))) x = .ok bs ∧
     ∀ k, v ++ [l] ++ [k] ∈ ws → x = node (v ++ [l] ++ [k]) →
      ∀ b, b ∈ bs ↔ Through m ws node (v ++ [l] ++ [k]) b := by
     intro x hx
     obtain ⟨k,hk,rfl⟩ := (hchi _).1 hx
     obtain ⟨bs,hbs,hmem⟩ := ih (v ++ [l]) k hk fun w hw' hpre => by
      have := hlen w hw' ((prefix_append _ _).trans hpre)
      rw [length_append,length_singleton]
      omega
     refine ⟨bs,hstem ▸ hbs,fun j hj heq => ?_⟩
     rwa [← h.inj hk hj heq]
    choose! below hok hmem using hbel
    rw [mapM_ok hok]
    refine ⟨_,rfl,fun b => ?_⟩
    rw [through_iff_below h.rooted hinner,mem_flatten]
    constructor
    · rintro ⟨_,hbs,hb⟩
      obtain ⟨x,hx,rfl⟩ := mem_map.1 hbs
      obtain ⟨k,hk,rfl⟩ := (hchi _).1 hx
      exact ⟨k,hk,(hmem _ hx k hk rfl b).1 hb⟩
    · rintro ⟨k,hk,hb⟩
      have hx := (hchi _).2 ⟨k,hk,rfl⟩
      exact ⟨_,mem_map_of_mem hx,(hmem _ hx k hk rfl b).2 hb⟩

lemma Rooted.length_le (hr : Rooted ws) (hw : w ∈ ws) : w.length ≤ ws.length := by
 have hsub : rungs ws w ⊆ range ws.length := by
  intro i hi
  obtain ⟨j,_,rfl⟩ := mem_map.1 hi
  exact mem_range.2 (idxOf_lt_length_of_mem (hr.take_mem hw (succ_pos j)))
 have hle := (subperm_of_subset (hr.nodup_rungs hw) hsub).length_le
 simpa [rungs] using hle

lemma Rooted.exists_leaf (hr : Rooted ws) (hw : w ∈ ws) : ∃ x ∈ ws, Leaf ws x ∧ w <+: x := by
 have hall : ∀ k w, w ∈ ws → ws.length ≤ w.length + k → ∃ x ∈ ws, Leaf ws x ∧ w <+: x := by
  intro k
  induction k with
  | zero =>
   intro w hw hk
   refine ⟨w,hw,fun l hl => ?_,prefix_rfl⟩
   have := hr.length_le hl
   rw [length_append,length_singleton] at this
   omega
  | succ k ih =>
   intro w hw hk
   by_cases hleaf : Leaf ws w
   · exact ⟨w,hw,hleaf,prefix_rfl⟩
   · obtain ⟨l,hl⟩ := Classical.not_forall.1 hleaf
     rw [Classical.not_not] at hl
     obtain ⟨x,hx,hxle,hpre⟩ := ih (w ++ [l]) hl (by rw [length_append,length_singleton]; omega)
     exact ⟨x,hx,hxle,(prefix_append _ _).trans hpre⟩
 exact hall ws.length w hw (le_add_left _ _)

lemma Worded.deepTree (h : Worded m t ws node back) :
 ∃ tree, t.toUndirected.deepTree t.anchor = .ok tree ∧
 ∀ u v, (u,v) ∈ tree ↔ Child t back u v := by
 obtain ⟨hnod,hdir,_,hedge⟩ := toUndirected_spec h.sound
 have hids : t.toUndirected.ids = t.ids := by rw [ids,hnod,ids]
 have hscr := h.carries.scripted h.inscribed
 have htrie := hscr.trie
 have htri' : Trie t.toUndirected back := by
  refine ⟨?_,?_,?_,?_⟩
  · rw [hids]
    exact htrie.inj
  · intro u hu v hv
    rw [hids] at hu hv
    rw [hedge,hedge,Bool.or_eq_true,Bool.or_eq_true,or_comm (a := t.hasEdge v u),or_self]
    exact htrie.joined u hu v hv
  · rw [hids]
    exact htrie.root
  · rw [hids]
    exact htrie.parent
 have hends : ∀ u v, t.toUndirected.hasEdge u v → u ∈ t.toUndirected.ids ∧
  v ∈ t.toUndirected.ids := by
  intro u v huv
  rw [hedge,Bool.or_eq_true] at huv
  rw [hids]
  rcases huv with huv | huv
  · exact h.sound.of_hasEdge huv
  · exact (h.sound.of_hasEdge huv).symm
 obtain ⟨tree,htree,hmem⟩ := deepTree_trie hdir (hids ▸ h.sound.ids) hends htri'
  (hids ▸ hscr.anchor) hscr.root
 refine ⟨tree,htree,fun u v => (hmem u v).trans ?_⟩
 rw [Child,Child,hids]

lemma Worded.branches (h : Worded m t ws node back) :
 ∃ bs, branches t = .ok bs ∧ Lists m node ws bs := by
 obtain ⟨tree,htree,hmem⟩ := h.deepTree
 obtain ⟨l,hl,hroot⟩ := h.exists_root
 obtain ⟨bs,hbs,hb⟩ := h.branchesFrom hmem (t.size + 1) [] l hl fun w hw _ => by
  have := h.rooted.length_le hw
  rw [h.size_eq,length_nil]
  omega
 rw [show stem node [] = none from rfl,show pathOf node [] = [] from rfl,
  show String.ofList (strand m.marked []) = "" by cases m.marked <;> rfl,nil_append,hroot] at hbs
 refine ⟨bs,?_,fun b => (hb b).trans ?_⟩
 · rw [Normal.branches,htree]
   exact hbs
 · refine exists_congr fun w => and_congr_right fun hw => and_congr_right fun _ => and_iff_right ?_
   have hsame : w.take 1 = [l] :=
    Option.some.inj ((h.rooted.root w hw).symm.trans (h.rooted.root [l] hl))
   rw [nil_append,← hsame]
   exact take_prefix 1 w

open Table
variable {s q : Graph} {vs : List Word} {b : String × List NodeId} {fresh name : Word → NodeId}
 {spot : NodeId → Word}

lemma strand_mono {u w : Word} (hu : u ≠ []) (h : u <+: w) :
 strand m.marked u <+: strand m.marked w := by
 obtain ⟨r,rfl⟩ := h
 induction r using reverseRecOn with
 | nil => rw [append_nil]
 | append_singleton r l ih =>
  rw [← append_assoc,strand_concat _ (by simp [hu])]
  exact ih.trans (prefix_append _ _)

lemma strand_length (hw : w ≠ []) :
 (strand m.marked w).length + (if m.marked then 1 else 0) = m.unit * w.length := by
 have hpos : 0 < w.length := length_pos_iff.2 hw
 rw [strand,length_drop,spell_length,unit]
 cases m.marked <;> simp
 omega

lemma length_le_strand (hw : w ≠ []) : w.length ≤ (strand m.marked w).length := by
 have hpos : 0 < w.length := length_pos_iff.2 hw
 have hlen := strand_length (m := m) hw
 rw [unit] at hlen
 split at hlen <;> omega

lemma Proper.strand_inj {u w : Word} (hu : Proper m u) (hw : Proper m w)
 (h : strand m.marked u = strand m.marked w) : u = w := by
 refine hu.spell_inj hw ?_
 cases hm : m.marked with
 | false => simpa [strand,hm] using h
 | true =>
  -- the mark before the root is the same for all words
  have hhead : ∀ {x : Word}, Proper m x → spell true x = '<' :: strand true x := by
   intro x hx
   obtain ⟨l,rest,rfl⟩ := exists_cons_of_ne_nil hx.ne_nil
   have hl : l.forward = false := by simpa using hx.start
   simp [strand,spell,inscribe,hl]
  rw [hhead hu,hhead hw,← hm,h]

lemma Proper.strand_prefix_iff {u w : Word} (hu : Proper m u) (hw : Proper m w) :
 strand m.marked u <+: strand m.marked w ↔ u <+: w := by
 refine ⟨fun h => ?_,strand_mono hu.ne_nil⟩
 have hpos : 0 < u.length := length_pos_iff.2 hu.ne_nil
 have hle : u.length ≤ w.length := by
  have hlen := h.length_le
  have h1 := strand_length (m := m) hu.ne_nil
  have h2 := strand_length (m := m) hw.ne_nil
  rw [unit] at h1 h2
  cases hm : m.marked with
  | false =>
   simp only [hm,Bool.false_eq_true,if_false] at h1 h2 hlen
   omega
  | true =>
   simp only [hm,if_true] at h1 h2 hlen
   omega
 have htake := hw.take hpos
 have hlen : (strand m.marked (w.take u.length)).length = (strand m.marked u).length := by
  have h1 := strand_length (m := m) hu.ne_nil
  have h2 := strand_length (m := m) htake.ne_nil
  rw [length_take,min_eq_left hle] at h2
  omega
 have hsame : strand m.marked u = strand m.marked (w.take u.length) := by
  have h1 := prefix_iff_eq_take.1 h
  have h2 := prefix_iff_eq_take.1 (strand_mono (m := m) htake.ne_nil ( take_prefix u.length w))
  rw [h1,h2,hlen]
 rw [hu.strand_inj htake hsame]
 exact take_prefix _ _

section

structure RunsWith (bs : List (String × List NodeId)) (text : List Char) (k : Nat)
 (b : String × List NodeId) :
 Prop where
 pos : 0 < k
 le : k ≤ text.length
 first : (bs.find? fun b => (text.take k).isPrefixOf b.1.toList) = some b
 longest : ∀ j, k < j → j ≤ text.length → ∀ c ∈ bs, ¬ text.take j <+: c.1.toList

variable {bs : List (String × List NodeId)} {text : List Char}

lemma RunsWith.mem {k : Nat} (h : RunsWith bs text k b) :
 b ∈ bs ∧ text.take k <+: b.1.toList :=
 ⟨mem_of_find?_eq_some h.first,by simpa using find?_some h.first⟩

lemma longestShared_spec (bs : List (String × List NodeId)) (text : List Char) : ∀ n,
 (longestShared bs text n = none → ∀ j, 0 < j → j ≤ n → ∀ c ∈ bs, ¬ text.take j <+: c.1.toList) ∧
 ∀ r, longestShared bs text n = some r → 0 < r.1 ∧ r.1 ≤ n ∧
  (∃ b, (bs.find? fun b => (text.take r.1).isPrefixOf b.1.toList) = some b ∧ r.2 = b.2.take r.1) ∧
  ∀ j, r.1 < j → j ≤ n → ∀ c ∈ bs, ¬ text.take j <+: c.1.toList := by
 intro n
 induction n with
 | zero => exact ⟨fun _ j h1 h2 => by omega,fun r hr => by simp [longestShared] at hr⟩
 | succ n ih =>
  rw [longestShared]
  split
  · next b hb =>
    refine ⟨by simp,?_⟩
    rintro r hr
    cases hr
    exact ⟨succ_pos n,le_refl _,⟨b,hb,rfl⟩,fun j h1 h2 => by simp only at h1; omega⟩
  · next hnone =>
    have hlast : ∀ c ∈ bs, ¬ text.take (n + 1) <+: c.1.toList := by
     intro c hc
     simpa using find?_eq_none.1 hnone c hc
    refine ⟨fun h j h1 h2 => ?_,fun r hr => ?_⟩
    · rcases lt_or_ge n j with hj | hj
      · rw [show j = n + 1 by omega]
        exact hlast
      · exact ih.1 h j h1 hj
    · obtain ⟨hpos,hle,hb,hmax⟩ := ih.2 r hr
      refine ⟨hpos,le_succ_of_le hle,hb,fun j h1 h2 => ?_⟩
      rcases lt_or_ge n j with hj | hj
      · rw [show j = n + 1 by omega]
        exact hlast
      · exact hmax j h1 hj

lemma longestShared_cases (bs : List (String × List NodeId)) (text : List Char) :
 ((longestShared bs text text.length).getD (0,[]) = (0,[]) ∧
  ∀ j, 0 < j → j ≤ text.length → ∀ c ∈ bs, ¬ text.take j <+: c.1.toList) ∨
 ∃ k b, RunsWith bs text k b ∧ (longestShared bs text text.length).getD (0,[]) = (k,b.2.take k) := by
 obtain ⟨hnone,hsome⟩ := longestShared_spec bs text text.length
 cases h : longestShared bs text text.length with
 | none => exact .inl ⟨rfl,hnone h⟩
 | some r =>
  obtain ⟨hpos,hle,⟨b,hb,hr⟩,hmax⟩ := hsome r h
  exact .inr ⟨r.1,b,⟨hpos,hle,hb,hmax⟩,by rw [Option.getD_some,← hr]⟩

lemma RunsWith.unique {k j : Nat} {b c : String × List NodeId} (h : RunsWith bs text k b)
 (h' : RunsWith bs text j c) : k = j ∧ b = c := by
 have hkj : k = j := by
  rcases lt_trichotomy k j with hlt | heq | hlt
  · exact absurd h'.mem.2 (h.longest j hlt h'.le c h'.mem.1)
  · exact heq
  · exact absurd h.mem.2 (h'.longest k hlt h.le b h.mem.1)
 subst hkj
 exact ⟨rfl,Option.some.inj (h.first.symm.trans h'.first)⟩

lemma RunsWith.getD_eq {k : Nat} (h : RunsWith bs text k b) :
 (longestShared bs text text.length).getD (0,[]) = (k,b.2.take k) := by
 rcases longestShared_cases bs text with ⟨_,hnone⟩ | ⟨j,c,h',heq⟩
 · exact absurd h.mem.2 (hnone k h.pos h.le b h.mem.1)
 · obtain ⟨rfl,rfl⟩ := h.unique h'
   exact heq

lemma getD_eq_of_none (h : ∀ j, 0 < j → j ≤ text.length → ∀ c ∈ bs, ¬ text.take j <+: c.1.toList) :
 (longestShared bs text text.length).getD (0,[]) = (0,[]) := by
 rcases longestShared_cases bs text with ⟨heq,_⟩ | ⟨j,c,h',_⟩
 · exact heq
 · exact absurd h'.mem.2 (h j h'.pos h'.le c h'.mem.1)

lemma RunsWith.take {k n : Nat} (h : RunsWith bs text k b) (hk : k < n) :
 RunsWith bs (text.take n) k b where
 pos := h.pos
 le := by
  have := h.le
  rw [length_take]
  omega
 first := by
  rw [take_take,min_eq_left (le_of_lt hk)]
  exact h.first
 longest := by
  intro j h1 h2
  rw [length_take] at h2
  rw [take_take,min_eq_left (by omega)]
  exact h.longest j h1 (by omega)

end

section

def moves (bs : List (String × List NodeId)) (shift : NodeId → NodeId) (b : Branch) :
 List (NodeId × NodeId) :=
 let r := (longestShared bs b.text.toList b.text.toList.length).getD (0,[])
 (b.nodes.take r.1).zip r.2 ++ (b.nodes.drop r.1).map fun n => (n,shift n)

variable {bs : List (String × List NodeId)} {shift : NodeId → NodeId} {offset : Value}

lemma alignBranch_eq (names : Table NodeId NodeId) {b : Branch}
 (h : ∀ n ∈ b.nodes, shifted offset n = .ok (shift n)) :
 alignBranch bs offset names b = .ok (names.putAll (moves bs shift b)) := by
 rw [alignBranch,moves,putAll_append]
 obtain ⟨count,targets⟩ := (longestShared bs b.text.toList b.text.toList.length).getD (0,[])
 have hres : (b.nodes.drop count).mapM (fun n => do return (n,← shifted offset n)) =
  .ok ((b.nodes.drop count).map fun n => (n,shift n)) := by
  refine mapM_ok fun n hn => ?_
  rw [h n (mem_of_mem_drop hn)]
  rfl
 simp only [hres]
 rfl

lemma foldlM_alignBranch {qs : List Branch}
 (h : ∀ b ∈ qs, ∀ n ∈ b.nodes, shifted offset n = .ok (shift n))
 (names : Table NodeId NodeId) :
 qs.foldlM (alignBranch bs offset) names = .ok (names.putAll (qs.flatMap (moves bs shift))) := by
 induction qs generalizing names with
 | nil => rfl
 | cons b qs ih =>
  rw [foldlM_cons,alignBranch_eq names (h b (by simp)),flatMap_cons,putAll_append]
  exact ih (fun c hc => h c (by simp [hc])) _

lemma mem_moves {b : Branch} {n x : NodeId} : (n,x) ∈ moves bs shift b ↔ ∃ i, b.nodes[i]? = some n ∧
 ((i < ((longestShared bs b.text.toList b.text.toList.length).getD (0,[])).1 ∧
  ((longestShared bs b.text.toList b.text.toList.length).getD (0,[])).2[i]? = some x) ∨
 (((longestShared bs b.text.toList b.text.toList.length).getD (0,[])).1 ≤ i ∧ x = shift n)) := by
 generalize hr : (longestShared bs b.text.toList b.text.toList.length).getD (0,[]) = r
 simp only [moves,hr,mem_append,mem_map,Prod.mk.injEq]
 constructor
 · rintro (hz | ⟨y,hy,rfl,rfl⟩)
   · obtain ⟨i,hi⟩ := mem_iff_getElem?.1 hz
     obtain ⟨hn,hx⟩ := getElem?_zip_eq_some.1 hi
     rw [getElem?_take] at hn
     split at hn
     · next hlt => exact ⟨i,hn,.inl ⟨hlt,hx⟩⟩
     · cases hn
   · obtain ⟨i,hi⟩ := mem_iff_getElem?.1 hy
     rw [getElem?_drop] at hi
     exact ⟨r.1 + i,hi,.inr ⟨le_add_right _ _,rfl⟩⟩
 · rintro ⟨i,hn,⟨hlt,hx⟩ | ⟨hle,rfl⟩⟩
   · refine .inl (mem_iff_getElem?.2 ⟨i,getElem?_zip_eq_some.2 ⟨?_,hx⟩⟩)
     rwa [getElem?_take_of_lt hlt]
   · refine .inr ⟨n,mem_iff_getElem?.2 ⟨i - r.1,?_⟩,rfl,rfl⟩
     rw [getElem?_drop,Nat.add_sub_cancel' hle]
     exact hn

def behind (count : Nat) : NodeId → NodeId
 | .num i => .num (i + count)
 | n => n

lemma shifted_num (i : Int) (k : Nat) :
 shifted (.int k) (.num i) = .ok (behind (k + 1) (.num i)) := by
 simp only [shifted,toValue,Value.add,Value.number?,bind,Except.bind,ofValue?,behind]
 rw [add_assoc]
 rfl

lemma largest_nums {ns : List NodeId} (h : ∀ n ∈ ns, ∃ i : Nat, n = .num i) (hne : ns ≠ []) :
 ∃ k : Nat, largest (ns.map NodeId.toValue) = .ok (.int k) ∧ ∀ i : Nat, .num i ∈ ns → i ≤ k := by
 have hfold : ∀ (ns : List NodeId) (k : Nat), (∀ n ∈ ns, ∃ i : Nat, n = .num i) → ∃ j : Nat,
  (ns.map NodeId.toValue).foldlM (fun best w => do return if ← best.less w then w else best)
   (Value.int k) =
   (.ok (.int j) : Except Error Value) ∧ k ≤ j ∧ ∀ i : Nat, .num i ∈ ns → i ≤ j := by
  intro ns
  induction ns with
  | nil => exact fun k _ => ⟨k,rfl,le_refl k,by simp⟩
  | cons n ns ih =>
   intro k h
   obtain ⟨i,rfl⟩ := h n (by simp)
   obtain ⟨j,hj,hle,hmax⟩ := ih (max k i) fun x hx => h x (by simp [hx])
   refine ⟨j,?_,by omega,fun x hx => ?_⟩
   · rw [map_cons,toValue,foldlM_cons,Value.less_int]
     rw [show Value.int ((max k i : Nat) : Int) = if (k : Int) <
      i then .int i else .int k by split <;> congr 1 <;> omega] at hj
     simpa [bind,Except.bind,pure,Except.pure] using hj
   · rcases mem_cons.1 hx with hx | hx
     · have := Int.ofNat.inj (num.inj hx)
       omega
     · exact hmax x hx
 obtain ⟨n,ns,rfl⟩ := exists_cons_of_ne_nil hne
 obtain ⟨i,rfl⟩ := h n (by simp)
 obtain ⟨k,hk,hle,hmax⟩ := hfold ns i fun x hx => h x (by simp [hx])
 refine ⟨k,hk,fun x hx => ?_⟩
 rcases mem_cons.1 hx with hx | hx
 · have := Int.ofNat.inj (num.inj hx)
   omega
 · exact hmax x hx

end

def pairs (bs : List Branch) : List (String × List NodeId) := bs.map fun b => (b.text,b.nodes)

def Lands (m : Manner) (bs : List Branch) (ws : List Word) (node fresh : Word → NodeId) (w : Word)
 (x : NodeId) : Prop :=
 (w ∈ ws ∧ x = node w) ∨ (w ∉ ws ∧
  ((w.length ≤ ((longestShared (pairs bs) (strand m.marked w)
   (strand m.marked w).length).getD (0,[])).1 ∧
   ((longestShared (pairs bs) (strand m.marked w) (strand m.marked w).length).getD
    (0,[])).2[w.length - 1]? =
    some x) ∨
  (((longestShared (pairs bs) (strand m.marked w) (strand m.marked w).length).getD (0,[])).1 <
   w.length ∧
   x = fresh w)))

structure Fresh (s : Graph) (vs : List Word) (fresh : Word → NodeId) : Prop where
 new : ∀ w ∈ vs, fresh w ∉ s.ids
 inj : ∀ u ∈ vs, ∀ v ∈ vs, fresh u = fresh v → u = v
 number : ∀ w ∈ vs, ∃ i : Nat, fresh w = .num i

variable {bs qs : List Branch}

lemma Lists.mem_pairs (hbs : Lists m node ws bs) : b ∈ pairs bs ↔
 ∃ w ∈ ws, Leaf ws w ∧ b = (String.ofList (strand m.marked w),pathOf node w) := by
 rw [pairs,mem_map]
 constructor
 · rintro ⟨b,hb,rfl⟩
   obtain ⟨w,hw,hleaf,rfl⟩ := (hbs b).1 hb
   exact ⟨w,hw,hleaf,rfl⟩
 · rintro ⟨w,hw,hleaf,rfl⟩
   exact ⟨_,(hbs _).2 ⟨w,hw,hleaf,rfl⟩,rfl⟩

lemma Worded.mem_iff_prefix (hs : Worded m s ws node back) (hbs : Lists m node ws bs)
 (hw : Proper m w) :
 w ∈ ws ↔ ∃ b ∈ pairs bs, strand m.marked w <+: b.1.toList := by
 constructor
 · intro hmem
   obtain ⟨x,hx,hleaf,hpre⟩ := hs.rooted.exists_leaf hmem
   refine ⟨_,hbs.mem_pairs.2 ⟨x,hx,hleaf,rfl⟩,?_⟩
   rw [String.toList_ofList]
   exact strand_mono hw.ne_nil hpre
 · rintro ⟨b,hb,hpre⟩
   obtain ⟨x,hx,_,rfl⟩ := hbs.mem_pairs.1 hb
   rw [String.toList_ofList,hw.strand_prefix_iff (hs.proper x hx)] at hpre
   rw [prefix_iff_eq_take.1 hpre]
   exact hs.rooted.take_mem hx (length_pos_iff.2 hw.ne_nil)

lemma strand_take {l w : Word} (hw : w ≠ []) (hpre : w <+: l) :
 (strand m.marked l).take (strand m.marked w).length = strand m.marked w :=
 (prefix_iff_eq_take.1 (strand_mono hw hpre)).symm

lemma RunsWith.getElem?_shared (hs : Worded m s ws node back) (hbs : Lists m node ws bs)
 {l w : Word} {k : Nat}
 (hrun : RunsWith (pairs bs) (strand m.marked l) k b) (hpre : w <+: l) (hw : w ∈ ws) :
 w.length ≤ k ∧ (b.2.take k)[w.length - 1]? = some (node w) := by
 have hpro := hs.proper w hw
 have hpos : 0 < w.length := length_pos_iff.2 hpro.ne_nil
 have hle : (strand m.marked w).length ≤ k := by
  by_contra hlt
  obtain ⟨c,hc,hcpre⟩ := (hs.mem_iff_prefix hbs hpro).1 hw
  refine hrun.longest _ (by omega) (strand_mono hpro.ne_nil hpre).length_le c hc ?_
  rwa [strand_take hpro.ne_nil hpre]
 have hlong : w.length ≤ k := le_trans (length_le_strand hpro.ne_nil) hle
 obtain ⟨hb,hbpre⟩ := hrun.mem
 obtain ⟨x,hx,_,rfl⟩ := hbs.mem_pairs.1 hb
 have hwx : w <+: x := by
  rw [← hpro.strand_prefix_iff (hs.proper x hx)]
  rw [String.toList_ofList] at hbpre
  refine IsPrefix.trans ?_ hbpre
  rw [← strand_take hpro.ne_nil hpre]
  exact take_prefix_take_left hle
 refine ⟨hlong,?_⟩
 rw [getElem?_take_of_lt (by omega),getElem?_pathOf (by have := hwx.length_le; omega),
  show w.length - 1 + 1 = w.length by omega,← prefix_iff_eq_take.1 hwx]

lemma Worded.lands_iff (hs : Worded m s ws node back) (hbs : Lists m node ws bs) {l : Word}
 (hl : Proper m l) {i : Nat}
 (hi : i < l.length) {x : NodeId} :
 ((i < ((longestShared (pairs bs) (strand m.marked l) (strand m.marked l).length).getD (0,[])).1 ∧
  ((longestShared (pairs bs) (strand m.marked l) (strand m.marked l).length).getD (0,[])).2[i]? =
   some x) ∨
 (((longestShared (pairs bs) (strand m.marked l) (strand m.marked l).length).getD (0,[])).1 ≤ i ∧
  x = fresh (l.take (i + 1)))) ↔ Lands m bs ws node fresh (l.take (i + 1)) x := by
 have hpro : Proper m (l.take (i + 1)) := hl.take (succ_pos i)
 have hpre : l.take (i + 1) <+: l := take_prefix _ _
 have hlen : (l.take (i + 1)).length = i + 1 := by
  rw [length_take]
  omega
 generalize hw : l.take (i + 1) = w at hpro hpre hlen
 have htake := strand_take (m := m) hpro.ne_nil hpre
 have hstr := (strand_mono (m := m) hpro.ne_nil hpre).length_le
 unfold Lands
 rcases longestShared_cases (pairs bs) (strand m.marked l) with ⟨heq,hnone⟩ | ⟨k,b,hrun,heq⟩
 · -- nothing of the branch is shared
   have hpos : 0 < (strand m.marked w).length :=
    lt_of_lt_of_le (by omega) (length_le_strand hpro.ne_nil)
   have hnot : w ∉ ws := by
    intro hmem
    obtain ⟨c,hc,hcpre⟩ := (hs.mem_iff_prefix hbs hpro).1 hmem
    exact hnone _ hpos hstr c hc (by rwa [htake])
   have hnon' : ∀ j, 0 < j → j ≤ (strand m.marked w).length → ∀ c ∈ pairs bs,
    ¬ (strand m.marked w).take j <+: c.1.toList := by
    intro j h1 h2
    rw [← htake,take_take,min_eq_left h2]
    exact hnone j h1 (by omega)
   rw [heq,getD_eq_of_none hnon',hlen]
   simp [hnot]
 · by_cases hmem : w ∈ ws
   · obtain ⟨hle,hget⟩ := hrun.getElem?_shared hs hbs hpre hmem
     rw [hlen,Nat.add_sub_cancel] at hget
     simp only [heq,hmem,true_and,not_true_eq_false,false_and,or_false,hget,Option.some.injEq]
     constructor
     · rintro (⟨_,rfl⟩ | ⟨h,_⟩)
       · rfl
       · omega
     · rintro rfl
       exact .inl ⟨by omega,rfl⟩
   · have hlt : k < (strand m.marked w).length := by
      by_contra hge
      refine hmem ((hs.mem_iff_prefix hbs hpro).2 ⟨b,hrun.mem.1,?_⟩)
      refine IsPrefix.trans ?_ hrun.mem.2
      rw [← htake]
      exact take_prefix_take_left (by omega)
     have hrun' := hrun.take hlt
     rw [htake] at hrun'
     simp only [heq,hrun'.getD_eq,hmem,false_and,not_false_eq_true,true_and,false_or,hlen,
      Nat.add_sub_cancel,Nat.lt_succ_iff,Nat.succ_le_iff]

lemma Lands.unique {x y : NodeId} (hx : Lands m bs ws node fresh w x)
 (hy : Lands m bs ws node fresh w y) : x = y := by
 rcases hx with ⟨hw,rfl⟩ | ⟨hw,⟨hle,hx⟩ | ⟨hlt,rfl⟩⟩
 · rcases hy with ⟨_,rfl⟩ | ⟨hw',_⟩
   · rfl
   · exact absurd hw hw'
 · rcases hy with ⟨hw',_⟩ | ⟨_,⟨_,hy⟩ | ⟨hlt,_⟩⟩
   · exact absurd hw' hw
   · exact Option.some.inj (hx.symm.trans hy)
   · omega
 · rcases hy with ⟨hw',_⟩ | ⟨_,⟨hle,_⟩ | ⟨_,rfl⟩⟩
   · exact absurd hw' hw
   · omega
   · rfl

lemma mem_moves_iff (hs : Worded m s ws node back) (hbs : Lists m node ws bs)
 (hq : Worded m q vs name spot) (hqs : Lists m name vs qs)
 (shift : NodeId → NodeId) (hw : w ∈ vs) {x : NodeId} :
 (name w,x) ∈ qs.flatMap (moves (pairs bs) shift) ↔
  Lands m bs ws node (fun w => shift (name w)) w x := by
 rw [mem_flatMap]
 constructor
 · rintro ⟨b,hb,hmem⟩
   obtain ⟨l,hl,_,rfl⟩ := (hqs b).1 hb
   obtain ⟨i,hi,hcase⟩ := mem_moves.1 hmem
   have hlt : i < l.length := by
    have := lt_length hi
    rwa [branchOf,length_pathOf] at this
   rw [branchOf,getElem?_pathOf hlt] at hi
   have htake : l.take (i + 1) = w :=
    hq.inj (hq.rooted.take_mem hl (succ_pos i)) hw (Option.some.inj hi)
   rw [branchOf,String.toList_ofList,← htake] at hcase
   rw [← htake]
   exact (hs.lands_iff hbs (hq.proper l hl) hlt).1 hcase
 · intro hland
   obtain ⟨l,hl,hleaf,hpre⟩ := hq.rooted.exists_leaf hw
   have hpos : 0 < w.length := length_pos_iff.2 (hq.rooted.pos w hw)
   have hlt : w.length - 1 < l.length := by have := hpre.length_le; omega
   have htake : l.take (w.length - 1 + 1) = w := by
    rw [show w.length - 1 + 1 = w.length by omega,← prefix_iff_eq_take.1 hpre]
   refine ⟨_,(hqs _).2 ⟨l,hl,hleaf,rfl⟩,mem_moves.2 ⟨w.length - 1,?_,?_⟩⟩
   · rw [branchOf,getElem?_pathOf hlt,htake]
   · have hlan' : Lands m bs ws node (fun w => shift (name w))
      (l.take (w.length - 1 + 1)) x := by rwa [htake]
     have hcase := (hs.lands_iff hbs (hq.proper l hl) hlt).2 hlan'
     rw [htake] at hcase
     rw [branchOf,String.toList_ofList]
     exact hcase

lemma Lists.pairs_functional (hs : Worded m s ws node back) (hbs : Lists m node ws bs) :
 ∀ b ∈ pairs bs, ∀ c ∈ pairs bs, b.1 = c.1 → b = c := by
 intro b hb c hc hbc
 obtain ⟨v,hv,_,rfl⟩ := hbs.mem_pairs.1 hb
 obtain ⟨w,hw,_,rfl⟩ := hbs.mem_pairs.1 hc
 rw [(hs.proper v hv).strand_inj (hs.proper w hw) (String.ofList_injective hbc)]

lemma longestShared_ofList {l : List (String × List NodeId)}
 (h : ∀ b ∈ l, ∀ c ∈ l, b.1 = c.1 → b = c)
 (text : List Char) (n : Nat) : longestShared (ofList l).entries text n =
  longestShared l text n := by
 induction n with
 | zero => rfl
 | succ n ih => rw [longestShared,longestShared,find?_ofList h,ih]

lemma Worded.alignment (hs : Worded m s ws node back) (hq : Worded m q vs name spot) :
 ∃ bs names fresh, Normal.branches s = .ok bs ∧ Lists m node ws bs ∧
  Normal.alignment s q = .ok names ∧
  Fresh s vs fresh ∧ ∀ w ∈ vs, ∀ x, names.get? (name w) = some x ↔ Lands m bs ws node fresh w x := by
 obtain ⟨bs,hbs,hlist⟩ := hs.branches
 obtain ⟨qs,hqs,hqli⟩ := hq.branches
 have hnum : ∀ n ∈ s.ids, ∃ i : Nat, n = .num i := by
  intro n hn
  obtain ⟨w,hw,rfl⟩ := (hs.carries.ids n).1 hn
  exact hs.number w hw
 obtain ⟨l,hl,_⟩ := hs.exists_root
 obtain ⟨k,hoff,hmax⟩ := largest_nums hnum (ne_nil_of_mem (hs.carries.mem hl))
 have hshi : ∀ b ∈ qs, ∀ n ∈ b.nodes, shifted (.int k) n = .ok (behind (k + 1) n) := by
  intro b hb n hn
  obtain ⟨w,hw,_,rfl⟩ := (hqli b).1 hb
  obtain ⟨i,_,rfl⟩ := mem_map.1 hn
  obtain ⟨j,hj⟩ := hq.number _ (hq.rooted.take_mem hw (succ_pos i))
  rw [hj]
  exact shifted_num _ _
 have hali : alignBranch (ofList (pairs bs)).entries (.int k) = alignBranch (pairs bs) (.int k) := by
  funext names b
  simp only [alignBranch,longestShared_ofList (hlist.pairs_functional hs)]
 have hfre : Fresh s vs fun w => behind (k + 1) (name w) := by
  constructor
  · intro w hw hmem
    obtain ⟨i,hi⟩ := hq.number w hw
    rw [hi] at hmem
    have := hmax (i + (k + 1)) hmem
    omega
  · intro u hu v hv huv
    obtain ⟨i,hi⟩ := hq.number u hu
    obtain ⟨j,hj⟩ := hq.number v hv
    refine hq.inj hu hv ?_
    rw [hi,hj] at huv ⊢
    have := num.inj huv
    congr 1
    omega
  · intro w hw
    obtain ⟨i,hi⟩ := hq.number w hw
    exact ⟨i + (k + 1),by rw [hi]; rfl⟩
 refine ⟨bs,Table.ofList (qs.flatMap (moves (pairs bs) (behind (k + 1)))),_,hbs,hlist,?_,hfre,
  fun w hw x => ?_⟩
 · rw [Normal.alignment,hbs,hqs,hoff]
   exact (congrArg (fun f => qs.foldlM f Table.empty) hali).trans (foldlM_alignBranch hshi _)
 · have hmem := fun y => mem_moves_iff (x := y) hs hlist hq hqli (behind (k + 1)) hw
   refine Iff.trans (get?_ofList_iff fun y z hy hz => ?_) (hmem x)
   exact ((hmem y).1 hy).unique ((hmem z).1 hz)

end MotifMatch.Normal
