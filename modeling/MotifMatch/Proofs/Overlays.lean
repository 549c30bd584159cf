import MotifMatch.Proofs.Alignment

namespace MotifMatch.Normal
open List MotifMatch.Graph Option Table Letter Nat NodeId
section
variable {α : Type} {g h : Graph} {A B : List α → Prop} {node node' : List α → NodeId}
 {word word' : NodeId → List α}

lemma Carries.rebase (hc : Carries g A node word) (hnode : ∀ w, A w → node' w = node w)
 (hback : ∀ w, A w → word' (node' w) = w) : Carries g A node' word' where
 back := hback
 ids := by
  intro n
  rw [hc.ids]
  constructor
  · rintro ⟨w,hw,rfl⟩
    exact ⟨w,hw,(hnode w hw).symm⟩
  · rintro ⟨w,hw,rfl⟩
    exact ⟨w,hw,hnode w hw⟩
 root := hc.root
 closed := hc.closed
 joined := by
  intro u v hu hv
  rw [hnode u hu,hnode v hv]
  exact hc.joined u v hu hv

lemma Carries.renamed (hc : Carries g A node word) (hg : g.Sound) (hm : g.multi = false)
 {f : NodeId → NodeId}
 (hf : ∀ w, A w → f (node w) = node' w) (hback : ∀ w, A w → word' (node' w) = w) :
 Carries (g.renamed f) A node' word' := by
 have hedge : ∀ {u v}, A u → A v →
  ((g.renamed f).hasEdge (node' u) (node' v) ↔ g.hasEdge (node u) (node v)) := by
  intro u v hu hv
  rw [hasEdge_renamed hg]
  constructor
  · rintro ⟨x,y,hxy,hx,hy⟩
    obtain ⟨hxg,hyg⟩ := hg.of_hasEdge hxy
    obtain ⟨u',hu',rfl⟩ := (hc.ids x).1 hxg
    obtain ⟨v',hv',rfl⟩ := (hc.ids y).1 hyg
    rw [hf u' hu'] at hx
    rw [hf v' hv'] at hy
    rwa [← hback u hu,← hback v hv,← hx,← hy,hback u' hu',hback v' hv']
  · intro huv
    exact ⟨_,_,huv,hf u hu,hf v hv⟩
 refine ⟨hback,fun n => ?_,hc.root,hc.closed,fun u v hu hv => ?_⟩
 · rw [mem_ids_renamed hg hm]
   constructor
   · rintro ⟨x,hx,rfl⟩
     obtain ⟨w,hw,rfl⟩ := (hc.ids x).1 hx
     exact ⟨w,hw,hf w hw⟩
   · rintro ⟨w,hw,rfl⟩
     exact ⟨_,hc.mem hw,hf w hw⟩
 · rw [hedge hu hv,hedge hv hu]
   exact hc.joined u v hu hv

lemma Carries.held_of_mem (hA : Carries g A node word) (hB : Carries h B node word) {w : List α}
 (hw : A w ∨ B w)
 (hn : node w ∈ g.ids) : A w := by
 obtain ⟨v,hv,heq⟩ := (hA.ids _).1 hn
 have hback : word (node w) = w := hw.elim (hA.back w) (hB.back w)
 rwa [← hback,heq,hA.back v hv]

lemma Carries.joined_of_prolongs (hc : Carries g A node word) {u v : List α} (hu : u ≠ []) (hv : A v)
 (hpro : Prolongs u v) : g.hasEdge (node u) (node v) ∨ g.hasEdge (node v) (node u) := by
 obtain ⟨l,rfl⟩ := hpro
 exact (hc.joined _ _ (hc.closed u l hv hu) hv).2 (.inl ⟨l,rfl⟩)

lemma Carries.overlay (hA : Carries g A node word) (hB : Carries h B node word) (hg : g.Sound)
 (hh : h.Sound)
 (hmg : g.multi = false) (hd : h.directed = g.directed) (hroot : ∃ l, A [l] ∧ B [l]) :
 Carries (g.overlay h) (fun w => A w ∨ B w) node word := by
 obtain ⟨_,_,_,hids,_,hedge⟩ := overlay_spec hg hh hmg hd
 have hne : ∀ {w}, A w ∨ B w → w ≠ [] := fun hw => hw.elim hA.ne_nil hB.ne_nil
 refine ⟨fun w hw => hw.elim (hA.back w) (hB.back w),fun n => ?_,?_,fun w l hw hwne => ?_,
  fun u v hu hv => ?_⟩
 · rw [hids,hA.ids,hB.ids,← exists_or]
   exact exists_congr fun w => or_and_right.symm
 · obtain ⟨l,hlA,hlB⟩ := hroot
   obtain ⟨a,_,hpreA⟩ := hA.root
   obtain ⟨b,_,hpreB⟩ := hB.root
   have ha : [a] = [l] := (hpreA _ hlA).eq_of_length rfl
   have hb : [b] = [l] := (hpreB _ hlB).eq_of_length rfl
   exact ⟨l,.inl hlA,fun w hw => hw.elim (fun hw => ha ▸ hpreA w hw) (fun hw => hb ▸ hpreB w hw)⟩
 · exact hw.imp (fun hw => hA.closed w l hw hwne) (fun hw => hB.closed w l hw hwne)
 · -- an edge lies in the graph that holds the longer word, and so its beginning
   simp only [hedge,Bool.or_eq_true]
   have hin : ∀ {x y}, A x ∨ B x → A y ∨ B y → g.hasEdge (node x) (node y) ∨
    h.hasEdge (node x) (node y) →
    Prolongs x y ∨ Prolongs y x := by
    rintro x y hx hy (hxy | hxy)
    · obtain ⟨hxg,hyg⟩ := hg.of_hasEdge hxy
      exact (hA.joined x y (hA.held_of_mem hB hx hxg) (hA.held_of_mem hB hy hyg)).1 (.inl hxy)
    · obtain ⟨hxh,hyh⟩ := hh.of_hasEdge hxy
      exact (hB.joined x y (hB.held_of_mem hA hx.symm hxh)
       (hB.held_of_mem hA hy.symm hyh)).1 (.inl hxy)
   have hout : ∀ {x y}, A x ∨ B x → A y ∨ B y → Prolongs x y →
    (g.hasEdge (node x) (node y) ∨ h.hasEdge (node x) (node y)) ∨
    (g.hasEdge (node y) (node x) ∨ h.hasEdge (node y) (node x)) := by
    rintro x y hx (hy | hy) hxy
    · exact (hA.joined_of_prolongs (hne hx) hy hxy).imp .inl .inl
    · exact (hB.joined_of_prolongs (hne hx) hy hxy).imp .inr .inr
   constructor
   · rintro (huv | hvu)
     · exact hin hu hv huv
     · exact (hin hv hu hvu).symm
   · rintro (huv | hvu)
     · exact hout hu hv huv
     · exact (hout hv hu hvu).symm

lemma Carries.induced (hc : Carries g A node word) {keep : NodeId → Bool}
 (hkeep : ∀ w, A w → (keep (node w) ↔ B w)) (hsub : ∀ w, B w → A w) (hroot : ∃ l, B [l])
 (hclo : ∀ w l, B (w ++ [l]) → w ≠ [] → B w) : Carries (g.induced keep) B node word where
 back := fun w hw => hc.back w (hsub w hw)
 ids := by
  intro n
  rw [mem_ids_induced,hc.ids]
  constructor
  · rintro ⟨⟨w,hw,rfl⟩,hk⟩
    exact ⟨w,(hkeep w hw).1 hk,rfl⟩
  · rintro ⟨w,hw,rfl⟩
    exact ⟨⟨w,hsub w hw,rfl⟩,(hkeep w (hsub w hw)).2 hw⟩
 root := by
  obtain ⟨l,hl⟩ := hroot
  obtain ⟨k,_,hpre⟩ := hc.root
  have hk : [k] = [l] := (hpre _ (hsub _ hl)).eq_of_length rfl
  exact ⟨l,hl,fun w hw => hk ▸ hpre w (hsub w hw)⟩
 closed := hclo
 joined := by
  intro u v hu hv
  have hku := (hkeep u (hsub u hu)).2 hu
  have hkv := (hkeep v (hsub v hv)).2 hv
  rw [hasEdge_induced hku hkv,hasEdge_induced hkv hku]
  exact hc.joined u v (hsub u hu) (hsub v hv)

variable {char : α → Char}

lemma Inscribed.transfer (hi : Inscribed g A node char) (hids : h.ids.Nodup) (hsub : ∀ w, B w → A w)
 (hattr : ∀ w k, B w → h.nodeAttr? (node' w) k = g.nodeAttr? (node w) k) :
  Inscribed h B node' char where
 ids := hids
 label := by
  intro w l hw
  rw [hattr _ _ hw]
  exact hi.label w l (hsub _ hw)
 anchor := by
  intro w hw
  rw [hattr _ _ hw]
  exact hi.anchor w (hsub w hw)

lemma Inscribed.renamed (hi : Inscribed g A node char) (hc : Carries g A node word) (hg : g.Sound)
 (hm : g.multi = false) {f : NodeId → NodeId} (hf : ∀ w, A w → f (node w) = node' w)
 (hback : ∀ w, A w → word' (node' w) = w) : Inscribed (g.renamed f) A node' char := by
 have hinj : ∀ x ∈ g.ids, ∀ y ∈ g.ids, f x = f y → x = y := by
  intro x hx y hy hxy
  obtain ⟨u,hu,rfl⟩ := (hc.ids x).1 hx
  obtain ⟨v,hv,rfl⟩ := (hc.ids y).1 hy
  rw [hf u hu,hf v hv] at hxy
  rw [← hback u hu,hxy,hback v hv]
 refine hi.transfer (hg.renamed f).ids (fun _ hw => hw) fun w k hw => ?_
 rw [← hf w hw,nodeAttr?,attrs?_renamed hg hm hinj (hc.mem hw),nodeAttr?]

lemma Inscribed.overlay (hA : Inscribed g A node char) (hB : Inscribed h B node char)
 (hcA : Carries g A node word)
 (hcB : Carries h B node word) (hg : g.Sound) (hh : h.Sound) (hmg : g.multi = false)
 (hd : h.directed = g.directed) : Inscribed (g.overlay h) (fun w => A w ∨ B w) node char := by
 have houtA : ∀ {w}, A w ∨ B w → ¬ A w → ∀ k, g.nodeAttr? (node w) k = none := fun hw hn =>
  nodeAttr?_of_not_mem fun hmem => hn (hcA.held_of_mem hcB hw hmem)
 have houtB : ∀ {w}, A w ∨ B w → ¬ B w → ∀ k, h.nodeAttr? (node w) k = none := fun hw hn =>
  nodeAttr?_of_not_mem fun hmem => hn (hcB.held_of_mem hcA hw.symm hmem)
 obtain ⟨_,_,hsou,_⟩ := overlay_spec hg hh hmg hd
 refine ⟨hsou.ids,fun w l hw => ?_,fun w hw => ?_⟩
 · rw [nodeAttr?_overlay hg hh hmg hd]
   by_cases hwB : B (w ++ [l])
   · obtain ⟨v,hv,htext⟩ := hB.label w l hwB
     exact ⟨v,by rw [hv,some_or],htext⟩
   · rw [houtB hw hwB,none_or]
     exact hA.label w l (hw.resolve_right hwB)
 · rw [nodeAttr?_overlay hg hh hmg hd]
   by_cases hwB : B w
   · have hiff := hB.anchor w hwB
     cases hv : h.nodeAttr? (node w) "anchor" with
     | some v =>
      rw [hv] at hiff
      exact hiff
     | none =>
      rw [hv] at hiff
      have hlen : w.length ≠ 1 := fun hlen => by simpa using hiff.2 hlen
      rw [none_or]
      by_cases hwA : A w
      · exact hA.anchor w hwA
      · rw [houtA hw hwA]
        simpa using hlen
   · rw [houtB hw hwB,none_or]
     exact hA.anchor w (hw.resolve_right hwB)

end

section
variable {s q : Graph} {a : Option NodeId}

lemma getElem?_nodeMarks (hids : (s.overlay q).ids.Nodup) {i : Nat} {n : NodeId}
 (hn : (lay s q a).graph.ids[i]? = some n) : ∃ b, (s.overlay q).attrs? n = some b ∧
  (lay s q a).nodeMarks[i]? = some (nodeMark s q a n b) := by
 have hent : (s.overlay q).nodes.entries[i]?.map Prod.fst = some n := by
  rw [← getElem?_map]
  exact hn
 obtain ⟨e,he,rfl⟩ := map_eq_some_iff.1 hent
 refine ⟨e.2,get?_of_mem hids (mem_of_getElem? he),?_⟩
 simp only [lay,getElem?_map,he,map_some]

lemma nodeMark_pos {n : NodeId} {b : Attrs} : 0 < nodeMark s q a n b ↔ n ∈ s.ids ∧ n ∈ q.ids := by
 rw [← hasNode_iff,← hasNode_iff,nodeMark]
 cases q.hasNode n <;> cases s.hasNode n <;> simp
 split <;> decide

lemma kept_iff {n : NodeId} (hn : n ∈ (lay s q a).graph.ids) :
 (((lay s q a).graph.ids.zip (lay s q a).nodeMarks).filterMap fun e => if 0 <
  e.2 then some e.1 else none).contains n
  ↔ n ∈ s.ids ∧ n ∈ q.ids := by
 have hzip : (lay s q a).graph.ids.zip (lay s q a).nodeMarks =
  (lay s q a).graph.nodes.entries.map fun e => (e.1,nodeMark s q a e.1 e.2) := zip_map'
 obtain ⟨e,he,rfl⟩ := mem_map.1 hn
 rw [hzip,contains_iff_mem,mem_filterMap]
 constructor
 · rintro ⟨_,hmem,hx⟩
   obtain ⟨x,_,rfl⟩ := mem_map.1 hmem
   rw [ite_none_right_eq_some] at hx
   obtain ⟨hpos,hx⟩ := hx
   rw [← show x.1 = e.1 from some.inj hx]
   exact nodeMark_pos.1 hpos
 · intro hboth
   exact ⟨_,mem_map.2 ⟨e,he,rfl⟩,if_pos (nodeMark_pos.2 hboth)⟩

lemma shared_of_combine {g h : Graph} (hc : combine g h = .ok (lay s q a)) :
 ∃ keep, shared g h = .ok ((s.overlay q).induced keep) ∧
  ∀ n ∈ (s.overlay q).ids, keep n ↔ n ∈ s.ids ∧ n ∈ q.ids :=
 ⟨_,by rw [shared,hc]; rfl,fun _ hn => kept_iff hn⟩

end

section
variable {m : Manner} {s q r : Graph} {ws vs : List Word} {bs : List Branch} {w : Word}
 {node name fresh : Word → NodeId}
 {back spot : NodeId → Word}

lemma Proper.map_char_inj (hm : m.marked = false) {u v : Word} (hu : Proper m u) (hv : Proper m v)
 (h : u.map char = v.map char) : u = v := by
 refine hu.spell_inj hv ?_
 rw [hm,spell_unmarked,spell_unmarked,h]

lemma Worded.overlap_lt (hs : Worded m s ws node back) (hbs : Lists m node ws bs) (hw : Proper m w)
 (hnot : w ∉ ws) :
 ((longestShared (pairs bs) (strand m.marked w) (strand m.marked w).length).getD (0,[])).1 <
  (strand m.marked w).length := by
 rcases longestShared_cases (pairs bs) (strand m.marked w) with ⟨heq,_⟩ | ⟨k,b,hrun,heq⟩
 · rw [heq]
   exact lt_of_lt_of_le (length_pos_iff.2 hw.ne_nil) (length_le_strand hw.ne_nil)
 · rw [heq]
   refine lt_of_le_of_ne hrun.le fun hk => hnot ?_
   refine (hs.mem_iff_prefix hbs hw).2 ⟨b,hrun.mem.1,?_⟩
   have hpre := hrun.mem.2
   rwa [show k = (strand m.marked w).length from hk,take_length] at hpre

def joint (ws : List Word) (node fresh : Word → NodeId) (w : Word) : NodeId :=
 if w ∈ ws then node w else fresh w

lemma Worded.lands_unmarked (hm : m.marked = false) (hs : Worded m s ws node back)
 (hbs : Lists m node ws bs)
 (hw : Proper m w) {x : NodeId} : Lands m bs ws node fresh w x ↔ x = joint ws node fresh w := by
 by_cases hmem : w ∈ ws
 · simp [Lands,joint,hmem]
 · have hlt := hs.overlap_lt hbs hw hmem
   have hlen : (strand m.marked w).length = w.length := by
    simpa [hm,Manner.unit] using strand_length (m := m) hw.ne_nil
   rw [hlen] at hlt
   rw [joint,Lands,hlen]
   simp [hmem,hlt,not_le.2 hlt]

lemma Worded.joint_injOn (hs : Worded m s ws node back) (hf : Fresh s vs fresh) :
 Set.InjOn (joint ws node fresh) {w | w ∈ ws ∨ w ∈ vs} := by
 have hapa : ∀ u v, u ∈ ws → v ∈ vs → node u ≠ fresh v :=
  fun u v hu hv huv => hf.new v hv (huv ▸ hs.carries.mem hu)
 intro u hu v hv huv
 rw [joint,joint] at huv
 split at huv <;> split at huv <;> rename_i hu' hv'
 · exact hs.inj hu' hv' huv
 · exact absurd huv (hapa u v hu' (hv.resolve_left hv'))
 · exact absurd huv.symm (hapa v u hv' (hu.resolve_left hu'))
 · exact hf.inj u (hu.resolve_left hu') v (hv.resolve_left hv') huv

lemma Worded.rebase (hs : Worded m s ws node back) (hnam : ∀ w ∈ ws, name w = node w)
 (hback : ∀ w ∈ ws, spot (name w) = w) : Worded m s ws name spot where
 rooted := hs.rooted
 carries := hs.carries.rebase hnam hback
 inscribed := hs.inscribed.transfer hs.sound.ids (fun _ hw => hw) fun w k hw => by rw [hnam w hw]
 sound := hs.sound
 multi := hs.multi
 kind := hs.kind
 proper := hs.proper
 number := fun w hw => by
  rw [hnam w hw]
  exact hs.number w hw
 forward := fun hd v l hv hw => by
  rw [hnam v hv,hnam _ hw]
  exact hs.forward hd v l hv hw

lemma Worded.renamed (hm : m.marked = false) (hq : Worded m q vs name spot) {f : NodeId → NodeId}
 (hf : ∀ w ∈ vs, f (name w) = node w) (hback : ∀ w ∈ vs, back (node w) = w)
 (hnum : ∀ w ∈ vs, ∃ i : Nat, node w = .num i) : Worded m (q.renamed f) vs node back := by
 obtain ⟨_,hdir,hmul⟩ := nodes_renamed hq.sound hq.multi f
 have hkind : (q.renamed f).directed = m.marked := hdir.trans hq.kind
 refine ⟨hq.rooted,hq.carries.renamed hq.sound hq.multi hf hback,
  hq.inscribed.renamed hq.carries hq.sound hq.multi hf hback,hq.sound.renamed f,hmul,hkind,
   hq.proper,hnum,?_⟩
 intro hd
 rw [hkind,hm] at hd
 cases hd

lemma Worded.laid (hm : m.marked = false) (hs : Worded m s ws node back)
 (hq : Worded m q vs name spot) :
 ∃ r node' back', Worded m s.relisted ws node' back' ∧ Worded m r vs node' back' ∧
  combine s q = .ok (lay s.relisted r (some s.relisted.anchor)) := by
 obtain ⟨bs,names,fresh,_,hbs,hnam,hfre,hget⟩ := hs.relisted.alignment hq.relisted
 have hname : ∀ w ∈ vs, names.getD (name w) (name w) = joint ws node fresh w := by
  intro w hw
  refine getD_of_get? ((hget w hw _).2 ?_)
  exact (hs.relisted.lands_unmarked hm hbs (hq.proper w hw)).2 rfl
 have hback := (hs.relisted.joint_injOn hfre).leftInvOn_invFunOn
 refine ⟨q.relisted.renamed fun n => names.getD n n,joint ws node fresh,_,
  hs.relisted.rebase (fun w hw => if_pos hw) fun w hw => hback (.inl hw),
  hq.relisted.renamed hm hname (fun w hw => hback (.inr hw)) fun w hw => ?_,?_⟩
 · rw [joint]
   split
   · next hmem => exact hs.number w hmem
   · exact hfre.number w hw
 · rw [combine,hnam]
   rfl

lemma Worded.carries_overlay (hs : Worded m s ws node back) (hr : Worded m r vs node back)
 (hroot : ∃ l, [l] ∈ ws ∧ [l] ∈ vs) : Carries (s.overlay r) (fun w => w ∈ ws ∨ w ∈ vs) node back :=
 hs.carries.overlay hr.carries hs.sound hr.sound hs.multi (hr.kind.trans hs.kind.symm) hroot

lemma Worded.inscribed_overlay (hs : Worded m s ws node back) (hr : Worded m r vs node back) :
 Inscribed (s.overlay r) (fun w => w ∈ ws ∨ w ∈ vs) node char :=
 hs.inscribed.overlay hr.inscribed hs.carries hr.carries hs.sound hr.sound hs.multi
  (hr.kind.trans hs.kind.symm)

structure MarksTexts (o : Overlay) (source query : String → Prop) : Prop where
 length : o.nodeMarks.length = o.graph.ids.length
 anchor : ∀ i : Nat, o.graph.ids[i]? = some o.graph.anchor → o.nodeMarks[i]? = some 2
 both : ∀ (i : Nat) (n : NodeId) (x : String), o.graph.ids[i]? = some n → n ≠ o.graph.anchor →
  Reads o.graph n x → source x → query x → o.nodeMarks[i]? = some 1
 onlySource : ∀ (i : Nat) (n : NodeId) (x : String), o.graph.ids[i]? = some n → Reads o.graph n x →
  source x → ¬ query x → o.nodeMarks[i]? = some 0
 onlyQuery : ∀ (i : Nat) (n : NodeId) (x : String), o.graph.ids[i]? = some n → Reads o.graph n x →
  ¬ source x → query x → o.nodeMarks[i]? = some (-1)

def Reading (ws : List Word) (x : String) : Prop := ∃ w ∈ ws, x = String.ofList (w.map char)

lemma Worded.reading_iff (hm : m.marked = false) (hs : Worded m s ws node back) (hw : Proper m w) :
 Reading ws (String.ofList (w.map char)) ↔ w ∈ ws := by
 constructor
 · rintro ⟨u,hu,heq⟩
   rwa [hw.map_char_inj hm (hs.proper u hu) (String.ofList_injective heq)]
 · intro hmem
   exact ⟨w,hmem,rfl⟩

lemma Worded.nodeMarks (hs : Worded m s ws node back) (hr : Worded m r vs node back)
 (hroot : ∃ l, [l] ∈ ws ∧ [l] ∈ vs) {i : Nat}
 (hw : w ∈ ws ∨ w ∈ vs)
 (hi : (lay s r (some s.anchor)).graph.ids[i]? = some (node w)) :
 (lay s r (some s.anchor)).nodeMarks[i]? = some (
  if w ∈ vs ∧ w ∈ ws then if node w = (s.overlay r).anchor then 2 else 1
  else if w ∈ vs then -1 else 0) := by
 obtain ⟨l,hls,hlq⟩ := hroot
 have hc := hs.carries_overlay hr ⟨l,hls,hlq⟩
 have hin := hs.inscribed_overlay hr
 have hanc : (s.overlay r).anchor = s.anchor :=
  (hc.anchor_eq hin (.inl hls)).trans (hs.carries.anchor_eq hs.inscribed hls).symm
 have hsou : s.hasNode (node w) = decide (w ∈ ws) := by
  rw [Bool.eq_iff_iff,hasNode_iff,decide_eq_true_eq]
  exact ⟨hs.carries.held_of_mem hr.carries hw,hs.carries.mem⟩
 have hque : r.hasNode (node w) = decide (w ∈ vs) := by
  rw [Bool.eq_iff_iff,hasNode_iff,decide_eq_true_eq]
  exact ⟨hr.carries.held_of_mem hs.carries hw.symm,hr.carries.mem⟩
 obtain ⟨b,hb,hmark⟩ := getElem?_nodeMarks hin.ids hi
 obtain ⟨k,hk,hat⟩ := hc.anchoredAt hin
 have hisA : isAnchor b = decide (node w = (s.overlay r).anchor) := by
  rw [Bool.eq_iff_iff,decide_eq_true_eq,hat.anchor_eq hin.ids,← hat,hb]
  simp
 have hmeet : (some s.anchor == some (node w)) = decide (node w = (s.overlay r).anchor) := by
  rw [hanc,Bool.eq_iff_iff,beq_iff_eq,some.injEq,decide_eq_true_eq,eq_comm]
 rw [hmark,nodeMark,hsou,hque,hisA,hmeet]
 simp

lemma Worded.marksTexts (hm : m.marked = false) (hs : Worded m s ws node back)
 (hr : Worded m r vs node back)
 (hroot : ∃ l, [l] ∈ ws ∧ [l] ∈ vs) :
 MarksTexts (lay s r (some s.anchor)) (Reading ws) (Reading vs) := by
 have hc := hs.carries_overlay hr hroot
 have hin := hs.inscribed_overlay hr
 have hrea : ∀ {n x}, Reads (s.overlay r) n x → ∃ w, (w ∈ ws ∨ w ∈ vs) ∧ n = node w ∧
  (Reading ws x ↔ w ∈ ws) ∧ (Reading vs x ↔ w ∈ vs) := by
  intro n x hx
  obtain ⟨w,hw,rfl,rfl⟩ := (hc.reads_iff hin).1 hx
  have hpro : Proper m w := hw.elim (hs.proper w) (hr.proper w)
  exact ⟨w,hw,rfl,hs.reading_iff hm hpro,hr.reading_iff hm hpro⟩
 refine ⟨by simp [lay,Graph.ids,Table.keys],fun i hi => ?_,fun i n x hi hne hx hxs hxq => ?_,
  fun i n x hi hx hxs hxq => ?_,fun i n x hi hx hxs hxq => ?_⟩
 · obtain ⟨l,hls,hlq⟩ := hroot
   have hanc : (lay s r (some s.anchor)).graph.anchor = node [l] := hc.anchor_eq hin (.inl hls)
   rw [hanc] at hi
   rw [hs.nodeMarks hr ⟨l,hls,hlq⟩ (.inl hls) hi,if_pos ⟨hlq,hls⟩,
    if_pos (hc.anchor_eq hin (.inl hls)).symm]
 all_goals
  obtain ⟨w,hw,rfl,hiffs,hiffq⟩ := hrea hx
  rw [hs.nodeMarks hr hroot hw hi]
  rw [hiffs] at hxs
  rw [hiffq] at hxq
 · rw [if_pos ⟨hxq,hxs⟩]
   exact congrArg some (if_neg hne)
 · simp [hxs,hxq]
 · simp [hxs,hxq]

lemma Worded.spells_iff (hs : Worded m s ws node back) {x : String} : Spells s x ↔ Reading ws x :=
 hs.carries.spells_iff hs.inscribed

lemma Worded.holdsTexts_overlay (hm : m.marked = false) (hs : Worded m s ws node back)
 (hr : Worded m r vs node back)
 (hroot : ∃ l, [l] ∈ ws ∧ [l] ∈ vs) :
 HoldsTexts (s.overlay r) fun x => Reading ws x ∨ Reading vs x := by
 have hpro : ∀ {w}, w ∈ ws ∨ w ∈ vs → Proper m w := fun hw => hw.elim (hs.proper _) (hr.proper _)
 refine (hs.carries_overlay hr hroot).holdsTexts (hs.inscribed_overlay hr)
  (fun u v hu hv => (hpro hu).map_char_inj hm (hpro hv)) fun x => ?_
 rw [Reading,Reading,← exists_or]
 exact exists_congr fun w => or_and_right.symm

lemma Rooted.filter (hws : Rooted ws) (hvs : Rooted vs) (hroot : ∃ l, [l] ∈ ws ∧ [l] ∈ vs) :
 Rooted (ws.filter (· ∈ vs)) where
 nodup := hws.nodup.filter _
 root := by
  intro w hw
  obtain ⟨l,hl,hlv⟩ := hroot
  have hhead := hws.root _ hl
  have hsame := some.inj (hhead.symm.trans (hws.root w (mem_of_mem_filter hw)))
  obtain ⟨rest,rfl⟩ := head?_eq_some_iff.1 hhead
  rw [filter_cons_of_pos (by simpa using hlv),head?_cons,hsame]
 pos := fun w hw => hws.pos w (mem_of_mem_filter hw)
 closed := by
  intro v l hw hne
  obtain ⟨hw,hwv⟩ := mem_filter.1 hw
  exact mem_filter.2 ⟨hws.closed v l hw hne,
   decide_eq_true (hvs.closed v l (of_decide_eq_true hwv) hne)⟩

section
variable (hm : m.marked = false) (hs : Worded m s ws node back)
include hm hs

lemma Worded.induced (hr : Worded m r vs node back) (hroot : ∃ l, [l] ∈ ws ∧ [l] ∈ vs)
 {keep : NodeId → Bool}
 (hkeep : ∀ n ∈ (s.overlay r).ids, keep n ↔ n ∈ s.ids ∧ n ∈ r.ids) :
 Worded m ((s.overlay r).induced keep) (ws.filter (· ∈ vs)) node back := by
 have hc := hs.carries_overlay hr hroot
 have hin := hs.inscribed_overlay hr
 have hroo := hs.rooted.filter hr.rooted hroot
 obtain ⟨hdir,hmul,hsou,_⟩ := overlay_spec hs.sound hr.sound hs.multi (hr.kind.trans hs.kind.symm)
 have hsub : ∀ w ∈ ws.filter (· ∈ vs), w ∈ ws := fun w hw => mem_of_mem_filter hw
 have hkee' : ∀ w, w ∈ ws ∨ w ∈ vs → (keep (node w) ↔ w ∈ ws.filter (· ∈ vs)) := by
  intro w hw
  rw [hkeep _ (hc.mem hw),mem_filter,decide_eq_true_eq]
  exact and_congr ⟨hs.carries.held_of_mem hr.carries hw,hs.carries.mem⟩
   ⟨hr.carries.held_of_mem hs.carries hw.symm,hr.carries.mem⟩
 refine ⟨hroo,hc.induced hkee' (fun w hw => .inl (hsub w hw)) ?_ hroo.closed,
  hin.transfer (nodup_filter hin.ids _) (fun w hw => .inl (hsub w hw)) ?_,hsou.induced keep,hmul,
  hdir.trans hs.kind,fun w hw => hs.proper w (hsub w hw),fun w hw => hs.number w (hsub w hw),?_⟩
 · obtain ⟨l,hl,hlv⟩ := hroot
   exact ⟨l,mem_filter.2 ⟨hl,decide_eq_true hlv⟩⟩
 · intro w k hw
   rw [nodeAttr?,attrs?_induced hin.ids ((hkee' w (.inl (hsub w hw))).2 hw),nodeAttr?]
 · intro hd
   rw [show ((s.overlay r).induced keep).directed = m.marked from hdir.trans hs.kind,hm] at hd
   cases hd

lemma Worded.holdsTexts : HoldsTexts s (Reading ws) :=
 hs.carries.holdsTexts hs.inscribed (fun u v hu hv =>
  (hs.proper u hu).map_char_inj hm (hs.proper v hv)) fun _ => .rfl

lemma Worded.reading_filter (hq : Worded m q vs name spot) :
 Reading (ws.filter (· ∈ vs)) = fun x => Reading ws x ∧ Reading vs x := by
 funext x
 rw [eq_iff_iff]
 constructor
 · rintro ⟨w,hw,rfl⟩
   obtain ⟨hw,hwv⟩ := mem_filter.1 hw
   exact ⟨⟨w,hw,rfl⟩,⟨w,of_decide_eq_true hwv,rfl⟩⟩
 · rintro ⟨⟨w,hw,rfl⟩,hx⟩
   exact ⟨w,mem_filter.2 ⟨hw,decide_eq_true ((hq.reading_iff hm (hs.proper w hw)).1 hx)⟩,rfl⟩

end

structure Merges (s q : Graph) (o : Overlay) (t : Graph) : Prop where
 undirected : o.graph.directed = false ∧ t.directed = false
 union : HoldsTexts o.graph fun x => Spells s x ∨ Spells q x
 marks : MarksTexts o (Spells s) (Spells q)
 common : HoldsTexts t fun x => Spells s x ∧ Spells q x

variable (hm : m.marked = false) (hs : Worded m s ws node back) (hq : Worded m q vs name spot)
 (hroot : ∃ l, [l] ∈ ws ∧ [l] ∈ vs)
include hm hs hq hroot

lemma Worded.merges : ∃ o t, combine s q = .ok o ∧ shared s q = .ok t ∧ Merges s q o t := by
 obtain ⟨r,node',back',hs',hr,hcom⟩ := hs.laid hm hq
 have hspe : Spells s = Reading ws ∧ Spells q = Reading vs :=
  ⟨funext fun _ => propext hs.spells_iff,funext fun _ => propext hq.spells_iff⟩
 have hdir :=
  (overlay_spec hs'.sound hr.sound hs'.multi (hr.kind.trans hs'.kind.symm)).1.trans
   (hs'.kind.trans hm)
 obtain ⟨keep,hsha,hkeep⟩ := shared_of_combine hcom
 refine ⟨_,_,hcom,hsha,⟨hdir,hdir⟩,?_,?_,?_⟩
 · rw [hspe.1,hspe.2]
   exact hs'.holdsTexts_overlay hm hr hroot
 · rw [hspe.1,hspe.2]
   exact hs'.marksTexts hm hr hroot
 · rw [hspe.1,hspe.2,← hs.reading_filter hm hq]
   exact (hs'.induced hm hr hroot hkeep).holdsTexts hm

lemma Worded.shared : ∃ t node' back', shared s q = .ok t ∧
 Worded m t (ws.filter (· ∈ vs)) node' back' := by
 obtain ⟨r,node',back',hs',hr,hcom⟩ := hs.laid hm hq
 obtain ⟨keep,hsha,hkeep⟩ := shared_of_combine hcom
 exact ⟨_,node',back',hsha,hs'.induced hm hr hroot hkeep⟩

end

variable {g h : Graph} {a b : NodeId}

lemma form_spelt {m : Manner} (hm : m.marked = false) {limit : Int} {f : Form} (hg : g.Sound)
 (hd : g.directed = false) (ha : g.AnchoredAt a) (hl : g.Lettered)
 (hf : (form g limit false).2 = .ok f) {v : Value}
 (hv : f.tree.nodeAttr? f.tree.anchor "label" = some v) :
 ∃ ws l, Spelt m f.tree ws ∧ [l] ∈ ws ∧ l.forward = false ∧ v.text.toList = [l.char] := by
 have hne : f.tree.ids ≠ [] := by
  intro hnil
  rw [nodeAttr?_of_not_mem (by simp [hnil])] at hv
  cases hv
 rw [form_undirected hd] at hf
 obtain ⟨ws,hs,_⟩ := formBy_spelt (hm.trans hd.symm) hg ha hl hf hne
 obtain ⟨l,hroot,hnode⟩ := hs.worded.exists_root
 obtain ⟨x,hx,htext⟩ := hs.label [] l hroot
 rw [nil_append,hnode,hv] at hx
 cases hx
 exact ⟨ws,l,hs,hroot,by simpa using (hs.proper _ hroot).start,htext⟩

theorem form_merges {limit limit' : Int} {s q : Form} (hg : g.Sound) (hh : h.Sound)
 (hdg : g.directed = false)
 (hdh : h.directed = false) (hag : g.AnchoredAt a) (hah : h.AnchoredAt b) (hlg : g.Lettered)
 (hlh : h.Lettered)
 (hs : (form g limit false).2 = .ok s) (hq : (form h limit' false).2 = .ok q) {v x : Value}
 (hv : s.tree.nodeAttr? s.tree.anchor "label" = some v)
 (hx : q.tree.nodeAttr? q.tree.anchor "label" = some x)
 (hvx : v.text = x.text) :
 ∃ o t, combine s.tree q.tree = .ok o ∧ shared s.tree q.tree = .ok t ∧ Merges s.tree q.tree o t := by
 let m : Manner := ⟨false,0,a⟩
 obtain ⟨ws,l,hsw,hl,hlf,hlc⟩ := form_spelt (m := m) rfl hg hdg hag hlg hs hv
 obtain ⟨vs,k,hqv,hk,hkf,hkc⟩ := form_spelt (m := m) rfl hh hdh hah hlh hq hx
 have hlk : l = k := by
  rw [hvx,hkc] at hlc
  exact Letter.ext (hlf.trans hkf.symm) (List.cons.inj hlc).1.symm
 exact hsw.worded.merges rfl hqv.worded ⟨l,hl,hlk ▸ hk⟩

def fork : Graph where
 directed := false
 multi := false
 nodes := ⟨[(.num 5,⟨[("label",.str "B"),("anchor",.int 0)]⟩),
  (.num 6,⟨[("label",.str "A"),("anchor",.int 1)]⟩),
  (.num 7,⟨[("label",.str "C")]⟩),(.num 8,⟨[("label",.str "D")]⟩)]⟩
 edges := [⟨.num 5,.num 6,.none,.empty⟩,⟨.num 6,.num 7,.none,.empty⟩,⟨.num 5,.num 8,.none,.empty⟩]

lemma fork_sound : fork.Sound := by decide

lemma fork_anchored : fork.AnchoredAt (.num 6) :=
 anchoredAt_of_filter fork_sound.ids (by simp [fork,isAnchor,get?,Value.same_int])

theorem loopedTriangle_merges_fork : ∃ s q o t, (form loopedTriangle 4 false).2 = .ok s ∧
 (form fork 3 false).2 = .ok q ∧ combine s.tree q.tree = .ok o ∧ shared s.tree q.tree = .ok t ∧
 Merges s.tree q.tree o t := by
 obtain ⟨s,hs,hsn⟩ := formBy_nonempty loopedTriangle_sound loopedTriangle_anchored (by decide)
  (by decide : (1 : Int) ≤ 4)
 obtain ⟨q,hq,hqn⟩ := formBy_nonempty fork_sound fork_anchored (by decide)
  (by decide : (1 : Int) ≤ 3)
 obtain ⟨v,hv,hvte⟩ := formBy_label loopedTriangle_sound loopedTriangle_anchored (by decide) hs hsn
 obtain ⟨x,hx,hxte⟩ := formBy_label fork_sound fork_anchored (by decide) hq hqn
 have hvx : v.text = x.text := by
  rw [← String.toList_inj,hvte,hxte]
  decide
 obtain ⟨o,t,ho,ht,hmer⟩ :=
  form_merges loopedTriangle_sound fork_sound rfl rfl loopedTriangle_anchored
  fork_anchored (by decide) (by decide) hs hq hv hx hvx
 exact ⟨s,q,o,t,hs,hq,ho,ht,hmer⟩

variable {m : Manner} {s q t : Graph} {ws vs : List Word} {bs : List Branch} {w : Word}

def lettersFrom (t : Graph) : Option NodeId → List NodeId → Word
 | _, [] => []
 | before, n :: rest => ⟨before.any (t.hasEdge · n),t.letter n⟩ :: lettersFrom t (some n) rest

def Route (t : Graph) (n : NodeId) (w : Word) : Prop :=
 ∃ p, AnchorPath t p ∧ p.getLast? = some n ∧ lettersFrom t none p = w

lemma lettersFrom_concat (before : Option NodeId) (p : List NodeId) (n : NodeId) :
 lettersFrom t before (p ++ [n]) =
  lettersFrom t before p ++ [⟨(p.getLast?.or before).any (t.hasEdge · n),t.letter n⟩] := by
 induction p generalizing before with
 | nil => rfl
 | cons u p ih =>
  rw [cons_append,lettersFrom,ih,lettersFrom,cons_append,getLast?_cons]
  cases p.getLast? <;> rfl

lemma Spelt.letter (h : Spelt m t ws) {l : Letter} (hw : w ++ [l] ∈ ws) :
 t.letter (nodeOf ws (w ++ [l])) = l.char := by
 obtain ⟨v,hv,htext⟩ := h.label w l hw
 simp [Graph.letter,hv,htext]

lemma Spelt.lettersFrom (h : Spelt m t ws) (hd : t.directed) {p : List NodeId} (hp : AnchorPath t p)
 (hw : w ∈ ws) (hlast : p.getLast? = some (nodeOf ws w)) : lettersFrom t none p = w := by
 have hris := (h.carries.scripted h.inscribed).toRising
 induction p using reverseRecOn generalizing w with
 | nil => exact absurd rfl hp.ne_nil
 | append_singleton p n ih =>
  obtain rfl : n = nodeOf ws w := by simpa using hlast
  rw [lettersFrom_concat,or_none]
  by_cases hn : nodeOf ws w = t.anchor
  · have hlen : w.length = 1 := (h.spread.rooted.nodeOf_root hw).1 (hn.trans h.anchor_eq)
    obtain ⟨l,rfl⟩ := length_eq_one_iff.1 hlen
    have hfor : l.forward = false := by simpa using (h.proper _ hw).start
    have hchar : t.letter (nodeOf ws [l]) = l.char := h.letter (w := []) hw
    rw [(hp.init_eq_nil_iff hris).2 hn,hchar]
    exact congrArg (fun x => [x]) (Letter.ext hfor.symm rfl)
  · have hne : p ≠ [] := fun hnil => hn ((hp.init_eq_nil_iff hris).1 hnil)
    obtain ⟨u,hu⟩ : ∃ u, p.getLast? = some u := ⟨_,getLast?_eq_some_getLast hne⟩
    obtain ⟨v,hv,rfl⟩ := h.spread.eq_nodeOf (hp.mem u (by simp [mem_of_getLast? hu]))
    obtain ⟨l,hl⟩ := hp.last_prolongs hris hu
    rw [wordAt_nodeOf hw,wordAt_nodeOf hv] at hl
    subst hl
    rw [ih (hp.init hne) hv hu,hu,any_some,h.hasEdge_forward hd hv hw,h.letter hw]

lemma Spelt.route_iff (h : Spelt m t ws) (hd : t.directed) {n : NodeId} :
 Route t n w ↔ w ∈ ws ∧ n = nodeOf ws w := by
 constructor
 · rintro ⟨p,hp,hlast,rfl⟩
   obtain ⟨w,hw,rfl⟩ := h.spread.eq_nodeOf (hp.mem n (mem_of_getLast? hlast))
   rw [h.lettersFrom hd hp hw hlast]
   exact ⟨hw,rfl⟩
 · rintro ⟨hw,rfl⟩
   obtain ⟨p,hp,hlast⟩ := (h.carries.scripted h.inscribed).exists_path (h.spread.nodeOf_mem hw)
   exact ⟨p,hp,hlast,h.lettersFrom hd hp hw hlast⟩

variable {names : Table NodeId NodeId} {fresh : Word → NodeId}

lemma Lists.mem_ids (hs : Spelt m s ws) (hbs : Lists m (nodeOf ws) ws bs) {b : String × List NodeId}
 (hb : b ∈ pairs bs)
 {n : NodeId} (hn : n ∈ b.2) : n ∈ s.ids := by
 obtain ⟨w,hw,_,rfl⟩ := hbs.mem_pairs.1 hb
 obtain ⟨i,_,rfl⟩ := mem_map.1 hn
 exact hs.spread.nodeOf_mem (hs.spread.rooted.take_mem hw (succ_pos i))

lemma Spelt.name_mem_iff (hs : Spelt m s ws) (hbs : Lists m (nodeOf ws) ws bs) (hw : Proper m w)
 (hnot : w ∉ ws)
 (hnew : fresh w ∉ s.ids) (hget : ∀ x, names.get? (nodeOf vs w) = some x ↔
  Lands m bs ws (nodeOf ws) fresh w x) :
 names.getD (nodeOf vs w) (nodeOf vs w) ∈ s.ids ↔
  ∃ k b, RunsWith (pairs bs) (strand m.marked w) k b ∧ w.length ≤ k ∧
   (w.length ≤ b.2.length ∨ nodeOf vs w ∈ s.ids) := by
 have hpos : 0 < w.length := length_pos_iff.2 hw.ne_nil
 have hfre : Lands m bs ws (nodeOf ws) fresh w (fresh w) →
  names.getD (nodeOf vs w) (nodeOf vs w) ∉ s.ids := by
  intro hland
  rw [getD_of_get? ((hget _).2 hland)]
  exact hnew
 rcases longestShared_cases (pairs bs) (strand m.marked w) with ⟨heq,hnone⟩ | ⟨k,b,hrun,heq⟩
 · refine iff_of_false (hfre (.inr ⟨hnot,.inr ⟨by rw [heq]; exact hpos,rfl⟩⟩)) ?_
   rintro ⟨k,b,hrun,_⟩
   exact hnone k hrun.pos hrun.le b hrun.mem.1 hrun.mem.2
 · have honly : (∃ k b, RunsWith (pairs bs) (strand m.marked w) k b ∧ w.length ≤ k ∧
    (w.length ≤ b.2.length ∨ nodeOf vs w ∈ s.ids)) ↔
    w.length ≤ k ∧ (w.length ≤ b.2.length ∨ nodeOf vs w ∈ s.ids) := by
    constructor
    · rintro ⟨j,c,hrun',hle⟩
      obtain ⟨rfl,rfl⟩ := hrun'.unique hrun
      exact hle
    · intro hle
      exact ⟨k,b,hrun,hle⟩
   rw [honly]
   by_cases hle : w.length ≤ k
   · have hland : ∀ x, Lands m bs ws (nodeOf ws) fresh w x ↔ b.2[w.length - 1]? = some x := by
      intro x
      simp only [Lands,heq,hnot,false_and,not_false_eq_true,true_and,false_or,hle,
       not_lt.2 hle,or_false,
       getElem?_take_of_lt (show w.length - 1 < k by omega)]
     by_cases hlong : w.length ≤ b.2.length
     · obtain ⟨x,hx⟩ : ∃ x, b.2[w.length - 1]? = some x := ⟨_,getElem?_eq_getElem (by omega)⟩
       rw [getD_of_get? ((hget x).2 ((hland x).2 hx))]
       exact iff_of_true (hbs.mem_ids hs hrun.mem.1 (mem_of_getElem? hx)) ⟨hle,.inl hlong⟩
     · -- the branch is too short to give a name, so the number stays
       have hkept : names.get? (nodeOf vs w) = none := by
        rw [eq_none_iff_forall_ne_some]
        intro x hx
        have hx' := (hland x).1 ((hget x).1 hx)
        have hlt := lt_length hx'
        omega
       rw [Table.getD,hkept,getD_none]
       simp [hle,hlong]
   · refine iff_of_false (hfre (.inr ⟨hnot,.inr ⟨by rw [heq]; omega,rfl⟩⟩)) ?_
     rintro ⟨h,_⟩
     exact hle h

/-- The characters that a way shares with the source's branches reach as far as its nodes, and a
source node is there to take the name of. -/
def Overruns (s : Graph) (bs : List Branch) (n : NodeId) (w : Word) : Prop :=
 ∃ k b, RunsWith (pairs bs) (strand true w) k b ∧ w.length ≤ k ∧ (w.length ≤ b.2.length ∨ n ∈ s.ids)

lemma Spelt.overruns_sibling (hm : m.marked) (hs : Spelt m s ws)
 (hbs : Lists m (nodeOf ws) ws bs) {u : Word}
 {l k : Letter} (hu : u ≠ []) (hl : u ++ [l] ∈ ws) (hlk : l.forward = k.forward) (n : NodeId) :
 Overruns s bs n (u ++ [k]) := by
 have hlen : (strand true u).length + 1 = 2 * u.length := by
  simpa [hm,Manner.unit] using strand_length (m := m) hu
 have htext : ∀ x : Letter, strand true (u ++ [x]) = strand true u ++
  [if x.forward then '>' else '<',x.char] :=
  fun x => strand_concat true hu x
 have hlong : (strand true (u ++ [k])).length = 2 * u.length + 1 := by
  rw [htext,length_append,length_cons,length_singleton]
  omega
 -- all of the text but its last character is shared
 obtain ⟨x,hx,hleaf,hpre⟩ := hs.spread.rooted.exists_leaf hl
 have hsha : (strand true (u ++ [k])).take (2 * u.length) <+: strand true x := by
  refine IsPrefix.trans ?_ (hm ▸ strand_mono (by simp) hpre)
  rw [htext,htext,← hlk,take_append,take_of_length_le (by omega),
   show 2 * u.length - (strand true u).length = 1 by omega]
  exact ⟨[l.char],by simp⟩
 have hmem := hbs.mem_pairs.2 ⟨x,hx,hleaf,rfl⟩
 rw [hm] at hmem
 rcases longestShared_cases (pairs bs) (strand true (u ++ [k])) with ⟨_,hnone⟩ | ⟨j,b,hrun,_⟩
 · refine absurd ?_ (hnone (2 * u.length) (by omega) (by omega) _ hmem)
   rwa [String.toList_ofList]
 · have hj : 2 * u.length ≤ j := by
    by_contra hlt
    refine hrun.longest (2 * u.length) (by omega) (by omega) _ hmem ?_
    rwa [String.toList_ofList]
   refine ⟨j,b,hrun,by rw [length_append,length_singleton]; omega,.inl ?_⟩
   obtain ⟨hb,hbpre⟩ := hrun.mem
   obtain ⟨v,hv,_,rfl⟩ := hbs.mem_pairs.1 hb
   have hvlen : (strand true v).length + 1 = 2 * v.length := by
    simpa [hm,Manner.unit] using strand_length (m := m) (hs.spread.rooted.pos v hv)
   have hle := hbpre.length_le
   rw [String.toList_ofList,hm,length_take,min_eq_left hrun.le] at hle
   rw [length_pathOf,length_append,length_singleton]
   omega

def Faithful (s q : Graph) (name : NodeId → NodeId) : Prop :=
 ∀ n ∈ q.ids, name n ∈ s.ids → ∀ w, Route q n w → Route s (name n) w

lemma Faithful.letter {name : NodeId → NodeId} (h : Faithful s q name) (hs : Spelt m s ws)
 (hq : Spelt m q vs)
 (hds : s.directed) (hdq : q.directed) {n : NodeId} (hn : n ∈ q.ids) (hnam : name n ∈ s.ids) :
 s.letter (name n) = q.letter n := by
 obtain ⟨w,hw,rfl⟩ := hq.spread.eq_nodeOf hn
 obtain ⟨hws,hnode⟩ := (hs.route_iff hds).1 (h _ hn hnam w ((hq.route_iff hdq).2 ⟨hw,rfl⟩))
 obtain ⟨u,l,rfl⟩ : ∃ u l, w = u ++ [l] :=
  ⟨_,_,(dropLast_append_getLast (hq.spread.rooted.pos w hw)).symm⟩
 rw [hnode,hs.letter hws,hq.letter hw]

lemma Spelt.faithful_iff (hm : m.marked) (hs : Spelt m s ws) (hq : Spelt m q vs)
 (hbs : Lists m (nodeOf ws) ws bs)
 {names : Table NodeId NodeId} {fresh : Word → NodeId} (hnew : ∀ w ∈ vs, fresh w ∉ s.ids)
 (hget : ∀ w ∈ vs, ∀ x, names.get? (nodeOf vs w) = some x ↔ Lands m bs ws (nodeOf ws) fresh w x) :
 Faithful s q (fun n => names.getD n n) ↔
  ∀ n w, Route q n w → (∀ r, ¬ Route s r w) → ¬ Overruns s bs n w := by
 have hds : s.directed := hs.kind.trans hm
 have hdq : q.directed := hq.kind.trans hm
 simp only [Faithful,hs.route_iff hds,hq.route_iff hdq,Overruns]
 constructor
 · rintro h n w ⟨hw,rfl⟩ hlack hover
   have hnot : w ∉ ws := fun hmem => hlack _ ⟨hmem,rfl⟩
   have hmem := (hs.name_mem_iff hbs (hq.proper w hw) hnot (hnew w hw) (hget w hw)).2 (hm ▸ hover)
   exact hnot (h _ (hq.spread.nodeOf_mem hw) hmem w ⟨hw,rfl⟩).1
 · rintro h n _ hnam w ⟨hw,rfl⟩
   by_cases hmem : w ∈ ws
   · exact ⟨hmem,getD_of_get? ((hget w hw _).2 (.inl ⟨hmem,rfl⟩))⟩
   · have hover := (hs.name_mem_iff hbs (hq.proper w hw) hmem (hnew w hw) (hget w hw)).1 hnam
     exact absurd (hm ▸ hover) (h _ w ⟨hw,rfl⟩ fun r hr => hmem hr.1)

theorem markedForm_faithful_iff {limit limit' : Int} {s q : Form} (hg : g.Sound) (hh : h.Sound)
 (hdg : g.directed = true) (hdh : h.directed = true) (hag : g.AnchoredAt a) (hah : h.AnchoredAt b)
 (hlg : g.Lettered) (hlh : h.Lettered) (hs : (markedForm g limit).2 = .ok s)
 (hq : (markedForm h limit').2 = .ok q)
 (hsn : s.tree.ids ≠ []) (hqn : q.tree.ids ≠ []) :
 ∃ bs names t, branches s.tree.relisted = .ok bs ∧
  alignment s.tree.relisted q.tree.relisted = .ok names ∧
  combine s.tree q.tree = .ok (lay s.tree.relisted (q.tree.relisted.renamed fun n => names.getD n n)
   (some s.tree.relisted.anchor)) ∧ shared s.tree q.tree = .ok t ∧
  (∀ n r w, Route q.tree n w → Route s.tree r w → names.getD n n = r) ∧
  (Faithful s.tree q.tree (fun n => names.getD n n) ↔
   ∀ n w, Route q.tree n w → (∀ r, ¬ Route s.tree r w) → ¬ Overruns s.tree bs n w) ∧
  (Faithful s.tree q.tree (fun n => names.getD n n) →
   ∀ n ∈ q.tree.ids, names.getD n n ∈ t.ids → s.tree.letter (names.getD n n) = q.tree.letter n) := by
 let m : Manner := ⟨true,0,a⟩
 obtain ⟨ws,hsw,_⟩ := formBy_spelt (m := m) hdg.symm hg hag hlg (by rw [hdg]; exact hs) hsn
 obtain ⟨vs,hqv,_⟩ := formBy_spelt (m := m) hdh.symm hh hah hlh (by rw [hdh]; exact hq) hqn
 obtain ⟨bs,names,fresh,hbra,hbs,hnam,hfre,hget⟩ := hsw.worded.relisted.alignment hqv.worded.relisted
 have hcom : combine s.tree q.tree = .ok (lay s.tree.relisted
  (q.tree.relisted.renamed fun n => names.getD n n) (some s.tree.relisted.anchor)) := by
  rw [combine,hnam]
  rfl
 obtain ⟨keep,hsha,hkeep⟩ := shared_of_combine hcom
 refine ⟨bs,names,_,hbra,hnam,hcom,hsha,?_,hsw.faithful_iff rfl hqv hbs hfre.new hget,?_⟩
 · intro n r w hn hr
   obtain ⟨hw,rfl⟩ := (hqv.route_iff hqv.kind).1 hn
   obtain ⟨hmem,rfl⟩ := (hsw.route_iff hsw.kind).1 hr
   exact getD_of_get? ((hget w hw _).2 (.inl ⟨hmem,rfl⟩))
 · intro hfai n hn ht
   obtain ⟨hover,hk⟩ := mem_ids_induced.1 ht
   exact hfai.letter hsw hqv hsw.kind hqv.kind hn ((hkeep _ hover).1 hk).1

def arrow (label : String) : Graph where
 directed := true
 multi := false
 nodes := ⟨[(.num 1,⟨[("label",.str "A"),("anchor",.int 1)]⟩),(.num 2,⟨[("label",.str label)]⟩)]⟩
 edges := [⟨.num 1,.num 2,.none,.empty⟩]

lemma arrow_sound (label : String) : (arrow label).Sound where
 ids := by simp [Graph.ids,Table.keys,arrow]
 attrs := by simp [Table.keys,arrow]
 ends := by simp [Graph.ids,Table.keys,arrow]
 edgeAttrs := by simp [arrow]
 single := by simp [arrow]

lemma arrow_anchored (label : String) : (arrow label).AnchoredAt (.num 1) :=
 anchoredAt_of_filter (arrow_sound label).ids (by simp [arrow,isAnchor,get?,Value.same_int])

lemma arrow_roams (label : String) :
 Roams ⟨true,4,.num 1⟩ (arrow label) [(.num 2,true),(.num 1,false)] :=
 .step .start (.inl ⟨rfl,by simp [hasEdge,joins,arrow]⟩) (by simp) (by simp)

theorem arrows_unfaithful : ∃ s q names, (markedForm (arrow "B") 4).2 = .ok s ∧
 (markedForm (arrow "C") 4).2 = .ok q ∧
 alignment s.tree.relisted q.tree.relisted = .ok names ∧
  ¬ Faithful s.tree q.tree fun n => names.getD n n := by
 obtain ⟨s,hs,hsn⟩ := formBy_nonempty (arrow_sound "B") (arrow_anchored "B") (by decide)
  (by decide : (1 : Int) ≤ 4)
 obtain ⟨q,hq,hqn⟩ := formBy_nonempty (arrow_sound "C") (arrow_anchored "C") (by decide)
  (by decide : (1 : Int) ≤ 4)
 obtain ⟨bs,names,_,hbs,hnam,_,_,_,hiff,_⟩ :=
  markedForm_faithful_iff (arrow_sound "B") (arrow_sound "C") rfl
  rfl (arrow_anchored "B") (arrow_anchored "C") (by decide) (by decide) hs hq hsn hqn
 refine ⟨s,q,names,hs,hq,hnam,fun hfai => ?_⟩
 let m : Manner := ⟨true,4,.num 1⟩
 obtain ⟨ws,hsw,hws⟩ := formBy_spelt (m := m) rfl (arrow_sound "B") (arrow_anchored "B")
  (by decide) hs hsn
 obtain ⟨vs,hqv,hvs⟩ := formBy_spelt (m := m) rfl (arrow_sound "C") (arrow_anchored "C")
  (by decide) hq hqn
 have hB : [⟨false,'A'⟩] ++ [⟨true,'B'⟩] ∈ ws := (hws _).2 ⟨_,arrow_roams "B",by decide,by decide⟩
 have hC : [⟨false,'A'⟩] ++ [⟨true,'C'⟩] ∈ vs := (hvs _).2 ⟨_,arrow_roams "C",by decide,by decide⟩
 have hnot : [⟨false,'A'⟩] ++ [⟨true,'C'⟩] ∉ ws := by
  intro hmem
  obtain ⟨t,hroam,_,hword⟩ := (hws _).1 hmem
  obtain ⟨e,rest,rfl⟩ := exists_cons_of_ne_nil hroam.ne_nil
  have hread : Ready ⟨true,4,.num 1⟩ (arrow "B") :=
   ⟨arrow_sound "B",by decide,(arrow_anchored "B").mem,rfl⟩
  have hnode : e.1 ∈ [num 1,num 2] := hroam.mem_ids hread e (by simp)
  rw [word_cons] at hword
  have hchar := congrArg char (cons.inj (append_inj' hword rfl).2).1
  have hall : ∀ n ∈ [num 1,num 2], (arrow "B").letter n ≠ 'C' := by decide
  exact hall e.1 hnode hchar
 obtain ⟨bs',hbs',hlist⟩ := hsw.worded.relisted.branches
 obtain rfl : bs' = bs := Except.ok.inj (hbs'.symm.trans hbs)
 refine hiff.1 hfai _ _ ((hqv.route_iff hqv.kind).2 ⟨hC,rfl⟩)
  (fun r hr => hnot ((hsw.route_iff hsw.kind).1 hr).1) ?_
 exact hsw.overruns_sibling (k := ⟨true,'C'⟩) rfl hlist (by simp) hB rfl _

end MotifMatch.Normal
