import MotifMatch.Proofs.ErasedMarks
import MotifMatch.Proofs.WalkTexts

namespace MotifMatch.Normal
open List Manner MotifMatch.Graph
variable {m : Manner} {t u : Graph} {ws vs : List Word}
variable {bs cs : List Branch} {node name : Word → NodeId} {back spot : NodeId → Word}

lemma Lists.mem_texts (hbs : Lists m node ws bs) {x : String} :
 x ∈ bs.map Branch.text ↔ ∃ w ∈ ws, Leaf ws w ∧ x = String.ofList (strand m.marked w) := by
 rw [mem_map]
 constructor
 · rintro ⟨b,hb,rfl⟩
   obtain ⟨w,hw,hleaf,rfl⟩ := (hbs b).1 hb
   exact ⟨w,hw,hleaf,rfl⟩
 · rintro ⟨w,hw,hleaf,rfl⟩
   exact ⟨_,(hbs _).2 ⟨w,hw,hleaf,rfl⟩,rfl⟩

lemma Worded.words_of_texts (ht : Worded m t ws node back) (hu : Worded m u vs name spot)
 (hbs : Lists m node ws bs) (hcs : Lists m name vs cs)
 (h : ∀ x ∈ bs.map Branch.text, x ∈ cs.map Branch.text) : ∀ w ∈ ws, w ∈ vs := by
 intro w hw
 obtain ⟨l,hl,hleaf,hpre⟩ := ht.rooted.exists_leaf hw
 obtain ⟨x,hx,hxle,heq⟩ := hcs.mem_texts.1 (h _ (hbs.mem_texts.2 ⟨l,hl,hleaf,rfl⟩))
 refine (hu.mem_iff_prefix hcs (ht.proper w hw)).2 ⟨_,hcs.mem_pairs.2 ⟨x,hx,hxle,rfl⟩,?_⟩
 rw [← heq,String.toList_ofList]
 exact strand_mono (ht.proper w hw).ne_nil hpre

lemma Lists.texts_of_words (hbs : Lists m node ws bs) (hcs : Lists m name vs cs)
 (h : ∀ w, w ∈ ws ↔ w ∈ vs) :
 ∀ x ∈ bs.map Branch.text, x ∈ cs.map Branch.text := by
 intro x hx
 obtain ⟨w,hw,hleaf,rfl⟩ := hbs.mem_texts.1 hx
 exact hcs.mem_texts.2 ⟨w,(h w).1 hw,fun l hl => hleaf l ((h _).2 hl),rfl⟩

lemma Worded.sameTexts (ht : Worded m t ws node back) (hu : Worded m u vs name spot) :
 ∃ same, sameTexts t u = .ok same ∧ (same ↔ ∀ w, w ∈ ws ↔ w ∈ vs) := by
 obtain ⟨bs,hbra,hbs⟩ := ht.branches
 obtain ⟨cs,hbra',hcs⟩ := hu.branches
 refine ⟨(bs.map Branch.text).all (cs.map Branch.text).contains &&
  (cs.map Branch.text).all (bs.map Branch.text).contains,
  ?_,?_⟩
 · rw [Normal.sameTexts,hbra,hbra']
   rfl
 · simp only [Bool.and_eq_true,all_eq_true,contains_iff_mem]
   constructor
   · rintro ⟨h,h'⟩ w
     exact ⟨ht.words_of_texts hu hbs hcs h w,hu.words_of_texts ht hcs hbs h' w⟩
   · intro h
     exact ⟨hbs.texts_of_words hcs h,hcs.texts_of_words hbs fun w => (h w).symm⟩

section

structure Renames (t u : Graph) (alike : Value → Value → Prop) (φ : NodeId → NodeId) : Prop where
 bijective : Set.BijOn φ {n | n ∈ t.ids} {n | n ∈ u.ids}
 anchor : φ t.anchor = u.anchor
 label : ∀ n ∈ t.ids, ∃ v x, t.nodeAttr? n "label" = some v ∧ u.nodeAttr? (φ n) "label" =
  some x ∧ alike v x
 hasEdge : ∀ n ∈ t.ids, ∀ k ∈ t.ids, u.hasEdge (φ n) (φ k) = t.hasEdge n k

def PrintAlike (v x : Value) : Prop := v.text = x.text

lemma Renames.imp {alike alike' : Value → Value → Prop} {φ : NodeId → NodeId}
 (h : Renames t u alike φ)
 (himp : ∀ n ∈ t.ids, ∀ k ∈ u.ids, ∀ v x, t.nodeAttr? n "label" = some v →
  u.nodeAttr? k "label" = some x →
  alike v x → alike' v x) : Renames t u alike' φ where
 bijective := h.bijective
 anchor := h.anchor
 label n hn := by
  obtain ⟨v,x,hv,hx,hali⟩ := h.label n hn
  exact ⟨v,x,hv,hx,himp n hn _ (h.bijective.mapsTo hn) v x hv hx hali⟩
 hasEdge := h.hasEdge

lemma Spelt.exists_concat (h : Spelt m t ws) {w : Word} (hw : w ∈ ws) : ∃ v l, w = v ++ [l] :=
 ⟨_,_,(dropLast_append_getLast (h.spread.rooted.pos w hw)).symm⟩

lemma Spelt.renames (ht : Spelt m t ws) (hu : Spelt m u vs) (h : ∀ w, w ∈ ws ↔ w ∈ vs) :
 Renames t u PrintAlike fun n => nodeOf vs (wordAt ws n) where
 bijective := by
  refine ⟨fun n hn => ?_,fun n hn k hk heq => ?_,fun k hk => ?_⟩
  · obtain ⟨w,hw,rfl⟩ := ht.spread.eq_nodeOf hn
    dsimp only
    rw [wordAt_nodeOf hw]
    exact hu.spread.nodeOf_mem ((h w).1 hw)
  · obtain ⟨w,hw,rfl⟩ := ht.spread.eq_nodeOf hn
    obtain ⟨x,hx,rfl⟩ := ht.spread.eq_nodeOf hk
    dsimp only at heq
    rw [wordAt_nodeOf hw,wordAt_nodeOf hx] at heq
    rw [nodeOf_inj ((h w).1 hw) heq]
  · obtain ⟨w,hw,rfl⟩ := hu.spread.eq_nodeOf hk
    have hmem := (h w).2 hw
    exact ⟨nodeOf ws w,ht.spread.nodeOf_mem hmem,congrArg (nodeOf vs) (wordAt_nodeOf hmem)⟩
 anchor := by
  obtain ⟨l,hl,hroot⟩ := ht.worded.exists_root
  rw [← hroot,wordAt_nodeOf hl,hu.anchor_eq]
  exact (hu.spread.rooted.nodeOf_root ((h _).1 hl)).2 rfl
 label n hn := by
  obtain ⟨w,hw,rfl⟩ := ht.spread.eq_nodeOf hn
  obtain ⟨w,l,rfl⟩ := ht.exists_concat hw
  obtain ⟨v,hv,htext⟩ := ht.label w l hw
  obtain ⟨x,hx,htex'⟩ := hu.label w l ((h _).1 hw)
  refine ⟨v,x,hv,by rwa [wordAt_nodeOf hw],?_⟩
  rw [PrintAlike,← String.toList_inj,htext,htex']
 hasEdge n hn k hk := by
  obtain ⟨w,hw,rfl⟩ := ht.spread.eq_nodeOf hn
  obtain ⟨x,hx,rfl⟩ := ht.spread.eq_nodeOf hk
  rw [wordAt_nodeOf hw,wordAt_nodeOf hx,Bool.eq_iff_iff,hu.spread.arcs _ ((h w).1 hw) _ ((h x).1 hx),
   ht.spread.arcs _ hw _ hx,ht.kind,hu.kind]

variable {φ : NodeId → NodeId}
section
variable (hr : Renames t u PrintAlike φ) (ht : Spelt m t ws) (hu : Spelt m u vs)
include hr ht hu

lemma Renames.char_eq {v w : Word}
 {l k : Letter} (hv : v ++ [l] ∈ ws) (hw : w ++ [k] ∈ vs)
 (hnode : φ (nodeOf ws (v ++ [l])) = nodeOf vs (w ++ [k])) :
 l.char = k.char := by
 obtain ⟨x,y,hx,hy,hali⟩ := hr.label _ (ht.spread.nodeOf_mem hv)
 obtain ⟨x',hx',htext⟩ := ht.label v l hv
 obtain ⟨y',hy',htex'⟩ := hu.label w k hw
 rw [hnode] at hy
 obtain rfl := Option.some.inj (hx.symm.trans hx')
 obtain rfl := Option.some.inj (hy.symm.trans hy')
 rw [hali,htex'] at htext
 exact (cons.inj htext).1.symm

lemma Renames.letter_eq {w : Word} {l k : Letter} (hw : w ++ [l] ∈ ws) (hw' : w ++ [k] ∈ vs)
 (hne : w ≠ [])
 (hnode : φ (nodeOf ws w) = nodeOf vs w) (hnod' : φ (nodeOf ws (w ++ [l])) = nodeOf vs (w ++ [k])) :
  l = k := by
 have hstem := ht.spread.rooted.closed w l hw hne
 have hste' := hu.spread.rooted.closed w k hw' hne
 refine Letter.ext ?_ (hr.char_eq ht hu hw hw' hnod')
 cases hm : m.marked with
 | true =>
  have hedge := hr.hasEdge _ (ht.spread.nodeOf_mem hstem) _ (ht.spread.nodeOf_mem hw)
  rw [hnode,hnod',hu.hasEdge_forward (hu.kind.trans hm) hste' hw',
   ht.hasEdge_forward (ht.kind.trans hm) hstem hw] at hedge
  exact hedge.symm
 | false =>
  have hlast : ∀ x : Letter, x ∈ (w ++ [x]).tail := fun x => by simp [tail_append_of_ne_nil hne]
  rw [(ht.proper _ hw).along hm l (hlast l),(hu.proper _ hw').along hm k (hlast k)]

lemma Renames.root_eq {l : Letter} (hl : [l] ∈ ws) :
 [l] ∈ vs ∧ φ (nodeOf ws [l]) = nodeOf vs [l] := by
 obtain ⟨k,hk,hroot⟩ := hu.worded.exists_root
 have hnode : φ (nodeOf ws [l]) = nodeOf vs [k] := by
  rw [(ht.spread.rooted.nodeOf_root hl).2 rfl,← ht.anchor_eq,hr.anchor,hroot]
 have hfor : l.forward = k.forward := by
  have hlf := (ht.proper _ hl).start
  have hkf := (hu.proper _ hk).start
  simp_all
 obtain rfl : l = k := Letter.ext hfor (hr.char_eq (v := []) (w := []) ht hu hl hk hnode)
 exact ⟨hk,hnode⟩

lemma Renames.word_mem (n : Nat) : ∀ w ∈ ws, w.length = n → w ∈ vs ∧
 φ (nodeOf ws w) = nodeOf vs w := by
 -- by the length of the word: its node is next to that of its stem, and not above it, where the stem of the stem is
 induction n using Nat.strong_induction_on with
 | _ n ih =>
  intro w hw hlen
  obtain ⟨v,l,rfl⟩ := ht.exists_concat hw
  rw [length_append,length_singleton] at hlen
  by_cases hne : v = []
  · subst hne
    exact hr.root_eq ht hu hw
  · have hstem := ht.spread.rooted.closed v l hw hne
    obtain ⟨hste',hpar⟩ := ih v.length (by omega) v hstem rfl
    obtain ⟨x,hx,hnode⟩ := hu.spread.eq_nodeOf (hr.bijective.mapsTo (ht.spread.nodeOf_mem hw))
    have hjoi : Prolongs v x ∨ Prolongs x v := by
     rw [← hu.spread.joined_iff hste' hx,← hpar,← hnode,
      hr.hasEdge _ (ht.spread.nodeOf_mem hstem) _ (ht.spread.nodeOf_mem hw),
      hr.hasEdge _ (ht.spread.nodeOf_mem hw) _ (ht.spread.nodeOf_mem hstem),
       ht.spread.joined_iff hstem hw]
     exact .inl ⟨l,rfl⟩
    rcases hjoi with ⟨k,rfl⟩ | ⟨k,rfl⟩
    · obtain rfl := hr.letter_eq ht hu hw hx hne hpar hnode
      exact ⟨hx,hnode⟩
    · have habo := ht.spread.rooted.closed x k hstem (hu.spread.rooted.pos x hx)
      rw [length_append,length_singleton] at hlen
      obtain ⟨_,hsame⟩ := ih x.length (by omega) x habo rfl
      have heq := hr.bijective.injOn (ht.spread.nodeOf_mem hw) (ht.spread.nodeOf_mem habo)
       (hnode.trans hsame.symm)
      have := congrArg length (nodeOf_inj hw heq)
      simp only [length_append,length_singleton] at this
      omega

lemma Renames.words_iff (w : Word) : w ∈ ws ↔ w ∈ vs := by
 refine ⟨fun hw => (hr.word_mem ht hu _ w hw rfl).1,fun hw => ?_⟩
 obtain ⟨n,hn,hnode⟩ := hr.bijective.surjOn (hu.spread.nodeOf_mem hw)
 obtain ⟨x,hx,rfl⟩ := ht.spread.eq_nodeOf hn
 obtain ⟨hx',hsame⟩ := hr.word_mem ht hu _ x hx rfl
 rwa [← nodeOf_inj hx' (hsame.symm.trans hnode)]

end

lemma Spelt.renames_iff (ht : Spelt m t ws) (hu : Spelt m u vs) :
 (∃ φ, Renames t u PrintAlike φ) ↔ ∀ w, w ∈ ws ↔ w ∈ vs :=
 ⟨fun ⟨_,hr⟩ => hr.words_iff ht hu,fun h => ⟨_,ht.renames hu h⟩⟩

end

section
variable {g h : Graph} {a b : NodeId} {limit : Int} {f : Form}

lemma formBy_labels (hg : g.Sound) (ha : g.AnchoredAt a) (hl : g.Lettered)
 (hf : (formBy g limit g.directed g.directed).2 = .ok f) {n : NodeId} (hn : n ∈ f.tree.ids) :
 ∃ k ∈ g.ids, f.tree.nodeAttr? n "label" = g.nodeAttr? k "label" := by
 obtain rfl := ha.anchor_eq hg.ids
 have hr : Ready ⟨g.directed,limit,g.anchor⟩ g := ⟨hg,hl,ha.mem,rfl⟩
 obtain ⟨s,ws,done,hform,_,h,hdone⟩ := formBy_traced hr g.directed
 rw [hform] at hf
 cases hf
 obtain ⟨w,hw,rfl⟩ := h.tree.spread.eq_nodeOf hn
 obtain ⟨e,rest,hmem,_,hattr⟩ := h.nodeAttr? hw (k := "label") (by decide)
 exact ⟨e.1,(h.roams _ hmem).mem_ids hr e mem_cons_self,hattr⟩

def TextsTell (g h : Graph) : Prop :=
 ∀ n ∈ g.ids, ∀ k ∈ h.ids, ∀ v x, g.nodeAttr? n "label" = some v → h.nodeAttr? k "label" = some x →
  v.text = x.text → v = x

lemma formBy_textsTell {f' : Form} (htell : TextsTell g h) (hg : g.Sound) (hag : g.AnchoredAt a)
 (hlg : g.Lettered)
 (hh : h.Sound) (hah : h.AnchoredAt b) (hlh : h.Lettered)
 (hf : (formBy g limit g.directed g.directed).2 = .ok f)
 (hf' : (formBy h limit h.directed h.directed).2 = .ok f') : TextsTell f.tree f'.tree := by
 intro n hn k hk v x hv hx
 obtain ⟨n',hn',hlab⟩ := formBy_labels hg hag hlg hf hn
 obtain ⟨k',hk',hlab'⟩ := formBy_labels hh hah hlh hf' hk
 exact htell n' hn' k' hk' v x (hlab ▸ hv) (hlab' ▸ hx)

lemma TextsTell.renames_iff (h : TextsTell t u) :
 (∃ φ, Renames t u Eq φ) ↔ ∃ φ, Renames t u PrintAlike φ := by
 constructor
 · rintro ⟨φ,hr⟩
   exact ⟨φ,hr.imp fun _ _ _ _ _ _ _ _ heq => congrArg Value.text heq⟩
 · rintro ⟨φ,hr⟩
   exact ⟨φ,hr.imp h⟩

theorem sameTexts_iff_renames (hg : g.Sound) (hh : h.Sound) (hkind : g.directed = h.directed)
 (hag : g.AnchoredAt a)
 (hah : h.AnchoredAt b) (hlg : g.Lettered) (hlh : h.Lettered) (hlim : 1 ≤ limit) :
 ∃ f f' same, (form g limit false).2 = .ok f ∧ (form h limit false).2 = .ok f' ∧
  sameTexts f.tree f'.tree = .ok same ∧ (same = true ↔ ∃ φ, Renames f.tree f'.tree PrintAlike φ) ∧
  (TextsTell g h → (same = true ↔ ∃ φ, Renames f.tree f'.tree Eq φ)) := by
 obtain ⟨f,hf,hne⟩ := formBy_nonempty hg hag hlg hlim
 obtain ⟨f',hf',hne'⟩ := formBy_nonempty hh hah hlh hlim
 obtain ⟨ws,ht,_⟩ := formBy_spelt (m := ⟨g.directed,limit,a⟩) rfl hg hag hlg hf hne
 obtain ⟨vs,hu,_⟩ := formBy_spelt (m := ⟨g.directed,limit,a⟩) hkind hh hah hlh hf' hne'
 obtain ⟨same,hsame,hword⟩ := ht.worded.sameTexts hu.worded
 have hali := hword.trans (ht.renames_iff hu).symm
 refine ⟨f,f',same,by rw [form_eq,hf],by rw [form_eq,hf'],hsame,hali,fun htell => ?_⟩
 exact hali.trans (formBy_textsTell htell hg hag hlg hh hah hlh hf hf').renames_iff.symm

def thereAndBack : Graph where
 directed := true
 multi := false
 nodes := ⟨[(.num 0,⟨[("label",.str "A"),("anchor",.int 1)]⟩),
  (.num 1,⟨[("label",.str "B"),("anchor",.int 0)]⟩)]⟩
 edges := [⟨.num 0,.num 1,.none,.empty⟩,⟨.num 1,.num 0,.none,.empty⟩]

def thereOrBack : Graph where
 directed := true
 multi := false
 nodes := ⟨[(.num 5,⟨[("label",.str "B"),("anchor",.int 0)]⟩),
  (.num 7,⟨[("label",.str "A"),("anchor",.int 1)]⟩),
  (.num 2,⟨[("label",.str "B"),("anchor",.int 0)]⟩)]⟩
 edges := [⟨.num 7,.num 2,.none,.empty⟩,⟨.num 5,.num 7,.none,.empty⟩]

lemma thereAndBack_sound : thereAndBack.Sound := by decide

lemma thereAndBack_anchored : thereAndBack.AnchoredAt (.num 0) :=
 anchoredAt_of_filter thereAndBack_sound.ids (by
  simp [thereAndBack,isAnchor,Table.get?,Value.same_int])

lemma thereOrBack_sound : thereOrBack.Sound := by decide

lemma thereOrBack_anchored : thereOrBack.AnchoredAt (.num 7) :=
 anchoredAt_of_filter thereOrBack_sound.ids (by
  simp [thereOrBack,isAnchor,Table.get?,Value.same_int])

lemma thereAndBack_textsTell : TextsTell thereAndBack thereOrBack := by
 intro n hn k hk v x hv hx
 fin_cases hn <;> fin_cases hk <;>
  (obtain rfl := Option.some.inj hv; obtain rfl := Option.some.inj hx; simp [Value.text])

theorem thereAndBack_renamed : thereAndBack.Lettered ∧ thereOrBack.Lettered ∧
 ∃ f f', (form thereAndBack 4 false).2 = .ok f ∧ (form thereOrBack 4 false).2 = .ok f' ∧
  ∃ φ, Renames f.tree f'.tree Eq φ := by
 obtain ⟨f,f',same,hf,hf',hsame,_,hiff⟩ :=
  sameTexts_iff_renames thereAndBack_sound thereOrBack_sound rfl
  thereAndBack_anchored thereOrBack_anchored (by decide) (by decide) (show 1 ≤ 4 by decide)
 refine ⟨by decide,by decide,f,f',hf,hf',(hiff thereAndBack_textsTell).1 ?_⟩
 have hrun : ((form thereAndBack 4 false).2.bind fun f => (form thereOrBack 4 false).2.bind fun f' =>
  sameTexts f.tree f'.tree) = .ok true := by decide +kernel
 rw [hf,hf'] at hrun
 exact Except.ok.inj (hsame.symm.trans hrun)

end

variable {k : Manner} {g : Graph} {a : NodeId} {limit : Int} {w : Word}
section

def trailTo (ws : List Word) (w : Word) : Trail :=
 ((pathOf (nodeOf ws) w).zip (w.map Letter.forward)).reverse

lemma trailTo_concat (ws : List Word) (w : Word) (l : Letter) :
 trailTo ws (w ++ [l]) = (nodeOf ws (w ++ [l]),l.forward) :: trailTo ws w := by
 have hlen : (pathOf (nodeOf ws) w).length =
  (w.map Letter.forward).length := by rw [length_pathOf,length_map]
 rw [trailTo,pathOf_concat,map_append,zip_append hlen,reverse_append]
 rfl

lemma length_trailTo (w : Word) : (trailTo ws w).length = w.length := by simp [trailTo,length_pathOf]

lemma head?_trailTo (ws : List Word) (hw : w ≠ []) :
 (trailTo ws w).head?.map Prod.fst = some (nodeOf ws w) := by
 obtain ⟨v,l,rfl⟩ : ∃ v l, w = v ++ [l] := ⟨_,_,(dropLast_append_getLast hw).symm⟩
 rw [trailTo_concat]
 rfl

variable (h : Spelt m t ws)
include h

lemma Spelt.word_trailTo (hw : w ∈ ws) : word t (trailTo ws w) = w := by
 induction w using reverseRecOn with
 | nil => rfl
 | append_singleton w l ih =>
  have hstem : word t (trailTo ws w) = w := by
   by_cases hne : w = []
   · rw [hne]
     rfl
   · exact ih (h.spread.rooted.closed w l hw hne)
  rw [trailTo_concat,word_cons,hstem,h.letter hw]

lemma Spelt.forward_of_undirected (hd : t.directed = false) {v : Word} {l : Letter} (hv : v ≠ [])
 (hw : v ++ [l] ∈ ws) : l.forward := by
 refine (h.proper _ hw).along (h.kind.symm.trans hd) l ?_
 rw [tail_append_of_ne_nil hv]
 simp

variable (hk : k.marked = t.directed)
include hk

lemma Spelt.leads_cases {v : Word} (hv : v ∈ ws) {e : NodeId × Bool}
 (hl : k.Leads t (nodeOf ws v) e) :
 (∃ l, v ++ [l] ∈ ws ∧ e = (nodeOf ws (v ++ [l]),l.forward)) ∨
  ∃ u ∈ ws, ∃ l, v = u ++ [l] ∧ e.1 = nodeOf ws u := by
 obtain ⟨n,f⟩ := e
 rcases hl with ⟨hf,hedge⟩ | ⟨hmar,hf,hedge⟩
 · obtain ⟨x,hx,rfl⟩ := h.spread.eq_nodeOf (h.sound.of_hasEdge hedge).2
   obtain rfl : f := hf
   rcases (h.spread.arcs v hv x hx).1 hedge with (⟨l,hl,rfl⟩ | ⟨l,_,rfl⟩) |
    ⟨hd,⟨l,_,rfl⟩ | ⟨l,hl,rfl⟩⟩
   · exact .inl ⟨l,hx,by rw [hl]⟩
   · exact .inr ⟨x,hx,l,rfl,rfl⟩
   · exact .inr ⟨x,hx,l,rfl,rfl⟩
   · rw [h.forward_of_undirected hd (h.spread.rooted.pos v hv) hx] at hl
     cases hl
 · obtain ⟨x,hx,rfl⟩ := h.spread.eq_nodeOf (h.sound.of_hasEdge hedge).1
   obtain rfl : f = false := hf
   rcases (h.spread.arcs x hx v hv).1 hedge with (⟨l,_,rfl⟩ | ⟨l,hl,rfl⟩) | ⟨hd,_⟩
   · exact .inr ⟨x,hx,l,rfl,rfl⟩
   · exact .inl ⟨l,hx,by rw [hl]⟩
   · rw [← hk,hmar] at hd
     cases hd

lemma Spelt.leads_down {v : Word} {l : Letter} (hv : v ∈ ws)
 (hw : v ++ [l] ∈ ws) : k.Leads t (nodeOf ws v) (nodeOf ws (v ++ [l]),l.forward) := by
 cases hl : l.forward with
 | true => exact .inl ⟨rfl,(h.spread.arcs v hv _ hw).2 (.inl (.inl ⟨l,hl,rfl⟩))⟩
 | false =>
  have hd : t.directed := by
   by_contra hd
   rw [h.forward_of_undirected (Bool.not_eq_true _ ▸ hd) (h.spread.rooted.pos v hv) hw] at hl
   cases hl
  exact .inr ⟨hk.trans hd,rfl,(h.spread.arcs _ hw v hv).2 (.inl (.inr ⟨l,hl,rfl⟩))⟩

lemma Spelt.roams_iff (hanc : k.anchor = t.anchor) {p : Trail} :
 Roams k t p ↔ ∃ w ∈ ws, p = trailTo ws w := by
 have hroot : ∀ {l : Letter}, [l] ∈ ws → trailTo ws [l] = [(k.anchor,false)] := by
  intro l hl
  have hfor : l.forward = false := by simpa using (h.proper _ hl).start
  have hone := trailTo_concat ws [] l
  rw [nil_append,(h.spread.rooted.nodeOf_root hl).2 rfl,← h.anchor_eq,← hanc,hfor] at hone
  exact hone
 constructor
 · intro hp
   induction hp with
   | start =>
    obtain ⟨l,hl,_⟩ := h.worded.exists_root
    exact ⟨[l],hl,(hroot hl).symm⟩
   | @step u e rest _ hl _ hturn ih =>
    obtain ⟨w,hw,hdown⟩ := ih
    obtain ⟨v,x,rfl⟩ : ∃ v x, w = v ++ [x] := h.exists_concat hw
    rw [trailTo_concat,cons.injEq] at hdown
    obtain ⟨rfl,rfl⟩ := hdown
    rcases h.leads_cases hk hw hl with ⟨l,hlw,rfl⟩ | ⟨v',hv',l,heq,hup⟩
    · exact ⟨_,hlw,by rw [trailTo_concat,trailTo_concat]⟩
    · -- a step up would turn round
      obtain ⟨rfl,-⟩ := append_inj' heq rfl
      rw [head?_trailTo ws (h.spread.rooted.pos v hv'),hup] at hturn
      exact absurd rfl hturn
 · rintro ⟨w,hw,rfl⟩
   induction w using reverseRecOn with
   | nil => exact absurd rfl (h.spread.rooted.pos _ hw)
   | append_singleton v l ih =>
    by_cases hne : v = []
    · subst hne
      rw [nil_append,hroot hw]
      exact .start
    · have hv := h.spread.rooted.closed v l hw hne
      obtain ⟨u,x,rfl⟩ : ∃ u x, v = u ++ [x] := h.exists_concat hv
      have hroa := ih hv
      rw [trailTo_concat] at hroa
      rw [trailTo_concat,trailTo_concat]
      refine .step hroa (h.leads_down hk hv hw) ?_ ?_
      · intro heq
        rw [hanc,h.anchor_eq,h.spread.rooted.nodeOf_root hw] at heq
        simp at heq
      · by_cases hu : u = []
        · rw [hu]
          simp [trailTo,pathOf]
        · rw [head?_trailTo ws hu]
          intro heq
          have hlen :=
           congrArg length (nodeOf_inj (h.spread.rooted.closed u x hv hu) (Option.some.inj heq))
          simp at hlen

end

variable {done : List Trail} {s : Growth}

lemma Spelt.traced_again (h : Spelt m t ws)
 (hwit : ∀ w ∈ ws, (((if t.directed then 2 else 1) * (w.length - 1) : Nat) : Int) < limit) :
 ∃ s vs done, formBy t limit t.directed t.directed =
  (s.input,.ok ⟨s.tree,furthest ⟨t.directed,limit,t.anchor⟩ s.longest⟩) ∧
   s.tree.directed = t.directed ∧
  Traced ⟨t.directed,limit,t.anchor⟩ t done done vs s ∧
   (∀ p, p ∈ done ↔ ∃ w ∈ ws, p = trailTo ws w) ∧
  ∀ w, w ∈ vs ↔ w ∈ ws := by
 have hr : Ready ⟨t.directed,limit,t.anchor⟩ t :=
  ⟨h.sound,h.lettered,h.anchor_eq ▸ h.anchored.mem,rfl⟩
 obtain ⟨s,vs,done,hform,hdir,htr,hdone⟩ := formBy_traced hr t.directed
 have hways : ∀ p, p ∈ done ↔ ∃ w ∈ ws, p = trailTo ws w := by
  intro p
  rw [hdone,h.roams_iff rfl rfl]
  constructor
  · exact And.left
  · rintro ⟨w,hw,rfl⟩
    exact ⟨⟨w,hw,rfl⟩,by rw [length_trailTo]; exact hwit w hw⟩
 refine ⟨s,vs,done,hform,hdir,htr,hways,fun w => ?_⟩
 rw [htr.words]
 constructor
 · rintro ⟨p,hp,rfl⟩
   obtain ⟨w,hw,rfl⟩ := (hways p).1 hp
   rwa [h.word_trailTo hw]
 · intro hw
   exact ⟨_,(hways _).2 ⟨w,hw,rfl⟩,h.word_trailTo hw⟩

lemma Traced.nodeAttr?_again (htr : Traced k t done done vs s) (h : Spelt m t ws)
 (hdone : ∀ p, p ∈ done ↔ ∃ w ∈ ws, p = trailTo ws w) (hw : w ∈ vs) {name : String}
 (hnam : name ∉ scratch) : s.tree.nodeAttr? (nodeOf vs w) name = t.nodeAttr? (nodeOf ws w) name := by
 obtain ⟨e,rest,hmem,hword,hattr⟩ := htr.nodeAttr? hw hnam
 obtain ⟨x,hx,hdown⟩ := (hdone _).1 hmem
 obtain rfl : x = w := by rw [← h.word_trailTo hx,← hdown,hword]
 have hhead := head?_trailTo ws (h.spread.rooted.pos x hx)
 rw [← hdown] at hhead
 rw [hattr,← Option.some.inj hhead]

lemma Traced.distance (htr : Traced k g done done ws s) (hw : w ∈ ws) :
 s.tree.nodeAttr? (nodeOf ws w) "distance" = some (k.distance (k.unit * w.length)) := by
 obtain ⟨b,hb,hbea⟩ := htr.nodes w hw
 rw [Graph.nodeAttr?,hb,Option.bind_some,hbea.distance]

lemma Traced.longest_eq {h : Graph} {n : Manner} {done' : List Trail} {s' : Growth}
 (htr : Traced k g done done ws s)
 (htr' : Traced n h done' done' vs s') (hsta : [(k.anchor,false)] ∈ done)
 (hsta' : [(n.anchor,false)] ∈ done')
 (hunit : n.unit = k.unit) (hwor : ∀ w, w ∈ vs ↔ w ∈ ws) : s'.longest = s.longest := by
 obtain ⟨i,hi,⟨w,hw,hlen⟩,hall⟩ := htr.longest_word hsta
 obtain ⟨j,hj,⟨v,hv,hlen'⟩,hall'⟩ := htr'.longest_word hsta'
 have hij := hall' w ((hwor w).2 hw)
 have hji := hall v ((hwor v).1 hv)
 rw [hi,hj,hunit,show j = i by omega]

lemma Spelt.of_marked (h : Spelt m t ws) (hk : k.marked = m.marked) : Spelt k t ws :=
 { h with
   kind := h.kind.trans hk.symm
   proper := fun w hw => ⟨(h.proper w hw).start,fun hm => (h.proper w hw).along (hk.symm.trans hm)⟩ }

lemma Renames.labels_eq {t u : Graph} {φ : NodeId → NodeId} (h : Renames t u PrintAlike φ)
 (hlab : ∀ n ∈ t.ids, u.nodeAttr? (φ n) "label" = t.nodeAttr? n "label") : Renames t u Eq φ :=
 { h with
   label := fun n hn => by
     obtain ⟨v,x,hv,hx,_⟩ := h.label n hn
     rw [hlab n hn,hv] at hx
     exact ⟨v,x,hv,by rw [hlab n hn,hv,hx],Option.some.inj hx⟩ }

lemma Grown.size_eq {t u : Graph} (ht : Grown t ws) (hu : Grown u vs) (h : ∀ w, w ∈ vs ↔ w ∈ ws) :
 u.size = t.size := by
 rw [ht.size,hu.size]
 exact ((perm_ext_iff_of_nodup hu.rooted.nodup ht.rooted.nodup).2 h).length_eq

theorem form_of_form (hg : g.Sound) (ha : g.AnchoredAt a) (hl : g.Lettered) (hlim : 1 ≤ limit) :
 ∃ f f' : Form, (form g limit false).2 = .ok f ∧ (form f.tree limit false).2 = .ok f' ∧
  f'.tree.size = f.tree.size ∧ f'.furthest = f.furthest ∧
  (∀ x, (∃ n, Writes f'.tree n x) ↔ ∃ n, Writes f.tree n x) ∧
  ∃ φ, Renames f.tree f'.tree Eq φ ∧ ∀ n ∈ f.tree.ids, ∀ name, name ≠ "presence" →
   f'.tree.nodeAttr? (φ n) name = f.tree.nodeAttr? n name := by
 obtain rfl := ha.anchor_eq hg.ids
 have hr : Ready ⟨g.directed,limit,g.anchor⟩ g := ⟨hg,hl,ha.mem,rfl⟩
 obtain ⟨s,ws,done,hform,hdir,htr,hdone⟩ := formBy_traced hr g.directed
 have hsta : [(g.anchor,false)] ∈ done := (hdone _).2 ⟨.start,by rw [length_singleton]; omega⟩
 have hne : ws ≠ [] := ne_nil_of_mem ((htr.words _).2 ⟨_,hsta,rfl⟩)
 have hspe := htr.spelt hr ha hne hdir
 have hwith : ∀ w ∈ ws, (((if s.tree.directed then 2 else 1) * (w.length - 1) : Nat) : Int) <
  limit := by
  intro w hw
  obtain ⟨p,hp,rfl⟩ := (htr.words w).1 hw
  rw [hdir,word_length]
  exact ((hdone p).1 hp).2
 obtain ⟨s',vs,done',hform',hdir',htr',hways,hword⟩ := hspe.traced_again hwith
 obtain ⟨l,hroot,_⟩ := hspe.worded.exists_root
 have hsta' : [(s.tree.anchor,false)] ∈ done' :=
  (hways _).2 ((hspe.roams_iff (k := ⟨s.tree.directed,limit,s.tree.anchor⟩) rfl rfl).1 .start)
 have hr' : Ready ⟨s.tree.directed,limit,s.tree.anchor⟩ s.tree :=
  ⟨hspe.sound,hspe.lettered,hspe.anchor_eq ▸ hspe.anchored.mem,rfl⟩
 have hspe' := htr'.spelt hr' (hspe.anchor_eq ▸ hspe.anchored)
  (ne_nil_of_mem ((hword _).2 hroot)) hdir'
 have hmark : s.tree.directed = g.directed := hdir
 have hattr : ∀ n ∈ s.tree.ids, ∀ name, name ≠ "presence" →
  s'.tree.nodeAttr? (nodeOf vs (wordAt ws n)) name = s.tree.nodeAttr? n name := by
  intro n hn name hnam
  obtain ⟨w,hw,rfl⟩ := hspe.spread.eq_nodeOf hn
  have hw' := (hword w).2 hw
  rw [wordAt_nodeOf hw]
  by_cases hdist : name = "distance"
  · rw [hdist,htr.distance hw,htr'.distance hw']
    simp only [distance,unit,hmark]
  · exact htr'.nodeAttr?_again hspe hways hw' (by simp [scratch,hnam,hdist])
 refine ⟨_,_,by rw [form_eq,hform],by rw [form_eq,hform'],htr.tree.size_eq htr'.tree hword,?_,?_,
  _,(hspe.renames (hspe'.of_marked hmark.symm) fun w => (hword w).symm).labels_eq fun n hn =>
   hattr n hn "label" (by decide),hattr⟩
 · have hlong := htr.longest_eq htr' hsta hsta' (by simp only [unit,hmark]) hword
   simp only [furthest,distance,hmark,hlong]
 · intro x
   simp only [hspe.writes_iff,hspe'.writes_iff,hword,text,hmark]
   constructor
   · rintro ⟨_,w,hw,-,rfl⟩
     exact ⟨_,w,hw,rfl,rfl⟩
   · rintro ⟨_,w,hw,-,rfl⟩
     exact ⟨_,w,hw,rfl,rfl⟩

theorem turnpike_form_of_form : turnpike.Lettered ∧ ∃ f f', (form turnpike 5 false).2 = .ok f ∧
 (form f.tree 5 false).2 = .ok f' ∧ f'.tree.size = f.tree.size ∧ f'.furthest = f.furthest ∧
 ∀ x, (∃ n, Writes f'.tree n x) ↔ ∃ n, Writes f.tree n x := by
 obtain ⟨f,f',hf,hf',hsiz,hfar,htext,_⟩ :=
  form_of_form turnpike_sound turnpike_anchored (by decide) (show 1 ≤ 5 by decide)
 exact ⟨by decide,f,f',hf,hf',hsiz,hfar,htext⟩

end MotifMatch.Normal
