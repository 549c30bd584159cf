import MotifMatch.Proofs.ErasedMarks
import MotifMatch.Proofs.WalkTexts

namespace MotifMatch
open List Prod Finset
namespace Graph
variable {g : Graph}

lemma Sound.nodup_filterMap (hg : g.Sound) (hm : g.multi = false) {far : Edge → Option NodeId}
 (hfar : ∀ e f n, far e = some n → far f = some n → g.joins e.source e.target f) :
 (g.edges.filterMap far).Nodup := by
 refine Pairwise.filterMap far ?_ (hg.single hm)
 rintro e f hef n hn k hk rfl
 rw [hfar e f _ hn hk] at hef
 cases hef

lemma Sound.nodup_neighbors (hg : g.Sound) (u : NodeId) : (g.neighbors u).Nodup := by
 unfold neighbors
 split
 · exact nodup_distinct _
 · next hm =>
   refine hg.nodup_filterMap (by simpa using hm) fun e f n he hf => ?_
   rw [farEnd?_eq_some_iff] at he hf
   rwa [← joins_of_joins he]

lemma Sound.nodup_predecessors (hg : g.Sound) (u : NodeId) : (g.predecessors u).Nodup := by
 unfold predecessors
 split
 · split
   · exact nodup_distinct _
   · next hm =>
     refine hg.nodup_filterMap (by simpa using hm) fun e f n he hf => ?_
     simp only [Option.ite_none_right_eq_some,beq_iff_eq,Option.some.injEq] at he hf
     exact joins_iff.2 (.inl ⟨hf.2.trans he.2.symm,hf.1.trans he.1.symm⟩)
 · exact hg.nodup_neighbors u

def presence (t : Graph) (n : NodeId) : Int :=
 match t.nodeAttr? n "presence" with
 | some (.int c) => c
 | _ => 0

end Graph

namespace Normal
variable {m : Manner} {g t : Graph} {a : NodeId} {limit : Int} {long : Trail → Bool} {ws : List Word}
 {done counted : List Trail} {s : Growth} {w : Word}

lemma Grounded.nodup_onward (hr : Grounded m g) (e : NodeId × Bool) (rest : Trail) :
 (onward m g e rest).Nodup := by
 have htrue : Function.Injective fun v : NodeId => (v,true) := fun _ _ h => congrArg fst h
 have hfal : Function.Injective fun v : NodeId => (v,false) := fun _ _ h => congrArg fst h
 refine Nodup.filter _ ?_
 unfold Manner.steps
 split
 · next hm =>
   rw [if_pos (hr.kind ▸ hm)]
   refine nodup_append.2 ⟨(hr.sound.nodup_neighbors _).map htrue,
    (hr.sound.nodup_predecessors _).map hfal,?_⟩
   intro x hx y hy hxy
   obtain ⟨u,_,rfl⟩ := mem_map.1 hx
   obtain ⟨v,_,rfl⟩ := mem_map.1 hy
   cases hxy
 · exact (hr.sound.nodup_neighbors _).map htrue

lemma nodup_visits {ps : List Pending} (hps : ps.Nodup) : (visits m long ps).Nodup := by
 refine (hps.filter _).map ?_
 rintro ⟨e,t⟩ ⟨e',t'⟩ h
 obtain ⟨rfl,rfl⟩ := cons.inj h
 rfl

lemma Grounded.nodup_sequel (hr : Grounded m g) {ps : List Pending} (hps : ps.Nodup) :
 (sequel m g long ps).Nodup := by
 refine nodup_flatMap.2 ⟨fun p _ => ?_,(hps.filter _).imp fun {p q} hpq => ?_⟩
 · exact (hr.nodup_onward p.1 p.2).map fun x y h => congrArg fst h
 · intro x hx hx'
   obtain ⟨y,_,rfl⟩ := mem_map.1 hx
   obtain ⟨z,_,heq⟩ := mem_map.1 hx'
   have hsame := congrArg snd heq
   exact hpq (Prod.ext (List.cons.inj hsame).1.symm (List.cons.inj hsame).2.symm)

lemma Grounded.nodup_roam (hr : Grounded m g) (n : Nat) : ∀ k ps, ps.Nodup →
 (∀ p ∈ ps, p.2.length = k) → (roam m g long n ps).Nodup ∧ ∀ t ∈ roam m g long n ps, k <
  t.length := by
 induction n with
 | zero => exact fun _ _ _ _ => ⟨nodup_nil,by simp [roam]⟩
 | succ n ih =>
  intro k ps hps hlen
  have hvis : ∀ t ∈ visits m long ps, t.length = k + 1 := by
   intro t ht
   obtain ⟨p,hp,_,rfl⟩ := mem_visits.1 ht
   rw [length_cons,hlen p hp]
  have hseq : ∀ q ∈ sequel m g long ps, q.2.length = k + 1 := by
   intro q hq
   obtain ⟨p,hp,_,hqp,_⟩ := mem_sequel.1 hq
   rw [hqp,length_cons,hlen p hp]
  obtain ⟨hnod,hlat⟩ := ih (k + 1) _ (hr.nodup_sequel hps) hseq
  refine ⟨nodup_append.2 ⟨nodup_visits hps,hnod,fun t ht u hu htu => ?_⟩,fun t ht => ?_⟩
  · have h := hvis t ht
    have h' := hlat u hu
    rw [htu] at h
    omega
  · rcases mem_append.1 ht with ht | ht
    · have h := hvis t ht
      omega
    · have h := hlat t ht
      omega

lemma Ready.admissible_iff (hr : Ready m g) {t : Trail} :
 Admissible g m.anchor m.limit t.reverse ↔ Roams m g t ∧ m.overlong t.tail = false := by
 rw [admissible_reverse_iff hr.kind]
 refine and_congr_right fun ht => ?_
 have htail : t.tail = [] ∨ Roams m g t.tail := by
  obtain ⟨e,rest,rfl⟩ := exists_cons_of_ne_nil ht.ne_nil
  exact ht.tail
 rw [hr.length_walkText htail,Manner.overlong,decide_eq_false_iff_not,not_le]

lemma formBy_once (limit : Int) (hg : g.Sound) (ha : g.AnchoredAt a) (hl : g.Lettered) :
 ∃ s ws done, formBy g limit g.directed g.directed =
  (s.input,.ok ⟨s.tree,Manner.furthest ⟨g.directed,limit,a⟩ s.longest⟩) ∧
   s.tree.directed = g.directed ∧
  Traced ⟨g.directed,limit,a⟩ g done done ws s ∧ done.Nodup ∧ ∀ t, t ∈ done ↔
   Admissible g a limit t.reverse := by
 obtain rfl := ha.anchor_eq hg.ids
 have hr : Ready ⟨g.directed,limit,g.anchor⟩ g := ⟨hg,hl,ha.mem,rfl⟩
 obtain ⟨s,ws,done,hform,hdir,htr,n,hn,rfl⟩ :=
  hr.steady.formBy hr.grounded lengthens_overlong (traced_start hg g.directed) rfl
 refine ⟨s,ws,_,hform,hdir,htr,?_,fun t => ?_⟩
 · exact (hr.grounded.nodup_roam _ 0 _ (nodup_singleton _) (by simp)).1
 · rw [hr.grounded.mem_roam_outset lengthens_overlong hn]
   exact hr.admissible_iff.symm

lemma Proper.spell_prefix_iff {u w : Word} (hu : Proper m u) (hw : Proper m w) :
 spell m.marked u <+: spell m.marked w ↔ u <+: w := by
 constructor
 · intro h
   have hle : u.length ≤ w.length := by
    have := h.length_le
    rw [spell_length,spell_length] at this
    exact le_of_mul_le_mul_left this unit_pos
   have hcut : spell m.marked (w.take u.length) <+: spell m.marked w := by
    conv_rhs => rw [← take_append_drop u.length w,spell_append]
    exact prefix_append _ _
   have hlen : (spell m.marked u).length = (spell m.marked (w.take u.length)).length := by
    rw [spell_length,spell_length,length_take_of_le hle]
   have hsame := (prefix_of_prefix_length_le h hcut hlen.le).eq_of_length hlen
   have hpos : 0 < u.length := length_pos_iff.2 hu.ne_nil
   rw [hu.spell_inj (hw.take hpos) hsame]
   exact take_prefix _ _
 · rintro ⟨v,rfl⟩
   rw [spell_append]
   exact prefix_append _ _

lemma ncard_mem {α : Type} {l : List α} (hl : l.Nodup) (p : α → Bool) :
 {x | x ∈ l ∧ p x = true}.ncard = l.countP p := by
 classical
 have hset : {x | x ∈ l ∧ p x = true} = ((l.filter p).toFinset) := by
  ext x
  simp
 rw [hset,Set.ncard_coe_finset,toFinset_card_of_nodup (hl.filter p),countP_eq_length_filter]

lemma ncard_admissible (hnod : done.Nodup) (hdone : ∀ t, t ∈ done ↔ Admissible g a limit t.reverse)
 {P : Trail → Prop} {p : Trail → Bool} (hp : ∀ t ∈ done, P t.reverse ↔ p t) :
 {v | Admissible g a limit v ∧ P v}.ncard = done.countP p := by
 have hima : {v | Admissible g a limit v ∧ P v} = reverse '' {t | t ∈ done ∧ p t = true} := by
  ext v
  constructor
  · rintro ⟨hv,hpv⟩
    have ht : v.reverse ∈ done := (hdone _).2 (by rwa [reverse_reverse])
    exact ⟨v.reverse,⟨ht,(hp _ ht).1 (by rwa [reverse_reverse])⟩,reverse_reverse v⟩
  · rintro ⟨t,⟨ht,hpt⟩,rfl⟩
    exact ⟨(hdone t).1 ht,(hp t ht).2 hpt⟩
 rw [hima,Set.ncard_image_of_injective _ reverse_injective,ncard_mem hnod]

lemma Traced.text_prefix_iff (hr : Ready m g) (h : Traced m g done counted ws s)
 (hw : w ∈ ws) {t : Trail}
 (ht : t ∈ done) : (m.text w).toList <+: (g.walkText t.reverse).toList ↔
  w.isPrefixOf (word g t) := by
 rw [hr.walkText_reverse (h.roams t ht),Manner.text,Manner.text,String.toList_ofList,
  String.toList_ofList,
  (h.proper hw).spell_prefix_iff (h.roams t ht).proper, isPrefixOf_iff_prefix]

lemma Traced.presence (h : Traced m g done counted ws s) (hw : w ∈ ws) :
 s.tree.nodeAttr? (nodeOf ws w) "presence" =
  some (.int (counted.countP fun t => w.isPrefixOf (word g t))) := by
 obtain ⟨b,hb,hbea⟩ := h.nodes w hw
 rw [Graph.nodeAttr?,hb,Option.bind_some,hbea.presence]

def IsChild (t : Graph) (n k : NodeId) : Prop := ∃ p, AnchorPath t (p ++ [n] ++ [k])

lemma Spelt.isChild_iff (h : Spelt m t ws) (hw : w ∈ ws) {k : NodeId} :
 IsChild t (nodeOf ws w) k ↔ ∃ l, w ++ [l] ∈ ws ∧ k = nodeOf ws (w ++ [l]) := by
 have hris := (h.carries.scripted h.inscribed).toRising
 constructor
 · rintro ⟨p,hp⟩
   obtain ⟨v,hv,rfl⟩ := h.spread.eq_nodeOf (hp.mem k (by simp))
   obtain ⟨l,hl⟩ := hp.last_prolongs hris (u := nodeOf ws w) (by simp)
   rw [wordAt_nodeOf hv,wordAt_nodeOf hw] at hl
   exact ⟨l,hl ▸ hv,by rw [hl]⟩
 · rintro ⟨l,hl,rfl⟩
   obtain ⟨p,hp,hlast⟩ := hris.exists_path (h.spread.nodeOf_mem hl)
   obtain ⟨q,rfl⟩ := getLast?_eq_some_iff.1 hlast
   have hne : q ≠ [] := by
    intro hq
    have hroot := (hp.init_eq_nil_iff hris).1 hq
    rw [h.anchor_eq,h.spread.rooted.nodeOf_root hl] at hroot
    have hpos := length_pos_iff.2 (h.spread.rooted.pos w hw)
    rw [length_append,length_singleton] at hroot
    omega
   obtain ⟨r,u,rfl⟩ : ∃ r u, q = r ++ [u] := ⟨_,_,(dropLast_append_getLast hne).symm⟩
   obtain ⟨v,hv,rfl⟩ := h.spread.eq_nodeOf (hp.mem u (by simp))
   obtain ⟨x,hx⟩ := hp.last_prolongs hris (u := nodeOf ws v) (by simp)
   rw [wordAt_nodeOf hl,wordAt_nodeOf hv] at hx
   obtain ⟨rfl,-⟩ := append_inj' hx rfl
   exact ⟨r,hp⟩

lemma sum_children_le_one {w x : Word} {kids : Finset Word} (hkids : ∀ v ∈ kids, ∃ l, v = w ++ [l]) :
 (∑ v ∈ kids, if v.isPrefixOf x then 1 else 0) + (if x = w then 1 else 0) ≤
  if w.isPrefixOf x then 1 else 0 := by
 have hbeg : ∀ v ∈ kids, v <+: x → w <+: x ∧ x ≠ w := by
  intro v hv hpre
  obtain ⟨l,rfl⟩ := hkids v hv
  refine ⟨(prefix_append w [l]).trans hpre,?_⟩
  rintro rfl
  have hlen := hpre.length_le
  rw [length_append,length_singleton] at hlen
  omega
 simp only [ isPrefixOf_iff_prefix]
 by_cases hsome : ∃ v ∈ kids, v <+: x
 · obtain ⟨v,hv,hpre⟩ := hsome
   obtain ⟨hw,hne⟩ := hbeg v hv hpre
   have honly : ∀ u ∈ kids, (if u <+: x then 1 else 0) = if u = v then 1 else 0 := by
    intro u hu
    refine if_congr ⟨fun hpre' => ?_,fun heq => heq ▸ hpre⟩ rfl rfl
    obtain ⟨l,rfl⟩ := hkids u hu
    obtain ⟨l',rfl⟩ := hkids v hv
    have hlen : (w ++ [l]).length = (w ++ [l']).length := by simp
    exact (prefix_of_prefix_length_le hpre' hpre hlen.le).eq_of_length hlen
   rw [sum_congr rfl honly,sum_ite_eq' kids v,if_pos hv,if_neg hne,if_pos hw]
 · have hnone : ∀ u ∈ kids, (if u <+: x then 1 else 0) = 0 :=
    fun u hu => if_neg fun hpre => hsome ⟨u,hu,hpre⟩
   rw [sum_congr rfl hnone,sum_const_zero,zero_add]
   by_cases hx : x = w
   · rw [if_pos hx,if_pos (hx ▸ prefix_rfl)]
   · rw [if_neg hx]
     exact Nat.zero_le _

lemma sum_countP_le {kids : Finset Word} (hkids : ∀ v ∈ kids, ∃ l, v = w ++ [l]) (ts : List Trail) :
 ∑ v ∈ kids, (ts.countP fun t => v.isPrefixOf (word g t)) + (ts.countP fun t => word g t = w) ≤
  ts.countP fun t => w.isPrefixOf (word g t) := by
 induction ts with
 | nil => simp
 | cons t ts ih =>
  have hone := sum_children_le_one (x := word g t) hkids
  simp only [countP_cons,sum_add_distrib,decide_eq_true_eq]
  omega

open Classical in
lemma Traced.sum_children (h : Traced m g done done ws s) (hspe : Spelt m s.tree ws) (hw : w ∈ ws) :
 1 + ∑ k ∈ s.tree.ids.toFinset with IsChild s.tree (nodeOf ws w) k, s.tree.presence k ≤
  s.tree.presence (nodeOf ws w) := by
 set kids := ws.toFinset.filter fun v => ∃ l, v = w ++ [l]
 have hkids : ∀ v ∈ kids, v ∈ ws ∧ ∃ l, v = w ++ [l] := fun v hv => by simpa [kids] using hv
 have hima : (s.tree.ids.toFinset.filter fun k => IsChild s.tree (nodeOf ws w) k) =
  kids.image (nodeOf ws) := by
  ext k
  simp only [Finset.mem_filter,mem_toFinset,Finset.mem_image,hspe.isChild_iff hw,kids]
  constructor
  · rintro ⟨-,l,hl,rfl⟩
    exact ⟨_,⟨hl,l,rfl⟩,rfl⟩
  · rintro ⟨_,⟨hl,l,rfl⟩,rfl⟩
    exact ⟨hspe.spread.nodeOf_mem hl,l,hl,rfl⟩
 have hcou : ∀ v ∈ ws, s.tree.presence (nodeOf ws v) =
  ((done.countP fun t => v.isPrefixOf (word g t) : Nat) : Int) := by
  intro v hv
  rw [Graph.presence,h.presence hv]
 -- one of the walks that the node counts ends at the node itself
 have hends : 0 < done.countP fun t => word g t = w := by
  obtain ⟨t,ht,htw⟩ := (h.words w).1 hw
  exact countP_pos_iff.2 ⟨t,ht,by simpa using htw⟩
 have hle := sum_countP_le (g := g) (fun v hv => (hkids v hv).2) done
 rw [hima,Finset.sum_image fun u hu v _ => nodeOf_inj (hkids u hu).1,
  Finset.sum_congr rfl fun v hv => hcou v (hkids v hv).1,hcou w hw,← Nat.cast_sum]
 omega

open Classical in
structure CountsWalks (g : Graph) (a : NodeId) (limit : Int) (t : Graph) : Prop where
 finite : {w | Admissible g a limit w}.Finite
 texts : ∀ x, (∃ n, Writes t n x) ↔ ∃ w, Admissible g a limit w ∧ g.walkText w = x
 written : ∀ n ∈ t.ids, ∃! x, Writes t n x
 presence : ∀ n x, Writes t n x → t.nodeAttr? n "presence" =
  some (.int ({w | Admissible g a limit w ∧ x.toList <+: (g.walkText w).toList}.ncard : Nat))
 children : ∀ n ∈ t.ids, 1 + ∑ k ∈ t.ids.toFinset with IsChild t n k, t.presence k ≤ t.presence n
 root : t.nodeAttr? (.num 0) "presence" = some (.int ({w | Admissible g a limit w}.ncard : Nat))

theorem form_countsWalks (hg : g.Sound) (ha : g.AnchoredAt a) (hl : g.Lettered) (hlim : 1 ≤ limit) :
 ∃ f, (form g limit false).2 = .ok f ∧ CountsWalks g a limit f.tree := by
 obtain ⟨s,ws,done,hform,hdir,htr,hnod,hdone⟩ := formBy_once limit hg ha hl
 have hr : Ready ⟨g.directed,limit,a⟩ g := ⟨hg,hl,ha.mem,rfl⟩
 have hsta : [(a,false)] ∈ done :=
  (hdone _).2 ⟨isMarkedWalk_singleton,by simp,lt_of_lt_of_le one_pos hlim⟩
 have hroot : word g [(a,false)] ∈ ws := (htr.words _).2 ⟨_,hsta,rfl⟩
 have hspe := htr.spelt hr ha (ne_nil_of_mem hroot) hdir
 refine ⟨⟨s.tree,_⟩,by rw [form_eq,hform],?_,?_,?_,?_,?_,?_⟩
 · refine (done.finite_toSet.image reverse).subset fun w hw => ?_
   exact ⟨w.reverse,(hdone _).2 (by rwa [reverse_reverse]),reverse_reverse w⟩
 · intro x
   simp only [hspe.writes_iff]
   constructor
   · rintro ⟨_,w,hw,-,rfl⟩
     obtain ⟨t,ht,rfl⟩ := (htr.words w).1 hw
     exact ⟨t.reverse,(hdone t).1 ht,hr.walkText_reverse (htr.roams t ht)⟩
   · rintro ⟨w,hw,rfl⟩
     have ht : w.reverse ∈ done := (hdone _).2 (by rwa [reverse_reverse])
     refine ⟨_,_,(htr.words _).2 ⟨_,ht,rfl⟩,rfl,?_⟩
     rw [← hr.walkText_reverse (htr.roams _ ht),reverse_reverse]
 · intro n hn
   obtain ⟨w,hw,rfl⟩ := hspe.spread.eq_nodeOf hn
   refine ⟨_,hspe.writes_iff.2 ⟨w,hw,rfl,rfl⟩,fun x hx => ?_⟩
   obtain ⟨v,hv,hsame,rfl⟩ := hspe.writes_iff.1 hx
   rw [nodeOf_inj hw hsame]
 · intro n x hx
   obtain ⟨w,hw,rfl,rfl⟩ := hspe.writes_iff.1 hx
   rw [htr.presence hw,ncard_admissible hnod hdone fun t ht => htr.text_prefix_iff hr hw ht]
 · intro n hn
   obtain ⟨w,hw,rfl⟩ := hspe.spread.eq_nodeOf hn
   exact htr.sum_children hspe hw
 · have hbeg : ∀ t ∈ done, True ↔ (word g [(a,false)]).isPrefixOf (word g t) = true := by
    intro t ht
    have hmem := (htr.words _).2 ⟨t,ht,rfl⟩
    have hsame :=
     Option.some.inj ((hspe.spread.rooted.root _ hroot).symm.trans (hspe.spread.rooted.root _ hmem))
    rw [take_of_length_le (by rw [word_length]; rfl)] at hsame
    rw [ isPrefixOf_iff_prefix,hsame]
    exact iff_of_true trivial ( take_prefix _ _)
   rw [← (hspe.spread.rooted.nodeOf_root hroot).2 (word_length ..),htr.presence hroot,
    ← ncard_admissible (P := fun _ => True) hnod hdone hbeg]
   simp only [and_true]

theorem turnpike_countsWalks : turnpike.Lettered ∧
 ∃ f, (form turnpike 5 false).2 = .ok f ∧ CountsWalks turnpike (.num 1) 5 f.tree :=
 ⟨by decide,form_countsWalks turnpike_sound turnpike_anchored (by decide) (by decide)⟩

end Normal
end MotifMatch
