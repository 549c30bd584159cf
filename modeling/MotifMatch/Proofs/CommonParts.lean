import MotifMatch.Evaluation.Report
import MotifMatch.Proofs.Embeddings
import MotifMatch.Proofs.SecondForms

namespace MotifMatch.Evaluation
open List MotifMatch.Normal Graph.Embedding
section

def SameSpelling (p q : Graph) : Prop := ∀ x, Spells p x ↔ Spells q x

def Meets (s q p : Graph) : Prop := ∀ x, Spells p x ↔ Spells s x ∧ Spells q x

def TextTree (l : Letter) (t : Graph) : Prop :=
 ∃ ws node back, Worded ⟨false,0,.num 0⟩ t ws node back ∧ [l] ∈ ws

variable {m : Manner} {s q t : Graph} {ws vs : List Word} {node name : Word → NodeId}
 {back spot : NodeId → Word}
 {l : Letter}

lemma sameSpelling_iff (hm : m.marked = false) (hs : Worded m s ws node back)
 (hq : Worded m q vs name spot) :
 SameSpelling s q ↔ ∀ w, w ∈ ws ↔ w ∈ vs := by
 constructor
 · intro h w
   have hread : ∀ x, Reading ws x ↔ Reading vs x :=
    fun x => hs.spells_iff.symm.trans ((h x).trans hq.spells_iff)
   constructor
   · intro hw
     exact (hq.reading_iff hm (hs.proper w hw)).1 ((hread _).1 ⟨w,hw,rfl⟩)
   · intro hw
     exact (hs.reading_iff hm (hq.proper w hw)).1 ((hread _).2 ⟨w,hw,rfl⟩)
 · intro h x
   rw [hs.spells_iff,hq.spells_iff]
   exact exists_congr fun w => and_congr_left fun _ => h w

variable (hs : TextTree l s) (hq : TextTree l q)
include hs hq

lemma TextTree.shared : ∃ t, shared s q = .ok t ∧ TextTree l t ∧ Meets s q t := by
 obtain ⟨ws,node,back,hs,hl⟩ := hs
 obtain ⟨vs,name,spot,hq,hlv⟩ := hq
 obtain ⟨t,node',back',hsha,ht⟩ := hs.shared rfl hq ⟨l,hl,hlv⟩
 refine ⟨t,hsha,⟨_,node',back',ht,mem_filter.2 ⟨hl,decide_eq_true hlv⟩⟩,fun x => ?_⟩
 rw [ht.spells_iff,hs.reading_filter rfl hq,hs.spells_iff,hq.spells_iff]

lemma TextTree.sameTexts : ∃ same, sameTexts s q = .ok same ∧ (same ↔ SameSpelling s q) := by
 obtain ⟨ws,node,back,hs,_⟩ := hs
 obtain ⟨vs,name,spot,hq,_⟩ := hq
 obtain ⟨same,hsame,hiff⟩ := hs.sameTexts hq
 exact ⟨same,hsame,hiff.trans (sameSpelling_iff rfl hs hq).symm⟩

lemma TextTree.size_eq (h : SameSpelling s q) : s.size = q.size := by
 obtain ⟨ws,node,back,hs,_⟩ := hs
 obtain ⟨vs,name,spot,hq,_⟩ := hq
 rw [hs.size_eq,hq.size_eq]
 exact ((perm_ext_iff_of_nodup hs.rooted.nodup hq.rooted.nodup).2
  ((sameSpelling_iff rfl hs hq).1 h)).length_eq

end

variable {l : Letter} {gs ps found ts : List Graph} {g p : Graph}

lemma mem_pairsOf {α : Type} {xs : List α} {x y : α} : (x,y) ∈ pairsOf xs ↔ [x,y] <+ xs := by
 induction xs with
 | nil => simp [pairsOf]
 | cons z xs ih =>
  rw [pairsOf,mem_append,ih,mem_map]
  constructor
  · rintro (⟨w,hw,heq⟩ | h)
    · cases heq
      exact (singleton_sublist.2 hw).cons_cons x
    · exact h.cons z
  · intro h
    cases h with
    | cons _ h => exact .inr h
    | cons_cons _ h => exact .inl ⟨y,singleton_sublist.1 h,rfl⟩

lemma addNew_ok (hfou : ∀ f ∈ found, TextTree l f) (hg : TextTree l g) :
 ∃ r, addNew found g = .ok r ∧
 ((r = found ∧ ∃ f ∈ found, SameSpelling g f) ∨
  (r = found ++ [g] ∧ ∀ f ∈ found, ¬ SameSpelling g f)) := by
 have hsame : ∀ f ∈ found, ∃ same, sameTexts g f = .ok same ∧ (same ↔ SameSpelling g f) :=
  fun f hf => hg.sameTexts (hfou f hf)
 have hiff : ∀ f ∈ found, sameTexts g f = .ok true ↔ SameSpelling g f := by
  intro f hf
  obtain ⟨same,hok,hiff⟩ := hsame f hf
  rw [hok,← hiff,Except.ok.injEq]
 obtain ⟨b,hb,hany⟩ := anyOf_iff fun f hf => (hsame f hf).imp fun _ h => h.1
 rw [addNew,hb]
 cases b with
 | true =>
  obtain ⟨f,hf,hfg⟩ := hany.1 rfl
  exact ⟨_,rfl,.inl ⟨rfl,f,hf,(hiff f hf).1 hfg⟩⟩
 | false =>
  refine ⟨_,rfl,.inr ⟨rfl,fun f hf hfg => ?_⟩⟩
  exact Bool.noConfusion (hany.2 ⟨f,hf,(hiff f hf).2 hfg⟩)

structure Gathers (l : Letter) (prs : List (Graph × Graph)) (found ps : List Graph) : Prop where
 kept : found ⊆ ps
 apart : ps.Pairwise fun p q => ¬ SameSpelling p q
 trees : ∀ p ∈ ps, TextTree l p
 drawn : ∀ p ∈ ps, p ∈ found ∨ ∃ e ∈ prs, Meets e.1 e.2 p
 covers : ∀ e ∈ prs, ∃ p ∈ ps, Meets e.1 e.2 p

lemma foldlM_gathers {prs : List (Graph × Graph)} (hprs : ∀ e ∈ prs, TextTree l e.1 ∧ TextTree l e.2)
 (hfou : ∀ p ∈ found, TextTree l p) (hapa : found.Pairwise fun p q => ¬ SameSpelling p q) :
 ∃ ps, prs.foldlM (fun found p => do addNew found (← shared p.1 p.2)) found = .ok ps ∧
  Gathers l prs found ps := by
 induction prs generalizing found with
 | nil => exact ⟨found,rfl,fun _ h => h,hapa,hfou,fun _ h => .inl h,by simp⟩
 | cons e prs ih =>
  obtain ⟨t,hsha,ht,hmee⟩ := (hprs e (by simp)).1.shared (hprs e (by simp)).2
  obtain ⟨r,hr,hcase⟩ := addNew_ok hfou ht
  -- what stands for the pair, and why the list stays in order
  obtain ⟨hsub,htre,hapa',hdra,p,hp,hpme⟩ : found ⊆ r ∧ (∀ p ∈ r, TextTree l p) ∧
   (r.Pairwise fun p q => ¬ SameSpelling p q) ∧ (∀ p ∈ r, p ∈ found ∨ Meets e.1 e.2 p) ∧
   ∃ p ∈ r, Meets e.1 e.2 p := by
   rcases hcase with ⟨rfl,f,hf,hsame⟩ | ⟨rfl,hnew⟩
   · exact ⟨fun _ h => h,hfou,hapa,fun _ h => .inl h,f,hf,fun x => (hsame x).symm.trans (hmee x)⟩
   · refine ⟨subset_append_left _ _,?_,?_,?_,t,by simp,hmee⟩
     · simpa [or_imp,forall_and] using ⟨hfou,ht⟩
     · rw [pairwise_append]
       exact ⟨hapa,pairwise_singleton _ _,fun p hp q hq hsame => by
        rw [mem_singleton.1 hq] at hsame
        exact hnew p hp fun x => (hsame x).symm⟩
     · intro p hp
       rcases mem_append.1 hp with hp | hp
       · exact .inl hp
       · rw [mem_singleton.1 hp]
         exact .inr hmee
  obtain ⟨ps,hps,h⟩ := ih (fun e he => hprs e (by simp [he])) htre hapa'
  refine ⟨ps,?_,fun x hx => h.kept (hsub hx),h.apart,h.trees,fun x hx => ?_,fun x hx => ?_⟩
  · rw [foldlM_cons,hsha]
    simp only [bind,Except.bind,hr]
    exact hps
  · rcases h.drawn x hx with hx | ⟨d,hd,hx⟩
    · exact (hdra x hx).imp_right fun hx => ⟨e,by simp,hx⟩
    · exact .inr ⟨d,by simp [hd],hx⟩
  · rcases mem_cons.1 hx with rfl | hx
    · exact ⟨p,h.kept hp,hpme⟩
    · exact h.covers x hx

lemma sharedParts_ok (hgs : ∀ g ∈ gs, TextTree l g) :
 ∃ ps, sharedParts gs = .ok ps ∧ Gathers l (pairsOf gs) [] ps := by
 refine foldlM_gathers (fun e he => ?_) (by simp) .nil
 have hsub := mem_pairsOf.1 he
 exact ⟨hgs _ (hsub.subset (by simp)),hgs _ (hsub.subset (by simp))⟩

variable {least most : Int}

def Intersects (ts : List Graph) (p : Graph) : Prop :=
 ∃ us, us ≠ [] ∧ us ⊆ ts ∧ ∀ x, Spells p x ↔ ∀ u ∈ us, Spells u x

lemma intersects_self {t : Graph} (ht : t ∈ ts) : Intersects ts t :=
 ⟨[t],by simp,by simpa using ht,by simp⟩

lemma Intersects.meets {s q : Graph} (hs : Intersects ts s) (hq : Intersects ts q)
 (h : Meets s q p) :
 Intersects ts p := by
 obtain ⟨us,hne,hus,hspe⟩ := hs
 obtain ⟨vs,_,hvs,hspe'⟩ := hq
 refine ⟨us ++ vs,by simp [hne],append_subset.2 ⟨hus,hvs⟩,fun x => ?_⟩
 rw [h,hspe,hspe',forall_mem_append]

structure Reduced (least : Int) (ps : List Graph) : Prop where
 nonempty : ps ≠ []
 big : ∀ p ∈ ps, bigEnough least p = true
 apart : ps.Pairwise fun p q => ¬ SameSpelling p q

def Shrinks (least most : Int) (gs : List Graph) : Prop :=
 most < gs.length ∧ ∃ s q p, [s,q] <+ gs ∧ shared s q = .ok p ∧ least ≤ p.size

lemma boilDown_ok (least most : Int) (n : Nat) (hgs : ∀ g ∈ gs, TextTree l g ∧ Intersects ts g) :
 ∃ ps, boilDown least most n gs = .ok ps ∧ (∀ p ∈ ps, Intersects ts p) ∧
  (ps = gs ∨ Reduced least ps) ∧
  (0 < n → Shrinks least most gs → Reduced least ps) := by
 induction n generalizing gs with
 | zero => exact ⟨gs,rfl,fun g hg => (hgs g hg).2,.inl rfl,fun h => absurd h (Nat.lt_irrefl 0)⟩
 | succ n ih =>
  rw [boilDown]
  split
  · next hle => exact ⟨gs,rfl,fun g hg => (hgs g hg).2,.inl rfl,fun _ h => absurd h.1 (not_lt.2 hle)⟩
  · obtain ⟨parts,hpar,h⟩ := sharedParts_ok fun g hg => (hgs g hg).1
    have hmem : ∀ p ∈ parts.filter (bigEnough least), TextTree l p ∧ Intersects ts p := by
     intro p hp
     have hp := (mem_filter.1 hp).1
     obtain ⟨e,he,hmee⟩ := (h.drawn p hp).resolve_left (by simp)
     have hsub := mem_pairsOf.1 he
     exact ⟨h.trees p hp,(hgs e.1 (hsub.subset (by simp))).2.meets
      (hgs e.2 (hsub.subset (by simp))).2 hmee⟩
    simp only [hpar,bind,Except.bind]
    split
    · next hemp =>
      -- no pair shares enough, so the graphs stay as they are
      refine ⟨gs,rfl,fun g hg => (hgs g hg).2,.inl rfl,fun _ hshr => ?_⟩
      obtain ⟨_,s,q,p,hsub,hp,hsiz⟩ := hshr
      obtain ⟨r,hr,hmee⟩ := h.covers (s,q) (mem_pairsOf.2 hsub)
      obtain ⟨p',hp',htree,hmee'⟩ :=
       (hgs s (hsub.subset (by simp))).1.shared (hgs q (hsub.subset (by simp))).1
      obtain rfl : p' = p := Except.ok.inj (hp'.symm.trans hp)
      have hbig : bigEnough least r := by
       rw [bigEnough,decide_eq_true_eq,(h.trees r hr).size_eq htree fun x =>
        (hmee x).trans (hmee' x).symm]
       exact hsiz
      rw [List.isEmpty_iff] at hemp
      exact absurd (mem_filter.2 ⟨hr,hbig⟩) (by simp [hemp])
    · next hne =>
      have hred : Reduced least (parts.filter (bigEnough least)) :=
       ⟨by simpa using hne,fun p hp => (mem_filter.1 hp).2,h.apart.filter _⟩
      obtain ⟨ps,hps,hdra,hcase,_⟩ := ih hmem
      have hps' : Reduced least ps := hcase.elim (fun heq => heq ▸ hred) id
      exact ⟨ps,hps,hdra,.inr hps',fun _ _ => hps'⟩

structure Normalised (label : String) (t : Graph) : Prop where
 form : ∃ g a limit f, g.Sound ∧ g.directed = false ∧ g.AnchoredAt a ∧ g.Lettered ∧
  (form g limit false).2 = .ok f ∧ t = f.tree
 label : ∃ v, t.nodeAttr? t.anchor "label" = some v ∧ v.text = label

lemma Normalised.textTree {label : String} {t : Graph} (h : Normalised label t) :
 TextTree ⟨false,label.toList.headD ' '⟩ t := by
 obtain ⟨g,a,limit,f,hg,hd,ha,hl,hf,rfl⟩ := h.form
 obtain ⟨v,hv,rfl⟩ := h.label
 obtain ⟨ws,l,hs,hmem,hfor,htext⟩ := form_spelt (m := ⟨false,0,.num 0⟩) rfl hg hd ha hl hf hv
 refine ⟨ws,_,_,hs.worded,?_⟩
 rw [htext,headD_cons,← hfor]
 exact hmem

lemma Normalised.combine {label : String} {s q : Graph} (hs : Normalised label s)
 (hq : Normalised label q) : ∃ o, combine s q = .ok o := by
 obtain ⟨ws,node,back,hws,hl⟩ := hs.textTree
 obtain ⟨vs,name,spot,hvs,hlv⟩ := hq.textTree
 obtain ⟨o,_,ho,_⟩ := hws.merges rfl hvs ⟨_,hl,hlv⟩
 exact ⟨o,ho⟩

theorem commonParts_intersect {label : String} (h : ∀ t ∈ ts, Normalised label t)
 (least most rounds : Int) :
 ∃ ps, commonParts least most rounds ts = .ok ps ∧ (∀ p ∈ ps, least ≤ p.size ∧ Intersects ts p) ∧
  (ps = [] → ∀ t ∈ ts, t.size < least) ∧
  (0 < rounds → Shrinks least most ts → ps.Pairwise fun p q => ¬ SameSpelling p q) := by
 obtain ⟨ps,hps,hdraw,hcase,hshr⟩ := boilDown_ok least most rounds.toNat
  fun t ht => ⟨(h t ht).textTree,intersects_self ht⟩
 refine ⟨ps.filter (bigEnough least),by rw [commonParts,hps]; rfl,fun p hp => ?_,fun hnil t ht => ?_,
  fun hpos hone => (hshr (by omega) hone).apart.filter _⟩
 · obtain ⟨hp,hbig⟩ := mem_filter.1 hp
   exact ⟨of_decide_eq_true hbig,hdraw p hp⟩
 · rw [filter_eq_nil_iff] at hnil
   rcases hcase with rfl | hred
   · have hsma := hnil t ht
     rw [bigEnough,decide_eq_true_eq] at hsma
     omega
   · obtain ⟨p,hp⟩ := exists_mem_of_ne_nil _ hred.nonempty
     exact absurd (hred.big p hp) (hnil p hp)

lemma normalised_of_form {g : Graph} {a : NodeId} {limit : Int} {f : Form} {label : String}
 (hg : g.Sound)
 (hd : g.directed = false) (ha : g.AnchoredAt a) (hl : g.Lettered)
 (hlab : label.toList = [g.letter a])
 (hf : (form g limit false).2 = .ok f) (hne : f.tree.ids ≠ []) : Normalised label f.tree := by
 obtain ⟨v,hv,htext⟩ := formBy_label hg ha hl (form_undirected hd limit ▸ hf) hne
 exact ⟨⟨g,a,limit,f,hg,hd,ha,hl,hf,rfl⟩,v,hv,String.toList_injective (htext.trans hlab.symm)⟩

theorem loopedTriangle_fork_common : ∃ s q ps, (form loopedTriangle 4 false).2 = .ok s ∧
 (form fork 3 false).2 = .ok q ∧ commonParts 1 1 3 [s.tree,q.tree] = .ok ps ∧ ps ≠ [] ∧
 ∀ p ∈ ps, Intersects [s.tree,q.tree] p := by
 obtain ⟨s,hs,hsn⟩ := formBy_nonempty loopedTriangle_sound loopedTriangle_anchored (by decide)
  (by decide : (1 : Int) ≤ 4)
 obtain ⟨q,hq,hqn⟩ := formBy_nonempty fork_sound fork_anchored (by decide)
  (by decide : (1 : Int) ≤ 3)
 have hboth : ∀ t ∈ [s.tree,q.tree], Normalised "A" t := by
  simpa using ⟨normalised_of_form loopedTriangle_sound rfl loopedTriangle_anchored (by decide)
   (by decide) hs hsn,
   normalised_of_form fork_sound rfl fork_anchored (by decide) (by decide) hq hqn⟩
 obtain ⟨ps,hps,hall,hnil,_⟩ := commonParts_intersect hboth 1 1 3
 refine ⟨s,q,ps,hs,hq,hps,fun hemp => ?_,fun p hp => (hall p hp).2⟩
 have hsiz := hnil hemp s.tree (by simp)
 have hpos := length_pos_iff.2 hsn
 rw [← Graph.size_eq_length] at hpos
 omega

end MotifMatch.Evaluation
