import MotifMatch.Proofs.CommonParts
import MotifMatch.Proofs.Verdicts

namespace MotifMatch.Evaluation
open List Table MotifMatch.Normal

structure Trials where
 limits : SizeLimits
 (sources queries : List Graph)
 preds : List Float
 notes : List Notes

variable {u : Trials} {label kind : String}

lemma bestOf_largest {β : Type} (xs : List (β × Float)) : (bestOf xs = none ↔ xs = []) ∧
 ∀ x, bestOf xs = some x → ∃ w, (x,w) ∈ xs ∧ ∀ e ∈ xs, ¬w < e.2 := by
 by_cases hne : xs = []
 · subst hne
   exact ⟨by simp [bestOf],fun x hx => by simp [bestOf] at hx⟩
 · obtain ⟨top,hlast,hmem,hmax⟩ := getLast?_ascending hne
   rw [bestOf,hlast]
   refine ⟨by simp [hne],fun x hx => ⟨top.2,?_,hmax⟩⟩
   cases hx
   exact hmem

structure Submitted (label : String) (u : Trials) : Prop where
 source : ∀ g ∈ u.sources, Normalised label g
 query : ∀ g ∈ u.queries, Normalised label g
 lengths : u.sources.length = u.notes.length ∧ u.queries.length = u.notes.length ∧
  u.preds.length = u.notes.length
 typed : ∀ m ∈ u.notes, ∃ s q : String, m.get? "source_type" = some (.str s) ∧
  m.get? "pattern_type" = some (.str q)

/-- A sample that can stand for its type, and its prediction times the matched part of its query. -/
structure Qualifies (u : Trials) (kind : String) (x : Example Float) (worth : Float) : Prop where
 drawn : ∃ i m, x.place = some i ∧ u.notes[i]? = some m ∧ u.sources[i]? = some x.source ∧
  u.queries[i]? = some x.query ∧
  u.preds[i]? = some x.pred ∧ m.get? "source_type" = some (.str kind) ∧
   m.get? "pattern_type" = some (.str kind)
 sizes : ∀ g ∈ [x.source,x.query], (0 < u.limits.most → g.size ≤ u.limits.most) ∧
  (0 < u.limits.least → u.limits.least < g.size)
 matched : ∃ o, combine x.source x.query = .ok o ∧ 1 ≤ o.nodeMarks.count 1 ∧
  o.nodeMarks.count (-1) ≤ o.nodeMarks.count 1 ∧
  worth = x.pred * (Scalar.ofNat (o.nodeMarks.count 1) / Scalar.ofNat (o.nodeMarks.count 1 +
   o.nodeMarks.count (-1)))

lemma admits_iff (g : Graph) : (u.limits.bounded && !u.limits.admits g) = false ↔
 (0 < u.limits.most → g.size ≤ u.limits.most) ∧ (0 < u.limits.least → u.limits.least < g.size) := by
 simp only [SizeLimits.bounded,SizeLimits.admits,Bool.and_eq_false_iff,Bool.or_eq_false_iff,
  Bool.not_eq_false',Bool.and_eq_true,
  Bool.or_eq_true,decide_eq_true_eq,decide_eq_false_iff_not]
 omega

lemma isOwn_eq {m : Notes} {s q : String} (hs : m.get? "source_type" = some (.str s))
 (hq : m.get? "pattern_type" = some (.str q))
 (kind : String) : isOwn kind m = .ok (decide (s = kind ∧ q = kind)) := by
 rw [isOwn,note_of_get? hs,note_of_get? hq]
 show (if (Value.str s == .str kind) =
  true then Except.ok (Value.str q == .str kind) else .ok false) = _
 rw [Value.same_str,Value.same_str]
 by_cases h : s = kind <;> simp [h,Bool.beq_eq_decide_eq]

lemma candidate_spec (h : Submitted label u) (kind : String) {i : Nat} {m : Notes}
 (hm : u.notes[i]? = some m) :
  ∃ r, candidate u.limits u.sources u.queries u.preds kind (m,i) = .ok r ∧
  ∀ x w, r = some (x,w) ↔ x.place = some i ∧ Qualifies u kind x w := by
 obtain ⟨s,q,hs,hq⟩ := h.typed m (mem_of_getElem? hm)
 obtain ⟨hi,_⟩ := List.getElem?_eq_some_iff.1 hm
 obtain ⟨hsl,hql,hpl⟩ := h.lengths
 have hg := getElem?_eq_getElem (show i < u.sources.length by omega)
 have hk := getElem?_eq_getElem (show i < u.queries.length by omega)
 have hp := getElem?_eq_getElem (show i < u.preds.length by omega)
 generalize u.sources[i] = g at hg
 generalize u.queries[i] = k at hk
 generalize u.preds[i] = p at hp
 obtain ⟨o,ho⟩ := (h.source g (mem_of_getElem? hg)).combine (h.query k (mem_of_getElem? hk))
 let hit := o.nodeMarks.count 1
 let missed := o.nodeMarks.count (-1)
 have hsha : matchShare g k = .ok (if 1 ≤ hit ∧
  missed ≤ hit then some (Scalar.ofNat hit / Scalar.ofNat (hit + missed) : Float)
  else none) := by
  simp only [matchShare,ho,bind,Except.bind,pure,Except.pure,← count_eq_length_filter]
  by_cases hpart : 1 ≤ hit ∧ missed ≤ hit
  · rw [if_neg (by simp; omega),if_pos hpart]
  · rw [if_pos (by simp; omega),if_neg hpart]
 have hval : candidate u.limits u.sources u.queries u.preds kind (m,i) =
  .ok (if ((s = kind ∧ q = kind) ∧
  (u.limits.bounded && !u.limits.admits g) = false ∧ (u.limits.bounded && !u.limits.admits k) =
   false) ∧ 1 ≤ hit ∧ missed ≤ hit then
  some (⟨g,k,p,some i⟩,p * (Scalar.ofNat hit / Scalar.ofNat (hit + missed))) else none) := by
  simp only [candidate,isOwn_eq hs hq,pick_nat hg,pick_nat hk,pick_nat hp,hsha,bind,Except.bind,
   pure,Except.pure]
  generalize (u.limits.bounded && !u.limits.admits g) = wide
  generalize (u.limits.bounded && !u.limits.admits k) = broad
  generalize (Scalar.ofNat hit / Scalar.ofNat (hit + missed) : Float) = share
  by_cases hown : s = kind ∧ q = kind <;> cases wide <;> cases broad <;> by_cases hpart :
   1 ≤ hit ∧ missed ≤ hit <;>
   simp only [hown,hpart] <;> rfl
 refine ⟨_,hval,fun x w => ⟨fun hx => ?_,fun ⟨hpla,hx⟩ => ?_⟩⟩
 · split at hx
   case isTrue hc =>
    obtain ⟨⟨⟨rfl,rfl⟩,hfg,hfk⟩,hpart⟩ := hc
    cases hx
    refine ⟨rfl,⟨i,m,rfl,hm,hg,hk,hp,hs,hq⟩,?_,o,ho,hpart.1,hpart.2,rfl⟩
    simpa using ⟨(admits_iff g).1 hfg,(admits_iff k).1 hfk⟩
   case isFalse => cases hx
 · obtain ⟨i',m',hi',hm',hg',hk',hp',hs',hq'⟩ := hx.drawn
   obtain rfl : i = i' := Option.some.inj (hpla.symm.trans hi')
   obtain rfl : m = m' := Option.some.inj (hm.symm.trans hm')
   obtain rfl : g = x.source := Option.some.inj (hg.symm.trans hg')
   obtain rfl : k = x.query := Option.some.inj (hk.symm.trans hk')
   obtain rfl : p = x.pred := Option.some.inj (hp.symm.trans hp')
   obtain ⟨o',ho',hhit,hmis,rfl⟩ := hx.matched
   obtain rfl : o = o' := Except.ok.inj (ho.symm.trans ho')
   have hown : s = kind ∧ q = kind :=
    ⟨Value.str.inj (Option.some.inj (hs.symm.trans hs')),
     Value.str.inj (Option.some.inj (hq.symm.trans hq'))⟩
   rw [if_pos ⟨⟨hown,(admits_iff _).2 (hx.sizes _ (by simp)),
    (admits_iff _).2 (hx.sizes _ (by simp))⟩,hhit,hmis⟩,← hpla]

lemma candidates_spec (h : Submitted label u) (kind : String) :
 ∃ rs, u.notes.zipIdx.mapM (candidate u.limits u.sources u.queries u.preds kind) = .ok rs ∧
  ∀ x w, (x,w) ∈ rs.reduceOption ↔ Qualifies u kind x w := by
 choose! r hr hspec using fun (e : Notes × Nat) (he : e ∈ u.notes.zipIdx) =>
  candidate_spec h kind (mem_zipIdx_iff_getElem?.1 he)
 refine ⟨_,mapM_ok hr,fun x w => ?_⟩
 rw [reduceOption_mem_iff,mem_map]
 constructor
 · rintro ⟨e,he,heq⟩
   exact ((hspec e he x w).1 heq).2
 · intro hx
   obtain ⟨i,m,hi,hm,_⟩ := hx.drawn
   have he : (m,i) ∈ u.notes.zipIdx := mem_zipIdx_iff_getElem?.2 hm
   exact ⟨_,he,(hspec _ he x w).2 ⟨hi,hx⟩⟩

lemma get?_diagonal {β : Type} (best : String → Option β) (kinds : List String) (s q : String) :
 (kinds.foldl (fun (t : Table (String × String) β) k => (best k).elim t (t.put (k,k))) .empty).get?
  (s,q) =
  if s = q ∧ s ∈ kinds then best s else none := by
 induction kinds using reverseRecOn with
 | nil => exact (if_neg fun h => not_mem_nil h.2).symm
 | append_singleton ks k ih =>
  rw [foldl_append,foldl_cons,foldl_nil]
  cases hk : best k with
  | none =>
   simp only [Option.elim]
   grind
  | some x =>
   simp only [Option.elim,get?_put]
   grind

lemma ownExamples_best (h : Submitted label u) (kinds : List String) :
 ∃ own, ∃ best : String → Option (Example Float),
  ownExamples u.limits kinds u.sources u.queries u.preds u.notes = .ok own ∧
  (∀ s q, own.get? (s,q) = if s = q ∧ s ∈ kinds then best s else none) ∧
  (∀ t, (∃ x, best t = some x) ↔ ∃ x w, Qualifies u t x w) ∧
  ∀ t x, best t = some x → ∃ w, Qualifies u t x w ∧
   ∀ x' w', Qualifies u t x' w' → ¬w < w' := by
 choose rs hrs hmem using candidates_spec h
 have hbest : ∀ t x, bestOf (rs t).reduceOption = some x → ∃ w, Qualifies u t x w ∧
  ∀ x' w', Qualifies u t x' w' → ¬w < w' := by
  intro t x hx
  obtain ⟨w,hw,hmax⟩ := (bestOf_largest _).2 x hx
  exact ⟨w,(hmem t x w).1 hw,fun x' w' hx' => hmax (x',w') ((hmem t x' w').2 hx')⟩
 refine ⟨_,fun t => bestOf (rs t).reduceOption,foldlM_eq_ok (fun t kind _ => ?_) _,
  get?_diagonal _ kinds,fun t => ⟨?_,?_⟩,hbest⟩
 · rw [hrs kind]
   show _ = Except.ok ((bestOf (rs kind).reduceOption).elim t (t.put (kind,kind)))
   cases hb : bestOf (rs kind).reduceOption <;> simp [bind,Except.bind,pure,Except.pure,hb]
 · rintro ⟨x,hx⟩
   obtain ⟨w,hw,_⟩ := hbest t x hx
   exact ⟨x,w,hw⟩
 · rintro ⟨x,w,hw⟩
   refine Option.ne_none_iff_exists'.1 fun hnone => ?_
   exact not_mem_nil ((bestOf_largest _).1.1 hnone ▸ (hmem t x w).2 hw)

def crossed (kinds : List String) : List (String × String) :=
 kinds.flatMap fun s => (kinds.filter fun q => q != s).map fun q => (s,q)

variable {kinds : List String} {own : Examples Float} {s q : String}

lemma mem_crossed : (s,q) ∈ crossed kinds ↔ s ∈ kinds ∧ q ∈ kinds ∧ q ≠ s := by simp [crossed]

lemma length_crossed_le (kinds : List String) :
 (crossed kinds).length ≤ kinds.length * kinds.length := by
 rw [crossed,length_flatMap]
 refine (sum_le_card_nsmul _ kinds.length ?_).trans (by simp)
 simp only [mem_map,length_map]
 rintro _ ⟨s,_,rfl⟩
 exact length_filter_le _ _

lemma crossPairs_ok {x : String → Example Float}
 (h : ∀ p ∈ crossed kinds, own.get? (p.1,p.1) = some (x p.1) ∧
 own.get? (p.2,p.2) = some (x p.2)) :
 crossPairs kinds own = .ok ((crossed kinds).map fun p => (p,(x p.1).source,(x p.2).query)) := by
 refine mapM_ok fun p hp => ?_
 rw [exampleOf,exampleOf,(h p hp).1,(h p hp).2]
 rfl

lemma crossPairs_error (hp : (s,q) ∈ crossed kinds)
 (h : own.get? (s,s) = none ∨ own.get? (q,q) = none) :
 crossPairs kinds own = .error .missingKey := by
 refine mapM_eq_error (fun p _ => ?_) ⟨(s,q),hp,?_⟩ <;> simp only [exampleOf]
 · cases own.get? (p.1,p.1) <;> cases own.get? (p.2,p.2) <;> simp [bind,Except.bind,pure,Except.pure]
 · rcases h with h | h
   · rw [h]
     rfl
   · rw [h]
     cases own.get? (s,s) <;> rfl

lemma foldlM_shown {pairs : List ((String × String) × Graph × Graph)} {found : List Float}
 (h : found.length = pairs.length)
 (own : Examples Float) : ∃ rows, rows.map Prod.fst = pairs.map Prod.fst ∧
  pairs.zipIdx.foldlM (fun t e => do
  return t.put e.1.1 ⟨e.1.2.1,e.1.2.2,← pick found e.2,none⟩) own = .ok (own.putAll rows) := by
 refine ⟨pairs.zipIdx.map fun e => (e.1.1,⟨e.1.2.1,e.1.2.2,found.getD e.2 0,none⟩),?_,?_⟩
 · rw [map_map,← zipIdx_map_fst 0 pairs,map_map]
   simp [Function.comp_def]
 · rw [putAll,foldl_map]
   refine foldlM_eq_ok (fun t e he => ?_) own
   have hlt : e.2 < found.length := h ▸ (List.getElem?_eq_some_iff.1 (mem_zipIdx_iff_getElem?.1 he)).1
   rw [pick_nat (getElem?_eq_getElem hlt),getD_eq_getElem _ _ hlt]
   rfl

def Answers (j : Judge Float) (sources queries : List Graph) (most : Nat) : Prop :=
 ∀ ss qs : List Graph, (∀ g ∈ ss, g ∈ sources) → (∀ g ∈ qs, g ∈ queries) → ss.length = qs.length →
  ss.length ≤ most →
  ∃ found j', j.predict ss qs 128 = .ok (found,j') ∧ found.length = ss.length

lemma examples_answered {j : Judge Float} {x : String → Example Float}
 (hown : ownExamples u.limits kinds u.sources u.queries u.preds u.notes = .ok own)
 (hj : Answers j u.sources u.queries (kinds.length * kinds.length))
 (hx : ∀ p ∈ crossed kinds, own.get? (p.1,p.1) = some (x p.1) ∧ own.get? (p.2,p.2) = some (x p.2))
 (hdraw : ∀ p ∈ crossed kinds, (x p.1).source ∈ u.sources ∧ (x p.2).query ∈ u.queries) :
 ∃ rows j', rows.map Prod.fst = crossed kinds ∧
  examples u.limits kinds u.sources u.queries u.preds u.notes j = .ok (own.putAll rows,j') := by
 have hpair := crossPairs_ok hx
 generalize hsho : ((crossed kinds).map fun p => (p,(x p.1).source,(x p.2).query)) = shown at hpair
 obtain ⟨found,j',hpred,hlen⟩ := hj (shown.map fun e => e.2.1) (shown.map fun e => e.2.2)
  (hsho ▸ forall_mem_map.2 (forall_mem_map.2 fun p hp => (hdraw p hp).1))
  (hsho ▸ forall_mem_map.2 (forall_mem_map.2 fun p hp => (hdraw p hp).2))
  (by simp) (by simpa [← hsho] using length_crossed_le kinds)
 obtain ⟨rows,hrows,hfold⟩ := foldlM_shown (hlen.trans (length_map _)) own
 refine ⟨rows,j',by simp [hrows,← hsho,Function.comp_def],?_⟩
 rw [examples,hown]
 show (crossPairs kinds own >>= _) = _
 rw [hpair]
 show (j.predict (shown.map fun e => e.2.1) (shown.map fun e => e.2.2) 128 >>= _) = _
 rw [hpred]
 exact congrArg (fun all : Except Error (Examples Float) => all >>= fun all => .ok (all,j')) hfold

lemma examples_lacking {j : Judge Float}
 (hown : ownExamples u.limits kinds u.sources u.queries u.preds u.notes = .ok own)
 (hp : (s,q) ∈ crossed kinds) (h : own.get? (s,s) = none ∨ own.get? (q,q) = none) :
 examples u.limits kinds u.sources u.queries u.preds u.notes j = .error .missingKey := by
 rw [examples,hown]
 show (crossPairs kinds own >>= _) = _
 rw [crossPairs_error hp h]
 rfl

theorem examples_shown_iff {j : Judge Float} (h : Submitted label u)
 (kinds : List String) (hj : Answers j u.sources u.queries (kinds.length * kinds.length)) :
 let Has := fun t => ∃ x w, Qualifies u t x w
 ((∀ s ∈ kinds, ∀ q ∈ kinds, s ≠ q → Has s ∧ Has q) →
  ∃ all j', examples u.limits kinds u.sources u.queries u.preds u.notes j = .ok (all,j') ∧
   (∀ s q, (s,q) ∈ all.keys ↔ s ∈ kinds ∧ q ∈ kinds ∧ Has s ∧ Has q) ∧
   ∀ t x, all.get? (t,t) = some x → ∃ w, Qualifies u t x w ∧
    ∀ x' w', Qualifies u t x' w' → ¬w < w') ∧
 ((∃ s ∈ kinds, ∃ q ∈ kinds, s ≠ q ∧ ¬(Has s ∧ Has q)) →
  examples u.limits kinds u.sources u.queries u.preds u.notes j = .error .missingKey) := by
 intro Has
 obtain ⟨own,best,hown,hget,hhas,hbest⟩ := ownExamples_best h kinds
 have hone : ∀ t ∈ kinds, own.get? (t,t) = best t := fun t ht => by rw [hget,if_pos ⟨rfl,ht⟩]
 refine ⟨fun hall => ?_,fun ⟨s,hs,q,hq,hne,hlack⟩ => ?_⟩
 · have : Inhabited (Example Float) := ⟨⟨.empty false,.empty false,0,none⟩⟩
   choose! x hx using fun t => (hhas t).2
   have hboth : ∀ p ∈ crossed kinds, p.1 ∈ kinds ∧ p.2 ∈ kinds ∧ Has p.1 ∧ Has p.2 := by
    rintro ⟨s,q⟩ hp
    obtain ⟨hs,hq,hne⟩ := mem_crossed.1 hp
    exact ⟨hs,hq,hall s hs q hq hne.symm⟩
   have hdraw : ∀ t, Has t → (x t).source ∈ u.sources ∧ (x t).query ∈ u.queries := by
    intro t ht
    obtain ⟨w,hw,_⟩ := hbest t _ (hx t ht)
    obtain ⟨i,m,_,_,hs,hq,_⟩ := hw.drawn
    exact ⟨mem_of_getElem? hs,mem_of_getElem? hq⟩
   obtain ⟨rows,j',hkey,hrun⟩ := examples_answered (x := x) hown hj
    (fun p hp => by
     obtain ⟨hs,hq,hps,hpq⟩ := hboth p hp
     exact ⟨(hone _ hs).trans (hx _ hps),(hone _ hq).trans (hx _ hpq)⟩)
    fun p hp => ⟨(hdraw _ (hboth p hp).2.2.1).1,(hdraw _ (hboth p hp).2.2.2).2⟩
   refine ⟨own.putAll rows,j',hrun,fun s q => ?_,fun t y hy => ?_⟩
   · rw [mem_keys_putAll,hkey,mem_crossed,← isSome_get?_iff,hget]
     by_cases hsq : s = q
     · subst hsq
       by_cases hs : s ∈ kinds
       · simp [hs,Option.isSome_iff_exists,hhas,Has]
       · simp [hs]
     · simp only [hsq,false_and,if_false,Option.isSome_none,Bool.false_eq_true,false_or]
       exact ⟨fun ⟨hs,hq,_⟩ => ⟨hs,hq,hall s hs q hq hsq⟩,fun ⟨hs,hq,_⟩ => ⟨hs,hq,Ne.symm hsq⟩⟩
   · rw [get?_putAll_of_not_mem own (by rw [hkey,mem_crossed]; simp),hget] at hy
     split at hy
     · exact hbest t y hy
     · cases hy
 · have hnone : ∀ t ∈ kinds, ¬Has t → own.get? (t,t) = none := fun t ht hno =>
    (hone t ht).trans (Option.eq_none_iff_forall_ne_some.2 fun x hx => hno ((hhas t).1 ⟨x,hx⟩))
   exact examples_lacking hown (mem_crossed.2 ⟨hs,hq,Ne.symm hne⟩)
    ((not_and_or.1 hlack).imp (hnone s hs) (hnone q hq))

def adapterNotes : Notes := ⟨[("source_type",.str "ADAPTER"),("pattern_type",.str "ADAPTER")]⟩

theorem proxy_hides_adapter : ∃ s, (form fork 3 false).2 = .ok s ∧
 examples ⟨-1,-1⟩ ["ADAPTER","PROXY"] [s.tree] [s.tree] [0.5] [adapterNotes]
  (.prepared [0.5,0.5,0.5,0.5]) = .error .missingKey := by
 obtain ⟨s,hs,hne⟩ := formBy_nonempty fork_sound fork_anchored (by decide)
  (by decide : (1 : Int) ≤ 3)
 have hsou : ∀ g ∈ [s.tree], Normalised "A" g := by
  simpa using normalised_of_form fork_sound rfl fork_anchored (by decide) (by decide) hs hne
 have h : Submitted "A" ⟨⟨-1,-1⟩,[s.tree],[s.tree],[0.5],[adapterNotes]⟩ :=
  ⟨hsou,hsou,⟨rfl,rfl,rfl⟩,fun m hm =>
   ⟨"ADAPTER","ADAPTER",by rw [mem_singleton.1 hm]; exact ⟨rfl,rfl⟩⟩⟩
 have hj : Answers (.prepared [0.5,0.5,0.5,0.5]) [s.tree] [s.tree] 4 :=
  fun ss qs _ _ hsame hle => ⟨_,_,rfl,by rw [length_take]; simp; omega⟩
 refine ⟨s,hs,(examples_shown_iff h ["ADAPTER","PROXY"] hj).2
  ⟨"ADAPTER",by simp,"PROXY",by simp,by decide,?_⟩⟩
 rintro ⟨_,x,w,hx⟩
 obtain ⟨i,m,_,hm,_,_,_,htype,_⟩ := hx.drawn
 rw [mem_singleton.1 (mem_of_getElem? hm)] at htype
 exact absurd htype (by simp [adapterNotes,get?])

end MotifMatch.Evaluation
