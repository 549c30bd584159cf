import MotifMatch.Proofs.Inventions
import MotifMatch.Proofs.Markings

namespace MotifMatch.Listing
open Table
variable {g : Graph}

lemma weight_addEdge (h : ∀ e ∈ g.edges, e.attrs.get? "weight" = none) (u v : NodeId) (l : Int) :
 ∀ e ∈ (g.addEdge u v (labelled l)).edges, e.attrs.get? "weight" = none := by
 have hlab : (labelled l).get? "weight" = none := by
  simp [labelled,ofList,putAll,get?_put]
  rfl
 have hput : ∀ a : Attrs, a.get? "weight" = none → (a.putAll (labelled l).entries).get? "weight" =
  none := fun a ha =>
  (get?_putAll_of_not_mem a ((get?_eq_none_iff _ _).1 hlab)).trans ha
 exact Graph.attrs_addEdge h hlab hput u v

lemma Contents.weight_graph (c : Contents) (directed : Bool) :
 ∀ e ∈ (c.graph directed).edges, e.attrs.get? "weight" = none := by
 have hall : ∀ (xs : List (Int × Int × Int)) (g : Graph),
  (∀ e ∈ g.edges, e.attrs.get? "weight" = none) →
  ∀ e ∈ (xs.foldl (fun g x => g.addEdge (.num x.1) (.num x.2.1) (labelled x.2.2)) g).edges,
   e.attrs.get? "weight" = none := by
  intro xs
  induction xs with
  | nil => exact fun _ h => h
  | cons x xs ih => exact fun g h => ih _ (weight_addEdge h _ _ _)
 refine hall c.edges _ ?_
 have hnone := (Graph.foldl_addNode_frame (g :=
  .empty directed) (c.nodes.map fun x => (.num x.1,labelled x.2))).1
 rw [List.foldl_map] at hnone
 intro e he
 rw [hnone] at he
 cases he

end MotifMatch.Listing

namespace MotifMatch.Preparation
open List MotifMatch.Graph Run Int MotifMatch.Path NodeId Text
open Corpus
open Listing (admits admitted entries_admitted mem_within rows survey pairs_numbered)
section
variable {q : Graph × List NodeId} {qs : List (Graph × List NodeId)} {foreign : Bool} {limit a : Int}

def raised (directed : Bool) (q : Graph × List NodeId) : Graph :=
 (q.1.contents (placeIn q.2) q.2).upwards.graph directed

lemma copies_raised (directed : Bool) (hs : Listable q.1) (hper : q.2.Perm q.1.ids) :
 (raised directed q).Copies (q.1.facing directed (placeIn q.2)) fun n => .num (placeIn q.2 n) :=
 hs.numbered.copies_facing hs.sound hs.single hs.undirected
  (fun _ hm _ _ => placeIn_inj (hper.mem_iff.2 hm))
  (hper.nodup_iff.2 hs.sound.ids) (fun _ => hper.mem_iff) directed

lemma natural_of_copies {h g : Graph} {order : List NodeId}
 (hc : h.Copies g fun n => .num (placeIn order n)) : h.Natural := by
 intro n hn
 obtain ⟨m,_,rfl⟩ := (hc.ids n).1 hn
 exact ⟨order.idxOf m,rfl⟩

lemma targetOf_pairs {k : Nat} (hk : qs[k]? = some q) (hadm : admits limit k) :
 targetOf (anchorValue (some a)) (some (pairsValue (admitted limit (queryPairs foreign) qs)))
  (.int k) =
  anchorImage ((queryPairs foreign q).map fun p => (.int p.1,.int p.2)) a := by
 simp only [targetOf,anchorValue,wholeOf,get?_pairsValue,Listing.get?_admitted _ hk hadm,
  Option.map_some,
  pairsOf_list,bind,Except.bind]
 rfl

lemma queryPairs_part (q : Graph × List NodeId) :
 queryPairs false q = q.2.map fun n => (placeIn q.2 n,idNumber n) := by
 have hall : q.2.filter (paired false q.1) = q.2 := filter_eq_self.2 fun _ _ => rfl
 rw [queryPairs,hall]

lemma anchorImage_place (hs : Listable q.1) (hper : q.2.Perm q.1.ids) (ha : .num a ∈ q.1.ids) :
 anchorImage ((queryPairs false q).map fun p => (.int p.1,.int p.2)) a =
  .ok (placeIn q.2 (.num a)) := by
 rw [queryPairs_part]
 refine anchorImage_eq ?_ fun p hp hpa => ?_
 · exact mem_map_of_mem (hper.mem_iff.2 ha)
 · obtain ⟨n,hn,rfl⟩ := mem_map.1 hp
   rw [hs.idNumber_inj n (hper.mem_iff.1 hn) _ ha hpa]

lemma marked_parts (directed : Bool) (hqs : ∀ q ∈ qs, Listable q.1 ∧ q.2.Perm q.1.ids ∧
 .num a ∈ q.1.ids) (limit : Int) :
 marked (some a) (some (admitted limit (queryPairs false) qs))
  (admitted limit (raised directed) qs) =
  .ok (admitted limit (fun q => (raised directed q).marked (.num (placeIn q.2 (.num a))))
   qs).entries := by
 have hmark : ∀ q ∈ qs, markGraph (placeIn q.2 (.num a)) (raised directed q) =
  ((raised directed q).marked (.num (placeIn q.2 (.num a))),.ok ()) := by
  intro q hq
  obtain ⟨hs,hper,ha⟩ := hqs q hq
  have hcop := copies_raised directed hs hper
  rw [← ids_facing directed (placeIn q.2)] at ha
  exact markGraph_of_mem (natural_of_copies hcop) ((hcop.ids _).2 ⟨_,ha,rfl⟩)
 rw [marked_eq (fun x => placeIn x.1.2 (.num a)) (entries_admitted limit (raised directed) qs),
  entries_admitted]
 · refine congrArg Except.ok (map_congr_left fun x hx => ?_)
   rw [hmark x.1 (mem_of_getElem? (mem_within.1 hx).1)]
 · intro x hx
   obtain ⟨hk,hadm⟩ := mem_within.1 hx
   have hq := mem_of_getElem? hk
   obtain ⟨hs,hper,ha⟩ := hqs x.1 hq
   exact ⟨(targetOf_pairs hk hadm).trans (anchorImage_place hs hper ha),by rw [hmark x.1 hq]⟩

lemma marked_foreign (directed : Bool) (hqs : ∀ q ∈ qs, Listable q.1 ∧ q.2.Perm q.1.ids ∧
 q.1.ids ≠ []) (foreign : Bool)
 (a limit : Int) : ∃ out,
  marked (some a) (some (admitted limit (queryPairs foreign) qs))
   (admitted limit (raised directed) qs) = .ok out := by
 choose target htar using fun q : Graph × List NodeId => anchorImage_ok (queryPairs foreign q) a
 refine ⟨_,marked_eq (fun x => target x.1) (entries_admitted limit (raised directed) qs)
  fun x hx => ?_⟩
 obtain ⟨hk,hadm⟩ := mem_within.1 hx
 obtain ⟨hs,hper,hne⟩ := hqs x.1 (mem_of_getElem? hk)
 have hcop := copies_raised directed hs hper
 have hnod : (raised directed x.1).ids ≠ [] := by
  rw [← ids_facing directed (placeIn x.1.2)] at hne
  obtain ⟨n,hn⟩ := exists_mem_of_ne_nil _ hne
  exact ne_nil_of_mem ((hcop.ids _).2 ⟨n,hn,rfl⟩)
 obtain ⟨g',hg'⟩ := markGraph_ok (natural_of_copies hcop) hnod (Listing.Contents.weight_graph _ _)
  (target x.1)
 exact ⟨(targetOf_pairs hk hadm).trans (htar x.1),by rw [hg']⟩

end

variable {σ σ' : Session} {folder : String} {d : List String}
 {es : List (String × MotifMatch.Entry)} {i a limit : Int}
 {g : Graph} {qs ns : List (Graph × List NodeId)}

def Holds (σ : Session) (folder : String) (i : Int) (name : String) (rs : List (List String)) :
 Prop :=
 Opens σ (folder ++ "/" ++ toString i ++ "/" ++ name) rs

lemma holds_child (hne : folder ≠ "") (hlea : σ.files.resolve folder = .ok d)
 (hfol : σ.files.find (d ++ [toString i]) = .ok (.folder es)) {name : String}
 {rs : List (List String)}
 (hnam : Path.FileName name) (hrows : ∀ r ∈ rs, Listing.Tidy r)
 (hfile : (Entry.folder es).child? name = some (.text (ended (rs.map Listing.rowText)))) :
 Holds σ folder i name rs := by
 have hsou : folder ++ "/" ++ toString i ≠ "" := by
  intro hemp
  have hlist := congrArg String.toList hemp
  simp at hlist
 exact opens_child hfol (Entry.resolve_append hsou
  (Entry.resolve_append hne hlea (fileName_int i)) hnam)
  (namesFolder_append _ hnam) hrows hfile

structure Stored (σ : Session) (folder : String) (i a : Int) (g : Graph)
 (qs ns : List (Graph × List NodeId)) : Prop where
 source : Holds σ folder i "source.lg" (sourceRows i a g)
 parts : Holds σ folder i "iso_subgraphs.lg" (rowsFor false (shuffledRows false 0 qs))
 partPairs : Holds σ folder i "iso_subgraphs_mapping.lg" (rowsFor true (shuffledRows false 0 qs))
 others : Holds σ folder i "noniso_subgraphs.lg" (rowsFor false (shuffledRows true 0 ns))
 otherPairs : Holds σ folder i "noniso_subgraphs_mapping.lg" (rowsFor true (shuffledRows true 0 ns))

lemma stored_of_written {names : List (Int × Int)} (hne : folder ≠ "")
 (hlea : σ.files.resolve folder = .ok d)
 (hfol : σ.files.find (d ++ [toString i]) = .ok (.folder es)) (hwri : Written es i a g names)
 (hpar : Filed es "iso_subgraphs" false qs) (hoth : Filed es "noniso_subgraphs" true ns) :
 Stored σ folder i a g qs ns where
 source := holds_child hne hlea hfol fileName_source (tidy_sourceRows i a g) hwri.source
 parts := holds_child hne hlea hfol queryFiles_iso.listing
  (tidy_shuffledRows false false qs) hpar.listing
 partPairs := holds_child hne hlea hfol queryFiles_iso.mapping
  (tidy_shuffledRows true false qs) hpar.mapping
 others := holds_child hne hlea hfol queryFiles_nonIso.listing
  (tidy_shuffledRows false true ns) hoth.listing
 otherPairs := holds_child hne hlea hfol queryFiles_nonIso.mapping
  (tidy_shuffledRows true true ns) hoth.mapping

def raisedSource (directed : Bool) (g : Graph) : Graph :=
 (g.contents idNumber g.ids).upwards.graph directed

lemma copies_raisedSource (directed : Bool) (hg : Listable g) :
 (raisedSource directed g).Copies (g.facing directed idNumber) id := by
 refine (hg.numbered.copies_facing hg.sound hg.single hg.undirected hg.idNumber_inj hg.sound.ids
  (fun _ => Iff.rfl)
  directed).congr fun n hn => ?_
 rw [ids_facing] at hn
 exact (hg.numbered.id_eq hn).symm

lemma size_ne_zero {h g : Graph} {f : NodeId → NodeId} (hc : h.Copies g f) (hne : g.ids ≠ []) :
 h.size ≠ 0 := by
 obtain ⟨n,hn⟩ := exists_mem_of_ne_nil _ hne
 have hpos : 0 < h.ids.length := length_pos_of_mem ((hc.ids _).2 ⟨n,hn,rfl⟩)
 have hlen : h.ids.length = h.size := length_map _
 omega

lemma survey_source (directed : Bool) (hg : Listable g) (hne : g.ids ≠ []) (hi : i ≠ -1)
 {text : String}
 (htext : rows text = sourceRows i a g) : survey directed (-1) text =
  .ok (Listing.Survey.note ⟨.empty,.empty,.empty,some a⟩ (i,raisedSource directed g)) := by
 rw [survey,htext]
 rw [← ids_facing directed idNumber] at hne
 exact Listing.surveyRows_single hi (size_ne_zero (copies_raisedSource directed hg) hne) a

lemma survey_queries (directed : Bool) (hqs : ∀ q ∈ qs, Listable q.1 ∧ q.2.Perm q.1.ids ∧
 q.1.ids ≠ []) {foreign : Bool}
 {text : String} (htext : rows text = rowsFor false (shuffledRows foreign 0 qs)) (limit : Int) :
 ∃ s, survey directed limit text = .ok s ∧ s.graphs = admitted limit (raised directed) qs := by
 rw [rowsFor_shuffledRows_false] at htext
 refine Listing.survey_numbered htext fun q hq => ?_
 obtain ⟨hs,hper,hne⟩ := hqs q hq
 rw [← ids_facing directed (placeIn q.2)] at hne
 exact size_ne_zero (copies_raised directed hs hper) hne

lemma Stored.ends_load (h : Stored σ folder i a g qs ns) {w v : Value} {directed : Bool}
 (hw : σ.settings.get "directed" = .ok w)
 (hdir : w.truthy = directed) (hi : i ≠ -1) (htext : v.text = toString i) (hwho : wholeOf v = .ok i)
 (hg : Listable g) (hnat : g.Natural) (ha : .num a ∈ g.ids)
 (hqs : ∀ q ∈ qs, Listable q.1 ∧ q.2.Perm q.1.ids ∧ .num a ∈ q.1.ids)
 (hns : ∀ q ∈ ns, Listable q.1 ∧ q.2.Perm q.1.ids ∧ q.1.ids ≠ []) (limit : Int) :
 ∃ b, Ends (load folder v limit) σ (.ok b) σ ∧ b.source = (raisedSource directed g).marked (.num a) ∧
  b.isoPairs = admitted limit (queryPairs false) qs ∧
  b.iso = (admitted limit (fun q => (raised directed q).marked (.num (placeIn q.2 (.num a))))
   qs).entries := by
 have hcop := copies_raisedSource directed hg
 have hids := ids_facing directed idNumber g
 have hmark : markGraph a (raisedSource directed g) =
  ((raisedSource directed g).marked (.num a),.ok ()) := by
  refine markGraph_of_mem (fun n hn => ?_) ((hcop.ids _).2 ⟨_,hids ▸ ha,rfl⟩)
  obtain ⟨m,hm,rfl⟩ := (hcop.ids n).1 hn
  exact hnat m (hids ▸ hm)
 have hpart : ∀ q ∈ qs, Listable q.1 ∧ q.2.Perm q.1.ids ∧ q.1.ids ≠ [] := fun q hq =>
  ⟨(hqs q hq).1,(hqs q hq).2.1,ne_nil_of_mem (hqs q hq).2.2⟩
 obtain ⟨text,hread,hrows⟩ := h.source
 obtain ⟨text₁,hrea₁,hrow₁⟩ := h.partPairs
 obtain ⟨text₂,hrea₂,hrow₂⟩ := h.otherPairs
 obtain ⟨text₃,hrea₃,hrow₃⟩ := h.parts
 obtain ⟨text₄,hrea₄,hrow₄⟩ := h.others
 have hall := survey_source directed hg (ne_nil_of_mem ha) hi hrows
 obtain ⟨parts,hpar,hgra⟩ := survey_queries directed hpart hrow₃ limit
 obtain ⟨others,hoth,hgra'⟩ := survey_queries directed hns hrow₄ limit
 rw [rowsFor_shuffledRows_true] at hrow₁ hrow₂
 have hpai := pairs_numbered hrow₁ limit
 have hpai' := pairs_numbered hrow₂ limit
 have hmar := marked_parts directed hqs limit
 obtain ⟨out,hout⟩ := marked_foreign directed hns true a limit
 have hflag := ends_flag hw
 rw [hdir] at hflag
 rw [← hgra] at hmar
 rw [← hgra'] at hout
 refine ⟨{
   source := (raisedSource directed g).marked (.num a)
   iso := (admitted limit (fun q => (raised directed q).marked
    (.num (placeIn q.2 (.num a)))) qs).entries
   non := out
   isoPairs := admitted limit (queryPairs false) qs
   nonPairs := admitted limit (queryPairs true) ns
   size := (raisedSource directed g).size
   isoSizes := parts.sizes
   nonSizes := others.sizes
   degree := Float.ofNat (2 * (raisedSource directed g).edges.length) / Float.ofNat
    (raisedSource directed g).size
   isoDegrees := parts.degrees
   nonDegrees := others.degrees },?_,rfl,rfl,rfl⟩
 rw [load]
 simp only [htext]
 refine hflag.bind (hread.bind ((ends_ofExcept_ok hall).bind
  ((ends_ofExcept_ok (marked_single hmark i)).bind
  ((ends_ofExcept_ok hwho).bind ((ends_ofExcept_ok (found_put _ _ _)).bind ?_)))))
 refine hrea₁.bind ((ends_ofExcept_ok hpai).bind (hrea₂.bind ((ends_ofExcept_ok hpai').bind ?_)))
 refine hrea₃.bind ((ends_ofExcept_ok hpar).bind ((ends_ofExcept_ok hmar).bind ?_))
 refine hrea₄.bind ((ends_ofExcept_ok hoth).bind ((ends_ofExcept_ok hout).bind ?_))
 exact (ends_ofExcept_ok (found_put _ _ _)).bind
  ((ends_ofExcept_ok (found_put _ _ _)).bind (ends_pure _ σ))

variable {s : Graph} {q : Graph × List NodeId} {iso nonIso : List Graph}
 {names : List (Int × Int)} {v : Value}

structure Part (s g : Graph) : Prop where
 ids : ∀ n ∈ s.ids, n ∈ g.ids
 label : ∀ n ∈ s.ids, s.nodeAttr? n "label" = g.nodeAttr? n "label"
 hasEdge : ∀ u v, s.hasEdge u v = true → g.hasEdge u v = true

structure Anchored (g : Graph) (n : NodeId) : Prop where
 mem : n ∈ g.ids
 mark : ∀ m ∈ g.ids, g.nodeAttr? m "anchor" = some (.int (if m = n then 1 else 0))

structure Embeds (pairs : List (Int × Int)) (query part source : Graph) : Prop where
 nodup : query.ids.Nodup
 domain : (pairs.map fun p => num p.1).Perm query.ids
 range : (pairs.map fun p => num p.2).Perm part.ids
 label : ∀ p ∈ pairs, query.nodeAttr? (.num p.1) "label" = part.nodeAttr? (.num p.2) "label"
 hasEdge : ∀ p ∈ pairs, ∀ p' ∈ pairs, query.hasEdge (.num p.1) (.num p'.1) =
  part.hasEdge (.num p.2) (.num p'.2)
 within : Part part source
 anchor : ∃ p ∈ pairs, Anchored query (.num p.1) ∧ Anchored source (.num p.2)

lemma anchored_of_restores {h : Graph} (hr : h.Restores g id (.num a)) (ha : .num a ∈ g.ids) :
 Anchored h (.num a) where
 mem := (hr.ids _).2 ⟨_,ha,rfl⟩
 mark := by
  intro m hm
  obtain ⟨n,hn,rfl⟩ := (hr.ids m).1 hm
  exact hr.anchor n hn

lemma restores_source (hg : Listable g) (a : Int) :
 ((raisedSource false g).marked (.num a)).Restores g id (.num a) :=
 ((copies_raisedSource false hg).marked (.num a)).restores fun _ _ => Iff.rfl

lemma Part.of_restores {h : Graph} (hp : Part s g) (hr : h.Restores g id (.num a)) (hs : s.Sound) :
 Part s h where
 ids n hn := (hr.ids n).2 ⟨n,hp.ids n hn,rfl⟩
 label n hn := (hp.label n hn).trans (hr.label n (hp.ids n hn)).symm
 hasEdge u v huv := by
  obtain ⟨hu,hv⟩ := hs.of_hasEdge huv
  exact (hr.hasEdge u (hp.ids u hu) v (hp.ids v hv)).trans (hp.hasEdge u v huv)

lemma num_placeIn_eq_iff (hper : q.2.Perm q.1.ids) (a : NodeId) :
 ∀ n ∈ q.1.ids, num (placeIn q.2 n) = .num (placeIn q.2 a) ↔ n = a := fun _ hn =>
 ⟨fun heq => placeIn_inj (hper.mem_iff.2 hn) (num.inj heq),fun heq => by rw [heq]⟩

lemma restores_query (hs : Listable q.1) (hper : q.2.Perm q.1.ids) (a : Int) :
 ((raised false q).marked (.num (placeIn q.2 (.num a)))).Restores q.1
  (fun n => .num (placeIn q.2 n)) (.num a) :=
 ((copies_raised false hs hper).marked _).restores (num_placeIn_eq_iff hper (.num a))

lemma embeds_query (hs : Listable q.1) (hper : q.2.Perm q.1.ids) (ha : .num a ∈ q.1.ids)
 {source : Graph}
 (hpart : Part q.1 source) (hsou : Anchored source (.num a)) :
 Embeds (queryPairs false q) ((raised false q).marked (.num (placeIn q.2 (.num a)))) q.1 source := by
 have hpai := queryPairs_part q
 have hmem : ∀ p ∈ queryPairs false q, ∃ n ∈ q.1.ids, p.1 = placeIn q.2 n ∧ .num p.2 = n := by
  intro p hp
  rw [hpai] at hp
  obtain ⟨n,hn,rfl⟩ := mem_map.1 hp
  exact ⟨n,hper.mem_iff.1 hn,rfl,(hs.numbered.id_eq (hper.mem_iff.1 hn)).symm⟩
 have hr := restores_query hs hper a
 have hmark : Anchored ((raised false q).marked (.num (placeIn q.2 (.num a))))
  (.num (placeIn q.2 (.num a))) := by
  refine ⟨(hr.ids _).2 ⟨_,ha,rfl⟩,fun m hm => ?_⟩
  obtain ⟨n,hn,rfl⟩ := (hr.ids m).1 hm
  simp only [hr.anchor n hn,num_placeIn_eq_iff hper (.num a) n hn]
 refine ⟨hr.sound.ids,?_,?_,?_,?_,hpart,?_⟩
 · rw [hpai,map_map,perm_ext_iff_of_nodup _ hr.sound.ids]
   · intro n
     rw [hr.ids,mem_map]
     simp only [hper.mem_iff,Function.comp_apply]
   · refine (nodup_map_iff_inj_on (hper.nodup_iff.2 hs.sound.ids)).2 fun m hm n _ heq => ?_
     exact placeIn_inj hm (num.inj heq)
 · rw [hpai,map_map,map_congr_left,map_id]
   · exact hper
   · exact fun n hn => (hs.numbered.id_eq (hper.mem_iff.1 hn)).symm
 · intro p hp
   obtain ⟨n,hn,hfir,rfl⟩ := hmem p hp
   rw [hfir]
   exact hr.label _ hn
 · intro p hp p' hp'
   obtain ⟨m,hm,hfir,rfl⟩ := hmem p hp
   obtain ⟨n,hn,hfir',rfl⟩ := hmem p' hp'
   rw [hfir,hfir']
   exact hr.hasEdge _ hm _ hn
 · refine ⟨(placeIn q.2 (.num a),a),?_,hmark,hsou⟩
   rw [hpai]
   exact mem_map.2 ⟨.num a,hper.mem_iff.2 ha,rfl⟩

lemma reads_number (hv : v = .int i ∨ v = .str (toString i)) :
 v.text = toString i ∧ wholeOf v = .ok i := by
 rcases hv with rfl | rfl
 · exact ⟨Value.text_int i,rfl⟩
 · exact ⟨rfl,by rw [wholeOf,int?_toString]⟩

lemma ends_write_load (hroom : Room σ folder (toString i) d) (hne : folder ≠ "") {directed : Bool}
 (hdir : ∃ w, σ.settings.get "directed" = .ok w ∧ w.truthy = directed) (hi : i ≠ -1)
 (hv : v = .int i ∨ v = .str (toString i)) (hg : Listable g) (hnat : g.Natural) (ha : .num a ∈ g.ids)
 (hiso : ∀ s ∈ iso, Listable s ∧ .num a ∈ s.ids) (hnon : ∀ s ∈ nonIso, Foreign s ∧ s.ids ≠ [])
 (names : List (Int × Int))
 (limit : Int) : ∃ σ' b,
  Ends (write folder ⟨.int i,g,names.map fun x => (.int x.1,.int x.2),.int a,iso,nonIso⟩) σ
   (.ok ()) σ' ∧
  Ends (load folder v limit) σ' (.ok b) σ' ∧ b.source = (raisedSource directed g).marked (.num a) ∧
  b.isoPairs = admitted limit (queryPairs false) (shuffled σ.streams.shuffling iso) ∧
  b.iso = (admitted limit (fun q => (raised directed q).marked (.num (placeIn q.2 (.num a))))
   (shuffled σ.streams.shuffling iso)).entries := by
 obtain ⟨r,σ',es,hends,hshe,hwri,hfile,hok⟩ :=
  hroom.ends_write_shuffled hg (fun s hs => (hiso s hs).1) names a nonIso
 obtain ⟨rfl,ns,hord',hfile'⟩ := hok fun s hs => (hnon s hs).1
 have hord := ordered_shuffled σ.streams.shuffling iso
 have hsto := stored_of_written hne (hshe.keeps.resolve hroom.leads) hshe.found hwri hfile hfile'
 obtain ⟨w,hw,htru⟩ := hdir
 obtain ⟨htext,hwho⟩ := reads_number hv
 obtain ⟨b,hload,hb⟩ := hsto.ends_load (hshe.settings ▸ hw) htru hi htext hwho hg hnat ha
  (fun q hq => ⟨(hiso q.1 (hord.mem hq)).1,hord.perm q hq,(hiso q.1 (hord.mem hq)).2⟩)
  (fun q hq => ⟨(hnon q.1 (hord'.mem hq)).1.listable,hord'.perm q hq,
   (hnon q.1 (hord'.mem hq)).2⟩) limit
 exact ⟨σ',b,hends,hload,hb⟩

theorem loaded_embeds (hroom : Room σ folder (toString i) d) (hne : folder ≠ "")
 (hdir : ∃ w, σ.settings.get "directed" = .ok w ∧ w.truthy = false) (hi : i ≠ -1)
 (hv : v = .int i ∨ v = .str (toString i))
 (hg : Listable g) (hnat : g.Natural) (ha : .num a ∈ g.ids) (hiso : ∀ s ∈ iso, Listable s ∧
  Part s g ∧ .num a ∈ s.ids)
 (hnon : ∀ s ∈ nonIso, Foreign s ∧ s.ids ≠ []) (names : List (Int × Int)) (limit : Int) :
 ∃ σ' b, Ends (write folder ⟨.int i,g,names.map fun x => (.int x.1,.int x.2),.int a,iso,nonIso⟩) σ
  (.ok ()) σ' ∧
  Ends (load folder v limit) σ' (.ok b) σ' ∧ b.source.Restores g id (.num a) ∧
  b.iso.map Prod.fst = ((List.range iso.length).filter (admits limit)).map ofNat ∧
  b.isoPairs.keys = ((List.range iso.length).filter (admits limit)).map ofNat ∧
  ∀ k s, iso[k]? = some s → admits limit k = true →
   ∃ query pairs, (ofNat k,query) ∈ b.iso ∧ b.isoPairs.get? k = some pairs ∧
    Embeds pairs query s b.source := by
 obtain ⟨σ',b,hends,hload,hb,hpair,hgra⟩ := ends_write_load hroom hne hdir hi hv hg hnat ha
  (fun s hs => ⟨(hiso s hs).1,(hiso s hs).2.2⟩) hnon names limit
 have hord := ordered_shuffled σ.streams.shuffling iso
 have hres : b.source.Restores g id (.num a) := hb ▸ restores_source hg a
 refine ⟨σ',b,hends,hload,hres,?_,?_,fun k s hk hadm => ?_⟩
 · rw [hgra,← hord.length]
   exact Listing.keys_admitted limit _ _
 · rw [hpair,← hord.length,Listing.keys_admitted]
 · rw [← hord.graphs,getElem?_map,Option.map_eq_some_iff] at hk
   obtain ⟨q,hq,rfl⟩ := hk
   have hmem := mem_of_getElem? hq
   obtain ⟨hlist,hpart,hanc⟩ := hiso q.1 (hord.mem hmem)
   refine ⟨_,_,hgra ▸ Listing.mem_admitted.2 ⟨k,q,hq,hadm,rfl⟩,
    hpair ▸ Listing.get?_admitted _ hq hadm,?_⟩
   exact embeds_query hlist (hord.perm q hmem) hanc (hpart.of_restores hres hlist.sound)
    (anchored_of_restores hres ha)

theorem twigTip_embeds : ∃ σ' b, Ends (write (ofProject "data/datasets//CPG_train")
 ⟨.int 0,twig,twigNames.map fun x => (.int x.1,.int x.2),.int 7,[twigTip,twig],[graft 3 8]⟩)
  emptyCorpus (.ok ()) σ' ∧
 Ends (load (ofProject "data/datasets//CPG_train") (.str "0") 1) σ' (.ok b) σ' ∧
 b.source.Restores twig id (.num 7) ∧ b.iso.map Prod.fst = [0] ∧ b.isoPairs.keys = [0] ∧
 ∃ query pairs, (0,query) ∈ b.iso ∧ b.isoPairs.get? 0 = some pairs ∧
  Embeds pairs query twigTip b.source := by
 have hroom : Room emptyCorpus (ofProject "data/datasets//CPG_train") (toString (0 : Int))
  ["glema","data","datasets","CPG_train"] := ⟨emptyCorpus_leads,⟨[],rfl⟩,fun e he => by cases he⟩
 have hne : ofProject "data/datasets//CPG_train" ≠ "" := by
  intro hemp
  obtain ⟨ps,hps,hlead⟩ := Entry.resolve_eq_ok.1 (hemp ▸ emptyCorpus_leads)
  obtain rfl : [] = ps := Option.some.inj (hps ▸ rfl)
  cases hlead
 have hnat : twig.Natural := by
  intro n hn
  have hids : n = .num 3 ∨ n = .num 7 ∨ n = .num 5 := by simpa [twig,ids,Table.keys] using hn
  rcases hids with rfl | rfl | rfl
  · exact ⟨3,rfl⟩
  · exact ⟨7,rfl⟩
  · exact ⟨5,rfl⟩
 have hpart : ∀ s ∈ [twigTip,twig], Listable s ∧ Part s twig ∧ .num 7 ∈ s.ids := by
  intro s hs
  rcases mem_pair.1 hs with rfl | rfl
  · refine ⟨twigTip_listable,⟨by decide,?_,?_⟩,by decide⟩
    · intro n hn
      have hids : n = .num 7 ∨ n = .num 3 := by simpa [twigTip,ids,Table.keys] using hn
      rcases hids with rfl | rfl <;> rfl
    · intro u v huv
      obtain ⟨e,he,hjoin⟩ := hasEdge_iff.1 huv
      obtain rfl := mem_singleton.1 he
      rcases joins_iff.1 hjoin with ⟨rfl,rfl⟩ | ⟨_,rfl,rfl⟩ <;> decide
  · exact ⟨twig_listable,⟨fun _ hn => hn,fun _ _ => rfl,fun _ _ h => h⟩,by decide⟩
 have hoth : ∀ s ∈ [graft 3 8], Foreign s ∧ s.ids ≠ [] := by
  intro s hs
  obtain rfl := mem_singleton.1 hs
  exact ⟨graft_foreign (by decide),by decide⟩
 obtain ⟨σ',b,hwri,hload,hsou,hkey,hkey',hall⟩ := loaded_embeds hroom hne ⟨_,rfl,rfl⟩ (by decide)
  (.inr rfl) twig_listable hnat (by decide) hpart hoth twigNames 1
 exact ⟨σ',b,hwri,hload,hsou,hkey,hkey',hall 0 twigTip rfl rfl⟩

def Follows (pairs : List (Int × Int)) (query source : Graph) : Prop :=
 ∀ p ∈ pairs, ∀ p' ∈ pairs, query.hasEdge (.num p.1) (.num p'.1) = true →
  source.hasEdge (.num p.2) (.num p'.2) = true

def Ascends (q : Graph × List NodeId) : Prop :=
 ∀ m ∈ q.2, ∀ n ∈ q.2, q.1.hasEdge m n = true → placeIn q.2 m < placeIn q.2 n →
  idNumber m < idNumber n

variable {source : Graph}

lemma hasEdge_facing (hg : Listable g) (index : NodeId → Int)
 (hinj : ∀ m ∈ g.ids, ∀ n ∈ g.ids, index m = index n → m = n) (m n : NodeId) :
 (g.facing true index).hasEdge m n = (decide (index m ≤ index n) && g.hasEdge m n) :=
 hasEdge_oriented hg.sound hg.undirected hinj m n

lemma hasEdge_source (hg : Listable g) (a : Int) {m n : NodeId} (hm : m ∈ g.ids) (hn : n ∈ g.ids) :
 ((raisedSource true g).marked (.num a)).hasEdge m n =
  (decide (idNumber m ≤ idNumber n) && g.hasEdge m n) := by
 have hcop := ((copies_raisedSource true hg).marked (.num a)).toCopies
 rw [← ids_facing true idNumber g] at hm hn
 rw [← hasEdge_facing hg idNumber hg.idNumber_inj,← hcop.hasEdge m hm n hn]
 rfl

lemma hasEdge_query (hs : Listable q.1) (hper : q.2.Perm q.1.ids) (a : Int) {m n : NodeId}
 (hm : m ∈ q.2) (hn : n ∈ q.2) :
 ((raised true q).marked (.num a)).hasEdge (.num (placeIn q.2 m)) (.num (placeIn q.2 n)) =
  (decide (placeIn q.2 m ≤ placeIn q.2 n) && q.1.hasEdge m n) := by
 have hcop := ((copies_raised true hs hper).marked (.num a)).toCopies
 rw [hper.mem_iff,← ids_facing true (placeIn q.2)] at hm hn
 rw [← hasEdge_facing hs (placeIn q.2) fun _ hm _ _ =>
  placeIn_inj (hper.mem_iff.2 hm),← hcop.hasEdge m hm n hn]

lemma follows_iff_ascends (hs : Listable q.1) (hper : q.2.Perm q.1.ids) (hpart : Part q.1 g)
 (hg : Listable g) (a b : Int) :
 Follows (queryPairs false q) ((raised true q).marked (.num b))
  ((raisedSource true g).marked (.num a)) ↔ Ascends q := by
 have hid : ∀ n ∈ q.2, .num (idNumber n) = n :=
  fun n hn => (hs.numbered.id_eq (hper.mem_iff.1 hn)).symm
 have hmem : ∀ n ∈ q.2, n ∈ g.ids := fun n hn => hpart.ids n (hper.mem_iff.1 hn)
 have hedge : Follows (queryPairs false q) ((raised true q).marked (.num b))
  ((raisedSource true g).marked (.num a)) ↔
  ∀ m ∈ q.2, ∀ n ∈ q.2, placeIn q.2 m ≤ placeIn q.2 n ∧ q.1.hasEdge m n →
   idNumber m ≤ idNumber n ∧ g.hasEdge m n := by
  simp only [Follows,queryPairs_part,forall_mem_map]
  refine forall₂_congr fun m hm => forall₂_congr fun n hn => ?_
  rw [hid m hm,hid n hn,hasEdge_query hs hper b hm hn,hasEdge_source hg a (hmem m hm) (hmem n hn),
   Bool.and_eq_true,
   Bool.and_eq_true,decide_eq_true_iff,decide_eq_true_iff]
 rw [hedge]
 constructor
 · intro h m hm n hn hmn hlt
   obtain ⟨hle,_⟩ := h m hm n hn ⟨le_of_lt hlt,hmn⟩
   refine lt_of_le_of_ne hle fun heq => ?_
   obtain rfl := hs.idNumber_inj m (hper.mem_iff.1 hm) n (hper.mem_iff.1 hn) heq
   exact lt_irrefl _ hlt
 · rintro h m hm n hn ⟨hle,hmn⟩
   refine ⟨?_,hpart.hasEdge m n hmn⟩
   rcases lt_or_eq_of_le hle with hlt | heq
   · exact le_of_lt (h m hm n hn hmn hlt)
   · obtain rfl := placeIn_inj hm heq
     exact le_refl _

theorem loaded_follows_iff (hroom : Room σ folder (toString i) d) (hne : folder ≠ "")
 (hdir : ∃ w, σ.settings.get "directed" = .ok w ∧ w.truthy = true) (hi : i ≠ -1)
 (hv : v = .int i ∨ v = .str (toString i))
 (hg : Listable g) (hnat : g.Natural) (ha : .num a ∈ g.ids) (hiso : ∀ s ∈ iso, Listable s ∧
  Part s g ∧ .num a ∈ s.ids)
 (hnon : ∀ s ∈ nonIso, Foreign s ∧ s.ids ≠ []) (names : List (Int × Int)) (limit : Int) :
 ∃ σ' b, Ends (write folder ⟨.int i,g,names.map fun x => (.int x.1,.int x.2),.int a,iso,nonIso⟩) σ
  (.ok ()) σ' ∧
  Ends (load folder v limit) σ' (.ok b) σ' ∧
  (∀ m ∈ g.ids, ∀ n ∈ g.ids, b.source.hasEdge m n =
   (decide (idNumber m ≤ idNumber n) && g.hasEdge m n)) ∧
  b.iso.map Prod.fst = ((List.range iso.length).filter (admits limit)).map ofNat ∧
  ∀ k q, (shuffled σ.streams.shuffling iso)[k]? = some q → admits limit k = true →
   ∃ query, (ofNat k,query) ∈ b.iso ∧ b.isoPairs.get? k = some (queryPairs false q) ∧
    (∀ m ∈ q.2, ∀ n ∈ q.2, query.hasEdge (.num (placeIn q.2 m)) (.num (placeIn q.2 n)) =
     (decide (placeIn q.2 m ≤ placeIn q.2 n) && q.1.hasEdge m n)) ∧
    (Follows (queryPairs false q) query b.source ↔ Ascends q) := by
 obtain ⟨σ',b,hends,hload,hb,hpair,hgra⟩ := ends_write_load hroom hne hdir hi hv hg hnat ha
  (fun s hs => ⟨(hiso s hs).1,(hiso s hs).2.2⟩) hnon names limit
 have hord := ordered_shuffled σ.streams.shuffling iso
 refine ⟨σ',b,hends,hload,fun m hm n hn => ?_,?_,fun k q hq hadm => ?_⟩
 · rw [hb,hasEdge_source hg a hm hn]
 · rw [hgra,← hord.length]
   exact Listing.keys_admitted limit _ _
 · have hmem := mem_of_getElem? hq
   obtain ⟨hlist,hpart,_⟩ := hiso q.1 (hord.mem hmem)
   have hper := hord.perm q hmem
   refine ⟨_,hgra ▸ Listing.mem_admitted.2 ⟨k,q,hq,hadm,rfl⟩,
    hpair ▸ Listing.get?_admitted _ hq hadm,?_,?_⟩
   · exact fun m hm n hn => hasEdge_query hlist hper _ hm hn
   · rw [hb]
     exact follows_iff_ascends hlist hper hpart hg a _

def directedCorpus : Session := { emptyCorpus with settings := emptyCorpus.settings.set "directed" (.bool true) }

theorem fence_turned : ∃ σ' b query, Ends (write (ofProject "data/datasets//CPG_train")
 ⟨.int 0,fence,[],.int 2,[fence],[]⟩) directedCorpus (.ok ()) σ' ∧
 Ends (load (ofProject "data/datasets//CPG_train") (.int 0) (-1)) σ' (.ok b) σ' ∧
 b.isoPairs.get? 0 = some [(0,2),(1,1),(2,0),(3,3)] ∧ (0,query) ∈ b.iso ∧
 query.hasEdge (.num 0) (.num 1) = true ∧ b.source.hasEdge (.num 2) (.num 1) = false := by
 have hroom : Room directedCorpus (ofProject "data/datasets//CPG_train") (toString (0 : Int))
  ["glema","data","datasets","CPG_train"] := ⟨emptyCorpus_leads,⟨[],rfl⟩,fun e he => by cases he⟩
 have hnat : fence.Natural := by
  intro n hn
  obtain ⟨k,_,rfl⟩ : ∃ k ∈ [0,1,2,3], n =
   .num ((k : Nat) : Int) := by simpa [fence,ids,Table.keys] using hn
  exact ⟨k,rfl⟩
 have hiso : ∀ s ∈ [fence], Listable s ∧ Part s fence ∧ .num 2 ∈ s.ids := by
  intro s hs
  obtain rfl := mem_singleton.1 hs
  exact ⟨fence_listable,⟨fun _ hn => hn,fun _ _ => rfl,fun _ _ h => h⟩,by decide⟩
 obtain ⟨σ',b,hwri,hload,hsou,_,hque⟩ := loaded_follows_iff hroom (by decide +kernel) ⟨_,rfl,rfl⟩ (by decide)
  (.inl rfl) fence_listable hnat (by decide) hiso (forall_mem_nil _) [] (-1)
 obtain ⟨query,hmem,hpair,hedge,_⟩ :=
  hque 0 (fence,[.num 2,.num 1,.num 0,.num 3]) (by rfl) (by decide)
 refine ⟨σ',b,query,hwri,hload,hpair,hmem,?_,?_⟩
 · exact (hedge (.num 2) (by decide) (.num 1) (by decide)).trans (by decide)
 · rw [hsou _ (by decide) _ (by decide)]
   decide

end MotifMatch.Preparation
