import Mathlib.Data.List.Permutation
import MotifMatch.Proofs.Companions

namespace MotifMatch.Import
open List MotifMatch.Graph Table Run Entry Prod Except MotifMatch.Path Catalog Gml Text Bool Annotations Note Member
open Option (isSome_iff_exists toList_none toList_some bind_some)
variable {c : Collection} {notes : List Note} {number : Int} {anchor : NodeId}
 {es : List (NodeId × Attrs)}
 {keep : NodeId → Bool} {p : Progress}

lemma toList_nameIn (i : Int) (n : NodeId) :
 (nameIn i n).toList = (toString i).toList ++ ':' :: ':' :: n.text.toList := by
 simp only [nameIn,String.toList_append,append_assoc]
 rfl

lemma nameIn_inj {i j : Int} {m n : NodeId} (h : nameIn i m = nameIn j n) :
 i = j ∧ m.text = n.text := by
 have hdig : ∀ k : Int, ∀ x ∈ (toString k).toList, (x != ':') := by
  intro k x hx
  rcases mem_toString_int hx with rfl | hdi
  · decide
  · rw [bne_iff_ne]
    rintro rfl
    exact absurd hdi (by decide)
 have hlist := congrArg String.toList h
 rw [toList_nameIn,toList_nameIn] at hlist
 have htake := congrArg (takeWhile (· != ':')) hlist
 rw [takeWhile_append_of_pos (hdig i),takeWhile_append_of_pos (hdig j)] at htake
 have hij : i = j := toString_inj (String.toList_inj.1 (by simpa using htake))
 subst hij
 exact ⟨rfl,String.toList_inj.1 (by simpa using hlist)⟩

variable {e : NodeId × Attrs}

def hasLabel (e : NodeId × Attrs) : Bool := (recordLabel? e.2).isSome

lemma recordLabel?_unlabelled (he : hasLabel e = false) : recordLabel? e.2 = none := by
 rwa [hasLabel,Option.isSome_eq_false_iff,Option.isNone_iff_eq_none] at he

lemma addNode_unlabelled (he : hasLabel e = false) (c : Collection) :
 addNode number anchor c e = c := by
 rw [addNode,recordLabel?_unlabelled he]

lemma noteFor_unlabelled (he : hasLabel e = false) : noteFor number e = none := by
 rw [noteFor,recordLabel?_unlabelled he,Option.map_none]

lemma noteFor_of_label {n : NodeId} {a : Attrs} {label : Member} (h : recordLabel? a = some label) :
 noteFor number (n,a) = some (noteOf number label a) := by
 rw [noteFor,h,Option.map_some]

lemma exists_noteFor (he : hasLabel e) : ∃ x, noteFor number e = some x ∧ x.number = number := by
 obtain ⟨label,hlab⟩ := isSome_iff_exists.1 he
 exact ⟨noteOf number label e.2,noteFor_of_label hlab,rfl⟩

lemma names_addNode (he : hasLabel e) (c : Collection) :
 (addNode number anchor c e).names = c.names.put (nameIn number e.1) (c.graph.size + 1) := by
 obtain ⟨label,hlab⟩ := isSome_iff_exists.1 he
 simp only [addNode,hlab]

lemma hasEdge_addNode (c : Collection) (u v : NodeId) :
 (addNode number anchor c e).graph.hasEdge u v = c.graph.hasEdge u v := by
 rw [addNode]
 split <;> rfl

lemma append_filterMap_cons (notes : List Note) (e : NodeId × Attrs) (es : List (NodeId × Attrs)) :
 notes ++ (e :: es).filterMap (noteFor number) = notes ++ (noteFor number e).toList ++
  es.filterMap (noteFor number) := by
 rw [filterMap_cons,append_assoc]
 cases noteFor number e <;> rfl

structure Entered (c : Collection) (notes : List Note) : Prop extends Tallied c notes where
 named : ∀ s k, c.names.get? s = some k → ∃ (i : Nat) (x : Note) (n : NodeId),
  k = i + 1 ∧ notes[i]? = some x ∧ s = nameIn x.number n
 once : ∀ s s' k, c.names.get? s = some k → c.names.get? s' = some k → s = s'
 keysOnce : c.names.keys.Nodup
 within : ∀ u v, c.graph.hasEdge u v = true → ∃ (i j : Nat) (x y : Note), u = .num (i + 1) ∧
  v = .num (j + 1) ∧
  notes[i]? = some x ∧ notes[j]? = some y ∧ x.number = y.number

def Onto (c : Collection) (notes : List Note) : Prop :=
 ∀ i < notes.length, ∃ s, c.names.get? s = some ((i : Int) + 1)

lemma getElem?_concat_of_some {α : Type} {xs : List α} {i : Nat} {x : α} (h : xs[i]? = some x)
 (ys : List α) :
 (xs ++ ys)[i]? = some x :=
 (getElem?_append_left (lt_length h)).trans h

lemma entered_start : Entered .start [] where
 toTallied := tallied_start
 named _ _ h := by cases h
 once _ _ _ h := by cases h
 keysOnce := nodup_nil
 within _ _ h := by cases h

lemma Entered.addNode (h : Entered c notes) (number : Int) (anchor : NodeId) (e : NodeId × Attrs) :
 Entered (addNode number anchor c e) (notes ++ (noteFor number e).toList) := by
 have htal := h.toTallied.addNode number anchor e
 cases he : hasLabel e with
 | false =>
  rw [addNode_unlabelled he,noteFor_unlabelled he,toList_none,append_nil]
  exact h
 | true =>
  obtain ⟨y,hnote,hnum⟩ : ∃ x, noteFor number e = some x ∧ x.number = number := exists_noteFor he
  have hnam : (Import.addNode number anchor c e).names = c.names.put (nameIn number e.1)
   (notes.length + 1) := by
   rw [← h.size]
   exact names_addNode he c
  -- the new place lies behind every place that a name leads to so far
  have hold : ∀ s k, c.names.get? s = some k → k ≠ notes.length + 1 := by
   intro s k hk heq
   obtain ⟨i,x,_,hki,hx,_⟩ := h.named s k hk
   have := lt_length hx
   omega
  rw [hnote,toList_some] at htal ⊢
  refine ⟨htal,?_,?_,hnam ▸ nodup_put h.keysOnce _ _,?_⟩
  · intro s k hk
    rw [hnam,get?_put] at hk
    split at hk
    · next hs => exact ⟨notes.length,y,e.1,(Option.some.inj hk).symm,by simp,hnum ▸ hs⟩
    · obtain ⟨i,x,n,hki,hx,hs⟩ := h.named s k hk
      exact ⟨i,x,n,hki,getElem?_concat_of_some hx _,hs⟩
  · intro s s' k hs hs'
    rw [hnam,get?_put] at hs hs'
    split at hs <;> split at hs'
    · next h₁ h₂ => rw [h₁,h₂]
    · exact absurd (Option.some.inj hs).symm (hold s' k hs')
    · exact absurd (Option.some.inj hs').symm (hold s k hs)
    · exact h.once s s' k hs hs'
  · intro u v huv
    rw [hasEdge_addNode] at huv
    obtain ⟨i,j,x,y,hu,hv,hx,hy,hxy⟩ := h.within u v huv
    exact ⟨i,j,x,y,hu,hv,getElem?_concat_of_some hx _,getElem?_concat_of_some hy _,hxy⟩

lemma Entered.addEdge (h : Entered c notes) (number : Int) (e : Edge) :
 Entered (addEdge number c e) notes := by
 have htal := h.toTallied.addEdge number e
 rw [Import.addEdge] at htal ⊢
 split
 · next u v hu hv =>
   rw [hu,hv] at htal
   refine ⟨htal,h.named,h.once,h.keysOnce,fun a b hab => ?_⟩
   have hlis : c.graph.addEdge (.num u) (.num v) .empty =
    c.graph.addListed ⟨.num u,.num v,.none,.empty⟩ := by
    rw [addListed,h.single]
    rfl
   simp only [hlis,hasEdge_addListed,or_eq_true] at hab
   rcases hab with hab | hab
   · exact h.within a b hab
   · -- both ends were looked up under the number of the graph that the edge comes from
     have hends : .num u = a ∧ .num v = b := by
      rcases joins_iff.1 hab with hab | ⟨hd,_⟩
      · exact hab
      · rw [h.directed] at hd
        cases hd
     obtain ⟨i,x,n,hi,hx,hs⟩ := h.named _ u hu
     obtain ⟨j,y,m,hj,hy,ht⟩ := h.named _ v hv
     exact ⟨i,j,x,y,hi ▸ hends.1.symm,hj ▸ hends.2.symm,hx,hy,
      (nameIn_inj hs).1.symm.trans (nameIn_inj ht).1⟩
 · exact h

lemma Entered.addNodes (h : Entered c notes) (number : Int) (anchor : NodeId)
 (es : List (NodeId × Attrs)) :
 Entered (es.foldl (Import.addNode number anchor) c) (notes ++ es.filterMap (noteFor number)) := by
 induction es generalizing c notes with
 | nil => simpa using h
 | cons e es ih =>
  rw [foldl_cons,append_filterMap_cons]
  exact ih (h.addNode number anchor e)

lemma Entered.addEdges (h : Entered c notes) (number : Int) (es : List Edge) :
 Entered (es.foldl (Import.addEdge number) c) notes := by
 induction es generalizing c with
 | nil => exact h
 | cons e es ih => exact ih (h.addEdge number e)

def PrintApart (es : List (NodeId × Attrs)) : Prop :=
 ((es.filter hasLabel).map fun e => e.1.text).Nodup

instance (es : List (NodeId × Attrs)) : Decidable (PrintApart es) :=
 inferInstanceAs (Decidable (Nodup _))

lemma PrintApart.mono {es fs : List (NodeId × Attrs)} (h : PrintApart es)
 (hsub : (fs.filter hasLabel).Sublist (es.filter hasLabel)) : PrintApart fs :=
 (hsub.map _).nodup h

lemma Onto.addNode (h : Entered c notes) (hon : Onto c notes) {e : NodeId × Attrs}
 (hnew : hasLabel e → nameIn number e.1 ∉ c.names.keys) :
 Onto (addNode number anchor c e) (notes ++ (noteFor number e).toList) := by
 cases he : hasLabel e with
 | false =>
  rw [addNode_unlabelled he,noteFor_unlabelled he,toList_none,append_nil]
  exact hon
 | true =>
  obtain ⟨x,hx,_⟩ := exists_noteFor he
  intro i hi
  rw [hx,toList_some,length_append,length_singleton] at hi
  rw [names_addNode he,h.size]
  rcases Nat.lt_or_eq_of_le (Nat.lt_succ_iff.1 hi) with hlt | rfl
  · obtain ⟨s,hs⟩ := hon i hlt
    have hkey : s ∈ c.names.keys := (isSome_get?_iff _ _).1 (by rw [hs]; rfl)
    have hoth : s ≠ nameIn number e.1 := fun heq => hnew he (heq ▸ hkey)
    exact ⟨s,by rw [get?_put,if_neg hoth,hs]⟩
  · exact ⟨_,get?_put_self _ _ _⟩

lemma Onto.addNodes (h : Entered c notes) (hon : Onto c notes)
 (hnew : ∀ e ∈ es, hasLabel e → nameIn number e.1 ∉ c.names.keys)
 (hpri : PrintApart es) : Onto (es.foldl (Import.addNode number anchor) c)
  (notes ++ es.filterMap (noteFor number)) := by
 induction es generalizing c notes with
 | nil => simpa using hon
 | cons e es ih =>
  rw [foldl_cons,append_filterMap_cons]
  refine ih (h.addNode number anchor e) (hon.addNode h (hnew e (by simp))) ?_ ?_
  · intro f hf hlab hmem
    cases he : hasLabel e with
    | false =>
     rw [addNode_unlabelled he] at hmem
     exact hnew f (by simp [hf]) hlab hmem
    | true =>
     rw [names_addNode he,mem_keys_put] at hmem
     rcases hmem with hmem | hmem
     · exact hnew f (by simp [hf]) hlab hmem
     · rw [PrintApart,filter_cons_of_pos he,map_cons,nodup_cons] at hpri
       refine hpri.1 (mem_map.2 ⟨f,mem_filter.2 ⟨hf,hlab⟩,?_⟩)
       exact (nameIn_inj hmem).2
  · exact hpri.mono ((sublist_cons_self e es).filter _)

lemma addEdges_frame (number : Int) (es : List Edge) (c : Collection) :
 (es.foldl (addEdge number) c).names = c.names ∧ (es.foldl (addEdge number) c).anchors =
  c.anchors := by
 induction es generalizing c with
 | nil => exact ⟨rfl,rfl⟩
 | cons e es ih =>
  rw [foldl_cons,(ih _).1,(ih _).2,addEdge]
  split <;> exact ⟨rfl,rfl⟩

lemma anchors_addNodes (h : ∀ e ∈ es, hasLabel e → e.1 ≠ anchor) (c : Collection) :
 (es.foldl (addNode number anchor) c).anchors = c.anchors := by
 induction es generalizing c with
 | nil => rfl
 | cons e es ih =>
  rw [foldl_cons,ih fun f hf => h f (by simp [hf])]
  cases he : hasLabel e with
  | false => rw [addNode_unlabelled he]
  | true =>
   obtain ⟨label,hlab⟩ := isSome_iff_exists.1 he
   simp only [addNode,hlab]
   rw [if_neg (by simpa using h e (by simp) he)]

lemma anchors_add (h : Entered c notes) (number : Int) {part : Graph}
 {pre post : List (NodeId × Attrs)} {a : Attrs}
 {label : Member} (hes : part.nodes.entries = pre ++ (anchor,a) :: post)
 (hlab : recordLabel? a = some label)
 (hpre : ∀ e ∈ pre, hasLabel e → e.1 ≠ anchor) (hpost : ∀ e ∈ post, hasLabel e → e.1 ≠ anchor) :
 (c.add part anchor number).anchors =
  c.anchors.put number ((notes ++ pre.filterMap (noteFor number)).length + 1) := by
 have hsiz := (h.addNodes number anchor pre).size
 rw [Collection.add,(addEdges_frame number part.edgeList _).2,hes,foldl_append,foldl_cons,
  anchors_addNodes hpost]
 simp only [addNode,hlab,beq_self_eq_true,if_true,hsiz,anchors_addNodes hpre]

def numbersBelow (next : Int) : List Int :=
 (range (next - 1).toNat).map fun (i : Nat) => (i : Int) + 1

lemma mem_numbersBelow {k next : Int} : k ∈ numbersBelow next ↔ 1 ≤ k ∧ k < next := by
 rw [numbersBelow,mem_map]
 constructor
 · rintro ⟨i,hi,rfl⟩
   rw [mem_range] at hi
   omega
 · intro hk
   exact ⟨(k - 1).toNat,mem_range.2 (by omega),by omega⟩

lemma numbersBelow_succ {next : Int} (h : 1 ≤ next) :
 numbersBelow (next + 1) = numbersBelow next ++ [next] := by
 rw [numbersBelow,show (next + 1 - 1).toNat = (next - 1).toNat + 1 by omega,range_succ,map_append,
  map_singleton,show (((next - 1).toNat)) + 1 = next by omega,numbersBelow]

structure Booked (apart : Prop) (c : Collection) (notes : List Note) (next : Int) :
 Prop extends Entered c notes where
 first : 1 ≤ next
 onto : apart → Onto c notes
 numbers : ∀ x ∈ notes, 1 ≤ x.number ∧ x.number < next
 anchorNumbers : c.anchors.keys = numbersBelow next
 anchorRecords : ∀ k i, c.anchors.get? k = some i → ∃ (j : Nat) (x : Note),
  i = j + 1 ∧ notes[j]? = some x ∧ x.number = k ∧ x.label = recordIndex

variable {apart : Prop} {next : Int} {part : Graph} {pre post : List (NodeId × Attrs)} {a : Attrs}
 {label : Member}

lemma booked_start (apart : Prop) : Booked apart .start [] 1 where
 toEntered := entered_start
 first := le_refl 1
 onto := fun _ i hi => by cases hi
 numbers := by simp
 anchorNumbers := rfl
 anchorRecords _ _ h := by cases h

lemma Booked.fresh (h : Booked apart c notes next) (n : NodeId) : nameIn next n ∉ c.names.keys := by
 intro hmem
 obtain ⟨k,hk⟩ := isSome_iff_exists.1 ((isSome_get?_iff _ _).2 hmem)
 obtain ⟨i,x,m,_,hx,hs⟩ := h.named _ k hk
 have := (h.numbers x (mem_of_getElem? hx)).2
 have := (nameIn_inj hs).1
 omega

lemma numbers_noteFor {x : Note} (hx : x ∈ es.filterMap (noteFor number)) :
 x.number = number := by
 obtain ⟨e,_,he⟩ := mem_filterMap.1 hx
 obtain ⟨label,_,rfl⟩ := Option.map_eq_some_iff.1 he
 rfl

lemma Booked.add (h : Booked apart c notes next)
 (hes : part.nodes.entries = pre ++ (anchor,a) :: post)
 (hlab : recordLabel? a = some label) (hre : nodeLabel.position label = recordIndex)
 (hpre : ∀ e ∈ pre, hasLabel e → e.1 ≠ anchor) (hpost : ∀ e ∈ post, hasLabel e → e.1 ≠ anchor)
 (hpri : apart → PrintApart part.nodes.entries) :
 Booked apart (c.add part anchor next) (notes ++ part.nodes.entries.filterMap (noteFor next))
  (next + 1) := by
 have hnod := h.toEntered.addNodes next anchor part.nodes.entries
 have hpla := anchors_add h.toEntered next hes hlab hpre hpost
 have hfir := h.first
 refine ⟨hnod.addEdges next part.edgeList,by omega,fun ha i hi => ?_,?_,?_,?_⟩
 · rw [Collection.add,(addEdges_frame next part.edgeList _).1]
   exact (h.onto ha).addNodes h.toEntered (fun e _ _ => h.fresh e.1) (hpri ha) i hi
 · intro x hx
   rcases mem_append.1 hx with hx | hx
   · have := h.numbers x hx
     omega
   · rw [numbers_noteFor hx]
     omega
 · have hnot : c.anchors.contains next = false := by
    rw [Bool.eq_false_iff,Ne,Table.contains_iff,h.anchorNumbers,mem_numbersBelow]
    omega
   rw [hpla,keys_put,hnot,h.anchorNumbers,numbersBelow_succ hfir]
   rfl
 · intro k i hi
   rw [hpla,get?_put] at hi
   split at hi
   · next hk =>
     refine ⟨_,noteOf next label a,(Option.some.inj hi).symm,?_,hk.symm,by rw [noteOf,hre]⟩
     rw [hes,filterMap_append,filterMap_cons_some (noteFor_of_label hlab),← append_assoc]
     simp
   · obtain ⟨j,x,hij,hx,hnum,hrec⟩ := h.anchorRecords k i hi
     exact ⟨j,x,hij,getElem?_concat_of_some hx _,hnum,hrec⟩

variable {g : Graph}

structure Within (g : Graph) (keep : NodeId → Bool) (part : Graph) : Prop where
 nodes : ∃ bare : List (NodeId × Attrs), part.nodes.entries =
  g.nodes.entries.filter (fun e => keep e.1) ++ bare ∧
  ∀ e ∈ bare, e.2 = .empty

lemma touch_grows (g : Graph) (n : NodeId) : ∃ bare,
 (g.touch n).nodes.entries = g.nodes.entries ++ bare ∧ ∀ e ∈ bare, e.2 = .empty := by
 unfold touch
 split
 · exact ⟨[],by simp,by simp⟩
 · exact ⟨[(n,.empty)],rfl,by simp⟩

lemma nodes_addListed (g : Graph) (e : Edge) :
 (g.addListed e).nodes = ((g.touch e.source).touch e.target).nodes := by
 rw [addListed]
 split
 · rw [addKeyed,nodes_place]
 · rw [Graph.addEdge]
   dsimp only
   split
   · rfl
   · rw [nodes_place]

lemma Within.touch (h : Within g keep part) (n : NodeId) : Within g keep (part.touch n) := by
 obtain ⟨bare,hbare,hemp⟩ := h.nodes
 obtain ⟨more,hmore,hmorE⟩ := touch_grows part n
 refine ⟨bare ++ more,by rw [hmore,hbare,append_assoc],?_⟩
 intro e he
 rcases mem_append.1 he with he | he
 · exact hemp e he
 · exact hmorE e he

lemma Within.addListed (h : Within g keep part) (es : List Edge) :
 Within g keep (es.foldl addListed part) := by
 induction es generalizing part with
 | nil => exact h
 | cons e es ih =>
  refine ih ⟨?_⟩
  rw [nodes_addListed]
  exact ((h.touch e.source).touch e.target).nodes

def Surrounds (g : Graph) (anchor : NodeId) (part : Graph) : Prop :=
 ∃ keep, Within g keep part ∧ (part.size = 0 ∨ keep anchor = true)

lemma ball_surrounds (h : anchor ∈ g.ids) (radius : Int) :
 ∃ ball, g.ball anchor radius = .ok ball ∧ Surrounds g anchor ball := by
 refine ⟨(g.induced (g.ballNodes g.around anchor radius).contains).relisted,?_,
  (g.ballNodes g.around anchor radius).contains,⟨[],by rw [append_nil]; rfl,by simp⟩,?_⟩
 · rw [ball,ballBy,if_pos (hasNode_iff.2 h)]
 · unfold ballNodes
   split
   · left
     simp [Graph.size,Table.size,relisted,induced,Table.filter]
   · simp

lemma resize_surrounds (h : anchor ∈ g.ids) (unfit : Nat → Bool) (step : Int) (n : Nat)
 (s : Resizing)
 (hs : Surrounds g anchor s.ball) : ∃ r, resize g anchor unfit step n s = .ok r ∧
  Surrounds g anchor r.2.ball := by
 induction n generalizing s with
 | zero => exact ⟨_,rfl,hs⟩
 | succ n ih =>
  rw [resize]
  split
  · obtain ⟨ball,hball,hin⟩ := ball_surrounds h (s.radius + step)
    simp only [hball]
    exact ih _ hin
  · exact ⟨_,rfl,hs⟩

lemma Surrounds.recast (h : Surrounds g anchor part) :
 Surrounds g anchor (part.recast true false) := by
 obtain ⟨keep,hin,hsiz⟩ := h
 have hbare : Within g keep { part with directed := true, multi := false, edges := [] } :=
  ⟨hin.nodes⟩
 refine ⟨keep,hbare.addListed _,?_⟩
 refine hsiz.imp_left fun hsiz => ?_
 -- without nodes there is no edge to enter anew
 have hids : part.ids = [] := by
  rw [ids,Table.keys,map_eq_nil_iff,← length_eq_zero_iff]
  exact hsiz
 rw [Graph.recast,hids]
 exact hsiz

lemma neighbourhood_surrounds (h : anchor ∈ g.ids) (radius least most : Int) :
 ∃ part, neighbourhood g anchor radius least most = .ok part ∧ Surrounds g anchor part := by
 obtain ⟨ball,hball,hin⟩ := ball_surrounds h radius
 obtain ⟨⟨tries,s⟩,hs,hin⟩ := resize_surrounds h (fun n => most < n) (-1) maxTries ⟨radius,ball⟩ hin
 obtain ⟨⟨_,t⟩,ht,hin⟩ := resize_surrounds h (fun n => (n : Int) < least) 1 tries s hin
 rw [neighbourhood]
 simp only [hball,hs,ht,bind,Except.bind]
 split
 · exact ⟨_,rfl,fun _ => false,⟨[],by simp [Graph.empty,Table.empty],by simp⟩,.inl rfl⟩
 · exact ⟨_,rfl,hin.recast⟩

section

lemma hasLabel_of_empty {f : NodeId × Attrs} (h : f.2 = .empty) : hasLabel f = false := by
 rw [hasLabel,h]
 decide

lemma labelled_sublist (h : Within g keep part) :
 (part.nodes.entries.filter hasLabel).Sublist (g.nodes.entries.filter hasLabel) := by
 obtain ⟨bare,hbare,hemp⟩ := h.nodes
 have hnone : bare.filter hasLabel = [] :=
  filter_eq_nil_iff.2 fun f hf => by rw [hasLabel_of_empty (hemp f hf)]; exact false_ne_true
 rw [hbare,filter_append,hnone,append_nil]
 exact filter_sublist.filter _

lemma Surrounds.split (h : Surrounds g e.1 part) (hg : g.ids.Nodup) (he : e ∈ g.nodes.entries)
 (hsiz : part.size ≠ 0) :
 ∃ pre post, part.nodes.entries = pre ++ e :: post ∧ ∀ f ∈ pre ++ post, hasLabel f → f.1 ≠ e.1 := by
 obtain ⟨keep,hin,hkeep⟩ := h
 obtain ⟨bare,hbare,hemp⟩ := hin.nodes
 have hmem : e ∈ g.nodes.entries.filter (fun f => keep f.1) :=
  mem_filter.2 ⟨he,hkeep.resolve_left hsiz⟩
 have honce : ((g.nodes.entries.filter fun f => keep f.1).map fst).Nodup :=
  (filter_sublist.map _).nodup hg
 obtain ⟨pre,post,hspl⟩ := append_of_mem hmem
 refine ⟨pre,post ++ bare,by rw [hbare,hspl,append_assoc,cons_append],?_⟩
 intro f hf hlab heq
 rw [hspl,map_append,map_cons,nodup_middle,nodup_cons,← map_append] at honce
 rcases mem_append.1 (append_assoc pre post bare ▸ hf) with hf | hf
 · exact honce.1 (heq ▸ mem_map_of_mem hf)
 · rw [hasLabel_of_empty (hemp f hf)] at hlab
   cases hlab

lemma isRecord_iff {a : Attrs} : isRecord a ↔
 ∃ label, recordLabel? a = some label ∧ Catalog.nodeLabel.position label = Catalog.recordIndex := by
 simp [isRecord,Option.any_eq_true]

def Ongoing (apart : Prop) (p : Progress) : Prop :=
 ∃ notes next, p.next = some next ∧ Booked apart p.collected notes next

variable (hg : g.ids.Nodup) (hpri : apart → PrintApart g.nodes.entries)
include hg hpri

lemma collectAround_keeps (he : e ∈ g.nodes.entries) (radius least most : Int)
 (h : Ongoing apart p) :
 ∃ p', collectAround g radius least most p e = .ok p' ∧ Ongoing apart p' := by
 obtain ⟨c,_⟩ := p
 obtain ⟨notes,next,rfl,h⟩ := h
 cases hrec : isRecord e.2 with
 | false => exact ⟨_,by simp [collectAround,hrec,pure,Except.pure],notes,next,rfl,h⟩
 | true =>
  obtain ⟨part,hpart,hin⟩ := neighbourhood_surrounds (mem_map_of_mem he) radius least most
  by_cases hsiz : part.size = 0
  · exact ⟨_,by simp [collectAround,hrec,hpart,hsiz,bind,Except.bind,pure,Except.pure],notes,next,rfl,h⟩
  · refine ⟨⟨c.add part e.1 next,some (next + 1)⟩,
     by simp [collectAround,hrec,hpart,hsiz,bind,Except.bind,pure,Except.pure],
     notes ++ part.nodes.entries.filterMap (noteFor next),next + 1,rfl,?_⟩
    obtain ⟨label,hlab,hpos⟩ := isRecord_iff.1 hrec
    obtain ⟨pre,post,hes,hoth⟩ := hin.split hg he hsiz
    obtain ⟨keep,hwit,_⟩ := hin
    exact h.add hes hlab hpos (fun f hf => hoth f (mem_append_left _ hf))
     (fun f hf => hoth f (mem_append_right _ hf))
     fun ha => (hpri ha).mono (labelled_sublist hwit)

lemma collectAll_keeps (radius least most : Int) (hes : ∀ e ∈ es, e ∈ g.nodes.entries)
 (h : Ongoing apart p) :
 ∃ p', es.foldlM (collectAround g radius least most) p = .ok p' ∧ Ongoing apart p' := by
 induction es generalizing p with
 | nil => exact ⟨p,rfl,h⟩
 | cons e es ih =>
  obtain ⟨p₁,hste,h₁⟩ := collectAround_keeps hg hpri (hes e (by simp)) radius least most h
  rw [foldlM_cons,hste]
  exact ih (fun f hf => hes f (by simp [hf])) h₁

end

variable {s s' : Gml.Reading} {block : Value}

lemma nodup_addEdge (h : g.ids.Nodup) (u v : NodeId) (a : Attrs) : (g.addEdge u v a).ids.Nodup := by
 have hends := nodup_touch (nodup_touch h u) v
 rw [Graph.addEdge]
 dsimp only
 split
 · exact hends
 · rwa [ids,nodes_place]

lemma nodup_addKeyed (h : g.ids.Nodup) (u v : NodeId) (key : Value) (a : Attrs) :
 (g.addKeyed u v key a).ids.Nodup := by
 rw [addKeyed,ids,nodes_place]
 exact nodup_touch (nodup_touch h u) v

lemma nodup_readNode (h : s.graph.ids.Nodup) (hs : Gml.addNode s block = .ok s') :
 s'.graph.ids.Nodup := by
 rw [Gml.addNode] at hs
 obtain ⟨⟨found,attrs⟩,_,hs⟩ := bind_eq_ok hs
 dsimp only at hs
 split at hs
 · split at hs
   · cases hs
   · split at hs
     · cases hs
     · obtain ⟨name,_,hs⟩ := bind_eq_ok hs
       split at hs
       · cases hs
       · cases hs
         exact nodup_put h _ _
 · cases hs

lemma nodup_readEdge (h : s.graph.ids.Nodup) (hs : Gml.addEdge s block = .ok s') :
 s'.graph.ids.Nodup := by
 rw [Gml.addEdge] at hs
 obtain ⟨⟨found,attrs⟩,_,hs⟩ := bind_eq_ok hs
 obtain ⟨ends,_,hs⟩ := bind_eq_ok hs
 dsimp only at hs
 split at hs
 · split at hs
   · split at hs
     · cases hs
     · cases hs
       exact nodup_addEdge h _ _ _
   · split at hs
     · cases hs
       exact nodup_addEdge h _ _ _
     · split at hs
       · cases hs
       · cases hs
         exact nodup_addKeyed h _ _ _ _
 · cases hs

lemma nodup_of_parse {text : String} (h : Gml.parse text = .ok g) : g.ids.Nodup := by
 rw [Gml.parse] at h
 obtain ⟨ts,_,h⟩ := bind_eq_ok h
 obtain ⟨⟨kvs,rest⟩,_,h⟩ := bind_eq_ok h
 split at h
 · split at h
   · next inner _ =>
     rw [Gml.build] at h
     obtain ⟨s,hnod,h⟩ := bind_eq_ok h
     obtain ⟨s',hedg,h⟩ := bind_eq_ok h
     cases h
     have hs : s.graph.ids.Nodup :=
      foldlM_keeps (fun _ _ _ _ => nodup_readNode) (by exact nodup_nil) hnod
     exact foldlM_keeps (fun _ _ _ _ => nodup_readEdge) hs hedg
   all_goals cases h
 · cases h

variable {σ : Session} {folder name : String} {radius least most : Int}

structure Configured (σ : Session) (folder : String) (radius least most : Int) : Prop where
 format : σ.settings.get "import_format" = .ok (.str ".gml")
 folder : σ.settings.get "import_dir" = .ok (.str folder)
 radius : σ.settings.get "import_subgraph_radius" = .ok (.int radius)
 least : σ.settings.get "import_subgraph_min" = .ok (.int least)
 most : σ.settings.get "import_subgraph_max" = .ok (.int most)

def Stores (σ : Session) (folder name : String) (g : Graph) : Prop :=
 ∃ text, σ.files.lookup (ofRoot (folder ++ name ++ ".gml")) = .ok (.text text) ∧ parse text = .ok g

lemma ends_read {path text : String} (h : σ.files.lookup path = .ok (.text text))
 (hg : parse text = .ok g) :
 Ends (read path) σ (.ok g) σ := by
 have hent := h ▸ ends_entryAt path σ
 exact hent.bind (ends_ofExcept_ok hg)

def gather (radius least most : Int) (p : Progress) (g : Graph) : Except Error Progress :=
 if g.size = 0 then .ok { p with next := none } else g.nodes.entries.foldlM
  (collectAround g radius least most) p

lemma ends_gather (hs : Configured σ folder radius least most) (hg : Stores σ folder name g)
 (p : Progress) :
 Ends (readDataset name p) σ (gather radius least most p g) σ := by
 obtain ⟨text,hfile,hpar⟩ := hg
 rw [readDataset,gather]
 refine (ends_settingText hs.format).bind ((ends_shownSetting hs.folder).bind ?_)
 refine Ends.bind (by rw [if_pos rfl]; exact ends_read hfile hpar) ?_
 split
 · exact ends_pure _ σ
 · exact (ends_settingInt hs.radius).bind
    ((ends_settingInt hs.least).bind ((ends_settingInt hs.most).bind (ends_ofExcept _ σ)))

lemma ends_readDataset (hs : Configured σ folder radius least most) (hg : Stores σ folder name g)
 (hsiz : g.size ≠ 0)
 (p : Progress) : Ends (readDataset name p) σ
  (g.nodes.entries.foldlM (collectAround g radius least most) p) σ := by
 have hend := ends_gather hs hg p
 rwa [gather,if_neg hsiz] at hend

lemma readAll_keeps (hs : Configured σ folder radius least most) {files : List (String × Graph)}
 (hfil : ∀ f ∈ files, Stores σ folder f.1 f.2 ∧ f.2.size ≠ 0)
 (hpri : apart → ∀ f ∈ files, PrintApart f.2.nodes.entries)
 (h : Ongoing apart p) :
 ∃ p', Ends (files.foldlM (fun p f => readDataset f.1 p) p) σ (.ok p') σ ∧ Ongoing apart p' := by
 induction files generalizing p with
 | nil => exact ⟨p,ends_pure p σ,h⟩
 | cons f files ih =>
  obtain ⟨hsto,hsiz⟩ := hfil f (by simp)
  obtain ⟨text,hfile,hpar⟩ := hsto
  obtain ⟨p₁,hste,h₁⟩ := collectAll_keeps (nodup_of_parse hpar)
   (fun ha => hpri ha f (by simp)) radius least most
   (fun _ he => he) h
  obtain ⟨p₂,hres,h₂⟩ := ih (fun x hx => hfil x (by simp [hx]))
   (fun ha x hx => hpri ha x (by simp [hx])) h₁
  refine ⟨p₂,?_,h₂⟩
  rw [foldlM_cons]
  exact Ends.bind (hste ▸ ends_readDataset hs ⟨text,hfile,hpar⟩ hsiz p) hres

structure Passing (apart : Prop) (c : Collection) : Prop where
 ids : c.graph.ids = (range c.graph.size).map fun (i : Nat) => .num ((i : Int) + 1)
 distinct : c.names.keys.Nodup
 placed : ∀ s k, c.names.get? s = some k → 1 ≤ k ∧ k ≤ c.graph.size
 once : ∀ s s' k, c.names.get? s = some k → c.names.get? s' = some k → s = s'
 onto : apart → ∀ k : Int, 1 ≤ k → k ≤ c.graph.size → ∃ s, c.names.get? s = some k
 within : ∀ u v, c.graph.hasEdge u v = true → ∃ k, c.graph.nodeAttr? u "graph_idx" = some (.int k) ∧
  c.graph.nodeAttr? v "graph_idx" = some (.int k)

structure Books (apart : Prop) (c : Collection) (next : Int) : Prop extends Passing apart c where
 first : 1 ≤ next
 numbers : ∀ k, (∃ n, c.graph.nodeAttr? n "graph_idx" = some k) ↔ ∃ i :
  Int, k = .int i ∧ 1 ≤ i ∧ i < next
 anchored : c.anchors.keys = numbersBelow next
 records : ∀ k i, c.anchors.get? k = some i → c.graph.nodeAttr? (.num i) "graph_idx" =
  some (.int k) ∧
  c.graph.nodeAttr? (.num i) "label" = some (.int recordIndex)

lemma Entered.passing (h : Entered c notes) (hon : apart → Onto c notes) : Passing apart c where
 ids := by rw [h.size]; exact h.ids
 distinct := h.keysOnce
 placed s k hk := by
  obtain ⟨i,x,_,hki,hx,_⟩ := h.named s k hk
  have := lt_length hx
  rw [h.size]
  omega
 once := h.once
 onto ha k hk hk' := by
  rw [h.size] at hk'
  obtain ⟨s,hs⟩ := hon ha (k - 1).toNat (by omega)
  exact ⟨s,by rw [hs,show ((k - 1).toNat) + 1 = k by omega]⟩
 within u v huv := by
  obtain ⟨i,j,x,y,rfl,rfl,hx,hy,hxy⟩ := h.within u v huv
  refine ⟨x.number,?_,?_⟩
  · rw [nodeAttr?,h.attrs? hx,bind_some,get?_number]
  · rw [nodeAttr?,h.attrs? hy,bind_some,get?_number,hxy]

lemma Booked.books (h : Booked apart c notes next) : Books apart c next where
 toPassing := h.toEntered.passing h.onto
 first := h.first
 numbers k := by
  constructor
  · rintro ⟨n,hn⟩
    obtain ⟨a,ha,hk⟩ := Option.bind_eq_some_iff.1 hn
    obtain ⟨⟨x,i⟩,hx,hxe⟩ := mem_map.1 (h.nodes ▸ mem_of_get? ha)
    obtain ⟨rfl,rfl⟩ := mk.inj hxe
    rw [get?_number] at hk
    exact ⟨x.number,(Option.some.inj hk).symm,
     h.numbers x (mem_of_getElem? (mk_mem_zipIdx_iff_getElem?.1 hx))⟩
  · rintro ⟨i,rfl,hi,hi'⟩
    have hkey : i ∈ c.anchors.keys := by
     rw [h.anchorNumbers,mem_numbersBelow]
     exact ⟨hi,hi'⟩
    obtain ⟨k,hk⟩ := isSome_iff_exists.1 ((isSome_get?_iff _ _).2 hkey)
    obtain ⟨j,x,rfl,hx,rfl,_⟩ := h.anchorRecords i k hk
    exact ⟨_,by rw [nodeAttr?,h.attrs? hx,bind_some,get?_number]⟩
 anchored := h.anchorNumbers
 records k i hi := by
  obtain ⟨j,x,rfl,hx,hnum,hlab⟩ := h.anchorRecords k i hi
  refine ⟨?_,?_⟩
  · rw [nodeAttr?,h.attrs? hx,bind_some,get?_number,hnum]
  · rw [nodeAttr?,h.attrs? hx,bind_some,get?_label,hlab]

lemma Booked.passing_nodes (h : Booked apart c notes next) (anchor : NodeId)
 (hpri : apart → PrintApart part.nodes.entries) {ns : List (NodeId × Attrs)}
 (hns : ns <+: part.nodes.entries) : Passing apart (ns.foldl (addNode next anchor) c) :=
 (h.toEntered.addNodes next anchor ns).passing fun ha =>
  (h.onto ha).addNodes h.toEntered (fun e _ _ => h.fresh e.1) ((hpri ha).mono (hns.sublist.filter _))

lemma Booked.passing_edges (h : Booked apart c notes next) (anchor : NodeId)
 (hpri : apart → PrintApart part.nodes.entries) (ls : List Edge) :
 Passing apart (ls.foldl (addEdge next) (part.nodes.entries.foldl (addNode next anchor) c)) := by
 refine ((h.toEntered.addNodes next anchor part.nodes.entries).addEdges next ls).passing
  fun ha i hi => ?_
 rw [(addEdges_frame next ls _).1]
 exact (h.onto ha).addNodes h.toEntered (fun e _ _ => h.fresh e.1) (hpri ha) i hi

theorem import_keeps_books {σ : Session} {folder : String} {radius least most : Int}
 (hs : Configured σ folder radius least most) {files : List (String × Graph)}
 (hfile : ∀ f ∈ files, Stores σ folder f.1 f.2 ∧ f.2.size ≠ 0) :
 let apart := ∀ f ∈ files, PrintApart f.2.nodes.entries
 (∀ done, done <+: files → ∃ c next,
  Ends (done.foldlM (fun p f => readDataset f.1 p) ⟨.start,some 1⟩) σ (.ok ⟨c,some next⟩) σ ∧
   Books apart c next) ∧
 ∀ done f rest es more, files = done ++ f :: rest → f.2.nodes.entries = es ++ more → ∃ p c next,
  Ends (done.foldlM (fun p f => readDataset f.1 p) ⟨.start,some 1⟩) σ (.ok p) σ ∧
  es.foldlM (collectAround f.2 radius least most) p = .ok ⟨c,some next⟩ ∧ Books apart c next ∧
  ∀ e ∈ more.head?, ∃ part, neighbourhood f.2 e.1 radius least most = .ok part ∧
   (∀ ns, ns <+: part.nodes.entries → Passing apart (ns.foldl (addNode next e.1) c)) ∧
   ∀ ls, ls <+: part.edgeList →
    Passing apart (ls.foldl (addEdge next) (part.nodes.entries.foldl (addNode next e.1) c)) := by
 intro apart
 have hrun : ∀ done, done <+: files → ∃ p,
  Ends (done.foldlM (fun p f => readDataset f.1 p) ⟨.start,some 1⟩) σ (.ok p) σ ∧ Ongoing apart p :=
   fun done hdone =>
  readAll_keeps hs (fun f hf => hfile f (hdone.subset hf)) (fun ha f hf => ha f (hdone.subset hf))
   ⟨[],1,rfl,booked_start apart⟩
 refine ⟨fun done hdone => ?_,fun done f rest es more hspl hes => ?_⟩
 · obtain ⟨⟨c,_⟩,hends,notes,next,rfl,h⟩ := hrun done hdone
   exact ⟨c,next,hends,h.books⟩
 · have hf : f ∈ files := by simp [hspl]
   obtain ⟨⟨text,_,hpar⟩,_⟩ := hfile f hf
   have hids := nodup_of_parse hpar
   obtain ⟨p,hends,hp⟩ := hrun done ⟨f :: rest,hspl.symm⟩
   have hseen : ∀ e ∈ es, e ∈ f.2.nodes.entries := fun e he => by simp [hes,he]
   obtain ⟨⟨c,_⟩,hfold,notes,next,rfl,h⟩ :=
    collectAll_keeps hids (fun ha => ha f hf) radius least most hseen hp
   refine ⟨p,c,next,hends,hfold,h.books,fun e he => ?_⟩
   have hmem : e ∈ f.2.nodes.entries := by
    rw [hes]
    exact mem_append_right _ (mem_of_mem_head? he)
   obtain ⟨part,hpart,keep,hin,_⟩ := neighbourhood_surrounds (mem_map_of_mem hmem) radius least most
   have hpri : apart → PrintApart part.nodes.entries :=
    fun ha => (ha f hf).mono (labelled_sublist hin)
   exact ⟨part,hpart,fun ns hns => h.passing_nodes e.1 hpri hns,
    fun ls _ => h.passing_edges e.1 hpri ls⟩

def shelf (text : String) : Session where
 streams := default
 settings :=
  ⟨⟨[("import_format",.str ".gml"),("import_dir",.str "in/"),("import_subgraph_radius",.int 1),
  ("import_subgraph_min",.int 1),("import_subgraph_max",.int 9)]⟩⟩
 files := .folder [("in",.folder [("a.gml",.text text)])]
 printed := #[]
 records := []

lemma configured_shelf (text : String) : Configured (shelf text) "in/" 1 1 9 := ⟨rfl,rfl,rfl,rfl,rfl⟩

lemma lookup_shelf (text : String) : (shelf text).files.lookup (ofRoot ("in/" ++ "a" ++ ".gml")) =
 .ok (.text text) := by
 have hpath : fromRoot? (ofRoot ("in/" ++ "a" ++ ".gml")) = some ["in","a.gml"] := by decide +kernel
 exact lookup_of_find (resolve_eq_ok.2 ⟨_,hpath,rfl⟩) rfl (by decide +kernel)

def pairText : String :=
 "graph [ node [ id 0 label \"A\" labels_RecordDeclaration 1 ] node [ id 1 label \"B\" labels_RecordDeclaration 1 ] ]"

theorem pair_booked : ∃ g c next, Stores (shelf pairText) "in/" "a" g ∧ g.size = 2 ∧
 Ends (readDataset "a" ⟨.start,some 1⟩) (shelf pairText) (.ok ⟨c,some next⟩) (shelf pairText) ∧
  Books True c next := by
 have hpar : (match parse pairText with
  | .ok g => g.size == 2 && decide (PrintApart g.nodes.entries)
  | .error _ => false) = true := by decide +kernel
 split at hpar
 · next g hg =>
    rw [and_eq_true,beq_iff_eq,decide_eq_true_iff] at hpar
    have hsto : Stores (shelf pairText) "in/" "a" g := ⟨pairText,lookup_shelf pairText,hg⟩
    have hfile : ∀ f ∈ [("a",g)], Stores (shelf pairText) "in/" f.1 f.2 ∧ f.2.size ≠ 0 := by
     intro f hf
     rw [mem_singleton.1 hf,hpar.1]
     exact ⟨hsto,by decide⟩
    obtain ⟨c,next,hends,hboo⟩ :=
     (import_keeps_books (configured_shelf pairText) hfile).1 _ (prefix_refl _)
    have happ : (∀ f ∈ [("a",g)], PrintApart f.2.nodes.entries) = True :=
     eq_true fun f hf => mem_singleton.1 hf ▸ hpar.2
    rw [foldlM_cons] at hends
    exact ⟨g,c,next,hsto,hpar.1,by simpa using hends,happ ▸ hboo⟩
 · cases hpar

def twinsText : String :=
 "graph [ node [ id 0 label 1 labels_RecordDeclaration 1 ] node [ id 1 label \"1\" labels_RecordDeclaration 1 ] edge [ source 0 target 1 ] ]"

theorem twins_share_name : ∃ c next, Ends (readDataset "a" ⟨.start,some 1⟩) (shelf twinsText)
 (.ok ⟨c,some next⟩)
 (shelf twinsText) ∧ .num 1 ∈ c.graph.ids ∧ ∀ s, c.names.get? s ≠ some 1 := by
 have hrun : ((parse twinsText).toOption.any fun g =>
  (g.nodes.entries.foldlM (collectAround g 1 1 9) ⟨.start,some 1⟩).toOption.any fun p =>
   g.size != 0 && p.next.isSome && p.collected.graph.ids.contains (.num 1) &&
    !p.collected.names.values.contains 1) =
  true := by decide +kernel
 cases hg : parse twinsText with
 | error e => simp [hg,Except.toOption] at hrun
 | ok g =>
  cases hfold : g.nodes.entries.foldlM (collectAround g 1 1 9) ⟨.start,some 1⟩ with
  | error e => simp [hg,hfold,Except.toOption] at hrun
  | ok p =>
   obtain ⟨c,next⟩ := p
   simp only [hg,hfold,Except.toOption,Option.any_some,and_eq_true,bne_iff_ne,contains_iff_mem,
    not_eq_true',← not_eq_true,isSome_iff_exists] at hrun
   obtain ⟨⟨⟨hsiz,next,rfl⟩,hid⟩,hval⟩ := hrun
   have hends := ends_readDataset (configured_shelf twinsText)
    ⟨twinsText,lookup_shelf twinsText,hg⟩ hsiz
    ⟨.start,some 1⟩
   rw [hfold] at hends
   exact ⟨c,next,hends,hid,fun s hs => hval (mem_map_of_mem (mem_of_get? hs))⟩

section
variable {σ' : Session} {home raw : String} {r : List String} {q : Progress}

def Contributes (radius least most : Int) (g : Graph) : Prop :=
 ∃ e ∈ g.nodes.entries, isRecord e.2 = true ∧ ∃ part, neighbourhood g e.1 radius least most =
  .ok part ∧ part.size ≠ 0

lemma collectAround_cases {e : NodeId × Attrs} (he : e ∈ g.nodes.entries) (radius least most : Int) :
 (∀ p, collectAround g radius least most p e = .ok p) ∨ Contributes radius least most g ∧
  ∀ p, p.next = none → collectAround g radius least most p e = .error .wrongType := by
 cases hrec : isRecord e.2 with
 | false => exact .inl fun p => by simp [collectAround,hrec,pure,Except.pure]
 | true =>
  obtain ⟨part,hpart,_⟩ := neighbourhood_surrounds (mem_map_of_mem he) radius least most
  by_cases hsiz : part.size = 0
  · exact .inl fun p => by simp [collectAround,hrec,hpart,hsiz,bind,Except.bind,pure,Except.pure]
  · refine .inr ⟨⟨e,he,hrec,part,hpart,hsiz⟩,fun p hp => ?_⟩
    simp [collectAround,hrec,hpart,hsiz,hp,bind,Except.bind,throw,throwThe,MonadExceptOf.throw]

lemma collectAll_idle (h : ¬Contributes radius least most g) (p : Progress) :
 g.nodes.entries.foldlM (collectAround g radius least most) p = .ok p := by
 have hidle : ∀ p, ∀ e ∈ g.nodes.entries, collectAround g radius least most p e = .ok p :=
  fun p e he =>
  ((collectAround_cases he radius least most).resolve_right fun hc => h hc.1) p
 rw [foldlM_eq_ok hidle,foldl_fixed]

lemma collectAll_stalled (h : Contributes radius least most g) (hp : p.next = none) :
 g.nodes.entries.foldlM (collectAround g radius least most) p = .error .wrongType := by
 obtain ⟨e,he,hrec,part,hpart,hsiz⟩ := h
 refine foldlM_eq_error (P := fun p : Progress => p.next = none)
  (fun p hp f hf => ?_) he (fun p hp => ?_) hp
 · rcases collectAround_cases hf radius least most with hidle | ⟨_,hsto⟩
   · exact .inl ⟨p,hidle p,hp⟩
   · exact .inr (hsto p hp)
 · simp [collectAround,hrec,hpart,hsiz,hp,bind,Except.bind,throw,throwThe,MonadExceptOf.throw]

lemma not_contributes_of_empty (h : g.size = 0) : ¬Contributes radius least most g := by
 rintro ⟨e,he,_⟩
 rw [length_eq_zero_iff.1 h] at he
 cases he

lemma gather_idle (h : ¬Contributes radius least most g) (p : Progress) :
 gather radius least most p g = .ok { p with next := if g.size = 0 then none else p.next } := by
 rw [gather,collectAll_idle h]
 split <;> rfl

lemma gather_stalled (h : Contributes radius least most g) (hp : p.next = none) :
 gather radius least most p g = .error .wrongType := by
 rw [gather,if_neg fun hsiz => not_contributes_of_empty hsiz h,collectAll_stalled h hp]

lemma gatherAll_idle {gs : List Graph} (h : ∀ g ∈ gs, ¬Contributes radius least most g)
 (p : Progress) :
 ∃ q, gs.foldlM (gather radius least most) p = .ok q ∧ q.collected = p.collected := by
 refine ⟨_,foldlM_eq_ok (fun p g hg => gather_idle (h g hg) p) p,?_⟩
 induction gs generalizing p with
 | nil => rfl
 | cons g gs ih => exact ih (fun x hx => h x (by simp [hx])) _

lemma gatherAll_stalled {gs : List Graph} (hg : g ∈ gs) (h : Contributes radius least most g)
 (hp : p.next = none) :
 gs.foldlM (gather radius least most) p = .error .wrongType := by
 refine foldlM_eq_error (fun p hp x _ => ?_) hg (fun p hp => gather_stalled h hp) hp
 by_cases hx : Contributes radius least most x
 · exact .inr (gather_stalled hx hp)
 · exact .inl ⟨_,gather_idle hx p,by simp [hp]⟩

def Orderly (p : Progress) : Prop :=
 ∃ notes next, Booked False p.collected notes next ∧ (p.next = none ∨ p.next = some next)

lemma orderly_start : Orderly ⟨.start,some 1⟩ := ⟨[],1,booked_start False,.inr rfl⟩

lemma gather_keeps (hg : g.ids.Nodup) (h : Orderly p) (hq : gather radius least most p g = .ok q) :
 Orderly q := by
 obtain ⟨notes,next,hboo,hnext⟩ := h
 by_cases hc : Contributes radius least most g
 · rcases hnext with hnone | hsome
   · rw [gather_stalled hc hnone] at hq
     cases hq
   · obtain ⟨q',hq',notes',next',hnex',hboo'⟩ := collectAll_keeps hg False.elim radius least most
      (fun _ he => he) (show Ongoing False p from ⟨notes,next,hsome,hboo⟩)
     rw [gather,if_neg fun hsiz => not_contributes_of_empty hsiz hc,hq'] at hq
     cases hq
     exact ⟨notes',next',hboo',.inr hnex'⟩
 · rw [gather_idle hc] at hq
   cases hq
   refine ⟨notes,next,hboo,?_⟩
   dsimp only
   split
   · exact .inl rfl
   · exact hnext

def admits (start : Value) (file : String) : Bool :=
 if file.endsWith ".gml" then match start with
  | .str s => file.startsWith s
  | _ => true
 else false

structure Offers (σ : Session) (home : String) (radius least most : Int)
 (files : List (String × Graph)) : Prop
 extends Configured σ home radius least most where
 seeded : ∃ n, σ.settings.get "seed" = .ok (.int n)
 chosen : ∃ start names, σ.settings.get "import_prefix" = .ok start ∧
  (start = .none ∨ ∃ s, start = .str s) ∧
  σ.files.names (ofRoot home) = .ok names ∧
  ((sortNames names).filter (admits start)).map (fun file => (splitOn '.' file).headD "") =
   files.map fst
 stored : ∀ f ∈ files, Stores σ home f.1 f.2

variable {files : List (String × Graph)} {start : Value}
section
variable (hs : Configured σ home radius least most)
include hs

lemma ends_takesPart (hget : σ.settings.get "import_prefix" = .ok start)
 (hsta : start = .none ∨ ∃ s, start = .str s) (file : String) :
 Ends (takesPart file) σ (.ok (admits start file)) σ := by
 have hread := hget ▸ ends_setting _ σ
 refine (ends_settingText hs.format).bind ?_
 unfold admits
 cases file.endsWith ".gml" with
 | false => exact ends_pure false σ
 | true =>
  refine hread.bind ?_
  rcases hsta with rfl | ⟨s,rfl⟩
  · exact ends_pure true σ
  · exact ends_pure (file.startsWith s) σ

lemma ends_gatherAll (hget : σ.settings.get "import_prefix" = .ok start)
 (hsta : start = .none ∨ ∃ s, start = .str s) (hfil : ∀ f ∈ files, Stores σ home f.1 f.2)
 {listed : List String}
 (hlis : (listed.filter (admits start)).map (fun file => (splitOn '.' file).headD "") =
  files.map fst)
 (p : Progress) :
 Ends (listed.foldlM (fun p file => do
  if ← takesPart file then readDataset ((splitOn '.' file).headD "") p else return p) p) σ
  ((files.map snd).foldlM (gather radius least most) p) σ := by
 induction listed generalizing files p with
 | nil =>
  obtain rfl : files = [] := map_eq_nil_iff.1 hlis.symm
  exact ends_pure p σ
 | cons file listed ih =>
  have htak := ends_takesPart hs hget hsta file
  rw [foldlM_cons]
  cases hadm : admits start file with
  | false =>
   rw [filter_cons_of_neg (by simp [hadm])] at hlis
   rw [hadm] at htak
   exact Ends.bind (htak.bind (ends_pure p σ)) (ih hfil hlis p)
  | true =>
   rw [filter_cons_of_pos hadm,map_cons] at hlis
   rw [hadm] at htak
   cases files with
   | nil => cases hlis
   | cons f files =>
    obtain ⟨hnam,hres⟩ := cons.inj hlis
    have hread := htak.bind (f :=
     fun b => if b then readDataset ((Text.splitOn '.' file).headD "") p else return p)
     (hnam ▸ ends_gather hs (hfil f (by simp)) p)
    rw [map_cons,foldlM_cons]
    cases hste : gather radius least most p f.2 with
    | error e => exact Ends.bind_error (hste ▸ hread)
    | ok q => exact Ends.bind (hste ▸ hread) (ih (fun x hx => hfil x (by simp [hx])) hres q)

end

structure Output (σ : Session) (raw name : String) (r : List String) : Prop where
 dataset : σ.settings.get "dataset" = .ok (.str name)
 rawDir : σ.settings.get "raw_dataset_dir" = .ok (.str raw)
 room : Corpus.Room σ (ofProject raw) name r
 named : FileName name

def Leaves (σ τ : Session) (raw name : String) (r : List String) (c : Collection)
 (notes : List Note) : Prop :=
 if c.graph.size = 0 then τ.files = σ.files else Archived τ raw name r c notes

def readFiles : Run Progress := do
 seed (← settingInt "seed")
 let files ← names (ofRoot (← settingText "import_dir"))
 (sortNames files).foldlM (fun p file => do
  if ← takesPart file then readDataset ((splitOn '.' file).headD "") p else return p) ⟨.start,some 1⟩

lemma importDatasets_eq : importDatasets = (do
 let p ← readFiles
 if p.collected.graph.size = 0 then return
 p.collected.write) := by
 simp only [importDatasets,readFiles,bind_assoc]

section
variable (h : Offers σ home radius least most files)
include h

lemma Offers.ends_readFiles : ∃ st, Ends readFiles σ
 ((files.map snd).foldlM (gather radius least most) ⟨.start,some 1⟩) { σ with streams := st } := by
 obtain ⟨n,hn⟩ := h.seeded
 obtain ⟨start,names,hget,hsta,hnam,hlis⟩ := h.chosen
 let τ : Session := { σ with streams := ⟨.seed n,.seed n⟩ }
 have hs : Configured τ home radius least most := ⟨h.format,h.folder,h.radius,h.least,h.most⟩
 have hseed : Ends (seed n) σ (.ok ()) τ := rfl
 have hfol : Ends (settingText "import_dir") τ (.ok home) τ := ends_settingText h.folder
 have hna : Ends (Run.names (Path.ofRoot home)) τ (.ok names) τ :=
  (ends_get τ).bind (ends_ofExcept_ok hnam)
 exact ⟨_,(ends_settingInt hn).bind (hseed.bind (hfol.bind (hna.bind
  (ends_gatherAll hs hget hsta h.stored hlis _))))⟩

lemma Offers.ends_import_error {e : Error}
 (he : (files.map snd).foldlM (gather radius least most) ⟨.start,some 1⟩ = .error e) :
 ∃ τ, Ends importDatasets σ (.error e) τ ∧ τ.files = σ.files := by
 obtain ⟨st,hends⟩ := h.ends_readFiles
 rw [he] at hends
 refine ⟨{ σ with streams := st },?_,rfl⟩
 rw [importDatasets_eq]
 exact hends.bind_error

lemma Offers.ends_import (ho : Output σ raw name r)
 (hp : (files.map snd).foldlM (gather radius least most) ⟨.start,some 1⟩ = .ok p) {notes : List Note}
 (ht : Tallied p.collected notes) :
 ∃ τ, Ends importDatasets σ (.ok ()) τ ∧ Leaves σ τ raw name r p.collected notes := by
 obtain ⟨st,hends⟩ := h.ends_readFiles
 rw [hp] at hends
 rw [importDatasets_eq]
 unfold Leaves
 split
 · next hsiz =>
   refine ⟨{ σ with streams := st },hends.bind ?_,rfl⟩
   rw [if_pos hsiz]
   exact ends_pure () _
 · next hsiz =>
   have hroom : Corpus.Room { σ with streams := st } (ofProject raw) name r :=
    ⟨ho.room.leads,ho.room.found,ho.room.free⟩
   obtain ⟨τ,_,hwri,_,harc⟩ := ends_write (σ :=
    { σ with streams := st }) ht ho.dataset ho.rawDir hroom ho.named
   refine ⟨τ,hends.bind ?_,harc⟩
   rw [if_neg hsiz]
   exact hwri

lemma Offers.orderly (hp : (files.map snd).foldlM (gather radius least most) ⟨.start,some 1⟩ =
 .ok p) : Orderly p := by
 refine foldlM_keeps (fun b g hg b' => gather_keeps ?_) orderly_start hp
 obtain ⟨f,hf,rfl⟩ := mem_map.1 hg
 obtain ⟨text,_,hpar⟩ := h.stored f hf
 exact nodup_of_parse hpar

end

/-- An empty file is skipped exactly if no file after it contributes: then the import leaves what it
leaves without the file; otherwise it fails and writes nothing, because the empty file takes the
running number with it. -/
theorem empty_skipped_iff {before after : List (String × Graph)} {f : String × Graph}
 (h : Offers σ home radius least most (before ++ after))
 (h' : Offers σ' home radius least most (before ++ f :: after))
 (hf : f.2.size = 0) (ho : Output σ raw name r) (ho' : Output σ' raw name r)
 (hacc : ∃ τ, Ends importDatasets σ (.ok ()) τ) :
 ((∀ x ∈ after, ¬Contributes radius least most x.2) → ∃ τ τ' c notes,
  Ends importDatasets σ (.ok ()) τ ∧
  Ends importDatasets σ' (.ok ()) τ' ∧ Leaves σ τ raw name r c notes ∧
   Leaves σ' τ' raw name r c notes) ∧
 ((∃ x ∈ after, Contributes radius least most x.2) →
  ∃ τ', Ends importDatasets σ' (.error .wrongType) τ' ∧ τ'.files = σ'.files) := by
 cases hp : (before.map snd).foldlM (gather radius least most) ⟨.start,some 1⟩ with
 | error e =>
  obtain ⟨τ,hτ⟩ := hacc
  obtain ⟨_,hends,_⟩ := h.ends_import_error (by rw [map_append,foldlM_append,hp]; rfl)
  cases (hτ.unique hends).1
 | ok p =>
  have hwith : ((before ++ f :: after).map snd).foldlM (gather radius least most) ⟨.start,some 1⟩ =
   (after.map snd).foldlM (gather radius least most) { p with next := none } := by
   rw [map_append,foldlM_append,hp,map_cons]
   show (f.2 :: after.map snd).foldlM (gather radius least most) p = _
   rw [foldlM_cons,gather_idle (not_contributes_of_empty hf),if_pos hf]
   rfl
  have hwithout : ((before ++ after).map snd).foldlM (gather radius least most) ⟨.start,some 1⟩ =
   (after.map snd).foldlM (gather radius least most) p := by
   rw [map_append,foldlM_append,hp]
   rfl
  refine ⟨fun hidle => ?_,fun ⟨x,hx,hc⟩ => ?_⟩
  · have hall : ∀ g ∈ after.map snd, ¬Contributes radius least most g := forall_mem_map.2 hidle
    obtain ⟨q,hq,hcol⟩ := gatherAll_idle hall p
    obtain ⟨q',hq',hcol'⟩ := gatherAll_idle hall { p with next := none }
    rw [hq] at hwithout
    rw [hq'] at hwith
    obtain ⟨notes,next,hboo,_⟩ := h.orderly hwithout
    have hsame : q'.collected = q.collected := hcol'.trans hcol.symm
    obtain ⟨τ,hτ,hlea⟩ := h.ends_import ho hwithout hboo.toTallied
    obtain ⟨τ',hτ',hlea'⟩ := h'.ends_import ho' hwith (hsame ▸ hboo.toTallied)
    exact ⟨τ,τ',q.collected,notes,hτ,hτ',hlea,hsame ▸ hlea'⟩
  · exact h'.ends_import_error (hwith.trans (gatherAll_stalled (mem_map_of_mem hx) hc rfl))

def racks (files : List (String × Entry)) : Session where
 streams := default
 settings :=
  ⟨⟨[("import_format",.str ".gml"),("import_dir",.str "in/"),("import_subgraph_radius",.int 1),
  ("import_subgraph_min",.int 1),("import_subgraph_max",.int 9),("seed",.int 1),
   ("import_prefix",.none),
  ("dataset",.str "CPG"),("raw_dataset_dir",.str "data/raw/")]⟩⟩
 files := .folder [("in",.folder files),("glema",.folder [("data",.folder [("raw",.folder [])])])]
 printed := #[]
 records := []

lemma output_racks (files : List (String × Entry)) :
 Output (racks files) "data/raw/" "CPG" ["glema","data","raw"] where
 dataset := rfl
 rawDir := rfl
 room := ⟨resolve_eq_ok.2 ⟨["glema","data","raw"],by decide +kernel,rfl⟩,⟨[],rfl⟩,
  fun e he => by cases he⟩
 named := ⟨by decide,'C',_,rfl,by decide,by decide⟩

lemma offers_racks {files : List (String × Entry)} {gs : List (String × Graph)}
 (hsor : (files.map fst).Pairwise fun s t => decide (s ≤ t))
 (hlis : ((files.map fst).filter (admits .none)).map (fun file => (splitOn '.' file).headD "") =
  gs.map fst)
 (hsto : ∀ f ∈ gs, Stores (racks files) "in/" f.1 f.2) : Offers (racks files) "in/" 1 1 9 gs := by
 have hpath : fromRoot? (ofRoot "in/") = some ["in"] := by decide +kernel
 have hhome : (racks files).files.resolve (ofRoot "in/") = .ok ["in"] :=
  resolve_eq_ok.2 ⟨_,hpath,rfl⟩
 have hsort : sortNames (files.map fst) = files.map fst := mergeSort_of_pairwise hsor
 refine ⟨⟨rfl,rfl,rfl,rfl,rfl⟩,⟨1,rfl⟩,⟨.none,files.map fst,rfl,.inl rfl,?_,by rw [hsort,hlis]⟩,hsto⟩
 rw [Entry.names,Entry.lookup,hhome]
 show (if namesFolder (ofRoot "in/") && false then throw Error.notADirectory else pure
  (folder files)) >>= _ = _
 rw [Bool.and_false]
 exact congrArg ok hsort

theorem pair_lost_behind_empty :
 (∃ τ, Ends importDatasets (racks [("b.gml",.text pairText)]) (.ok ()) τ) ∧
 ∃ τ, Ends importDatasets (racks [("a.gml",.text "graph [ ]"),("b.gml",.text pairText)])
  (.error .wrongType) τ := by
 have hbare : ((parse "graph [ ]").toOption.any fun g => g.size == 0) = true := by decide +kernel
 have hpair : ((parse pairText).toOption.any fun g => g.nodes.entries.any fun e => isRecord e.2 &&
  (neighbourhood g e.1 1 1 9).toOption.any fun part => part.size != 0) = true := by decide +kernel
 have hpath : ∀ m ∈ ["a","b"], fromRoot? (ofRoot ("in/" ++ m ++ ".gml")) = some ["in",m ++ ".gml"] ∧
  namesFolder (ofRoot ("in/" ++ m ++ ".gml")) = false := by decide +kernel
 have hnam : (["a.gml","b.gml"].filter (admits .none)).map
  (fun file => (splitOn '.' file).headD "") = ["a","b"] ∧
  (["b.gml"].filter (admits .none)).map (fun file => (splitOn '.' file).headD "") =
   ["b"] := by decide +kernel
 cases hg₀ : parse "graph [ ]" with
 | error e => simp [hg₀,Except.toOption] at hbare
 | ok g₀ =>
  cases hg : parse pairText with
  | error e => simp [hg,Except.toOption] at hpair
  | ok g =>
   obtain ⟨ha,hfold⟩ := hpath "a" (by decide)
   obtain ⟨hb,hfold'⟩ := hpath "b" (by decide)
   have halo : Offers (racks [("b.gml",.text pairText)]) "in/" 1 1 9 ([] ++ [("b",g)]) := by
    refine offers_racks (by decide) hnam.2 ?_
    simpa using ⟨pairText,lookup_of_find (resolve_eq_ok.2 ⟨_,hb,rfl⟩) rfl hfold',hg⟩
   have hbeh : Offers (racks [("a.gml",.text "graph [ ]"),("b.gml",.text pairText)]) "in/" 1 1 9
    ([] ++ ("a",g₀) :: [("b",g)]) := by
    refine offers_racks (by decide) hnam.1 ?_
    simpa using ⟨⟨_,lookup_of_find (resolve_eq_ok.2 ⟨_,ha,rfl⟩) rfl hfold,hg₀⟩,
     pairText,lookup_of_find (resolve_eq_ok.2 ⟨_,hb,rfl⟩) rfl hfold',hg⟩
   simp only [hg₀,hg,Except.toOption,Option.any_some,beq_iff_eq] at hbare hpair
   have hcon : Contributes 1 1 9 g := by
    obtain ⟨e,he,hfou⟩ := any_eq_true.1 hpair
    obtain ⟨hrec,hpart⟩ := and_eq_true_iff.1 hfou
    cases hn : neighbourhood g e.1 1 1 9 with
    | error x => simp [hn] at hpart
    | ok part => exact ⟨e,he,hrec,part,hn,by simpa [hn] using hpart⟩
   obtain ⟨p,hp,notes,next,_,hboo⟩ := collectAll_keeps (nodup_of_parse hg) False.elim 1 1 9
    (fun _ he => he) (show Ongoing False ⟨.start,some 1⟩ from ⟨[],1,rfl,booked_start False⟩)
   have hgat : [g].foldlM (gather 1 1 9) ⟨.start,some 1⟩ = .ok p := by
    rw [foldlM_cons,gather,if_neg fun hsiz => not_contributes_of_empty hsiz hcon,hp]
    rfl
   obtain ⟨τ,hτ,_⟩ := halo.ends_import (output_racks _) hgat hboo.toTallied
   obtain ⟨τ',hτ',_⟩ := (empty_skipped_iff halo hbeh hbare (output_racks _) (output_racks _) ⟨τ,hτ⟩).2
    ⟨_,mem_singleton_self _,hcon⟩
   exact ⟨⟨τ,hτ⟩,τ',hτ'⟩

end

variable {ι : Type} {patterns : Table String String} {graphs : List (ι × Graph)} {raw : String}
 {r : List String}

lemma memberWith_value : ∀ m ∈ designPattern.members,
 designPattern.memberWith (.str m.value) = .ok m := by
 simp only [designPattern,map_cons,map_nil,forall_mem_cons]
 refine ⟨?_,?_,?_,?_,?_,?_,?_,?_,?_,?_,?_,?_,by simp⟩ <;> cbv

def Annotated (patterns : Table String String) (p : String) (e : ι × Graph) : Bool :=
 patterns.get? e.2.anchor.text == some p

lemma groupByPattern_ok (h : ∀ e ∈ graphs, ∀ p, patterns.get? e.2.anchor.text = some p →
 p ∈ designPattern.members.map value) :
 ∃ t, groupByPattern patterns graphs = .ok t ∧ t.keys.Nodup ∧
  (∀ m ∈ t.keys, m ∈ designPattern.members) ∧
  ∀ m ∈ designPattern.members, t.getD m [] =
   (graphs.filter (Annotated patterns m.value)).map fst := by
 induction graphs using reverseRecOn with
 | nil =>
  exact ⟨.empty,rfl,nodup_nil,fun m hm => absurd hm (by simp [Table.keys,Table.empty]),
   fun _ _ => rfl⟩
 | append_singleton graphs e ih =>
  obtain ⟨t,ht,hnod,hkey,hget⟩ := ih fun x hx => h x (mem_append_left _ hx)
  unfold groupByPattern at ht ⊢
  rw [foldlM_append,ht]
  cases hp : patterns.get? e.2.anchor.text with
  | none =>
   refine ⟨t,?_,hnod,hkey,fun m hm => ?_⟩
   · simp [bind,bind,hp]
     rfl
   · rw [filter_append,hget m hm]
     simp [Annotated,hp]
  | some p =>
   obtain ⟨k,hk,rfl⟩ := mem_map.1 (h e (by simp) p hp)
   refine ⟨t.put k (t.getD k [] ++ [e.1]),?_,nodup_put hnod _ _,fun m hm => ?_,fun m hm => ?_⟩
   · simp [bind,bind,hp,memberWith_value k hk]
     rfl
   · exact (mem_keys_put.1 hm).elim (hkey m) fun heq => heq ▸ hk
   · rw [Table.getD,get?_put,filter_append,map_append,← hget m hm]
     by_cases hmk : m = k
     · simp [hmk,Annotated,hp,Table.getD]
     · have hoth : k.value ≠ m.value := fun heq => hmk (Except.ok.inj
        ((memberWith_value m hm).symm.trans (heq ▸ memberWith_value k hk)))
       simp [hmk,Annotated,hp,hoth,Table.getD]

lemma select_ok (find : ι → Except Error Graph) {index : Table Member (List ι)}
 (hfind : ∀ e ∈ graphs, find e.1 = .ok e.2)
 (hnod : index.keys.Nodup) (hkey : ∀ m ∈ index.keys, m ∈ designPattern.members)
 (hget : ∀ m ∈ designPattern.members, index.getD m [] =
  (graphs.filter (Annotated patterns m.value)).map fst) :
 ∃ t, select find (index.entries.map fun e => (e.1.value,e.2)) = .ok t ∧
  ∀ m ∈ designPattern.members, t.getD m.value [] =
   (graphs.filter (Annotated patterns m.value)).map snd := by
 let found := fun p => (graphs.filter (Annotated patterns p)).map snd
 have hrows : ∀ e ∈ index.entries, e.2.mapM find = .ok (found e.1.value) := by
  intro e he
  have hrow := hget e.1 (hkey _ (mem_map_of_mem he))
  rw [getD_of_get? (get?_of_mem hnod he)] at hrow
  rw [hrow,mapM_map]
  exact mapM_ok fun x hx => hfind x (mem_filter.1 hx).1
 have hsel : select find (index.entries.map fun e => (e.1.value,e.2)) =
  .ok (ofList (index.entries.map fun e => (e.1.value,found e.1.value))) := by
  rw [select,foldlM_map,ofList,putAll,foldl_map]
  exact foldlM_eq_ok (fun t e he => by rw [hrows e he]; rfl) _
 refine ⟨_,hsel,fun m hm => ?_⟩
 rw [Table.getD,get?_ofList_getLast]
 cases hlast : (((index.entries.map fun e => (e.1.value,found e.1.value)).filter fun e => e.1 ==
  m.value).map snd).getLast? with
 | some v =>
  obtain ⟨x,hx,rfl⟩ := mem_map.1 (mem_of_getLast? hlast)
  obtain ⟨hx,heq⟩ := mem_filter.1 hx
  obtain ⟨e,_,rfl⟩ := mem_map.1 hx
  rw [← eq_of_beq heq]
  rfl
 | none =>
  have hout : m ∉ index.keys := fun hin => by
   obtain ⟨e,he,rfl⟩ := mem_map.1 hin
   have hnil := getLast?_eq_none_iff.1 hlast
   simp only [map_eq_nil_iff,filter_eq_nil_iff] at hnil
   exact hnil _ (mem_map_of_mem he) (beq_self_eq_true _)
  have hnil := hget m hm
  rw [Table.getD,(get?_eq_none_iff _ _).2 hout] at hnil
  rw [map_eq_nil_iff.1 hnil.symm]
  rfl

theorem patterns_listed_last [DecidableEq ι] (calls : List Call) (ho : Output σ raw name r)
 (kinds : NodeId → List String)
 (hkinds : ∀ n ∈ (collected calls).graph.ids, (collected calls).graph.nodeAttr? n "pattern_types" =
  some (.list ((kinds n).map .str))) :
 ∃ σ', Ends (collected calls).write σ (.ok ()) σ' ∧ ∀ graphs :
  List (ι × Graph), (graphs.map fst).Nodup →
  (∀ e ∈ graphs, e.2.anchor ∈ (collected calls).graph.ids) →
  ∃ index lists, Ends (patternIndex graphs) σ' (.ok index) σ' ∧
   Ends (patternGraphs graphs) σ' (.ok lists) σ' ∧
   ∀ m ∈ designPattern.members,
    index.getD m [] = (graphs.filter fun e => (kinds e.2.anchor).getLast? == some m.value).map fst ∧
    lists.getD m.value [] = (graphs.filter fun e => (kinds e.2.anchor).getLast? ==
     some m.value).map snd := by
 obtain ⟨notes,htal⟩ := collected_tallied calls
 obtain ⟨σ',_,hwri,hshe,harc⟩ := ends_write htal ho.dataset ho.rawDir ho.room ho.named
 obtain ⟨patterns,hpat,hlast⟩ :=
  harc.ends_designPatterns (hshe.settings ▸ ho.dataset) (hshe.settings ▸ ho.rawDir) htal.valid
 refine ⟨σ',hwri,fun graphs hnod hanc => ?_⟩
 have hread : ∀ e ∈ graphs, patterns.get? e.2.anchor.text = (kinds e.2.anchor).getLast? ∧
  ∀ p ∈ kinds e.2.anchor, p ∈ designPattern.members.map value := by
  intro e he
  have hkind := hkinds _ (hanc e he)
  obtain ⟨i,hi,heq⟩ := htal.mem_ids.1 (hanc e he)
  have hx := getElem?_eq_getElem hi
  rw [heq] at hkind ⊢
  rw [nodeAttr?,htal.attrs? hx] at hkind
  have hsame := Value.list.inj (Option.some.inj (hkind.symm.trans notes[i].get?_patterns))
  rw [map_injective_iff.2 (fun _ _ => Value.str.inj) hsame]
  exact ⟨hlast i _ hx,(htal.valid _ (getElem_mem hi)).patterns⟩
 have hsame : ∀ m : Member, graphs.filter (Annotated patterns m.value) = graphs.filter fun e =>
  (kinds e.2.anchor).getLast? == some m.value :=
  fun m => filter_congr fun e he => by rw [Annotated,(hread e he).1]
 have hmemb : ∀ e ∈ graphs, ∀ p, patterns.get? e.2.anchor.text = some p →
  p ∈ designPattern.members.map value :=
  fun e he p hp => (hread e he).2 p (mem_of_getLast? ((hread e he).1 ▸ hp))
 obtain ⟨index,hind,hk,hmem,hget⟩ := groupByPattern_ok hmemb
 have hends : Ends (patternIndex graphs) σ' (.ok index) σ' := hpat.bind (ends_ofExcept_ok hind)
 refine ⟨index,(select_ok _ (fun e he => ?_) hk hmem hget).imp fun lists hlist =>
  ⟨hends,hends.bind (ends_ofExcept_ok hlist.1),
  fun m hm => hsame m ▸ ⟨hget m hm,hlist.2 m hm⟩⟩⟩
 rw [get?_of_mem hnod he]

def adapterProxy : Graph where
 directed := true
 multi := true
 nodes := ⟨[(.name "r",⟨[("labels_RecordDeclaration",.int 1),("labels_ADAPTER",.int 1),
  ("labels_PROXY",.int 1)]⟩)]⟩
 edges := []

def adapterSource : Graph where
 directed := false
 multi := false
 nodes := ⟨[(.num 1,⟨[("anchor",.int 1)]⟩)]⟩
 edges := []

theorem adapter_not_listed :
 ∃ σ' index, Ends (collected [⟨adapterProxy,.name "r",1⟩]).write (racks []) (.ok ()) σ' ∧
 (collected [⟨adapterProxy,.name "r",1⟩]).graph.nodeAttr? (.num 1) "pattern_types" =
  some (.list [.str "ADAPTER",.str "PROXY"]) ∧
 Ends (patternIndex [((1 : Int),adapterSource)]) σ' (.ok index) σ' ∧
 index.getD ⟨"ADAPTER","ADAPTER"⟩ [] = [] ∧ index.getD ⟨"PROXY","PROXY"⟩ [] = [1] := by
 have hanc : adapterSource.anchor = .num 1 := by cbv
 have hids : (collected [⟨adapterProxy,.name "r",1⟩]).graph.ids = [.num 1] := by cbv
 have htype : (collected [⟨adapterProxy,.name "r",1⟩]).graph.nodeAttr? (.num 1) "pattern_types" =
  some (.list [.str "ADAPTER",.str "PROXY"]) := by cbv
 obtain ⟨σ',hwri,hlist⟩ := patterns_listed_last (ι :=
  Int) [⟨adapterProxy,.name "r",1⟩] (output_racks [])
  (fun _ => ["ADAPTER","PROXY"]) (by rw [hids]; simpa using htype)
 obtain ⟨index,_,hind,_,hget⟩ := hlist [(1,adapterSource)] (by simp) (by simp [hanc,hids])
 refine ⟨σ',index,hwri,htype,hind,?_,?_⟩
 · exact (hget ⟨"ADAPTER","ADAPTER"⟩ (by decide)).1
 · exact (hget ⟨"PROXY","PROXY"⟩ (by decide)).1

end MotifMatch.Import
