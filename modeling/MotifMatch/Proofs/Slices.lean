import MotifMatch.Corpus.Generate
import MotifMatch.Proofs.Companions
import MotifMatch.Proofs.Loading

namespace MotifMatch.Corpus
open List MotifMatch.Graph Table Listing
variable {g : Graph}

structure Plain (g : Graph) : Prop where
 sound : g.Sound
 single : g.multi = false
 undirected : g.directed = false
 labels : ∀ e ∈ g.nodes.entries, ∀ v, e.2.get? "label" = some v → ∃ l : Int, v = .int l
 edges : ∀ e ∈ g.edges, e.attrs.get? "label" = some (.int 1)

lemma ids_labelledNodes (ls : List String) :
 (labelledNodes ls).keys = (List.range ls.length).map fun (i : Nat) => .num i := by
 rw [Table.keys,labelledNodes,map_map,range_eq_range',← zipIdx_map_snd 0 ls,map_map]
 rfl

lemma plain_labelledNodes (ls : List String) :
 Plain { empty false with nodes := labelledNodes ls } where
 sound := by
  refine ⟨?_,?_,(fun e he => by cases he),(fun e he => by cases he),fun _ => .nil⟩
  · rw [ids,ids_labelledNodes]
    exact nodup_range.map fun i j h => Int.ofNat.inj (NodeId.num.inj h)
  · intro e he
    obtain ⟨x,_,rfl⟩ := mem_map.1 he
    exact nodup_ofList _
 single := rfl
 undirected := rfl
 labels e he v hv := by
  obtain ⟨x,_,rfl⟩ := mem_map.1 he
  rw [get?_labelled] at hv
  exact ⟨_,(Option.some.inj hv).symm⟩
 edges e he := by cases he

lemma Plain.touch (hg : Plain g) (n : NodeId) : Plain (g.touch n) where
 sound := hg.sound.touch n
 single := (multi_touch n).trans hg.single
 undirected := (directed_touch n).trans hg.undirected
 labels := by
  unfold Graph.touch
  split
  · exact hg.labels
  · intro e he v hv
    rcases mem_append.1 he with he | he
    · exact hg.labels e he v hv
    · rw [mem_singleton.1 he] at hv
      cases hv
 edges := by
  rw [edges_touch]
  exact hg.edges

lemma mem_ids_touch {m n : NodeId} (h : m ∈ g.ids ∨ m = n) : m ∈ (g.touch n).ids := by
 unfold touch
 split
 · next hn => exact h.elim id fun heq => heq ▸ hasNode_iff.1 hn
 · rw [ids,Table.keys,map_append]
   exact mem_append.2 (h.imp id fun heq => mem_singleton.2 heq)

lemma Plain.addEdge (hg : Plain g) (u v : NodeId) : Plain (g.addEdge u v (labelled 1)) := by
 have hends := (hg.touch u).touch v
 have hpla : g.addEdge u v (labelled 1) =
  ((g.touch u).touch v).place ⟨u,v,.none,labelled 1⟩ (((g.touch u).touch v).joins u v) := by
  simp [Graph.addEdge,hg.single]
 refine ⟨?_,(multi_addEdge u v _).trans hg.single,(directed_addEdge u v _).trans hg.undirected,?_,?_⟩
 · rw [hpla]
   exact hends.sound.place (mem_ids_touch (.inl (mem_ids_touch (.inr rfl))))
    (mem_ids_touch (.inr rfl)) (nodup_ofList _)
    fun _ => rfl
 · rw [hpla,nodes_place]
   exact hends.labels
 · refine attrs_addEdge (P := fun a => a.get? "label" = some (.int 1)) hg.edges (get?_labelled 1)
    (fun b _ => ?_) u v
   rw [get?_putAll_entries b (r := Listing.labelled 1) (nodup_ofList _),get?_labelled]
   rfl

lemma Plain.addEdges {α : Type} (ends : α → NodeId × NodeId) (es : List α) (hg : Plain g) :
 Plain (es.foldl (fun g e => g.addEdge (ends e).1 (ends e).2 (labelled 1)) g) := by
 induction es generalizing g with
 | nil => exact hg
 | cons e es ih => exact ih (hg.addEdge (ends e).1 (ends e).2)

lemma plain_ofTexts {labels edges numbers anchors : String} {raw : Raw}
 (h : ofTexts labels edges numbers anchors = .ok raw) :
 Plain raw.graph := by
 rw [ofTexts] at h
 obtain ⟨ends,_,h⟩ := bind_eq_ok h
 obtain ⟨ns,_,h⟩ := bind_eq_ok h
 obtain ⟨as,_,h⟩ := bind_eq_ok h
 cases h
 exact (plain_labelledNodes (rawLines labels)).addEdges (fun e => (.num e.1,.num e.2)) ends

end MotifMatch.Corpus

namespace MotifMatch.Import
open List MotifMatch.Graph Text Catalog Table
open Corpus (Raw)
open Listing (labelled number number_toString column)

lemma number_blank (i : Int) : number (" " ++ toString i) = .ok i := by
 obtain ⟨c,cs,d,hcs,hc,hd,hbla⟩ := (plain_int i).neat.ends
 have hstr : strip (" " ++ toString i).toList = strip (toString i).toList := by
  rw [String.toList_append]
  exact congrArg (fun l : List Char => (l.reverse.dropWhile isBlank).reverse)
   (dropWhile_cons_of_pos (by decide))
 have hread : int? (" " ++ toString i) = int? (toString i) := by rw [int?,int?,hstr]
 rw [number,hread,int?_toString]

lemma edgeEnds_eq (i j : Int) : Corpus.edgeEnds (toString i ++ ", " ++ toString j) =
 .ok (i - 1,j - 1) := by
 have hpla : ∀ k : Int, ',' ∉ (toString k).toList := by
  intro k hmem
  rcases mem_toString_int hmem with hc | hc
  · cases hc
  · exact absurd hc (by decide)
 have hcom : toString i ++ ", " ++ toString j = toString i ++ "," ++ (" " ++ toString j) := by
  rw [← String.toList_inj]
  simp
 rw [Corpus.edgeEnds,hcom,splitOn_pair (by rfl) (hpla i) (by simpa using hpla j)]
 simp only [number_toString,number_blank,bind,Except.bind]
 rfl

lemma anchorRow_eq (t : Table Int Int) (i j : Int) :
 Corpus.anchorRow t (toString i ++ " " ++ toString j) = .ok (t.put (i - 1) (j - 1)) := by
 have hpla : ∀ k : Int, ' ' ∉ (toString k).toList := fun k => (plain_int k).not_mem (by decide)
 rw [Corpus.anchorRow,splitOn_pair (by rfl) (hpla i) (hpla j)]
 simp only [Listing.columnNumber,column,getElem?_cons_zero,getElem?_cons_succ,number_toString,
  bind,Except.bind]
 rfl

variable {notes : List Note} {x y : Note}

def textRank (notes : List Note) (l : Int) : Int :=
 (Corpus.distinctSorted (notes.map fun x => toString x.label)).idxOf (toString l) + 1

lemma toString_le_iff {a b : Int} (ha : 1 ≤ a ∧ a ≤ nodeLabel.members.length)
 (hb : 1 ≤ b ∧ b ≤ nodeLabel.members.length) : toString a ≤ toString b ↔ a ≤ b := by
 have hall : ∀ a ∈ [(1 : Int),2,3,4,5,6], ∀ b ∈ [(1 : Int),2,3,4,5,6], toString a ≤ toString b ↔
  a ≤ b := by decide
 have hmem : ∀ c : Int, 1 ≤ c ∧ c ≤ nodeLabel.members.length → c ∈ [(1 : Int),2,3,4,5,6] := by
  intro c hc
  have hsiz : nodeLabel.members.length = 6 := rfl
  simp only [mem_cons,not_mem_nil,or_false]
  omega
 exact hall a (hmem a ha) b (hmem b hb)

lemma textRank_lt_iff (hval : ∀ x ∈ notes, x.Valid) (hx : x ∈ notes) (hy : y ∈ notes) :
 textRank notes x.label < textRank notes y.label ↔ x.label < y.label := by
 have hste : ∀ {x y : Note}, x ∈ notes → y ∈ notes → x.label < y.label →
  textRank notes x.label < textRank notes y.label := by
  intro x y hx hy hlt
  have hmem : ∀ z ∈ notes, toString z.label ∈
   Corpus.distinctSorted (notes.map fun x => toString x.label) := fun z hz =>
   Corpus.mem_distinctSorted.2 (mem_map_of_mem hz)
  have hidx := Corpus.idxOf_lt_idxOf (Corpus.pairwise_distinctSorted _) (hmem x hx) (hmem y hy)
   (by rw [toString_le_iff (hval y hy).label (hval x hx).label]; omega)
    (fun heq => by have := toString_inj heq; omega)
  simp only [textRank]
  omega
 refine ⟨fun h => ?_,hste hx hy⟩
 by_contra hnot
 rcases lt_or_eq_of_le (not_lt.1 hnot) with hlt | heq
 · have := hste hy hx hlt
   omega
 · rw [heq] at h
   omega

variable {c : Collection}

def lower (n : NodeId) : NodeId := .num (idNumber n - 1)

def pointed (notes : List Note) : Graph :=
 { empty false with nodes := Corpus.labelledNodes (notes.map fun x => toString x.label) }

def loweredEdge (e : Edge) : Edge := ⟨lower e.source,lower e.target,.none,labelled 1⟩

def total (c : Collection) (notes : List Note) : Graph :=
 (c.graph.edgeList.map loweredEdge).foldl addListed (pointed notes)

def lowerAnchors (c : Collection) : Table Int Int :=
 ofList (c.anchors.entries.map fun e => (e.1 - 1,e.2 - 1))

lemma Tallied.idNumber_eq (h : Tallied c notes) {n : NodeId} (hn : n ∈ c.graph.ids) :
 n = .num (idNumber n) := by
 obtain ⟨i,_,rfl⟩ := h.mem_ids.1 hn
 rfl

lemma Tallied.ends (h : Tallied c notes) {e : Edge} (he : e ∈ c.graph.edgeList) :
 e.source ∈ c.graph.ids ∧ e.target ∈ c.graph.ids :=
 let ⟨hs,ht,_⟩ := mem_edgeList_ends h.sound he
 ⟨hs,ht⟩

lemma Tallied.notes_ne_nil (h : Tallied c notes) (hedg : c.graph.edgeList ≠ []) : notes ≠ [] := by
 rintro rfl
 obtain ⟨e,he⟩ := exists_mem_of_ne_nil _ hedg
 obtain ⟨i,hi,_⟩ := h.mem_ids.1 (h.ends he).1
 cases hi

lemma rawLines_received {ls : List String} (hne : ls ≠ []) (h : ∀ l ∈ ls, Neat l) :
 Corpus.rawLines (received (Text.ended ls)) = ls := Text.readLines_ended hne h

lemma rawLines_ints {α : Type} {l : List α} (f : α → Int) (hne : l ≠ []) :
 Corpus.rawLines (received (Text.ended (l.map fun a => toString (f a)))) = l.map fun a =>
  toString (f a) := by
 refine rawLines_received (by simpa using hne) fun s hs => ?_
 obtain ⟨a,_,rfl⟩ := mem_map.1 hs
 exact (plain_int (f a)).neat

lemma rawLines_pairs {α : Type} {l : List α} (f g : α → Int) {m : String} (hne : l ≠ [])
 (hm : '\n' ∉ m.toList ∧ '\r' ∉ m.toList) :
 Corpus.rawLines (received (Text.ended (l.map fun a => toString (f a) ++ m ++ toString (g a)))) =
  l.map fun a => toString (f a) ++ m ++ toString (g a) := by
 refine rawLines_received (by simpa using hne) fun s hs => ?_
 obtain ⟨a,_,rfl⟩ := mem_map.1 hs
 exact (plain_int (f a)).neat.between (plain_int (g a)).neat hm

lemma Tallied.edgeRows (h : Tallied c notes) :
 c.graph.edgeList.map (fun e => e.source.text ++ ", " ++ e.target.text) =
 c.graph.edgeList.map fun e => toString (idNumber e.source) ++ ", " ++
  toString (idNumber e.target) := by
 refine map_congr_left fun e he => ?_
 rw [h.idNumber_eq (h.ends he).1,h.idNumber_eq (h.ends he).2]
 rfl

lemma foldlM_anchorRow (c : Collection) :
 (c.anchors.entries.map fun e => toString e.1 ++ " " ++ toString e.2).foldlM Corpus.anchorRow
  .empty = .ok (lowerAnchors c) := by
 rw [foldlM_map,foldlM_eq_ok fun t e _ => anchorRow_eq t e.1 e.2,lowerAnchors,ofList,
  putAll,foldl_map]

lemma foldl_edges (c : Collection) (notes : List Note) :
 (c.graph.edgeList.map fun e => (idNumber e.source - 1,idNumber e.target - 1)).foldl
  (fun g e => g.addEdge (.num e.1) (.num e.2) (labelled 1)) (pointed notes) = total c notes := by
 rw [total,← foldl_addEdge_eq rfl,foldl_map,foldl_map]
 rfl

lemma ofTexts_eq (h : Tallied c notes) (hedg : c.graph.edgeList ≠ [])
 (hanc : c.anchors.entries ≠ []) :
 Corpus.ofTexts (received (Text.ended (notes.map fun x => toString x.label)))
  (received (ended (c.graph.edgeList.map fun e => e.source.text ++ ", " ++ e.target.text)))
  (received (ended (notes.map fun x => toString x.number)))
  (received (ended (c.anchors.entries.map fun e => toString e.1 ++ " " ++ toString e.2))) =
  .ok ⟨total c notes,Corpus.membersOf (notes.map fun x => x.number - 1),lowerAnchors c⟩ := by
 have hne := h.notes_ne_nil hedg
 have hends : (c.graph.edgeList.map fun e => toString (idNumber e.source) ++ ", " ++
  toString (idNumber e.target)).mapM
  Corpus.edgeEnds = .ok (c.graph.edgeList.map fun e =>
   (Graph.idNumber e.source - 1,Graph.idNumber e.target - 1)) := by
  rw [mapM_map]
  exact mapM_ok fun e _ => edgeEnds_eq _ _
 have hnum : (notes.map fun x => toString x.number).mapM number = .ok (notes.map Note.number) := by
  rw [mapM_map]
  exact mapM_ok fun x _ => number_toString x.number
 rw [h.edgeRows,Corpus.ofTexts,rawLines_pairs _ _ hedg (by decide),hends]
 simp only [bind,Except.bind]
 rw [rawLines_ints Note.number hne,hnum]
 simp only []
 rw [rawLines_pairs _ _ hanc (by decide),foldlM_anchorRow,rawLines_ints Note.label hne]
 simp only [pure,Except.pure,map_map]
 exact congrArg (fun g => Except.ok (Raw.mk g _ _)) (foldl_edges c notes)

lemma entries_pointed (notes : List Note) : (pointed notes).nodes.entries =
 notes.zipIdx.map fun x => (.num x.2,labelled (textRank notes x.1.label)) := by
 rw [pointed,Corpus.labelledNodes,zipIdx_map,map_map]
 rfl

lemma ids_pointed (notes : List Note) :
 (pointed notes).ids = (List.range notes.length).map fun (i : Nat) => .num i := by
 rw [ids,pointed,Corpus.ids_labelledNodes,length_map]

lemma lower_mem (h : Tallied c notes) {n : NodeId} (hn : n ∈ c.graph.ids) :
 lower n ∈ (pointed notes).ids := by
 obtain ⟨i,hi,rfl⟩ := h.mem_ids.1 hn
 rw [ids_pointed]
 exact mem_map.2 ⟨i,mem_range.2 hi,by simp [lower,idNumber]⟩

lemma plain_total (c : Collection) (notes : List Note) : Corpus.Plain (total c notes) := by
 rw [total,← foldl_addEdge_eq rfl,foldl_map]
 exact (Corpus.plain_labelledNodes _).addEdges (fun e => (lower e.source,lower e.target))
  c.graph.edgeList

lemma nodes_total (h : Tallied c notes) : (total c notes).nodes = (pointed notes).nodes := by
 refine (foldl_addListed_frame fun e he => ?_).1
 obtain ⟨f,hf,rfl⟩ := mem_map.1 he
 exact ⟨lower_mem h (h.ends hf).1,lower_mem h (h.ends hf).2⟩

lemma hasEdge_total (h : Tallied c notes) (i j : Int) : (total c notes).hasEdge (.num i) (.num j) =
 (c.graph.hasEdge (.num (i + 1)) (.num (j + 1)) || c.graph.hasEdge (.num (j + 1))
  (.num (i + 1))) := by
 have hlow : ∀ {n : NodeId} {k : Int}, n ∈ c.graph.ids → (lower n = .num k ↔ n = .num (k + 1)) := by
  intro n k hn
  obtain ⟨m,_,rfl⟩ := h.mem_ids.1 hn
  simp only [lower,idNumber,NodeId.num.injEq]
  omega
 have hlis : ∀ u v, c.graph.hasEdge u v ↔ ∃ e ∈ c.graph.edgeList, e.source = u ∧ e.target = v := by
  intro u v
  rw [hasEdge_iff_listed h.sound]
  simp only [joins_iff,h.directed,Bool.true_eq_false,false_and,or_false]
 rw [Bool.eq_iff_iff,Bool.or_eq_true,hlis,hlis,total,hasEdge_entered rfl]
 simp only [mem_map,joins_iff]
 constructor
 · rintro ⟨_,⟨e,he,rfl⟩,hends | hends⟩
   · exact .inl ⟨e,he,(hlow (h.ends he).1).1 hends.1,(hlow (h.ends he).2).1 hends.2⟩
   · exact .inr ⟨e,he,(hlow (h.ends he).1).1 hends.2.1,(hlow (h.ends he).2).1 hends.2.2⟩
 · rintro (⟨e,he,hs,ht⟩ | ⟨e,he,hs,ht⟩)
   · exact ⟨_,⟨e,he,rfl⟩,.inl ⟨(hlow (h.ends he).1).2 hs,(hlow (h.ends he).2).2 ht⟩⟩
   · exact ⟨_,⟨e,he,rfl⟩,.inr ⟨rfl,(hlow (h.ends he).1).2 hs,(hlow (h.ends he).2).2 ht⟩⟩

end MotifMatch.Import

namespace MotifMatch.Corpus
open List MotifMatch.Graph Table NodeId
variable {g : Graph} {k : NodeId → Int}

lemma compactLabels_eq (hg : g.Sound) (hk : ∀ n ∈ g.ids, g.nodeAttr? n "label" = some (.int (k n))) :
 compactLabels g = .ok (g.putEach "label" fun n => .int (rank (g.ids.map k) (k n) + 1)) := by
 have hlab : ∀ e ∈ g.nodes.entries, e.2.get? "label" = some (.int (k e.1)) := by
  intro e he
  have hatt : g.attrs? e.1 = some e.2 := get?_of_mem hg.ids he
  have hid : e.1 ∈ g.ids := mem_map_of_mem he
  simpa [nodeAttr?,hatt] using hk e.1 hid
 have hla : (g.nodes.values.filterMap fun a => a.get? "label") = (g.ids.map k).map .int := by
  rw [values,filterMap_map,ids,Table.keys,map_map,map_map,← filterMap_eq_map]
  exact filterMap_congr hlab
 rw [compactLabels,hla,mapM_ok]
 · rfl
 · intro e he
   have hmem : k e.1 ∈ g.ids.map k := mem_map_of_mem (mem_map_of_mem he)
   simp only [hlab e he,findIdx_sortedLabels hmem]
   rfl

section
variable {h : Graph} {order : List NodeId}

structure Crops (h g : Graph) (order : List NodeId) (k : NodeId → Int) : Prop where
 listable : Listable h
 ids : ∀ n, n ∈ h.ids ↔ ∃ m ∈ order, .num (placeIn order m) = n
 hasEdge : ∀ u ∈ order, ∀ v ∈ order, h.hasEdge (.num (placeIn order u)) (.num (placeIn order v)) =
  g.hasEdge u v
 label : ∀ n ∈ order, h.nodeAttr? (.num (placeIn order n)) "label" =
  some (.int (rank (order.map k) (k n) + 1))
 ascending : h.ids.Pairwise fun m n => idNumber m < idNumber n

lemma pairwise_placeIn (h : order.Nodup) :
 order.Pairwise fun m n => placeIn order m < placeIn order n := by
 rw [pairwise_iff_getElem]
 intro i j hi hj hij
 rw [placeIn,placeIn,h.idxOf_getElem,h.idxOf_getElem]
 exact Int.ofNat_lt.2 hij

lemma get?_zipIdx {α : Type} [BEq α] [LawfulBEq α] {l : List α} {a : α} (h : a ∈ l) (n : Nat) :
 (mk (l.zipIdx n)).get? a = some (n + l.idxOf a) := by
 induction l generalizing n with
 | nil => cases h
 | cons b l ih =>
  rw [zipIdx_cons,get?_mk_cons]
  by_cases hb : b = a
  · subst hb
    simp
  · rw [if_neg (by simpa using hb),ih ((mem_cons.1 h).resolve_left (Ne.symm hb)),idxOf_cons_ne l hb]
    exact congrArg some (by omega)

lemma copies_self (hg : g.Sound) (hm : g.multi = false) : g.Copies g id where
 sound := hg
 multi := hm
 directed := rfl
 inj _ _ _ _ h := h
 ids n := by simp
 label _ _ := rfl
 hasEdge _ _ _ _ := rfl
 edgeLabel _ _ _ _ := rfl

lemma edges_labelled {f : NodeId → NodeId} (hc : h.Copies g f) (hg : g.Sound) (hm : g.multi = false)
 (hedg : ∀ e ∈ g.edges, ∃ l, e.attrs.get? "label" = some (.int l)) :
 ∀ e ∈ h.edges, ∃ l, e.attrs.get? "label" = some (.int l) := by
 intro e he
 obtain ⟨u,hu,hsou⟩ := (hc.ids _).1 (hc.sound.ends e he).1
 obtain ⟨v,hv,htar⟩ := (hc.ids _).1 (hc.sound.ends e he).2
 have hjoi : h.joins (f u) (f v) e := by
  rw [hsou,htar]
  exact joins_self e
 have hatt := (hc.sound.edgeAttrs?_eq_some_iff hc.multi).2 ⟨e,he,hjoi,rfl⟩
 have hedge : (g.edgeAttrs? u v).isSome := by
  rw [isSome_edgeAttrs?,← hc.hasEdge u hu v hv]
  exact hasEdge_iff.2 ⟨e,he,hjoi⟩
 obtain ⟨a,ha⟩ := Option.isSome_iff_exists.1 hedge
 obtain ⟨f',hf',_,rfl⟩ := (hg.edgeAttrs?_eq_some_iff hm).1 ha
 have hlab := hc.edgeLabel u hu v hv
 rw [edgeLabel?,edgeLabel?,hatt,ha,Option.bind_some,Option.bind_some] at hlab
 rw [hlab]
 exact hedg f' hf'

lemma Crops.of_copies (hc : h.Copies g fun n => .num (placeIn g.ids n))
 (hids : h.ids = g.ids.map fun n => .num (placeIn g.ids n))
 (hg : g.Sound) (hm : g.multi = false) (hd : g.directed = false)
 (hedg : ∀ e ∈ g.edges, ∃ l, e.attrs.get? "label" = some (.int l)) {l : NodeId → Int}
 (hl : ∀ n ∈ g.ids, l (.num (placeIn g.ids n)) = rank (g.ids.map k) (k n) + 1) :
 Crops (h.putEach "label" fun n => .int (l n)) g g.ids k := by
 have hlab : ∀ n ∈ h.ids, (h.putEach "label" fun n => .int (l n)).nodeAttr? n "label" =
  some (.int (l n)) := by
  intro n hn
  obtain ⟨a,ha⟩ := exists_attrs hn
  rw [nodeAttr?,attrs?_putEach hc.sound ha,Option.bind_some,get?_put_self]
 have hla := edges_labelled hc hg hm hedg
 refine ⟨⟨hc.sound.putEach _ _,hc.multi,hc.directed.trans hd,?_,hla⟩,?_,hc.hasEdge,?_,?_⟩
 · intro n hn
   rw [ids_putEach] at hn
   obtain ⟨m,_,rfl⟩ := (hc.ids n).1 hn
   exact ⟨_,_,rfl,hlab _ hn⟩
 · rw [ids_putEach]
   exact hc.ids
 · intro n hn
   rw [hlab _ ((hc.ids _).2 ⟨n,hn,rfl⟩),hl n hn]
 · rw [ids_putEach,hids,pairwise_map]
   exact pairwise_placeIn hg.ids

lemma copies_placed (hg : g.Sound) (hm : g.multi = false) :
 (g.renamed fun n => .num (placeIn g.ids n)).Copies g fun n => .num (placeIn g.ids n) :=
 (copies_self hg hm).renamed fun _ hm _ _ heq => placeIn_inj hm (num.inj heq)

lemma compact_crops (hg : g.Sound) (hm : g.multi = false) (hd : g.directed = false)
 (hedg : ∀ e ∈ g.edges, ∃ l, e.attrs.get? "label" = some (.int l))
 (hk : ∀ n ∈ g.ids, g.nodeAttr? n "label" = some (.int (k n))) :
 ∃ h, compactLabels (g.renamed fun n => .num (placeIn g.ids n)) = .ok h ∧ Crops h g g.ids k := by
 have hinj : ∀ m ∈ g.ids, ∀ n ∈ g.ids, num (placeIn g.ids m) = .num (placeIn g.ids n) → m = n :=
  fun m hm n _ heq => placeIn_inj hm (num.inj heq)
 have hcop := copies_placed hg hm
 have hids : (g.renamed fun n => .num (placeIn g.ids n)).ids = g.ids.map fun n =>
  .num (placeIn g.ids n) := by
  rw [ids,Table.keys,entries_renamed hg hm hinj,map_map]
  conv_rhs => rw [ids,Table.keys,map_map]
  rfl
 -- the label that the node at a place had before
 let old : NodeId → Int := fun n => k (g.ids.getD (idNumber n).toNat n)
 have hold : ∀ n ∈ g.ids, old (.num (placeIn g.ids n)) = k n := by
  intro n hn
  simp only [old,placeIn,idNumber,Int.toNat_natCast,getD_eq_getElem?_getD,getElem?_idxOf hn,
   Option.getD_some]
 have hlab : ∀ n ∈ (g.renamed fun n => .num (placeIn g.ids n)).ids,
  (g.renamed fun n => .num (placeIn g.ids n)).nodeAttr? n "label" = some (.int (old n)) := by
  intro n hn
  obtain ⟨m,hmem,rfl⟩ := (hcop.ids n).1 hn
  rw [hold m hmem,hcop.label m hmem,hk m hmem]
 have hran : (g.renamed fun n => .num (placeIn g.ids n)).ids.map old = g.ids.map k := by
  rw [hids,map_map]
  exact map_congr_left hold
 refine ⟨_,compactLabels_eq hcop.sound hlab,.of_copies hcop hids hg hm hd hedg fun n hn => ?_⟩
 rw [hran,hold n hn]

section
variable {v : View}

lemma View.mem_order (v : View) {l : List NodeId} {n : NodeId} : n ∈ v.order l ↔ n ∈ l :=
 (v.perm l).mem_iff

lemma ids_relist (v : View) (g : Graph) : (v.relist g).ids = v.order g.ids := by
 have hkeep : ∀ n ∈ v.order g.ids, ((g.attrs? n).map fun a => (n,a)).map Prod.fst = some n := by
  intro n hn
  obtain ⟨a,ha⟩ := exists_attrs (v.mem_order.1 hn)
  rw [ha]
  rfl
 rw [ids,Table.keys,View.relist,map_filterMap,filterMap_congr hkeep,filterMap_some]

lemma sound_relist (v : View) (hg : g.Sound) : (v.relist g).Sound := by
 refine ⟨?_,fun e he => ?_,?_,hg.edgeAttrs,hg.single⟩
 · rw [ids_relist]
   exact (v.perm g.ids).nodup_iff.2 hg.ids
 · obtain ⟨n,_,he⟩ := mem_filterMap.1 he
   obtain ⟨a,ha,rfl⟩ := Option.map_eq_some_iff.1 he
   exact hg.attrs _ (mem_of_get? ha)
 · rw [ids_relist]
   exact fun e he => (hg.ends e he).imp v.mem_order.2 v.mem_order.2

lemma attrs?_relist (v : View) (hg : g.Sound) {n : NodeId} (hn : n ∈ g.ids) :
 (v.relist g).attrs? n = g.attrs? n := by
 obtain ⟨a,ha⟩ := exists_attrs hn
 rw [ha]
 refine get?_of_mem (sound_relist v hg).ids (mem_filterMap.2 ⟨n,v.mem_order.2 hn,?_⟩)
 rw [ha]
 rfl

abbrev View.part (v : View) (g : Graph) (members : List NodeId) : Graph :=
 v.relist (g.induced members.contains)

lemma mem_part {members : List NodeId} {n : NodeId} :
 n ∈ (v.part g members).ids ↔ n ∈ g.ids ∧ members.contains n := by
 rw [ids_relist,v.mem_order,mem_ids_induced]

lemma attrs?_part (hg : g.Sound) {members : List NodeId} {n : NodeId}
 (hn : n ∈ (v.part g members).ids) :
 (v.part g members).attrs? n = g.attrs? n := by
 rw [ids_relist,v.mem_order] at hn
 rw [attrs?_relist v (hg.induced _) hn,attrs?_induced hg.ids (mem_ids_induced.1 hn).2]

lemma cutOut_eq (hg : g.Sound) (members : List NodeId) : cutOut v g members = do
 let h ← compactLabels ((v.part g members).renamed fun n => .num (placeIn (v.part g members).ids n))
 return (h,(v.part g members).ids.zipIdx) := by
 have hren := renamed_congr (sound_relist v (hg.induced members.contains)) fun n hn =>
  show ((mk (v.part g members).ids.zipIdx).get? n).elim n (fun i => .num i) =
   .num (placeIn (v.part g members).ids n) by
   rw [get?_zipIdx hn,zero_add]
   rfl
 rw [cutOut,hren]

lemma Plain.cutOut_crops (hg : Plain g) {members : List NodeId}
 (hord : (v.part g members).ids = order)
 (hk : ∀ n ∈ order, g.nodeAttr? n "label" = some (.int (k n))) :
 ∃ h, cutOut v g members = .ok (h,order.zipIdx) ∧ Crops h g order k := by
 subst hord
 have hlab : ∀ n ∈ (v.part g members).ids, (v.part g members).nodeAttr? n "label" =
  some (.int (k n)) := by
  intro n hn
  rw [← hk n hn,nodeAttr?,nodeAttr?,attrs?_part hg.sound hn]
 obtain ⟨h,hcom,hcro⟩ :=
  compact_crops (sound_relist v (hg.sound.induced members.contains)) hg.single hg.undirected
  (fun e he => ⟨1,hg.edges e (mem_of_mem_filter he)⟩) hlab
 refine ⟨h,?_,hcro.listable,hcro.ids,fun m hm n hn => ?_,hcro.label,hcro.ascending⟩
 · rw [cutOut_eq hg.sound,hcom]
   rfl
 · rw [hcro.hasEdge m hm n hn]
   exact hasEdge_induced (mem_part.1 hm).2 (mem_part.1 hn).2

end

end
end MotifMatch.Corpus

namespace MotifMatch.Import
open List Table Int MotifMatch.Graph Run
open Corpus (Crops Listable Sources View placeIn rank)
open Corpus (membersOf cutOut separate pick splitKeys)
variable {v : View} {c : Collection} {notes : List Note} {number : Int} {n : NodeId}

structure Slice where
 number : Int
 graph : Graph
 order : List NodeId
 anchor : Nat
 deriving Inhabited

def labelAt (notes : List Note) (n : NodeId) : Int :=
 (notes[(idNumber n).toNat]?.map Note.label).getD 0

def labelsAt (notes : List Note) (number : Int) : List Int :=
 (notes.filter fun x => x.number == number).map Note.label

def orderAt (notes : List Note) (number : Int) : List NodeId :=
 (notes.zipIdx.filter fun x => x.1.number == number).map fun x => .num x.2

lemma mem_orderAt : n ∈ orderAt notes number ↔ ∃ (i : Nat) (x : Note), notes[i]? = some x ∧
 x.number = number ∧ n = .num i := by
 simp only [orderAt,mem_map,mem_filter,beq_iff_eq,Prod.exists,mk_mem_zipIdx_iff_getElem?]
 constructor
 · rintro ⟨x,i,⟨hx,hnum⟩,rfl⟩
   exact ⟨i,x,hx,hnum,rfl⟩
 · rintro ⟨i,x,hx,hnum,rfl⟩
   exact ⟨x,i,⟨hx,hnum⟩,rfl⟩

lemma labelAt_eq {i : Nat} {x : Note} (h : notes[i]? = some x) :
 labelAt notes (.num i) = x.label := by
 simp [labelAt,idNumber,h]

lemma ids_orderAt (h : Tallied c notes) (number : Int) :
 (v.part (total c notes) (orderAt notes number)).ids = v.order (orderAt notes number) := by
 have hkeep : ∀ x ∈ notes.zipIdx, (orderAt notes number).contains (.num x.2) =
  (x.1.number == number) := by
  intro x hx
  have hget := mk_mem_zipIdx_iff_getElem?.1 hx
  rw [Bool.eq_iff_iff,contains_iff_mem,mem_orderAt,beq_iff_eq]
  constructor
  · rintro ⟨i,y,hy,hnum,heq⟩
    obtain rfl : x.2 = i := ofNat.inj (NodeId.num.inj heq)
    rwa [Option.some.inj (hget.symm.trans hy)]
  · exact fun hnum => ⟨x.2,x.1,hget,hnum,rfl⟩
 rw [Corpus.ids_relist]
 refine congrArg v.order ?_
 rw [ids,induced,Table.keys,Table.filter,nodes_total h,entries_pointed,filter_map,map_map,
  orderAt]
 refine congrArg (map _) (filter_congr fun x hx => hkeep x hx)

structure Cut (v : View) (c : Collection) (notes : List Note) (s : Slice) : Prop where
 order : s.order = v.order (orderAt notes s.number)
 crops : Crops s.graph (total c notes) s.order fun n => textRank notes (labelAt notes n)
 anchor : ∃ i : Nat, .num i ∈ s.order ∧ s.anchor = s.order.idxOf (.num i) ∧
  c.anchors.get? s.number = some ((i : Int) + 1)

lemma label_total (h : Tallied c notes) (hn : n ∈ orderAt notes number) :
 (total c notes).nodeAttr? n "label" = some (.int (textRank notes (labelAt notes n))) := by
 obtain ⟨i,x,hx,_,rfl⟩ := mem_orderAt.1 hn
 have hatt : (total c notes).attrs? (.num i) = some (Listing.labelled (textRank notes x.label)) := by
  refine get?_of_mem (plain_total c notes).sound.ids ?_
  rw [nodes_total h,entries_pointed]
  exact mem_map.2 ⟨(x,i),mk_mem_zipIdx_iff_getElem?.2 hx,rfl⟩
 rw [nodeAttr?,hatt,Option.bind_some,get?_labelled,labelAt_eq hx]

lemma rank_orderAt (h : Tallied c notes) {i : Nat} {x : Note} (hx : notes[i]? = some x)
 {order : List NodeId}
 (hord : order.Perm (orderAt notes x.number)) :
 rank (order.map fun n => textRank notes (labelAt notes n)) (textRank notes x.label) =
  rank (labelsAt notes x.number) x.label := by
 have hmem : ∀ l, l ∈ order.map (labelAt notes) ↔ l ∈ labelsAt notes x.number := by
  intro l
  simp only [labelsAt,mem_map,hord.mem_iff,mem_orderAt,mem_filter,beq_iff_eq]
  constructor
  · rintro ⟨_,⟨i,y,hy,hnum,rfl⟩,rfl⟩
    exact ⟨y,⟨mem_of_getElem? hy,hnum⟩,(labelAt_eq hy).symm⟩
  · rintro ⟨y,⟨hy,hnum⟩,rfl⟩
    obtain ⟨i,hi⟩ := mem_iff_getElem?.1 hy
    exact ⟨_,⟨i,y,hi,hnum,rfl⟩,labelAt_eq hi⟩
 have hof : ∀ l ∈ labelsAt notes x.number, ∃ y ∈ notes, y.label = l := by
  intro l hl
  obtain ⟨y,hy,rfl⟩ := mem_map.1 hl
  exact ⟨y,mem_of_mem_filter hy,rfl⟩
 have hself : x.label ∈ labelsAt notes x.number :=
  mem_map_of_mem (mem_filter.2 ⟨mem_of_getElem? hx,beq_self_eq_true _⟩)
 rw [show order.map (fun n => textRank notes (labelAt notes n)) =
  (order.map (labelAt notes)).map (textRank notes) by rw [map_map]; rfl,Corpus.rank_map,
  Corpus.rank_congr hmem]
 · intro a ha b hb
   obtain ⟨y,hy,rfl⟩ := hof a ((hmem a).1 ha)
   obtain ⟨z,hz,rfl⟩ := hof b ((hmem b).1 hb)
   exact textRank_lt_iff h.valid hy hz
 · exact (hmem _).2 hself

section
variable {anchors : List (Value × Value)} {order : Int → List NodeId}

lemma get?_intKeys {ν μ : Type} (f : ν → μ) (l : List (Int × ν)) (k : Int) :
 (mk (l.map fun e => (Value.int e.1,f e.2))).get? (.int k) = ((mk l).get? k).map f :=
 get?_mk_map Value.same_int f l k

def keyed {β : Type} (f : Slice → β) (xs : List (Int × Slice)) : List (Value × β) :=
 xs.map fun x => (.int x.1,f x.2)

def sourcesOf (xs : List (Int × Slice)) : Sources :=
 ⟨keyed Slice.graph xs,keyed (fun s => s.order.zipIdx) xs,keyed Slice.anchor xs⟩

lemma get?_keyed {β : Type} (f : Slice → β) {xs : List (Int × Slice)}
 (hkey : (xs.map Prod.fst).Nodup) {x : Int × Slice}
 (hx : x ∈ xs) : (Table.mk (keyed f xs)).get? (.int x.1) = some (f x.2) := by
 rw [keyed,get?_intKeys,get?_of_mem (t := Table.mk xs) hkey hx]
 rfl

lemma get?_lowerAnchors (h : Tallied c notes) (number : Int) :
 (lowerAnchors c).get? (number - 1) = (c.anchors.get? number).map (· - 1) := by
 have hkeys : ((c.anchors.entries.map fun e => (e.1 - 1,e.2 - 1)).map Prod.fst).Nodup := by
  have hmap := h.anchorKeys.map (f := fun k => k - 1) fun i j heq => by simpa using heq
  rw [Table.keys,map_map] at hmap
  rwa [map_map]
 have hkey : ∀ i j : Int, (i - 1 == j - 1) = (i == j) := by
  intro i j
  rw [Bool.eq_iff_iff,beq_iff_eq,beq_iff_eq]
  omega
 rw [get?,lowerAnchors,entries_ofList hkeys]
 exact get?_mk_map hkey (· - 1) c.anchors.entries number

lemma filterMap_ite {α β : Type} (p : α → Bool) (f : α → β) (l : List α) :
 (l.filterMap fun a => if p a then some (f a) else none) = (l.filter p).map f := by
 induction l with
 | nil => rfl
 | cons a l ih => cases hp : p a <;> simp [hp,ih]

lemma membersOf_eq (notes : List Note) : ∃ ks :
 List Int, ks.Nodup ∧ (∀ k, k ∈ ks ↔ ∃ x ∈ notes, x.number = k + 1) ∧
 (membersOf (notes.map fun x => x.number - 1)).entries.map
  (fun e => (Value.int e.1,e.2.map fun i => .num i)) = ks.map fun k =>
   (.int k,orderAt notes (k + 1)) := by
 refine ⟨_,Corpus.nodup_eraseDups ((notes.map fun x => x.number - 1).mergeSort fun a b =>
  decide (a ≤ b)),fun k => ?_,?_⟩
 · rw [mem_eraseDups,mem_mergeSort,mem_map]
   exact exists_congr fun x => and_congr_right fun _ => ⟨fun h => by omega,fun h => by omega⟩
 · rw [membersOf,map_map]
   refine map_congr_left fun k _ => congrArg (Prod.mk _) ?_
   dsimp only
   rw [filterMap_ite,zipIdx_map,filter_map,map_map,map_map,orderAt]
   refine congrArg (map _) (filter_congr fun x _ => ?_)
   rw [Bool.eq_iff_iff,Function.comp_apply,beq_iff_eq,beq_iff_eq]
   exact ⟨fun h : x.1.number - 1 = k => by omega,fun h => show x.1.number - 1 = k by omega⟩

lemma foldl_sources (slice : Int → Slice) (ks : List Int) (s : Sources) :
 ks.foldl (fun s k => ⟨s.graphs ++ [(.int k,(slice k).graph)],
  s.names ++ [(.int k,(slice k).order.zipIdx)],
  s.anchors ++ [(.int k,(slice k).anchor)]⟩) s =
  let t := sourcesOf (ks.map fun k => (k,slice k))
  ⟨s.graphs ++ t.graphs,s.names ++ t.names,s.anchors ++ t.anchors⟩ := by
 induction ks generalizing s with
 | nil => simp [sourcesOf,keyed]
 | cons k ks ih =>
  rw [foldl_cons,ih]
  simp [sourcesOf,keyed]

lemma separate_eq {g : Graph} {ks : List Int} {slice : Int → Slice}
 (h : ∀ k ∈ ks, cutOut v g (order k) = .ok ((slice k).graph,(slice k).order.zipIdx) ∧
  ∃ n : Int, (mk anchors).get? (.int k) = some (.int n) ∧
   (mk (slice k).order.zipIdx).get? (.num n) = some (slice k).anchor) :
 separate v g (ks.map fun k => (.int k,order k)) anchors =
  .ok (sourcesOf (ks.map fun k => (k,slice k))) := by
 rw [separate,foldlM_map,foldlM_eq_ok,foldl_sources]
 · rfl
 · intro s k hk
   obtain ⟨hcut,n,hn,hpla⟩ := h k hk
   simp only [hcut,hn,bind,Except.bind,NodeId.ofValue?,hpla]
   rfl

lemma separate_error {g : Graph} {ks : List Int}
 (hcut : ∀ k ∈ ks, ∃ x, cutOut v g (order k) = .ok x) {k : Int} (hk : k ∈ ks)
 (hnone : (mk anchors).get? (.int k) = none) :
 separate v g (ks.map fun k => (.int k,order k)) anchors = .error .missingKey := by
 rw [separate,foldlM_map]
 refine foldlM_eq_error (P := fun _ => True) (fun s _ j hj => ?_) hk (fun s _ => ?_) trivial
 · obtain ⟨x,hx⟩ := hcut j hj
   simp only [hx,bind,Except.bind]
   split
   · exact .inr rfl
   · split
     · exact .inr rfl
     · split
       · exact .inr rfl
       · exact .inl ⟨_,rfl,trivial⟩
 · obtain ⟨x,hx⟩ := hcut k hk
   simp only [hx,bind,Except.bind,hnone]
   rfl

variable (h : Tallied c notes)
include h

lemma cutOut_total (v : View) (number : Int) :
 ∃ g, cutOut v (total c notes) (orderAt notes number) =
  .ok (g,(v.order (orderAt notes number)).zipIdx) ∧
  Crops g (total c notes) (v.order (orderAt notes number)) fun n =>
   textRank notes (labelAt notes n) := by
 exact (plain_total c notes).cutOut_crops (ids_orderAt h number) fun n hn =>
  label_total h (v.mem_order.1 hn)

lemma exists_slice {k a : Int} (ha : c.anchors.get? (k + 1) = some a) :
 ∃ s, (cutOut v (total c notes) (orderAt notes (k + 1)) = .ok (s.graph,s.order.zipIdx) ∧
  ∃ n : Int, (lowerAnchors c).get? k = some n ∧ (mk s.order.zipIdx).get? (.num n) = some s.anchor) ∧
  Cut v c notes s ∧ s.number = k + 1 := by
 obtain ⟨i,x,hx,hnum,rfl⟩ := h.anchors _ _ ha
 have hmem : .num i ∈ v.order (orderAt notes (k + 1)) :=
  v.mem_order.2 (mem_orderAt.2 ⟨i,x,hx,hnum,rfl⟩)
 obtain ⟨g,hcut,hcro⟩ := cutOut_total h v (k + 1)
 refine ⟨⟨k + 1,g,v.order (orderAt notes (k + 1)),(v.order (orderAt notes (k + 1))).idxOf (.num i)⟩,
  ⟨hcut,i,?_,?_⟩,
  ⟨rfl,hcro,i,hmem,rfl,ha⟩,rfl⟩
 · have hlow := get?_lowerAnchors h (k + 1)
   rwa [ha,Option.map_some,Int.add_sub_cancel,Int.add_sub_cancel] at hlow
 · rw [Corpus.get?_zipIdx hmem,zero_add]

lemma sources_ok (hanc : ∀ x ∈ notes, ∃ a, c.anchors.get? x.number = some a) :
 ∃ xs : List (Int × Slice), Corpus.Raw.sources v ⟨total c notes,
  membersOf (notes.map fun x => x.number - 1),lowerAnchors c⟩ =
  .ok (sourcesOf xs) ∧ (xs.map Prod.fst).Nodup ∧
   (∀ x ∈ xs, Cut v c notes x.2 ∧ x.2.number = x.1 + 1) ∧
  ∀ y ∈ notes, ∃ x ∈ xs, x.2.number = y.number := by
 obtain ⟨ks,hnod,hmem,hme⟩ := membersOf_eq notes
 have hsl : ∀ k ∈ ks, ∃ s, (cutOut v (total c notes) (orderAt notes (k + 1)) =
  .ok (s.graph,s.order.zipIdx) ∧
  ∃ n : Int, (lowerAnchors c).get? k = some n ∧ (mk s.order.zipIdx).get? (.num n) = some s.anchor) ∧
  Cut v c notes s ∧ s.number = k + 1 := by
  intro k hk
  obtain ⟨x,hx,hnum⟩ := (hmem k).1 hk
  obtain ⟨a,ha⟩ := hanc x hx
  exact exists_slice h (hnum ▸ ha)
 choose! slice hsli using hsl
 refine ⟨ks.map fun k => (k,slice k),?_,?_,?_,?_⟩
 · rw [Corpus.Raw.sources,hme]
   refine separate_eq fun k hk => ?_
   obtain ⟨⟨hcut,n,hn,hpla⟩,_⟩ := hsli k hk
   refine ⟨hcut,n,?_,hpla⟩
   rw [get?_intKeys,show (mk (lowerAnchors c).entries).get? k = some n from hn]
   rfl
 · rwa [map_map,show (Prod.fst ∘ fun k => (k,slice k)) = id from rfl,map_id]
 · intro x hx
   obtain ⟨k,hk,rfl⟩ := mem_map.1 hx
   exact (hsli k hk).2
 · intro y hy
   have hk : y.number - 1 ∈ ks := (hmem _).2 ⟨y,hy,by omega⟩
   refine ⟨_,mem_map_of_mem hk,?_⟩
   rw [(hsli _ hk).2.2]
   omega

lemma sources_error {x : Note} (hx : x ∈ notes) (hnone : c.anchors.get? x.number = none) :
 Corpus.Raw.sources v ⟨total c notes,membersOf (notes.map fun x => x.number - 1),lowerAnchors c⟩ =
  .error .missingKey := by
 obtain ⟨ks,_,hmem,hme⟩ := membersOf_eq notes
 have hk : x.number - 1 ∈ ks := (hmem _).2 ⟨x,hx,by omega⟩
 rw [Corpus.Raw.sources,hme]
 refine separate_error (fun k _ => ?_) hk ?_
 · obtain ⟨g,hcut,_⟩ := cutOut_total h v (k + 1)
   exact ⟨_,hcut⟩
 · rw [get?_intKeys,show (mk (lowerAnchors c).entries).get? (x.number - 1) =
    _ from get?_lowerAnchors h x.number,hnone]
   rfl

end

variable {xs ys : List (Int × Slice)} {σ : Session}

lemma exists_perm_of_map {α β : Type} {f : α → β} {l m : List β} (h : l.Perm m) :
 ∀ {xs : List α}, xs.map f = m → ∃ ys : List α, ys.Perm xs ∧ ys.map f = l := by
 induction h with
 | nil => exact fun h => ⟨[],by simpa using h.symm,rfl⟩
 | cons b h ih =>
  intro xs hxs
  obtain ⟨a,as,rfl,rfl,hmap⟩ := map_eq_cons_iff.1 hxs
  obtain ⟨ys,hper,hys⟩ := ih hmap
  exact ⟨a :: ys,hper.cons a,by rw [map_cons,hys]⟩
 | swap b b' l =>
  intro xs hxs
  obtain ⟨a,as,rfl,rfl,hmap⟩ := map_eq_cons_iff.1 hxs
  obtain ⟨a',as',rfl,rfl,hmap'⟩ := map_eq_cons_iff.1 hmap
  exact ⟨a' :: a :: as',.swap a a' as',by rw [map_cons,map_cons,hmap']⟩
 | trans h h' ih ih' =>
  intro xs hxs
  obtain ⟨ys,hper,hys⟩ := ih' hxs
  obtain ⟨zs,hper',hzs⟩ := ih hys
  exact ⟨zs,hper'.trans hper,hzs⟩

def renumbered (xs : List (Int × Slice)) : List (Int × Slice) := xs.zipIdx.map fun x => (x.2,x.1.2)

lemma pick_keyed {β : Type} (f : Slice → β) (hkey : (xs.map Prod.fst).Nodup)
 (hys : ∀ y ∈ ys, y ∈ xs) :
 pick (keyed f xs) (ys.map fun y => .int y.1) = .ok (keyed f (renumbered ys)) := by
 have hnew : keyed f (renumbered ys) = ys.zipIdx.map fun y => (.int y.2,f y.1.2) := by
  rw [keyed,renumbered,map_map]
  rfl
 rw [pick,zipIdx_map,mapM_map,hnew]
 refine mapM_ok fun y hy => ?_
 simp only [Function.comp_apply,Prod.map_fst,get?_keyed f hkey (hys y.1 (fst_mem_of_mem_zipIdx hy))]
 rfl

lemma pick_sourcesOf (hkey : (xs.map Prod.fst).Nodup) (hys : ∀ y ∈ ys, y ∈ xs) :
 (sourcesOf xs).pick (ys.map fun y => .int y.1) = .ok (sourcesOf (renumbered ys)) := by
 simp only [Sources.pick,sourcesOf,pick_keyed _ hkey hys,bind,Except.bind]
 rfl

lemma ends_splitKeys (keys : List Value) (ratio : Float) (σ : Session) :
 ∃ (ks : List Value) (i : Nat) (st : Streams),
 ks.Perm keys ∧ Ends (draw (splitKeys keys ratio)) σ (.ok (ks.take i,ks.drop i))
  { σ with streams := st } :=
 ⟨(σ.streams.shuffling.shuffle keys).1,_,
  { σ.streams with shuffling := (σ.streams.shuffling.shuffle keys).2 },
  Stream.shuffle_perm keys σ.streams.shuffling,ends_draw (splitKeys keys ratio) σ⟩

lemma ends_split (hkey : (xs.map Prod.fst).Nodup) (σ : Session) : ∃ ys zs σ', (ys ++ zs).Perm xs ∧
 Ends (sourcesOf xs).split σ (.ok (sourcesOf (renumbered ys),sourcesOf (renumbered zs))) σ' ∧
  σ'.files = σ.files ∧ σ'.settings = σ.settings := by
 have hnam : xs.map (fun x => .int x.1) = (sourcesOf xs).graphs.map Prod.fst := by
  rw [sourcesOf,keyed,map_map]
  rfl
 obtain ⟨ks,i,st,hper,hdraw⟩ := ends_splitKeys ((sourcesOf xs).graphs.map Prod.fst) 0.8 σ
 obtain ⟨ws,hws,rfl⟩ := exists_perm_of_map hper hnam
 rw [← map_take,← map_drop] at hdraw
 have htra := pick_sourcesOf hkey fun y hy => hws.mem_iff.1 (mem_of_mem_take (i := i) hy)
 have htest := pick_sourcesOf hkey fun y hy => hws.mem_iff.1 (mem_of_mem_drop (i := i) hy)
 exact ⟨ws.take i,ws.drop i,{ σ with streams := st },by rwa [take_append_drop],
  hdraw.bind ((ends_ofExcept_ok htra).bind ((ends_ofExcept_ok htest).bind (ends_pure _ _))),rfl,rfl⟩

end MotifMatch.Import
