import MotifMatch.Proofs.TextGrowth

namespace MotifMatch
open List MotifMatch.Graph Nat Text Value NodeId Int
variable {n : NodeId}

lemma Text.length_toString_eq_one_iff {k : Int} (hk : 0 < k) : (toString k).length = 1 ↔ k < 10 := by
 have hpos : 0 < (toDigits 10 k.natAbs).length := length_toDigits_pos
 have hle := length_toDigits_le_iff (b := 10) (n := k.natAbs) (k := 1) (by decide) (by decide)
 rw [← String.length_toList,toList_toString_int,if_pos hk.le,nil_append]
 omega

lemma Text.join_inj {xs ys : List String} (hx : ∀ x ∈ xs, x.length = 1) (hy : ∀ y ∈ ys, y.length = 1)
 (h : String.join xs = String.join ys) : xs = ys := by
 rw [← String.toList_inj,String.toList_join,String.toList_join] at h
 induction xs generalizing ys with
 | nil =>
  cases ys with
  | nil => rfl
  | cons y ys =>
   have hlen := hy y (by simp)
   rw [← String.length_toList] at hlen
   simp_all
 | cons x xs ih =>
  cases ys with
  | nil =>
   have hlen := hx x (by simp)
   rw [← String.length_toList] at hlen
   simp_all
  | cons y ys =>
   rw [flatMap_cons,flatMap_cons] at h
   have hlen : x.toList.length = y.toList.length := by
    rw [String.length_toList,String.length_toList,hx x (by simp),hy y (by simp)]
   obtain ⟨hhead,hres⟩ := append_inj h hlen
   rw [String.toList_inj.1 hhead,ih (fun z hz => hx z (by simp [hz]))
    (fun z hz => hy z (by simp [hz])) hres]

def Graph.PositiveLabels (g : Graph) : Prop := ∀ n ∈ g.ids, ∃ k :
 Int, 0 < k ∧ g.nodeAttr? n "label" = some (.int k)

def Graph.OneDigit (g : Graph) (n : NodeId) : Prop :=
 ∃ k : Int, k < 10 ∧ g.nodeAttr? n "label" = some (.int k)

variable {g : Graph}

lemma Graph.PositiveLabels.printable (hl : g.PositiveLabels) : g.Printable := by
 intro n hn
 obtain ⟨k,_,hk⟩ := hl n hn
 refine ⟨_,hk,?_⟩
 rw [text_int,ne_eq,← String.toList_eq_nil_iff,toList_toString_int]
 simp

lemma Graph.PositiveLabels.length_eq_one_iff (hl : g.PositiveLabels) (hn : n ∈ g.ids) :
 ((g.nodeAttr? n "label").getD .none).text.length = 1 ↔ g.OneDigit n := by
 obtain ⟨k,hpos,hk⟩ := hl n hn
 rw [hk,Option.getD_some,text_int,length_toString_eq_one_iff hpos,OneDigit,hk]
 constructor
 · exact fun hlt => ⟨k,hlt,rfl⟩
 · rintro ⟨j,hlt,hj⟩
   obtain rfl : k = j := by simpa using hj
   exact hlt

lemma Graph.PositiveLabels.length_labelText (hl : g.PositiveLabels) {w : List NodeId}
 (hw : ∀ n ∈ w, n ∈ g.ids) :
 w.length ≤ (g.labelText w).length ∧ ((g.labelText w).length = w.length ↔ ∀ n ∈ w,
  g.OneDigit n) := by
 induction w with
 | nil => simp [labelText]
 | cons n w ih =>
  obtain ⟨hle,hiff⟩ := ih fun x hx => hw x (by simp [hx])
  have hone := hl.length_eq_one_iff (hw n (by simp))
  have hpos : 0 < ((g.nodeAttr? n "label").getD .none).text.length := by
   obtain ⟨v,hv,hne⟩ := hl.printable n (hw n (by simp))
   rw [hv]
   exact pos_of_ne_zero fun h => hne (String.length_eq_zero_iff.1 h)
  have hcons : (g.labelText (n :: w)).length =
   ((g.nodeAttr? n "label").getD .none).text.length + (g.labelText w).length := by
   rw [← String.length_append]
   congr 1
   rw [← String.toList_inj]
   simp [labelText]
  rw [hcons,length_cons,forall_mem_cons,← hone,← hiff]
  omega

lemma Graph.OneDigit.mem (h : g.OneDigit n) : n ∈ g.ids := by
 obtain ⟨k,_,hk⟩ := h
 by_contra hn
 rw [nodeAttr?_of_not_mem hn] at hk
 cases hk

lemma Graph.PositiveLabels.labels_eq (hl : g.PositiveLabels) {v w : List NodeId}
 (hv : ∀ n ∈ v, g.OneDigit n)
 (hw : ∀ n ∈ w, g.OneDigit n) (h : g.labelText v = g.labelText w) :
 v.map (g.nodeAttr? · "label") = w.map (g.nodeAttr? · "label") := by
 have hone : ∀ n, g.OneDigit n → ((g.nodeAttr? n "label").getD .none).text.length = 1 := fun n hn =>
  (hl.length_eq_one_iff hn.mem).2 hn
 have htex := join_inj (by simpa using fun n hn => hone n (hv n hn))
  (by simpa using fun n hn => hone n (hw n hn)) h
 have hread : ∀ n, g.OneDigit n → g.nodeAttr? n "label" =
  (int? ((g.nodeAttr? n "label").getD .none).text).map int := by
  rintro n ⟨k,_,hk⟩
  rw [hk,Option.getD_some,text_int,int?_toString,Option.map_some]
 calc v.map (g.nodeAttr? · "label")
     = (v.map fun n => ((g.nodeAttr? n "label").getD .none).text).map fun x => (int? x).map int := by
       rw [map_map]
       exact map_congr_left fun n hn => hread n (hv n hn)
   _ = (w.map fun n => ((g.nodeAttr? n "label").getD .none).text).map fun x => (int? x).map int := by
       rw [htex]
   _ = w.map (g.nodeAttr? · "label") := by
       rw [map_map]
       exact map_congr_left fun n hn => (hread n (hw n hn)).symm

namespace Normal
variable {m : Manner} {t : Graph} {a : NodeId} {limit : Int} {s : Growth} {done : List Trail}
 {paths : Table String (List Nat)}
section

def wayTo (paths : Table String (List Nat)) : NodeId → List Nat
 | .num i => ((paths.entries[i.toNat]?).map Prod.snd).getD []
 | .name _ => []

lemma wayTo_num {i : Nat} {x : String} {path : List Nat} (hi : paths.entries[i]? = some (x,path)) :
 wayTo paths (.num i) = path := by
 simp [wayTo,hi]

variable {e : NodeId × Bool} {rest : Trail}

lemma Stems.cases (hr : Grounded m g) (hl : g.Printable) (hk : Kept m g done paths s) {i : Nat}
 {x : String}
 {path : List Nat} (hs : Stems m g done paths s.tree i x path e rest) :
 rest = [] ∧ path = [i] ∨
  ∃ j q, j < i ∧ paths.entries[j]? = some (g.walkText rest.reverse,q) ∧ path = q ++ [i] := by
 rcases hs.before with rfl | hres
 · refine .inl ⟨rfl,?_⟩
   rw [hs.path,reverse_nil,walkText_nil,Table.getD,
    (Table.get?_eq_none_iff _ _).2 (hk.empty_not_mem hr hl)]
   rfl
 · obtain ⟨j,q,hj,hq⟩ := hk.exists_place (hk.seen _ hres)
   obtain ⟨e',rest',hs'⟩ := hk.origin j _ q hj
   refine .inr ⟨j,q,hs.later j ?_,hj,by rw [hs.path,hq]⟩
   rw [hq,hs'.path]
   simp

lemma Kept.getLast?_path (hk : Kept m g done paths s) {i : Nat} {x : String} {path : List Nat}
 (hi : paths.entries[i]? = some (x,path)) : path.getLast? = some i := by
 obtain ⟨e,rest,hs⟩ := hk.origin i x path hi
 rw [hs.path,getLast?_concat]

lemma Kept.place_inj (hk : Kept m g done paths s) {i j : Nat} {x : String} {p q : List Nat}
 (hi : paths.entries[i]? = some (x,p)) (hj : paths.entries[j]? = some (x,q)) : i = j := by
 have hlt : i < paths.keys.length := by
  rw [Table.keys,length_map]
  exact lt_length hi
 refine (getElem?_inj hlt hk.nodup).1 ?_
 rw [Table.keys,getElem?_map,getElem?_map,hi,hj]
 rfl

section
variable (hr : Grounded m g) (hl : g.Printable) (hk : Kept m g done paths s)
include hr hl hk

lemma Stems.of_zero {x : String} {path : List Nat}
 (hs : Stems m g done paths s.tree 0 x path e rest) : rest = [] ∧ path = [0] := by
 rcases hs.cases hr hl hk with h | ⟨j,_,hj,_⟩
 · exact h
 · exact absurd hj (not_lt_zero j)

lemma Kept.path_zero (hne : 0 < paths.size) : ∃ x, paths.entries[0]? = some (x,[0]) := by
 obtain ⟨⟨x,path⟩,h0⟩ : ∃ z, paths.entries[0]? = some z := ⟨_,getElem?_eq_getElem hne⟩
 obtain ⟨e,rest,hs⟩ := hk.origin 0 x path h0
 exact ⟨x,(hs.of_zero hr hl hk).2 ▸ h0⟩

lemma Kept.root_iff {i : Nat} {x : String} {path : List Nat} (hi : paths.entries[i]? = some (x,path))
 (hs : Stems m g done paths s.tree i x path e rest) : rest = [] ↔ i = 0 := by
 have hsta : ∀ {e' : NodeId × Bool}, [e'] ∈ done → e' = (m.anchor,false) := by
  intro e' he'
  cases hk.roams _ he'
  rfl
 constructor
 · rintro rfl
   obtain ⟨y,h0⟩ := hk.path_zero hr hl (lt_of_le_of_lt (zero_le i) (lt_length hi))
   obtain ⟨e₀,rest₀,hs₀⟩ := hk.origin 0 y _ h0
   obtain ⟨rfl,-⟩ := hs₀.of_zero hr hl hk
   have hx : x = y := by rw [hs.text,hs₀.text,hsta hs.visited,hsta hs₀.visited]
   exact hk.place_inj hi (hx ▸ h0)
 · rintro rfl
   exact (hs.of_zero hr hl hk).1

lemma Kept.root_prefix : ∀ {i : Nat} {x : String}
 {path : List Nat}, paths.entries[i]? = some (x,path) → [0] <+: path := by
 intro i
 induction i using Nat.strong_induction_on with
 | h i ih =>
  intro x path hi
  obtain ⟨e,rest,hs⟩ := hk.origin i x path hi
  rcases hs.cases hr hl hk with ⟨hres,rfl⟩ | ⟨j,q,hj,hq,rfl⟩
  · rw [(hk.root_iff hr hl hi hs).1 hres]
  · exact (ih j hj hq).trans (prefix_append _ _)

end

lemma Kept.mem_ids_iff (hk : Kept m g done paths s) :
 n ∈ s.tree.ids ↔ ∃ (i : Nat) (x : String) (path : List Nat), paths.entries[i]? = some (x,path) ∧
  n = .num i := by
 rw [hk.ids,mem_map]
 constructor
 · rintro ⟨i,hi,rfl⟩
   obtain ⟨⟨x,path⟩,hx⟩ : ∃ z, paths.entries[i]? = some z := ⟨_,getElem?_eq_getElem (mem_range.1 hi)⟩
   exact ⟨i,x,path,hx,rfl⟩
 · rintro ⟨i,x,path,hi,rfl⟩
   exact ⟨i,mem_range.2 (lt_length hi),rfl⟩

variable (hr : Grounded m g) (hl : g.Printable) (hk : Kept m g done paths s)
include hr hl hk

lemma Kept.step_iff {i j : Nat} {x y : String}
 {p q : List Nat} (hi : paths.entries[i]? = some (x,p)) (hj : paths.entries[j]? = some (y,q)) :
 (∃ z path, (z,path ++ [i,j]) ∈ paths.entries) ↔ Prolongs p q := by
 constructor
 · rintro ⟨z,path,hmem⟩
   obtain ⟨k,hk'⟩ := mem_iff_getElem?.1 hmem
   obtain rfl : j = k := by simpa using hk.getLast?_path hk'
   obtain ⟨rfl,rfl⟩ := Prod.mk.inj (Option.some.inj (hj.symm.trans hk'))
   obtain ⟨e,rest,hs⟩ := hk.origin j y _ hj
   have hspl : path ++ [i,j] = (path ++ [i]) ++ [j] := by simp
   rcases hs.cases hr hl hk with ⟨_,hone⟩ | ⟨l,r,_,hr',hpath⟩
   · simpa using congrArg length hone
   · rw [hspl] at hpath ⊢
     obtain ⟨rfl,-⟩ := append_inj' hpath rfl
     obtain rfl : i = l := by simpa using hk.getLast?_path hr'
     rw [(Prod.mk.inj (Option.some.inj (hi.symm.trans hr'))).2]
     exact ⟨j,rfl⟩
 · rintro ⟨l,rfl⟩
   obtain rfl : l = j := by simpa using hk.getLast?_path hj
   obtain ⟨path,rfl⟩ := getLast?_eq_some_iff.1 (hk.getLast?_path hi)
   exact ⟨y,path,mem_of_getElem? (by simpa using hj)⟩

lemma Kept.trie (hne : 0 < paths.size) : Trie s.tree (wayTo paths) where
 inj := by
  intro u hu v hv huv
  obtain ⟨i,x,p,hi,rfl⟩ := hk.mem_ids_iff.1 hu
  obtain ⟨j,y,q,hj,rfl⟩ := hk.mem_ids_iff.1 hv
  rw [wayTo_num hi,wayTo_num hj] at huv
  have hlast := hk.getLast?_path hi
  rw [huv,hk.getLast?_path hj] at hlast
  rw [Option.some.inj hlast]
 joined := by
  intro u hu v hv
  obtain ⟨i,x,p,hi,rfl⟩ := hk.mem_ids_iff.1 hu
  obtain ⟨j,y,q,hj,rfl⟩ := hk.mem_ids_iff.1 hv
  rw [wayTo_num hi,wayTo_num hj,hk.edges,← hk.step_iff hr hl hi hj,← hk.step_iff hr hl hj hi]
  simp only [num.injEq,natCast_inj]
  constructor
  · rintro ⟨z,path,k,l,hmem,⟨rfl,rfl⟩ | ⟨rfl,rfl⟩⟩
    · exact .inl ⟨z,path,hmem⟩
    · exact .inr ⟨z,path,hmem⟩
  · rintro (⟨z,path,hmem⟩ | ⟨z,path,hmem⟩)
    · exact ⟨z,path,i,j,hmem,.inl ⟨rfl,rfl⟩⟩
    · exact ⟨z,path,j,i,hmem,.inr ⟨rfl,rfl⟩⟩
 root := by
  obtain ⟨x,h0⟩ := hk.path_zero hr hl hne
  refine ⟨.num (0 : Nat),hk.mem_ids.2 hne,by rw [wayTo_num h0]; rfl,fun v hv => ?_⟩
  obtain ⟨j,y,q,hj,rfl⟩ := hk.mem_ids_iff.1 hv
  rw [wayTo_num h0,wayTo_num hj]
  exact hk.root_prefix hr hl hj
 parent := by
  intro v hv hlen
  obtain ⟨i,x,p,hi,rfl⟩ := hk.mem_ids_iff.1 hv
  obtain ⟨e,rest,hs⟩ := hk.origin i x p hi
  rw [wayTo_num hi] at hlen ⊢
  rcases hs.cases hr hl hk with ⟨_,rfl⟩ | ⟨j,q,_,hj,rfl⟩
  · simp at hlen
  · exact ⟨.num j,hk.mem_ids_iff.2 ⟨j,_,q,hj,rfl⟩,i,by rw [wayTo_num hj]⟩

lemma Kept.anchoredAt (ha : g.AnchoredAt m.anchor) (hne : 0 < paths.size) :
 s.tree.AnchoredAt (.num (0 : Nat)) := by
 rw [anchoredAt_iff] at ha ⊢
 intro n
 by_cases hn : n ∈ s.tree.ids
 · obtain ⟨i,x,path,hi,rfl⟩ := hk.mem_ids_iff.1 hn
   obtain ⟨e,rest,hs⟩ := hk.origin i x path hi
   -- a trail is at the anchor only where it starts
   have hback : e.1 = m.anchor ↔ rest = [] := by
    constructor
    · intro he
      cases hk.roams _ hs.visited with
      | start => rfl
      | step _ _ hne _ => exact absurd he hne
    · rintro rfl
      cases hk.roams _ hs.visited
      rfl
   rw [hs.shows "anchor" (by decide),ha,hback,hk.root_iff hr hl hi hs,num.injEq,natCast_inj]
 · have hzero : num (0 : Nat) ∈ s.tree.ids := hk.mem_ids.2 hne
   have hoth : n ≠ .num (0 : Nat) := fun h => hn (h ▸ hzero)
   rw [nodeAttr?_of_not_mem hn]
   exact iff_of_false (by simp) hoth

lemma Kept.rising (ha : g.AnchoredAt m.anchor) (hne : 0 < paths.size) :
 Rising s.tree (wayTo paths) := by
 have hids : s.tree.ids.Nodup := by
  rw [hk.ids]
  exact nodup_range.map fun i j h => by simpa using h
 have hanc : s.tree.anchor = .num (0 : Nat) := (hk.anchoredAt hr hl ha hne).anchor_eq hids
 obtain ⟨x,h0⟩ := hk.path_zero hr hl hne
 exact ⟨hk.trie hr hl hne,hanc ▸ hk.mem_ids.2 hne,by rw [hanc,wayTo_num h0]; rfl⟩

lemma Kept.labelText_path (hd : g.directed = false) :
 ∀ {i : Nat} {x : String} {path : List Nat}, paths.entries[i]? = some (x,path) →
  s.tree.labelText (path.map fun j : Nat => .num j) = x := by
 intro i
 induction i using Nat.strong_induction_on with
 | h i ih =>
  intro x path hi
  obtain ⟨e,rest,hs⟩ := hk.origin i x path hi
  have hlast : s.tree.labelText [.num i] = g.stepText e := by
   simp [Graph.labelText,Graph.stepText,hd,hs.shows "label" (by decide)]
  rw [hs.text,walkText_cons]
  rcases hs.cases hr hl hk with ⟨rfl,rfl⟩ | ⟨j,q,hj,hq,rfl⟩
  · rw [map_singleton,hlast,reverse_nil,walkText_nil,String.empty_append]
  · have happ : s.tree.labelText ((q ++ [i]).map fun j : Nat => .num j) =
     s.tree.labelText (q.map fun j : Nat => .num j) ++ s.tree.labelText [.num i] := by
     rw [← String.toList_inj]
     simp [Graph.labelText]
    rw [happ,ih j hj hq,hlast]

lemma Kept.reads_iff (ha : g.AnchoredAt m.anchor)
 (hd : g.directed = false) (hne : 0 < paths.size) {x : String} : Reads s.tree n x ↔
  ∃ (i : Nat) (path : List Nat), paths.entries[i]? = some (x,path) ∧ n = .num i := by
 have hris := hk.rising hr hl ha hne
 have hnode : ∀ n ∈ s.tree.ids, (wayTo paths n).getLast?.map (fun j : Nat => num j) = some n := by
  intro n hn
  obtain ⟨i,x,path,hi,rfl⟩ := hk.mem_ids_iff.1 hn
  rw [wayTo_num hi,hk.getLast?_path hi]
  rfl
 constructor
 · rintro ⟨p,hp,hlast,rfl⟩
   obtain ⟨i,x,path,hi,rfl⟩ := hk.mem_ids_iff.1 (hp.mem n (mem_of_getLast? hlast))
   rw [hp.eq_map hris hnode hlast,wayTo_num hi,hk.labelText_path hr hl hd hi]
   exact ⟨i,path,hi,rfl⟩
 · rintro ⟨i,path,hi,rfl⟩
   obtain ⟨p,hp,hlast⟩ := hris.exists_path (hk.mem_ids_iff.2 ⟨i,x,path,hi,rfl⟩)
   refine ⟨p,hp,hlast,?_⟩
   rw [hp.eq_map hris hnode hlast,wayTo_num hi,hk.labelText_path hr hl hd hi]

end

lemma map_fst_trailOf (w : List NodeId) : (trailOf w).reverse.map Prod.fst = w := by
 cases w <;> simp [trailOf,Function.comp_def]

lemma admissible_iff_isWalk (hd : g.directed = false) {t : Trail} : Admissible g a limit t.reverse ↔
 ∃ w, IsWalk g a w ∧ ((g.labelText w.dropLast).length) < limit ∧ trailOf w = t := by
 have htail : ∀ w : List NodeId, g.walkText (trailOf w).tail.reverse = g.labelText w.dropLast := by
  intro w
  rw [walkText_undirected hd,← dropLast_reverse,map_dropLast,map_fst_trailOf]
 rw [admissible_reverse_iff (m := ⟨false,limit,a⟩) hd.symm,roams_iff_walk rfl]
 constructor
 · rintro ⟨⟨w,hw,rfl⟩,hlim⟩
   exact ⟨w,hw,htail w ▸ hlim,rfl⟩
 · rintro ⟨w,hw,hlim,rfl⟩
   exact ⟨⟨w,hw,rfl⟩,(htail w).symm ▸ hlim⟩

lemma walkText_trailOf (hd : g.directed = false) (w : List NodeId) :
 g.walkText (trailOf w).reverse = g.labelText w := by
 rw [walkText_undirected hd,map_fst_trailOf]

lemma Grounded.mem_of_isWalk (hr : Grounded m g) (hm : m.marked = false) {w : List NodeId}
 (hw : IsWalk g m.anchor w) : ∀ n ∈ w, n ∈ g.ids := by
 intro n hn
 rw [← map_fst_trailOf w] at hn
 obtain ⟨e,he,rfl⟩ := mem_map.1 hn
 exact hr.mem_ids ((roams_iff_walk hm).2 ⟨w,hw,rfl⟩) e (mem_reverse.1 he)

structure KeyedByText (g : Graph) (a : NodeId) (limit : Int) (t : Graph) : Prop where
 holds : HoldsTexts t fun x => ∃ w, IsWalk g a w ∧ ((g.labelText w.dropLast).length : Int) < limit ∧
  g.labelText w = x
 written : ∀ n x y, Reads t n x → Reads t n y → x = y
 distance : ∀ n x, Reads t n x → t.nodeAttr? n "distance" = some (.int (x.length - 1))

structure KeyedByLabels (g : Graph) (a : NodeId) (limit : Int) (t : Graph) : Prop where
 stands : ∀ w, IsWalk g a w → (w.length : Int) ≤ limit → ∃ n, Reads t n (g.labelText w)
 merged : ∀ v w, IsWalk g a v → IsWalk g a w → (v.length : Int) ≤ limit → (w.length : Int) ≤ limit →
  ((∃ n, Reads t n (g.labelText v) ∧ Reads t n (g.labelText w)) ↔
   v.map (g.nodeAttr? · "label") = w.map (g.nodeAttr? · "label"))
 distance : ∀ w n, IsWalk g a w → (w.length : Int) ≤ limit → Reads t n (g.labelText w) →
  t.nodeAttr? n "distance" = some (.int (w.length - 1))

lemma Kept.keyedByText (hr : Grounded m g) (hl : g.Printable) (hk : Kept m g done paths s)
 (ha : g.AnchoredAt m.anchor)
 (hd : g.directed = false) (hne : 0 < paths.size)
 (hdone : ∀ t, t ∈ done ↔ Admissible g m.anchor m.limit t.reverse) :
  KeyedByText g m.anchor m.limit s.tree := by
 have hrea : ∀ {n : NodeId} {x : String}, Reads s.tree n x ↔ ∃ (i : Nat) (path : List Nat),
  paths.entries[i]? = some (x,path) ∧ n = .num i := hk.reads_iff hr hl ha hd hne
 refine ⟨⟨(hk.trie hr hl hne).isTree,?_,?_,?_⟩,?_,?_⟩
 · intro n hn
   obtain ⟨i,x,path,hi,rfl⟩ := hk.mem_ids_iff.1 hn
   exact ⟨x,hrea.2 ⟨i,path,hi,rfl⟩⟩
 · intro x
   constructor
   · rintro ⟨n,hn⟩
     obtain ⟨i,path,hi,rfl⟩ := hrea.1 hn
     obtain ⟨e,rest,hs⟩ := hk.origin i x path hi
     obtain ⟨w,hw,hlim,hwt⟩ := (admissible_iff_isWalk hd).1 ((hdone _).1 hs.visited)
     exact ⟨w,hw,hlim,by rw [hs.text,← hwt,walkText_trailOf hd]⟩
   · rintro ⟨w,hw,hlim,rfl⟩
     have hmem := hk.seen _ ((hdone _).2 ((admissible_iff_isWalk hd).2 ⟨w,hw,hlim,rfl⟩))
     rw [walkText_trailOf hd] at hmem
     obtain ⟨i,path,hi,_⟩ := hk.exists_place hmem
     exact ⟨_,hrea.2 ⟨i,path,hi,rfl⟩⟩
 · intro x u v hu hv
   obtain ⟨i,p,hi,rfl⟩ := hrea.1 hu
   obtain ⟨j,q,hj,rfl⟩ := hrea.1 hv
   rw [hk.place_inj hi hj]
 · intro n x y hx hy
   obtain ⟨i,p,hi,rfl⟩ := hrea.1 hx
   obtain ⟨j,q,hj,hij⟩ := hrea.1 hy
   obtain rfl : i = j := by simpa using hij
   exact (Prod.mk.inj (Option.some.inj (hi.symm.trans hj))).1
 · intro n x hx
   obtain ⟨i,path,hi,rfl⟩ := hrea.1 hx
   obtain ⟨e,rest,hs⟩ := hk.origin i x path hi
   rw [hs.distance,Manner.distance,hr.kind,hd]
   rfl

lemma KeyedByText.merged_iff (hkey : KeyedByText g a limit t) {x y : String} (hx : Spells t x) :
 (∃ n, Reads t n x ∧ Reads t n y) ↔ x = y := by
 constructor
 · rintro ⟨n,hnx,hny⟩
   exact hkey.written n x y hnx hny
 · rintro rfl
   obtain ⟨n,hn⟩ := hx
   exact ⟨n,hn,hn⟩

lemma KeyedByText.keyedByLabels_iff (hkey : KeyedByText g a limit t) (hl : g.PositiveLabels)
 (hwal : ∀ w, IsWalk g a w → ∀ n ∈ w, n ∈ g.ids) : KeyedByLabels g a limit t ↔
  ∀ w, IsWalk g a w → w.length ≤ limit → ∀ n ∈ w, g.OneDigit n := by
 have hlen : ∀ {w}, IsWalk g a w → ((g.labelText w).length = w.length ↔ ∀ n ∈ w, g.OneDigit n) :=
  fun hw =>
  (hl.length_labelText (hwal _ hw)).2
 constructor
 · intro h w hw hlim
   obtain ⟨n,hn⟩ := h.stands w hw hlim
   have hsame := (hkey.distance n _ hn).symm.trans (h.distance w n hw hlim hn)
   have hsub : ((g.labelText w).length : Int) - 1 = w.length - 1 := by simpa using hsame
   exact (hlen hw).1 (by omega)
 · intro h
   have hspe : ∀ w, IsWalk g a w → w.length ≤ limit → Spells t (g.labelText w) := by
    intro w hw hlim
    have hpos : 0 < w.length := length_pos_iff.2 fun hnil => by simpa [hnil] using hw.start
    have hsho := (hl.length_labelText fun n hn => hwal w hw n (mem_of_mem_dropLast hn)).2.2
     fun n hn =>
     h w hw hlim n (mem_of_mem_dropLast hn)
    refine (hkey.holds.spells _).2 ⟨w,hw,?_,rfl⟩
    rw [hsho,length_dropLast]
    omega
   refine ⟨hspe,fun v w hv hw hvlim hwlim => ?_,fun w n hw hlim hn => ?_⟩
   · rw [hkey.merged_iff (hspe v hv hvlim)]
     constructor
     · exact hl.labels_eq (h v hv hvlim) (h w hw hwlim)
     · intro hsame
       have hmap := congrArg (map fun o : Option Value => (o.getD .none).text) hsame
       rw [map_map,map_map] at hmap
       exact congrArg String.join hmap
   · rw [hkey.distance n _ hn,(hlen hw).2 (h w hw hlim)]

theorem form_keyedByText (hg : g.Sound) (hd : g.directed = false) (ha : g.AnchoredAt a)
 (hl : g.PositiveLabels)
 (hlim : 1 ≤ limit) : ∃ f, (form g limit false).2 = .ok f ∧ KeyedByText g a limit f.tree ∧
  (KeyedByLabels g a limit f.tree ↔ ∀ w, IsWalk g a w → w.length ≤ limit → ∀ n ∈ w,
   g.OneDigit n) := by
 obtain ⟨s,paths,done,hform,-,hk,hdone⟩ := formBy_kept hg ha hl.printable limit (g.directed || false)
 have hr : Grounded ⟨g.directed,limit,a⟩ g := ⟨hg,ha.mem,rfl⟩
 have hsta : [(a,false)] ∈ done :=
  (hdone _).2 ⟨isMarkedWalk_singleton,by simp,lt_of_lt_of_le one_pos hlim⟩
 have hne : 0 < paths.size := by
  have hpos := length_pos_iff.2 (ne_nil_of_mem (hk.seen _ hsta))
  rwa [Table.keys,length_map] at hpos
 have hkey := hk.keyedByText hr hl.printable ha hd hne hdone
 refine ⟨_,by rw [form_eq_formBy,hform],hkey,?_⟩
 exact hkey.keyedByLabels_iff hl fun w hw => hr.mem_of_isWalk hd hw

def elevens : Graph where
 directed := false
 multi := false
 nodes := ⟨[(.num 0,⟨[("label",.int 1),("anchor",.int 1)]⟩),(.num 1,⟨[("label",.int 11)]⟩),
  (.num 2,⟨[("label",.int 1)]⟩),(.num 3,⟨[("label",.int 1)]⟩),(.num 4,⟨[("label",.int 11)]⟩)]⟩
 edges := [⟨.num 0,.num 1,.none,.empty⟩,⟨.num 1,.num 2,.none,.empty⟩,⟨.num 0,.num 3,.none,.empty⟩,
  ⟨.num 3,.num 4,.none,.empty⟩]

lemma elevens_sound : elevens.Sound := by decide

lemma elevens_anchored : elevens.AnchoredAt (.num 0) :=
 anchoredAt_of_filter elevens_sound.ids (by simp [elevens,isAnchor,Table.get?,same_int])

lemma elevens_labels : elevens.PositiveLabels := by
 intro n hn
 have hcas : n = .num 0 ∨ n = .num 1 ∨ n = .num 2 ∨ n = .num 3 ∨ n = .num 4 := by
  simpa [elevens,ids,Table.keys] using hn
 rcases hcas with rfl | rfl | rfl | rfl | rfl
 · exact ⟨1,by decide,rfl⟩
 · exact ⟨11,by decide,rfl⟩
 · exact ⟨1,by decide,rfl⟩
 · exact ⟨1,by decide,rfl⟩
 · exact ⟨11,by decide,rfl⟩

lemma elevens_walks : IsWalk elevens (.num 0) [.num 0,.num 1,.num 2] ∧
 IsWalk elevens (.num 0) [.num 0,.num 3,.num 4] := by
 have hone : IsWalk elevens (.num 0) ([] ++ [.num 0]) := isWalk_singleton
 constructor
 · exact isWalk_concat.2 ⟨isWalk_concat.2
    ⟨hone,by decide,by decide,by decide⟩,by decide,by decide,by decide⟩
 · exact isWalk_concat.2 ⟨isWalk_concat.2
    ⟨hone,by decide,by decide,by decide⟩,by decide,by decide,by decide⟩

theorem elevens_merged : elevens.PositiveLabels ∧ ∃ f, (form elevens 4 false).2 = .ok f ∧
 KeyedByText elevens (.num 0) 4 f.tree ∧ ¬KeyedByLabels elevens (.num 0) 4 f.tree ∧
 (∃ n, Reads f.tree n (elevens.labelText [.num 0,.num 1,.num 2]) ∧
  Reads f.tree n (elevens.labelText [.num 0,.num 3,.num 4])) ∧
 [.num 0,.num 1,.num 2].map (elevens.nodeAttr? · "label") ≠
  [.num 0,.num 3,.num 4].map (elevens.nodeAttr? · "label") := by
 obtain ⟨f,hf,hkey,-⟩ :=
  form_keyedByText elevens_sound rfl elevens_anchored elevens_labels (show 1 ≤ 4 by decide)
 obtain ⟨hleft,hrig⟩ := elevens_walks
 have htext : elevens.labelText [.num 0,.num 3,.num 4] =
  elevens.labelText [.num 0,.num 1,.num 2] := by decide
 have hspe :=
  (hkey.holds.spells _).2 ⟨_,hleft,by decide,rfl⟩
 have hne : [.num 0,.num 1,.num 2].map (elevens.nodeAttr? · "label") ≠
  [.num 0,.num 3,.num 4].map (elevens.nodeAttr? · "label") := by
  intro h
  simp [elevens,nodeAttr?,attrs?,Table.get?] at h
 have hsha := (hkey.merged_iff hspe).2 htext.symm
 refine ⟨elevens_labels,f,hf,hkey,fun h => hne ?_,hsha,hne⟩
 exact (h.merged _ _ hleft hrig (by decide) (by decide)).1 hsha

end Normal
end MotifMatch
