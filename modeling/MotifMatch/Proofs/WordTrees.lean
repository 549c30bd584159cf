import Mathlib.Data.List.Induction
import MotifMatch.Proofs.Trails

namespace MotifMatch.Normal
open List MotifMatch.Graph NodeId Nat Bool

def nodeOf (ws : List Word) (w : Word) : NodeId := .num (ws.idxOf w)

def rungs (ws : List Word) (w : Word) : List Nat :=
 (range w.length).map fun i => ws.idxOf (w.take (i + 1))

def limb (ws : List Word) (w : Word) : Edge :=
 if w.getLast?.map Letter.forward = some false then ⟨nodeOf ws w,nodeOf ws w.dropLast,.none,.empty⟩
 else ⟨nodeOf ws w.dropLast,nodeOf ws w,.none,.empty⟩

structure Rooted (ws : List Word) : Prop where
 nodup : ws.Nodup
 root : ∀ w ∈ ws, ws.head? = some (w.take 1)
 pos : ∀ w ∈ ws, w ≠ []
 closed : ∀ v l, v ++ [l] ∈ ws → v ≠ [] → v ∈ ws

structure Grown (t : Graph) (ws : List Word) : Prop where
 rooted : Rooted ws
 multi : t.multi = false
 ids : t.ids = (range ws.length).map fun i => .num i
 edges : t.edges = ws.tail.map (limb ws)
 attrs : ∀ e ∈ t.nodes.entries, e.2.keys.Nodup

variable {ws : List Word} {t : Graph} {w : Word} {l : Letter} {v : Word}

lemma rungs_append (w : Word) (l : Letter) :
 rungs ws (w ++ [l]) = rungs ws w ++ [ws.idxOf (w ++ [l])] := by
 unfold rungs
 rw [length_append,length_singleton,range_succ,map_append,map_singleton]
 congr 1
 · refine map_congr_left fun i hi => ?_
   rw [mem_range] at hi
   rw [take_append_of_le_length (by omega)]
 · rw [take_of_length_le (by simp)]

lemma rungs_getLast? (hw : w ≠ []) : (rungs ws w).getLast? = some (ws.idxOf w) := by
 obtain ⟨v,l,rfl⟩ : ∃ v l, w = v ++ [l] := ⟨_,_,(dropLast_append_getLast hw).symm⟩
 rw [rungs_append,getLast?_concat]

lemma nodeOf_append_of_mem (hw : w ∈ ws) (vs : List Word) : nodeOf (ws ++ vs) w = nodeOf ws w := by
 rw [nodeOf,nodeOf,idxOf_append_of_mem hw]

lemma nodeOf_inj {v w : Word} (hv : v ∈ ws) (h : nodeOf ws v = nodeOf ws w) : v = w := by
 simp only [nodeOf,num.injEq,Int.natCast_inj] at h
 exact (idxOf_inj hv).1 h

section
variable (hr : Rooted ws)
include hr

lemma Rooted.take_mem (hw : w ∈ ws) {n : Nat} (hn : 0 < n) : w.take n ∈ ws := by
 induction w using reverseRecOn with
 | nil => exact absurd rfl (hr.pos _ hw)
 | append_singleton v l ih =>
  rcases Nat.lt_or_ge v.length n with h | h
  · rwa [take_of_length_le (by rw [length_append,length_singleton]; omega)]
  · have hv : v ≠ [] := by
     rintro rfl
     simp at h
     omega
    rw [take_append_of_le_length h]
    exact ih (hr.closed v l hw hv)

lemma Rooted.length_of_mem_tail (hw : w ∈ ws.tail) : 2 ≤ w.length := by
 have hmem := mem_of_mem_tail hw
 by_contra hlen
 have hroot := hr.root w hmem
 rw [take_of_length_le (by omega)] at hroot
 cases ws with
 | nil => simp at hw
 | cons r rest =>
  simp only [head?_cons,Option.some.injEq] at hroot
  exact (nodup_cons.1 hr.nodup).1 (hroot ▸ hw)

lemma Rooted.mem_tail (hw : w ∈ ws) (hlen : 2 ≤ w.length) : w ∈ ws.tail := by
 have hroot := hr.root w hw
 cases ws with
 | nil => simp at hw
 | cons r rest =>
  rcases mem_cons.1 hw with rfl | hw
  · have heq : w = w.take 1 := by simpa using hroot
    have : w.length = (w.take 1).length := congrArg length heq
    simp at this
    omega
  · exact hw

lemma Rooted.dropLast_mem (hw : w ∈ ws.tail) : w.dropLast ∈ ws := by
 have hlen := hr.length_of_mem_tail hw
 have hne : w ≠ [] := by rintro rfl; simp at hlen
 have hmem : w.dropLast ++ [w.getLast hne] ∈ ws := by
  rw [dropLast_append_getLast hne]
  exact mem_of_mem_tail hw
 refine hr.closed w.dropLast (w.getLast hne) hmem ?_
 intro h
 have := congrArg length h
 simp only [length_dropLast,length_nil] at this
 omega

lemma Rooted.limb_append (hw : w ∈ ws.tail) (vs : List Word) : limb (ws ++ vs) w = limb ws w := by
 simp only [limb,nodeOf_append_of_mem (mem_of_mem_tail hw),nodeOf_append_of_mem (hr.dropLast_mem hw)]

lemma rungs_eq_of_mem (hw : w ∈ ws) (vs : List Word) : rungs (ws ++ vs) w = rungs ws w := by
 refine map_congr_left fun i _ => ?_
 rw [idxOf_append_of_mem (hr.take_mem hw (succ_pos i))]

lemma Rooted.mem_rungs {v w : Word} (hv : v ∈ ws) (hw : w ∈ ws) :
 ws.idxOf v ∈ rungs ws w ↔ v <+: w := by
 simp only [rungs,mem_map,mem_range]
 constructor
 · rintro ⟨i,_,hi⟩
   rw [← (idxOf_inj (hr.take_mem hw (succ_pos i))).1 hi]
   exact take_prefix _ _
 · intro hpre
   have hpos : 0 < v.length := length_pos_iff.2 (hr.pos v hv)
   refine ⟨v.length - 1,by have := hpre.length_le; omega,?_⟩
   rw [Nat.sub_add_cancel hpos,← prefix_iff_eq_take.1 hpre]

lemma Rooted.nodup_rungs (hw : w ∈ ws) : (rungs ws w).Nodup := by
 refine (nodup_map_iff_inj_on nodup_range).2 ?_
 intro i hi j hj hij
 rw [mem_range] at hi hj
 have htake := congrArg length ((idxOf_inj (hr.take_mem hw (succ_pos i))).1 hij)
 simp only [length_take] at htake
 omega

lemma Rooted.concat (hv : v ∈ ws) (hnew : v ++ [l] ∉ ws) : Rooted (ws ++ [v ++ [l]]) where
 nodup := nodup_append.2 ⟨hr.nodup,by simp,fun a ha b hb => by
  rw [mem_singleton.1 hb]
  exact fun hab => hnew (hab ▸ ha)⟩
 root := by
  have hne : ws ≠ [] := ne_nil_of_mem hv
  have hpos : 1 ≤ v.length := length_pos_iff.2 (hr.pos v hv)
  intro w hw
  rw [head?_append_of_ne_nil _ hne]
  rcases mem_append.1 hw with hw | hw
  · exact hr.root w hw
  · rw [mem_singleton.1 hw,take_append_of_le_length hpos]
    exact hr.root v hv
 pos := by
  intro w hw
  rcases mem_append.1 hw with hw | hw
  · exact hr.pos w hw
  · rw [mem_singleton.1 hw]
    simp
 closed := by
  intro x k hx hne
  rcases mem_append.1 hx with hx | hx
  · exact mem_append_left _ (hr.closed x k hx hne)
  · obtain ⟨rfl,_⟩ := append_inj' (mem_singleton.1 hx) rfl
    exact mem_append_left _ hv

end

lemma rooted_singleton (l : Letter) : Rooted [[l]] where
 nodup := by simp
 root := by simp
 pos := by simp
 closed := by
  intro v k h hne
  have hlen := congrArg length (mem_singleton.1 h)
  simp only [length_append,length_singleton] at hlen
  exact absurd (length_eq_zero_iff.1 (by omega)) hne

section

lemma Grown.size (h : Grown t ws) : t.size = ws.length := by
 have := congrArg length h.ids
 simpa [Graph.ids,Graph.size,Table.keys,Table.size] using this

lemma Grown.mem_ids (h : Grown t ws) {n : NodeId} : n ∈ t.ids ↔ ∃ i, i < ws.length ∧ n = .num i := by
 rw [h.ids]
 simp [eq_comm]

lemma Grown.nodeOf_mem (h : Grown t ws) (hw : w ∈ ws) : nodeOf ws w ∈ t.ids :=
 h.mem_ids.2 ⟨_,idxOf_lt_length_of_mem hw,rfl⟩

lemma Grown.fresh_not_mem (h : Grown t ws) : num ws.length ∉ t.ids := by
 intro hmem
 obtain ⟨i,hi,heq⟩ := h.mem_ids.1 hmem
 simp only [num.injEq] at heq
 omega

lemma limb_ends (ws : List Word) (w : Word) :
 (limb ws w).source = nodeOf ws w ∧ (limb ws w).target = nodeOf ws w.dropLast ∨
 (limb ws w).source = nodeOf ws w.dropLast ∧ (limb ws w).target = nodeOf ws w := by
 unfold limb
 split
 · exact .inl ⟨rfl,rfl⟩
 · exact .inr ⟨rfl,rfl⟩

lemma Grown.ends (h : Grown t ws) {e : Edge} (he : e ∈ t.edges) :
 e.source ∈ t.ids ∧ e.target ∈ t.ids := by
 rw [h.edges] at he
 obtain ⟨w,hw,rfl⟩ := mem_map.1 he
 have hchi := h.nodeOf_mem (mem_of_mem_tail hw)
 have hpar := h.nodeOf_mem (h.rooted.dropLast_mem hw)
 rcases limb_ends ws w with ⟨hs,ht⟩ | ⟨hs,ht⟩
 · exact ⟨hs ▸ hchi,ht ▸ hpar⟩
 · exact ⟨hs ▸ hpar,ht ▸ hchi⟩

lemma limb_concat (v : Word) (l : Letter) : limb ws (v ++ [l]) =
 if l.forward then ⟨nodeOf ws v,nodeOf ws (v ++ [l]),.none,.empty⟩
 else ⟨nodeOf ws (v ++ [l]),nodeOf ws v,.none,.empty⟩ := by
 simp only [limb,getLast?_concat,dropLast_concat,Option.map_some,Option.some.injEq]
 cases l.forward <;> rfl

lemma nodeOf_concat_self (hw : w ∉ ws) : nodeOf (ws ++ [w]) w = .num ws.length := by
 rw [nodeOf,idxOf_append_of_notMem hw]
 simp

lemma limb_concat_new (hv : v ∈ ws) (hnew : v ++ [l] ∉ ws) :
 limb (ws ++ [v ++ [l]]) (v ++ [l]) =
  if l.forward then ⟨nodeOf ws v,.num ws.length,.none,.empty⟩
  else ⟨.num ws.length,nodeOf ws v,.none,.empty⟩ := by
 rw [limb_concat,nodeOf_concat_self hnew,nodeOf_append_of_mem hv]

lemma grown_empty (d : Bool) : Grown (.empty d) [] where
 rooted := ⟨by simp,by simp,by simp,by simp⟩
 multi := rfl
 ids := rfl
 edges := rfl
 attrs := by simp [empty,Table.empty]

lemma Grown.root (h : Grown t []) (l : Letter) {a : Attrs} (ha : a.keys.Nodup) :
 Grown (t.addNode (.num 0) a) [[l]] ∧ (t.addNode (.num 0) a).nodes.entries = [(.num 0,a)] := by
 have hold : t.nodes.entries = [] := map_eq_nil_iff.1 h.ids
 have hfre : num 0 ∉ t.ids := h.fresh_not_mem
 have hnod : (t.addNode (.num 0) a).nodes.entries = [(.num 0,a)] := by
  rw [nodes_addNode_of_not_mem hfre ha,hold,nil_append]
 refine ⟨⟨rooted_singleton l,h.multi,?_,h.edges,?_⟩,hnod⟩
 · simp [Graph.ids,Table.keys,hnod,range_succ]
 · intro e he
   rw [hnod] at he
   rw [mem_singleton.1 he]
   exact ha

def graft (t : Graph) (new parent : NodeId) (a : Attrs) (forward : Bool) : Graph :=
 if forward then (t.addNode new a).addEdge parent new .empty else (t.addNode new a).addEdge new
  parent .empty

variable (h : Grown t ws)
include h

lemma Grown.graft (hv : v ∈ ws) (hnew : v ++ [l] ∉ ws) {a : Attrs}
 (ha : a.keys.Nodup) : Grown (graft t (.num ws.length) (nodeOf ws v) a l.forward)
  (ws ++ [v ++ [l]]) ∧
  (graft t (.num ws.length) (nodeOf ws v) a l.forward).nodes.entries =
   t.nodes.entries ++ [(.num ws.length,a)] := by
 have hfre := h.fresh_not_mem
 have hnod := nodes_addNode_of_not_mem hfre ha
 have hmul : (t.addNode (.num ws.length) a).multi = false := h.multi
 have hids : (t.addNode (.num ws.length) a).ids = t.ids ++ [.num ws.length] := by
  simp [Graph.ids,Table.keys,hnod]
 have hold : nodeOf ws v ∈ (t.addNode (.num ws.length) a).ids := by
  rw [hids]; exact mem_append_left _ (h.nodeOf_mem hv)
 have hne : num ws.length ∈ (t.addNode (.num ws.length) a).ids := by
  rw [hids]; simp
 -- no edge reaches the new node yet, so the edge to it is a new one
 have hnone : ∀ u x, u = num ws.length ∨ x = num ws.length →
  (t.addNode (.num ws.length) a).hasEdge u x = false := by
  intro u x hux
  rw [eq_false_iff]
  intro hedge
  obtain ⟨e,he,hj⟩ := hasEdge_iff.1 hedge
  have hends := h.ends he
  rcases joins_iff.1 hj with ⟨rfl,rfl⟩ | ⟨_,rfl,rfl⟩ <;> rcases hux with hux | hux <;>
   simp_all
 have hgra : Normal.graft t (.num ws.length) (nodeOf ws v) a l.forward =
  { t.addNode (.num ws.length) a with edges := t.edges ++
   [limb (ws ++ [v ++ [l]]) (v ++ [l])] } := by
  rw [limb_concat_new hv hnew]
  unfold Normal.graft
  split
  · exact addEdge_of_not_hasEdge hmul hold hne (hnone _ _ (.inr rfl)) _
  · exact addEdge_of_not_hasEdge hmul hne hold (hnone _ _ (.inl rfl)) _
 rw [hgra]
 refine ⟨⟨h.rooted.concat hv hnew,h.multi,?_,?_,?_⟩,hnod⟩
 · rw [length_append,length_singleton,range_succ,map_append,← h.ids]
   exact hids
 · rw [tail_append_of_ne_nil (ne_nil_of_mem hv),map_append,map_singleton]
   change t.edges ++ _ = _
   rw [h.edges]
   congr 1
   exact map_congr_left fun w hw => (h.rooted.limb_append hw _).symm
 · intro e he
   rw [show ({ t.addNode (.num ws.length) a with edges := _ } : Graph).nodes.entries =
    _ from hnod] at he
   rcases mem_append.1 he with he | he
   · exact h.attrs e he
   · rw [mem_singleton.1 he]
     exact ha

lemma Grown.nodup_ids : t.ids.Nodup := by
 rw [h.ids]
 refine (nodup_map_iff_inj_on nodup_range).2 fun i _ j _ hij => ?_
 simpa only [num.injEq,Int.natCast_inj] using hij

lemma Grown.limb_apart {v w : Word} (hv : v ∈ ws.tail) (hw : w ∈ ws.tail) (hne : v ≠ w) :
 t.joins (limb ws v).source (limb ws v).target (limb ws w) = false := by
 have hvw : nodeOf ws w ≠ nodeOf ws v := fun heq => hne (nodeOf_inj (mem_of_mem_tail hw) heq).symm
 have hcro : ¬ (nodeOf ws w = nodeOf ws v.dropLast ∧ nodeOf ws w.dropLast = nodeOf ws v) := by
  rintro ⟨h1,h2⟩
  have hlen1 := congrArg length (nodeOf_inj (mem_of_mem_tail hw) h1)
  have hlen2 := congrArg length (nodeOf_inj (h.rooted.dropLast_mem hw) h2)
  have hlong := h.rooted.length_of_mem_tail hv
  rw [length_dropLast] at hlen1 hlen2
  omega
 rw [eq_false_iff]
 intro hj
 rcases limb_ends ws v with ⟨hs,ht⟩ | ⟨hs,ht⟩ <;>
  rcases limb_ends ws w with ⟨hs',ht'⟩ | ⟨hs',ht'⟩ <;>
  rw [joins_iff,hs,ht,hs',ht'] at hj <;> tauto

lemma Grown.sound : t.Sound where
 ids := h.nodup_ids
 attrs := h.attrs
 ends := fun _ he => h.ends he
 edgeAttrs := by
  intro e he
  rw [h.edges] at he
  obtain ⟨w,_,rfl⟩ := mem_map.1 he
  unfold limb
  split <;> exact nodup_nil
 single := by
  intro _
  rw [h.edges]
  have hnod : ws.tail.Nodup := h.rooted.nodup.sublist (tail_sublist ws)
  exact pairwise_map.2 (hnod.imp_of_mem fun hv hw hne => h.limb_apart hv hw hne)

end

def Arc (u v : Word) : Prop := (∃ l, l.forward = true ∧ v = u ++ [l]) ∨ ∃ l, l.forward = false ∧
 u = v ++ [l]

lemma Rooted.concat_mem_tail (hr : Rooted ws) (hv : v ∈ ws) (h : v ++ [l] ∈ ws) :
 v ++ [l] ∈ ws.tail := by
 have hpos : 0 < v.length := length_pos_iff.2 (hr.pos v hv)
 exact hr.mem_tail h (by rw [length_append,length_singleton]; omega)

lemma Rooted.exists_limb_iff (hr : Rooted ws) {u v : Word} (hu : u ∈ ws) (hv : v ∈ ws) :
 (∃ w ∈ ws.tail, (limb ws w).source = nodeOf ws u ∧ (limb ws w).target = nodeOf ws v) ↔ Arc u v := by
 constructor
 · rintro ⟨w,hw,hs,ht⟩
   have hmem := mem_of_mem_tail hw
   obtain ⟨x,l,rfl⟩ : ∃ x l, w = x ++ [l] :=
    ⟨_,_,(dropLast_append_getLast (hr.pos w hmem)).symm⟩
   have hx : x ∈ ws := by simpa using hr.dropLast_mem hw
   rw [limb_concat] at hs ht
   cases hl : l.forward with
   | true =>
    simp only [hl,if_true] at hs ht
    exact .inl ⟨l,hl,by rw [← nodeOf_inj hmem ht,← nodeOf_inj hx hs]⟩
   | false =>
    simp only [hl,false_eq_true,if_false] at hs ht
    exact .inr ⟨l,hl,by rw [← nodeOf_inj hmem hs,← nodeOf_inj hx ht]⟩
 · rintro (⟨l,hl,rfl⟩ | ⟨l,hl,rfl⟩)
   · exact ⟨_,hr.concat_mem_tail hu hv,by simp [limb_concat,hl]⟩
   · exact ⟨_,hr.concat_mem_tail hv hu,by simp [limb_concat,hl]⟩

lemma Grown.hasEdge_iff (h : Grown t ws) {u v : Word} (hu : u ∈ ws) (hv : v ∈ ws) :
 t.hasEdge (nodeOf ws u) (nodeOf ws v) = true ↔ Arc u v ∨ (t.directed = false ∧ Arc v u) := by
 rw [Graph.hasEdge_iff,h.edges,← h.rooted.exists_limb_iff hu hv,← h.rooted.exists_limb_iff hv hu]
 simp only [mem_map,exists_exists_and_eq_and,joins_iff]
 constructor
 · rintro ⟨w,hw,hj | ⟨hd,hj⟩⟩
   · exact .inl ⟨w,hw,hj⟩
   · exact .inr ⟨hd,w,hw,hj⟩
 · rintro (⟨w,hw,hj⟩ | ⟨hd,w,hw,hj⟩)
   · exact ⟨w,hw,.inl hj⟩
   · exact ⟨w,hw,.inr ⟨hd,hj⟩⟩

end MotifMatch.Normal
