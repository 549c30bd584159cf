import Mathlib.Tactic.MkIffOfInductiveProp
import MotifMatch.Graph.Basic
import MotifMatch.Proofs.Tables

namespace MotifMatch.Graph
open List Table
variable {g : Graph} {u v : NodeId} {n : NodeId} {a : Attrs}

/-- Holds of every graph built by adding nodes and edges: names and attribute names are distinct,
edges end at nodes, and without parallel edges two nodes have at most one edge. -/
@[mk_iff] structure Sound (g : Graph) : Prop where
 ids : g.ids.Nodup
 attrs : ∀ e ∈ g.nodes.entries, e.2.keys.Nodup
 ends : ∀ e ∈ g.edges, e.source ∈ g.ids ∧ e.target ∈ g.ids
 edgeAttrs : ∀ e ∈ g.edges, e.attrs.keys.Nodup
 single : g.multi = false → g.edges.Pairwise fun e f => g.joins e.source e.target f = false

instance : Decidable g.Sound := decidable_of_iff _ (sound_iff g).symm

lemma size_eq_length (g : Graph) : g.size = g.ids.length := by simp [size,ids,Table.size,Table.keys]

lemma hasNode_iff : g.hasNode n ↔ n ∈ g.ids := contains_iff g.nodes n

lemma attrs?_isSome_iff : (g.attrs? n).isSome ↔ n ∈ g.ids :=
 isSome_get?_iff g.nodes n

lemma exists_attrs (hn : n ∈ g.ids) : ∃ a, g.attrs? n = some a :=
 Option.isSome_iff_exists.1 (attrs?_isSome_iff.2 hn)

lemma joins_iff {e : Edge} : g.joins u v e ↔
 (e.source = u ∧ e.target = v) ∨ (g.directed = false ∧ e.source = v ∧ e.target = u) := by
 simp [joins,and_assoc]

lemma joins_comm (hd : g.directed = false) (u v : NodeId) (e : Edge) :
 g.joins u v e = g.joins v u e := by
 rw [Bool.eq_iff_iff,joins_iff,joins_iff]
 simp only [hd,true_and]
 exact or_comm

lemma joins_self (e : Edge) : g.joins e.source e.target e := joins_iff.2 (.inl ⟨rfl,rfl⟩)

lemma joins_congr {e f : Edge} (hs : e.source = f.source) (ht : e.target = f.target) (u v : NodeId) :
 g.joins u v e = g.joins u v f := by
 simp [joins,hs,ht]

lemma joins_of_joins {e f : Edge} (he : g.joins u v e) :
 g.joins u v f = g.joins e.source e.target f := by
 rcases joins_iff.1 he with ⟨rfl,rfl⟩ | ⟨hd,rfl,rfl⟩
 · rfl
 · exact joins_comm hd _ _ f

lemma joins_symm {e f : Edge} : g.joins e.source e.target f = g.joins f.source f.target e := by
 rw [Bool.eq_iff_iff,joins_iff,joins_iff]
 constructor <;> rintro (⟨h,h'⟩ | ⟨hd,h,h'⟩) <;> simp_all

lemma hasEdge_iff : g.hasEdge u v ↔ ∃ e ∈ g.edges, g.joins u v e := by
 simp [hasEdge]

lemma hasEdge_comm (hd : g.directed = false) (u v : NodeId) : g.hasEdge u v = g.hasEdge v u := by
 simp only [hasEdge]
 exact congrArg g.edges.any (funext (joins_comm hd u v))

lemma Sound.of_hasEdge (hg : g.Sound) (h : g.hasEdge u v) : u ∈ g.ids ∧ v ∈ g.ids := by
 obtain ⟨e,he,hj⟩ := hasEdge_iff.1 h
 have hends := hg.ends e he
 rcases joins_iff.1 hj with ⟨rfl,rfl⟩ | ⟨_,rfl,rfl⟩
 · exact hends
 · exact hends.symm

lemma farEnd?_eq_some_iff {e : Edge} : g.farEnd? u e = some v ↔ g.joins u v e := by
 rw [joins_iff,farEnd?]
 by_cases hs : e.source = u
 · simp only [hs,beq_self_eq_true,if_true,Option.some.injEq,true_and]
   constructor
   · exact .inl
   · rintro (h | ⟨_,h,h'⟩)
     · exact h
     · exact h'.trans h
 · have hs' : (e.source == u) = false := beq_eq_false_iff_ne.2 hs
   simp only [hs',Bool.false_eq_true,if_false,hs,false_and,false_or]
   by_cases ht : g.directed = false ∧ e.target = u
   · simp only [ht.1,ht.2,Bool.not_false,beq_self_eq_true,Bool.and_self,if_true,Option.some.injEq,
      true_and,and_true]
   · have ht' : (!g.directed && e.target == u) = false := by
      rw [Bool.eq_false_iff]
      simpa using ht
     simp only [ht',Bool.false_eq_true,if_false,reduceCtorEq,false_iff]
     exact fun h => ht ⟨h.1,h.2.2⟩

lemma mem_distinct {ns : List NodeId} : n ∈ distinct ns ↔ n ∈ ns := by
 have key : ∀ (l acc : List NodeId),
  n ∈ l.foldl (fun acc n => if acc.contains n then acc else n :: acc) acc ↔ n ∈ acc ∨ n ∈ l := by
  intro l
  induction l with
  | nil => simp
  | cons m rest ih =>
   intro acc
   rw [foldl_cons,ih]
   split
   · next h =>
     have hm : m ∈ acc := by simpa using h
     constructor
     · rintro (h | h)
       · exact .inl h
       · exact .inr (mem_cons_of_mem m h)
     · rintro (h | h)
       · exact .inl h
       · rcases mem_cons.1 h with rfl | h
         · exact .inl hm
         · exact .inr h
   · rw [mem_cons,mem_cons,or_comm (a := n = m),or_assoc]
 rw [distinct,mem_reverse,key]
 simp

lemma nodup_distinct (ns : List NodeId) : (distinct ns).Nodup := by
 have key : ∀ (l acc : List NodeId), acc.Nodup →
  (l.foldl (fun acc n => if acc.contains n then acc else n :: acc) acc).Nodup := by
  intro l
  induction l with
  | nil => exact fun _ h => h
  | cons n rest ih =>
   intro acc h
   rw [foldl_cons]
   refine ih _ ?_
   split
   · exact h
   · next hn => exact nodup_cons.2 ⟨by simpa using hn,h⟩
 exact nodup_reverse.2 (key ns [] nodup_nil)

lemma mem_neighbors_iff : v ∈ g.neighbors u ↔ g.hasEdge u v := by
 have h : v ∈ g.edges.filterMap (g.farEnd? u) ↔ g.hasEdge u v := by
  simp [hasEdge_iff,mem_filterMap,farEnd?_eq_some_iff]
 unfold neighbors
 split
 · exact mem_distinct.trans h
 · exact h

lemma mem_predecessors_iff : v ∈ g.predecessors u ↔ g.hasEdge v u := by
 unfold predecessors
 split
 · next hd =>
   have h : v ∈ g.edges.filterMap (fun e => if e.target == u then some e.source else none) ↔
    g.hasEdge v u := by
    simp only [hasEdge_iff,mem_filterMap,joins_iff,hd,Bool.true_eq_false,false_and,or_false]
    refine exists_congr fun e => and_congr_right fun _ => ?_
    by_cases ht : e.target = u <;> simp [ht]
   split
   · exact mem_distinct.trans h
   · exact h
 · next hd => rw [mem_neighbors_iff,hasEdge_comm (by simpa using hd)]

lemma attrs?_addNode (n m : NodeId) (a : Attrs) : (g.addNode n a).attrs? m =
 if m = n then some (((g.attrs? n).getD .empty).putAll a.entries) else g.attrs? m := by
 simp only [attrs?,addNode,get?_put]
 rfl

lemma nodes_addNode_of_not_mem (hn : n ∉ g.ids) (ha : a.keys.Nodup) :
 (g.addNode n a).nodes.entries = g.nodes.entries ++ [(n,a)] := by
 have hnone : g.nodes.get? n = none := (get?_eq_none_iff _ _).2 hn
 simp only [addNode,Table.getD,hnone,Option.getD_none]
 rw [entries_put_of_not_mem _ _ hn,← Table.ofList,ofList_entries ha]

lemma attrs?_concat {t t' : Graph}
 (hent : t'.nodes.entries = t.nodes.entries ++ [(n,a)]) (hn : n ∉ t.ids) :
 t'.attrs? n = some a ∧ ∀ x, x ≠ n → t'.attrs? x = t.attrs? x := by
 have hget : ∀ x, t'.attrs? x = (t.attrs? x).or ((Table.mk [(n,a)]).get? x) := by
  intro x
  rw [attrs?,show t'.nodes = ⟨t.nodes.entries ++ [(n,a)]⟩ by rw [← hent],get?_mk_append]
  rfl
 constructor
 · rw [hget,show t.attrs? n = none from (get?_eq_none_iff _ _).2 hn,Option.none_or]
   simp [get?]
 · intro x hx
   rw [hget]
   simp [get?,Ne.symm hx]

lemma Sound.addNode (hg : g.Sound) (n : NodeId) (a : Attrs) : (g.addNode n a).Sound where
 ids := nodup_put hg.ids _ _
 attrs := by
  intro e he
  have hget := get?_of_mem (nodup_put hg.ids _ _) he
  rw [get?_put] at hget
  split at hget
  · rw [← Option.some.inj hget]
    refine nodup_putAll ?_ _
    cases h : g.nodes.get? n with
    | none => simp [Table.getD,h]
    | some b => simpa [Table.getD,h] using hg.attrs _ (mem_of_get? h)
  · exact hg.attrs e (mem_of_get? hget)
 ends := by
  intro e he
  have hends := hg.ends e he
  exact ⟨mem_keys_put.2 (.inl hends.1),mem_keys_put.2 (.inl hends.2)⟩
 edgeAttrs := hg.edgeAttrs
 single := hg.single

lemma ids_foldl_addNode {es : List (NodeId × Attrs)} (hes : (g.ids ++ es.map Prod.fst).Nodup) :
 (es.foldl (fun acc e => acc.addNode e.1 e.2) g).ids = g.ids ++ es.map Prod.fst := by
 induction es generalizing g with
 | nil => simp
 | cons e es ih =>
  have hnot : e.1 ∉ g.ids := fun he => (nodup_append.1 hes).2.2 _ he _ (by simp) rfl
  have hids : (g.addNode e.1 e.2).ids = g.ids ++ [e.1] := by
   simp [ids,Table.keys,addNode,entries_put_of_not_mem _ _ hnot]
  rw [map_cons,append_cons,← hids] at hes
  rw [foldl_cons,ih hes,hids,map_cons,← append_cons]

section

def putEach (name : String) (v : NodeId → Value) (g : Graph) : Graph :=
 { g with nodes := ⟨g.nodes.entries.map fun e => (e.1,e.2.put name (v e.1))⟩ }

variable {name : String} {v : NodeId → Value}

lemma ids_putEach : (g.putEach name v).ids = g.ids := by
 simp [ids,putEach,Table.keys,Function.comp_def]

lemma attrs?_putEach (hg : g.Sound) (h : g.attrs? n = some a) :
 (g.putEach name v).attrs? n = some (a.put name (v n)) := by
 have hkey : (g.putEach name v).ids.Nodup := by
  rw [ids_putEach]
  exact hg.ids
 exact get?_of_mem hkey (mem_map.2 ⟨_,mem_of_get? h,rfl⟩)

lemma Sound.putEach (hg : g.Sound) (name : String) (v : NodeId → Value) :
 (g.putEach name v).Sound where
 ids := by
  rw [ids_putEach]
  exact hg.ids
 attrs := by
  intro e he
  obtain ⟨x,hx,rfl⟩ := mem_map.1 he
  exact nodup_put (hg.attrs x hx) _ _
 ends := by
  rw [ids_putEach]
  exact hg.ends
 edgeAttrs := hg.edgeAttrs
 single := hg.single

end

section

@[simp] lemma directed_touch (n : NodeId) : (g.touch n).directed = g.directed := by
 unfold touch; split <;> rfl

@[simp] lemma multi_touch (n : NodeId) : (g.touch n).multi = g.multi := by
 unfold touch; split <;> rfl

@[simp] lemma edges_touch (n : NodeId) : (g.touch n).edges = g.edges := by
 unfold touch; split <;> rfl

lemma touch_of_mem (h : n ∈ g.ids) : g.touch n = g := by
 rw [touch,if_pos (hasNode_iff.2 h)]

lemma nodup_touch (h : g.ids.Nodup) (n : NodeId) : (g.touch n).ids.Nodup := by
 unfold touch
 split
 · exact h
 · next hn =>
   rw [hasNode_iff] at hn
   simp only [ids,Table.keys,map_append,map_cons,map_nil]
   exact nodup_append.2 ⟨h,by simp,fun a ha b hb => by
    rw [mem_singleton.1 hb]
    exact fun hab => hn (hab ▸ ha)⟩

lemma Sound.touch (hg : g.Sound) (n : NodeId) : (g.touch n).Sound := by
 have hids := nodup_touch hg.ids n
 unfold Graph.touch at hids ⊢
 split at hids
 · next h =>
   rw [if_pos h]
   exact hg
 · next h =>
   rw [if_neg h]
   refine ⟨hids,?_,?_,hg.edgeAttrs,hg.single⟩
   · intro e he
     rcases mem_append.1 he with he | he
     · exact hg.attrs e he
     · rw [mem_singleton.1 he]
       exact nodup_nil
   · have hmore : ∀ m ∈ g.ids, m ∈
      ({ g with nodes := ⟨g.nodes.entries ++ [(n,.empty)]⟩ } : Graph).ids := by
      intro m hm
      simp only [Graph.ids,Table.keys,map_append]
      exact mem_append_left _ hm
     exact fun e he => ⟨hmore _ (hg.ends e he).1,hmore _ (hg.ends e he).2⟩

@[simp] lemma directed_place (e : Edge) (known : Edge → Bool) :
 (g.place e known).directed = g.directed := by
 unfold place; split <;> rfl

@[simp] lemma multi_place (e : Edge) (known : Edge → Bool) : (g.place e known).multi = g.multi := by
 unfold place; split <;> rfl

@[simp] lemma nodes_place (e : Edge) (known : Edge → Bool) : (g.place e known).nodes = g.nodes := by
 unfold place; split <;> rfl

lemma place_of_not_known {e : Edge} {known : Edge → Bool} (h : g.edges.any known = false) :
 g.place e known = { g with edges := g.edges ++ [e] } := by
 rw [place,h]
 rfl

@[simp] lemma directed_addEdge (u v : NodeId) (a : Attrs) :
 (g.addEdge u v a).directed = g.directed := by
 unfold addEdge; simp only; split <;> simp

@[simp] lemma multi_addEdge (u v : NodeId) (a : Attrs) : (g.addEdge u v a).multi = g.multi := by
 unfold addEdge; simp only; split <;> simp_all

lemma attrs_addEdge {P : Attrs → Prop} (h : ∀ e ∈ g.edges, P e.attrs) (ha : P a)
 (hput : ∀ b, P b → P (b.putAll a.entries)) (u v : NodeId) :
  ∀ e ∈ (g.addEdge u v a).edges, P e.attrs := by
 have hnew : ∀ key, ∀ e ∈ g.edges ++ [⟨u,v,key,a⟩], P e.attrs := by
  intro key e he
  rcases mem_append.1 he with he | he
  · exact h e he
  · rw [mem_singleton.1 he]
    exact ha
 intro e he
 rw [addEdge] at he
 dsimp only at he
 split at he
 · rw [edges_touch,edges_touch] at he
   exact hnew _ e he
 · rw [place,edges_touch,edges_touch] at he
   split at he
   · obtain ⟨f,hf,rfl⟩ := mem_map.1 he
     split
     · exact hput _ (h f hf)
     · exact h f hf
   · exact hnew _ e he

variable (hm : g.multi = false) (hu : u ∈ g.ids) (hv : v ∈ g.ids)
include hm hu hv

lemma addEdge_of_mem (a : Attrs) : g.addEdge u v a = g.place ⟨u,v,.none,a⟩ (g.joins u v) := by
 simp [addEdge,touch_of_mem hu,touch_of_mem hv,hm]

lemma addEdge_of_not_hasEdge (h : g.hasEdge u v = false) (a : Attrs) :
 g.addEdge u v a = { g with edges := g.edges ++ [⟨u,v,.none,a⟩] } := by
 rw [addEdge_of_mem hm hu hv,place_of_not_known h]

end
end MotifMatch.Graph
