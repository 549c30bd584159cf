import MotifMatch.Preparation.Process
import MotifMatch.Proofs.Loading

namespace MotifMatch.Graph
open List Array Except
variable {g : Graph}
variable {α β : Type}

lemma size_foldl (xs : Array α) {f : Array β → α → Array β} (hf : ∀ acc x, (f acc x).size = acc.size)
 (init : Array β) : (xs.foldl f init).size = init.size := by
 rw [← foldl_toList]
 induction xs.toList generalizing init with
 | nil => rfl
 | cons x xs ih => rw [foldl_cons,ih,hf]

lemma size_rankStep (n : Float) (steps : Array (Array (Nat × Float))) (totals x : Array Float) :
 (rankStep n steps totals x).size = x.size := by
 rw [rankStep,size_map,size_foldl,size_replicate]
 intro acc i
 dsimp only
 split
 · rfl
 · exact size_foldl _ (fun acc s => size_modify) acc

lemma size_rankLoop (n : Float) (steps : Array (Array (Nat × Float))) (totals : Array Float)
 (k : Nat) (x : Array Float) :
 (rankLoop n steps totals k x).size = x.size := by
 induction k generalizing x with
 | zero => rfl
 | succ k ih =>
  rw [rankLoop]
  split
  · exact size_rankStep n steps totals x
  · rw [ih,size_rankStep]

lemma foldlM_ok {f : β → α → Except Error β} {xs : List α}
 (h : ∀ acc, ∀ x ∈ xs, ∃ acc', f acc x = .ok acc')
 (init : β) : ∃ out, xs.foldlM f init = .ok out := by
 induction xs generalizing init with
 | nil => exact ⟨init,rfl⟩
 | cons x xs ih =>
  obtain ⟨acc,hacc⟩ := h init x (by simp)
  obtain ⟨out,hout⟩ := ih (fun acc y hy => h acc y (by simp [hy])) acc
  exact ⟨out,by rw [foldlM_cons,hacc]; exact hout⟩

lemma weightedSteps_ok (hw : ∀ e ∈ g.edges, e.attrs.get? "weight" = none) :
 ∃ steps, g.weightedSteps = .ok steps := by
 refine foldlM_ok (fun acc e he => ?_) _
 simp only [hw e he]
 exact ⟨_,rfl⟩

lemma best_mem (better : α × β → α × β → Bool) (first : α × β) (rest : List (α × β)) :
 rest.foldl (fun best e => if better best e then e else best) first ∈ first :: rest := by
 induction rest generalizing first with
 | nil => simp
 | cons e rest ih =>
  rw [foldl_cons]
  split
  · exact mem_cons_of_mem _ (ih e)
  · rcases mem_cons.1 (ih first) with h | h
    · rw [h]
      exact mem_cons_self
    · exact mem_cons_of_mem _ (mem_cons_of_mem _ h)

lemma ranks_ok (hw : ∀ e ∈ g.edges, e.attrs.get? "weight" = none) : ∃ rs, g.ranks = .ok rs := by
 obtain ⟨steps,hste⟩ := weightedSteps_ok hw
 unfold ranks
 split
 · exact ⟨_,rfl⟩
 · simp only [hste,bind,bind]
   exact ⟨_,rfl⟩

lemma topRanked_mem (hne : g.ids ≠ []) (h : ∃ rs, g.ranks = .ok rs) :
 ∃ n ∈ g.ids, g.topRanked = .ok n := by
 obtain ⟨_,h⟩ := h
 have hlen : g.ids.length = g.size := length_map _
 have hpos : 0 < g.ids.length := length_pos_of_ne_nil hne
 have hsiz : g.size ≠ 0 := by omega
 obtain ⟨rs,hrs,hran⟩ : ∃ rs, rs.length = g.size ∧ g.ranks = .ok (g.ids.zip rs) := by
  rw [ranks,if_neg hsiz] at h
  obtain ⟨steps,hste,_⟩ := bind_eq_ok h
  refine ⟨_,?_,by rw [ranks,if_neg hsiz]; simp only [hste,bind,bind]; rfl⟩
  rw [length_toList,size_rankLoop,size_replicate]
 cases hzip : g.ids.zip rs with
 | nil =>
  have hboth := congrArg length hzip
  rw [length_zip,length_nil] at hboth
  omega
 | cons first rest =>
  have hbest := best_mem (fun b e => decide (b.2 < e.2)) first rest
  rw [← hzip] at hbest
  refine ⟨_,(of_mem_zip hbest).1,?_⟩
  rw [topRanked,hran]
  simp only [bind,bind,hzip,decide_eq_true_iff]
  rfl

lemma ranks_marked (anchor : NodeId) : (g.marked anchor).ranks = g.ranks := by
 have hsiz : (g.marked anchor).size = g.size := length_map _
 rw [ranks,ranks,hsiz,ids_marked,weightedSteps,weightedSteps,ids_marked]
 rfl

lemma topRanked_marked (anchor : NodeId) : (g.marked anchor).topRanked = g.topRanked := by
 rw [topRanked,topRanked,ranks_marked]

def Natural (g : Graph) : Prop := ∀ n ∈ g.ids, ∃ k : Nat, n = .num k

lemma isAnchor_put (a : Attrs) (i : Int) : isAnchor (a.put "anchor" (.int i)) = (i == 1) := by
 rw [isAnchor,Table.get?_put_self]
 exact Value.same_int i 1

end MotifMatch.Graph

namespace MotifMatch.Preparation
open List MotifMatch.Graph Table
variable {g : Graph} {a t : Int}

lemma checkAnchor_ok (hg : g.Natural) (h : ∃ e ∈ g.nodes.entries, isAnchor e.2 = true) :
 checkAnchor g = .ok () := by
 obtain ⟨e,he⟩ := Option.isSome_iff_exists.1 (find?_isSome.2 h)
 obtain ⟨k,hk⟩ := hg e.1 (mem_map_of_mem (mem_of_find?_eq_some he))
 have hanc : g.anchor = .num k := by
  rw [anchor,anchor?,he,← hk]
  rfl
 rw [checkAnchor,hanc]
 exact if_neg (by omega)

lemma checkAnchor_marked {n : NodeId} (hg : g.Natural) (hn : n ∈ g.ids) :
 checkAnchor (g.marked n) = .ok () := by
 refine checkAnchor_ok (fun n hn => hg n (ids_marked ▸ hn)) ?_
 obtain ⟨e,he,hid⟩ := mem_map.1 hn
 exact ⟨_,mem_map_of_mem he,by rw [isAnchor_put,if_pos hid]; rfl⟩

lemma setNodeAttr_marked {m : NodeId} (hm : m ∉ g.ids) (n : NodeId) :
 (g.marked m).setNodeAttr n "anchor" (.int 1) = g.marked n := by
 have hent : ∀ e ∈ g.nodes.entries, e.1 ≠ m := fun e he hid => hm (hid ▸ mem_map_of_mem he)
 simp only [setNodeAttr,Graph.marked,Table.modify,map_map,Graph.mk.injEq,Table.mk.injEq,
  true_and,and_true]
 refine map_congr_left fun e he => ?_
 by_cases hid : e.1 = n <;> simp [hid,hent e he,put_put_self]

lemma markGraph_elects (hg : g.Natural) (hne : g.ids ≠ [])
 (hran : ∃ rs, g.ranks = .ok rs) (t : Int) :
 ∃ n ∈ g.ids, markGraph t g = (g.marked n,.ok ()) ∧ (.num t ∈ g.ids → n = .num t) ∧
  (.num t ∉ g.ids → g.topRanked = .ok n) := by
 have hfir : { g with nodes := g.nodes.mapValues fun n a => a.put "anchor" (.int (if n == .num t then 1 else 0)) } =
  g.marked (.num t) := by
  simp only [Table.mapValues,beq_iff_eq,Graph.marked]
 by_cases ht : .num t ∈ g.ids
 · refine ⟨_,ht,?_,fun _ => rfl,fun h => absurd ht h⟩
   rw [markGraph,hfir,if_pos (hasNode_iff.2 ht),checkAnchor_marked hg ht]
 · obtain ⟨n,hn,htop⟩ := topRanked_mem hne hran
   refine ⟨n,hn,?_,fun h => absurd h ht,fun _ => htop⟩
   rw [markGraph,hfir,if_neg (mt hasNode_iff.1 ht),topRanked_marked,htop]
   simp only [setNodeAttr_marked ht,checkAnchor_marked hg hn]

lemma markGraph_of_mem (hg : g.Natural) (ht : .num t ∈ g.ids) :
 markGraph t g = (g.marked (.num t),.ok ()) := by
 simp only [markGraph,hasNode_iff.2 ht,if_true,mapValues,beq_iff_eq]
 exact congrArg (Prod.mk _) (checkAnchor_marked hg ht)

lemma markGraph_ok (hg : g.Natural) (hne : g.ids ≠ [])
 (hw : ∀ e ∈ g.edges, e.attrs.get? "weight" = none) (t : Int) :
 ∃ g', markGraph t g = (g',.ok ()) := by
 obtain ⟨n,_,h,_⟩ := markGraph_elects hg hne (ranks_ok hw) t
 exact ⟨_,h⟩

def targetOf (anchor : Value) (mappings : Option (List (Value × Value))) (k : Value) :
 Except Error Int := do
 let a ← wholeOf anchor
 match mappings with
 | none => return a
 | some ms => match (mk ms).get? k with
  | none => throw .missingKey
  | some m => anchorImage (← pairsOf m) a

variable {α : Type} {xs : List α} {key : α → Int} {graph : α → Graph}

lemma markAll_eq (key : α → Value) (graph : α → Graph) (target : α → Int) {anchor : Value}
 {mappings : Option (List (Value ×
 Value))}
 (h : ∀ x ∈ xs, targetOf anchor mappings (key x) = .ok (target x) ∧
  (markGraph (target x) (graph x)).2 = .ok ()) :
 markAll anchor mappings (xs.map fun x => (key x,graph x)) =
  (xs.map fun x => (key x,(markGraph (target x) (graph x)).1),.ok ()) := by
 induction xs with
 | nil => rfl
 | cons x xs ih =>
  obtain ⟨htar,hmark⟩ := h x (by simp)
  rw [map_cons,markAll,ih fun y hy => h y (by simp [hy])]
  split
  · next e he => cases Eq.trans he.symm htar
  · next t ht =>
    obtain rfl : t = target x := Except.ok.inj (Eq.trans ht.symm htar)
    cases hmar : markGraph (target x) (graph x) with
    | mk g' r =>
     obtain rfl : r = .ok () := by rw [← hmark,hmar]
     simp only [hmar,map_cons]

lemma marked_eq (target : α → Int) {anchor : Option Int} {pairs : Option Pairs}
 {graphs : Listing.Graphs}
 (hgra : graphs.entries = xs.map fun x => (key x,graph x))
 (h : ∀ x ∈ xs, targetOf (anchorValue anchor) (pairs.map pairsValue) (.int (key x)) =
  .ok (target x) ∧
  (markGraph (target x) (graph x)).2 = .ok ()) :
 marked anchor pairs graphs = .ok (xs.map fun x => (key x,(markGraph (target x) (graph x)).1)) := by
 have hzip : graphs.keys.zip (xs.map fun x => (markGraph (target x) (graph x)).1) =
  xs.map fun x => (key x,(markGraph (target x) (graph x)).1) := by
  rw [Table.keys,hgra,map_map,zip_map']
  rfl
 rw [marked,hgra,map_map,← hzip]
 have hall := markAll_eq _ _ _ h
 simp only [Function.comp_def,hall,map_map]
 rfl

lemma marked_single {g' : Graph} (h : markGraph a g = (g',.ok ())) (i : Int) :
 marked (some a) none (empty.put i g) = .ok (empty.put i g').entries := by
 have hgra : (empty.put i g).entries = [()].map fun _ => (i,g) := rfl
 have hone : marked (some a) none (empty.put i g) = _ :=
  marked_eq (fun _ => a) hgra fun _ _ => ⟨rfl,by rw [h]⟩
 rwa [h] at hone

lemma found_put {ν : Type} (t : Table Int ν) (k : Int) (v : ν) : found (t.put k v) k = .ok v := by
 rw [found,get?_put_self]

lemma get?_pairsValue (t : Pairs) (k : Int) : (mk (pairsValue t)).get? (.int k) =
 (t.get? k).map fun ps => .list (ps.map fun p => .tuple [.int p.1,.int p.2]) := by
 obtain ⟨es⟩ := t
 rw [pairsValue]
 induction es with
 | nil => rfl
 | cons e es ih =>
  rw [map_cons,get?_mk_cons,get?_mk_cons,ih]
  simp only [Value.same_int]
  cases e.1 == k <;> rfl

lemma pairsOf_list (ps : List (Int × Int)) :
 pairsOf (.list (ps.map fun p => .tuple [.int p.1,.int p.2])) =
 .ok (ps.map fun p => (.int p.1,.int p.2)) := by
 rw [pairsOf]
 induction ps with
 | nil => rfl
 | cons p ps ih =>
  rw [map_cons,mapM_cons]
  simp only [ih,bind,Except.bind]
  rfl

/-- The last pair whose second node is this one has this first node. -/
def LastPaired (ps : List (Int × Int)) (a t : Int) : Prop :=
 ∃ l r, ps = l ++ (t,a) :: r ∧ ∀ p ∈ r, p.2 ≠ a

lemma lastPaired_iff {ps : List (Int × Int)} :
 LastPaired ps a t ↔ (ps.reverse.find? fun p => p.2 == a) = some (t,a) := by
 rw [find?_eq_some_iff_append]
 constructor
 · rintro ⟨l,r,rfl,hr⟩
   exact ⟨by simp,r.reverse,l.reverse,by simp,by simpa using hr⟩
 · rintro ⟨_,l,r,hlr,hl⟩
   exact ⟨r.reverse,l.reverse,by rw [← reverse_reverse ps,hlr]; simp,by simpa using hl⟩

lemma anchorImage_cases (ps : List (Int × Int)) (a : Int) :
 (∃ t, LastPaired ps a t ∧ anchorImage (ps.map fun p => (.int p.1,.int p.2)) a = .ok t) ∨
  (∀ p ∈ ps, p.2 ≠ a) ∧ anchorImage (ps.map fun p => (.int p.1,.int p.2)) a = .ok (-1) := by
 have hfind : (ps.map fun p => ((.int p.1,.int p.2) : Value × Value)).reverse.find?
  (fun p => p.2 == .int a) =
  (ps.reverse.find? fun p => p.2 == a).map fun p => (.int p.1,.int p.2) := by
  rw [← map_reverse,find?_map]
  simp only [Function.comp_def,Value.same_int]
 rw [anchorImage,hfind]
 cases hlast : ps.reverse.find? fun p => p.2 == a with
 | none => exact .inr ⟨fun p hp => by simpa using find?_eq_none.1 hlast p (mem_reverse.2 hp),rfl⟩
 | some p =>
  obtain ⟨t,b⟩ := p
  obtain rfl : b = a := by simpa using find?_some hlast
  exact .inl ⟨t,lastPaired_iff.2 hlast,rfl⟩

lemma anchorImage_ok (ps : List (Int × Int)) (a : Int) :
 ∃ t, anchorImage (ps.map fun p => (.int p.1,.int p.2)) a = .ok t := by
 rcases anchorImage_cases ps a with ⟨t,_,ht⟩ | ⟨_,ht⟩ <;> exact ⟨_,ht⟩

lemma anchorImage_eq {ps : List (Int × Int)} (hmem : (t,a) ∈ ps)
 (huniq : ∀ p ∈ ps, p.2 = a → p.1 = t) :
 anchorImage (ps.map fun p => (.int p.1,.int p.2)) a = .ok t := by
 rcases anchorImage_cases ps a with ⟨u,⟨l,r,rfl,_⟩,ht⟩ | ⟨hnone,_⟩
 · rw [ht,← huniq (u,a) (by simp) rfl]
 · exact absurd rfl (hnone _ hmem)

variable {anchor : Value} {mappings : Option (List (Value × Value))}
 {pairs : Value → List (Int × Int)}

/-- The node to mark a graph at: the source's own anchor, or what the pairs of the graph give for
it. -/
def Wanted (mappings : Option (List (Value × Value))) (ps : List (Int × Int)) (a t : Int) : Prop :=
 if mappings.isSome then LastPaired ps a t else t = a

structure Elects (mappings : Option (List (Value × Value))) (ps : List (Int × Int)) (a : Int)
 (g g' : Graph) (n : NodeId) : Prop
 where
 mem : n ∈ g.ids
 wanted : ∀ t, Wanted mappings ps a t → .num t ∈ g.ids → n = .num t
 ranked : (∀ t, Wanted mappings ps a t → .num t ∉ g.ids) → g.topRanked = .ok n
 anchor : ∀ m ∈ g.ids, g'.nodeAttr? m "anchor" = some (.int (if m = n then 1 else 0))
 others : ∀ m ∈ g.ids, ∀ name ≠ "anchor", g'.nodeAttr? m name = g.nodeAttr? m name
 ids : g'.ids = g.ids
 rest : g' = { g with nodes := g'.nodes }

lemma targetOf_wanted (ha : wholeOf anchor = .ok a) (k : Value)
 (hmap : ∀ ms, mappings = some ms → (mk ms).get? k =
  some (.list ((pairs k).map fun p => .tuple [.int p.1,.int p.2]))) :
 ∃ t, targetOf anchor mappings k = .ok t ∧
  (Wanted mappings (pairs k) a t ∨ (∀ u, ¬Wanted mappings (pairs k) a u) ∧ t = -1) := by
 cases mappings with
 | none => exact ⟨a,by simp only [targetOf,ha]; rfl,.inl rfl⟩
 | some ms =>
  have htar : targetOf anchor (some ms) k =
   anchorImage ((pairs k).map fun p => (.int p.1,.int p.2)) a := by
   simp only [targetOf,ha,hmap ms rfl,pairsOf_list]
   rfl
  rcases anchorImage_cases (pairs k) a with ⟨t,hlast,ht⟩ | ⟨hnone,ht⟩
  · exact ⟨t,htar.trans ht,.inl hlast⟩
  · refine ⟨-1,htar.trans ht,.inr ⟨?_,rfl⟩⟩
    rintro u ⟨l,r,hps,_⟩
    exact hnone (u,a) (by simp [hps]) rfl

lemma Wanted.unique {ps : List (Int × Int)} {u : Int} (h : Wanted mappings ps a t)
 (h' : Wanted mappings ps a u) : t = u := by
 unfold Wanted at h h'
 split at h
 · next hsome =>
   rw [if_pos hsome,lastPaired_iff] at h'
   exact congrArg Prod.fst (Option.some.inj ((lastPaired_iff.1 h).symm.trans h'))
 · next hnone =>
   rw [if_neg hnone] at h'
   rw [h,h']

lemma elects_marked {ps : List (Int × Int)} {n : NodeId} (hg : g.Sound) (hnat : g.Natural)
 (hn : n ∈ g.ids)
 (ht : Wanted mappings ps a t ∨ (∀ u, ¬Wanted mappings ps a u) ∧ t = -1)
 (hmem : .num t ∈ g.ids → n = .num t)
 (htop : .num t ∉ g.ids → g.topRanked = .ok n) : Elects mappings ps a g (g.marked n) n where
 mem := hn
 wanted u hu hin := by
  rcases ht with ht | ⟨hnone,_⟩
  · rw [← ht.unique hu] at hin ⊢
    exact hmem hin
  · exact absurd hu (hnone u)
 ranked hout := by
  refine htop ?_
  rcases ht with ht | ⟨_,rfl⟩
  · exact hout t ht
  · intro hin
    obtain ⟨k,hk⟩ := hnat _ hin
    cases hk
 anchor m hm := by
  obtain ⟨as,has⟩ := exists_attrs hm
  rw [nodeAttr?,attrs?_marked hg has,Option.bind_some,get?_put_self]
 others m hm name hnam := by
  obtain ⟨as,has⟩ := exists_attrs hm
  rw [nodeAttr?,attrs?_marked hg has,nodeAttr?,has,Option.bind_some,Option.bind_some,get?_put,
   if_neg hnam]
 ids := ids_marked
 rest := rfl

theorem markAll_elects (pairs : Value → List (Int × Int)) {gs : List (Value × Graph)}
 (ha : wholeOf anchor = .ok a)
 (hgs : ∀ e ∈ gs, e.2.Sound ∧ e.2.Natural ∧ e.2.ids ≠ [] ∧ ∃ rs, e.2.ranks = .ok rs)
 (hmap : ∀ ms, mappings = some ms → ∀ e ∈ gs,
  (mk ms).get? e.1 = some (.list ((pairs e.1).map fun p => .tuple [.int p.1,.int p.2]))) :
 ∃ gs', markAll anchor mappings gs = (gs',.ok ()) ∧
  Forall₂ (fun e e' => e'.1 = e.1 ∧ ∃ n, Elects mappings (pairs e.1) a e.2 e'.2 n) gs gs' := by
 choose! target htar hwan using fun e he => targetOf_wanted ha e.1 fun ms hms => hmap ms hms e he
 have hele : ∀ e ∈ gs, ∃ n, markGraph (target e) e.2 = (e.2.marked n,.ok ()) ∧
  Elects mappings (pairs e.1) a e.2 (e.2.marked n) n := by
  intro e he
  obtain ⟨hsou,hnat,hne,hran⟩ := hgs e he
  obtain ⟨n,hn,hmark,hmem,htop⟩ := markGraph_elects hnat hne hran (target e)
  exact ⟨n,hmark,elects_marked hsou hnat hn (hwan e he) hmem htop⟩
 have hall := markAll_eq Prod.fst Prod.snd target fun e he =>
  ⟨htar e he,by obtain ⟨n,hmark,_⟩ := hele e he; rw [hmark]⟩
 rw [map_id'] at hall
 refine ⟨_,hall,forall₂_map_right_iff.2 (forall₂_same.2 fun e he => ⟨rfl,?_⟩)⟩
 obtain ⟨n,hmark,helect⟩ := hele e he
 exact ⟨n,by rwa [hmark]⟩

def twoMarked : Graph where
 directed := false
 multi := false
 nodes := ⟨[(.num 0,⟨[("label",.int 1),("anchor",.int 1)]⟩),(.num 1,⟨[("anchor",.int 1)]⟩)]⟩
 edges := [⟨.num 0,.num 1,.none,.empty⟩]

def twicePaired : Pairs := ⟨[(0,[(0,5),(1,5)])]⟩

theorem twoMarked_elects : ∃ gs', markAll (.str "5") (some (pairsValue twicePaired))
 [(.int 0,twoMarked)] = (gs',.ok ()) ∧
 Forall₂ (fun e e' => e'.1 = e.1 ∧ ∃ n, Elects (some (pairsValue twicePaired))
  [(0,5),(1,5)] 5 e.2 e'.2 n) [(.int 0,twoMarked)]
  gs' := by
 refine markAll_elects (fun _ => [(0,5),(1,5)]) rfl ?_ ?_
 · rw [forall_mem_singleton]
   refine ⟨by decide,fun n hn => ?_,by decide,ranks_ok (by simp [twoMarked,Table.empty,Table.get?])⟩
   rcases mem_pair.1 hn with rfl | rfl
   · exact ⟨0,rfl⟩
   · exact ⟨1,rfl⟩
 · intro ms hms
   cases hms
   rw [forall_mem_singleton,get?_pairsValue]
   rfl

end MotifMatch.Preparation
