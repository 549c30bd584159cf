import Mathlib.Data.List.Perm.Subperm
import MotifMatch.Proofs.Copies

namespace MotifMatch.Graph
open List Indexed MotifMatch.Graph.Embedding Assignment
variable {e : Nat × Attrs}
namespace Indexed
variable {x : Indexed} {i j : Nat} {a : Attrs}

structure Simple (x : Indexed) : Prop where
 lt : ∀ i, ∀ e ∈ x.nearOf i, e.1 < x.size
 once : ∀ i, ((x.nearOf i).map Prod.fst).Nodup

lemma adjacent_iff : x.adjacent i j ↔ ∃ e ∈ x.nearOf i, e.1 = j := by
 simp only [adjacent,any_eq_true,beq_iff_eq]

lemma adjacent_iff_mem : x.adjacent i j ↔ j ∈ (x.nearOf i).map Prod.fst := by
 rw [adjacent_iff,mem_map]

lemma mem_of_edgeAttrs? (h : x.edgeAttrs? i j = some a) : (j,a) ∈ x.nearOf i := by
 obtain ⟨e,he,rfl⟩ := Option.map_eq_some_iff.1 h
 have hj : e.1 = j := by simpa using find?_some he
 exact hj ▸ mem_of_find?_eq_some he

lemma Simple.edgeAttrs? (hx : x.Simple) (he : e ∈ x.nearOf i) : x.edgeAttrs? i e.1 = some e.2 := by
 have hsome : ((x.nearOf i).find? fun f => f.1 == e.1).isSome := find?_isSome.2 ⟨e,he,by simp⟩
 obtain ⟨f,hf⟩ := Option.isSome_iff_exists.1 hsome
 have hfst : f.1 = e.1 := by simpa using find?_some hf
 rw [Indexed.edgeAttrs?,hf,inj_on_of_nodup_map (hx.once i) (mem_of_find?_eq_some hf) he hfst]
 rfl

end Indexed

namespace Embedding
variable {like : Likeness} {host motif : Indexed} {p : Assignment} {φ : Nat → Nat} {i j : Nat}
section
variable {α : Type} {attempt : α → Except Error Bool} {xs : List α}
variable (h : ∀ x ∈ xs, ∃ b, attempt x = .ok b)
include h

lemma anyOf_iff : ∃ b, anyOf attempt xs = .ok b ∧ (b ↔ ∃ x ∈ xs, attempt x = .ok true) := by
 induction xs with
 | nil => exact ⟨false,rfl,by simp⟩
 | cons x xs ih =>
  obtain ⟨b,hb⟩ := h x (by simp)
  rw [anyOf,hb]
  cases b with
  | true => exact ⟨true,rfl,by simp [hb]⟩
  | false =>
   obtain ⟨b,hok,hiff⟩ := ih fun y hy => h y (by simp [hy])
   exact ⟨b,hok,by simp [hiff,hb]⟩

lemma anyOf_ok : ∃ b, anyOf attempt xs = .ok b :=
 (anyOf_iff h).imp fun _ h => h.1

lemma anyOf_true {x : α} (hx : x ∈ xs) (htrue : attempt x = .ok true) :
 anyOf attempt xs = .ok true := by
 obtain ⟨b,hb,hiff⟩ := anyOf_iff h
 rw [hb,hiff.2 ⟨x,hx,htrue⟩]

end

lemma hostUsed_iff : p.hostUsed i ↔ ∃ q ∈ p.pairs, q.1 = i := by
 simp only [hostUsed,any_eq_true,beq_iff_eq]

lemma motifUsed_iff : p.motifUsed j ↔ ∃ q ∈ p.pairs, q.2 = j := by
 simp only [motifUsed,any_eq_true,beq_iff_eq]

lemma mem_of_motifOf? (h : p.motifOf? i = some j) : (i,j) ∈ p.pairs := by
 obtain ⟨q,hq,rfl⟩ := Option.map_eq_some_iff.1 h
 have hi : q.1 = i := by simpa using find?_some hq
 exact hi ▸ mem_of_find?_eq_some hq

lemma mem_of_hostOf? (h : p.hostOf? j = some i) : (i,j) ∈ p.pairs := by
 obtain ⟨q,hq,rfl⟩ := Option.map_eq_some_iff.1 h
 have hj : q.2 = j := by simpa using find?_some hq
 exact hj ▸ mem_of_find?_eq_some hq

lemma mem_foldl_discover (js known : List Nat) (k : Nat) :
 k ∈ js.foldl (fun acc j => if acc.contains j then acc else acc ++ [j]) known ↔ k ∈ known ∨
  k ∈ js := by
 induction js generalizing known with
 | nil => simp
 | cons j js ih =>
  rw [foldl_cons,ih]
  split
  · next hj =>
    have hj : j ∈ known := by simpa using hj
    rw [mem_cons]
    constructor
    · rintro (h | h)
      · exact .inl h
      · exact .inr (.inr h)
    · rintro (h | rfl | h)
      · exact .inl h
      · exact .inl hj
      · exact .inr h
  · rw [mem_append,mem_singleton,mem_cons,or_assoc]

lemma mem_discover {x : Indexed} {known : List Nat} {k : Nat} :
 k ∈ discover known x i ↔ k ∈ known ∨ k = i ∨ x.adjacent i k := by
 rw [discover,mem_foldl_discover,mem_cons,adjacent_iff_mem]

structure Charted (host motif : Indexed) (p : Assignment) : Prop where
 bounds : ∀ q ∈ p.pairs, q.1 < host.size ∧ q.2 < motif.size
 hostKnown : ∀ i, i ∈ p.hostKnown ↔ ∃ q ∈ p.pairs, i = q.1 ∨ host.adjacent q.1 i = true
 motifKnown : ∀ j, j ∈ p.motifKnown ↔ ∃ q ∈ p.pairs, j = q.2 ∨ motif.adjacent q.2 j = true

lemma charted_start : Charted host motif .start where
 bounds q hq := by cases hq
 hostKnown i := by simp [start]
 motifKnown j := by simp [start]

lemma Charted.extend (h : Charted host motif p) (hi : i < host.size) (hj : j < motif.size) :
 Charted host motif (extend host motif p i j) where
 bounds q hq := by
  rcases mem_cons.1 hq with rfl | hq
  · exact ⟨hi,hj⟩
  · exact h.bounds q hq
 hostKnown k := by
  rw [Embedding.extend,mem_discover,h.hostKnown,exists_mem_cons_iff,or_comm]
 motifKnown k := by
  rw [Embedding.extend,mem_discover,h.motifKnown,exists_mem_cons_iff,or_comm]

lemma Charted.candidates_lt (h : Charted host motif p) (hh : host.Simple) {q : Nat × Nat}
 (hq : q ∈ candidates host motif p) :
 q.1 < host.size ∧ q.2 < motif.size := by
 have hkno : ∀ i ∈ p.hostKnown, i < host.size := by
  intro i hi
  obtain ⟨r,hr,rfl | hadj⟩ := (h.hostKnown i).1 hi
  · exact (h.bounds r hr).1
  · obtain ⟨e,he,rfl⟩ := adjacent_iff.1 hadj
    exact hh.lt _ e he
 have hopen : ∀ j ∈ (range motif.size).filter fun j => !p.motifUsed j, j < motif.size := fun j hj =>
  mem_range.1 (mem_of_mem_filter hj)
 rw [candidates] at hq
 split at hq
 · next j _ hhost hmot =>
   obtain ⟨i,hi,rfl⟩ := mem_map.1 hq
   have hj : j ∈ ((range motif.size).filter fun j => !p.motifUsed j).filter
    p.motifKnown.contains := by simp [hmot]
   exact ⟨hkno i (mem_of_mem_filter hi),hopen j (mem_of_mem_filter hj)⟩
 · split at hq
   · cases hq
   · next j _ hmot =>
     obtain ⟨i,hi,rfl⟩ := mem_map.1 hq
     exact ⟨mem_range.1 (mem_of_mem_filter hi),hopen j (by simp [hmot])⟩

structure Comparable (like : Likeness) (host motif : Indexed) : Prop where
 nodes : ∀ i < host.size, ∀ j < motif.size, ∃ b, like.nodes (host.attrsOf i)
  (motif.attrsOf j) = .ok b
 edges : ∀ i j, ∀ e ∈ host.nearOf i, ∀ f ∈ motif.nearOf j, ∃ b, like.edges e.2 f.2 = .ok b

lemma Comparable.alikeEdges_ok (h : Comparable like host motif) (p : Assignment) (i j : Nat)
 {es : List (Nat × Attrs)}
 (hes : ∀ e ∈ es, e ∈ host.nearOf i) : ∃ b, alikeEdges like host motif p i j es = .ok b := by
 induction es with
 | nil => exact ⟨true,rfl⟩
 | cons e es ih =>
  have ih := ih fun f hf => hes f (by simp [hf])
  rw [alikeEdges]
  split
  · exact ih
  · next a ha =>
    obtain ⟨l,_,hl⟩ := Option.bind_eq_some_iff.1 ha
    obtain ⟨b,hb⟩ := h.edges i j e (hes e (by simp)) _ (mem_of_edgeAttrs? hl)
    rw [hb]
    cases b with
    | true => exact ih
    | false => exact ⟨false,rfl⟩

lemma Comparable.alike_ok (h : Comparable like host motif) (p : Assignment) (hi : i < host.size)
 (hj : j < motif.size) :
 ∃ b, alike like host motif p i j = .ok b := by
 obtain ⟨b,hb⟩ := h.nodes i hi j hj
 rw [alike,hb]
 cases b with
 | true => exact h.alikeEdges_ok p i j fun _ he => he
 | false => exact ⟨false,rfl⟩

def attempt (like : Likeness) (host motif : Indexed) (n : Nat) (p : Assignment) (q : Nat × Nat) :
 Except Error Bool := do
 if agrees host motif p q.1 q.2 && roomy host motif p q.1 q.2 then
  if ← alike like host motif p q.1 q.2 then search like host motif n (extend host motif p q.1 q.2)
  else return false
 else return false

lemma search_succ (n : Nat) (p : Assignment) :
 search like host motif (n + 1) p = anyOf (attempt like host motif n p) (candidates host motif p) :=
  rfl

lemma attempt_ok (h : Comparable like host motif) {n : Nat}
 (hsea : ∃ b, search like host motif n (extend host motif p i j) = .ok b) (hi : i < host.size)
 (hj : j < motif.size) :
 ∃ b, attempt like host motif n p (i,j) = .ok b := by
 rw [attempt]
 split
 · obtain ⟨b,hb⟩ := h.alike_ok p hi hj
   rw [hb]
   cases b with
   | true => exact hsea
   | false => exact ⟨false,rfl⟩
 · exact ⟨false,rfl⟩

lemma search_ok (h : Comparable like host motif) (hh : host.Simple) (n : Nat)
 (hp : Charted host motif p) :
 ∃ b, search like host motif n p = .ok b := by
 induction n generalizing p with
 | zero => exact ⟨true,rfl⟩
 | succ n ih =>
  rw [search_succ]
  refine anyOf_ok fun q hq => ?_
  obtain ⟨hi,hj⟩ := hp.candidates_lt hh hq
  exact attempt_ok h (ih (hp.extend hi hj)) hi hj

structure Copied (like : Likeness) (host motif : Indexed) (φ : Nat → Nat) : Prop where
 lt : ∀ j < motif.size, φ j < host.size
 inj : ∀ j < motif.size, ∀ k < motif.size, φ j = φ k → j = k
 adjacent : ∀ j < motif.size, ∀ k < motif.size, host.adjacent (φ j) (φ k) = motif.adjacent j k
 nodes : ∀ j < motif.size, like.nodes (host.attrsOf (φ j)) (motif.attrsOf j) = .ok true
 edges : ∀ j < motif.size, ∀ k < motif.size, ∀ a b, host.edgeAttrs? (φ j) (φ k) = some a →
  motif.edgeAttrs? j k = some b →
  like.edges a b = .ok true

lemma Copied.countP_le (hφ : Copied like host motif φ) (hm : motif.Simple) (hj : j < motif.size)
 {P Q : Nat → Bool}
 (hPQ : ∀ k < motif.size, P k → Q (φ k)) :
 ((motif.nearOf j).map Prod.fst).countP P ≤ ((host.nearOf (φ j)).map Prod.fst).countP Q := by
 have hlt : ∀ k ∈ (motif.nearOf j).map Prod.fst, k < motif.size := by
  intro k hk
  obtain ⟨e,he,rfl⟩ := mem_map.1 hk
  exact hm.lt j e he
 rw [countP_eq_length_filter,countP_eq_length_filter,← length_map φ]
 refine (Nodup.subperm ?_ ?_).length_le
 · refine ((hm.once j).filter _).map_on fun k hk l hl heq => ?_
   exact hφ.inj k (hlt k (mem_of_mem_filter hk)) l (hlt l (mem_of_mem_filter hl)) heq
 · intro i hi
   obtain ⟨k,hk,rfl⟩ := mem_map.1 hi
   obtain ⟨hnear,hP⟩ := mem_filter.1 hk
   have hk := hlt k hnear
   refine mem_filter.2 ⟨?_,hPQ k hk hP⟩
   rw [← adjacent_iff_mem] at hnear ⊢
   rw [hφ.adjacent j hj k hk,hnear]

def Follows (φ : Nat → Nat) (p : Assignment) : Prop := ∀ q ∈ p.pairs, q.1 = φ q.2

section
variable (hφ : Copied like host motif φ) (hp : Charted host motif p) (hf : Follows φ p)
include hφ hp hf

lemma Copied.hostUsed_eq (hj : j < motif.size) : p.hostUsed (φ j) = p.motifUsed j := by
 rw [Bool.eq_iff_iff,hostUsed_iff,motifUsed_iff]
 constructor
 · rintro ⟨q,hq,heq⟩
   exact ⟨q,hq,hφ.inj _ (hp.bounds q hq).2 _ hj ((hf q hq).symm.trans heq)⟩
 · rintro ⟨q,hq,rfl⟩
   exact ⟨q,hq,hf q hq⟩

lemma Copied.mem_hostKnown_iff (hj : j < motif.size) : φ j ∈ p.hostKnown ↔ j ∈ p.motifKnown := by
 rw [hp.hostKnown,hp.motifKnown]
 refine exists_congr fun q => and_congr_right fun hq => ?_
 have hlt := (hp.bounds q hq).2
 rw [hf q hq,hφ.adjacent _ hlt _ hj]
 exact or_congr_left ⟨fun heq => hφ.inj _ hj _ hlt heq,fun heq => by rw [heq]⟩

lemma Copied.exists_candidate (hlen : p.pairs.length < motif.size) :
 ∃ j < motif.size, p.motifUsed j = false ∧ (φ j,j) ∈ candidates host motif p := by
 have hmem : ∀ j, j ∈ (range motif.size).filter (fun j => !p.motifUsed j) ↔ j < motif.size ∧
  p.motifUsed j = false := by
  simp
 have hopen : (range motif.size).filter (fun j => !p.motifUsed j) ≠ [] := by
  intro hnil
  have hsub : range motif.size ⊆ p.pairs.map Prod.snd := by
   intro j hj
   obtain ⟨q,hq,rfl⟩ : ∃ q ∈ p.pairs, q.2 = j := by
    rw [← motifUsed_iff]
    simpa using filter_eq_nil_iff.1 hnil j hj
   exact mem_map_of_mem hq
  have hle := (nodup_range.subperm hsub).length_le
  rw [length_range,length_map] at hle
  omega
 rw [candidates]
 split
 · next j _ _ hmot =>
   have hj : j ∈ ((range motif.size).filter fun j => !p.motifUsed j).filter
    p.motifKnown.contains := by simp [hmot]
   obtain ⟨hj,hkno⟩ := mem_filter.1 hj
   obtain ⟨hlt,hunu⟩ := (hmem j).1 hj
   refine ⟨j,hlt,hunu,mem_map_of_mem (mem_filter.2 ⟨?_,?_⟩)⟩
   · exact (hφ.mem_hostKnown_iff hp hf hlt).2 (by simpa using hkno)
   · rw [hφ.hostUsed_eq hp hf hlt,hunu]
     rfl
 · split
   · next hnil => exact absurd hnil hopen
   · next j _ hmot =>
     obtain ⟨hlt,hunu⟩ := (hmem j).1 (by simp [hmot])
     refine ⟨j,hlt,hunu,mem_map_of_mem (mem_filter.2 ⟨mem_range.2 (hφ.lt j hlt),?_⟩)⟩
     rw [hφ.hostUsed_eq hp hf hlt,hunu]
     rfl

lemma Copied.agrees (hj : j < motif.size) : agrees host motif p (φ j) j := by
 rw [Embedding.agrees,Bool.and_eq_true,Bool.and_eq_true,all_eq_true,all_eq_true]
 refine ⟨⟨by rw [hφ.adjacent j hj j hj,beq_self_eq_true],fun e he => ?_⟩,fun e he => ?_⟩
 · split
   · next k hk =>
     have hpair := mem_of_motifOf? hk
     rw [← hφ.adjacent j hj k (hp.bounds _ hpair).2,← hf _ hpair]
     exact adjacent_iff.2 ⟨e,he,rfl⟩
   · rfl
 · split
   · next k hk =>
     have hpair := mem_of_hostOf? hk
     obtain rfl : k = φ e.1 := hf _ hpair
     rw [hφ.adjacent j hj _ (hp.bounds _ hpair).2]
     exact adjacent_iff.2 ⟨e,he,rfl⟩
   · rfl

lemma Copied.roomy (hm : motif.Simple) (hj : j < motif.size) : roomy host motif p (φ j) j := by
 have hkno : ∀ k < motif.size, p.hostKnown.contains (φ k) = p.motifKnown.contains k := by
  intro k hk
  rw [Bool.eq_iff_iff,contains_iff_mem,contains_iff_mem]
  exact hφ.mem_hostKnown_iff hp hf hk
 rw [Embedding.roomy,Bool.and_eq_true,decide_eq_true_iff,decide_eq_true_iff]
 refine ⟨hφ.countP_le hm hj fun k hk h => ?_,hφ.countP_le hm hj fun k hk h => ?_⟩
 · rw [hkno k hk,hφ.hostUsed_eq hp hf hk]
   exact h
 · rw [hkno k hk]
   exact h

lemma Copied.alikeEdges (hh : host.Simple) (hj : j < motif.size) {es : List (Nat × Attrs)}
 (hes : ∀ e ∈ es, e ∈ host.nearOf (φ j)) :
 alikeEdges like host motif p (φ j) j es = .ok true := by
 induction es with
 | nil => rfl
 | cons e es ih =>
  have ih := ih fun f hf => hes f (by simp [hf])
  rw [Embedding.alikeEdges]
  split
  · exact ih
  · next b hb =>
    obtain ⟨k,hima,hb⟩ := Option.bind_eq_some_iff.1 hb
    obtain ⟨hk,hpla⟩ : k < motif.size ∧ e.1 = φ k := by
     split at hima
     · next hloop =>
       cases hima
       exact ⟨hj,by simpa using hloop⟩
     · have hpair := mem_of_motifOf? hima
       exact ⟨(hp.bounds _ hpair).2,hf _ hpair⟩
    have hhost := hh.edgeAttrs? (hes e (by simp))
    rw [hpla] at hhost
    rw [hφ.edges j hj k hk _ _ hhost hb]
    exact ih

lemma Copied.attempt_eq (hh : host.Simple) (hm : motif.Simple) (hj : j < motif.size) (n : Nat) :
 attempt like host motif n p (φ j,j) = search like host motif n (extend host motif p (φ j) j) := by
 have hali : alike like host motif p (φ j) j = .ok true := by
  rw [alike,hφ.nodes j hj]
  exact hφ.alikeEdges hp hf hh hj fun _ he => he
 rw [attempt,if_pos (by rw [hφ.agrees hp hf hj,hφ.roomy hp hf hm hj]; rfl),hali]
 rfl

end

lemma Copied.search_true (hφ : Copied like host motif φ) (hlike : Comparable like host motif)
 (hh : host.Simple)
 (hm : motif.Simple) (n : Nat) (hp : Charted host motif p) (hf : Follows φ p)
 (hlen : p.pairs.length + n = motif.size) :
 search like host motif n p = .ok true := by
 induction n generalizing p with
 | zero => rfl
 | succ n ih =>
  obtain ⟨j,hj,_,hmem⟩ := hφ.exists_candidate hp hf (by omega)
  rw [search_succ]
  refine anyOf_true (fun q hq => ?_) hmem ?_
  · obtain ⟨hi,hj⟩ := hp.candidates_lt hh hq
    exact attempt_ok hlike (search_ok hlike hh n (hp.extend hi hj)) hi hj
  · rw [hφ.attempt_eq hp hf hh hm hj]
    refine ih (hp.extend (hφ.lt j hj) hj) (fun q hq => ?_) ?_
    · rcases mem_cons.1 hq with rfl | hq
      · rfl
      · exact hf q hq
    · rw [extend,length_cons]
      omega

end Embedding

section
variable {g : Graph} {i j : Nat} {u v : NodeId}

lemma size_indexed (g : Graph) : g.indexed.size = g.ids.length := by
 simp [Indexed.size,indexed,Table.values,ids,Table.keys]

lemma nearOf_indexed (i : Nat) : g.indexed.nearOf i =
 (g.ids[i]?.map fun u => (g.leaving u).map fun e => (g.ids.idxOf e.target,e.attrs)).getD [] := by
 rw [nearOf,indexed,Array.getD_eq_getD_getElem?,getElem?_toArray,getElem?_map]

lemma attrs?_indexed (hg : g.Sound) (hu : g.ids[i]? = some u) :
 g.attrs? u = some (g.indexed.attrsOf i) := by
 rw [ids,Table.keys,getElem?_map,Option.map_eq_some_iff] at hu
 obtain ⟨e,he,rfl⟩ := hu
 have hatt : g.indexed.attrsOf i = e.2 := by
  rw [attrsOf,indexed,Array.getD_eq_getD_getElem?,getElem?_toArray,Table.values,getElem?_map,he]
  rfl
 rw [hatt]
 exact Table.get?_of_mem hg.ids (mem_of_getElem? he)

lemma pairwise_leaving (hg : g.Sound) (hm : g.multi = false) (u : NodeId) :
 (g.leaving u).Pairwise fun e f => e.target ≠ f.target := by
 refine Pairwise.filterMap _ ?_ (hg.single hm)
 intro e f hef x hx y hy heq
 obtain ⟨s,hs,rfl⟩ := Option.map_eq_some_iff.1 hx
 obtain ⟨t,ht,rfl⟩ := Option.map_eq_some_iff.1 hy
 obtain rfl : s = t := heq
 rw [farEnd?_eq_some_iff] at hs ht
 rw [← joins_of_joins hs,ht] at hef
 cases hef

lemma mem_nearOf_indexed (hg : g.Sound) (hu : g.ids[i]? = some u) : e ∈ g.indexed.nearOf i ↔
 ∃ v, g.ids[e.1]? = some v ∧ ∃ f ∈ g.edges, g.joins u v f ∧ f.attrs = e.2 := by
 rw [nearOf_indexed,hu,Option.map_some,Option.getD_some,mem_map]
 constructor
 · rintro ⟨f,hf,rfl⟩
   obtain ⟨x,hx,v,hj,rfl⟩ := mem_leaving.1 hf
   have hv : v ∈ g.ids := (hg.of_hasEdge (hasEdge_iff.2 ⟨x,hx,hj⟩)).2
   exact ⟨v,getElem?_idxOf hv,x,hx,hj,rfl⟩
 · rintro ⟨v,hv,f,hf,hj,hatt⟩
   obtain ⟨hlt,rfl⟩ := List.getElem?_eq_some_iff.1 hv
   exact ⟨_,mem_leaving.2 ⟨f,hf,_,hj,rfl⟩,Prod.ext (hg.ids.idxOf_getElem _ hlt) hatt⟩

lemma exists_of_mem_nearOf (he : e ∈ g.indexed.nearOf i) : ∃ u, g.ids[i]? = some u := by
 rw [nearOf_indexed] at he
 cases hu : g.ids[i]? with
 | some u => exact ⟨u,rfl⟩
 | none =>
  rw [hu] at he
  cases he

variable (hg : g.Sound) (hm : g.multi = false)
include hg hm

lemma simple_indexed : g.indexed.Simple where
 lt i e he := by
  obtain ⟨u,hu⟩ := exists_of_mem_nearOf he
  obtain ⟨v,hv,_⟩ := (mem_nearOf_indexed hg hu).1 he
  rw [size_indexed]
  exact lt_length hv
 once i := by
  rw [nearOf_indexed]
  cases hu : g.ids[i]? with
  | none => exact nodup_nil
  | some u =>
   rw [Option.map_some,Option.getD_some,map_map]
   refine pairwise_map.2 ((pairwise_leaving hg hm u).imp_of_mem fun {e f} he hf hne heq => hne ?_)
   obtain ⟨x,hx,v,hj,rfl⟩ := mem_leaving.1 he
   exact (idxOf_inj (hg.of_hasEdge (hasEdge_iff.2 ⟨x,hx,hj⟩)).2).1 heq

lemma edgeAttrs?_indexed (hu : g.ids[i]? = some u) (hv : g.ids[j]? = some v) :
 g.indexed.edgeAttrs? i j = g.edgeAttrs? u v := by
 ext a
 have hiff : g.indexed.edgeAttrs? i j = some a ↔ (j,a) ∈ g.indexed.nearOf i :=
  ⟨mem_of_edgeAttrs?,fun h => (simple_indexed hg hm).edgeAttrs? h⟩
 rw [hiff,mem_nearOf_indexed hg hu,hg.edgeAttrs?_eq_some_iff hm,hv]
 constructor
 · rintro ⟨_,hsome,h⟩
   cases hsome
   exact h
 · exact fun h => ⟨v,rfl,h⟩

lemma adjacent_indexed (hu : g.ids[i]? = some u) (hv : g.ids[j]? = some v) :
 g.indexed.adjacent i j = g.hasEdge u v := by
 have hsome : g.indexed.adjacent i j = (g.indexed.edgeAttrs? i j).isSome := by
  rw [Indexed.adjacent,Indexed.edgeAttrs?,Option.isSome_map,Bool.eq_iff_iff,find?_isSome,any_eq_true]
 rw [hsome,edgeAttrs?_indexed hg hm hu hv,isSome_edgeAttrs?]

end

section
variable {host motif : Graph} {φ : NodeId → NodeId}

def Agree (a b : Option Value) : Prop := ∃ x y, a = some x ∧ b = some y ∧ (x == y) = true

/-- A motif occurs in a host: its nodes have places of their own with the same labels, joined where
the nodes are by edges of the same label. -/
structure Occurs (motif host : Graph) (φ : NodeId → NodeId) : Prop where
 mem : ∀ n ∈ motif.ids, φ n ∈ host.ids
 inj : ∀ m ∈ motif.ids, ∀ n ∈ motif.ids, φ m = φ n → m = n
 label : ∀ n ∈ motif.ids, Agree (host.nodeAttr? (φ n) "label") (motif.nodeAttr? n "label")
 hasEdge : ∀ m ∈ motif.ids, ∀ n ∈ motif.ids, host.hasEdge (φ m) (φ n) = motif.hasEdge m n
 edgeLabel : ∀ m ∈ motif.ids, ∀ n ∈ motif.ids, motif.hasEdge m n = true →
  Agree (host.edgeLabel? (φ m) (φ n)) (motif.edgeLabel? m n)

instance (a b : Option Value) : Decidable (Agree a b) :=
 match a, b with
 | some x, some y =>
  if h : (x == y) = true then .isTrue ⟨x,y,rfl,rfl,h⟩
  else .isFalse fun ⟨_,_,hx,hy,hxy⟩ => h (Option.some.inj hx ▸ Option.some.inj hy ▸ hxy)
 | none, _ => .isFalse fun ⟨_,_,hx,_⟩ => nomatch hx
 | some _, none => .isFalse fun ⟨_,_,_,hy,_⟩ => nomatch hy

instance (motif host : Graph) (φ : NodeId → NodeId) : Decidable (Occurs motif host φ) :=
 decidable_of_iff ((∀ n ∈ motif.ids, φ n ∈ host.ids) ∧
  (∀ m ∈ motif.ids, ∀ n ∈ motif.ids, φ m = φ n → m = n) ∧
  (∀ n ∈ motif.ids, Agree (host.nodeAttr? (φ n) "label") (motif.nodeAttr? n "label")) ∧
  (∀ m ∈ motif.ids, ∀ n ∈ motif.ids, host.hasEdge (φ m) (φ n) = motif.hasEdge m n) ∧
  ∀ m ∈ motif.ids, ∀ n ∈ motif.ids, motif.hasEdge m n = true →
   Agree (host.edgeLabel? (φ m) (φ n)) (motif.edgeLabel? m n))
  ⟨fun ⟨hmem,hinj,hlab,hedge,hedgeLabel⟩ => ⟨hmem,hinj,hlab,hedge,hedgeLabel⟩,
   fun h => ⟨h.mem,h.inj,h.label,h.hasEdge,h.edgeLabel⟩⟩

structure Labelled (g : Graph) : Prop where
 sound : g.Sound
 single : g.multi = false
 nodes : ∀ n ∈ g.ids, ∃ v, g.nodeAttr? n "label" = some v
 edges : ∀ e ∈ g.edges, ∃ v, e.attrs.get? "label" = some v

lemma Labelled.attrsOf (h : Labelled host) {i : Nat} (hi : i < host.indexed.size) :
 ∃ v, (host.indexed.attrsOf i).get? "label" = some v := by
 rw [size_indexed] at hi
 have hu := getElem?_eq_getElem hi
 obtain ⟨v,hv⟩ := h.nodes _ (mem_of_getElem? hu)
 rw [nodeAttr?,attrs?_indexed h.sound hu] at hv
 exact ⟨v,hv⟩

lemma Labelled.nearOf (h : Labelled host) {i : Nat} (he : e ∈ host.indexed.nearOf i) :
 ∃ v, e.2.get? "label" = some v := by
 obtain ⟨u,hu⟩ := exists_of_mem_nearOf he
 obtain ⟨_,_,f,hf,_,hatt⟩ := (mem_nearOf_indexed h.sound hu).1 he
 rw [← hatt]
 exact h.edges f hf

lemma labelLikeness_eq {a b : Attrs} {x y : Value} (ha : a.get? "label" = some x)
 (hb : b.get? "label" = some y) :
 labelLikeness.nodes a b = .ok (x == y) ∧ labelLikeness.edges a b = .ok (x == y) := by
 have hx : attrOf a "label" = .ok x := by rw [attrOf,ha]
 have hy : attrOf b "label" = .ok y := by rw [attrOf,hb]
 constructor <;> simp only [labelLikeness,hx,hy,bind,Except.bind] <;> rfl

lemma Labelled.comparable (hh : Labelled host) (hm : Labelled motif) :
 Comparable labelLikeness host.indexed motif.indexed where
 nodes i hi j hj := by
  obtain ⟨x,hx⟩ := hh.attrsOf hi
  obtain ⟨y,hy⟩ := hm.attrsOf hj
  exact ⟨_,(labelLikeness_eq hx hy).1⟩
 edges i j e he f hf := by
  obtain ⟨x,hx⟩ := hh.nearOf he
  obtain ⟨y,hy⟩ := hm.nearOf hf
  exact ⟨_,(labelLikeness_eq hx hy).2⟩

variable (h : Occurs motif host φ) (hh : Labelled host) (hm : Labelled motif)
include h hh hm

lemma Occurs.copied :
 Copied labelLikeness host.indexed motif.indexed fun j =>
  host.ids.idxOf (φ (motif.ids.getD j (.num 0))) := by
 have hmot : ∀ j < motif.indexed.size, ∃ n ∈ motif.ids, motif.ids[j]? = some n ∧
  motif.ids.getD j (.num 0) = n := by
  intro j hj
  rw [size_indexed] at hj
  have hn := getElem?_eq_getElem hj
  exact ⟨_,mem_of_getElem? hn,hn,by rw [getD_eq_getElem?_getD,hn,Option.getD_some]⟩
 have hhost : ∀ n ∈ motif.ids, host.ids[host.ids.idxOf (φ n)]? = some (φ n) :=
  fun n hn => getElem?_idxOf (h.mem n hn)
 refine ⟨fun j hj => ?_,fun j hj k hk heq => ?_,fun j hj k hk => ?_,fun j hj => ?_,
  fun j hj k hk a b ha hb => ?_⟩
 · obtain ⟨n,hn,_,hget⟩ := hmot j hj
   rw [hget,size_indexed]
   exact idxOf_lt_length_iff.2 (h.mem n hn)
 · obtain ⟨m,hm',hj',hget⟩ := hmot j hj
   obtain ⟨n,hn,hk',hget'⟩ := hmot k hk
   rw [hget,hget',idxOf_inj (h.mem m hm')] at heq
   obtain rfl := h.inj m hm' n hn heq
   rw [size_indexed] at hj
   exact (getElem?_inj hj hm.sound.ids).1 (hj'.trans hk'.symm)
 · obtain ⟨m,hm',hj',hget⟩ := hmot j hj
   obtain ⟨n,hn,hk',hget'⟩ := hmot k hk
   rw [hget,hget',adjacent_indexed hh.sound hh.single (hhost m hm') (hhost n hn),
    adjacent_indexed hm.sound hm.single hj' hk',
    h.hasEdge m hm' n hn]
 · obtain ⟨n,hn,hj',hget⟩ := hmot j hj
   obtain ⟨x,y,hx,hy,hxy⟩ := h.label n hn
   rw [nodeAttr?,attrs?_indexed hh.sound (hhost n hn)] at hx
   rw [nodeAttr?,attrs?_indexed hm.sound hj'] at hy
   rw [hget,(labelLikeness_eq hx hy).1,hxy]
 · obtain ⟨m,hm',hj',hget⟩ := hmot j hj
   obtain ⟨n,hn,hk',hget'⟩ := hmot k hk
   rw [hget,hget',edgeAttrs?_indexed hh.sound hh.single (hhost m hm') (hhost n hn)] at ha
   rw [edgeAttrs?_indexed hm.sound hm.single hj' hk'] at hb
   have hedge : motif.hasEdge m n := by rw [← isSome_edgeAttrs?,hb,Option.isSome_some]
   obtain ⟨x,y,hx,hy,hxy⟩ := h.edgeLabel m hm' n hn hedge
   rw [edgeLabel?,ha] at hx
   rw [edgeLabel?,hb] at hy
   rw [(labelLikeness_eq hx hy).2,hxy]

lemma Occurs.embeds : embeds labelLikeness host motif = .ok true := by
 have hsiz : ([] : List (Nat × Nat)).length + motif.size = motif.indexed.size := by
  rw [size_indexed,length_nil,Nat.zero_add]
  exact (length_map _).symm
 exact (h.copied hh hm).search_true (hh.comparable hm) (simple_indexed hh.sound hh.single)
  (simple_indexed hm.sound hm.single)
  motif.size charted_start (fun q hq => by cases hq) hsiz

end
end MotifMatch.Graph
