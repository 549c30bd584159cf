import Mathlib.Data.List.Perm.Subperm
import Mathlib.Data.List.ReduceOption
import MotifMatch.Curriculum
import MotifMatch.Proofs.Writing

namespace MotifMatch.Arrange
open List
variable {α : Type}

lemma heads_append_tails (lists : List (List (Option α))) :
 (lists.filterMap (fun l => l.head?.join) ++ (lists.map tail).flatten.reduceOption).Perm
  lists.flatten.reduceOption := by
 induction lists with
 | nil => rfl
 | cons l lists ih =>
  cases l with
  | nil => simpa [filterMap_cons] using ih
  | cons x xs =>
   have hres : (lists.filterMap (fun l => l.head?.join) ++
    (xs.reduceOption ++ (lists.map tail).flatten.reduceOption)).Perm
    (xs.reduceOption ++ lists.flatten.reduceOption) :=
    (perm_append_comm_assoc _ _ _).trans (ih.append_left _)
   cases x with
   | none => simpa [filterMap_cons,reduceOption_append] using hres
   | some x => simpa [filterMap_cons,reduceOption_append] using hres.cons x

lemma rounds_perm (n : Nat) (lists : List (List (Option α))) (h : ∀ l ∈ lists, l.length ≤ n) :
 (rounds n lists).Perm lists.flatten.reduceOption := by
 induction n generalizing lists with
 | zero =>
  have hnil : lists.flatten = [] := flatten_eq_nil_iff.2 fun l hl => length_eq_zero_iff.1
   (Nat.le_zero.1 (h l hl))
  rw [rounds,hnil]
  rfl
 | succ n ih =>
  have htai : ∀ l ∈ lists.map tail, l.length ≤ n := by
   intro l hl
   obtain ⟨k,hk,rfl⟩ := mem_map.1 hl
   have := h k hk
   rw [length_tail]
   omega
  exact ((ih _ htai).append_left _).trans (heads_append_tails lists)

lemma le_longest (lists : List (List (Option α))) (m : Nat) :
 m ≤ lists.foldl (fun m l => max m l.length) m ∧
  ∀ l ∈ lists, l.length ≤ lists.foldl (fun m l => max m l.length) m := by
 induction lists generalizing m with
 | nil => simp
 | cons k lists ih =>
  obtain ⟨hle,hall⟩ := ih (max m k.length)
  rw [foldl_cons]
  refine ⟨by omega,fun l hl => ?_⟩
  rcases mem_cons.1 hl with rfl | hl
  · omega
  · exact hall l hl

lemma interleave_perm (lists : List (List α)) :
 (interleave (lists.map fun l => l.map some)).Perm lists.flatten := by
 refine (rounds_perm _ _ (le_longest _ 0).2).trans ?_
 rw [← map_flatten,reduceOption,filterMap_map,Function.id_comp,filterMap_some]

end MotifMatch.Arrange

namespace MotifMatch.Draw
variable {α β : Type} {d : Draw α} {f : α → Draw β} {P : α → Prop} {Q : β → Prop}

def Yields (d : Draw α) (P : α → Prop) : Prop := ∀ st, ∃ a st', d.run.run st = (.ok a,st') ∧ P a

lemma yields_pure {a : α} (h : P a) : Yields (pure a) P := fun st => ⟨a,st,rfl,h⟩

lemma Yields.bind (hd : Yields d P) (hf : ∀ a, P a → Yields (f a) Q) : Yields (d >>= f) Q := by
 intro st
 obtain ⟨a,st',hrun,ha⟩ := hd st
 obtain ⟨b,st'',hrun',hb⟩ := hf a ha st'
 refine ⟨b,st'',?_,hb⟩
 simp only [ExceptT.run_bind,StateT.run_bind,hrun]
 exact hrun'

lemma Yields.imp {P' : α → Prop} (hd : Yields d P) (h : ∀ a, P a → P' a) : Yields d P' := by
 intro st
 obtain ⟨a,st',hrun,ha⟩ := hd st
 exact ⟨a,st',hrun,h a ha⟩

lemma Yields.of_run (hd : Yields d P) {st st' : Streams} {a : α} (h : d.run.run st = (.ok a,st')) :
 P a := by
 obtain ⟨b,st'',hrun,hb⟩ := hd st
 obtain ⟨hab,_⟩ := Prod.mk.inj (h.symm.trans hrun)
 exact Except.ok.inj hab ▸ hb

lemma yields_shuffle (xs : List α) : Yields (shuffle xs) fun ys => ys.Perm xs := fun st =>
 ⟨_,_,rfl,Stream.shuffle_perm xs st.shuffling⟩

end MotifMatch.Draw

namespace MotifMatch.Curriculum
open List Table Run Int Nat Relation Arrange
open Draw (Yields yields_pure yields_shuffle)
variable {c c' : Curriculum} {t : Table Int (List String)} {k : Int}

def Classed (keys : List String) : Prop := ∀ k ∈ keys, isNon k = !isIso k

instance (keys : List String) : Decidable (Classed keys) :=
 inferInstanceAs (Decidable (∀ k ∈ keys, isNon k = !isIso k))

def quota (size : Nat) (keys : List String) : Nat :=
 min (keys.countP isIso) (min (keys.countP isNon) (size / 2))

structure Levelled (t : Table Int (List String)) : Prop where
 once : t.keys.Nodup
 numbered : ∀ k, k ∈ t.keys ↔ 1 ≤ k ∧ k ≤ t.size

lemma countP_classes {iso non : List String} (hiso : ∀ k ∈ iso, isIso k ∧ isNon k = false)
 (hnon : ∀ k ∈ non, isIso k = false ∧ isNon k) :
 (iso ++ non).countP isIso = iso.length ∧ (iso ++ non).countP isNon = non.length := by
 rw [countP_append,countP_append]
 refine ⟨?_,?_⟩
 · rw [countP_eq_length.2 fun k hk => (hiso k hk).1,
    countP_eq_zero.2 fun k hk => by simp [(hnon k hk).1],
    Nat.add_zero]
 · rw [countP_eq_zero.2
    fun k hk => by simp [(hiso k hk).2],countP_eq_length.2 fun k hk => (hnon k hk).2,
    Nat.zero_add]

lemma balance_yields (size : Nat) {keys : List String} (hk : Classed keys) :
 Yields (balance size keys true) fun ks => ks.Subperm keys ∧
  ks.countP isIso = quota size keys ∧ ks.countP isNon = quota size keys := by
 refine (yields_shuffle _).bind fun iso hiso => (yields_shuffle _).bind fun non hnon => ?_
 have hcla : (iso ++ non).Perm keys := by
  have hfil := filter_congr fun k hk' => hk k hk'
  refine (hiso.append hnon).trans ?_
  rw [hfil]
  exact filter_append_perm isIso keys
 have hcou : min iso.length (min non.length (size / 2)) = quota size keys := by
  rw [hiso.length_eq,hnon.length_eq,← countP_eq_length_filter,← countP_eq_length_filter]
  rfl
 have hisos : ∀ k ∈ iso, isIso k ∧ isNon k = false := by
  intro k hmem
  obtain ⟨hmem,hi⟩ := mem_filter.1 (hiso.mem_iff.1 hmem)
  exact ⟨hi,by rw [hk k hmem,hi]; rfl⟩
 have hnons : ∀ k ∈ non, isIso k = false ∧ isNon k := by
  intro k hmem
  obtain ⟨hmem,hn⟩ := mem_filter.1 (hnon.mem_iff.1 hmem)
  exact ⟨by have := hk k hmem; rw [hn] at this; simpa using this,hn⟩
 have htak : (Arrange.interleave [(iso.take (quota size keys)).map some,
  (non.take (quota size keys)).map some]).Perm
  (iso.take (quota size keys) ++ non.take (quota size keys)) := by
  simpa using interleave_perm [iso.take (quota size keys),non.take (quota size keys)]
 have hsub : (iso.take (quota size keys) ++ non.take (quota size keys)).Subperm keys :=
  (((take_sublist _ iso).append (take_sublist _ non)).subperm).trans hcla.subperm
 have hlen : (iso.take (quota size keys)).length = quota size keys ∧
  (non.take (quota size keys)).length = quota size keys := by
  rw [length_take,length_take,← hcou]
  omega
 simp only [if_true,hcou]
 refine (yields_shuffle _).imp fun ks hks => ?_
 have hper := hks.trans htak
 obtain ⟨hcouI,hcouN⟩ := countP_classes (fun k hk => hisos k (mem_of_mem_take hk))
  (fun k hk => hnons k (mem_of_mem_take hk))
 refine ⟨hper.subperm.trans hsub,?_,?_⟩
 · rw [hper.countP_eq,hcouI,hlen.1]
 · rw [hper.countP_eq,hcouN,hlen.2]

def levelsTo (t : Table Int (List String)) (n : Nat) : List (List String) :=
 (List.range n).map fun (i : Nat) => t.getD ((i : Int) + 1) []

def stock (c : Curriculum) : List String :=
 if c.limit = -1 then c.pool else (levelsTo (c.levels.getD .empty) c.limit.toNat).flatten

lemma Levelled.get? (ht : Levelled t) (hk : 1 ≤ k) (hle : k ≤ t.size) :
 t.get? k = some (t.getD k []) := by
 have hmem := (isSome_get?_iff t k).2 ((ht.numbered k).2 ⟨hk,hle⟩)
 obtain ⟨keys,hkey⟩ := Option.isSome_iff_exists.1 hmem
 rw [hkey,getD_of_get? hkey]

lemma levelsDown_eq (ht : Levelled t) {n k : Nat} (hk : k ≤ t.size) (hn : k < n) :
 levelsDown t n k = (levelsTo t k).reverse := by
 induction n generalizing k with
 | zero => omega
 | succ n ih =>
  cases k with
  | zero =>
   have hnone : t.get? ((0 : Nat) : Int) = none := by
    rw [get?_eq_none_iff,ht.numbered]
    omega
   rw [levelsDown,hnone]
   rfl
  | succ k =>
   have hlev := ht.get? (k := ((k + 1 : Nat) : Int)) (by omega) (by omega)
   have hbel : ((k + 1 : Nat) : Int) - 1 = k := by omega
   rw [levelsDown,hlev]
   simp only [hbel]
   rw [ih (by omega) (by omega),levelsTo,levelsTo,range_succ,map_append,reverse_append]
   rfl

structure Graded (c : Curriculum) : Prop where
 levels : ∀ t, c.levels = some t → Levelled t
 pool : Classed c.pool
 classed : ∀ t, c.levels = some t → ∀ e ∈ t.entries, Classed e.2

lemma Graded.classed_stock (h : Graded c) : Classed c.stock := by
 unfold stock
 split
 · exact h.pool
 · intro k hk
   obtain ⟨keys,hkey,hmem⟩ := mem_flatten.1 hk
   obtain ⟨i,_,rfl⟩ := mem_map.1 hkey
   cases hl : c.levels with
   | none => simp [hl,Table.getD,Table.get?,Table.empty] at hmem
   | some t =>
    simp only [hl,Option.getD_some] at hmem
    cases hget : t.get? (i + 1) with
    | none => simp [Table.getD,hget] at hmem
    | some keys =>
     rw [getD_of_get? hget] at hmem
     exact h.classed t hl _ (mem_of_get? hget) k hmem

structure Akin (c c' : Curriculum) : Prop where
 pool : c'.pool = c.pool
 levels : c'.levels = c.levels
 balanced : c'.balanced = c.balanced
 size : c'.size = c.size

structure Filled (c : Curriculum) : Prop where
 limit : c.limit = -1 ∨ ∃ t, c.levels = some t ∧ c.limit ∈ t.keys
 whole : c.balanced = false → c.keys.Perm c.stock
 halves : c.balanced = true → c.keys.Subperm c.stock ∧
  c.keys.countP isIso = quota c.size c.stock ∧ c.keys.countP isNon = quota c.size c.stock

def Rises (k k' : Int) : Prop := k' = -1 ∨ k ≠ -1 ∧ k ≤ k'

lemma Akin.refl (c : Curriculum) : Akin c c := ⟨rfl,rfl,rfl,rfl⟩

lemma Akin.trans {c'' : Curriculum} (h : Akin c c') (h' : Akin c' c'') : Akin c c'' :=
 ⟨h'.pool.trans h.pool,h'.levels.trans h.levels,h'.balanced.trans h.balanced,h'.size.trans h.size⟩

lemma Graded.of_akin (h : Graded c) (ha : Akin c c') : Graded c' :=
 ⟨fun t ht => h.levels t (ha.levels ▸ ht),ha.pool ▸ h.pool,fun t ht => h.classed t (ha.levels ▸ ht)⟩

lemma Rises.refl (k : Int) : Rises k k := by
 unfold Rises
 omega

lemma Rises.trans {i j k : Int} (h : Rises i j) (h' : Rises j k) : Rises i k := by
 unfold Rises at *
 omega

def merged (t : Table Int (List String)) (k : Int) : List String :=
 interleave ((levelsDown t (t.size + 1) k).map fun keys => keys.map some)

lemma merged_perm (ht : Levelled t) (hk : k ∈ t.keys) :
 (merged t k).Perm (levelsTo t k.toNat).flatten := by
 obtain ⟨hpos,hle⟩ := (ht.numbered k).1 hk
 obtain ⟨n,rfl⟩ := eq_ofNat_of_zero_le (show 0 ≤ k by omega)
 refine (interleave_perm _).trans ?_
 rw [toNat_natCast,levelsDown_eq ht (by omega) (by omega)]
 exact (reverse_perm _).flatten

def admitted (c : Curriculum) : Curriculum :=
 match c.levels with
 | none => { c with keys := c.pool, limit := -1 }
 | some t => if t.contains c.limit then { c with keys := merged t c.limit } else { c with keys := c.pool, limit := -1 }

lemma refill_eq (c : Curriculum) : c.refill =
 if c.admitted.balanced then do return { c.admitted with keys := ← balance c.admitted.size c.admitted.keys true }
 else return c.admitted := by
 unfold refill admitted
 cases c.levels with
 | none => rfl
 | some t =>
  by_cases h : t.contains c.limit
  · simp only [h,if_true]
    rfl
  · simp only [h]
    rfl

lemma admitted_cases (c : Curriculum) : c.admitted = { c with keys := c.pool, limit := -1 } ∧
 (∀ t, c.levels = some t → c.limit ∉ t.keys) ∨
 ∃ t, c.levels = some t ∧ c.limit ∈ t.keys ∧ c.admitted = { c with keys := merged t c.limit } := by
 unfold admitted
 cases hl : c.levels with
 | none => exact .inl ⟨rfl,by simp⟩
 | some t =>
  by_cases h : t.contains c.limit
  · exact .inr ⟨t,rfl,(contains_iff t c.limit).1 h,if_pos h⟩
  · refine .inl ⟨if_neg h,fun t' ht' hmem => ?_⟩
    cases ht'
    exact h ((contains_iff t c.limit).2 hmem)

lemma admitted_akin (c : Curriculum) : Akin c c.admitted := by
 rcases admitted_cases c with ⟨h,_⟩ | ⟨t,_,_,h⟩
 · rw [h]
   exact ⟨rfl,rfl,rfl,rfl⟩
 · rw [h]
   exact ⟨rfl,rfl,rfl,rfl⟩

lemma Graded.admitted_perm (hg : Graded c) : c.admitted.keys.Perm c.admitted.stock := by
 rcases admitted_cases c with ⟨h,_⟩ | ⟨t,hl,hmem,h⟩
 · rw [h]
   exact .rfl
 · have hne : c.limit ≠ -1 := by
    have := ((hg.levels t hl).numbered _).1 hmem
    omega
   rw [h]
   simp only [stock,hl,Option.getD_some,if_neg hne]
   exact merged_perm (hg.levels t hl) hmem

lemma refill_yields (hg : Graded c) : Yields c.refill fun c' => Akin c c' ∧ Filled c' ∧
 c'.limit = c.admitted.limit := by
 have hakin := admitted_akin c
 have hlim : c.admitted.limit = -1 ∨ ∃ t, c.admitted.levels = some t ∧
  c.admitted.limit ∈ t.keys := by
  rcases admitted_cases c with ⟨h,_⟩ | ⟨t,hl,hmem,h⟩
  · exact .inl (by rw [h])
  · exact .inr ⟨t,by rw [h]; exact hl,by rw [h]; exact hmem⟩
 rw [refill_eq]
 cases hb : c.admitted.balanced with
 | false =>
  exact yields_pure ⟨hakin,⟨hlim,fun _ => hg.admitted_perm,fun h => by rw [hb] at h; cases h⟩,rfl⟩
 | true =>
  have hcla : Classed c.admitted.keys := fun k hk =>
   (hg.of_akin hakin).classed_stock k (hg.admitted_perm.mem_iff.1 hk)
  have hquo : quota c.admitted.size c.admitted.keys = quota c.admitted.size c.admitted.stock := by
   rw [quota,hg.admitted_perm.countP_eq,hg.admitted_perm.countP_eq,quota]
  refine (balance_yields _ hcla).bind fun ks hks => yields_pure ⟨?_,⟨hlim,?_,fun _ => ?_⟩,rfl⟩
  · exact ⟨hakin.pool,hakin.levels,hakin.balanced,hakin.size⟩
  · intro h
    rw [hb] at h
    cases h
  · rw [hquo] at hks
    exact ⟨hks.1.trans hg.admitted_perm.subperm,hks.2⟩

lemma lift_yields (hg : Graded c) : Yields c.lift fun c' => Akin c c' ∧ Filled c' ∧
 c'.limit = -1 := by
 have hg' : Graded { c with limit := -1 } := ⟨hg.levels,hg.pool,hg.classed⟩
 refine (refill_yields hg').imp fun c' h => ⟨⟨h.1.pool,h.1.levels,h.1.balanced,h.1.size⟩,h.2.1,
  h.2.2.trans ?_⟩
 rcases admitted_cases { c with limit := -1 } with ⟨h,_⟩ | ⟨t,_,_,h⟩ <;> rw [h]

lemma top_lt_iff (ks : List Int) (a b : Int) : ks.foldl max a < b ↔ a < b ∧ ∀ k ∈ ks, k < b := by
 induction ks generalizing a with
 | nil => simp
 | cons k ks ih =>
  rw [foldl_cons,ih,forall_mem_cons,Int.max_lt,and_assoc]

lemma raise_yields (hg : Graded c) (hf : Filled c) {amount : Int} (ha : 1 ≤ amount) :
 Yields (c.raise amount) fun c' => Akin c c' ∧ Filled c' ∧ Rises c.limit c'.limit := by
 unfold raise
 rcases hf.limit with hlim | ⟨t,hl,hmem⟩
 · rw [if_pos (by omega)]
   exact yields_pure ⟨.refl c,hf,.refl _⟩
 · have ht := hg.levels t hl
   have hlev := (ht.numbered _).1 hmem
   have hg' : Graded { c with limit := c.limit + amount } := ⟨hg.levels,hg.pool,hg.classed⟩
   rw [if_neg (by omega)]
   dsimp only
   split
   · exact (lift_yields hg').imp fun c' h => ⟨⟨h.1.pool,h.1.levels,h.1.balanced,h.1.size⟩,
      h.2.1,.inl h.2.2⟩
   · next htop =>
     -- some level is not below the new limit, so the new limit is a level
     have hnext : c.limit + amount ∈ t.keys := by
      rw [hl,Option.getD_some,top_lt_iff,not_and] at htop
      obtain ⟨k,hk,hle⟩ : ∃ k ∈ t.keys, ¬ k < c.limit + amount := by
       simpa using htop (by omega)
      have := (ht.numbered k).1 hk
      exact (ht.numbered _).2 (by omega)
     refine (refill_yields hg').imp fun c' h =>
      ⟨⟨h.1.pool,h.1.levels,h.1.balanced,h.1.size⟩,h.2.1,.inr ⟨by omega,?_⟩⟩
     rw [h.2.2]
     rcases admitted_cases { c with limit := c.limit + amount } with ⟨_,hnone⟩ | ⟨_,_,_,hadm⟩
     · exact absurd hnext (hnone t hl)
     · rw [hadm]
       show c.limit ≤ c.limit + amount
       omega

inductive Step : Curriculum → Curriculum → Prop
 | raise {c c' : Curriculum} {amount : Int} {st st' : Streams} :
  1 ≤ amount → (c.raise amount).run.run st = (.ok c',st') → Step c c'
 | lift {c c' : Curriculum} {st st' : Streams} : c.lift.run.run st = (.ok c',st') → Step c c'

lemma Step.keeps (h : Step c c') (hg : Graded c) (hf : Filled c) :
 Akin c c' ∧ Filled c' ∧ Rises c.limit c'.limit := by
 cases h with
 | raise ha hrun => exact (raise_yields hg hf ha).of_run hrun
 | lift hrun =>
  obtain ⟨hakin,hfil,hlim⟩ := (lift_yields hg).of_run hrun
  exact ⟨hakin,hfil,.inl hlim⟩

lemma steps_keep (h : ReflTransGen Step c c') (hg : Graded c) (hf : Filled c) :
 Akin c c' ∧ Filled c' ∧ Rises c.limit c'.limit := by
 induction h with
 | refl => exact ⟨.refl c,hf,.refl _⟩
 | tail _ hste ih =>
  obtain ⟨hakin,hfil,hris⟩ := ih
  obtain ⟨haki',hfil',hris'⟩ := hste.keeps (hg.of_akin hakin) hfil
  exact ⟨hakin.trans haki',hfil',hris.trans hris'⟩

section
variable {σ : Session} {pool : List String} {levels : Option (Table Int (List String))}

def Begins (t : Table Int (List String)) (k : Int) : Prop :=
 (k = -1 ∧ ∀ j, t.getD j [] = []) ∨ k ∈ t.keys ∧ t.getD k [] ≠ [] ∧ ∀ j < k, t.getD j [] = []

lemma Levelled.getD_of_lt (ht : Levelled t) (hk : k < 1 ∨ t.size < k) : t.getD k [] = [] := by
 have hnone : t.get? k = none := by
  rw [get?_eq_none_iff,ht.numbered]
  omega
 rw [Table.getD,hnone]
 rfl

lemma firstFilled_begins (ht : Levelled t) {n : Nat} (hk : 1 ≤ k) (hn : t.size < k + n)
 (hbel : ∀ j < k, t.getD j [] = []) : ∃ r, firstFilled t n k = .ok r ∧ Begins t r := by
 induction n generalizing k with
 | zero => exact ⟨-1,rfl,.inl ⟨rfl,fun j => by
  rcases Int.lt_or_le j k with hj | hj
  · exact hbel j hj
  · exact ht.getD_of_lt (by omega)⟩⟩
 | succ n ih =>
  rw [firstFilled]
  split
  · next hle =>
    rw [ht.get? hk hle]
    cases hlev : t.getD k [] with
    | nil =>
     refine ih (by omega) (by omega) fun j hj => ?_
     rcases Int.lt_or_le j k with hlt | hge
     · exact hbel j hlt
     · rw [show j = k by omega,hlev]
    | cons x xs => exact ⟨k,rfl,.inr ⟨(ht.numbered k).2 ⟨hk,hle⟩,by simp [hlev],hbel⟩⟩
  · exact ⟨-1,rfl,.inl ⟨rfl,fun j => by
     rcases Int.lt_or_le j k with hj | hj
     · exact hbel j hj
     · exact ht.getD_of_lt (by omega)⟩⟩

lemma startLevel_begins (hl : ∀ t, levels = some t → Levelled t) : ∃ k, startLevel levels 1 = .ok k ∧
 (levels = none → k = -1) ∧ ∀ t, levels = some t → Begins t k := by
 cases levels with
 | none => exact ⟨-1,rfl,fun _ => rfl,by simp⟩
 | some t =>
  have ht := hl t rfl
  obtain ⟨k,hk,hbeg⟩ := firstFilled_begins ht (n :=
   ((t.size : Int) - 1 + 1).toNat) (Int.le_refl 1) (by omega)
   fun j hj => ht.getD_of_lt (.inl hj)
  exact ⟨k,hk,by simp,fun t' ht' => Option.some.inj ht' ▸ hbeg⟩

structure Provided (σ : Session) : Prop where
 dataset : ∃ s, σ.settings.get "dataset" = .ok (.str s)
 directed : ∃ v, σ.settings.get "directed" = .ok v
 folder : ∃ s, σ.settings.get "data_processed_dir" = .ok (.str s)
 width : ∃ v, σ.settings.get "embedding_dim" = .ok v
 anchored : ∃ v, σ.settings.get "anchored" = .ok v

lemma Provided.datasetName (h : Provided σ) :
 ∃ s, Ends Checkpoint.datasetName σ (.ok (.str s)) σ := by
 obtain ⟨s,hs⟩ := h.dataset
 obtain ⟨v,hv⟩ := h.directed
 cases hd : v.truthy with
 | false =>
  refine ⟨s,Ends.bind (hs ▸ ends_setting _ σ) (Ends.bind (ends_flag hv) ?_)⟩
  rw [hd]
  exact ends_pure _ σ
 | true =>
  refine ⟨s ++ "_directed",Ends.bind (hs ▸ ends_setting _ σ) (Ends.bind (ends_flag hv) ?_)⟩
  rw [hd]
  exact ends_ofExcept_ok rfl

lemma start_ends (hσ : Provided σ) (hl : ∀ t, levels = some t → Levelled t) (hp : Classed pool)
 (hk : ∀ t, levels = some t → ∀ e ∈ t.entries, Classed e.2) (maxSize : Int) (balanced : Bool) :
  ∃ c σ',
  Ends (start pool levels 1 maxSize balanced) σ (.ok c) σ' ∧ c.pool = pool ∧ c.levels = levels ∧
  c.balanced = balanced ∧ c.size =
   (if maxSize < 0 then pool.length else min maxSize.toNat pool.length) ∧
  (levels = none → c.limit = -1) ∧ (∀ t, levels = some t → Begins t c.limit) ∧ Filled c := by
 obtain ⟨s,hs⟩ := hσ.datasetName
 obtain ⟨f,hf⟩ := hσ.folder
 obtain ⟨w,hw⟩ := hσ.width
 obtain ⟨v,hv⟩ := hσ.anchored
 obtain ⟨k,hsta,hnone,hbeg⟩ := startLevel_begins hl
 let c₀ : Curriculum :=
  ⟨pool,levels,k,balanced,if maxSize < 0 then pool.length else min maxSize.toNat pool.length,
  pool,Path.ofProject (Path.join f s),.none,false⟩
 have hkeep : c₀.admitted.limit = k := by
  rcases admitted_cases c₀ with ⟨hadm,hnot⟩ | ⟨_,_,_,hadm⟩
  · rw [hadm]
    cases hlev : levels with
    | none => exact (hnone hlev).symm
    | some t =>
     rcases hbeg t hlev with ⟨hk,_⟩ | ⟨hmem,_⟩
     · exact hk.symm
     · exact absurd hmem (hnot t hlev)
  · rw [hadm]
 obtain ⟨c,st,hrun,hakin,hfil,hlim⟩ := refill_yields (c := c₀) ⟨hl,hp,hk⟩ σ.streams
 have hdraw : Ends (draw c₀.refill) σ (.ok c) { σ with streams := st } := by
  have := ends_draw c₀.refill σ
  rwa [hrun] at this
 refine ⟨{ c with width := w, anchored := v.truthy },{ σ with streams := st },?_,hakin.pool,
  hakin.levels,
  hakin.balanced,hakin.size,?_,?_,⟨hfil.limit,hfil.whole,hfil.halves⟩⟩
 · refine hs.bind (Ends.bind (ends_settingText hf) (Ends.bind (ends_pure s σ) ?_))
   refine Ends.bind (ends_ofExcept_ok hsta) (hdraw.bind ?_)
   have hwid :=
    hw ▸ ends_setting "embedding_dim" { σ with streams := st }
   exact hwid.bind (Ends.bind (ends_flag hv) (ends_pure _ _))
 · intro h
   exact (hlim.trans hkeep).trans (hnone h)
 · intro t ht
   show Begins t c.limit
   rw [hlim,hkeep]
   exact hbeg t ht

theorem curriculum_follows_limit (hσ : Provided σ) (hl : ∀ t, levels = some t → Levelled t)
 (hp : Classed pool)
 (hk : ∀ t, levels = some t → ∀ e ∈ t.entries, Classed e.2) (maxSize : Int) (balanced : Bool) :
  ∃ c σ',
  Ends (start pool levels 1 maxSize balanced) σ (.ok c) σ' ∧ (levels = none → c.limit = -1) ∧
  (∀ t, levels = some t → Begins t c.limit) ∧
  ∀ c', ReflTransGen Step c c' → c'.pool = pool ∧ c'.levels = levels ∧ c'.balanced = balanced ∧
   c'.size = (if maxSize < 0 then pool.length else min maxSize.toNat pool.length) ∧ Filled c' ∧
   (∀ st, ∃ c'' st', c'.lift.run.run st = (.ok c'',st')) ∧
   (∀ amount, 1 ≤ amount → ∀ st, ∃ c'' st', (c'.raise amount).run.run st = (.ok c'',st')) ∧
   ∀ c'', ReflTransGen Step c' c'' → Rises c'.limit c''.limit := by
 obtain ⟨c,σ',hends,hpool,hlev,hbal,hsiz,hnone,hbeg,hfil⟩ :=
  start_ends hσ hl hp hk maxSize balanced
 have hg : Graded c := ⟨hlev ▸ hl,hpool ▸ hp,hlev ▸ hk⟩
 refine ⟨c,σ',hends,hnone,hbeg,fun c' hste => ?_⟩
 obtain ⟨hakin,hfil',_⟩ := steps_keep hste hg hfil
 have hg' := hg.of_akin hakin
 refine ⟨hakin.pool.trans hpool,hakin.levels.trans hlev,hakin.balanced.trans hbal,
  hakin.size.trans hsiz,
  hfil',fun st => ?_,fun amount ha st => ?_,fun c'' hste' => (steps_keep hste' hg' hfil').2.2⟩
 · obtain ⟨c'',st',hrun,_⟩ := lift_yields hg' st
   exact ⟨c'',st',hrun⟩
 · obtain ⟨c'',st',hrun,_⟩ := raise_yields hg' hfil' ha st
   exact ⟨c'',st',hrun⟩

def ladder : Table Int (List String) := ⟨[(1,[]),(2,["0_iso","1_non","2_iso"]),(3,["3_non"])]⟩

def desk : Session where
 streams := default
 settings := ⟨⟨[("dataset",.str "D"),("directed",.bool true),("data_processed_dir",.str "data"),
  ("embedding_dim",.int 3),("anchored",.bool false)]⟩⟩
 files := .folder []
 printed := #[]
 records := []

theorem ladder_begins_second : ∃ c σ',
 Run.Ends (start ["0_iso","1_non","2_iso","3_non"] (some ladder) 1 3 true) desk (.ok c) σ' ∧
  c.limit = 2 ∧
  c.keys.Subperm ["0_iso","1_non","2_iso"] ∧ c.keys.countP isIso = 1 ∧ c.keys.countP isNon = 1 := by
 have hσ : Provided desk := ⟨⟨_,rfl⟩,⟨_,rfl⟩,⟨_,rfl⟩,⟨_,rfl⟩,⟨_,rfl⟩⟩
 have hl : Levelled ladder := ⟨by decide,fun k => by
  simp only [ladder,Table.keys,Table.size,List.map_cons,List.map_nil,List.mem_cons,
   List.not_mem_nil,or_false,
   List.length_cons,List.length_nil]
  omega⟩
 have hp : Classed ["0_iso","1_non","2_iso","3_non"] := by decide
 have hk : ∀ e ∈ ladder.entries, Classed e.2 := by decide
 obtain ⟨c,σ',hends,_,hbeg,hrun⟩ :=
  curriculum_follows_limit hσ (fun t ht => Option.some.inj ht ▸ hl) hp
  (fun t (ht : some ladder = some t) => Option.some.inj ht ▸ hk) 3 true
 obtain ⟨_,hlev,hbal,hsiz,hfil,_⟩ := hrun c .refl
 have hlim : c.limit = 2 := by
  rcases hbeg ladder rfl with ⟨_,hemp⟩ | ⟨hmem,hfull,hbel⟩
  · exact absurd (hemp 2) (by decide)
  · rcases Int.lt_trichotomy c.limit 2 with hlt | heq | hgt
    · have hone : c.limit = 1 := by
       have := (hl.numbered _).1 hmem
       omega
      rw [hone] at hfull
      exact absurd rfl hfull
    · exact heq
    · exact absurd (hbel 2 hgt) (by decide)
 have hsto : c.stock = ["0_iso","1_non","2_iso"] := by
  rw [stock,hlim,hlev]
  rfl
 obtain ⟨hsub,hiso,hnon⟩ := hfil.halves hbal
 rw [hsto,hsiz] at hiso hnon
 exact ⟨c,σ',hends,hlim,hsto ▸ hsub,hiso,hnon⟩

end

variable {σ : Session} {pool : List String} {levels : Option (Table Int (List String))}

inductive Call : Curriculum → Curriculum → Prop
 | move {c c' : Curriculum} {amount : Int} {st st' : Streams} : (c.raise amount).run.run st = (.ok c',st') → Call c c'
 | lift {c c' : Curriculum} {st st' : Streams} : c.lift.run.run st = (.ok c',st') → Call c c'

lemma move_yields (hg : Graded c) (hf : Filled c) (amount : Int) :
 Yields (c.raise amount) fun c' => Akin c c' ∧ Filled c' := by
 have hg' : Graded { c with limit := c.limit + amount } := ⟨hg.levels,hg.pool,hg.classed⟩
 unfold raise
 split
 · exact yields_pure ⟨.refl c,hf⟩
 · dsimp only
   split
   · exact (lift_yields hg').imp fun c' h => ⟨⟨h.1.pool,h.1.levels,h.1.balanced,h.1.size⟩,h.2.1⟩
   · exact (refill_yields hg').imp fun c' h => ⟨⟨h.1.pool,h.1.levels,h.1.balanced,h.1.size⟩,h.2.1⟩

lemma calls_keep (h : ReflTransGen Call c c') (hg : Graded c) (hf : Filled c) :
 Akin c c' ∧ Filled c' := by
 induction h with
 | refl => exact ⟨.refl c,hf⟩
 | tail _ hcall ih =>
  obtain ⟨hakin,hfil⟩ := ih
  have hg' := hg.of_akin hakin
  cases hcall with
  | move hrun =>
   obtain ⟨haki',hfil'⟩ := (move_yields hg' hfil _).of_run hrun
   exact ⟨hakin.trans haki',hfil'⟩
  | lift hrun =>
   obtain ⟨haki',hfil',_⟩ := (lift_yields hg').of_run hrun
   exact ⟨hakin.trans haki',hfil'⟩

lemma keyAt_of_ne_nil (h : c.keys ≠ []) {i : Int} : ∃ k ∈ c.keys, c.keyAt i = .ok k := by
 have hlen : 0 < c.keys.length := length_pos_iff.2 h
 have hlt : (i % c.keys.length).toNat < c.keys.length := by
  have := Int.emod_lt_of_pos i (show (0 : Int) < c.keys.length by omega)
  omega
 refine ⟨c.keys[(i % c.keys.length).toNat],getElem_mem hlt,?_⟩
 rw [keyAt,if_neg (by simpa using h),getElem?_eq_getElem hlt]

/-- Whether a balanced set of this size can serve keys of both classes. -/
def Servable (c : Curriculum) : Prop :=
 2 ≤ c.size ∧ (∃ k ∈ c.stock, isIso k = true) ∧ ∃ k ∈ c.stock, isNon k = true

lemma quota_pos_iff : 0 < quota c.size c.stock ↔ Servable c := by
 rw [quota,Nat.lt_min,Nat.lt_min,countP_pos_iff,countP_pos_iff,Nat.div_pos_iff]
 constructor
 · rintro ⟨hiso,hnon,_,hsiz⟩
   exact ⟨hsiz,hiso,hnon⟩
 · rintro ⟨hsiz,hiso,hnon⟩
   exact ⟨hiso,hnon,Nat.two_pos,hsiz⟩

lemma Filled.keys_ne_nil_iff (hf : Filled c) (hg : Graded c) (hb : c.balanced) :
 c.keys ≠ [] ↔ Servable c := by
 obtain ⟨hsub,hiso,hnon⟩ := hf.halves hb
 rw [← quota_pos_iff]
 constructor
 · intro hne
   obtain ⟨k,hk⟩ := exists_mem_of_ne_nil _ hne
   have hcla := hg.classed_stock k (hsub.subset hk)
   cases hi : isIso k with
   | true => exact hiso ▸ countP_pos_iff.2 ⟨k,hk,hi⟩
   | false => exact hnon ▸ countP_pos_iff.2 ⟨k,hk,by rw [hcla,hi]; rfl⟩
 · intro hpos hnil
   rw [hnil,countP_nil] at hiso
   omega

theorem keys_served_iff (hσ : Provided σ) (hl : ∀ t, levels = some t → Levelled t)
 (hp : Classed pool)
 (hk : ∀ t, levels = some t → ∀ e ∈ t.entries, Classed e.2) {first : Int}
 (hfir : levels ≠ none → first = 1) (maxSize : Int) :
 ∃ c σ', Ends (start pool levels first maxSize true) σ (.ok c) σ' ∧ (levels = none → c.limit = -1) ∧
  (∀ t, levels = some t → Begins t c.limit) ∧
  ∀ c', ReflTransGen Call c c' →
   c'.pool = pool ∧ c'.levels = levels ∧ c'.size =
    (if maxSize < 0 then pool.length else min maxSize.toNat pool.length) ∧
   ((∀ i, 0 ≤ i → ∃ k ∈ c'.stock, c'.keyAt i = .ok k) ↔ Servable c') ∧
   (¬ Servable c' → ∀ i, c'.keyAt i = .error .divisionByZero) := by
 obtain ⟨c,σ',hends,hpool,hlev,hbal,hsiz,hnone,hbeg,hfil⟩ := start_ends hσ hl hp hk maxSize true
 have hsta : start pool levels first maxSize true = start pool levels 1 maxSize true := by
  cases levels with
  | none => rfl
  | some t => rw [hfir (Option.some_ne_none t)]
 have hg : Graded c := ⟨hlev ▸ hl,hpool ▸ hp,hlev ▸ hk⟩
 refine ⟨c,σ',hsta ▸ hends,hnone,hbeg,fun c' hcall => ?_⟩
 obtain ⟨hakin,hfil'⟩ := calls_keep hcall hg hfil
 have hb := hakin.balanced.trans hbal
 have hkey := hfil'.keys_ne_nil_iff (hg.of_akin hakin) hb
 have hemp : ¬ Servable c' → ∀ i, c'.keyAt i = .error .divisionByZero := by
  intro hnot i
  rw [← hkey,not_not] at hnot
  rw [keyAt,hnot]
  rfl
 refine ⟨hakin.pool.trans hpool,hakin.levels.trans hlev,hakin.size.trans hsiz,
  ⟨fun hall => ?_,fun h i _ => ?_⟩,hemp⟩
 · by_contra hnot
   obtain ⟨k,_,hk⟩ := hall 0 (Int.le_refl 0)
   rw [hemp hnot] at hk
   cases hk
 · obtain ⟨k,hk,hget⟩ := keyAt_of_ne_nil (hkey.2 h)
   exact ⟨k,(hfil'.halves hb).1.subset hk,hget⟩

def lopsided : Table Int (List String) := ⟨[(1,["0_iso"]),(2,["1_non"])]⟩

theorem lopsided_starts_empty :
 ∃ c σ', Run.Ends (start ["0_iso","1_non"] (some lopsided) 1 (-1) true) desk (.ok c) σ' ∧
 c.size = 2 ∧ ∀ i, c.keyAt i = .error .divisionByZero := by
 have hσ : Provided desk := ⟨⟨_,rfl⟩,⟨_,rfl⟩,⟨_,rfl⟩,⟨_,rfl⟩,⟨_,rfl⟩⟩
 have hl : Levelled lopsided := ⟨by decide,fun k => by
  simp only [lopsided,Table.keys,Table.size,map_cons,map_nil,mem_cons,not_mem_nil,or_false,
   length_cons,length_nil]
  omega⟩
 obtain ⟨c,σ',hends,_,hbeg,hrun⟩ := keys_served_iff hσ (fun t ht => Option.some.inj ht ▸ hl)
  (show Classed ["0_iso","1_non"] by decide)
  (fun t (ht : some lopsided = some t) =>
   Option.some.inj ht ▸ (by decide : ∀ e ∈ lopsided.entries, Classed e.2)) (fun _ => rfl) (-1)
 obtain ⟨_,hlev,hsiz,_,hnone⟩ := hrun c .refl
 have hlim : c.limit = 1 := by
  rcases hbeg lopsided rfl with ⟨_,hemp⟩ | ⟨hmem,_,hbel⟩
  · exact absurd (hemp 1) (by decide)
  · have := (hl.numbered _).1 hmem
    by_contra hne
    exact absurd (hbel 1 (by omega)) (by decide)
 have hsto : c.stock = ["0_iso"] := by
  rw [stock,hlim,hlev]
  rfl
 refine ⟨c,σ',hends,hsiz,hnone ?_⟩
 rintro ⟨_,_,hnon⟩
 rw [hsto] at hnon
 exact absurd hnon (by decide)

end MotifMatch.Curriculum
