import MotifMatch.Evaluation.Groups
import MotifMatch.Proofs.FloatOrder
import MotifMatch.Proofs.Tables

namespace MotifMatch.Evaluation
open List Table Scalar Function Tally
open Binary64 (rank lt_iff lt_iff_compare beq_iff beq_iff_compare)
variable {x y z : Float}

lemma undefined_iff : undefined x ↔ x.toModel.unpack = .notANumber := by
 rw [undefined,Bool.not_eq_true',show eq x x = (x == x) from rfl,← Bool.not_eq_true]
 refine ⟨fun h => by_contra fun hnan => h ((beq_iff hnan hnan).2 rfl),fun hnan h => ?_⟩
 rw [beq_iff_compare,hnan] at h
 cases h

def standing (x : Float) : WithTop Int := if undefined x then ⊤ else rank x.toModel.unpack

lemma compare_undefined (h : undefined x ∨ undefined y) :
 x.toModel.unpack.compare y.toModel.unpack = none := by
 rw [undefined_iff,undefined_iff] at h
 rcases h with h | h <;> rw [h]
 · rfl
 · cases x.toModel.unpack <;> rfl

lemma lt_iff_standing : x < y ↔ standing x < standing y ∧ undefined y = false := by
 by_cases h : undefined x ∨ undefined y
 · rw [lt_iff_compare,compare_undefined h]
   rcases h with h | h <;> simp [standing,h]
 · rw [not_or,undefined_iff,undefined_iff] at h
   simp [lt_iff h.1 h.2,standing,undefined_iff.not.2 h.1,undefined_iff.not.2 h.2]

lemma beq_iff_standing : (x == y) ↔ standing x = standing y ∧ undefined y = false := by
 by_cases h : undefined x ∨ undefined y
 · rw [beq_iff_compare,compare_undefined h]
   rcases h with h | h <;> simp [standing,h]
 · rw [not_or,undefined_iff,undefined_iff] at h
   simp [beq_iff h.1 h.2,standing,undefined_iff.not.2 h.1,undefined_iff.not.2 h.2]

lemma le_iff_standing : le x y ↔ standing x ≤ standing y ∧ undefined y = false := by
 rw [le,Bool.or_eq_true,show eq x y = (x == y) from rfl,beq_iff_standing,le_iff_lt_or_eq,
  or_and_right,
  ← lt_iff_standing]
 exact or_congr_left decide_eq_true_iff

lemma ascending_iff : ascending x y ↔ standing x ≤ standing y := by
 have hle := le_iff_standing (x := x) (y := y)
 unfold ascending standing at *
 cases hx : undefined x <;> cases hy : undefined y <;> simp_all

lemma lt_trans (h : x < y) (h' : y < z) : x < z := by
 rw [lt_iff_standing] at *
 exact ⟨h.1.trans h'.1,h'.2⟩

lemma lt_irrefl (x : Float) : ¬x < x := fun h => (lt_iff_standing.1 h).1.false

lemma getLast?_ascending {β : Type} {es : List (β × Float)} (hne : es ≠ []) :
 ∃ top, (es.mergeSort fun a b => ascending a.2 b.2).getLast? = some top ∧ top ∈ es ∧
  ∀ e ∈ es, ¬top.2 < e.2 := by
 have hper := mergeSort_perm es fun a b => ascending a.2 b.2
 have hpai := @pairwise_mergeSort _ (fun a b : β × Float => ascending a.2 b.2)
  (fun a b c h h' => ascending_iff.2 ((ascending_iff.1 h).trans (ascending_iff.1 h')))
  (fun a b => by simpa [ascending_iff] using le_total _ _) es
 generalize (es.mergeSort fun a b => ascending a.2 b.2) = sorted at hper hpai
 have hsor : sorted ≠ [] := fun h => hne (nil_perm.1 (h ▸ hper))
 refine ⟨sorted.getLast hsor,getLast?_eq_getLast_of_ne_nil hsor,hper.mem_iff.1 (getLast_mem hsor),
  fun e he hlt => ?_⟩
 have hmem := hper.mem_iff.2 he
 rw [← dropLast_append_getLast hsor,pairwise_append] at hpai
 rw [← dropLast_append_getLast hsor,mem_append,mem_singleton] at hmem
 rcases hmem with hmem | rfl
 · exact (lt_iff_standing.1 hlt).1.not_ge (ascending_iff.1 (hpai.2.2 e hmem _ (mem_singleton_self _)))
 · exact lt_irrefl _ hlt

lemma ranked_one {es : List (Value × Float)} (hne : es ≠ []) :
 ∃ top, ranked 1 es = [top] ∧ top ∈ es ∧ ∀ e ∈ es, ¬top.2 < e.2 := by
 obtain ⟨top,hlast,hmem,hmax⟩ := getLast?_ascending hne
 obtain ⟨low,hlow⟩ := getLast?_eq_some_iff.1 hlast
 refine ⟨top,?_,hmem,hmax⟩
 show ((es.mergeSort fun a b => ascending a.2 b.2).drop
  ((es.mergeSort fun a b => ascending a.2 b.2).length - 1)).reverse = _
 rw [hlow]
 simp

variable {ν μ : Type}

inductive Name where
 | number (i : Int)
 | text (s : String)
 deriving DecidableEq, Inhabited

def Name.value : Name → Value
 | .number i => .int i
 | .text s => .str s

lemma Name.value_inj {a b : Name} (h : a.value = b.value) : a = b := by
 cases a <;> cases b <;> cases h <;> rfl

lemma Name.hashable_value (k : Name) : k.value.hashable := by cases k <;> rfl

lemma Name.beq_value (a b : Name) : (a.value == b.value) = (a == b) := by
 cases a with
 | number i =>
  cases b with
  | number j => exact (Value.same_int i j).trans (by rw [Bool.eq_iff_iff]; simp)
  | text t =>
   exact (show Value.same (.int i) (.str t) =
    false by simp [Value.same,Value.sameNumber]).trans (by simp)
 | text s =>
  cases b with
  | number j =>
   exact (show Value.same (.str s) (.int j) = false by simp [Value.same]).trans (by simp)
  | text t => exact (Value.same_str s t).trans (by rw [Bool.eq_iff_iff]; simp)

def named (t : Table Name ν) : Table Value ν := ⟨t.entries.map fun e => (e.1.value,e.2)⟩

lemma keys_named (t : Table Name ν) : (named t).keys = t.keys.map Name.value := by
 simp [named,Table.keys,comp_def]

lemma get?_named (t : Table Name ν) (k : Name) : (named t).get? k.value = t.get? k :=
 (get?_mk_map Name.beq_value id t.entries k).trans (congrFun Option.map_id _)

lemma put_named (t : Table Name ν) (k : Name) (v : ν) :
 (named t).put k.value v = named (t.put k v) := by
 obtain ⟨es⟩ := t
 simp only [named,put,Table.mk.injEq]
 induction es with
 | nil => rfl
 | cons e es ih =>
  simp only [map_cons,putEntries,Name.beq_value,ih]
  split <;> rfl

lemma foldl_put_named {α : Type} (xs : List α) (k : α → Name) (v : α → ν) (t : Table Name ν) :
 xs.foldl (fun t x => t.put (k x).value (v x)) (named t) =
  named (t.putAll (xs.map fun x => (k x,v x))) := by
 induction xs generalizing t with
 | nil => rfl
 | cons x xs ih => rw [foldl_cons,put_named,ih,map_cons,putAll_cons]

lemma mapTable_entries {κ : Type} {f : ν → Except Error μ} {t : Table κ ν} {r : Table κ μ}
 (h : mapTable f t = .ok r) :
 Forall₂ (fun e e' => e.1 = e'.1 ∧ f e.2 = .ok e'.2) t.entries r.entries := by
 obtain ⟨es,hes,h⟩ := bind_eq_ok h
 cases h
 refine (forall₂_of_mapM hes).imp fun e e' he => ?_
 obtain ⟨v,hv,he⟩ := bind_eq_ok he
 cases he
 exact ⟨rfl,hv⟩

lemma get?_of_forall₂ {κ : Type} [BEq κ] {R : ν → μ → Prop} {t : Table κ ν} {r : Table κ μ}
 (h : Forall₂ (fun e e' => e.1 = e'.1 ∧ R e.2 e'.2) t.entries r.entries) {k : κ} {v : ν}
 (hv : t.get? k = some v) :
 ∃ w, r.get? k = some w ∧ R v w := by
 obtain ⟨l⟩ := t
 obtain ⟨l'⟩ := r
 dsimp only at h
 induction h with
 | nil => cases hv
 | @cons e e' _ _ he _ ih =>
  rw [get?_mk_cons] at hv ⊢
  rw [← he.1]
  split at hv
  · next hk =>
    cases hv
    exact ⟨e'.2,if_pos hk,he.2⟩
  · next hk =>
    rw [if_neg hk]
    exact ih hv

section
variable {m : Notes} {notes : List Notes} {name : String} {k : Name} {done : List (Notes × Nat)}
 {g : Table Name (Table Value (List Int))}

def told (m : Notes) (name : String) : Name :=
 match m.get? name with
 | some (.int i) => .number i
 | some (.str s) => .text s
 | _ => default

def Tagged (m : Notes) : Prop :=
 ∀ name ∈ ["gidx","pattern_id","source_type","pattern_type"], m.get? name = some (told m name).value

lemma note_of_get? {v : Value} (h : m.get? name = some v) : note m name = .ok v := by rw [note,h]

def Begun (name : String) (done : List (Notes × Nat)) (k : Name) (x : Value × List Int) : Prop :=
 (∃ n : Name, x.1 = n.value) ∧ ∃ e ∈ done, told e.1 name = k ∧ x.2.head? = some (e.2 : Int)

lemma forall_putEntries {ν : Type} {P : Value × ν → Prop} {j : Value} {v : ν} {l : List (Value × ν)}
 (hnew : P (j,v))
 (h : ∀ x ∈ l, P x ∧ P (x.1,v)) : putEntries j v l ≠ [] ∧ ∀ x ∈ putEntries j v l, P x := by
 induction l with
 | nil => simpa [putEntries] using hnew
 | cons e es ih =>
  rw [putEntries]
  split <;> simp_all

def extended (inner : Table Value (List Int)) (kind : Value) (place : Int) :
 Table Value (List Int) :=
 inner.put kind (inner.getD kind [] ++ [place])

lemma begun_extended {inner : Table Value (List Int)}
 (h : ∀ x ∈ inner.entries, Begun name done (told m name) x) (n : Name) (i : Nat) :
 (extended inner n.value i).entries ≠ [] ∧
  ∀ x ∈ (extended inner n.value i).entries, Begun name (done ++ [(m,i)]) (told m name) x := by
 have hnew : ∃ e ∈ done ++ [(m,i)], told e.1 name = told m name ∧
  (inner.getD n.value [] ++ [(i : Int)]).head? = some (e.2 : Int) := by
  cases hget : inner.get? n.value with
  | none => exact ⟨(m,i),by simp,rfl,by simp [Table.getD,hget]⟩
  | some places =>
   obtain ⟨x,hx,rfl⟩ := Option.map_eq_some_iff.1 hget
   obtain ⟨_,e,he,htold,hhead⟩ := h x (mem_of_find?_eq_some hx)
   exact ⟨e,by simp [he],htold,by simp [Table.getD,hget,hhead]⟩
 refine forall_putEntries ⟨⟨n,rfl⟩,hnew⟩ fun x hx => ?_
 obtain ⟨hnam,e,he,hfou⟩ := h x hx
 exact ⟨⟨hnam,e,by simp [he],hfou⟩,hnam,hnew⟩

structure Grouped (name : String) (done : List (Notes × Nat))
 (g : Table Name (Table Value (List Int))) : Prop where
 once : g.keys.Nodup
 keys : g.keys = (done.map fun e => told e.1 name).eraseDups
 filled : ∀ k inner, g.get? k = some inner → inner.entries ≠ [] ∧
  ∀ x ∈ inner.entries, Begun name done k x

lemma eraseDups_concat (ks : List Name) (k : Name) :
 (ks ++ [k]).eraseDups = if k ∈ ks then ks.eraseDups else ks.eraseDups ++ [k] := by
 rw [eraseDups_append]
 split <;> simp_all [removeAll,eraseDups_cons]

lemma Grouped.step (h : Grouped name done g) (hm : Tagged m)
 (hname : name ∈ ["gidx","pattern_id"]) (i : Nat) :
 ∃ g', groupStep name (named g) (m,i) = .ok (named g') ∧ Grouped name (done ++ [(m,i)]) g' := by
 have hkey := note_of_get? (hm name (by simp at hname ⊢; tauto))
 have hkind := note_of_get? (hm "pattern_type" (by simp))
 have hinn : ∀ x ∈ (g.getD (told m name) .empty).entries, Begun name done (told m name) x := by
  cases hg : g.get? (told m name) with
  | none => simp [Table.getD,hg,Table.empty]
  | some w =>
   rw [getD_of_get? hg]
   exact (h.filled _ w hg).2
 refine ⟨g.put (told m name) (extended (g.getD (told m name) .empty)
  (told m "pattern_type").value i),?_,
  nodup_put h.once _ _,?_,fun k w hw => ?_⟩
 · have hget : (named g).getD (told m name).value .empty = g.getD (told m name) .empty := by
    rw [Table.getD,get?_named,Table.getD]
   simp only [groupStep,hkey,hkind,bind,Except.bind,Name.hashable_value,Bool.and_self,if_true,
    Groups.add,hget]
   exact congrArg Except.ok (put_named g _ _)
 · rw [keys_put,map_append,map_singleton,eraseDups_concat,← h.keys]
   refine if_congr ?_ rfl rfl
   rw [Table.contains_iff,h.keys,mem_eraseDups]
 · rw [get?_put] at hw
   split at hw
   · next heq =>
     cases hw
     exact heq ▸ begun_extended hinn (told m "pattern_type") i
   · obtain ⟨hne,hhea⟩ := h.filled k w hw
     refine ⟨hne,fun x hx => ?_⟩
     obtain ⟨hnam,e,he,hfou⟩ := hhea x hx
     exact ⟨hnam,e,mem_append_left _ he,hfou⟩

lemma groupBy_grouped (hnote : ∀ m ∈ notes, Tagged m) (hnam : name ∈ ["gidx","pattern_id"]) :
 ∃ g, groupBy name notes = .ok (named g) ∧ Grouped name notes.zipIdx g := by
 have hall : ∀ e ∈ notes.zipIdx, Tagged e.1 := fun e he => hnote _ (fst_mem_of_mem_zipIdx he)
 rw [groupBy]
 generalize notes.zipIdx = es at hall
 induction es using reverseRecOn with
 | nil => exact ⟨.empty,rfl,nodup_nil,rfl,by simp [get?,empty]⟩
 | append_singleton es e ih =>
  obtain ⟨g,hg,hgro⟩ := ih fun x hx => hall x (mem_append_left _ hx)
  obtain ⟨g',hste,hgro'⟩ := hgro.step (hall e (by simp)) hnam e.2
  refine ⟨g',?_,hgro'⟩
  rw [foldlM_append,hg]
  exact (bind_pure _).trans hste

lemma Grouped.keys_eq (h : Grouped name notes.zipIdx g) :
 g.keys = (notes.map (told · name)).eraseDups := by
 have hnote : notes.zipIdx.map (fun e => told e.1 name) =
  (notes.zipIdx.map Prod.fst).map (told · name) := by
  rw [map_map]
  rfl
 rw [h.keys,hnote,zipIdx_map_fst]

end
variable {g : Table Name (Table Value (List Int))}
section
variable {notes : List Notes} {m : Notes}

def Agreeing (notes : List Notes) : Prop :=
 ∀ m ∈ notes, ∀ m' ∈ notes, told m "gidx" = told m' "gidx" →
 told m "source_type" = told m' "source_type" ∧ told m "pattern_id" = told m' "pattern_id"

def sources (notes : List Notes) : List Name := (notes.map (told · "gidx")).eraseDups

def instances (notes : List Notes) : List Name := (notes.map (told · "pattern_id")).eraseDups

def ofSource (notes : List Notes) (name : String) (s : Name) : Name :=
 ((notes.find? fun m => told m "gidx" == s).map (told · name)).getD default

def sourcesOf (notes : List Notes) (i : Name) : List Name :=
 (sources notes).filter fun s => ofSource notes "pattern_id" s == i

lemma Agreeing.ofSource_eq (h : Agreeing notes) (hm : m ∈ notes) :
 ofSource notes "source_type" (told m "gidx") = told m "source_type" ∧
  ofSource notes "pattern_id" (told m "gidx") = told m "pattern_id" := by
 unfold ofSource
 cases hfind : notes.find? fun x => told x "gidx" == told m "gidx" with
 | none => exact absurd (find?_eq_none.1 hfind m hm) (by simp)
 | some x => exact h x (mem_of_find?_eq_some hfind) m hm (by simpa using find?_some hfind)

lemma Agreeing.sourcesOf_ne_nil (h : Agreeing notes) {i : Name} (hi : i ∈ instances notes) :
 sourcesOf notes i ≠ [] := by
 obtain ⟨m,hm,rfl⟩ := mem_map.1 (mem_eraseDups.1 hi)
 refine ne_nil_of_mem (mem_filter.2 ⟨mem_eraseDups.2 (mem_map_of_mem hm),?_⟩)
 rw [(h.ofSource_eq hm).2,beq_self_eq_true]

lemma pick_nat {β : Type} {xs : List β} {i : Nat} {x : β} (h : xs[i]? = some x) :
 pick xs (i : Int) = .ok x := by
 have hnon : ¬(i : Int) < 0 := by omega
 simp only [pick,if_neg hnon,Int.toNat_natCast,h]

def typeTable (notes : List Notes) : Table Name Value :=
 ⟨(sources notes).map fun s => (s,(ofSource notes "source_type" s).value)⟩

variable (hnote : ∀ m ∈ notes, Tagged m) (hagr : Agreeing notes)
include hnote hagr

lemma types_eq (hg : Grouped "gidx" notes.zipIdx g) :
 types (named g) notes = .ok (named (typeTable notes)) := by
 rw [types,named,foldlM_map]
 refine (foldlM_eq_ok (k := fun t e => t.put e.1.value (ofSource notes "source_type" e.1).value)
  (fun t e he => ?_) _).trans
  (congrArg Except.ok ((foldl_put_named g.entries Prod.fst _ .empty).trans (congrArg named ?_)))
 · obtain ⟨hne,hbeg⟩ := hg.filled e.1 e.2 (get?_of_mem hg.once he)
   refine (foldlM_eq_ok (k := fun t _ => t.put e.1.value (ofSource notes "source_type" e.1).value)
    (fun t x hx => ?_) t).trans
    (congrArg Except.ok ?_)
   · obtain ⟨_,⟨m,p⟩,hm,htold,hhead⟩ := hbeg x hx
     obtain ⟨rest,hres⟩ := head?_eq_some_iff.1 hhead
     have hm' := mem_zipIdx_iff_getElem?.1 hm
     have hmem := mem_of_getElem? hm'
     rw [hres,← htold,(hagr.ofSource_eq hmem).1]
     simp only [pick_nat hm',note_of_get? (hnote m hmem "source_type" (by simp)),bind,Except.bind]
     rfl
   · obtain ⟨x,xs,hxs⟩ := exists_cons_of_ne_nil hne
     rw [hxs]
     exact foldl_fixed' (fun _ => put_put_of_beq t (by simp [Name.beq_value]) _ _) xs
 · rw [typeTable,sources,← hg.keys_eq,Table.keys,map_map]
   refine ofList_entries ?_
   simpa [Table.keys,Function.comp_def] using hg.once

lemma home_eq : ∃ home : Table Name Value, instanceOfSource notes = .ok (named home) ∧
 ∀ s ∈ sources notes, home.get? s = some (ofSource notes "pattern_id" s).value := by
 refine ⟨ofList (notes.map fun m => (told m "gidx",(told m "pattern_id").value)),?_,fun s hs => ?_⟩
 · refine (foldlM_eq_ok (fun t m hm => ?_) _).trans
    (congrArg Except.ok (foldl_put_named notes _ _ .empty))
   simp only [note_of_get? (hnote m hm "gidx" (by simp)),
    note_of_get? (hnote m hm "pattern_id" (by simp)),bind,Except.bind,
    Name.hashable_value,if_true]
   rfl
 · obtain ⟨m,hm,rfl⟩ := mem_map.1 (mem_eraseDups.1 hs)
   rw [get?_ofList_iff,(hagr.ofSource_eq hm).2]
   · exact mem_map_of_mem hm
   · intro x y hx hy
     obtain ⟨m₁,hm₁,h₁⟩ := mem_map.1 hx
     obtain ⟨m₂,hm₂,h₂⟩ := mem_map.1 hy
     obtain ⟨hs₁,rfl⟩ := Prod.mk.inj h₁
     obtain ⟨hs₂,rfl⟩ := Prod.mk.inj h₂
     rw [(hagr m₁ hm₁ m₂ hm₂ (hs₁.trans hs₂.symm)).2]

end
variable {notes : List Notes} {conf : Float} {best : Name → Name × Float}
 {tops : List (Name × Float)} {sc : Scores Float}

def Tops (sc : Scores Float) (s : Name) (best : Name × Float) : Prop :=
 ∃ es, sc.get? s.value = some es ∧ (best.1.value,best.2) ∈ es.entries ∧
  ∀ e ∈ es.entries, ¬best.2 < e.2

def taken (conf : Float) (best : Name × Float) : Name × Float :=
 (if conf < best.2 then best.1 else .text Catalog.noPattern,best.2)

def shown (e : Name × Float) : Value × Float := (e.1.value,e.2)

lemma exists_top (hg : Grouped "gidx" notes.zipIdx g) {preds : List Float}
 {how : Aggregation} {share : Option Float} (hsc : scores (named g) preds notes how share = .ok sc)
 {s : Name} (hs : s ∈ sources notes) :
  ∃ best, (∃ es, sc.get? s.value = some es ∧ ranked 1 es.entries = [shown best]) ∧
  Tops sc s best := by
 rw [sources,← hg.keys_eq] at hs
 obtain ⟨inner,hinn⟩ := Option.isSome_iff_exists.1 ((isSome_get?_iff g s).2 hs)
 obtain ⟨hne,hbeg⟩ := hg.filled s inner hinn
 obtain ⟨es,hes,hmap⟩ := get?_of_forall₂ (R :=
  fun v w => mapTable (groupScore preds notes how share) v = .ok w)
  (mapTable_entries hsc) ((get?_named g s).trans hinn)
 have hall := mapTable_entries hmap
 have hes' : es.entries ≠ [] := fun h => hne (forall₂_nil_right_iff.1 (h ▸ hall))
 obtain ⟨top,hran,hmem,hbest⟩ := ranked_one hes'
 obtain ⟨e,he,hkey,_⟩ := exists_of_forall₂ hall hmem
 obtain ⟨⟨n,hn⟩,_⟩ := hbeg e he
 have htop : top = shown (n,top.2) := by rw [shown,← hn,hkey]
 exact ⟨(n,top.2),⟨es,hes,by rw [hran,← htop]⟩,es,hes,htop ▸ hmem,hbest⟩

def verdictOf (conf : Float) (notes : List Notes) (best : Name → Name × Float) (s : Name) :
 Verdict Float :=
 ⟨(ofSource notes "source_type" s).value,(taken conf (best s)).1.value,some (best s).2⟩

lemma labels_eq (hbest : ∀ s ∈ sources notes, ∃ es, sc.get? s.value = some es ∧
 ranked 1 es.entries = [shown (best s)]) :
 labels (named (typeTable notes)) sc conf 1 =
  .ok ((sources notes).map (verdictOf conf notes best)) := by
 rw [labels,named,typeTable,map_map,mapM_map,mapM_ok fun s hs => ?_]
 · show Except.ok ((sources notes).map fun s => [verdictOf conf notes best s]).flatten = _
   rw [← flatMap_def,← map_eq_flatMap]
 · obtain ⟨es,hes,hran⟩ := hbest s hs
   have hlt : lt conf (best s).2 = decide (conf < (best s).2) := rfl
   simp only [comp_apply,hes,hran,verdictOf,taken,shown,map_singleton,judged,hlt,
    decide_eq_true_eq,noPattern]
   split <;> rfl

def tallyOf (conf : Float) (notes : List Notes) (best : Name → Name × Float) (ss : List Name) :
 Option (Tally Float) :=
 ss.getLast?.map fun s => ⟨(ofSource notes "source_type" s).value,
  (ss.map (taken conf ∘ best)).map shown⟩

lemma guesses_tallyOf (best : Name → Name × Float) (ss : List Name) :
 ((tallyOf conf notes best ss).map guesses).getD [] = (ss.map (taken conf ∘ best)).map shown := by
 rw [tallyOf]
 cases hlast : ss.getLast? with
 | none => rw [getLast?_eq_none_iff.1 hlast]; rfl
 | some s => rfl

lemma tallies_eq (conf : Float) (best : Name → Name × Float) {home : Table Name Value}
 (hhome : ∀ s ∈ sources notes, home.get? s = some (ofSource notes "pattern_id" s).value)
 {ss rest : List Name}
 (hss : sources notes = ss ++ rest) : ∃ t : Table Name (Tally Float),
 (ss.map Name.value).zipIdx.foldlM (tallyStep (named home)
  ((sources notes).map (verdictOf conf notes best))) .empty =
  .ok (named t) ∧ ∀ i, t.get? i = tallyOf conf notes best (ss.filter fun s =>
   ofSource notes "pattern_id" s == i) := by
 induction ss using reverseRecOn generalizing rest with
 | nil => exact ⟨.empty,rfl,fun i => rfl⟩
 | append_singleton ss s ih =>
  obtain ⟨t,ht,htal⟩ := @ih (s :: rest) (by rw [hss,append_assoc]; rfl)
  have hpla : ((sources notes).map (verdictOf conf notes best))[ss.length]? =
   some (verdictOf conf notes best s) := by
   simp [hss]
  refine ⟨t.put (ofSource notes "pattern_id" s) ⟨(ofSource notes "source_type" s).value,
   ((t.get? (ofSource notes "pattern_id" s)).map guesses).getD [] ++ [shown (taken conf (best s))]⟩,
    ?_,fun i => ?_⟩
  · rw [map_append,zipIdx_append,foldlM_append,ht,length_map,zero_add]
    refine (bind_pure (tallyStep _ _ (named t) (s.value,ss.length))).trans ?_
    simp only [tallyStep,found,get?_named,hhome s (by simp [hss]),pick_nat hpla,bind,Except.bind]
    rw [← put_named]
    rfl
  · rw [get?_put,htal,guesses_tallyOf,filter_append]
    split
    · next h => simp [tallyOf,h]
    · next h => rw [filter_cons_of_neg (by simpa using Ne.symm h),filter_nil,append_nil,htal]

lemma bestScores_best (tops : List (Name × Float)) : ∃ t, bestScores (tops.map shown) = named t ∧
 t.keys.Nodup ∧ (∀ l b, t.get? l = some b → (l,b) ∈ tops ∧ ∀ x, (l,x) ∈ tops → ¬b < x) ∧
  ∀ e ∈ tops, e.1 ∈ t.keys := by
 induction tops using reverseRecOn with
 | nil => exact ⟨.empty,rfl,nodup_nil,by simp [get?,empty],by simp⟩
 | append_singleton tops e ih =>
  obtain ⟨t,ht,hnod,hbest,hkey⟩ := ih
  have hlt : ∀ x y : Float, lt x y = decide (x < y) := fun _ _ => rfl
  have hnone := get?_eq_none_iff t e.1
  refine ⟨t.put e.1 ((t.get? e.1).elim e.2 fun s => if lt s e.2 then e.2 else s),?_,
   nodup_put hnod _ _,fun l b hb => ?_,fun f hf => ?_⟩
  · rw [map_append,bestScores,foldl_append,← bestScores,ht]
    simp only [map_cons,map_nil,foldl_cons,foldl_nil,shown,get?_named,put_named]
    cases t.get? e.1 <;> rfl
  · rw [get?_put] at hb
    cases hold : t.get? e.1 with
    | none => grind [lt_irrefl]
    | some s => grind [lt_irrefl,lt_trans]
  · rw [mem_keys_put]
    grind

lemma bestGuess_best (es : List (Name × Float)) :
 (bestGuess (named ⟨es⟩) = (noPattern,none) ∧ ∀ e ∈ es, ¬zero < e.2) ∨
  ∃ e ∈ es, bestGuess (named ⟨es⟩) = (e.1.value,some e.2) ∧ zero < e.2 ∧ ∀ f ∈ es, ¬e.2 < f.2 := by
 induction es using reverseRecOn with
 | nil => exact .inl ⟨rfl,by simp⟩
 | append_singleton es e ih =>
  have hste : bestGuess (named ⟨es ++ [e]⟩) = if (bestGuess (named ⟨es⟩)).2.getD zero <
   e.2 then (e.1.value,some e.2)
   else bestGuess (named ⟨es⟩) := by
   simp only [bestGuess,named,map_append,foldl_append,map_cons,map_nil,foldl_cons,foldl_nil]
   exact if_congr decide_eq_true_iff rfl rfl
  rw [hste]
  rcases ih with ⟨hgue,hnone⟩ | ⟨best,hmem,hgue,hpos,hmax⟩
  · rw [hgue]
    split <;> grind [lt_irrefl,lt_trans]
  · rw [hgue]
    split <;> grind [lt_irrefl,lt_trans]

def Clouded (tops : List (Name × Float)) (l : Name) : Prop :=
 ∃ q ∈ tops, q.1 = l ∧ undefined q.2 = true

structure Judges (kind : Name) (tops : List (Name × Float)) (v : Verdict Float) : Prop where
 truth : v.truth = kind.value
 agrees : v.guess = v.truth ↔ ∃ e ∈ tops, e.1 = kind
 largest : v.guess = v.truth → ∃ e ∈ tops, e.1 = kind ∧ v.score = some e.2 ∧
  ∀ f ∈ tops, f.1 = kind → ¬e.2 < f.2
 other : v.guess ≠ v.truth →
  (∃ e ∈ tops, v.guess = e.1.value ∧ v.score = some e.2 ∧ (zero : Float) < e.2 ∧ ∀ f ∈ tops,
   e.2 < f.2 → Clouded tops f.1) ∨
  v.guess = noPattern ∧ v.score = none ∧ ∀ f ∈ tops, (zero : Float) < f.2 → Clouded tops f.1

lemma judges_of_tally (truth : Name) (hne : tops ≠ [])
 (htops : ∀ e ∈ tops, e.1 = .text Catalog.noPattern ∨ zero < e.2) :
 Judges truth tops (verdict ⟨truth.value,tops.map shown⟩) := by
 obtain ⟨t,hsco,hnod,hbest,hkey⟩ := bestScores_best tops
 have hent : ∀ e ∈ tops, ∃ b, t.get? e.1 = some b := fun e he =>
  Option.isSome_iff_exists.1 ((isSome_get?_iff t _).2 (hkey e he))
 -- a score that no entry exceeds is exceeded by no source, unless its entry is undefined
 have hclo : ∀ x : Float, (∀ e ∈ t.entries, ¬x < e.2) → ∀ f ∈ tops, x < f.2 → Clouded tops f.1 := by
  intro x hx f hf hlt
  obtain ⟨b,hb⟩ := hent f hf
  obtain ⟨hmem,hmax⟩ := hbest _ b hb
  refine ⟨_,hmem,rfl,by_contra fun hdef => hx _ (mem_of_get? hb) ?_⟩
  have hnot := hmax f.2 hf
  rw [lt_iff_standing] at hlt hnot ⊢
  rw [Bool.not_eq_true] at hdef
  exact ⟨hlt.1.trans_le (not_lt.1 fun h => hnot ⟨h,hlt.2⟩),hdef⟩
 unfold verdict
 rw [hsco]
 simp only [get?_named]
 cases hfou : t.get? truth with
 | some b =>
  obtain ⟨hmem,hmax⟩ := hbest _ _ hfou
  exact ⟨rfl,iff_of_true rfl ⟨_,hmem,rfl⟩,fun _ => ⟨_,hmem,rfl,rfl,fun f hf h => hmax f.2 (h ▸ hf)⟩,
   fun h => absurd rfl h⟩
 | none =>
  have hunl : ¬∃ e ∈ tops, e.1 = truth := by
   rintro ⟨e,he,rfl⟩
   obtain ⟨b,hb⟩ := hent e he
   rw [hfou] at hb
   cases hb
  rcases bestGuess_best t.entries with ⟨hgue,hnone⟩ | ⟨e,he,hgue,hpos,hmax⟩
  · have hdif : noPattern ≠ truth.value := by
     intro heq
     obtain ⟨e,he⟩ := exists_mem_of_ne_nil tops hne
     obtain ⟨b,hb⟩ := hent e he
     have hmem := (hbest _ b hb).1
     rcases htops _ hmem with h | h
     · exact hunl ⟨_,hmem,h.trans (Name.value_inj heq)⟩
     · exact hnone _ (mem_of_get? hb) h
    rw [hgue]
    exact ⟨rfl,iff_of_false hdif hunl,fun h => absurd h hdif,fun _ => .inr ⟨rfl,rfl,hclo _ hnone⟩⟩
  · have hmem := (hbest e.1 e.2 (get?_of_mem hnod he)).1
    have hdif : e.1.value ≠ truth.value := fun heq => hunl ⟨e,hmem,Name.value_inj heq⟩
    rw [hgue]
    exact ⟨rfl,iff_of_false hdif hunl,fun h => absurd h hdif,
     fun _ => .inl ⟨e,hmem,rfl,rfl,hpos,hclo e.2 hmax⟩⟩

theorem instances_judged (hnote : ∀ m ∈ notes, Tagged m) (hagr : Agreeing notes)
 (hconf : le zero conf = true)
 (preds : List Float) (how : Aggregation) (share : Option Float) :
  ∃ groups insts ty, bySource notes = .ok groups ∧
  byInstance notes = .ok insts ∧ types groups notes = .ok ty ∧
  ∀ sc, scores groups preds notes how share = .ok sc →
   ∃ vs best, instanceLabels ty sc insts notes conf = .ok vs ∧
   (∀ s ∈ sources notes, Tops sc s (best s)) ∧
    Forall₂ (fun i v => ∃ s, (sourcesOf notes i).getLast? = some s ∧
    Judges (ofSource notes "source_type" s) ((sourcesOf notes i).map (taken conf ∘ best)) v)
     (instances notes) vs := by
 obtain ⟨g,hg,hgro⟩ := groupBy_grouped hnote (show "gidx" ∈ _ by simp)
 obtain ⟨k,hk,hins⟩ := groupBy_grouped hnote (show "pattern_id" ∈ _ by simp)
 refine ⟨named g,named k,_,hg,hk,types_eq hnote hagr hgro,fun sc hsc => ?_⟩
 choose! best hbest using fun s hs => exists_top hgro hsc (s := s) hs
 obtain ⟨home,hhome,hhomes⟩ := home_eq hnote hagr
 obtain ⟨t,ht,htally⟩ := tallies_eq conf best hhomes (append_nil _).symm
 have htake : ∀ b : Name × Float, (taken conf b).1 = .text Catalog.noPattern ∨
  (zero : Float) < (taken conf b).2 := by
  intro b
  by_cases h : conf < b.2
  · rw [le_iff_standing] at hconf
    rw [lt_iff_standing] at h
    exact .inr (lt_iff_standing.2 ⟨hconf.1.trans_lt h.1,h.2⟩)
  · exact .inl (if_neg h)
 have hkey : (named (typeTable notes)).keys = (sources notes).map Name.value := by
  rw [keys_named,typeTable,Table.keys,map_map,map_map]
  rfl
 have htal : ∀ i ∈ instances notes, ∃ s, (sourcesOf notes i).getLast? = some s ∧
  t.get? i = some ⟨(ofSource notes "source_type" s).value,
   ((sourcesOf notes i).map (taken conf ∘ best)).map shown⟩ := by
  intro i hi
  obtain ⟨s,hs⟩ :=
   Option.ne_none_iff_exists'.1 (mt getLast?_eq_none_iff.1 (hagr.sourcesOf_ne_nil hi))
  refine ⟨s,hs,?_⟩
  rw [htally i,← sourcesOf,tallyOf,hs]
  rfl
 refine ⟨(instances notes).map fun i => ((t.get? i).getD ⟨.none,[]⟩).verdict,best,?_,
  fun s hs => (hbest s hs).2,
  forall₂_map_right_iff.2 (forall₂_same.2 fun i hi => ?_)⟩
 · simp only [instanceLabels,labels_eq fun s hs => (hbest s hs).1,hhome,hkey,ht,bind,Except.bind]
   rw [keys_named,hins.keys_eq,← instances,mapM_map]
   refine mapM_ok fun i hi => ?_
   obtain ⟨s,_,hget⟩ := htal i hi
   simp only [comp_apply,found,get?_named,hget]
   rfl
 · obtain ⟨s,hs,hget⟩ := htal i hi
   refine ⟨s,hs,hget ▸ judges_of_tally _ (by simpa using hagr.sourcesOf_ne_nil hi) fun e he => ?_⟩
   obtain ⟨r,_,rfl⟩ := mem_map.1 he
   exact htake (best r)

def memo (source place : Int) (kind guess : String) : Notes :=
 ⟨[("gidx",.int source),("pattern_id",.int place),("source_type",.str kind),
  ("pattern_type",.str guess)]⟩

def memos : List Notes :=
 [memo 3 7 "visitor" "visitor",memo 3 7 "visitor" "adapter",memo 5 7 "visitor" "visitor"]

theorem memos_judged : ∃ groups insts ty sc v, ∃ best :
 Name → Name × Float, bySource memos = .ok groups ∧ byInstance memos = .ok insts ∧
 types groups memos = .ok ty ∧ scores groups [0.25,0.75,0.5] memos .largest none = .ok sc ∧
 instanceLabels ty sc insts memos 0.375 = .ok [v] ∧
  (∀ s ∈ [.number 3,.number 5], Tops sc s (best s)) ∧
 Judges (.text "visitor") [taken 0.375 (best (.number 3)),taken 0.375 (best (.number 5))] v := by
 have htag : ∀ m ∈ memos, Tagged m := by
  simp only [memos,forall_mem_cons,Tagged]
  exact ⟨⟨rfl,rfl,rfl,rfl,by simp⟩,⟨rfl,rfl,rfl,rfl,by simp⟩,⟨rfl,rfl,rfl,rfl,by simp⟩,by simp⟩
 have hsou : sources memos = [.number 3,.number 5] := by decide
 have hconf : le zero 0.375 = true := by decide +kernel
 obtain ⟨groups,insts,ty,hg,hi,hty,hall⟩ :=
  instances_judged htag (show Agreeing memos by unfold Agreeing; decide) hconf
  [0.25,0.75,0.5] .largest none
 have hgro : bySource memos = .ok ⟨[(.int 3,⟨[(.str "visitor",[0]),(.str "adapter",[1])]⟩),
  (.int 5,⟨[(.str "visitor",[2])]⟩)]⟩ := by
  cbv
 obtain rfl := Except.ok.inj (hgro.symm.trans hg)
 obtain ⟨vs,best,hvs,hbest,hjud⟩ := hall _ rfl
 have hins : instances memos = [.number 7] := by decide
 rw [hins,forall₂_cons_left_iff] at hjud
 obtain ⟨v,_,⟨s,hs,hj⟩,hnil,rfl⟩ := hjud
 obtain rfl := forall₂_nil_left_iff.1 hnil
 have hof : sourcesOf memos (.number 7) = [.number 3,.number 5] := by decide
 rw [hof] at hs hj
 cases hs
 exact ⟨_,insts,ty,_,v,best,hg,hi,hty,rfl,hvs,hsou ▸ hbest,hj⟩

end MotifMatch.Evaluation
