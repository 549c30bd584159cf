import Mathlib.Data.List.Nodup
import MotifMatch.Table

namespace MotifMatch.Table
open List
variable {κ ν : Type} {t : Table κ ν} {k : κ}

lemma mem_entries_filter {p : κ → ν → Bool} {e : κ × ν} :
 e ∈ (t.filter p).entries ↔ e ∈ t.entries ∧ p e.1 e.2 := by
 simp [filter]

lemma nodup_filter (h : t.keys.Nodup) (p : κ → ν → Bool) :
 (t.filter p).keys.Nodup :=
 h.sublist (filter_sublist.map Prod.fst)

section
variable [BEq κ]

lemma get?_mk_cons (e : κ × ν) (l : List (κ × ν)) (k : κ) :
 (mk (e :: l)).get? k = if e.1 == k then some e.2 else (mk l).get? k := by
 simp only [get?,find?_cons]
 cases e.1 == k <;> rfl

lemma get?_mk_append (l r : List (κ × ν)) (k : κ) :
 (mk (l ++ r)).get? k = ((mk l).get? k).or ((mk r).get? k) := by
 simp only [get?,find?_append]
 cases l.find? (fun e => e.1 == k) <;> rfl

lemma get?_mk_map {ι μ : Type} [BEq ι] {g : ι → κ} (hg : ∀ i j, (g i == g j) = (i == j)) (f : μ → ν)
 (l : List (ι × μ)) (i : ι) :
 (mk (l.map fun e => (g e.1,f e.2))).get? (g i) = ((mk l).get? i).map f := by
 simp only [get?,find?_map,Option.map_map,Function.comp_def,hg]

lemma getD_of_get? {v d : ν} (h : t.get? k = some v) : t.getD k d = v := by
 simp [getD,h]

lemma putAll_cons (t : Table κ ν) (e : κ × ν) (kvs : List (κ × ν)) :
 t.putAll (e :: kvs) = (t.put e.1 e.2).putAll kvs := rfl

lemma putAll_append (t : Table κ ν) (l r : List (κ × ν)) :
 t.putAll (l ++ r) = (t.putAll l).putAll r := by
 simp [putAll,foldl_append]

lemma keys_modify (t : Table κ ν) (k : κ) (f : ν → ν) : (t.modify k f).keys = t.keys := by
 simp only [modify,keys,map_map]
 refine map_congr_left fun e _ => ?_
 simp only [Function.comp_apply]
 split <;> rfl

end

variable [BEq κ] [LawfulBEq κ] {v : ν}

lemma contains_iff (t : Table κ ν) (k : κ) : t.contains k ↔ k ∈ t.keys := by
 simp [contains,keys]

lemma get?_eq_none_iff (t : Table κ ν) (k : κ) : t.get? k = none ↔ k ∉ t.keys := by
 simp only [get?,Option.map_eq_none_iff,find?_eq_none,keys,mem_map,beq_iff_eq,not_exists,
  not_and]

lemma isSome_get?_iff (t : Table κ ν) (k : κ) : (t.get? k).isSome ↔ k ∈ t.keys := by
 rw [Option.isSome_iff_ne_none,ne_eq,get?_eq_none_iff,not_not]

lemma mem_of_get? (h : t.get? k = some v) : (k,v) ∈ t.entries := by
 simp only [get?,Option.map_eq_some_iff] at h
 obtain ⟨e,he,rfl⟩ := h
 have hk : e.1 = k := by simpa using find?_some he
 exact hk ▸ mem_of_find?_eq_some he

lemma get?_of_mem (hn : t.keys.Nodup) (h : (k,v) ∈ t.entries) :
 t.get? k = some v := by
 obtain ⟨l⟩ := t
 induction l with
 | nil => simp at h
 | cons e rest ih =>
  simp only [keys,map_cons,nodup_cons] at hn
  rcases mem_cons.1 h with rfl | hr
  · simp [get?]
  · have hne : e.1 ≠ k := fun hk => hn.1 (hk ▸ mem_map_of_mem hr)
    have := ih hn.2 hr
    simpa [get?,find?_cons,beq_eq_false_iff_ne.2 hne] using this

lemma get?_eq_some_iff (hn : t.keys.Nodup) :
 t.get? k = some v ↔ (k,v) ∈ t.entries :=
 ⟨mem_of_get?,get?_of_mem hn⟩

lemma entries_put_of_not_mem (t : Table κ ν) (v : ν) (h : k ∉ t.keys) :
 (t.put k v).entries = t.entries ++ [(k,v)] := by
 obtain ⟨l⟩ := t
 induction l with
 | nil => rfl
 | cons e rest ih =>
  simp only [keys,map_cons,mem_cons,not_or] at h
  have hne : (e.1 == k) = false := beq_eq_false_iff_ne.2 (Ne.symm h.1)
  have hres := ih h.2
  simp only [put] at hres
  simp [put,putEntries,hne,hres]

lemma get?_put [DecidableEq κ] (t : Table κ ν) (k j : κ) (v : ν) :
 (t.put k v).get? j = if j = k then some v else t.get? j := by
 split
 · next h => exact h ▸ get?_put_self t k v
 · next h => exact get?_put_of_ne t v h

lemma mem_keys_put {k j : κ} : j ∈ (t.put k v).keys ↔ j ∈ t.keys ∨ j = k := by
 rw [keys_put]
 split
 · next h =>
   rw [contains_iff] at h
   exact ⟨Or.inl,fun hj => hj.elim id fun hj => hj ▸ h⟩
 · simp

lemma nodup_put (h : t.keys.Nodup) (k : κ) (v : ν) : (t.put k v).keys.Nodup := by
 rw [keys_put]
 split
 · exact h
 · next hk =>
   rw [contains_iff] at hk
   exact nodup_append.2 ⟨h,by simp,fun a ha b hb => by
    rw [mem_singleton.1 hb]
    exact fun hab => hk (hab ▸ ha)⟩

omit [LawfulBEq κ] in
lemma nodup_of_nodup_put (h : (t.put k v).keys.Nodup) : t.keys.Nodup := by
 rw [keys_put] at h
 split at h
 · exact h
 · exact (nodup_append.1 h).1

omit [LawfulBEq κ] in
lemma put_put_of_beq (t : Table κ ν) (hk : (k == k)) (v w : ν) :
 (t.put k v).put k w = t.put k w := by
 obtain ⟨l⟩ := t
 refine congrArg Table.mk ?_
 change putEntries k w (putEntries k v l) = putEntries k w l
 induction l with
 | nil => simp [putEntries,hk]
 | cons e rest ih =>
  by_cases hk : (e.1 == k)
  · simp [putEntries,hk]
  · simp [putEntries,hk,ih]

lemma put_put_self (t : Table κ ν) (k : κ) (v w : ν) : (t.put k v).put k w = t.put k w :=
 put_put_of_beq t (beq_self_eq_true k) v w

lemma put_comm_of_mem {k j : κ} (hk : k ∈ t.keys) (hne : j ≠ k) (v w : ν) :
 (t.put j w).put k v = (t.put k v).put j w := by
 obtain ⟨l⟩ := t
 refine congrArg mk ?_
 change k ∈ l.map Prod.fst at hk
 change putEntries k v (putEntries j w l) = putEntries j w (putEntries k v l)
 induction l with
 | nil => simp at hk
 | cons e rest ih =>
  by_cases hek : e.1 = k
  · simp [putEntries,hek,Ne.symm hne]
  · have hres : k ∈ rest.map Prod.fst := by simpa [Ne.symm hek] using hk
    by_cases hej : e.1 = j
    · simp [putEntries,hej,hne]
    · simp [putEntries,hek,hej,ih hres]

lemma nodup_putAll (h : t.keys.Nodup) (kvs : List (κ × ν)) :
 (t.putAll kvs).keys.Nodup := by
 induction kvs generalizing t with
 | nil => exact h
 | cons e rest ih => exact ih (nodup_put h e.1 e.2)

lemma nodup_ofList (kvs : List (κ × ν)) : (ofList kvs).keys.Nodup :=
 nodup_putAll (by simp) kvs

variable {kvs : List (κ × ν)}

lemma mem_keys_putAll {j : κ} :
 j ∈ (t.putAll kvs).keys ↔ j ∈ t.keys ∨ j ∈ kvs.map Prod.fst := by
 induction kvs generalizing t with
 | nil => simp [putAll]
 | cons e rest ih =>
  rw [putAll_cons,ih,mem_keys_put,map_cons,mem_cons,or_assoc]

lemma keys_putAll_of_subset (h : ∀ k ∈ kvs.map Prod.fst, k ∈ t.keys) :
 (t.putAll kvs).keys = t.keys := by
 induction kvs generalizing t with
 | nil => rfl
 | cons e rest ih =>
  have hput : (t.put e.1 e.2).keys = t.keys := by
   rw [keys_put,if_pos ((contains_iff t e.1).2 (h e.1 (by simp)))]
  rw [putAll_cons,ih fun k hk => hput ▸ h k (mem_cons_of_mem _ hk),hput]

lemma entries_putAll (t : Table κ ν) (kvs : List (κ × ν)) (hn : (kvs.map Prod.fst).Nodup)
 (hd : ∀ k ∈ kvs.map Prod.fst, k ∉ t.keys) : (t.putAll kvs).entries = t.entries ++ kvs := by
 induction kvs generalizing t with
 | nil => simp [putAll]
 | cons e rest ih =>
  simp only [map_cons,nodup_cons] at hn
  have hput := entries_put_of_not_mem t e.2 (hd e.1 (by simp))
  have hkey : (t.put e.1 e.2).keys = t.keys ++ [e.1] := by simp [keys,hput]
  rw [putAll_cons,ih _ hn.2 ?_,hput]
  · simp
  · intro k hk hmem
    rw [hkey,mem_append,mem_singleton] at hmem
    rcases hmem with hmem | rfl
    · exact hd k (by simp [hk]) hmem
    · exact hn.1 hk

lemma entries_ofList (hn : (kvs.map Prod.fst).Nodup) :
 (ofList kvs).entries = kvs := by
 rw [ofList,entries_putAll empty kvs hn (by simp)]
 rfl

lemma ofList_entries (hn : t.keys.Nodup) : ofList t.entries = t := by
 obtain ⟨l⟩ := t
 exact congrArg mk (entries_ofList hn)

lemma get?_putAll (t : Table κ ν) (kvs : List (κ × ν)) (k : κ) :
 (t.putAll kvs).get? k = ((mk kvs.reverse).get? k).or (t.get? k) := by
 classical
 induction kvs generalizing t with
 | nil => rfl
 | cons e rest ih =>
  rw [putAll_cons,ih,reverse_cons,get?_mk_append,get?_put]
  cases (mk rest.reverse).get? k with
  | some v => rfl
  | none =>
   by_cases h : k = e.1
   · subst h; simp [get?]
   · simp [h,get?,Ne.symm h]

lemma get?_putAll_of_not_mem (t : Table κ ν)
 (h : k ∉ kvs.map Prod.fst) : (t.putAll kvs).get? k = t.get? k := by
 have hnone : (mk kvs.reverse).get? k = none := by
  simpa [get?_eq_none_iff,keys] using h
 rw [get?_putAll,hnone,Option.none_or]

lemma get?_putAll_entries (t : Table κ ν) {r : Table κ ν} (hr : r.keys.Nodup) (k : κ) :
 (t.putAll r.entries).get? k = (r.get? k).or (t.get? k) := by
 have hrev : (mk r.entries.reverse).keys.Nodup := by
  simpa [keys] using hr
 rw [get?_putAll]
 congr 1
 ext v
 rw [get?_eq_some_iff hrev,get?_eq_some_iff hr,mem_reverse]

lemma put_of_mem (hmem : (k,v) ∈ t.entries)
 (h : ∀ e ∈ t.entries, e.1 = k → e = (k,v)) : t.put k v = t := by
 obtain ⟨l⟩ := t
 refine congrArg mk ?_
 induction l with
 | nil => simp at hmem
 | cons e rest ih =>
  rw [putEntries]
  split
  · next hk => rw [h e (by simp) (eq_of_beq hk)]
  · next hk =>
    have hmem' : (k,v) ∈ rest := by
     rcases mem_cons.1 hmem with rfl | hmem
     · simp at hk
     · exact hmem
    rw [ih hmem' fun x hx => h x (by simp [hx])]

lemma find?_putAll
 (h : ∀ e ∈ t.entries ++ kvs, ∀ f ∈ t.entries ++ kvs, e.1 = f.1 → e = f) (p : κ × ν → Bool) :
 (t.putAll kvs).entries.find? p = (t.entries ++ kvs).find? p := by
 induction kvs generalizing t with
 | nil => simp [putAll]
 | cons e rest ih =>
  rw [putAll_cons]
  by_cases hmem : e.1 ∈ t.keys
  · have hme : e ∈ t.entries := by
     obtain ⟨x,hx,hxe⟩ := mem_map.1 hmem
     rwa [← h x (by simp [hx]) e (by simp) hxe]
    rw [put_of_mem hme fun x hx hxe => h x (by simp [hx]) e (by simp) hxe]
    rw [ih fun x hx y hy hxy => h x (by simp at hx ⊢; tauto) y (by simp at hy ⊢; tauto) hxy]
    simp only [find?_append,find?_cons]
    cases hfind : t.entries.find? p with
    | some x => rfl
    | none =>
     have hpe : p e = false := by simpa using find?_eq_none.1 hfind e hme
     rw [hpe]
  · have hsame : (t.put e.1 e.2).entries ++ rest = t.entries ++ e :: rest := by
     rw [entries_put_of_not_mem t e.2 hmem,append_assoc]
     rfl
    rw [ih (by rw [hsame]; exact h),hsame]

lemma find?_ofList (h : ∀ e ∈ kvs, ∀ f ∈ kvs, e.1 = f.1 → e = f) (p : κ × ν → Bool) :
 (ofList kvs).entries.find? p = kvs.find? p := by
 rw [ofList,find?_putAll (by simpa [empty] using h)]
 rfl

lemma get?_ofList_iff (h : ∀ x y, (k,x) ∈ kvs → (k,y) ∈ kvs → x = y) :
 (ofList kvs).get? k = some v ↔ (k,v) ∈ kvs := by
 have hget : (ofList kvs).get? k = (mk kvs.reverse).get? k := by
  rw [ofList,get?_putAll]
  exact Option.or_none
 have hmem : ∀ x, (ofList kvs).get? k = some x → (k,x) ∈ kvs := by
  intro x hx
  rw [hget] at hx
  exact mem_reverse.1 (mem_of_get? hx)
 refine ⟨hmem v,fun hv => ?_⟩
 have hsome : ((ofList kvs).get? k).isSome := by
  rw [isSome_get?_iff,ofList,mem_keys_putAll]
  exact .inr (mem_map_of_mem hv)
 obtain ⟨x,hx⟩ := Option.isSome_iff_exists.1 hsome
 rw [hx,h x v (hmem x hx) hv]

lemma get?_modify [DecidableEq κ] (t : Table κ ν) (k j : κ) (f : ν → ν) :
 (t.modify k f).get? j = if j = k then (t.get? j).map f else t.get? j := by
 obtain ⟨l⟩ := t
 induction l with
 | nil => simp [modify,get?]
 | cons e rest ih =>
  have hcons : (mk (e :: rest)).modify k f =
   ⟨(if e.1 == k then (e.1,f e.2) else e) :: ((mk rest).modify k f).entries⟩ := rfl
  rw [hcons,get?_mk_cons,get?_mk_cons,ih]
  by_cases hj : e.1 = j
  · by_cases hk : j = k
    · simp [hj,hk]
    · simp [hj,hk]
  · by_cases hk : e.1 = k
    · simp [hk,hk ▸ hj]
    · simp [hj,hk]

end MotifMatch.Table

namespace MotifMatch
open List
variable {ε α β : Type} {xs : List α} {f : β → α → Except ε β}

lemma lt_length {i : Nat} {x : α} (h : xs[i]? = some x) : i < xs.length :=
 (List.getElem?_eq_some_iff.1 h).1

lemma bind_eq_ok {x : Except ε α} {f : α → Except ε β} {b : β} (h : x >>= f = .ok b) :
 ∃ a, x = .ok a ∧ f a = .ok b := by
 cases x with
 | error e => cases h
 | ok a => exact ⟨a,rfl,h⟩

lemma mapM_ok {f : α → Except ε β} {k : α → β} (h : ∀ x ∈ xs, f x = .ok (k x)) :
 xs.mapM f = .ok (xs.map k) := by
 induction xs with
 | nil => rfl
 | cons x xs ih =>
  rw [mapM_cons,h x (by simp),ih fun y hy => h y (by simp [hy])]
  rfl

lemma mapM_eq_error {f : α → Except ε β} {e : ε} (h : ∀ x ∈ xs, (∃ b, f x = .ok b) ∨ f x = .error e)
 (hx : ∃ x ∈ xs, f x = .error e) : xs.mapM f = .error e := by
 induction xs with
 | nil => simp at hx
 | cons y ys ih =>
  rw [mapM_cons]
  rcases h y (by simp) with ⟨b,hb⟩ | hb
  · have hres : ∃ x ∈ ys, f x = .error e := by
     obtain ⟨x,hx,hfail⟩ := hx
     rcases mem_cons.1 hx with rfl | hx
     · cases hb.symm.trans hfail
     · exact ⟨x,hx,hfail⟩
    rw [hb,ih (fun x hx => h x (mem_cons_of_mem _ hx)) hres]
    rfl
  · rw [hb]
    rfl

lemma forall₂_of_mapM {f : α → Except ε β} {ys : List β} (h : xs.mapM f = .ok ys) :
 Forall₂ (fun x y => f x = .ok y) xs ys := by
 induction xs generalizing ys with
 | nil =>
  cases h
  exact .nil
 | cons x xs ih =>
  rw [mapM_cons] at h
  obtain ⟨y,hy,h⟩ := bind_eq_ok h
  obtain ⟨zs,hzs,h⟩ := bind_eq_ok h
  obtain rfl : y :: zs = ys := Except.ok.inj h
  exact .cons hy (ih hzs)

lemma exists_of_forall₂ {R : α → β → Prop} {ys : List β} (h : Forall₂ R xs ys) {y : β}
 (hy : y ∈ ys) :
 ∃ x ∈ xs, R x y := by
 induction h with
 | nil => cases hy
 | @cons x z _ _ hx _ ih =>
  obtain rfl | hy := mem_cons.1 hy
  · exact ⟨x,mem_cons_self,hx⟩
  · obtain ⟨x',hx',hr⟩ := ih hy
    exact ⟨x',mem_cons_of_mem x hx',hr⟩

lemma foldlM_eq_ok {k : β → α → β} (h : ∀ b, ∀ x ∈ xs, f b x = .ok (k b x)) (b : β) :
 xs.foldlM f b = .ok (xs.foldl k b) := by
 induction xs generalizing b with
 | nil => rfl
 | cons x xs ih =>
  rw [foldlM_cons,h b x (by simp)]
  exact ih (fun b y hy => h b y (by simp [hy])) _

lemma foldlM_eq_error {e : ε} {P : β → Prop}
 (h : ∀ b, P b → ∀ x ∈ xs, (∃ b', f b x = .ok b' ∧ P b') ∨ f b x = .error e) {x : α} (hx : x ∈ xs)
 (hfai : ∀ b, P b → f b x = .error e) {b : β} (hb : P b) : xs.foldlM f b = .error e := by
 induction xs generalizing b with
 | nil => cases hx
 | cons y ys ih =>
  rw [foldlM_cons]
  rcases mem_cons.1 hx with rfl | hx
  · rw [hfai b hb]
    rfl
  · rcases h b hb y (by simp) with ⟨b',hste,hb'⟩ | hste
    · rw [hste]
      exact ih (fun b hb z hz => h b hb z (by simp [hz])) hx hb'
    · rw [hste]
      rfl

lemma foldlM_keeps {P : β → Prop}
 (hste : ∀ b, ∀ x ∈ xs, ∀ b', P b → f b x = .ok b' → P b') {b b' : β} (hb : P b)
 (h : xs.foldlM f b = .ok b') : P b' := by
 induction xs generalizing b with
 | nil =>
  cases h
  exact hb
 | cons x xs ih =>
  rw [foldlM_cons] at h
  obtain ⟨b₁,hx,h⟩ := bind_eq_ok h
  exact ih (fun b y hy => hste b y (by simp [hy])) (hste b x (by simp) b₁ hb hx) h

end MotifMatch
