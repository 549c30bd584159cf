import Mathlib.Data.Int.Interval
import Mathlib.Data.String.Basic
import MotifMatch.Corpus.Write
import MotifMatch.Proofs.Copies

namespace MotifMatch.Graph
open List Table NodeId

lemma insertBy_ints (i : Int) {js : List Int} (h : js.Pairwise (· ≤ ·)) :
 ∃ ks : List Int, insertBy (fun a b => Value.less (id a) (id b)) (.int i) (js.map .int) =
  .ok (ks.map .int) ∧
  ks.Perm (i :: js) ∧ ks.Pairwise (· ≤ ·) := by
 induction js with
 | nil => exact ⟨[i],rfl,.refl _,by simp⟩
 | cons j js ih =>
  obtain ⟨hj,hjs⟩ := pairwise_cons.1 h
  by_cases hij : i < j
  · refine ⟨i :: j :: js,?_,.refl _,pairwise_cons.2 ⟨fun k hk => ?_,h⟩⟩
    · simp only [map_cons,insertBy,id,Value.less_int,hij,decide_true]
      rfl
    · rcases mem_cons.1 hk with rfl | hk
      · omega
      · have := hj k hk
        omega
  · obtain ⟨ks,hks,hper,hsor⟩ := ih hjs
    refine ⟨j :: ks,?_,(hper.cons j).trans (.swap i j js),pairwise_cons.2 ⟨fun k hk => ?_,hsor⟩⟩
    · simp only [id] at hks
      simp only [map_cons,insertBy,id,Value.less_int,hij,decide_false,hks]
      rfl
    · rcases mem_cons.1 (hper.mem_iff.1 hk) with rfl | hk
      · omega
      · exact hj k hk

lemma sortOn_ints (is : List Int) : ∃ ks :
 List Int, sortOn id false (is.map .int) = .ok (ks.map .int) ∧
 ks.Perm is ∧ ks.Pairwise (· ≤ ·) := by
 have hrun : ∀ (is acc : List Int), acc.Pairwise (· ≤ ·) → ∃ ks : List Int,
  (is.map .int).foldlM (fun acc x => insertBy (fun a b => Value.less (id a) (id b)) x acc)
   (acc.map .int) =
   .ok (ks.map .int) ∧ ks.Perm (is ++ acc) ∧ ks.Pairwise (· ≤ ·) := by
  intro is
  induction is with
  | nil => exact fun acc hacc => ⟨acc,rfl,.refl _,hacc⟩
  | cons i is ih =>
   intro acc hacc
   obtain ⟨js,hjs,hper,hsor⟩ := insertBy_ints i hacc
   obtain ⟨ks,hks,hper',hsor'⟩ := ih js hsor
   refine ⟨ks,?_,hper'.trans ((hper.append_left is).trans perm_middle),hsor'⟩
   rw [map_cons,foldlM_cons,hjs]
   exact hks
 obtain ⟨ks,hks,hper,hsor⟩ := hrun is [] .nil
 exact ⟨ks,hks,by rwa [append_nil] at hper,hsor⟩

lemma sortOn_top {is : List Int} {top : Int} (hmem : top ∈ is) (hle : ∀ i ∈ is, i ≤ top) :
 ∃ taken, sortOn id false (is.map .int) = .ok taken ∧ taken.getLast? = some (.int top) := by
 obtain ⟨ks,hks,hper,hsor⟩ := sortOn_ints is
 refine ⟨_,hks,?_⟩
 have hne : ks ≠ [] := ne_nil_of_mem (hper.mem_iff.2 hmem)
 have hlast : ks.getLast hne = top := by
  have hupp := hle _ (hper.mem_iff.1 (getLast_mem hne))
  have hlow : top ≤ ks.getLast hne := by
   obtain ⟨init,hinit⟩ : ∃ init, ks = init ++ [ks.getLast hne] :=
    ⟨_,(dropLast_append_getLast hne).symm⟩
   have hin : top ∈ init ++ [ks.getLast hne] := hinit ▸ hper.mem_iff.2 hmem
   rw [hinit] at hsor
   rcases mem_append.1 hin with htop | htop
   · exact (pairwise_append.1 hsor).2.2 top htop _ (by simp)
   · exact le_of_eq (mem_singleton.1 htop)
  omega
 rw [getLast?_map,getLast?_eq_some_getLast hne,hlast]
 rfl

variable {n : NodeId}
variable {names : Table NodeId Value} {top : Int}

def freshFrom (top : Int) (ns : List NodeId) : List (NodeId × Value) :=
 ns.map fun n => (n,.int (top + 1 + ns.idxOf n))

lemma freshFrom_cons {ns : List NodeId} (h : (n :: ns).Nodup) :
 freshFrom top (n :: ns) = (n,.int (top + 1)) :: freshFrom (top + 1) ns := by
 have hnot : n ∉ ns := (nodup_cons.1 h).1
 rw [freshFrom,freshFrom,map_cons,idxOf_cons_self]
 congr 1
 · simp
 · refine map_congr_left fun m hm => ?_
   have hne : m ≠ n := fun heq => hnot (heq ▸ hm)
   rw [idxOf_cons_ne ns hne.symm]
   simp only [Prod.mk.injEq,Value.int.injEq,true_and]
   omega

lemma values_put_of_not_mem (h : n ∉ names.keys) (v : Value) :
 (names.put n v).values = names.values ++ [v] := by
 rw [values,entries_put_of_not_mem names v h,map_append]
 rfl

lemma freshNames_eq {ns : List NodeId} (hnod : ns.Nodup) {taken : List Value}
 (hlast : taken.getLast? = some (.int top)) {is : List Int} (hval : names.values = is.map .int)
 (hle : ∀ i ∈ is, i ≤ top) :
 freshNames ns names taken =
  .ok (names.putAll (freshFrom top (ns.filter fun n => !names.contains n))) := by
 induction ns generalizing names taken top is with
 | nil => rfl
 | cons n ns ih =>
  obtain ⟨hn,hns⟩ := nodup_cons.1 hnod
  rw [freshNames]
  by_cases hkno : names.contains n
  · rw [if_pos hkno,ih hns hlast hval hle,filter_cons,hkno]
    rfl
  · have hnew : n ∉ names.keys := fun hmem => hkno ((contains_iff names n).2 hmem)
    have hval' : (names.put n (.int (top + 1))).values = (is ++ [top + 1]).map .int := by
     rw [values_put_of_not_mem hnew,hval,map_append]
     rfl
    have hle' : ∀ i ∈ is ++ [top + 1], i ≤ top + 1 := by
     intro i hi
     rcases mem_append.1 hi with hi | hi
     · have := hle i hi
       omega
     · exact le_of_eq (mem_singleton.1 hi)
    obtain ⟨taken',hsort,hlas'⟩ := sortOn_top (by simp) hle'
    have hres : (ns.filter fun m => !(names.put n (.int (top + 1))).contains m) =
     ns.filter fun m => !names.contains m := by
     refine filter_congr fun m hm => ?_
     have hne : m ≠ n := fun heq => hn (heq ▸ hm)
     rw [Bool.not_inj_iff,Bool.eq_iff_iff,Table.contains_iff,Table.contains_iff,mem_keys_put]
     exact or_iff_left hne
    have hadd : (Value.int top).add (.int 1) = .ok (.int (top + 1)) := rfl
    have hfil : ((n :: ns).filter fun m => !names.contains m) = n :: ns.filter fun m =>
     !names.contains m :=
     filter_cons_of_pos (by simpa using hkno)
    have hsub := hfil ▸ hnod.filter _
    simp only [if_neg hkno,hlast,bind,Except.bind,pure,Except.pure,hadd,hval',hsort]
    rw [ih hns hlas' hval' hle',hres,hfil,freshFrom_cons hsub,putAll_cons]

section
variable {g : Graph} {m : Table Int Int}

def unknown (g : Graph) (m : Table Int Int) : List NodeId :=
 g.ids.filter fun n => (m.get? (idNumber n)).isNone

def usedNumbers (g : Graph) (m : Table Int Int) : List Int :=
 g.ids.flatMap fun n => idNumber n :: (m.get? (idNumber n)).toList

def topNumber (g : Graph) (m : Table Int Int) : Int := (g.usedNumbers m).max?.getD 0

def relabeling (g : Graph) (m : Table Int Int) (n : NodeId) : NodeId :=
 .num ((m.get? (idNumber n)).getD (g.topNumber m + 1 + (g.unknown m).idxOf n))

lemma le_topNumber {i : Int} (h : i ∈ g.usedNumbers m) : i ≤ g.topNumber m := by
 obtain ⟨top,htop⟩ := Option.isSome_iff_exists.1 (isSome_max?_of_mem h)
 rw [topNumber,htop]
 exact (max?_eq_some_iff.1 htop).2 i h

lemma topNumber_mem (hn : n ∈ g.ids) : g.topNumber m ∈ g.usedNumbers m := by
 have hused : idNumber n ∈ g.usedNumbers m := mem_flatMap.2 ⟨n,hn,by simp⟩
 obtain ⟨top,htop⟩ := Option.isSome_iff_exists.1 (isSome_max?_of_mem hused)
 rw [topNumber,htop]
 exact (max?_eq_some_iff.1 htop).1

lemma topNumber_eq {top : Int} (hmem : top ∈ g.usedNumbers m)
 (hle : ∀ i ∈ g.usedNumbers m, i ≤ top) :
 g.topNumber m = top := by
 rw [topNumber,max?_eq_some_iff.2 ⟨hmem,hle⟩]
 rfl

lemma mem_unknown : n ∈ g.unknown m ↔ n ∈ g.ids ∧ m.get? (idNumber n) = none := by
 rw [unknown,mem_filter,Option.isNone_iff_eq_none]

lemma relabeling_of_get? {j : Int} (h : m.get? (idNumber n) = some j) :
 g.relabeling m n = .num j := by
 rw [relabeling,h]
 rfl

lemma relabeling_of_unknown (h : n ∈ g.unknown m) :
 g.relabeling m n = .num (g.topNumber m + 1 + (g.unknown m).idxOf n) := by
 rw [relabeling,(mem_unknown.1 h).2]
 rfl

lemma exists_unknown_iff (hids : g.ids.Nodup) {i : Int} :
 (∃ n ∈ g.unknown m, g.relabeling m n = .num i) ↔
 ∃ j < (g.unknown m).length, i = g.topNumber m + 1 + j := by
 constructor
 · rintro ⟨n,hn,hi⟩
   rw [relabeling_of_unknown hn,num.injEq] at hi
   exact ⟨_,idxOf_lt_length_of_mem hn,hi.symm⟩
 · rintro ⟨j,hj,rfl⟩
   have hnod : (g.unknown m).Nodup := hids.filter _
   refine ⟨(g.unknown m).get ⟨j,hj⟩,get_mem _ _,?_⟩
   rw [relabeling_of_unknown (get_mem _ _),get_eq_getElem,hnod.idxOf_getElem]

lemma relabeling_inj (htab : ∀ u ∈ g.ids, ∀ v ∈ g.ids, ∀ j, m.get? (idNumber u) = some j →
 m.get? (idNumber v) = some j → u = v) :
 ∀ u ∈ g.ids, ∀ v ∈ g.ids, g.relabeling m u = g.relabeling m v → u = v := by
 have hmix : ∀ u ∈ g.ids, ∀ v ∈ g.ids, ∀ j, m.get? (idNumber u) = some j →
  m.get? (idNumber v) = none →
  g.relabeling m u ≠ g.relabeling m v := by
  intro u hu v hv j hj hnone heq
  have hle : j ≤ g.topNumber m := le_topNumber (mem_flatMap.2 ⟨u,hu,by simp [hj]⟩)
  rw [relabeling_of_get? hj,relabeling_of_unknown (mem_unknown.2 ⟨hv,hnone⟩),num.injEq] at heq
  omega
 intro u hu v hv heq
 cases hgu : m.get? (idNumber u) with
 | some j =>
  cases hgv : m.get? (idNumber v) with
  | some k =>
   rw [relabeling_of_get? hgu,relabeling_of_get? hgv,num.injEq] at heq
   exact htab u hu v hv j hgu (heq ▸ hgv)
  | none => exact absurd heq (hmix u hu v hv j hgu hgv)
 | none =>
  cases hgv : m.get? (idNumber v) with
  | some k => exact absurd heq.symm (hmix v hv u hu k hgv hgu)
  | none =>
   have hu' : u ∈ g.unknown m := mem_unknown.2 ⟨hu,hgu⟩
   rw [relabeling_of_unknown hu',relabeling_of_unknown (mem_unknown.2 ⟨hv,hgv⟩),num.injEq] at heq
   exact (idxOf_inj hu').1 (by omega)

variable {h : Graph} {f : NodeId → NodeId}

lemma Copies.mem_usedNumbers (hc : Copies h g f) {i : Int} : i ∈ h.usedNumbers m ↔
 ∃ n ∈ g.ids, i = idNumber (f n) ∨ m.get? (idNumber (f n)) = some i := by
 simp only [usedNumbers,mem_flatMap,mem_cons,Option.mem_toList,hc.ids]
 constructor
 · rintro ⟨_,⟨n,hn,rfl⟩,hi⟩
   exact ⟨n,hn,hi⟩
 · rintro ⟨n,hn,hi⟩
   exact ⟨f n,⟨n,hn,rfl⟩,hi⟩

lemma Copies.unknown_perm (hc : Copies h g f) (hids : g.ids.Nodup) :
 (h.unknown m).Perm ((g.ids.filter fun n => (m.get? (idNumber (f n))).isNone).map f) := by
 have hnod : (h.unknown m).Nodup := hc.sound.ids.filter _
 refine (perm_ext_iff_of_nodup hnod ?_).2 fun n => ?_
 · refine (nodup_map_iff_inj_on (hids.filter _)).2 fun u hu v hv => ?_
   exact hc.inj u (mem_of_mem_filter hu) v (mem_of_mem_filter hv)
 · simp only [mem_unknown,hc.ids,mem_map,mem_filter,Option.isNone_iff_eq_none]
   constructor
   · rintro ⟨⟨u,hu,rfl⟩,hnone⟩
     exact ⟨u,⟨hu,hnone⟩,rfl⟩
   · rintro ⟨u,⟨hu,hnone⟩,rfl⟩
     exact ⟨⟨u,hu,rfl⟩,hnone⟩

def knownNames (g : Graph) (m : Table Int Int) : List (NodeId × Value) :=
 m.entries.filterMap fun e => if g.hasNode (.num e.1) then some (.num e.1,.int e.2) else none

lemma mem_knownNames {x : NodeId × Value} : x ∈ g.knownNames m ↔
 ∃ i j, (i,j) ∈ m.entries ∧ .num i ∈ g.ids ∧ x = (.num i,.int j) := by
 simp only [knownNames,mem_filterMap,Option.ite_none_right_eq_some,hasNode_iff,Prod.exists,
  Option.some.injEq]
 constructor
 · rintro ⟨i,j,he,hi,rfl⟩
   exact ⟨i,j,he,hi,rfl⟩
 · rintro ⟨i,j,he,hi,rfl⟩
   exact ⟨i,j,he,hi,rfl⟩

lemma nodup_knownNames (hkey : m.keys.Nodup) : ((g.knownNames m).map Prod.fst).Nodup := by
 have hsub : (g.knownNames m).map Prod.fst = (m.keys.map num).filter g.hasNode := by
  rw [knownNames,Table.keys]
  induction m.entries with
  | nil => rfl
  | cons e es ih => cases hn : g.hasNode (.num e.1) <;> simp [hn,ih]
 rw [hsub]
 exact (hkey.map fun _ _ h => num.inj h).filter _

lemma get?_knownNames (hkey : m.keys.Nodup) (hnum : ∀ n ∈ g.ids, ∃ i, n = .num i) (hn : n ∈ g.ids) :
 (ofList (g.knownNames m)).get? n = (m.get? (idNumber n)).map .int := by
 obtain ⟨i,rfl⟩ := hnum n hn
 rw [idNumber]
 cases hj : m.get? i with
 | none =>
  rw [Option.map_none,get?_eq_none_iff,Table.keys,entries_ofList (nodup_knownNames hkey)]
  intro hmem
  obtain ⟨x,hx,hxi⟩ := mem_map.1 hmem
  obtain ⟨k,j,he,_,rfl⟩ := mem_knownNames.1 hx
  cases hxi
  rw [get?_of_mem hkey he] at hj
  cases hj
 | some j =>
  refine get?_of_mem (nodup_ofList _) ?_
  rw [entries_ofList (nodup_knownNames hkey),mem_knownNames]
  exact ⟨i,j,mem_of_get? hj,hn,rfl⟩

lemma values_knownNames (hkey : m.keys.Nodup) : ∃ is : List Int,
 (ofList (g.knownNames m)).values = is.map .int ∧ ∀ i ∈ is, i ∈ g.usedNumbers m := by
 refine ⟨(g.knownNames m).filterMap fun x => x.2.toInt?,?_,fun i hi => ?_⟩
 · rw [values,entries_ofList (nodup_knownNames hkey),map_filterMap]
   rw [← filterMap_eq_map]
   refine filterMap_congr fun x hx => ?_
   obtain ⟨i,j,_,_,rfl⟩ := mem_knownNames.1 hx
   rfl
 · obtain ⟨x,hx,hxi⟩ := mem_filterMap.1 hi
   obtain ⟨k,j,he,hk,rfl⟩ := mem_knownNames.1 hx
   cases hxi
   exact mem_flatMap.2 ⟨_,hk,by simp [idNumber,get?_of_mem hkey he]⟩

lemma toValue_ids (hnum : ∀ n ∈ g.ids, ∃ i, n = .num i) :
 g.ids.map toValue = (g.ids.map idNumber).map .int := by
 rw [map_map]
 refine map_congr_left fun n hn => ?_
 obtain ⟨i,rfl⟩ := hnum n hn
 rfl

lemma freshNames_knownNames (hg : g.Sound) (hkey : m.keys.Nodup)
 (hnum : ∀ n ∈ g.ids, ∃ i, n = .num i) :
 ∃ taken, sortOn id false ((ofList (g.knownNames m)).values ++ g.ids.map toValue) = .ok taken ∧
  freshNames g.ids (ofList (g.knownNames m)) taken =
   .ok ((ofList (g.knownNames m)).putAll (freshFrom (g.topNumber m) (g.unknown m))) := by
 obtain ⟨is,hval,hused⟩ := values_knownNames hkey
 have hunk : (g.ids.filter fun n => !(ofList (g.knownNames m)).contains n) = g.unknown m := by
  refine filter_congr fun n hn => ?_
  rw [Bool.eq_iff_iff,Bool.not_eq_true',Bool.eq_false_iff,ne_eq,Table.contains_iff,← isSome_get?_iff,
   get?_knownNames hkey hnum hn]
  cases m.get? (idNumber n) <;> simp
 rw [toValue_ids hnum,hval,← map_append]
 cases hids : g.ids with
 | nil =>
  obtain ⟨ks,hks,_⟩ := sortOn_ints (is ++ [])
  refine ⟨_,hks,?_⟩
  rw [unknown,hids]
  rfl
 | cons n ns =>
  have hn : n ∈ g.ids := by simp [hids]
  have hbou : ∀ i ∈ is ++ g.ids.map idNumber, i ≤ g.topNumber m := by
   intro i hi
   rcases mem_append.1 hi with hi | hi
   · exact le_topNumber (hused i hi)
   · obtain ⟨x,hx,rfl⟩ := mem_map.1 hi
     exact le_topNumber (mem_flatMap.2 ⟨x,hx,by simp⟩)
  have hmem : g.topNumber m ∈ is ++ g.ids.map idNumber := by
   obtain ⟨x,hx,hxtop⟩ := mem_flatMap.1 (topNumber_mem hn)
   rcases mem_cons.1 hxtop with htop | htop
   · exact mem_append_right _ (htop ▸ mem_map_of_mem hx)
   · refine mem_append_left _ ?_
     have hget : (ofList (g.knownNames m)).get? x = some (.int (g.topNumber m)) := by
      rw [get?_knownNames hkey hnum hx,Option.mem_toList.1 htop]
      rfl
     have hva : Value.int (g.topNumber m) ∈ (ofList (g.knownNames m)).values :=
      mem_map_of_mem (mem_of_get? hget)
     rw [hval] at hva
     obtain ⟨i,hi,hint⟩ := mem_map.1 hva
     exact Value.int.inj hint ▸ hi
  obtain ⟨taken,hsort,hlast⟩ := sortOn_top hmem hbou
  rw [hids] at hsort
  refine ⟨taken,hsort,?_⟩
  rw [← hids,freshNames_eq hg.ids hlast hval fun i hi => le_topNumber (hused i hi),hunk]

def givenNames (g : Graph) (m : Table Int Int) : Table NodeId Value :=
 (ofList (g.knownNames m)).putAll (freshFrom (g.topNumber m) (g.unknown m))

section
variable (hg : g.Sound) (hkey : m.keys.Nodup) (hnum : ∀ n ∈ g.ids, ∃ i, n = .num i)
include hg hkey hnum

lemma get?_givenNames (hn : n ∈ g.ids) :
 (g.givenNames m).get? n = some (g.relabeling m n).toValue := by
 have hfst : (freshFrom (g.topNumber m) (g.unknown m)).map Prod.fst = g.unknown m := by
  rw [freshFrom,map_map]
  exact map_id _
 have hnod : (Table.mk (freshFrom (g.topNumber m) (g.unknown m))).keys.Nodup := by
  rw [Table.keys,hfst]
  exact hg.ids.filter _
 rw [givenNames]
 cases hj : m.get? (idNumber n) with
 | some j =>
  have hnot : n ∉ (freshFrom (g.topNumber m) (g.unknown m)).map Prod.fst := by
   rw [hfst]
   intro hmem
   rw [(mem_unknown.1 hmem).2] at hj
   cases hj
  rw [get?_putAll_of_not_mem _ hnot,get?_knownNames hkey hnum hn,hj,relabeling_of_get? hj]
  rfl
 | none =>
  have hmem : n ∈ g.unknown m := mem_unknown.2 ⟨hn,hj⟩
  have hent : (n,Value.int (g.topNumber m + 1 + (g.unknown m).idxOf n)) ∈ freshFrom (g.topNumber m)
   (g.unknown m) :=
   mem_map_of_mem hmem
  have hboth := get?_putAll_entries (ofList (g.knownNames m)) hnod n
  rw [get?_of_mem hnod hent,Option.some_or] at hboth
  rw [relabeling_of_unknown hmem]
  exact hboth

lemma values_givenNames : ∀ v ∈ (g.givenNames m).values, ∃ n : NodeId, v = n.toValue := by
 intro v hv
 obtain ⟨⟨n,w⟩,hx,rfl⟩ := mem_map.1 hv
 have hids : n ∈ g.ids := by
  have hmem : n ∈ (g.givenNames m).keys := mem_map_of_mem hx
  rw [givenNames,mem_keys_putAll,Table.keys,entries_ofList (nodup_knownNames hkey)] at hmem
  rcases hmem with hmem | hmem
  · obtain ⟨y,hy,rfl⟩ := mem_map.1 hmem
    obtain ⟨i,j,_,hi,rfl⟩ := mem_knownNames.1 hy
    exact hi
  · obtain ⟨y,hy,rfl⟩ := mem_map.1 hmem
    obtain ⟨z,hz,rfl⟩ := mem_map.1 hy
    exact (mem_unknown.1 hz).1
 have hget := get?_givenNames hg hkey hnum hids
 have hnod : (g.givenNames m).keys.Nodup := nodup_putAll (nodup_ofList _) _
 rw [get?_of_mem hnod hx] at hget
 exact ⟨_,Option.some.inj hget⟩

lemma relabeled_eq : g.relabeled (m.entries.map fun e => (.int e.1,.int e.2)) =
 .ok (g.renamed (g.relabeling m)) := by
 obtain ⟨taken,htak,hfre⟩ := freshNames_knownNames hg hkey hnum
 rw [← givenNames] at hfre
 have hall : ((g.givenNames m).values.all fun v => (ofValue? v).isSome) := by
  rw [all_eq_true]
  intro v hv
  obtain ⟨n,rfl⟩ := values_givenNames hg hkey hnum v hv
  rw [ofValue?_toValue]
  rfl
 have hren : g.renamed (fun n => (((g.givenNames m).get? n).bind ofValue?).getD n) =
  g.renamed (g.relabeling m) := by
  refine renamed_congr hg fun n hn => ?_
  rw [get?_givenNames hg hkey hnum hn,Option.bind_some,ofValue?_toValue]
  rfl
 calc g.relabeled (m.entries.map fun e => (.int e.1,.int e.2))
     = (do
         let taken ← sortOn id false ((ofList (g.knownNames m)).values ++ g.ids.map toValue)
         let names ← freshNames g.ids (ofList (g.knownNames m)) taken
         if names.values.all fun v => (ofValue? v).isSome then
           return g.renamed fun n => ((names.get? n).bind ofValue?).getD n
         else throw .wrongType) := by
       rw [relabeled,filterMap_map]
       rfl
   _ = .ok (g.renamed fun n => (((g.givenNames m).get? n).bind ofValue?).getD n) := by
       simp only [htak,hfre,bind,Except.bind,hall,if_true]
       rfl
   _ = .ok (g.renamed (g.relabeling m)) := by rw [hren]

end

structure Isomorphism (h g : Graph) (f : NodeId → NodeId) : Prop where
 sound : h.Sound
 kind : h.directed = g.directed ∧ h.multi = g.multi
 inj : ∀ u ∈ g.ids, ∀ v ∈ g.ids, f u = f v → u = v
 nodes : h.nodes.entries = g.nodes.entries.map fun e => (f e.1,e.2)
 edges : ∀ u ∈ g.ids, ∀ v ∈ g.ids, h.edgeAttrs? (f u) (f v) = g.edgeAttrs? u v

lemma isomorphism_renamed {f : NodeId → NodeId} (hg : g.Sound) (hm : g.multi = false)
 (hf : ∀ u ∈ g.ids, ∀ v ∈ g.ids, f u = f v → u = v) : Isomorphism (g.renamed f) g f where
 sound := hg.renamed f
 kind := by
  obtain ⟨_,hdir,hmul⟩ := nodes_renamed hg hm f
  exact ⟨hdir,hmul.trans hm.symm⟩
 inj := hf
 nodes := entries_renamed hg hm hf
 edges _ hu _ hv := edgeAttrs?_renamed hg hm hf hu hv

structure FreshBeyond (g : Graph) (m : Table Int Int) (f : NodeId → NodeId) : Prop where
 known : ∀ n ∈ g.ids, ∀ j, m.get? (idNumber n) = some j → f n = .num j
 beyond : ∀ n ∈ g.unknown m, ∃ i, f n = .num i ∧ ∀ j ∈ g.usedNumbers m, j < i
 rising : (g.unknown m).Pairwise fun u v => idNumber (f u) < idNumber (f v)

lemma freshBeyond_relabeling (hids : g.ids.Nodup) : FreshBeyond g m (g.relabeling m) where
 known _ _ _ hj := relabeling_of_get? hj
 beyond n hn := by
  refine ⟨_,relabeling_of_unknown hn,fun j hj => ?_⟩
  have hle := le_topNumber hj
  omega
 rising := by
  have hnod : (g.unknown m).Nodup := hids.filter _
  refine pairwise_iff_getElem.2 fun i j hi hj hij => ?_
  rw [relabeling_of_unknown (getElem_mem hi),relabeling_of_unknown (getElem_mem hj),
   hnod.idxOf_getElem,hnod.idxOf_getElem]
  simp only [idNumber]
  omega

theorem relabeled_fresh (hg : g.Sound) (hm : g.multi = false) (hnum : ∀ n ∈ g.ids, ∃ i, n = .num i)
 (hkey : m.keys.Nodup)
 (hinj : ∀ u ∈ g.ids, ∀ v ∈ g.ids, ∀ j, m.get? (idNumber u) = some j →
  m.get? (idNumber v) = some j → u = v) :
 ∃ h f, g.relabeled (m.entries.map fun e => (.int e.1,.int e.2)) = .ok h ∧ Isomorphism h g f ∧
  FreshBeyond g m f :=
 ⟨_,_,relabeled_eq hg hkey hnum,isomorphism_renamed hg hm (relabeling_inj hinj),
  freshBeyond_relabeling hg.ids⟩

def arrows : Graph where
 directed := true
 multi := false
 nodes := ⟨[(.num 3,.empty),(.num 1,.empty),(.num 2,.empty),(.num 4,.empty)]⟩
 edges := [⟨.num 3,.num 1,.none,.empty⟩,⟨.num 1,.num 2,.none,.empty⟩]

theorem arrows_relabeled : ∃ h f, arrows.relabeled [(.int 1,.int 2),(.int 2,.int 1),
 (.int 9,.int 50)] = .ok h ∧
 Isomorphism h arrows f ∧ FreshBeyond arrows ⟨[(1,2),(2,1),(9,50)]⟩ f :=
 relabeled_fresh (m := ⟨[(1,2),(2,1),(9,50)]⟩) (by decide) rfl (by simp [arrows,ids,Table.keys])
  (by decide) (by decide)

def through (m : Table Int Int) : NodeId → NodeId
 | .num i => .num ((m.get? i).getD i)
 | n => n

end
end MotifMatch.Graph

namespace MotifMatch.Corpus
open List
section
variable {α : Type} [BEq α] {l : List α}

lemma eraseDups_sublist (l : List α) : l.eraseDups.Sublist l := by
 induction hn : l.length using Nat.strongRecOn generalizing l with
 | ind n ih =>
  cases l with
  | nil => exact .refl _
  | cons a l =>
   rw [length_cons] at hn
   have hle := length_filter_le (fun b => !b == a) l
   rw [eraseDups_cons]
   exact ((ih _ (by omega) _ rfl).trans filter_sublist).cons_cons a

variable [LawfulBEq α]

lemma nodup_eraseDups (l : List α) : l.eraseDups.Nodup := by
 induction hn : l.length using Nat.strongRecOn generalizing l with
 | ind n ih =>
  cases l with
  | nil => exact nodup_nil
  | cons a l =>
   rw [length_cons] at hn
   have hle := length_filter_le (fun b => !b == a) l
   rw [eraseDups_cons,nodup_cons]
   exact ⟨by simp,ih _ (by omega) _ rfl⟩

lemma idxOf_lt_idxOf {r : α → α → Prop} (h : l.Pairwise r) {x y : α} (hx : x ∈ l) (hy : y ∈ l)
 (hr : ¬r y x) (hne : x ≠ y) :
 l.idxOf x < l.idxOf y := by
 induction l with
 | nil => cases hx
 | cons a l ih =>
  rw [pairwise_cons] at h
  by_cases hax : a = x
  · subst hax
    rw [idxOf_cons_self,idxOf_cons_ne l hne]
    omega
  · by_cases hay : a = y
    · subst hay
      exact absurd (h.1 x ((mem_cons.1 hx).resolve_left (Ne.symm hax))) hr
    · rw [idxOf_cons_ne l hax,idxOf_cons_ne l hay]
      exact Nat.succ_lt_succ (ih h.2 ((mem_cons.1 hx).resolve_left (Ne.symm hax))
       ((mem_cons.1 hy).resolve_left (Ne.symm hay)))

lemma mem_distinctSorted {xs : List String} {x : String} : x ∈ distinctSorted xs ↔ x ∈ xs := by
 rw [distinctSorted,mem_eraseDups,mem_mergeSort]

lemma pairwise_distinctSorted (xs : List String) : (distinctSorted xs).Pairwise (· ≤ ·) := by
 have hsor := @pairwise_mergeSort String (fun a b => decide (a ≤ b))
  (fun a b c hab hbc => by simpa using String.le_trans (by simpa using hab) (by simpa using hbc))
  (fun a b => by simpa using String.le_total a b) xs
 exact (hsor.imp fun h => by simpa using h).sublist (eraseDups_sublist _)

end

variable {ks : List Int}

def rank (ks : List Int) (k : Int) : Nat := (ks.toFinset.filter (· < k)).card

lemma rank_congr {ks ls : List Int} (h : ∀ k, k ∈ ks ↔ k ∈ ls) (k : Int) :
 rank ks k = rank ls k := by
 have heq : ks.toFinset = ls.toFinset := by
  ext k
  simpa using h k
 rw [rank,rank,heq]

lemma rank_map {f : Int → Int} {k : Int} (hf : ∀ a ∈ ks, ∀ b ∈ ks, f a < f b ↔ a < b) (hk : k ∈ ks) :
 rank (ks.map f) (f k) = rank ks k := by
 have hima : (ks.map f).toFinset.filter (· < f k) = (ks.toFinset.filter (· < k)).image f := by
  ext x
  simp only [Finset.mem_filter,mem_toFinset,mem_map,Finset.mem_image]
  constructor
  · rintro ⟨⟨a,ha,rfl⟩,hlt⟩
    exact ⟨a,⟨ha,(hf a ha k hk).1 hlt⟩,rfl⟩
  · rintro ⟨a,⟨ha,hlt⟩,rfl⟩
    exact ⟨⟨a,ha,rfl⟩,(hf a ha k hk).2 hlt⟩
 rw [rank,rank,hima,Finset.card_image_of_injOn]
 intro a ha b hb heq
 have hmem : ∀ x ∈ (ks.toFinset.filter (· < k)), x ∈ ks :=
  fun x hx => by simpa using (Finset.mem_filter.1 hx).1
 have hab := hf a (hmem a ha) b (hmem b hb)
 have hba := hf b (hmem b hb) a (hmem a ha)
 rw [heq] at hab hba
 omega

lemma idxOf_sorted (h : ks.Pairwise (· < ·)) {k : Int} (hk : k ∈ ks) : ks.idxOf k = rank ks k := by
 have hnod : ks.Nodup := h.imp fun hlt => ne_of_lt hlt
 have hcard : rank ks k = (ks.filter (· < k)).length := by
  rw [← toFinset_card_of_nodup (hnod.filter _),toFinset_filter,rank]
  simp
 rw [hcard]
 clear hcard hnod
 induction ks with
 | nil => cases hk
 | cons a ks ih =>
  rw [pairwise_cons] at h
  by_cases ha : a = k
  · subst ha
    have hnone : (a :: ks).filter (· < a) = [] := by
     refine filter_eq_nil_iff.2 fun b hb => ?_
     rcases mem_cons.1 hb with rfl | hb
     · simp
     · have := h.1 b hb
       simp only [decide_eq_true_eq]
       omega
    rw [hnone,idxOf_cons_self]
    rfl
  · have hmem := (mem_cons.1 hk).resolve_left (Ne.symm ha)
    rw [idxOf_cons_ne ks ha,filter_cons_of_pos (by simpa using h.1 k hmem),length_cons,ih h.2 hmem]

variable {j k : Int}

lemma rank_lt_rank (hj : j ∈ ks) (hlt : j < k) : rank ks j < rank ks k := by
 refine Finset.card_lt_card (Finset.ssubset_iff_of_subset ?_ |>.mpr ⟨j,?_,?_⟩)
 · intro i hi
   rw [Finset.mem_filter] at hi ⊢
   exact ⟨hi.1,by omega⟩
 · exact Finset.mem_filter.2 ⟨mem_toFinset.2 hj,hlt⟩
 · simp

lemma rank_inj (hj : j ∈ ks) (hk : k ∈ ks) (h : rank ks j = rank ks k) : j = k := by
 by_contra hne
 rcases lt_or_gt_of_ne hne with hlt | hlt
 · have := rank_lt_rank hj hlt
   omega
 · have := rank_lt_rank hk hlt
   omega

lemma rank_eq_iff (hks : ∀ i ∈ ks, 1 ≤ i) (hk : 1 ≤ k) :
 (rank ks k) + 1 = k ↔ ∀ i, 1 ≤ i → i < k → i ∈ ks := by
 -- the smaller numbers of the list lie between 1 and k, and there are k - 1 of them only if they fill that interval
 have hsub : ks.toFinset.filter (· < k) ⊆ Finset.Ico 1 k := by
  intro i hi
  rw [Finset.mem_filter,mem_toFinset] at hi
  exact Finset.mem_Ico.2 ⟨hks i hi.1,hi.2⟩
 have hcard := Int.card_Ico 1 k
 constructor
 · intro h i hi hlt
   have heq := Finset.eq_of_subset_of_card_le hsub (by rw [hcard]; show _ ≤ rank ks k; omega)
   have hmem : i ∈ ks.toFinset.filter (· < k) := heq ▸ Finset.mem_Ico.2 ⟨hi,hlt⟩
   exact mem_toFinset.1 (Finset.mem_filter.1 hmem).1
 · intro h
   have heq : ks.toFinset.filter (· < k) = Finset.Ico 1 k := by
    refine hsub.antisymm fun i hi => ?_
    rw [Finset.mem_Ico] at hi
    exact Finset.mem_filter.2 ⟨mem_toFinset.2 (h i hi.1 hi.2),hi.2⟩
   rw [rank,heq,hcard]
   omega

lemma foldl_distinct (ks ds : List Int) (hds : ds.Nodup) : ∃ es : List Int,
 (ks.map Value.int).foldl (fun acc v => if acc.any fun w => w == v then acc else acc ++ [v])
  (ds.map .int) = es.map .int ∧
  es.Nodup ∧ ∀ k, k ∈ es ↔ k ∈ ks ∨ k ∈ ds := by
 induction ks generalizing ds with
 | nil => exact ⟨ds,rfl,hds,by simp⟩
 | cons k ks ih =>
  have hany : ((ds.map Value.int).any fun w => w == .int k) = ds.contains k := by
   rw [any_map,contains_eq_any_beq]
   refine congrArg (fun p => ds.any p) (funext fun d => ?_)
   exact (Value.same_int d k).trans BEq.comm
  rw [map_cons,foldl_cons,hany]
  by_cases hk : k ∈ ds
  · obtain ⟨es,hes,hnod,hmem⟩ := ih ds hds
    refine ⟨es,by simpa [hk] using hes,hnod,fun j => (hmem j).trans ?_⟩
    by_cases hj : j = k <;> simp [hj,hk]
  · obtain ⟨es,hes,hnod,hmem⟩ := ih (ds ++ [k]) (concat_eq_append ▸ hds.concat hk)
    refine ⟨es,by simpa [hk] using hes,hnod,fun j => (hmem j).trans ?_⟩
    simp only [mem_append,mem_cons,not_mem_nil,or_false]
    tauto

lemma findIdx_sortedLabels {k : Int} (hk : k ∈ ks) :
 (sortedLabels (ks.map .int)).findIdx (fun w => w == .int k) = rank ks k := by
 obtain ⟨ds,hds,hnod,hmem⟩ := foldl_distinct ks [] nodup_nil
 obtain ⟨es,hes,hper,hsor⟩ := Graph.sortOn_ints ds
 have hstr : es.Pairwise (· < ·) :=
  (hsor.and (hper.nodup_iff.2 hnod)).imp fun h => Int.lt_iff_le_and_ne.2 h
 have hsame : ∀ j, j ∈ es ↔ j ∈ ks := fun j => by rw [hper.mem_iff,hmem]; simp
 have hlab : sortedLabels (ks.map .int) = es.map .int := by
  rw [map_nil] at hds
  simp only [sortedLabels,hds,hes]
 rw [hlab,findIdx_map,← rank_congr hsame,← idxOf_sorted hstr ((hsame k).2 hk),List.idxOf]
 exact congrArg (fun p => es.findIdx p) (funext fun d => Value.same_int d k)

end MotifMatch.Corpus

namespace MotifMatch.Graph
open List Int
variable {g : Graph} {index : NodeId → Int} {order : List NodeId}

def oriented (g : Graph) (index : NodeId → Int) : Graph :=
 { g with directed := true, edges := g.edgeList.map (upward index) }

lemma Sound.oriented (hg : g.Sound) (hm : g.multi = false) (hd : g.directed = false)
 (index : NodeId → Int) :
 (g.oriented index).Sound where
 ids := hg.ids
 attrs := hg.attrs
 ends e he := by
  obtain ⟨x,hx,rfl⟩ := mem_map.1 he
  obtain ⟨hs,ht,_⟩ := mem_edgeList_ends hg hx
  rcases ends_upward index x with ⟨hsou,htar⟩ | ⟨hsou,htar⟩
  · rw [hsou,htar]
    exact ⟨hs,ht⟩
  · rw [hsou,htar]
    exact ⟨ht,hs⟩
 edgeAttrs e he := by
  obtain ⟨x,hx,rfl⟩ := mem_map.1 he
  rw [attrs_upward]
  exact (mem_edgeList_ends hg hx).2.2
 single _ := by
  refine pairwise_map.2 ((listFrom_apart hg hm hg.ids).imp fun {x y} hxy => ?_)
  rw [← Bool.not_eq_true,joins_iff] at hxy ⊢
  rintro (⟨hs,ht⟩ | ⟨hdir,_⟩)
  · refine hxy ?_
    rcases ends_upward index x with ⟨hxs,hxt⟩ | ⟨hxs,hxt⟩ <;>
     rcases ends_upward index y with ⟨hys,hyt⟩ | ⟨hys,hyt⟩ <;>
     rw [hxs,hys] at hs <;> rw [hxt,hyt] at ht
    · exact .inl ⟨hs,ht⟩
    · exact .inr ⟨hd,ht,hs⟩
    · exact .inr ⟨hd,hs,ht⟩
    · exact .inl ⟨ht,hs⟩
  · cases hdir

lemma hasEdge_oriented (hg : g.Sound) (hd : g.directed = false)
 (hinj : ∀ m ∈ g.ids, ∀ n ∈ g.ids, index m = index n → m = n) (u v : NodeId) :
 (g.oriented index).hasEdge u v = (decide (index u ≤ index v) && g.hasEdge u v) := by
 rw [Bool.eq_iff_iff,Bool.and_eq_true,decide_eq_true_iff,hasEdge_iff_listed hg,hasEdge_iff]
 have hup : ∀ e, (g.oriented index).joins u v (upward index e) ↔
  (upward index e).source = u ∧ (upward index e).target = v := by
  intro e
  rw [joins_iff,or_iff_left]
  rintro ⟨hdir,_⟩
  cases hdir
 constructor
 · rintro ⟨_,hmem,hj⟩
   obtain ⟨e,he,rfl⟩ := mem_map.1 hmem
   obtain ⟨hs,ht⟩ := (hup e).1 hj
   unfold upward at hs ht
   split at hs
   · next hlt =>
     rw [if_pos hlt] at ht
     refine ⟨hs ▸ ht ▸ le_of_lt hlt,e,he,joins_iff.2 (.inl ⟨hs,ht⟩)⟩
   · next hlt =>
     rw [if_neg hlt] at ht
     dsimp only at hs ht
     refine ⟨hs ▸ ht ▸ not_lt.1 hlt,e,he,joins_iff.2 (.inr ⟨hd,ht,hs⟩)⟩
 · rintro ⟨hle,e,he,hj⟩
   refine ⟨_,mem_map_of_mem he,(hup e).2 ?_⟩
   obtain ⟨hsou,htar,_⟩ := mem_edgeList_ends hg he
   unfold upward
   rcases joins_iff.1 hj with ⟨rfl,rfl⟩ | ⟨_,rfl,rfl⟩
   · split
     · exact ⟨rfl,rfl⟩
     · next hlt =>
       -- an edge between nodes of one index is a loop
       have hsame := hinj _ hsou _ htar (by omega)
       exact ⟨hsame.symm,hsame⟩
   · rw [if_neg (by omega)]
     exact ⟨rfl,rfl⟩

lemma Numbered.oriented (hn : Numbered g) (hg : g.Sound) (index : NodeId → Int) :
 Numbered (g.oriented index) where
 nodes := hn.nodes
 edges e he := by
  obtain ⟨x,hx,rfl⟩ := mem_map.1 he
  rw [attrs_upward]
  exact (hn.relisted hg).edges x hx

lemma Numbered.copies_oriented (hn : Numbered g) (hg : g.Sound) (hm : g.multi = false)
 (hd : g.directed = false)
 (hinj : ∀ m ∈ g.ids, ∀ n ∈ g.ids, index m = index n → m = n) (hnod : order.Nodup)
 (hord : ∀ n, n ∈ order ↔ n ∈ g.ids) :
 Copies ((g.contents index order).upwards.graph true) (g.oriented index) fun n =>
  .num (index n) := by
 have hedg : g.edgeList.map (fun e => listedEdge index (upward index e)) =
  (g.oriented index).edges.map (listedEdge index) := by
  rw [Graph.oriented,map_map]
  rfl
 rw [graph_upwards,hedg]
 exact (hn.oriented hg index).copies_edges (hg.oriented hm hd index) hm ⟨fun _ => .inl ⟨rfl,rfl⟩,
  fun _ => rfl,
  fun _ _ => Table.nodup_ofList _,fun m hm n hn heq => hinj m hm n hn (NodeId.num.inj heq)⟩ hnod hord

lemma idxOf_listFrom (hm : g.multi = false) (hd : g.directed = false) {ns done : List NodeId}
 (hns : ns.Nodup) {e : Edge}
 (he : e ∈ g.listFrom done ns) : ns.idxOf e.source ≤ ns.idxOf e.target := by
 induction ns generalizing done with
 | nil => cases he
 | cons n ns ih =>
  obtain ⟨hn,hns⟩ := nodup_cons.1 hns
  rcases mem_append.1 he with he | he
  · obtain ⟨hfan,_⟩ := mem_filter.1 he
    rw [fan_eq_leaving hm] at hfan
    obtain ⟨_,_,_,_,rfl⟩ := mem_leaving.1 hfan
    rw [idxOf_cons_self]
    exact Nat.zero_le _
  · obtain ⟨hsou,_,hdone⟩ := mem_listFrom he
    have hs : n ≠ e.source := fun heq => hn (heq ▸ hsou)
    have ht : n ≠ e.target := fun heq => hdone hd (heq ▸ mem_cons_self)
    rw [idxOf_cons_ne ns hs,idxOf_cons_ne ns ht]
    exact Nat.succ_le_succ (ih hns he)

lemma le_of_listed (hg : g.Sound) (hm : g.multi = false) (hd : g.directed = false)
 (hup : g.ids.Pairwise fun m n => idNumber m < idNumber n) {e : Edge} (he : e ∈ g.edgeList) :
 idNumber e.source ≤ idNumber e.target := by
 obtain ⟨hs,ht,_⟩ := mem_edgeList_ends hg he
 have hfir : g.ids.idxOf e.source ≤ g.ids.idxOf e.target := idxOf_listFrom hm hd hg.ids he
 by_contra hlt
 have hne : e.target ≠ e.source := fun heq => hlt (by rw [heq])
 have := Corpus.idxOf_lt_idxOf hup ht hs (by omega) hne
 omega

lemma upwards_contents (h : ∀ e ∈ g.edgeList, index e.source ≤ index e.target) :
 (g.contents index order).upwards = g.contents index order := by
 simp only [Listing.Contents.upwards,contents,map_map]
 congr 1
 refine map_congr_left fun e he => ?_
 rw [Function.comp_apply]
 split
 · rfl
 · next hlt =>
   have hsame : index e.source = index e.target := le_antisymm (h e he) (not_lt.1 hlt)
   rw [hsame]

def facing (directed : Bool) (index : NodeId → Int) (g : Graph) : Graph :=
 match directed with
 | true => g.oriented index
 | false => g

lemma ids_facing (directed : Bool) (index : NodeId → Int) (g : Graph) :
 (g.facing directed index).ids = g.ids := by
 cases directed <;> rfl

lemma Numbered.copies_facing (hn : Numbered g) (hg : g.Sound) (hm : g.multi = false)
 (hd : g.directed = false)
 (hinj : ∀ m ∈ g.ids, ∀ n ∈ g.ids, index m = index n → m = n) (hnod : order.Nodup)
 (hord : ∀ n, n ∈ order ↔ n ∈ g.ids)
 (directed : Bool) :
 Copies ((g.contents index order).upwards.graph directed) (g.facing directed index) fun n =>
  .num (index n) := by
 cases directed with
 | false => exact hn.copies_upwards hg hm hd hinj hnod hord
 | true => exact hn.copies_oriented hg hm hd hinj hnod hord

end MotifMatch.Graph
