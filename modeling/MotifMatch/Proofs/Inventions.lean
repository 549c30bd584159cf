import MotifMatch.Proofs.Loading

namespace MotifMatch.Corpus
open MotifMatch.Path Run Prod
variable {σ : Session} {folder : String} {d : List String} {i a : Int} {g : Graph}
 {names : List (Int × Int)}
 {iso nonIso : List Graph}

structure Loads (σ : Session) (i a : Int) (g : Graph) (names : List (Int × Int))
 (iso : List Graph) : Prop where
 source : ∃ l, Ends (source (.int i) true) σ (.ok l) σ ∧ l.Restores g (imported names) (.num a)
 queries : ∀ v, σ.settings.get "iso" = .ok v → v.truthy = true →
  ∃ t, Run.Ends (Corpus.queries (.int i) true) σ (.ok t) σ ∧
   t.keys = (List.range iso.length).map Int.ofNat ∧
   ∀ (k : Nat) (s : Graph), iso[k]? = some s → ∃ l, t.get? k = some l ∧
    l.Restores s (imported names) (.num a)

theorem written_restores (hroom : Room σ folder (toString i) d) (hconf : Configured σ d)
 (hi : i ≠ -1) (hg : Listable g)
 (hn : Naming names g) (hiso : ∀ s ∈ iso, Listable s ∧ ∀ n ∈ s.ids, n ∈ g.ids) :
 ∃ r σ', Ends (write folder ⟨.int i,g,names.map fun x => (.int x.1,.int x.2),.int a,iso,
  nonIso⟩) σ r σ' ∧
  ((∀ s ∈ nonIso, Foreign s) → r = .ok ()) ∧ σ'.settings = σ.settings ∧
  (∀ x ∈ names, imported names (.num x.2) = .num (x.1 + 1)) ∧ Loads σ' i a g names iso := by
 obtain ⟨r,σ',es,qs,hends,hshe,hwri,hord,hfile,hok⟩ := hroom.ends_write hg
  (fun s hs => (hiso s hs).1) names a nonIso
 have hconf' := hconf.keeps hshe.keeps hshe.settings
 have hread : Readable σ' i a g names := hwri.readable hconf' hshe.found
 have hque := hfile.readable queryFiles_iso hconf' hshe.found
 have hpart : ∀ q ∈ qs, Listable q.1 ∧ q.2.Perm q.1.ids ∧ ∀ n ∈ q.1.ids, n ∈ g.ids := by
  intro q hq
  obtain ⟨hlist,hsub⟩ := hiso q.1 (hord.graphs ▸ List.mem_map_of_mem hq)
  exact ⟨hlist,hord.perm q hq,hsub⟩
 refine ⟨r,σ',hends,fun hnon => (hok hnon).1,hshe.settings,fun x hx => hn.imported_eq hx,
  hread.ends_source hg hn hi,
  fun v hv htrue => ?_⟩
 have hkind := ends_queryKind hv
 rw [htrue] at hkind
 obtain ⟨t,hload,hkey,hres⟩ := hread.ends_queries hque hkind hn hi fun q hq =>
  ⟨(hpart q hq).1,(hpart q hq).2.1⟩
 refine ⟨t,hload,by rw [hkey,← hord.graphs,List.length_map],fun k s hk => ?_⟩
 rw [← hord.graphs,List.getElem?_map,Option.map_eq_some_iff] at hk
 obtain ⟨q,hq,rfl⟩ := hk
 obtain ⟨l,hl,hret⟩ := hres k q hq
 obtain ⟨hlist,hper,hsub⟩ := hpart q (List.mem_of_getElem? hq)
 exact ⟨l,hl,hret.restores hn hlist hper hsub⟩

def twig : Graph where
 directed := false
 multi := false
 nodes := ⟨[(.num 3,⟨[("label",.int 1)]⟩),(.num 7,⟨[("label",.int 2)]⟩),
  (.num 5,⟨[("label",.int 1)]⟩)]⟩
 edges := [⟨.num 3,.num 7,.none,⟨[("label",.int 4)]⟩⟩,⟨.num 7,.num 5,.none,⟨[("label",.int 6)]⟩⟩]

def twigTip : Graph where
 directed := false
 multi := false
 nodes := ⟨[(.num 7,⟨[("label",.int 2)]⟩),(.num 3,⟨[("label",.int 1)]⟩)]⟩
 edges := [⟨.num 7,.num 3,.none,⟨[("label",.int 4)]⟩⟩]

lemma twig_listable : Listable twig := ⟨by decide,rfl,rfl,by decide⟩

lemma twigTip_listable : Listable twigTip := ⟨by decide,rfl,rfl,by decide⟩

def emptyCorpus : Session where
 streams := default
 settings :=
  ⟨⟨[("directed",.bool false),("iso",.bool true),("test_data",.bool false),("dataset",.str "CPG"),
  ("dataset_dir",.str "data/datasets/")]⟩⟩
 files := .folder [("glema",
  .folder [("data",.folder [("datasets",.folder [("CPG_train",.folder [])])])])]
 printed := #[]
 records := []

lemma emptyCorpus_leads : emptyCorpus.files.resolve (ofProject "data/datasets//CPG_train") =
 .ok ["glema","data","datasets","CPG_train"] := by
 have hnam : FileName "data" := ⟨by decide,'d',_,rfl,by decide,by decide⟩
 have habs : isAbsolute ("data" ++ "/" ++ "datasets//CPG_train") = false := by
  rw [isAbsolute_append (by decide),hnam.isAbsolute]
 exact Entry.resolve_eq_ok.2 ⟨_,fromRoot?_ofProject_of_relative habs,by rfl⟩

def twigNames : List (Int × Int) := [(10,3),(20,7),(11,5)]

theorem twig_restores : ∃ r σ', Ends (write (ofProject "data/datasets//CPG_train")
 ⟨.int 0,twig,twigNames.map fun x => (.int x.1,.int x.2),.int 7,[twig,twigTip],[]⟩)
  emptyCorpus r σ' ∧
 ((∀ s ∈ ([]), Foreign s) → r = .ok ()) ∧ σ'.settings = emptyCorpus.settings ∧
 (∀ x ∈ twigNames, imported twigNames (.num x.2) = .num (x.1 + 1)) ∧
  Loads σ' 0 7 twig twigNames [twig,twigTip] := by
 have hroom : Room emptyCorpus (ofProject "data/datasets//CPG_train") (toString 0)
  ["glema","data","datasets","CPG_train"] := ⟨emptyCorpus_leads,⟨[],rfl⟩,fun e he => by cases he⟩
 have hconf : Configured emptyCorpus ["glema","data","datasets","CPG_train"] :=
  ⟨⟨_,rfl,rfl⟩,⟨_,_,_,rfl,rfl,rfl,emptyCorpus_leads⟩⟩
 have hnam : Naming twigNames twig :=
  ⟨by decide,by decide,by simp [twig,twigNames,Graph.ids,Table.keys]⟩
 have hpart : ∀ s ∈ [twig,twigTip], Listable s ∧ ∀ n ∈ s.ids, n ∈ twig.ids := by
  intro s hs
  rcases List.mem_pair.1 hs with rfl | rfl
  · exact ⟨twig_listable,fun n hn => hn⟩
  · exact ⟨twigTip_listable,by decide⟩
 exact written_restores hroom hconf (by decide) twig_listable hnam hpart

open List MotifMatch.Graph
open MotifMatch.Graph (nodeAttr? idNumber ids)
variable {s h l : Graph} {q : Graph × List NodeId} {n : NodeId} {x : Int × Int}

def keptNames (names : List (Int × Int)) (s : Graph) : List (Int × Int) :=
 names.filter fun x => paired true s (.num x.2)

def changed (s : Graph) : List NodeId := s.ids.filter fun n => !paired true s n

def firstTop (names : List (Int × Int)) (s : Graph) : Int :=
 ((keptNames names s).map snd).foldl max (s.size - 1)

def secondTop (names : List (Int × Int)) (s : Graph) : Int :=
 ((keptNames names s).map fun x => x.1 + 1).foldl max (firstTop names s + (changed s).length)

structure Clear (names : List (Int × Int)) (g s : Graph) : Prop where
 first : ∀ j < (changed s).length, .num (firstTop names s + 1 + j) ∉ g.ids
 second : ∀ j < (changed s).length, secondTop names s + 1 + j ∉ names.map fun x => x.1 + 1

lemma clear_iff : Clear names g s ↔
 (∀ j < (changed s).length, .num (firstTop names s + 1 + j) ∉ g.ids) ∧
 ∀ j < (changed s).length, secondTop names s + 1 + j ∉ names.map fun x => x.1 + 1 :=
 ⟨fun h => ⟨h.first,h.second⟩,fun h => ⟨h.1,h.2⟩⟩

instance : Decidable (Clear names g s) := decidable_of_iff' _ clear_iff

lemma foldl_max_spec (i : Int) (js : List Int) :
 (js.foldl max i = i ∨ js.foldl max i ∈ js) ∧ i ≤ js.foldl max i ∧ ∀ j ∈ js, j ≤ js.foldl max i := by
 have hmax : (i :: js).max? = some (js.foldl max i) := max?_cons'
 obtain ⟨hmem,hle⟩ := max?_eq_some_iff.1 hmax
 exact ⟨mem_cons.1 hmem,hle i (by simp),fun j hj => hle j (by simp [hj])⟩

structure Sent (names : List (Int × Int)) (g : Graph) (q : Graph × List NodeId) : Prop where
 foreign : Foreign q.1
 perm : q.2.Perm q.1.ids
 naming : Naming names g
 exact : ∀ x ∈ names, .num x.2 ∈ g.ids
 kept : ∀ n ∈ q.1.ids, paired true q.1 n = true → n ∈ g.ids

lemma mem_ids_of_paired (h : paired true s n) : n ∈ s.ids := by
 rw [← attrs?_isSome_iff]
 cases ha : s.attrs? n with
 | some a => rfl
 | none => simp [paired,nodeAttr?,ha] at h

lemma Sent.exists_name (hq : Sent names g q) (h : paired true q.1 n) :
 ∃ x ∈ keptNames names q.1, n = .num x.2 := by
 obtain ⟨x,hx,rfl⟩ := hq.naming.covers n (hq.kept n (mem_ids_of_paired h) h)
 exact ⟨x,mem_filter.2 ⟨hx,h⟩,rfl⟩

lemma Sent.unplacing_name (hq : Sent names g q) (hx : x ∈ keptNames names q.1) :
 unplacing true q (.num x.2) = .num x.2 :=
 have hpai := (mem_filter.1 hx).2
 hq.foreign.listable.unplacing_of_paired hq.perm (mem_ids_of_paired hpai) hpai

lemma Sent.topNumber_placed (hq : Sent names g q) (hne : q.1.ids ≠ []) :
 (placed q).topNumber (placeTable true q) = firstTop names q.1 := by
 have hnod : q.2.Nodup := hq.perm.nodup_iff.2 hq.foreign.listable.sound.ids
 have hsiz : q.2.length = q.1.size := hq.perm.length_eq.trans (length_map _)
 have hpos : 0 < q.2.length := by
  rw [hq.perm.length_eq]
  exact length_pos_of_ne_nil hne
 obtain ⟨hatt,hbase,hle⟩ := foldl_max_spec (q.1.size - 1) ((keptNames names q.1).map snd)
 have hused : ∀ i, i ∈ (placed q).usedNumbers (placeTable true q) ↔ ∃ n ∈ q.1.ids,
  i = placeIn q.2 n ∨ (paired true q.1 n ∧ idNumber n = i) := by
  intro i
  rw [(hq.foreign.listable.copies_placed hq.perm).mem_usedNumbers]
  refine exists_congr fun n => and_congr_right fun hn => ?_
  rw [idNumber,get?_placeTable true hnod (hq.perm.mem_iff.2 hn),Option.ite_none_right_eq_some,
   Option.some.injEq]
 refine topNumber_eq ((hused _).2 ?_) fun i hi => ?_
 · rcases hatt with hlast | hnam
   · have hidx : q.2.idxOf (q.2.get ⟨q.2.length - 1,by omega⟩) = q.2.length - 1 := by
      rw [get_eq_getElem,hnod.idxOf_getElem]
     refine ⟨q.2.get ⟨q.2.length - 1,by omega⟩,hq.perm.mem_iff.1 (get_mem _ _),.inl ?_⟩
     rw [firstTop,hlast,placeIn,hidx]
     omega
   · obtain ⟨x,hx,hxtop⟩ := mem_map.1 hnam
     have hpai := (mem_filter.1 hx).2
     exact ⟨.num x.2,mem_ids_of_paired hpai,.inr ⟨hpai,hxtop⟩⟩
 · obtain ⟨n,hn,rfl | ⟨hpai,rfl⟩⟩ := (hused i).1 hi
   · have hpla : q.2.idxOf n < q.2.length := idxOf_lt_length_of_mem (hq.perm.mem_iff.2 hn)
     rw [firstTop,placeIn]
     omega
   · obtain ⟨x,hx,rfl⟩ := hq.exists_name hpai
     exact hle _ (mem_map_of_mem hx)

lemma Sent.unplacing_changed (hq : Sent names g q) {i : Int} :
 (∃ n ∈ changed q.1, unplacing true q n = .num i) ↔
 ∃ j < (changed q.1).length, i = firstTop names q.1 + 1 + j := by
 have hcop := hq.foreign.listable.copies_placed hq.perm
 have hnod : q.2.Nodup := hq.perm.nodup_iff.2 hq.foreign.listable.sound.ids
 have hfil :
  (q.1.ids.filter fun n => ((placeTable true q).get? (idNumber (.num (placeIn q.2 n)))).isNone) =
  changed q.1 := by
  refine filter_congr fun n hn => ?_
  rw [idNumber,get?_placeTable true hnod (hq.perm.mem_iff.2 hn)]
  cases paired true q.1 n <;> rfl
 have hper := hcop.unknown_perm (m := placeTable true q) hq.foreign.listable.sound.ids
 rw [hfil] at hper
 have hiff := exists_unknown_iff (m := placeTable true q) hcop.sound.ids (i := i)
 rw [hper.length_eq,length_map] at hiff
 have hleft : (∃ n ∈ changed q.1, unplacing true q n = .num i) ↔
  ∃ n ∈ (placed q).unknown (placeTable true q), (placed q).relabeling (placeTable true q) n =
   .num i := by
  simp only [hper.mem_iff,mem_map,unplacing]
  constructor
  · rintro ⟨n,hn,hi⟩
    exact ⟨_,⟨n,hn,rfl⟩,hi⟩
  · rintro ⟨_,⟨n,hn,rfl⟩,hi⟩
    exact ⟨n,hn,hi⟩
 rw [hleft,hiff]
 refine exists_congr fun j => and_congr_right fun hj => ?_
 have hne : q.1.ids ≠ [] := by
  intro hnil
  simp [changed,hnil] at hj
 rw [hq.topNumber_placed hne]

section

lemma Sent.get?_changed (hq : Sent names g q)
 (hcle : ∀ j < (changed q.1).length, .num (firstTop names q.1 + 1 + j) ∉ g.ids)
 (hn : n ∈ changed q.1) : (importTable names).get? (idNumber (unplacing true q n)) = none := by
 obtain ⟨j,hj,hi⟩ := hq.unplacing_changed.1 ⟨n,hn,unplacing_eq true q n⟩
 rw [Table.get?_eq_none_iff,Table.keys,entries_importTable hq.naming.new]
 intro hmem
 obtain ⟨y,hy,hyi⟩ := mem_map.1 hmem
 obtain ⟨x,hx,rfl⟩ := mem_map.1 hy
 refine hcle j hj ?_
 rw [← hi,← hyi]
 exact hq.exact x hx

lemma mem_changed : n ∈ changed s ↔ n ∈ s.ids ∧ paired true s n = false := by
 rw [changed,mem_filter,Bool.not_eq_true']

variable (hq : Sent names g q) (hc : h.Copies q.1 (unplacing true q))
 (hcle : ∀ j < (changed q.1).length, .num (firstTop names q.1 + 1 + j) ∉ g.ids)
include hq hc hcle

lemma Sent.unknown_perm :
 (h.unknown (importTable names)).Perm ((changed q.1).map (unplacing true q)) := by
 have hfil :
  (q.1.ids.filter fun n => ((importTable names).get? (idNumber (unplacing true q n))).isNone) =
  changed q.1 := by
  refine filter_congr fun n hn => ?_
  cases hpai : paired true q.1 n with
  | false => rw [hq.get?_changed hcle (mem_changed.2 ⟨hn,hpai⟩)]; rfl
  | true =>
   obtain ⟨x,hx,rfl⟩ := hq.exists_name hpai
   rw [hq.unplacing_name hx,idNumber,hq.naming.get? (mem_of_mem_filter hx)]
   rfl
 exact hfil ▸ hc.unknown_perm hq.foreign.listable.sound.ids

lemma Sent.topNumber_undone (hpos : 0 < (changed q.1).length) :
 h.topNumber (importTable names) = secondTop names q.1 := by
 obtain ⟨_,_,hfir⟩ := foldl_max_spec (q.1.size - 1) ((keptNames names q.1).map snd)
 obtain ⟨hatt,hbase,hle⟩ := foldl_max_spec (firstTop names q.1 + (changed q.1).length)
  ((keptNames names q.1).map fun x => x.1 + 1)
 refine topNumber_eq (hc.mem_usedNumbers.2 ?_) fun i hi => ?_
 · rcases hatt with hlast | hnam
   · obtain ⟨n,hn,hi⟩ := (hq.unplacing_changed (i := firstTop names q.1 + (changed q.1).length)).2
      ⟨(changed q.1).length - 1,by omega,by omega⟩
     exact ⟨n,(mem_changed.1 hn).1,.inl (by rw [hi,secondTop,hlast,idNumber])⟩
   · obtain ⟨x,hx,hxtop⟩ := mem_map.1 hnam
     refine ⟨.num x.2,mem_ids_of_paired (mem_filter.1 hx).2,.inr ?_⟩
     rw [hq.unplacing_name hx,idNumber,hq.naming.get? (mem_of_mem_filter hx),secondTop,← hxtop]
 · obtain ⟨n,hn,hused⟩ := hc.mem_usedNumbers.1 hi
   cases hpai : paired true q.1 n with
   | true =>
    obtain ⟨x,hx,rfl⟩ := hq.exists_name hpai
    have hx₁ := hle _ (mem_map_of_mem hx)
    have hx₂ := hfir _ (mem_map_of_mem hx)
    rw [hq.unplacing_name hx,idNumber,hq.naming.get? (mem_of_mem_filter hx),
     Option.some.injEq] at hused
    rw [← firstTop] at hx₂
    rw [← secondTop] at hx₁ hbase
    omega
   | false =>
    have hmem := mem_changed.2 ⟨hn,hpai⟩
    rw [hq.get?_changed hcle hmem] at hused
    obtain ⟨j,hj,hnum⟩ := hq.unplacing_changed.1 ⟨n,hmem,unplacing_eq true q n⟩
    rw [← secondTop] at hbase
    rcases hused with rfl | hused
    · omega
    · cases hused

end

def Unchanged (s : Graph) (n : NodeId) : Prop :=
 ∃ v, s.nodeAttr? n "modified" = some v ∧ v.truthy = false

lemma unchanged_iff : Unchanged s n ↔ paired true s n := by
 rw [Unchanged,paired]
 cases s.nodeAttr? n "modified" <;> simp

/-- A loaded query passes no other node off as one of the source: under a source name stands that
node, unchanged, and a mark stands on the source's anchor, unchanged. -/
structure Honest (names : List (Int × Int)) (a : Int) (s l : Graph) : Prop where
 ids : ∀ x ∈ names, .num (x.1 + 1) ∈ l.ids → Unchanged s (.num x.2)
 anchor : ∀ m ∈ l.ids, l.nodeAttr? m "anchor" = some (.int 1) →
  Unchanged s (.num a) ∧ ∃ x ∈ names, x.2 = a ∧ m = .num (x.1 + 1)

def finalName (names : List (Int × Int)) (q : Graph × List NodeId) (h : Graph) (n : NodeId) :
 NodeId :=
 h.relabeling (importTable names) (unplacing true q n)

lemma Sent.finalName_name (hq : Sent names g q) (hx : x ∈ keptNames names q.1) :
 finalName names q h (.num x.2) = .num (x.1 + 1) := by
 rw [finalName,hq.unplacing_name hx]
 exact relabeling_of_get? (hq.naming.get? (mem_of_mem_filter hx))

lemma Sent.eq_of_finalName (hq : Sent names g q) (hpai : paired true q.1 n)
 (hx : x ∈ names) (hnam : finalName names q h n = .num (x.1 + 1)) : n = .num x.2 := by
 obtain ⟨y,hy,rfl⟩ := hq.exists_name hpai
 rw [hq.finalName_name hy,NodeId.num.injEq] at hnam
 rw [inj_on_of_nodup_map hq.naming.old (mem_of_mem_filter hy) hx (by omega)]

section
variable (hq : Sent names g q) (hl : l.MarkedCopies q.1 (finalName names q h) fun n =>
 unplacing true q n = .num a)
include hq hl

lemma Sent.honest_anchor (ha : .num a ∈ g.ids) (hcle : Clear names g q.1) :
 ∀ m ∈ l.ids, l.nodeAttr? m "anchor" = some (.int 1) →
  Unchanged q.1 (.num a) ∧ ∃ x ∈ names, x.2 = a ∧ m = .num (x.1 + 1) := by
 intro m hmem hone
 obtain ⟨n,hn,rfl⟩ := (hl.ids m).1 hmem
 have hmar : unplacing true q n = .num a := by
  by_contra hnot
  rw [hl.zero n hn hnot] at hone
  simp at hone
 cases hpai : paired true q.1 n with
 | true =>
  obtain ⟨x,hx,rfl⟩ := hq.exists_name hpai
  rw [hq.unplacing_name hx,NodeId.num.injEq] at hmar
  exact ⟨unchanged_iff.2 (hmar ▸ hpai),x,mem_of_mem_filter hx,hmar,hq.finalName_name hx⟩
 | false =>
  obtain ⟨j,hj,rfl⟩ := hq.unplacing_changed.1 ⟨n,mem_changed.2 ⟨hn,hpai⟩,hmar⟩
  exact absurd ha (hcle.first j hj)

variable (hc : h.Copies q.1 (unplacing true q))
include hc

lemma Sent.honest_ids (hcle : Clear names g q.1) :
 ∀ x ∈ names, .num (x.1 + 1) ∈ l.ids → Unchanged q.1 (.num x.2) := by
 intro x hx hmem
 obtain ⟨n,hn,hnam⟩ := (hl.ids _).1 hmem
 cases hpai : paired true q.1 n with
 | true => exact unchanged_iff.2 (hq.eq_of_finalName hpai hx hnam ▸ hpai)
 | false =>
  have hcha := mem_changed.2 ⟨hn,hpai⟩
  have hper := hq.unknown_perm hc hcle.first
  have hunk := hper.mem_iff.2 (mem_map_of_mem hcha)
  obtain ⟨j,hj,hfre⟩ := (exists_unknown_iff hc.sound.ids).1 ⟨_,hunk,hnam⟩
  rw [hper.length_eq,length_map] at hj
  rw [hq.topNumber_undone hc hcle.first (by omega)] at hfre
  exact absurd (mem_map.2 ⟨x,hx,hfre⟩) (hcle.second j hj)

lemma Sent.clear_of_honest (hhon : ∀ x ∈ names, .num (x.1 + 1) ∈ l.ids → Unchanged q.1 (.num x.2)) :
 Clear names g q.1 := by
 -- a changed node that gets a name of the source would be the unchanged node of that name
 have hkept : ∀ x ∈ names, .num (x.1 + 1) ∈ l.ids → x ∈ keptNames names q.1 := fun x hx hmem =>
  mem_filter.2 ⟨hx,unchanged_iff.1 (hhon x hx hmem)⟩
 have hfir : ∀ j < (changed q.1).length, .num (firstTop names q.1 + 1 + j) ∉ g.ids := by
  intro j hj hmem
  obtain ⟨n,hn,hnum⟩ := hq.unplacing_changed.2 ⟨j,hj,rfl⟩
  obtain ⟨x,hx,hxj⟩ := hq.naming.covers _ hmem
  rw [hxj] at hnum
  have hnam : finalName names q h n = .num (x.1 + 1) := by
   rw [finalName,hnum]
   exact relabeling_of_get? (hq.naming.get? hx)
  obtain ⟨hids,hnot⟩ := mem_changed.1 hn
  have hx' := hkept x hx ((hl.ids _).2 ⟨n,hids,hnam⟩)
  have hpai := (mem_filter.1 hx').2
  have heq : n = .num x.2 :=
   hc.inj n hids _ (mem_ids_of_paired hpai) (hnum.trans (hq.unplacing_name hx').symm)
  rw [heq,hpai] at hnot
  cases hnot
 refine ⟨hfir,fun j hj hmem => ?_⟩
 obtain ⟨x,hx,hxj⟩ := mem_map.1 hmem
 have hper := hq.unknown_perm hc hfir
 have hlen : (h.unknown (importTable names)).length =
  (changed q.1).length := by rw [hper.length_eq,length_map]
 obtain ⟨u,hu,hfre⟩ := (exists_unknown_iff (m := importTable names) hc.sound.ids (i := x.1 + 1)).2
  ⟨j,by omega,by rw [hq.topNumber_undone hc hfir (by omega)]; exact hxj⟩
 obtain ⟨n,hn,rfl⟩ := mem_map.1 (hper.mem_iff.1 hu)
 obtain ⟨hids,hnot⟩ := mem_changed.1 hn
 have hx' := hkept x hx ((hl.ids _).2 ⟨n,hids,hfre⟩)
 have hpai := (mem_filter.1 hx').2
 have heq : n = .num x.2 :=
  hl.inj n hids _ (mem_ids_of_paired hpai) (hfre.trans (hq.finalName_name hx').symm)
 rw [heq,hpai] at hnot
 cases hnot

lemma Sent.honest_iff (ha : .num a ∈ g.ids) : Honest names a q.1 l ↔ Clear names g q.1 :=
 ⟨fun h => hq.clear_of_honest hl hc h.ids,fun h => ⟨hq.honest_ids hl hc h,hq.honest_anchor hl ha h⟩⟩

end

variable {kept new : Int}

theorem invented_honest_iff (hroom : Room σ folder (toString i) d) (hconf : Configured σ d)
 (hi : i ≠ -1) (hg : Listable g)
 (hn : Naming names g) (hexa : ∀ x ∈ names, .num x.2 ∈ g.ids) (ha : .num a ∈ g.ids)
 (hiso : ∀ s ∈ iso, Listable s)
 (hnon : ∀ s ∈ nonIso, Foreign s ∧ ∀ n, Unchanged s n → n ∈ g.ids) {v : Value}
 (hv : σ.settings.get "iso" = .ok v)
 (hfal : v.truthy = false) :
 ∃ σ' t, Ends (write folder ⟨.int i,g,names.map fun x => (.int x.1,.int x.2),.int a,iso,nonIso⟩) σ
  (.ok ()) σ' ∧
  Ends (queries (.int i) true) σ' (.ok t) σ' ∧ t.keys = (range nonIso.length).map Int.ofNat ∧
  ∀ (k : Nat) (s : Graph), nonIso[k]? = some s → ∃ l f, t.get? k = some l ∧ l.Copies s f ∧
   (∀ x ∈ names, Unchanged s (.num x.2) → f (.num x.2) = .num (x.1 + 1)) ∧
    (Honest names a s l ↔ Clear names g s) := by
 obtain ⟨r,σ',es,_,hends,hshe,hwri,_,_,hok⟩ := hroom.ends_write hg hiso names a nonIso
 obtain ⟨rfl,ns,hord,hfile⟩ := hok fun s hs => (hnon s hs).1
 have hconf' := hconf.keeps hshe.keeps hshe.settings
 have hread : Readable σ' i a g names := hwri.readable hconf' hshe.found
 have hque : ReadableQueries σ' i "noniso_subgraphs" true ns :=
  hfile.readable queryFiles_nonIso hconf' hshe.found
 have hsent : ∀ q ∈ ns, Sent names g q := by
  intro q hq
  obtain ⟨hfor,hkept⟩ := hnon q.1 (hord.graphs ▸ mem_map_of_mem hq)
  exact ⟨hfor,hord.perm q hq,hn,hexa,fun n _ hpair => hkept n (unchanged_iff.2 hpair)⟩
 have hkind := ends_queryKind (hshe.settings ▸ hv)
 rw [hfal] at hkind
 obtain ⟨t,hload,hkey,hres⟩ := hread.ends_queries hque hkind hn hi fun q hq =>
  ⟨(hsent q hq).foreign.listable,(hsent q hq).perm⟩
 refine ⟨σ',t,hends,hload,by rw [hkey,← hord.graphs,List.length_map],fun k s hk => ?_⟩
 rw [← hord.graphs,getElem?_map,Option.map_eq_some_iff] at hk
 obtain ⟨q,hq,rfl⟩ := hk
 have hsentq := hsent q (mem_of_getElem? hq)
 obtain ⟨l,hl,h,hc,hmark⟩ := hres k q hq
 refine ⟨l,finalName names q h,hl,hmark.toCopies,fun x hx hunc => ?_,hsentq.honest_iff hmark hc ha⟩
 exact hsentq.finalName_name (mem_filter.2 ⟨hx,unchanged_iff.1 hunc⟩)

def fence : Graph where
 directed := false
 multi := false
 nodes := ⟨[(.num 0,⟨[("label",.int 1)]⟩),(.num 1,⟨[("label",.int 1)]⟩),
  (.num 2,⟨[("label",.int 1)]⟩),
  (.num 3,⟨[("label",.int 1)]⟩)]⟩
 edges := [⟨.num 0,.num 1,.none,⟨[("label",.int 1)]⟩⟩,⟨.num 1,.num 2,.none,⟨[("label",.int 1)]⟩⟩,
  ⟨.num 2,.num 3,.none,⟨[("label",.int 1)]⟩⟩]

def fenceNames : List (Int × Int) := [(0,0),(1,1),(2,2),(3,3)]

def graft (kept new : Int) : Graph where
 directed := false
 multi := false
 nodes := ⟨[(.num kept,⟨[("label",.int 1),("modified",.bool false)]⟩),
  (.num new,⟨[("label",.int 2),("modified",.bool true)]⟩)]⟩
 edges := [⟨.num kept,.num new,.none,⟨[("label",.int 1)]⟩⟩]

lemma fence_listable : Listable fence := ⟨by decide,rfl,rfl,by decide⟩

lemma mem_ids_graft : n ∈ (graft kept new).ids ↔ n = .num kept ∨ n = .num new := by
 simp [graft,ids,Table.keys]

lemma attrs?_graft (hne : kept ≠ new) :
 (graft kept new).attrs? (.num kept) = some ⟨[("label",.int 1),("modified",.bool false)]⟩ ∧
 (graft kept new).attrs? (.num new) = some ⟨[("label",.int 2),("modified",.bool true)]⟩ := by
 simp [attrs?,graft,Table.get?,hne]

lemma unchanged_graft (hne : kept ≠ new) (h : Unchanged (graft kept new) n) :
 n = .num kept := by
 have hpai := unchanged_iff.1 h
 rcases mem_ids_graft.1 (mem_ids_of_paired hpai) with rfl | rfl
 · rfl
 · rw [paired,nodeAttr?,(attrs?_graft hne).2] at hpai
   cases hpai

lemma graft_foreign (hne : kept ≠ new) : Foreign (graft kept new) where
 listable := by
  refine ⟨⟨?_,?_,?_,?_,?_⟩,rfl,rfl,fun n hn => ?_,fun e he => ?_⟩
  · simp [graft,ids,Table.keys,hne]
  · simp [graft,Table.keys]
  · simp [graft,ids,Table.keys]
  · simp [graft,Table.keys]
  · simp [graft]
  · rcases mem_ids_graft.1 hn with rfl | rfl
    · exact ⟨kept,1,rfl,by rw [nodeAttr?,(attrs?_graft hne).1]; rfl⟩
    · exact ⟨new,2,rfl,by rw [nodeAttr?,(attrs?_graft hne).2]; rfl⟩
  · obtain rfl := mem_singleton.1 he
    exact ⟨1,rfl⟩
 noted _ n hn := by
  rcases mem_ids_graft.1 hn with rfl | rfl
  · rw [nodeAttr?,(attrs?_graft hne).1]
    rfl
  · rw [nodeAttr?,(attrs?_graft hne).2]
    rfl

def otherQueries : Session := { emptyCorpus with settings := emptyCorpus.settings.set "iso" (.bool false) }

theorem fence_grafts : ∃ σ' t, Ends (write (ofProject "data/datasets//CPG_train")
 ⟨.int 0,fence,fenceNames.map fun x => (.int x.1,.int x.2),.int 2,[],[graft 0 1,graft 3 7]⟩)
  otherQueries (.ok ()) σ' ∧
 Ends (queries (.int 0) true) σ' (.ok t) σ' ∧
 (∃ l, t.get? 0 = some l ∧ ¬Honest fenceNames 2 (graft 0 1) l) ∧
 ∃ l, t.get? 1 = some l ∧ Honest fenceNames 2 (graft 3 7) l := by
 have hroom : Room otherQueries (ofProject "data/datasets//CPG_train") (toString (0 : Int))
  ["glema","data","datasets","CPG_train"] := ⟨emptyCorpus_leads,⟨[],rfl⟩,fun e he => by cases he⟩
 have hconf : Configured otherQueries ["glema","data","datasets","CPG_train"] :=
  ⟨⟨_,rfl,rfl⟩,⟨_,_,_,rfl,rfl,rfl,emptyCorpus_leads⟩⟩
 have hnam : Naming fenceNames fence :=
  ⟨by decide,by decide,by simp [fence,fenceNames,Graph.ids,Table.keys]⟩
 have hque : ∀ s ∈ [graft 0 1,graft 3 7], Foreign s ∧ ∀ n, Unchanged s n → n ∈ fence.ids := by
  intro s hs
  rcases mem_pair.1 hs with rfl | rfl
  · exact ⟨graft_foreign (by decide),fun n hn => unchanged_graft (by decide) hn ▸ by decide⟩
  · exact ⟨graft_foreign (by decide),fun n hn => unchanged_graft (by decide) hn ▸ by decide⟩
 obtain ⟨σ',t,hwri,hload,_,hres⟩ := invented_honest_iff hroom hconf (by decide) fence_listable hnam
  (by decide) (a := 2) (by decide) (List.forall_mem_nil Listable) hque (v := .bool false) rfl rfl
 obtain ⟨l,_,hl,_,_,hiff⟩ := hres 0 _ rfl
 obtain ⟨l',_,hl',_,_,hiff'⟩ := hres 1 _ rfl
 have hmet : ¬Clear fenceNames fence (graft 0 1) := by decide
 have hcle : Clear fenceNames fence (graft 3 7) := by decide
 exact ⟨σ',t,hwri,hload,⟨l,hl,mt hiff.1 hmet⟩,l',hl',hiff'.2 hcle⟩

end MotifMatch.Corpus
