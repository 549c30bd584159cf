import Mathlib.Data.List.Permutation
import MotifMatch.PatternSet
import MotifMatch.Proofs.Tables

namespace MotifMatch.PatternSet
open List Table Prod PatternId Option
variable {s : PatternSet} {sources : List (Int × Graph)} {top number : Int} {scope : String}

structure Assembled (s : PatternSet) : Prop where
 types : ∀ e ∈ s.sources, (s.sourcePatterns.get? e.1).isSome
 scopes : ∀ e ∈ s.sources, (s.graphScopes.get? e.1).isSome
 datasets : ∀ e ∈ s.sources, (s.graphDatasets.get? e.1).isSome

def Carries (scope : String) : Option Nat → Prop
 | none => decode scope = none
 | some n => ∃ t, decode scope = some t ∧ Listing.number t = .ok (n : Int)

lemma instanceOf_eq {o : Option Nat} (h : Carries scope o) :
 instanceOf top number scope = .ok (o.elim number fun n => n + top) := by
 unfold instanceOf
 cases o with
 | none => rw [show decode scope = none from h,Option.elim]
 | some n =>
  obtain ⟨t,ht,hn⟩ := h
  simp only [ht,hn]
  rfl

theorem instances_told_apart (h : Assembled s) (hne : s.sources ≠ [])
 (hids : ∀ e ∈ s.sources, ∀ scope, s.graphScopes.get? e.1 = some scope → ∃ o, Carries scope o) :
 ∃ samples top, s.pairsOf = .ok samples ∧ top ∈ s.sources.map fst ∧ (∀ e ∈ s.sources, e.1 ≤ top) ∧
  (∀ e ∈ s.sources, ∀ p ∈ s.patterns, ∀ g ∈ p.2, ∃ x ∈ samples, x.number = e.1 ∧ x.source = e.2 ∧
   x.patternType = p.1 ∧ x.pattern = g) ∧
  (∀ x ∈ samples, s.graphScopes.get? x.number = some x.scope) ∧
  ∀ x ∈ samples, ∀ y ∈ samples, x.number ≠ y.number → ∀ o o', Carries x.scope o →
   Carries y.scope o' →
   (x.instanceId = y.instanceId ↔ (∃ n, o = some n ∧ o' = some n) ∨
    (o = some 0 ∧ o' = none ∧ y.number = top) ∨
    (o' = some 0 ∧ o = none ∧ x.number = top)) := by
 obtain ⟨k,ks,hks⟩ := exists_cons_of_ne_nil (mt map_eq_nil_iff.1 hne : s.sources.map Prod.fst ≠ [])
 obtain ⟨hmem,hle⟩ := max?_eq_some_iff.1 (max?_cons' : (k :: ks).max? = some (ks.foldl max k))
 rw [← hks] at hmem hle
 choose! kind hkind using fun e he => isSome_iff_exists.1 (h.types e he)
 choose! scope hsco using fun e he => isSome_iff_exists.1 (h.scopes e he)
 choose! dataset hdataset using fun e he => isSome_iff_exists.1 (h.datasets e he)
 choose! o ho using fun e he => hids e he _ (hsco e he)
 let group : Int × Graph → List PatternSample :=
  fun e => s.patterns.flatMap fun p => p.2.map fun g =>
  ⟨e.2,kind e,g,p.1,e.1,scope e,dataset e,(o e).elim e.1 fun n => n + ks.foldl max k⟩
 have hpair : s.pairsOf = .ok (s.sources.map group).flatten := by
  rw [pairsOf,hks]
  refine congrArg (fun x : Except Error _ => x >>= fun gs => .ok gs.flatten) (mapM_ok fun e he => ?_)
  simp only [found,hkind e he,hsco e he,hdataset e he,instanceOf_eq (ho e he),bind,Except.bind]
  rfl
 have hgro : ∀ x ∈ (s.sources.map group).flatten, x.number ≤ ks.foldl max k ∧
  s.graphScopes.get? x.number = some x.scope ∧
  instanceOf (ks.foldl max k) x.number x.scope = .ok x.instanceId := by
  intro x hx
  obtain ⟨_,hl,hx⟩ := mem_flatten.1 hx
  obtain ⟨e,he,rfl⟩ := mem_map.1 hl
  obtain ⟨p,_,hx⟩ := mem_flatMap.1 hx
  obtain ⟨g,_,rfl⟩ := mem_map.1 hx
  exact ⟨hle _ (mem_map_of_mem he),hsco e he,instanceOf_eq (ho e he)⟩
 refine ⟨_,_,hpair,hmem,fun e he => hle _ (mem_map_of_mem he),fun e he p hp g hg => ?_,
  fun x hx => (hgro x hx).2.1,
  fun x hx y hy hne o o' ho ho' => ?_⟩
 · exact ⟨_,mem_flatten.2 ⟨_,mem_map_of_mem he,mem_flatMap.2 ⟨p,hp,mem_map_of_mem hg⟩⟩,rfl,
    rfl,rfl,rfl⟩
 · obtain ⟨hxle,_,hxi⟩ := hgro x hx
   obtain ⟨hyle,_,hyi⟩ := hgro y hy
   rw [← Except.ok.inj ((instanceOf_eq ho).symm.trans hxi),← Except.ok.inj
    ((instanceOf_eq ho').symm.trans hyi)]
   cases o <;> cases o' <;> simp <;> omega

def dot (i : Int) : Graph where
 directed := false
 multi := false
 nodes := ⟨[(.num i,⟨[("anchor",.int 1)]⟩)]⟩
 edges := []

def twoSources : PatternSet where
 width := .none
 anchored := false
 queriesArePatterns := true
 types := none
 relation := 1
 sources := [(1,dot 1),(2,dot 2)]
 sourcePatterns := ⟨[(1,Catalog.noPattern),(2,Catalog.noPattern),(3,"VISITOR")]⟩
 patterns := [("VISITOR",[dot 3])]
 sourceScopes := .empty
 graphScopes := ⟨[(1,"p.A#0"),(2,"p.B"),(3,"p.C#1")]⟩
 graphDatasets := ⟨[(1,"d"),(2,"d"),(3,"d")]⟩
 sourceDatasets := .empty
 patternScopes := .empty
 patternDatasets := .empty
 samples := []

theorem zeroth_meets_last : ∃ samples, ∃ x ∈ samples, ∃ y ∈ samples, twoSources.pairsOf =
 .ok samples ∧ x.number = 1 ∧
 y.number = 2 ∧ x.instanceId = y.instanceId := by
 have hzero : Carries "p.A#0" (some 0) := ⟨"0",by decide +kernel,by decide +kernel⟩
 have hnone : Carries "p.B" none := show decode "p.B" = none by decide +kernel
 have hids : ∀ e ∈ twoSources.sources, ∀ scope, twoSources.graphScopes.get? e.1 = some scope →
  ∃ o, Carries scope o := by
  simp only [twoSources,forall_mem_cons]
  refine ⟨?_,?_,by simp⟩
  · rintro _ ⟨⟩
    exact ⟨_,hzero⟩
  · rintro _ ⟨⟩
    exact ⟨_,hnone⟩
 have hass : Assembled twoSources := ⟨by decide,by decide,by decide⟩
 obtain ⟨samples,top,hpair,htop,hle,hall,hsco,htold⟩ :=
  instances_told_apart hass (by simp [twoSources]) hids
 obtain ⟨x,hx,hxn,_⟩ := hall (1,dot 1) (by simp [twoSources]) ("VISITOR",[dot 3])
  (by simp [twoSources]) (dot 3) (by simp)
 obtain ⟨y,hy,hyn,_⟩ := hall (2,dot 2) (by simp [twoSources]) ("VISITOR",[dot 3])
  (by simp [twoSources]) (dot 3) (by simp)
 have hxs := hsco x hx
 have hys := hsco y hy
 rw [hxn] at hxs
 rw [hyn] at hys
 have hlast : y.number = top := by
  have hbel := hle (2,dot 2) (by simp [twoSources])
  simp only [twoSources,map_cons,map_nil,mem_cons,not_mem_nil,or_false] at htop
  simp only [hyn] at hbel ⊢
  omega
 exact ⟨samples,x,hx,y,hy,hpair,hxn,hyn,
  (htold x hx y hy (by rw [hxn,hyn]; decide) _ _ (some.inj hxs ▸ hzero)
  (some.inj hys ▸ hnone)).2 (.inr (.inl ⟨rfl,rfl,hlast⟩))⟩

end MotifMatch.PatternSet

namespace MotifMatch.PatternId
open List

lemma afterHash_append (cs ds : List Char) :
 afterHash (cs ++ ds) = (afterHash cs).elim (afterHash ds) fun es => some (es ++ ds) := by
 fun_induction afterHash cs with
 | case1 => rfl
 | case2 rest => rfl
 | case3 c rest hc ih => rw [cons_append,afterHash,ih]; exact hc

lemma afterHash_eq_none_iff {cs : List Char} : afterHash cs = none ↔ '#' ∉ cs := by
 fun_induction afterHash cs with
 | case1 => simp
 | case2 rest => simp
 | case3 c rest hc ih => rw [ih,mem_cons,not_or,and_iff_right fun h => hc h.symm]

def written (name : String) (pid : Option String) : String :=
 (encode (.str name) (pid.elim .none .str)).text

lemma written_some {name : String} (h : name ≠ "None") (p : String) :
 written name (some p) = name ++ "#" ++ p := by
 unfold written encode
 split <;> simp_all

lemma written_none (name : String) : written name none = name := by
 unfold written encode
 split <;> simp_all

lemma decode_written_some {name : String} (h : name ≠ "None") (p : String) :
 decode (written name (some p)) =
 some (((afterHash name.toList).elim "" fun es => String.ofList es ++ "#") ++ p) := by
 rw [decode,written_some h,String.toList_append,String.toList_append,append_assoc,afterHash_append]
 cases afterHash name.toList with
 | none => simp [afterHash]
 | some es => simp [String.append_assoc]

theorem decode_written_iff {name : String} (hnam : name ≠ "None") (pid : Option String)
 (top number : Int) :
 (decode (written name pid) = pid ↔ '#' ∉ name.toList) ∧
 ('#' ∉ name.toList → PatternSet.instanceOf top number (written name pid) =
  pid.elim (.ok number) fun p => (· + top) <$> Listing.number p) := by
 have hback : decode (written name pid) = pid ↔ '#' ∉ name.toList := by
  rw [← afterHash_eq_none_iff]
  cases pid with
  | none => rw [written_none,decode,Option.map_eq_none_iff]
  | some p =>
   rw [decode_written_some hnam]
   cases afterHash name.toList with
   | none => simp
   | some es =>
    -- the rest of the scope stands before the id
    have hlen : ∀ cs : List Char, es ++ '#' :: cs ≠ cs := by
     intro cs h
     have := congrArg length h
     rw [length_append,length_cons] at this
     omega
    simp [String.ext_iff,hlen]
 refine ⟨hback,fun hnot => ?_⟩
 rw [PatternSet.instanceOf,hback.2 hnot]
 cases pid <;> rfl

theorem decode_written_nested : decode (written "p.A#B" (some "3")) ≠ some "3" ∧
 decode (written "p.A" (some "3#4")) = some "3#4" :=
 ⟨fun h => absurd ((decode_written_iff (by decide) _ 0 0).1.1 h) (by decide),
  (decode_written_iff (by decide) _ 0 0).1.2 (by decide)⟩

end MotifMatch.PatternId
