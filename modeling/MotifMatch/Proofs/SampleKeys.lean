import MotifMatch.Evaluation.Report
import MotifMatch.Preparation.Process
import MotifMatch.Proofs.SampleBlocks
import MotifMatch.Proofs.Writing

namespace MotifMatch.Preparation
open List Value SizeRange
variable {keys : List String} {sourceSizes sizes degrees : Measures}

/-- Each key stands in one of the lists only, and each list keeps its keys as often and in the order
given. -/
structure Sorts (bs : List (String × List String)) (keys : List String) : Prop where
 kept : ∀ b ∈ bs, b.2 = keys.filter (· ∈ b.2)
 once : ∀ k ∈ keys, bs.countP (k ∈ ·.2) = 1

def listed (keys : List String) (rs : List (String × (String → Bool))) :
 List (String × List String) :=
 rs.map fun r => (r.1,keys.filter r.2)

lemma kept_listed (rs : List (String × (String → Bool))) :
 ∀ b ∈ listed keys rs, b.2 = keys.filter (· ∈ b.2) := by
 intro b hb
 obtain ⟨r,_,rfl⟩ := mem_map.1 hb
 exact filter_congr fun k hk => by simp [hk]

lemma countP_listed (rs : List (String × (String → Bool))) {k : String} (hk : k ∈ keys) :
 (listed keys rs).countP (k ∈ ·.2) = rs.countP fun r => r.2 k := by
 rw [listed,countP_map]
 exact countP_congr fun r _ => by simp [hk]

lemma filterM_ok {p : String → Except Error Bool} {q : String → Bool}
 (h : ∀ k ∈ keys, p k = .ok (q k)) :
 keys.filterM p = .ok (keys.filter q) := by
 have haux : ∀ acc, filterAuxM p keys acc = .ok ((keys.filter q).reverse ++ acc) := by
  induction keys with
  | nil => exact fun _ => rfl
  | cons k ks ih =>
   intro acc
   obtain ⟨hk,hks⟩ := forall_mem_cons.1 h
   simp only [filterAuxM,hk,bind,Except.bind,ih hks]
   cases hq : q k <;> simp [hq]
 simp only [filterM,haux,bind,Except.bind,append_nil,reverse_reverse]
 rfl

lemma lessEq_int (i j : Int) : lessEq (.int i) (.int j) = decide (i ≤ j) := by
 rw [Bool.eq_iff_iff]
 simp [lessEq,number?,Number.compare?,Int.compare_eq_lt,le_iff_lt_or_eq]

lemma lessThan_int (i j : Int) : lessThan (.int i) (.int j) = decide (i < j) := by
 rw [Bool.eq_iff_iff]
 simp [lessThan,number?,Number.compare?,Int.compare_eq_lt]

lemma countP_sourceRanges (n : Nat) : sourceRanges.countP (fun r => r.2.holds (.int n)) = 1 := by
 simp only [sourceRanges,countP_cons,countP_nil,holds,lessEq_int,lessThan_int,Bool.and_eq_true,
  decide_eq_true_eq,
  Bool.false_eq_true,if_false,true_and,and_true]
 grind

lemma countP_queryRanges (n : Nat) : queryRanges.countP (fun r => r.2.holds (.int n)) = if n =
 60 then 2 else 1 := by
 simp only [queryRanges,countP_cons,countP_nil,holds,lessEq_int,lessThan_int,Bool.and_eq_true,
  decide_eq_true_eq,
  Bool.false_eq_true,if_false,if_true,true_and,and_true]
 grind

lemma compare?_swap (i : Int) (x : Number) :
 (Number.int i).compare? x = (x.compare? (.int i)).map Ordering.swap := by
 cases x with
 | int j => exact congrArg some (Int.compare_swap j i).symm
 | float x => cases h : compareExact i x <;> simp [Number.compare?,h]

lemma isDense_eq_not {v : Value} {x : Number} (hx : v.number? = some x)
 (hnum : (x.compare? (.int 3)).isSome) :
 isDense v = !isSparse v := by
 obtain ⟨o,ho⟩ := Option.isSome_iff_exists.1 hnum
 have hthr : (int 3).number? = some (.int 3) := rfl
 simp only [isDense,isSparse,lessThan,lessEq,hx,hthr,compare?_swap 3 x,ho,Option.map_some]
 cases o <;> rfl

def sourceTests (size : String → Nat) : List (String × (String → Bool)) :=
 sourceRanges.map fun r => (r.1,fun k => r.2.holds (.int (size k)))

def queryTests (label : String) (test : Value → Bool) (size : String → Nat)
 (degree : String → Value) :
 List (String × (String → Bool)) :=
 queryRanges.map fun r => (label ++ "_" ++ r.1,fun k => r.2.holds (.int (size k)) && test (degree k))

variable {sourceSize size : String → Nat} {degree : String → Value}
 (hsour : ∀ k ∈ keys, measure sourceSizes k = .ok (.int (sourceSize k)))
 (hsiz : ∀ k ∈ keys, measure sizes k = .ok (.int (size k)))
 (hdeg : ∀ k ∈ keys, measure degrees k = .ok (degree k))
include hsour in
lemma bySource_ok : bySource sourceSizes keys = .ok (listed keys (sourceTests sourceSize)) := by
 rw [listed,sourceTests,map_map]
 refine mapM_ok fun r _ => ?_
 rw [filterM_ok fun k hk => by rw [hsour k hk]; rfl]
 rfl

include hsiz hdeg in
lemma byQuery_ok (label : String) (test : Value → Bool) :
 byQuery label test sizes degrees keys = .ok (listed keys (queryTests label test size degree)) := by
 rw [listed,queryTests,map_map]
 refine mapM_ok fun r _ => ?_
 rw [filterM_ok (q := fun k => r.2.holds (.int (size k)) && test (degree k)) fun k hk => ?_]
 · rfl
 rw [hsiz k hk,hdeg k hk]
 cases hr : r.2.holds (.int (size k)) <;> simp [bind,Except.bind,hr] <;> rfl

theorem queries_divided_iff (hsour : ∀ k ∈ keys, measure sourceSizes k = .ok (.int (sourceSize k)))
 (hsiz : ∀ k ∈ keys, measure sizes k = .ok (.int (size k)))
 (hdeg : ∀ k ∈ keys, measure degrees k = .ok (degree k))
 (hnumb : ∀ k ∈ keys, ∃ x, (degree k).number? = some x ∧ (x.compare? (.int 3)).isSome) :
 ∃ bySize byQuery, buckets sourceSizes sizes degrees keys = .ok (bySize ++ byQuery) ∧
  bySize.map Prod.fst =
   ["graph_size_0_5","graph_size_5_10","graph_size_10_15","graph_size_15_20","graph_size_20_30",
   "graph_size_30_40","graph_size_40_"] ∧
  byQuery.map Prod.fst =
   ["nondense_0_20","nondense_20_40","nondense_40_60","nondense_60_","dense_0_20","dense_20_40",
   "dense_40_60","dense_60_"] ∧
  Sorts bySize keys ∧ (Sorts byQuery keys ↔ ∀ k ∈ keys, size k ≠ 60) ∧
  (∀ b ∈ byQuery, b.2 = keys.filter (· ∈ b.2)) ∧
  ∀ k ∈ keys, byQuery.countP (k ∈ ·.2) = if size k = 60 then 2 else 1 := by
 let tests := queryTests "nondense" isSparse size degree ++ queryTests "dense" isDense size degree
 have hcou : ∀ k ∈ keys, (listed keys tests).countP (k ∈ ·.2) = if size k = 60 then 2 else 1 := by
  intro k hk
  obtain ⟨x,hx,hnum⟩ := hnumb k hk
  rw [countP_listed _ hk,countP_append,queryTests,queryTests,countP_map,
   countP_map,← countP_queryRanges]
  cases hs : isSparse (degree k) <;> simp [Function.comp_def,isDense_eq_not hx hnum,hs]
 refine ⟨listed keys (sourceTests sourceSize),listed keys tests,?_,rfl,rfl,
  ⟨kept_listed _,fun k hk => ?_⟩,⟨fun h k hk hsix => ?_,
  fun h => ⟨kept_listed _,fun k hk => (hcou k hk).trans (if_neg (h k hk))⟩⟩,kept_listed _,hcou⟩
 · rw [buckets,bySource_ok hsour,byQuery_ok hsiz hdeg,byQuery_ok hsiz hdeg]
   simp [listed,tests,bind,Except.bind,pure,Except.pure]
 · rw [countP_listed _ hk,sourceTests,countP_map]
   exact countP_sourceRanges (sourceSize k)
 · have htwo := hcou k hk
   rw [h.once k hk,if_pos hsix] at htwo
   cases htwo

theorem sixty_listed_twice : ∃ bySize byQuery, buckets [(.str "a",.int 61)] [(.str "a",.int 60)]
 [(.str "a",.float 2.5)] ["a"] =
  .ok (bySize ++ byQuery) ∧ Sorts bySize ["a"] ∧ ¬Sorts byQuery ["a"] := by
 have hmea : ∀ v, ∀ k ∈ ["a"], measure [(.str "a",v)] k = .ok v := by
  intro v k hk
  obtain rfl := mem_singleton.1 hk
  simp [measure,Table.get?,same_str]
 obtain ⟨bySize,byQuery,hrun,_,_,hdiv,hiff,_⟩ :=
  @queries_divided_iff ["a"] _ _ _ (fun _ => 61) (fun _ => 60) _
  (hmea (.int 61)) (hmea (.int 60)) (hmea (.float 2.5)) fun k _ => ⟨.float 2.5,rfl,by decide +kernel⟩
 exact ⟨bySize,byQuery,hrun,hdiv,fun h => hiff.1 h "a" mem_cons_self rfl⟩

end MotifMatch.Preparation

namespace MotifMatch
open List

lemma splitOff_perm {α : Type} (xs : List α) (share : Float) (seed : Int) :
 ((splitOff xs share seed).1 ++ (splitOff xs share seed).2).Perm xs := by
 rw [splitOff,cutAt,take_append_drop]
 exact Stream.shuffle_perm xs _

lemma Encoding.verdictOf_encode {α : Type} [Scalar α] {query source : Graph} {width key : Value}
 {anchored custom : Bool}
 {pairs : Except Error (List (Int × Int))} {s : Sample α}
 (h : encode query source width anchored pairs key custom = .ok s) :
 verdictOf key custom = .ok s.verdict := by
 obtain ⟨_,_,_,_,_,_,_,_,_,_,_,hver,rfl⟩ := exists_parts h
 exact hver

end MotifMatch

namespace MotifMatch.Preparation
open List Run Text MotifMatch.Path Curriculum Encoding Evaluation Prod

structure SampleName where
 source : String
 index : Int
 iso : Bool

def className (iso : Bool) : String := if iso then "iso" else "non"

def SampleName.key (tag : String) (x : SampleName) : String :=
 x.source ++ "_" ++ toString x.index ++ "_" ++ className x.iso ++ "_" ++ tag

def IsDecimal (s : String) : Prop := ∀ c ∈ s.toList, c.isDigit = true

variable {folder save source tag dataset : String} {limit : Int}
 {sources keys train test : List String} {x y : SampleName}
 {xs : List SampleName} {loaded : List (String × Bundle)} {σ σ' τ : Session}

lemma toList_key (tag : String) (x : SampleName) : (x.key tag).toList =
 x.source.toList ++ '_' :: ((toString x.index).toList ++ '_' ::
  ((className x.iso).toList ++ '_' :: tag.toList)) := by
 simp [SampleName.key]

lemma splitOn_key (hx : IsDecimal x.source) (htag : '_' ∉ tag.toList) :
 splitOn '_' (x.key tag) = [x.source,toString x.index,className x.iso,tag] := by
 have hsou : '_' ∉ x.source.toList := fun h => absurd (hx _ h) (by decide)
 have hind : '_' ∉ (toString x.index).toList := fun h => by
  rcases mem_toString_int h with h | h <;> exact absurd h (by decide)
 have hcls : '_' ∉ (className x.iso).toList := by cases x.iso <;> decide
 rw [Text.splitOn,toList_key,splitChars_append_of_not_mem hsou,splitChars_append_of_not_mem hind,
  splitChars_append_of_not_mem hcls,splitChars_of_not_mem htag]
 simp

lemma sourceOfKey_key (hx : IsDecimal x.source) (htag : '_' ∉ tag.toList) :
 sourceOfKey (x.key tag) = x.source := by
 rw [sourceOfKey,splitOn_key hx htag]
 rfl

lemma className_inj {b c : Bool} (h : className b = className c) : b = c := by
 revert h
 cases b <;> cases c <;> decide

lemma key_inj (hx : IsDecimal x.source) (hy : IsDecimal y.source) (htag : '_' ∉ tag.toList)
 (h : x.key tag = y.key tag) :
 x = y := by
 have hspl := splitOn_key hx htag
 rw [h,splitOn_key hy htag] at hspl
 simp only [cons.injEq] at hspl
 obtain ⟨hsou,hind,hcls,_⟩ := hspl
 obtain ⟨s,i,b⟩ := x
 obtain ⟨t,j,c⟩ := y
 obtain rfl : t = s := hsou
 obtain rfl := toString_inj hind
 obtain rfl := className_inj hcls
 rfl

lemma occursIn_key (hx : IsDecimal x.source) (htag : tag ∈ ["","train","test"]) (b : Bool) :
 occursIn (className b) (x.key tag) ↔ x.iso = b := by
 have hsep : '_' ∉ (className b).toList := by cases b <;> decide
 have hmem : 'o' ∈ (className b).toList := by cases b <;> decide
 have hind : 'o' ∉ (toString x.index).toList := fun h => by
  rcases mem_toString_int h with h | h <;> exact absurd h (by decide)
 rw [occursIn,isInfixChars_iff,toList_key]
 constructor
 · intro h
   rcases infix_of_infix_append hsep h with h | h
   · exact absurd (hx 'o' (h.subset hmem)) (by decide)
   rcases infix_of_infix_append hsep h with h | h
   · exact absurd (h.subset hmem) hind
   rcases infix_of_infix_append hsep h with h | h
   · revert h
     cases b <;> cases x.iso <;> decide
   · have htags : ∀ t ∈ ["","train","test"], 'o' ∉ t.toList := by decide
     exact absurd (h.subset hmem) (htags tag htag)
 · rintro rfl
   exact ⟨x.source.toList ++ '_' :: ((toString x.index).toList ++ ['_']),'_' :: tag.toList,by simp⟩

lemma endsWith_key (x : SampleName) (htag : tag ∈ ["","test"]) :
 (x.key tag).endsWith "iso_test" = (x.iso && tag == "test") := by
 have hend : (className x.iso ++ "_" ++ tag).toList <:+ (x.key tag).toList :=
  ⟨(x.source ++ "_" ++ toString x.index ++ "_").toList,by simp [SampleName.key]⟩
 have hall : ∀ b : Bool, ∀ t ∈ ["","test"], (className b ++ "_" ++ t).length ≤ "iso_test".length ∧
  ((className b ++ "_" ++ t).toList <:+ "iso_test".toList ↔ (b && t == "test")) ∧
  ((b && t == "test") → className b ++ "_" ++ t = "iso_test") := by decide
 obtain ⟨hle,hsuf,heq⟩ := hall x.iso tag htag
 rw [Bool.eq_iff_iff,endsWith_iff,← hsuf]
 refine ⟨fun h => suffix_of_suffix_length_le hend h hle,fun h => ?_⟩
 rwa [heq (hsuf.1 h)] at hend

def Lists (tag : String) (xs : List SampleName) (keys : List String) : Prop :=
 keys.Nodup ∧ ∀ k, k ∈ keys ↔ ∃ x ∈ xs, x.key tag = k

lemma Lists.put {t : Table String Value} (h : Lists tag xs t.keys) (x : SampleName) (v : Value) :
 Lists tag (xs ++ [x]) (t.put (x.key tag) v).keys := by
 refine ⟨Table.nodup_put h.1 _ _,fun k => ?_⟩
 simp only [Table.mem_keys_put,h.2,mem_append,mem_singleton,or_and_right,exists_or,exists_eq_left,
  eq_comm (a := k)]

lemma storeClass_lists (iso : Bool) {b : Bundle} {graphs : List (Int × Graph)} {pairs : Pairs}
 {sizes : Table Int Nat}
 {degrees : Table Int Float} {notes notes' : Ledger}
 (h : Ends (storeClass save source tag (className iso) b graphs pairs sizes degrees notes) τ
  (.ok notes') σ')
 (hτ : Since save σ τ) (hlis : Lists tag xs notes.sizes.keys) :
 Since save σ σ' ∧ Lists tag (xs ++ graphs.map fun e => ⟨source,e.1,iso⟩) notes'.sizes.keys := by
 refine h.of_foldlM (J := fun done notes σ' => Since save σ σ' ∧
  Lists tag (xs ++ done.map fun e => ⟨source,e.1,iso⟩) notes.sizes.keys) ?_ ⟨hτ,by simpa using hlis⟩
 rintro done notes e τ notes' τ' ⟨hτ,hlis⟩ hrun
 obtain ⟨_,_,hsiz,hrun⟩ := hrun.split
 obtain rfl := reads_ofExcept _ _ _ _ hsiz
 obtain ⟨_,_,hdeg,hrun⟩ := hrun.split
 obtain rfl := reads_ofExcept _ _ _ _ hdeg
 obtain ⟨_,_,hpair,hrun⟩ := hrun.split
 obtain rfl := reads_ofExcept _ _ _ _ hpair
 obtain ⟨_,τ₁,hsto,hrun⟩ := hrun.split
 obtain ⟨rfl,rfl⟩ := hrun.of_pure
 refine ⟨hτ.store hsto,?_⟩
 rw [map_append,← append_assoc]
 exact hlis.put ⟨source,e.1,iso⟩ _

def samplesOf (p : String × Bundle) : List SampleName :=
 (p.2.iso.map fun e => ⟨p.1,e.1,true⟩) ++ p.2.non.map fun e => ⟨p.1,e.1,false⟩

/-- The sources as they are loaded in a session or after some of their samples have been stored. -/
def Loads (folder save : String) (limit : Int) (σ : Session) (loaded : List (String × Bundle)) :
 Prop :=
 ∀ p ∈ loaded, ∃ τ, Since save σ τ ∧ Ends (load folder (.str p.1) limit) τ (.ok p.2) τ

def Catalogue (folder save : String) (limit : Int) (tag : String) (σ : Session)
 (sources keys : List String) : Prop :=
 ∃ loaded : List (String × Bundle), loaded.map fst = sources ∧ Loads folder save limit σ loaded ∧
  Lists tag (loaded.flatMap samplesOf) keys

lemma reads_load (folder : String) (source : Value) (limit : Int) :
 Reads (load folder source limit) := by
 refine (reads_flag _).bind fun _ => (reads_readText _).bind fun _ =>
  (reads_ofExcept _).bind fun _ => ?_
 refine (reads_ofExcept _).bind fun _ => (reads_ofExcept _).bind fun _ =>
  (reads_ofExcept _).bind fun _ => ?_
 refine (reads_readText _).bind fun _ => (reads_ofExcept _).bind fun _ =>
  (reads_readText _).bind fun _ => ?_
 refine (reads_ofExcept _).bind fun _ => (reads_readText _).bind fun _ =>
  (reads_ofExcept _).bind fun _ => ?_
 refine (reads_ofExcept _).bind fun _ => (reads_readText _).bind fun _ =>
  (reads_ofExcept _).bind fun _ => ?_
 exact (reads_ofExcept _).bind fun _ => (reads_ofExcept _).bind fun _ => (reads_ofExcept _).bind
  fun _ => reads_pure _

lemma storeAll_catalogue (h : Ends (storeAll folder (sources.map .str) save tag limit) σ
 (.ok keys) σ') :
 Catalogue folder save limit tag σ sources keys := by
 obtain ⟨notes,τ,hfold,hrun⟩ := h.split
 rw [foldlM_map] at hfold
 have hcat : Since save σ τ ∧ Catalogue folder save limit tag σ sources notes.sizes.keys := by
  refine hfold.of_foldlM (J := fun done notes τ => Since save σ τ ∧
   Catalogue folder save limit tag σ done notes.sizes.keys) ?_
   ⟨.refl,[],rfl,by simp [Loads],nodup_nil,by simp [Table.keys,Table.empty]⟩
  rintro done notes s τ notes' τ' ⟨hτ,loaded,hloa,hall,hlis⟩ hrun
  obtain ⟨b,_,hb,hrun⟩ := hrun.split
  obtain rfl := reads_load _ _ _ _ _ _ hb
  obtain ⟨_,τ₁,hcla,hrun⟩ := hrun.split
  obtain ⟨hτ₁,hiso⟩ := storeClass_lists true hcla hτ hlis
  obtain ⟨hτ',hnon⟩ := storeClass_lists false hrun hτ₁ hiso
  refine ⟨hτ',loaded ++
   [(s,b)],by simp [hloa],forall_mem_append.2 ⟨hall,?_⟩,by simpa [samplesOf] using hnon⟩
  simpa using ⟨τ,hτ,hb⟩
 suffices hkey : notes.sizes.keys = keys from hkey ▸ hcat.2
 split at hrun
 · obtain ⟨_,_,_,hrun⟩ := hrun.split
   obtain ⟨_,_,_,hrun⟩ := hrun.split
   obtain ⟨_,_,_,hrun⟩ := hrun.split
   obtain ⟨_,_,_,hrun⟩ := hrun.split
   exact hrun.of_pure.1
 · exact hrun.of_pure.1

lemma reads_foldersIn (folder : String) : Reads (foldersIn folder) :=
 (reads_get.bind fun _ => reads_ofExcept _).bind (reads_filterM fun _ => reads_get.bind fun _ =>
  reads_pure _)

lemma storeCorpus_catalogue (h : Ends (storeCorpus dataset save tag) σ (.ok (sources,keys)) σ') :
 ∃ folder limit, Ends (corpusFolder dataset) σ (.ok folder) σ ∧
  Ends (foldersIn folder) σ (.ok sources) σ ∧
  Catalogue folder save limit tag σ sources keys := by
 obtain ⟨folder,_,hfold,hrun⟩ := h.split
 obtain rfl := ((reads_settingText _).bind fun _ => reads_pure _) _ _ _ hfold
 obtain ⟨found,_,hfou,hrun⟩ := hrun.split
 obtain rfl := reads_foldersIn _ _ _ _ hfou
 obtain ⟨limit,_,hlim,hrun⟩ := hrun.split
 obtain rfl := reads_settingInt _ _ _ _ hlim
 obtain ⟨all,τ,hall,hrun⟩ := hrun.split
 cases hrun.of_pure.1
 exact ⟨folder,limit,hfold,hfou,storeAll_catalogue hall⟩

lemma reads_storeFolder : Reads storeFolder :=
 (reads_settingText _).bind fun _ => (reads_settingText _).bind fun _ => (reads_flag _).bind
  fun _ => reads_pure _

lemma storeFolder_ne_empty (h : Ends storeFolder σ (.ok save) σ') : save ≠ "" := by
 have hne : ∀ {p : String} (b : Bool), p ≠ "" → (if b then p ++ "_directed" else p) ≠ "" :=
  fun b hp => by
  cases b <;> simp [hp]
 obtain ⟨_,_,_,h⟩ := h.split
 obtain ⟨_,_,_,h⟩ := h.split
 obtain ⟨directed,_,_,h⟩ := h.split
 exact h.of_pure.1 ▸ hne directed (ofProject_ne_empty _)

lemma fst_of_mapM {ρ ν : Type} {rs : List ρ} {name : ρ → String} {f : ρ → Except Error ν}
 {es : List (String × ν)}
 (h : rs.mapM (fun r => do return (name r,← f r)) = .ok es) : ∀ e ∈ es, ∃ r ∈ rs, e.1 = name r := by
 intro e he
 obtain ⟨r,hr,hre⟩ := exists_of_forall₂ (forall₂_of_mapM h) he
 obtain ⟨_,_,hre⟩ := bind_eq_ok hre
 cases hre
 exact ⟨r,hr,rfl⟩

lemma slashless_of_buckets {sourceSizes sizes degrees : Measures} {bs : List (String × List String)}
 (h : buckets sourceSizes sizes degrees keys = .ok bs) : ∀ b ∈ bs, '/' ∉ b.1.toList := by
 have hsou : ∀ r ∈ sourceRanges, '/' ∉ r.1.toList := by decide
 have hque : ∀ label ∈ ["nondense","dense"], ∀ r ∈
  queryRanges, '/' ∉ (label ++ "_" ++ r.1).toList := by decide
 obtain ⟨es,hes,h⟩ := bind_eq_ok h
 obtain ⟨sparse,hspa,h⟩ := bind_eq_ok h
 obtain ⟨dense,hden,h⟩ := bind_eq_ok h
 cases h
 intro b hb
 rcases mem_append.1 hb with hb | hb
 · rcases mem_append.1 hb with hb | hb
   · obtain ⟨r,hr,hrb⟩ := fst_of_mapM hes b hb
     exact hrb ▸ hsou r hr
   · obtain ⟨r,hr,hrb⟩ := fst_of_mapM hspa b hb
     exact hrb ▸ hque _ (by simp) r hr
 · obtain ⟨r,hr,hrb⟩ := fst_of_mapM hden b hb
   exact hrb ▸ hque _ (by simp) r hr

lemma reads_measuresAt (path : String) : Reads (measuresAt path) := by
 refine (reads_fetch path).bind fun _ => ?_
 split
 · exact reads_pure _
 · exact reads_throw _

def HoldsKeys (save : String) (train test : List String) (σ : Session) : Prop :=
 Shelves save "train_keys.pkl" (keysItem train) σ ∧ Shelves save "test_keys.pkl" (keysItem test) σ

lemma storeBuckets_holds (h : Ends (storeBuckets save tag keys) σ (.ok ()) σ') (hsave : save ≠ "")
 (htag : tag ∈ ["train","test"])
 (hkey : HoldsKeys save train test σ) : HoldsKeys save train test σ' := by
 obtain ⟨_,_,hsources,hrun⟩ := h.split
 obtain rfl := reads_measuresAt _ _ _ _ hsources
 obtain ⟨_,_,hdeg,hrun⟩ := hrun.split
 rw [Functor.discard,LawfulFunctor.map_const,Function.comp_apply,map_eq_pure_bind] at hdeg
 obtain rfl := ((reads_measuresAt _).bind fun _ => reads_pure _) _ _ _ hdeg
 obtain ⟨_,_,hsizes,hrun⟩ := hrun.split
 obtain rfl := reads_measuresAt _ _ _ _ hsizes
 obtain ⟨_,_,hdegrees,hrun⟩ := hrun.split
 obtain rfl := reads_measuresAt _ _ _ _ hdegrees
 obtain ⟨bs,_,hbuc,hrun⟩ := hrun.split
 obtain ⟨hbs,rfl⟩ := hbuc.of_ofExcept
 obtain ⟨_,_,hloop,hrun⟩ := hrun.split
 obtain rfl := hrun.of_pure.2
 refine hloop.of_forIn (fun b hb _ σ _ σ' hσ hste => ?_) hkey
 obtain ⟨_,_,hsto,hste⟩ := hste.split
 obtain rfl := hste.of_pure.2
 have hpath : save ++ "/" ++ tag ++ "_keys_" ++ b.1 ++ ".pkl" = save ++ "/" ++
  (tag ++ "_keys_" ++ b.1 ++ ".pkl") := by
  simp only [String.append_assoc]
 have htagn : FileName tag := by
  rcases mem_pair.1 htag with rfl | rfl <;> exact ⟨by decide,'t',_,rfl,by decide,by decide⟩
 have hnam : FileName (tag ++ "_keys_" ++ b.1 ++ ".pkl") :=
  ((htagn.append (by decide)).append (slashless_of_buckets hbs b hb)).append (by decide)
 have hoth : ∀ m ∈ ["train_keys.pkl","test_keys.pkl"], m ≠ tag ++ "_keys_" ++ b.1 ++ ".pkl" := by
  intro m hm hmb
  have hchar := congrArg String.toList hmb
  rcases mem_pair.1 htag with rfl | rfl <;> rcases mem_pair.1 hm with rfl | rfl <;> simp at hchar
 rw [hpath] at hsto
 have hkept := (hsto.of_store hsave hnam).2
 exact ⟨hkept _ _ (hoth _ (by simp)) hσ.1,hkept _ _ (hoth _ (by simp)) hσ.2⟩

def tagOf (real only : Bool) : String := if real || only then "test" else ""

def Divides (divide : List String → List String × List String) (real only : Bool)
 (sources keys train test : List String) : Prop :=
 if real then test = keys
 else if only then train = [] ∧ test = sideOf sources keys
 else train = sideOf (divide sources).1 keys ∧ test = sideOf (divide sources).2 keys

section
variable {divide : List String → List String × List String} {τ : Session}

lemma openStore_opened (h : Ends openStore σ (.ok save) τ) :
 save ≠ "" ∧ τ.settings = σ.settings := by
 obtain ⟨n,_,hn,hrun⟩ := h.split
 obtain rfl := reads_settingInt _ _ _ _ hn
 obtain ⟨_,σ₁,hseed,hrun⟩ := hrun.split
 obtain ⟨_,rfl⟩ := mk.inj hseed
 obtain ⟨folder,_,hfold,hrun⟩ := hrun.split
 obtain rfl := reads_storeFolder _ _ _ hfold
 obtain ⟨known,_,hkno,hrun⟩ := hrun.split
 obtain ⟨_,rfl⟩ := (ends_pathExists folder _).unique hkno
 have hne := storeFolder_ne_empty hfold
 extract_lets rest at hrun
 split at hrun
 · obtain ⟨rfl,rfl⟩ := hrun.of_pure
   exact ⟨hne,rfl⟩
 · obtain ⟨_,τ₁,hmake,hrun⟩ := hrun.split
   obtain ⟨rfl,rfl⟩ := hrun.of_pure
   obtain ⟨_,_,_,rfl⟩ := hmake.of_makeFolder
   exact ⟨hne,rfl⟩

lemma chooseKeys_divides {real only : Bool}
 (h : Ends (chooseKeys divide save real only) σ (.ok (train,test)) σ') :
 ∃ τ dataset sources keys, (∃ v, σ.settings.get "dataset" = .ok v ∧ dataset = if real then v.text ++
  "_test" else v.text) ∧
  Ends (storeCorpus dataset save (tagOf real only)) σ (.ok (sources,keys)) τ ∧
  Divides divide real only sources keys train test := by
 cases real with
 | false =>
  obtain ⟨dataset,_,hdat,h⟩ := h.split
  obtain rfl := reads_settingText _ _ _ _ hdat
  obtain ⟨⟨sources,keys⟩,τ,hcor,h⟩ := h.split
  refine ⟨τ,dataset,sources,keys,⟨_,hdat.of_settingText,rfl⟩,?_⟩
  cases only <;> cases h.of_pure.1 <;> exact ⟨hcor,rfl,rfl⟩
 | true =>
  obtain ⟨shown,_,hsho,h⟩ := h.split
  obtain rfl := ((reads_setting _).bind fun _ => reads_pure _) _ _ _ hsho
  obtain ⟨v,_,hv,hsho⟩ := hsho.split
  obtain rfl := hsho.of_pure.1
  obtain ⟨⟨sources,keys⟩,τ,hcor,h⟩ := h.split
  refine ⟨τ,v.text ++ "_test",sources,keys,⟨v,((ends_setting _ _).unique hv).1,rfl⟩,?_⟩
  cases only with
  | false =>
   obtain ⟨⟨_,_⟩,_,_,h⟩ := h.split
   cases h.of_pure.1
   exact ⟨hcor,rfl⟩
  | true =>
   cases h.of_pure.1
   exact ⟨hcor,rfl⟩

lemma storeKeys_holds {real : Bool} (h : Ends (storeKeys save real train test) σ (.ok ()) σ')
 (hsave : save ≠ "") :
 HoldsKeys save train test σ' := by
 have hpath : ∀ name, save ++ ("/" ++ name) = save ++ "/" ++ name :=
  fun name => String.append_assoc.symm
 obtain ⟨_,σ₁,htra,h⟩ := h.split
 obtain ⟨_,σ₂,htest,h⟩ := h.split
 have htra := (hpath "train_keys.pkl" ▸ htra).of_store hsave
  ⟨by decide,'t',_,rfl,by decide,by decide⟩
 have htest := (hpath "test_keys.pkl" ▸ htest).of_store hsave
  ⟨by decide,'t',_,rfl,by decide,by decide⟩
 have hkey : HoldsKeys save train test σ₂ := ⟨htest.2 _ _ (by decide) htra.1,htest.1⟩
 cases real with
 | false => exact h.of_pure.2 ▸ hkey
 | true =>
  obtain ⟨_,_,hbuc,h⟩ := h.split
  exact storeBuckets_holds h hsave (by simp) (storeBuckets_holds hbuc hsave (by simp) hkey)

def Prepared (divide : List String → List String × List String) (real only : Bool)
 (σ σ' : Session) : Prop :=
 ∃ τ τ' dataset save sources keys train test, Ends openStore σ (.ok save) τ ∧
  (∃ v, σ.settings.get "dataset" = .ok v ∧ dataset = if real then v.text ++ "_test" else v.text) ∧
  Ends (storeCorpus dataset save (tagOf real only)) τ (.ok (sources,keys)) τ' ∧
  Divides divide real only sources keys train test ∧ HoldsKeys save train test σ'

lemma processBy_prepared {real only : Value} (h : Ends (processBy divide) σ (.ok ()) σ')
 (hreal : σ.settings.get "real" = .ok real) (honly : σ.settings.get "testonly" = .ok only) :
 Prepared divide real.truthy only.truthy σ σ' := by
 obtain ⟨save,τ,hopen,hrun⟩ := h.split
 obtain ⟨hsave,hset⟩ := openStore_opened hopen
 obtain ⟨imported,_,himp,hrun⟩ := hrun.split
 obtain rfl := reads_flag _ _ _ _ himp
 obtain ⟨testOnly,_,htestOnly,hrun⟩ := hrun.split
 obtain rfl := reads_flag _ _ _ _ htestOnly
 rw [← himp.of_flag (hset ▸ hreal),← htestOnly.of_flag (hset ▸ honly)]
 obtain ⟨⟨train,test⟩,_,hcho,hsto⟩ := hrun.split
 obtain ⟨τ',dataset,sources,keys,hdat,hcor,hdiv⟩ := chooseKeys_divides hcho
 exact ⟨τ,τ',dataset,save,sources,keys,train,test,hopen,hset ▸ hdat,hcor,hdiv,
  storeKeys_holds hsto hsave⟩

end

lemma underscoreless (htag : tag ∈ ["","train","test"]) : '_' ∉ tag.toList := by
 have hall : ∀ t ∈ ["","train","test"], '_' ∉ t.toList := by decide
 exact hall tag htag

lemma source_mem_of_samplesOf (h : x ∈ loaded.flatMap samplesOf) : x.source ∈ loaded.map fst := by
 obtain ⟨p,hp,hx⟩ := mem_flatMap.1 h
 refine mem_map.2 ⟨p,hp,?_⟩
 rcases mem_append.1 hx with hx | hx <;> obtain ⟨e,_,rfl⟩ := mem_map.1 hx <;> rfl

lemma Catalogue.source_mem (h : Catalogue folder save limit tag σ sources keys)
 (hdec : ∀ s ∈ sources, IsDecimal s)
 (htag : '_' ∉ tag.toList) : ∀ k ∈ keys, sourceOfKey k ∈ sources := by
 obtain ⟨loaded,rfl,_,_,hmem⟩ := h
 intro k hk
 obtain ⟨x,hx,rfl⟩ := (hmem k).1 hk
 have hsou := source_mem_of_samplesOf hx
 rwa [sourceOfKey_key (hdec _ hsou) htag]

lemma Divides.perm {divide : List String → List String × List String}
 (h : Divides divide false false sources keys train test)
 (hper : ((divide sources).1 ++ (divide sources).2).Perm sources) (hsou : sources.Nodup)
 (hmem : ∀ k ∈ keys, sourceOfKey k ∈ sources) :
 (train ++ test).Perm keys ∧ ∀ k ∈ train, ∀ l ∈ test, sourceOfKey k ≠ sourceOfKey l := by
 obtain ⟨rfl,rfl⟩ := h
 generalize (divide sources).1 = as,(divide sources).2 = bs at hper
 have hapa : ∀ s ∈ as, s ∉ bs :=
  fun s ha hb => (nodup_append.1 (hper.nodup_iff.2 hsou)).2.2 s ha s hb rfl
 have hside : ∀ k ∈ keys, bs.contains (sourceOfKey k) = !as.contains (sourceOfKey k) := by
  intro k hk
  have hin := mem_append.1 (hper.mem_iff.2 (hmem k hk))
  have hout := hapa (sourceOfKey k)
  by_cases ha : sourceOfKey k ∈ as <;> simp_all
 constructor
 · rw [sideOf,sideOf,filter_congr hside]
   exact filter_append_perm _ keys
 · intro k hk l hl hkl
   simp only [sideOf,mem_filter,contains_iff_mem] at hk hl
   exact hapa _ hk.2 (hkl ▸ hl.2)

lemma verdict_of_key {α : Type} [Scalar α] {query source : Graph} {width : Value} {anchored : Bool}
 {pairs : Except Error (List (Int × Int))} {s : Sample α} (hx : IsDecimal x.source)
 (htag : tag ∈ ["","train","test"])
 (h : encode query source width anchored pairs (.str (x.key tag)) false = .ok s) :
 s.verdict = if x.iso then 1 else 0 := by
 have hiso : occursIn "iso" (x.key tag) = x.iso := Bool.eq_iff_iff.2 (occursIn_key hx htag true)
 have hver := verdictOf_encode h
 simp only [Encoding.verdictOf,Encoding.namesIso,hiso] at hver
 exact (Except.ok.inj hver).symm

structure Tells (tag : String) (x : SampleName) : Prop where
 source : sourceOfKey (x.key tag) = x.source
 iso : isIso (x.key tag) = x.iso
 non : isNon (x.key tag) = !x.iso
 verdict : ∀ query source width anchored pairs (s : Sample Float),
  encode query source width anchored pairs (.str (x.key tag)) false = .ok s →
   s.verdict = if x.iso then 1 else 0

lemma tells_key (hx : IsDecimal x.source) (htag : tag ∈ ["","train","test"]) : Tells tag x where
 source := sourceOfKey_key hx (underscoreless htag)
 iso := Bool.eq_iff_iff.2 (occursIn_key hx htag true)
 non := by
  rw [Bool.eq_iff_iff,Bool.not_eq_true']
  exact occursIn_key hx htag false
 verdict _ _ _ _ _ _ h := verdict_of_key hx htag h

theorem keys_tell_and_divide :
 (∀ {folder save tag limit sources keys σ σ'}, tag ∈ ["","train","test"] →
  (∀ s ∈ sources, IsDecimal s) →
  Ends (storeAll folder (sources.map .str) save tag limit) σ (.ok keys) σ' →
  ∃ loaded, loaded.map fst = sources ∧ Loads folder save limit σ loaded ∧
   Lists tag (loaded.flatMap samplesOf) keys ∧
   ∀ x ∈ loaded.flatMap samplesOf, Tells tag x ∧ ∀ y ∈ loaded.flatMap samplesOf, x.key tag =
    y.key tag → x = y) ∧
 ∀ {divide σ σ' real only}, (∀ sources, ((divide sources).1 ++ (divide sources).2).Perm sources) →
  Ends (processBy divide) σ (.ok ()) σ' → σ.settings.get "real" = .ok real → real.truthy = false →
  σ.settings.get "testonly" = .ok only → only.truthy = false →
  ∃ τ τ' dataset save sources keys train test, Ends openStore σ (.ok save) τ ∧
   σ.settings.get "dataset" = .ok dataset ∧
   Ends (storeCorpus dataset.text save "") τ (.ok (sources,keys)) τ' ∧ HoldsKeys save train test σ' ∧
   train = sideOf (divide sources).1 keys ∧ test = sideOf (divide sources).2 keys ∧
   (sources.Nodup → (∀ s ∈ sources, IsDecimal s) →
    (train ++ test).Perm keys ∧ ∀ k ∈ train, ∀ l ∈ test, sourceOfKey k ≠ sourceOfKey l) := by
 constructor
 · intro folder save tag limit sources keys σ σ' htag hdec hrun
   obtain ⟨loaded,rfl,hload,hlist⟩ := storeAll_catalogue hrun
   have hsou : ∀ x ∈ loaded.flatMap samplesOf, IsDecimal x.source :=
    fun x hx => hdec _ (source_mem_of_samplesOf hx)
   exact ⟨loaded,rfl,hload,hlist,fun x hx => ⟨tells_key (hsou x hx) htag,fun y hy =>
    key_inj (hsou x hx) (hsou y hy) (underscoreless htag)⟩⟩
 · intro divide σ σ' real only hper hrun hreal hfal honly hfal'
   have hpre := processBy_prepared hrun hreal honly
   rw [hfal,hfal'] at hpre
   obtain ⟨τ,τ',_,save,sources,keys,train,test,hopen,⟨v,hv,rfl⟩,hcor,hdiv,hkey⟩ := hpre
   refine ⟨τ,τ',v,save,sources,keys,train,test,hopen,hv,hcor,hkey,hdiv.1,hdiv.2,fun hnod hdec => ?_⟩
   obtain ⟨folder,limit,_,_,hcat⟩ := storeCorpus_catalogue hcor
   exact hdiv.perm (hper sources) hnod (hcat.source_mem hdec (by decide))

def leafletFiles (source iso nonIso : String) : List (String × Entry) :=
 [("source.lg",.text ("t # " ++ source ++ "\np 0\nv 0 1")),("iso_subgraphs.lg",.text iso),
  ("iso_subgraphs_mapping.lg",.text iso),
  ("noniso_subgraphs.lg",.text nonIso),("noniso_subgraphs_mapping.lg",.text nonIso)]

def leaflets : Session where
 streams := ⟨.seed 0,.seed 0⟩
 settings := ⟨⟨[("seed",.int 0),("data_processed_dir",.str "out"),("dataset",.str "D"),
  ("dataset_dir",.str "data"),
  ("directed",.bool false),("real",.bool false),("testonly",.bool false),("max_subgraph",.int (-1))]⟩⟩
 files := .folder [("glema",.folder [("data",.folder [("D",.folder
  [("7",.folder (leafletFiles "7" "t # 0\nv 0 1" "")),
   ("8",.folder (leafletFiles "8" "" "t # 0\nv 0 2"))])]),("out",.folder [("D",.folder [])])])]
 printed := #[]
 records := []

lemma ends_of_toOption {α : Type} {c : Run α} {a : α} (h : (c.run.run σ).1.toOption = some a) :
 Ends c σ (.ok a) (c.run.run σ).2 := by
 have hval : (c.run.run σ).1 = .ok a := by
  cases hrun : (c.run.run σ).1 with
  | error e =>
   rw [hrun] at h
   cases h
  | ok b =>
   rw [hrun] at h
   rw [Option.some.inj h]
 exact Prod.ext hval rfl

def opened : Session := (openStore.run.run leaflets).2

lemma leaflets_opened : Ends openStore leaflets (.ok (ofProject "out/D")) opened :=
 ends_of_toOption (by decide +kernel)

def childNames : Entry → List String
 | .folder es => es.map fst
 | _ => []

lemma names_of_children {top : Entry} {path : String} {ns : List String}
 (hfol : top.isFolderAt path = true)
 (hns : (top.lookup path).toOption.map childNames = some ns)
 (hsort : ns.Pairwise fun s t => decide (s ≤ t)) :
 top.names path = .ok ns := by
 rw [Entry.names]
 unfold Entry.isFolderAt at hfol
 cases hlook : top.lookup path with
 | error e => simp [hlook] at hfol
 | ok e =>
  rw [hlook] at hfol hns
  cases e with
  | folder es =>
   obtain rfl := Option.some.inj hns
   exact congrArg Except.ok (mergeSort_of_pairwise hsort)
  | _ => cases hfol

def leafletKeys : List String := ["7_0_iso_","8_0_non_"]

lemma leaflets_listed : Ends (foldersIn (ofProject (join "data" "D"))) opened
 (.ok ["7","8"]) opened := by
 have hnames : Ends (names (ofProject (join "data" "D"))) opened (.ok ["7","8"]) opened := by
  refine (ends_get opened).bind (ends_ofExcept_ok ?_)
  exact names_of_children (by decide +kernel) (by decide +kernel) (by decide)
 have hrun := hnames.bind (ends_of_toOption (by decide +kernel) :
  Ends (["7","8"].filterM fun n => isFolder (join (ofProject (join "data" "D")) n)) opened
   (.ok ["7","8"]) _)
 have hsame := reads_foldersIn _ _ _ _ hrun
 rwa [← hsame] at hrun

lemma leaflets_set {name : String} {v : Value} (h : leaflets.settings.get name = .ok v) :
 opened.settings.get name = .ok v := by
 rw [(openStore_opened leaflets_opened).2,h]

lemma leaflets_stored : ∃ τ σ', Ends (storeCorpus "D" (ofProject "out/D") "") opened
 (.ok (["7","8"],leafletKeys)) τ ∧
 Ends (storeKeys (ofProject "out/D") false ["8_0_non_"] ["7_0_iso_"]) τ (.ok ()) σ' := by
 have hfolder : Ends (corpusFolder "D") opened (.ok (ofProject (join "data" "D"))) opened :=
  (ends_settingText (leaflets_set rfl)).bind (ends_pure _ _)
 have hrun : Ends (storeAll (ofProject (join "data" "D")) (["7","8"].map .str)
  (ofProject "out/D") "" (-1) >>= fun keys =>
  storeKeys (ofProject "out/D") false ["8_0_non_"] ["7_0_iso_"] >>= fun _ => pure keys) opened
   (.ok leafletKeys) _ :=
  ends_of_toOption (by decide +kernel)
 obtain ⟨keys,τ,hall,hrun⟩ := hrun.split
 obtain ⟨_,σ',hsto,hrun⟩ := hrun.split
 obtain rfl := hrun.of_pure.1
 exact ⟨τ,σ',hfolder.bind (leaflets_listed.bind
  ((ends_settingInt (leaflets_set rfl)).bind (hall.bind (ends_pure _ _)))),hsto⟩

lemma leaflets_sides : sideOf (oneInFive ["7","8"]).1 leafletKeys = ["8_0_non_"] ∧
 sideOf (oneInFive ["7","8"]).2 leafletKeys = ["7_0_iso_"] := by decide +kernel

lemma leaflets_processed : ∃ σ', Ends process leaflets (.ok ()) σ' ∧
 HoldsKeys (ofProject "out/D") ["8_0_non_"] ["7_0_iso_"] σ' := by
 obtain ⟨τ,σ',hcor,hsto⟩ := leaflets_stored
 have hreal : Ends (flag "real") opened (.ok false) opened :=
  ends_flag (v := .bool false) (leaflets_set rfl)
 have honly : Ends (flag "testonly") opened (.ok false) opened :=
  ends_flag (v := .bool false) (leaflets_set rfl)
 have hcho : Ends (chooseKeys oneInFive (ofProject "out/D") false false) opened
  (.ok (["8_0_non_"],["7_0_iso_"])) τ := by
  rw [← leaflets_sides.1,← leaflets_sides.2]
  exact (ends_settingText (leaflets_set rfl)).bind (hcor.bind (ends_pure _ _))
 exact ⟨σ',leaflets_opened.bind (hreal.bind (honly.bind (hcho.bind hsto))),
  storeKeys_holds hsto (ofProject_ne_empty _)⟩

theorem leaflets_divided : (∃ xs, Lists "" xs leafletKeys ∧ ∀ x ∈ xs, Tells "" x) ∧
 ∃ σ' save train test, Ends process leaflets (.ok ()) σ' ∧ HoldsKeys save train test σ' ∧
  train = ["8_0_non_"] ∧ test = ["7_0_iso_"] ∧ (train ++ test).Perm leafletKeys ∧
  ∀ k ∈ train, ∀ l ∈ test, sourceOfKey k ≠ sourceOfKey l := by
 have hdec : ∀ s ∈ ["7","8"], IsDecimal s := by simp [IsDecimal]
 obtain ⟨_,_,hall,_⟩ := leaflets_stored
 obtain ⟨σ',hpro,_⟩ := leaflets_processed
 obtain ⟨τ,τ',dataset,save,sources,keys,train,test,hopen,hset,hcor,hhold,htrain,htest,hboth⟩ :=
  keys_tell_and_divide.2 (fun xs => splitOff_perm xs 0.2 42) hpro rfl rfl rfl rfl
 obtain rfl := Except.ok.inj hset
 obtain ⟨hsave,rfl⟩ := hopen.unique leaflets_opened
 obtain rfl := Except.ok.inj hsave
 obtain ⟨rfl,rfl⟩ := Prod.mk.inj (Except.ok.inj (hcor.unique hall).1)
 obtain ⟨_,_,_,hcor⟩ := hcor.split
 obtain ⟨_,_,_,hcor⟩ := hcor.split
 obtain ⟨_,_,_,hcor⟩ := hcor.split
 obtain ⟨_,_,hsto,hcor⟩ := hcor.split
 obtain ⟨rfl,rfl⟩ := Prod.mk.inj hcor.of_pure.1
 obtain ⟨loaded,_,_,hlist,htell⟩ := keys_tell_and_divide.1 (by simp) hdec hsto
 obtain ⟨hperm,happ⟩ := hboth (by decide) hdec
 exact ⟨⟨_,hlist,fun x hx => (htell x hx).1⟩,σ',_,train,test,hpro,hhold,
  htrain.trans leaflets_sides.1,
  htest.trans leaflets_sides.2,hperm,happ⟩

lemma ends_keysAt {path : String} (h : Ends (fetch path) σ (.ok (keysItem keys)) σ) :
 Ends (keysAt path) σ (.ok keys) σ := by
 refine h.bind ?_
 show Ends (pure (filterMap _ ((keys.map .str).map Item.data))) σ (.ok keys) σ
 rw [filterMap_map,filterMap_map]
 show Ends (pure (keys.filterMap some)) σ (.ok keys) σ
 rw [filterMap_some]
 exact ends_pure keys σ

lemma Lists.exists_samples (h : Lists tag xs keys) (htest : ∀ k ∈ test, k ∈ keys) :
 ∃ samples : List SampleName, (∀ x ∈ samples, x ∈ xs) ∧ samples.map (SampleName.key tag) = test := by
 induction test with
 | nil => exact ⟨[],by simp,rfl⟩
 | cons k test ih =>
  obtain ⟨samples,hall,hmap⟩ := ih fun l hl => htest l (mem_cons_of_mem k hl)
  obtain ⟨x,hx,hk⟩ := (h.2 k).1 (htest k mem_cons_self)
  exact ⟨x :: samples,forall_mem_cons.2 ⟨hx,hall⟩,by rw [map_cons,hk,hmap]⟩

lemma Divides.mem_keys {divide : List String → List String × List String} {real only : Bool}
 (h : Divides divide real only sources keys train test) : ∀ k ∈ test, k ∈ keys := by
 intro k hk
 unfold Divides at h
 split at h
 · exact h ▸ hk
 split at h
 · exact mem_of_mem_filter (h.2 ▸ hk)
 · exact mem_of_mem_filter (h.2 ▸ hk)

lemma filter_namesMatch (real only : Bool) (samples : List SampleName) :
 (samples.map (SampleName.key (tagOf real only))).filter namesMatch =
  if real || only then (samples.filter (·.iso)).map (SampleName.key "test") else [] := by
 have htag : tagOf real only ∈ ["","test"] := by cases real <;> cases only <;> decide
 have hkey : ∀ x : SampleName, namesMatch (x.key (tagOf real only)) = (x.iso && (real || only)) :=
  fun x => by
  rw [namesMatch,endsWith_key x htag]
  cases real <;> cases only <;> rfl
 rw [filter_map,filter_congr (p := Evaluation.namesMatch ∘ SampleName.key (tagOf real only))
  fun x _ => hkey x]
 cases hany : (real || only) with
 | false => simp
 | true => simp [tagOf,hany]

theorem matching_keys_stored {divide : List String → List String × List String} {real only : Value}
 (h : Ends (processBy divide) σ (.ok ()) σ') (hreal : σ.settings.get "real" = .ok real)
 (honly : σ.settings.get "testonly" = .ok only) :
 ∃ (τ : Session) (save folder : String) (limit : Int) (loaded : List (String × Bundle))
  (samples : List SampleName),
  Ends openStore σ (.ok save) τ ∧ Loads folder save limit τ loaded ∧
   (∀ x ∈ samples, x ∈ loaded.flatMap samplesOf) ∧
  ∃ keys, keys = samples.map (SampleName.key (tagOf real.truthy only.truthy)) ∧
   Ends (keysAt (save ++ "/" ++ "test_keys.pkl")) σ' (.ok keys) σ' ∧
   keys.filter namesMatch =
    if real.truthy || only.truthy then (samples.filter (·.iso)).map
     (SampleName.key "test") else [] := by
 obtain ⟨τ,τ',dataset,save,sources,all,train,test,hopen,_,hcor,hdiv,hkey⟩ :=
  processBy_prepared h hreal honly
 obtain ⟨folder,limit,_,_,loaded,_,hload,hlist⟩ := storeCorpus_catalogue hcor
 obtain ⟨samples,hsam,rfl⟩ := hlist.exists_samples hdiv.mem_keys
 refine ⟨τ,save,folder,limit,loaded,samples,hopen,hload,hsam,_,rfl,?_,filter_namesMatch _ _ samples⟩
 exact ends_keysAt (hkey.2.ends_fetch (openStore_opened hopen).1
  ⟨by decide,'t',_,rfl,by decide,by decide⟩)

theorem leaflets_unmatched : ∃ σ' save, Ends process leaflets (.ok ()) σ' ∧
 Ends (keysAt (save ++ "/" ++ "test_keys.pkl")) σ' (.ok ["7_0_iso_"]) σ' ∧
  ["7_0_iso_"].filter namesMatch = [] := by
 obtain ⟨σ',hpro,hhold⟩ := leaflets_processed
 obtain ⟨_,save,_,_,_,_,hopen,_,_,keys,_,hkey,hfil⟩ := matching_keys_stored hpro rfl rfl
 obtain rfl := Except.ok.inj (hopen.unique leaflets_opened).1
 have hval := hhold.2.ends_fetch (ofProject_ne_empty _) ⟨by decide,'t',_,rfl,by decide,by decide⟩
 obtain rfl := Except.ok.inj (hkey.unique (ends_keysAt hval)).1
 exact ⟨σ',_,hpro,hkey,hfil⟩

end MotifMatch.Preparation
