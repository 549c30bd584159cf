import Mathlib.Data.List.Nodup
import Mathlib.Data.List.Perm.Subperm
import Mathlib.Data.Nat.Find
import MotifMatch.Checkpoint
import MotifMatch.Proofs.Sessions

namespace MotifMatch
open List Nat Run Text MotifMatch.Path
namespace Text
variable {old new stem rest : List Char} {c : Char}

lemma replaceChars_last (hne : old ≠ []) (hc : c ∉ old) (h : ¬old <:+: stem) {n : Nat}
 (hn : (stem ++ c :: old).length < n) :
 replaceChars old new n (stem ++ c :: old) = stem ++ c :: new := by
 obtain ⟨n,rfl⟩ := Nat.exists_eq_add_one_of_ne_zero (Nat.ne_zero_of_lt hn)
 induction stem generalizing n with
 | nil =>
  obtain ⟨n,rfl⟩ := Nat.exists_eq_add_one_of_ne_zero (n := n) (by simp at hn; omega)
  have hnot : ¬(old ≠ [] ∧ old.isPrefixOf (c :: old)) := fun ⟨_,hp⟩ =>
   hne (prefix_nil.1 (prefix_of_prefix_append hc ( isPrefixOf_iff_prefix.1 hp)))
  obtain ⟨d,ds,rfl⟩ := exists_cons_of_ne_nil hne
  have hend : replaceChars (d :: ds) new n [] = [] := by cases n <;> rfl
  rw [nil_append,nil_append,replaceChars,if_neg hnot,replaceChars,
   if_pos ⟨hne, isPrefixOf_iff_prefix.2 (prefix_refl _)⟩,
   drop_length,hend,append_nil]
 | cons d stem ih =>
  obtain ⟨n,rfl⟩ := Nat.exists_eq_add_one_of_ne_zero (n := n) (by simp at hn; omega)
  have hnot : ¬(old ≠ [] ∧ old.isPrefixOf (d :: (stem ++ c :: old))) := fun ⟨_,hp⟩ =>
   h (prefix_of_prefix_append hc ( isPrefixOf_iff_prefix.1 hp)).isInfix
  rw [cons_append,replaceChars,if_neg hnot,
   ih (fun hin => h (infix_cons hin)) n (by simp at hn ⊢; omega)]
  rfl

lemma replaceChars_ne (hne : old ≠ []) (hc : c ∉ old) (h : old <:+: stem) (hnew : ¬new <+: old)
 (hold : ¬old <+: new) {n : Nat}
 (hn : stem.length < n) (rest' : List Char) :
  replaceChars old new n (stem ++ c :: rest) ≠ stem ++ rest' := by
 induction stem generalizing n with
 | nil => exact absurd (infix_nil.1 h) hne
 | cons d stem ih =>
  obtain ⟨n,rfl⟩ := Nat.exists_eq_add_one_of_ne_zero (Nat.ne_zero_of_lt hn)
  rw [cons_append,replaceChars]
  split
  · next hp =>
    intro heq
    have hwho := (prefix_of_prefix_append (u := d :: stem) hc ( isPrefixOf_iff_prefix.1 hp.2)).trans
     (prefix_append _ rest')
    rcases prefix_or_prefix_of_prefix hwho ⟨_,heq⟩ with hle | hle
    · exact hold hle
    · exact hnew hle
  · next hp =>
    rcases infix_cons_iff.1 h with hpre | hin
    · exact absurd ⟨hne, isPrefixOf_iff_prefix.2 (hpre.trans (prefix_append (d :: stem) _))⟩ hp
    · exact fun heq => ih hin (by simpa using hn) (cons.inj heq).2

lemma of_prefix_toDigits {a b : Nat} (h : toDigits 10 a <+: toDigits 10 b) : a = b ∨ a ≤ b / 10 := by
 have hinj : ∀ {m n : Nat}, toDigits 10 m = toDigits 10 n → m = n := by
  intro m n heq
  have hread := congrArg wholeDigits? heq
  rw [wholeDigits?_toDigits,wholeDigits?_toDigits] at hread
  exact Option.some.inj hread
 induction b using Nat.strongRecOn with
 | _ b ih =>
  rcases lt_or_ge b 10 with hb | hb
  · refine .inl (hinj (h.eq_of_length_le ?_))
    rw [toDigits_of_lt_base hb]
    exact length_pos_iff.2 toDigits_ne_nil
  · rw [toDigits_of_base_le (by decide) hb] at h
    rcases prefix_concat_iff.1 h with heq | hpre
    · rw [← toDigits_of_base_le (by decide) hb] at heq
      exact .inl (hinj heq)
    · have := ih (b / 10) (by omega) hpre
      omega

end Text

namespace Checkpoint
variable {σ : Session} {dataset stem : String} {directed anchored : Bool} {tag : Option String}
 {present : List String}
 {i m : Nat}

def mark (i : Nat) : List Char := 'v' :: toDigits 10 i

lemma toList_mark (i : Nat) : ("v" ++ toString i).toList = mark i := by
 rw [String.toList_append,toString_eq_repr,toList_repr]
 rfl

lemma underscore_notMem_mark (i : Nat) : '_' ∉ mark i := by
 intro h
 rcases mem_cons.1 h with h | h
 · exact absurd h (by decide)
 · exact absurd (isDigit_of_mem_toDigits (by decide) (by decide) h) (by decide)

def stemOf (dataset : String) (directed anchored : Bool) (tag : Option String) : String :=
 dataset ++ "_" ++ (if directed then "directed" else "undirected") ++
  (if anchored then "_anchored" else "") ++
  (match tag with | some t => "_" ++ t | none => "")

def named (stem : String) (i : Nat) : String := stem ++ "_v" ++ toString i

lemma toList_named (stem : String) (i : Nat) :
 (named stem i).toList = stem.toList ++ '_' :: mark i := by
 rw [named,String.append_assoc,String.toList_append,mark,String.toList_append,toString_eq_repr,
  toList_repr]
 rfl

lemma named_inj {j : Nat} (h : named stem i = named stem j) : i = j := by
 have hlist := congrArg String.toList h
 rw [toList_named,toList_named,append_cancel_left_eq] at hlist
 have hdig := (cons.inj (cons.inj hlist).2).2
 rcases Text.of_prefix_toDigits (hdig ▸ prefix_refl _ : Nat.toDigits 10 i <+: Nat.toDigits 10
  j) with h | h
 · exact h
 · rcases Text.of_prefix_toDigits (hdig ▸ prefix_refl _ : Nat.toDigits 10 j <+: toDigits 10
    i) with h' | h' <;> omega

lemma toList_step (stem : String) (i : Nat) : (replace s!"v{i}" s!"v{i + 1}" (named stem i)).toList =
 replaceChars (mark i) (mark (i + 1)) ((stem.toList ++ '_' :: mark i).length + 1)
  (stem.toList ++ '_' :: mark i) := by
 rw [← toList_named,← toList_mark,← toList_mark,Text.replace,String.toList_ofList]
 rfl

lemma replace_named (h : ¬mark i <:+: stem.toList) :
 Text.replace s!"v{i}" s!"v{i + 1}" (named stem i) = named stem (i + 1) := by
 refine String.toList_injective ?_
 rw [toList_step,toList_named,Text.replaceChars_last (by simp [mark])
  (underscore_notMem_mark i) h (Nat.lt_add_one _)]

lemma replace_named_ne (hi : 1 ≤ i) (h : mark i <:+: stem.toList) (j : Nat) :
 replace s!"v{i}" s!"v{i + 1}" (named stem i) ≠ named stem j := by
 intro heq
 have hlist := congrArg String.toList heq
 rw [toList_step,toList_named] at hlist
 refine replaceChars_ne (by simp [mark]) (underscore_notMem_mark i) h ?_ ?_
  (by rw [length_append]; omega) _ hlist
 · intro hpre
   have := of_prefix_toDigits (cons_prefix_cons.1 hpre).2
   omega
 · intro hpre
   have := of_prefix_toDigits (cons_prefix_cons.1 hpre).2
   omega

def Reaches (present : List String) (stem : String) (m : Nat) : Prop :=
 (∀ j, 1 ≤ j → j ≤ m → named stem j ∈ present) ∧ named stem (m + 1) ∉ present

lemma exists_reaches (present : List String) (stem : String) :
 ∃ m ≤ present.length, Reaches present stem m := by
 have hmis : ∃ m, named stem (m + 1) ∉ present ∧ m ≤ present.length := by
  by_contra hnone
  have hall : (range (present.length + 1)).map (fun m => named stem (m + 1)) ⊆ present := by
   intro s hs
   obtain ⟨m,hm,rfl⟩ := mem_map.1 hs
   by_contra hnot
   exact hnone ⟨m,hnot,by simpa [Nat.lt_succ_iff] using hm⟩
  have hnod : ((range (present.length + 1)).map fun m => named stem (m + 1)).Nodup :=
   Nodup.map (fun a b heq => by have := named_inj heq; omega) nodup_range
  have hle := (subperm_of_subset hnod hall).length_le
  simp only [length_map,length_range] at hle
  omega
 classical
 obtain ⟨hfree,hle⟩ := Nat.find_spec hmis
 refine ⟨_,hle,fun j hj hjm => ?_,hfree⟩
 obtain ⟨k,rfl⟩ := exists_eq_add_one_of_ne_zero (show j ≠ 0 by omega)
 by_contra hnot
 exact Nat.find_min hmis (by omega) ⟨hnot,by omega⟩

lemma lastVersion_eq {n : Nat} (him : i ≤ m) (hn : m - i ≤ n)
 (hrun : ∀ j, i ≤ j → j < m → ¬mark j <:+: stem.toList ∧ named stem (j + 1) ∈ present)
 (hend : replace s!"v{m}" s!"v{m + 1}" (named stem m) ∉ present) :
  lastVersion present n i (named stem i) = m := by
 induction n generalizing i with
 | zero =>
  obtain rfl : i = m := by omega
  rfl
 | succ n ih =>
  rw [lastVersion]
  rcases Nat.eq_or_lt_of_le him with rfl | hlt
  · rw [if_neg (by simpa using hend)]
  · obtain ⟨hcle,hmem⟩ := hrun i (le_refl i) hlt
    rw [replace_named hcle,if_pos (by simpa using hmem)]
    exact ih hlt (by omega) fun j hj hjm => hrun j (by omega) hjm

structure Shelf (σ : Session) (dataset : String) (directed anchored : Bool)
 (present : List String) : Prop where
 dataset : σ.settings.get "dataset" = .ok (.str dataset)
 directed : ∃ v, σ.settings.get "directed" = .ok v ∧ v.truthy = directed
 anchored : ∃ v, σ.settings.get "anchored" = .ok v ∧ v.truthy = anchored
 present : ∃ dir, σ.settings.get "ckpt_dir" = .ok (.str dir) ∧
  σ.files.names (ofProject dir) = .ok present

lemma Shelf.ends_latest (h : Shelf σ dataset directed anchored present) (tag : Option String) :
 Ends (latest tag) σ (.ok (if named (stemOf dataset directed anchored tag) 1 ∈ present then
  lastVersion present (present.length + 1) 1 (named (stemOf dataset directed anchored tag) 1)
   else -1)) σ := by
 obtain ⟨d,hd,rfl⟩ := h.directed
 obtain ⟨a,ha,rfl⟩ := h.anchored
 obtain ⟨dir,hdir,hnames⟩ := h.present
 have hnam :
  Ends (name (.int 1) tag) σ (.ok (named (stemOf dataset d.truthy a.truthy tag) 1)) σ := by
  refine Ends.bind (ends_ofExcept_ok rfl) ?_
  exact (ends_shownSetting h.dataset).bind
   ((ends_flag hd).bind ((ends_flag ha).bind (ends_pure _ σ)))
 have hfold : Ends folder σ (.ok (ofProject dir)) σ := (ends_settingText hdir).bind (ends_pure _ σ)
 have hread : Ends (names (ofProject dir)) σ (.ok present) σ :=
  (ends_get σ).bind (ends_ofExcept_ok hnames)
 refine hnam.bind (hfold.bind (hread.bind ?_))
 simp only [contains_iff_mem]
 split <;> exact ends_pure _ σ

theorem latest_version (h : Shelf σ dataset directed anchored present) (tag : Option String) :
 let stem := stemOf dataset directed anchored tag
 let name := fun i : Nat => nameOf dataset directed anchored tag (toString i)
 ((∀ i, 1 ≤ i → (∀ j, 1 ≤ j → j ≤ i → name j ∈ present) → ¬mark i <:+: stem.toList) →
  ∃ v, Ends (latest tag) σ (.ok v) σ ∧ (v = -1 ↔ name 1 ∉ present) ∧ (v = -1 ∨ 1 ≤ v) ∧
   (∀ j : Nat, 1 ≤ j → j ≤ v → name j ∈ present) ∧ name (v.toNat + 1) ∉ present) ∧
 ∀ i, 1 ≤ i → mark i <:+: stem.toList → (∀ j, 1 ≤ j → j < i → ¬mark j <:+: stem.toList) →
  (∀ s, s ∈ present ↔ ∃ j, 1 ≤ j ∧ j ≤ i + 1 ∧ s = name j) →
  Ends (latest tag) σ (.ok i) σ ∧ name (i + 1) ∈ present := by
 intro stem name
 have hends := h.ends_latest tag
 change Ends _ σ (.ok (if name 1 ∈ present then _ else _)) σ at hends
 obtain ⟨m,hm,hall,hfree⟩ := exists_reaches present stem
 refine ⟨fun hcle => ?_,fun i hi hmark hbef hpre => ?_⟩
 · have hunm : ∀ j, 1 ≤ j → j ≤ m → ¬mark j <:+: stem.toList :=
    fun j hj hjm => hcle j hj fun k hk hkj => hall k hk (by omega)
   by_cases hfir : name 1 ∈ present
   · have hpos : 1 ≤ m := one_le_iff_ne_zero.2 fun hzero => (hzero ▸ hfree) hfir
     rw [if_pos hfir,lastVersion_eq hpos (by omega)
      (fun j hj hjm => ⟨hunm j hj (le_of_lt hjm),hall _ (by omega) hjm⟩)
      (replace_named (hunm m hpos le_rfl) ▸ hfree)] at hends
     exact ⟨m,hends,iff_of_false (by omega) (not_not_intro hfir),.inr (by omega),
      fun j hj hjm => hall j hj (by omega),hfree⟩
   · rw [if_neg hfir] at hends
     exact ⟨-1,hends,iff_of_true rfl hfir,.inl rfl,fun j hj hle => by omega,hfir⟩
 · have hmem : ∀ j, 1 ≤ j → j ≤ i + 1 → name j ∈ present := fun j hj hji => (hpre _).2 ⟨j,hj,hji,rfl⟩
   have hlen : i ≤ m := by
    by_contra hlong
    exact hfree (hmem (m + 1) (by omega) (by omega))
   rw [if_pos (hmem 1 (by omega) (by omega)),lastVersion_eq hi (by omega)
    (fun j hj hji => ⟨hbef j hj hji,hmem _ (by omega) (by omega)⟩)] at hends
   · exact ⟨hends,hmem _ (by omega) le_rfl⟩
   · intro hin
     obtain ⟨j,_,_,heq⟩ := (hpre _).1 hin
     exact replace_named_ne hi hmark j heq

def shelf : Session where
 streams := default
 settings := ⟨⟨[("dataset",.str "pv1"),("directed",.bool false),("anchored",.bool false),
  ("ckpt_dir",.str "save")]⟩⟩
 files := .folder [("glema",
  .folder [("save",.folder [("pv1_undirected_v1",.folder []),("pv1_undirected_v2",.folder [])])])]
 printed := #[]
 records := []

theorem second_taken_for_free : ∃ present, Shelf shelf "pv1" false false present ∧
 Ends (latest none) shelf (.ok 1) shelf ∧
 nameOf "pv1" false false none (toString 2) ∈ present := by
 have hpath : fromRoot? (ofProject "save") = some ["glema","save"] ∧
  namesFolder (ofProject "save") = false := by decide +kernel
 have hsort : ["pv1_undirected_v1","pv1_undirected_v2"].Pairwise fun s t => decide (s ≤ t) =
  true := by decide +kernel
 have h : Shelf shelf "pv1" false false ["pv1_undirected_v1","pv1_undirected_v2"] := by
  refine ⟨rfl,⟨_,rfl,rfl⟩,⟨_,rfl,rfl⟩,"save",rfl,?_⟩
  have hpla : shelf.files.resolve (ofProject "save") = .ok ["glema","save"] :=
   Entry.resolve_eq_ok.2 ⟨_,hpath.1,rfl⟩
  rw [Entry.names,Entry.lookup_of_find hpla rfl hpath.2]
  exact congrArg Except.ok (mergeSort_of_pairwise hsort)
 refine ⟨_,h,(latest_version h none).2 1 le_rfl (by decide +kernel) (by omega) fun s => ?_⟩
 simp only [mem_cons,not_mem_nil,or_false]
 constructor
 · rintro (rfl | rfl)
   · exact ⟨1,by decide,by decide,by decide +kernel⟩
   · exact ⟨2,by decide,by decide,by decide +kernel⟩
 · rintro ⟨j,hj,hle,rfl⟩
   obtain rfl | rfl : j = 1 ∨ j = 2 := by omega
   · exact .inl (by decide +kernel)
   · exact .inr (by decide +kernel)

end Checkpoint
end MotifMatch
