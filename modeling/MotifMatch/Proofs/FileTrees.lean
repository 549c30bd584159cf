import MotifMatch.Files.Tree
import MotifMatch.Proofs.Lines

namespace MotifMatch.Path
open List Text Option
open String (startsWith_string_iff toList_append ofList_toList startsWith_string_eq_false_iff toList_inj)
variable {a b p s : String}

lemma mem_parts (h : s ∈ parts p) : '/' ∉ s.toList ∧ s ≠ "" ∧ s ≠ "." := by
 obtain ⟨hs,hkept⟩ := mem_filter.1 h
 obtain ⟨piece,hpie,rfl⟩ := mem_map.1 hs
 rw [String.toList_ofList]
 exact ⟨not_mem_of_mem_splitChars hpie,by simpa using hkept⟩

lemma parts_append (a b : String) : parts (a ++ "/" ++ b) = parts a ++ parts b := by
 have hlist : (a ++ "/" ++ b).toList = a.toList ++ '/' :: b.toList := by simp
 rw [parts,Text.splitOn,hlist,splitChars_append,map_append,filter_append]
 rfl

lemma parts_empty : parts "" = [] := by decide

lemma parts_intercalate {ps : List String} (h : ∀ s ∈ ps, '/' ∉ s.toList ∧ s ≠ "" ∧ s ≠ ".") :
 parts ("/".intercalate ps) = ps := by
 by_cases hps : ps = []
 · rw [hps,String.intercalate_nil,parts_empty]
 · have hspl : splitOn '/' ("/".intercalate ps) = ps := splitOn_intercalate hps fun s hs => (h s hs).1
   rw [parts,hspl,filter_eq_self]
   intro s hs
   simp [(h s hs).2]

lemma parts_slashed (p : String) : parts ("/".intercalate (parts p)) = parts p :=
 parts_intercalate fun _ => mem_parts

lemma startsWith_root_append (a b : String) :
 (a ++ "/" ++ b).startsWith root = a.startsWith root := by
 have hlist : (a ++ "/" ++ b).toList = a.toList ++ '/' :: b.toList := by simp
 rw [Bool.eq_iff_iff,startsWith_string_iff,startsWith_string_iff,hlist]
 exact ⟨prefix_of_prefix_append (by decide),fun h => h.trans (prefix_append _ _)⟩

lemma startsWith_slash_append (ha : a ≠ "") (b : String) :
 (a ++ b).startsWith "/" = a.startsWith "/" := by
 obtain ⟨c,cs,hcs⟩ := exists_cons_of_ne_nil (mt String.toList_eq_nil_iff.1 ha)
 rw [Bool.eq_iff_iff,startsWith_string_iff,startsWith_string_iff,toList_append,hcs]
 simp [cons_prefix_cons]

lemma isAbsolute_append (ha : a ≠ "") (b : String) : isAbsolute (a ++ "/" ++ b) = isAbsolute a := by
 rw [isAbsolute,isAbsolute,startsWith_root_append,String.append_assoc,startsWith_slash_append ha]

lemma fromRoot?_root_append (b : String) : fromRoot? (root ++ "/" ++ b) = some (parts b) := by
 have hsta : (root ++ "/" ++ b).startsWith (root ++ "/") := by
  rw [startsWith_string_iff]
  exact ⟨b.toList,toList_append.symm⟩
 have hdrop : (root ++ "/" ++ b).toList.drop root.length = ("" ++ "/" ++ b).toList := by
  have hlen : root.length = root.toList.length := String.length_toList.symm
  rw [String.append_assoc,toList_append,hlen,drop_left,String.empty_append]
 rw [fromRoot?,if_pos (by simp [hsta]),hdrop,ofList_toList,parts_append,parts_empty,nil_append]

lemma fromRoot?_of_ne (hne : p ≠ root) (hnot : p.startsWith (root ++ "/") = false) :
 fromRoot? p = if isAbsolute p then none else some (parts p) := by
 rw [fromRoot?,if_neg]
 rw [hnot,Bool.or_false,decide_eq_true_iff]
 exact hne

lemma fromRoot?_of_slash (h : p.startsWith "/") : fromRoot? p = none := by
 obtain ⟨cs,hcs⟩ := startsWith_string_iff.1 h
 have hnot : p.startsWith (root ++ "/") = false := by
  rw [startsWith_string_eq_false_iff,← hcs]
  simp [root,cons_prefix_cons]
 have hne : p ≠ root := by
  rintro rfl
  simp [root] at hcs
 rw [fromRoot?_of_ne hne hnot,isAbsolute,h]
 rfl

lemma startsWith_below_append (ha : a ≠ root) (b : String) :
 (a ++ "/" ++ b).startsWith (root ++ "/") = a.startsWith (root ++ "/") := by
 have hlist : (a ++ "/" ++ b).toList = a.toList ++ '/' :: b.toList := by simp
 have hbel : (root ++ "/").toList = root.toList ++ ['/'] := by simp
 rw [Bool.eq_iff_iff,startsWith_string_iff,startsWith_string_iff,hlist,hbel]
 refine ⟨fun h => ?_,fun h => h.trans (prefix_append _ _)⟩
 have hroot := (prefix_append _ _).trans h
 obtain ⟨cs,hcs⟩ := prefix_of_prefix_append (by decide) hroot
 cases cs with
 | nil => exact absurd (toList_inj.1 (by simpa using hcs.symm)) ha
 | cons c cs =>
  -- the character after the root is the slash
  rw [← hcs,append_assoc,prefix_append_right_inj,cons_append,cons_prefix_cons] at h
  rw [← hcs,← h.1]
  exact (prefix_append_right_inj _).2 ⟨cs,rfl⟩

lemma fromRoot?_append (ha : a ≠ "") (b : String) :
 fromRoot? (a ++ "/" ++ b) = (fromRoot? a).map (· ++ parts b) := by
 by_cases hroot : a = root
 · subst hroot
   rw [fromRoot?_root_append]
   rfl
 cases hbel : a.startsWith (root ++ "/") with
 | true =>
  obtain ⟨cs,hcs⟩ := startsWith_string_iff.1 hbel
  obtain ⟨c,rfl⟩ : ∃ c, a = root ++ "/" ++ c := ⟨String.ofList cs,by rw [← toList_inj,← hcs]; simp⟩
  have hass : root ++ "/" ++ c ++ "/" ++ b = root ++ "/" ++
   (c ++ "/" ++ b) := by simp [String.append_assoc]
  rw [hass,fromRoot?_root_append,fromRoot?_root_append,parts_append]
  rfl
 | false =>
  have hne : a ++ "/" ++ b ≠ root := by
   intro heq
   have hsla : '/' ∈ (a ++ "/" ++ b).toList := by simp
   rw [heq] at hsla
   exact absurd hsla (by decide)
  rw [fromRoot?_of_ne hne ((startsWith_below_append hroot b).trans hbel),fromRoot?_of_ne hroot hbel,
   isAbsolute_append ha,parts_append]
  cases isAbsolute a <;> rfl

section
variable {name : String} {ps : List String}

structure FileName (s : String) : Prop where
 slashless : '/' ∉ s.toList
 head : ∃ c cs, s.toList = c :: cs ∧ c ≠ '.' ∧ c ≠ '$'

section
variable (h : FileName s)
include h

lemma FileName.ne_empty : s ≠ "" := by
 rintro rfl
 obtain ⟨c,cs,hcs,_⟩ := h.head
 simp at hcs

lemma FileName.ne_dots : s ≠ "." ∧ s ≠ ".." := by
 obtain ⟨c,cs,hcs,hdot,_⟩ := h.head
 constructor <;> rintro rfl <;> simp at hcs <;> exact hdot hcs.1.symm

lemma FileName.parts : parts s = [s] := by
 have hspl : splitOn '/' s = [s] := by
  rw [Text.splitOn,splitChars_of_not_mem h.slashless,map_singleton,ofList_toList]
 rw [Path.parts,hspl]
 simp [h.ne_empty,h.ne_dots.1]

lemma FileName.isAbsolute : isAbsolute s = false := by
 obtain ⟨c,cs,hcs,_,hroot⟩ := h.head
 have hsla : c ≠ '/' := fun hc => h.slashless (by simp [hcs,hc])
 rw [Path.isAbsolute,Bool.or_eq_false_iff,startsWith_string_eq_false_iff,
  startsWith_string_eq_false_iff,hcs]
 constructor
 · simpa [cons_prefix_cons] using hsla.symm
 · simpa [cons_prefix_cons,root] using fun hc => absurd hc.symm hroot

lemma fromRoot?_fileName : fromRoot? s = some [s] := by
 have hne : s ≠ root := by
  rintro rfl
  exact absurd h.isAbsolute (by simp [isAbsolute])
 have hnot : s.startsWith (root ++ "/") = false := by
  rw [startsWith_string_eq_false_iff]
  exact fun hpre => h.slashless (hpre.subset (by simp))
 rw [fromRoot?_of_ne hne hnot,h.isAbsolute,h.parts]
 rfl

end

lemma endsWith_iff {w : String} : s.endsWith w ↔ w.toList <:+ s.toList := by
 simp [← String.endsWith_toSlice]

lemma join_cases (a : String) (h : FileName name) :
 (a = "" ∧ join a name = name) ∨ (∃ b, a = b ++ "/" ∧ join a name = b ++ "/" ++ name) ∨
  (a ≠ "" ∧ join a name = a ++ "/" ++ name) := by
 rw [join,h.isAbsolute,if_neg Bool.false_ne_true]
 by_cases ha : a = ""
 · subst ha
   exact .inl ⟨rfl,by simp⟩
 · cases hend : a.endsWith "/" with
   | true =>
    obtain ⟨cs,hcs⟩ := endsWith_iff.1 hend
    have hb : a = String.ofList cs ++ "/" := by rw [← toList_inj,← hcs]; simp
    exact .inr (.inl ⟨String.ofList cs,hb,by simp [← hb]⟩)
   | false => exact .inr (.inr ⟨ha,by simp [ha]⟩)

lemma fromRoot?_join (h : FileName name) (ha : fromRoot? a = some ps) : fromRoot? (join a name) =
 some (ps ++ [name]) := by
 rcases join_cases a h with ⟨rfl,hjoin⟩ | ⟨b,rfl,hjoin⟩ | ⟨hne,hjoin⟩
 · obtain rfl : [] = ps := some.inj (ha ▸ rfl)
   rw [hjoin,fromRoot?_fileName h,nil_append]
 · by_cases hb : b = ""
   · subst hb
     rw [fromRoot?_of_slash (by simp)] at ha
     cases ha
   · have hsla : b ++ "/" = b ++ "/" ++ "" := by simp
     rw [hsla,fromRoot?_append hb,parts_empty,map_eq_some_iff] at ha
     obtain ⟨qs,hqs,rfl⟩ := ha
     rw [hjoin,fromRoot?_append hb,hqs,h.parts,append_nil,map_some]
 · rw [hjoin,fromRoot?_append hne,ha,h.parts,map_some]

lemma namesFolder_append (a : String) (h : FileName name) : namesFolder (a ++ name) = false := by
 obtain ⟨c,cs,hcs,hdot,_⟩ := h.head
 have hsla : c ≠ '/' := fun hc => h.slashless (by simp [hcs,hc])
 have hend : name.toList <:+ (a ++ name).toList := ⟨a.toList,toList_append.symm⟩
 rw [namesFolder,Bool.or_eq_false_iff,← Bool.not_eq_true,← Bool.not_eq_true,endsWith_iff,
  endsWith_iff]
 constructor
 · intro hsuf
   rcases suffix_or_suffix_of_suffix hsuf hend with h' | h'
   · exact h.slashless (h'.subset (by simp))
   · simp [hcs,suffix_cons_iff,hsla] at h'
 · intro hsuf
   rcases suffix_or_suffix_of_suffix hsuf hend with h' | h'
   · exact h.slashless (h'.subset (by simp))
   · simp [hcs,suffix_cons_iff,hsla,hdot] at h'

lemma namesFolder_join (a : String) (h : FileName name) : namesFolder (join a name) = false := by
 rcases join_cases a h with ⟨_,hjoin⟩ | ⟨b,_,hjoin⟩ | ⟨_,hjoin⟩
 · simpa [hjoin] using namesFolder_append "" h
 · rw [hjoin,namesFolder_append _ h]
 · rw [hjoin,namesFolder_append _ h]

end

variable {ps : List String} {name : String}

lemma tidy_of_relative (h : p.startsWith "/" = false) (hne : parts p ≠ []) :
 tidy p = "/".intercalate (parts p) := by
 have hdou : p.startsWith "//" = false := by
  rw [startsWith_string_eq_false_iff] at h ⊢
  exact fun hpre => h (IsPrefix.trans ⟨['/'],by simp⟩ hpre)
 have hbody : "/".intercalate (parts p) ≠ "" := by
  intro hemp
  have hpar := parts_slashed p
  rw [hemp,parts_empty] at hpar
  exact hne hpar.symm
 simp [tidy,h,hdou,hbody]

lemma tidy_of_slash (h : p.startsWith "/") : (tidy p).startsWith "/" := by
 simp only [tidy,h]
 cases p.startsWith "//" && !p.startsWith "///" <;> simp [cons_prefix_cons]

lemma isAbsolute_slashed (hs : s ≠ "") : isAbsolute ("/".intercalate (s :: ps)) = isAbsolute s := by
 by_cases hps : ps = []
 · rw [hps,String.intercalate_singleton]
 · rw [String.intercalate_cons_of_ne_nil hps,isAbsolute_append hs]

lemma fromRoot?_slashed (h : ∀ t ∈ s :: ps, '/' ∉ t.toList ∧ t ≠ "" ∧ t ≠ ".") :
 fromRoot? ("/".intercalate (s :: ps)) = (fromRoot? s).map (· ++ ps) := by
 by_cases hps : ps = []
 · simp [hps]
 · rw [String.intercalate_cons_of_ne_nil hps,fromRoot?_append (h s (by simp)).2.1,
    parts_intercalate fun t ht => h t (by simp [ht])]

lemma parts_of_root (h : p.startsWith root) : ∃ t ts, parts p = t :: ts ∧ t.startsWith root := by
 obtain ⟨cs,hcs⟩ := startsWith_string_iff.1 h
 have hsla : '/' ∉ root.toList := by decide
 obtain ⟨piece,pieces,hspl⟩ := splitChars_append_left hsla cs
 refine ⟨root ++ String.ofList piece,(pieces.map String.ofList).filter fun t => t != "" &&
  t != ".",?_,?_⟩
 · have hkept : (root ++ String.ofList piece != "" && root ++ String.ofList piece != ".") := by
    simp [← toList_inj,root]
   rw [parts,Text.splitOn,← hcs,hspl,map_cons,String.ofList_append,ofList_toList,filter_cons,
    if_pos hkept]
 · rw [startsWith_string_iff]
   exact ⟨piece,by simp⟩

lemma startsWith_slash_of_root (h : p.startsWith root) : p.startsWith "/" = false := by
 obtain ⟨cs,hcs⟩ := startsWith_string_iff.1 h
 rw [startsWith_string_eq_false_iff,← hcs]
 simp [root,cons_prefix_cons]

lemma under_of_relative {folder : String} (hfol : folder.startsWith "/" = false)
 (hpar : parts folder = [folder])
 (h : isAbsolute p = false) : under folder p = "/".intercalate (folder :: parts p) := by
 have hne : folder ≠ "" := fun hemp => by simp [hemp,parts_empty] at hpar
 have hall : parts (folder ++ "/" ++ p) = folder ::
  parts p := by rw [parts_append,hpar,singleton_append]
 have hsla : (folder ++ "/" ++ p).startsWith "/" = false := by
  rw [String.append_assoc,startsWith_slash_append hne,hfol]
 rw [under,h,if_neg Bool.false_ne_true,tidy_of_relative hsla (by simp [hall]),hall]

lemma ofProject_of_relative (h : isAbsolute p = false) :
 ofProject p = "/".intercalate (root :: project :: parts p) := by
 have hnam : FileName project := ⟨by decide,'g',"lema".toList,by decide,by decide,by decide⟩
 have hpar : parts (project ++ "/" ++ p) = project ::
  parts p := by rw [parts_append,hnam.parts,singleton_append]
 have hpro :=
  under_of_relative (by simp [project,cons_prefix_cons]) hnam.parts h
 have habs : isAbsolute (under project p) =
  false := by rw [hpro,isAbsolute_slashed hnam.ne_empty,hnam.isAbsolute]
 rw [ofProject,ofRoot,under_of_relative (startsWith_slash_of_root (by simp)) (by decide) habs,
  hpro,← hpar,
  parts_slashed]

lemma ofProject_of_root (h : p.startsWith root) : ofProject p = "/".intercalate (parts p) := by
 have habs : ∀ {q : String}, q.startsWith root → isAbsolute q :=
  fun hq => by rw [isAbsolute,hq,Bool.or_true]
 obtain ⟨t,ts,hts,ht⟩ := parts_of_root h
 have hsta : ("/".intercalate (t :: ts)).startsWith root := by
  by_cases hnil : ts = []
  · rw [hnil,String.intercalate_singleton,ht]
  · rw [String.intercalate_cons_of_ne_nil hnil,startsWith_root_append,ht]
 have htidy : tidy p = "/".intercalate (t :: ts) := by
  rw [tidy_of_relative (startsWith_slash_of_root h) (by simp [hts]),hts]
 have hpar := hts ▸ parts_slashed p
 rw [ofProject,ofRoot,under,under,if_pos (habs h),if_pos (habs (htidy ▸ hsta)),htidy,
  tidy_of_relative (startsWith_slash_of_root hsta) (by simp [hpar]),hpar,hts]

lemma fromRoot?_ofProject_of_slash (h : p.startsWith "/") : fromRoot? (ofProject p) = none := by
 have habs : ∀ {q : String}, q.startsWith "/" → isAbsolute q :=
  fun hq => by rw [isAbsolute,hq,Bool.true_or]
 rw [ofProject,ofRoot,under,under,if_pos (habs h),if_pos (habs (tidy_of_slash h))]
 exact fromRoot?_of_slash (tidy_of_slash (tidy_of_slash h))

lemma fromRoot?_ofProject_of_relative (h : isAbsolute p = false) : fromRoot? (ofProject p) =
 some (project :: parts p) := by
 have hmem : ∀ x ∈ root :: project :: parts p, '/' ∉ x.toList ∧ x ≠ "" ∧ x ≠ "." := by
  intro x hx
  rcases mem_cons.1 hx with rfl | hx
  · decide
  rcases mem_cons.1 hx with rfl | hx
  · decide
  · exact mem_parts hx
 rw [ofProject_of_relative h,fromRoot?_slashed hmem]
 rfl

lemma fromRoot?_ofProject_append (hp : p ≠ "") (q : String) :
 fromRoot? (ofProject (p ++ "/" ++ q)) = (fromRoot? (ofProject p)).map (· ++ parts q) := by
 cases hsla : p.startsWith "/" with
 | true =>
  rw [fromRoot?_ofProject_of_slash hsla,fromRoot?_ofProject_of_slash]
  · rfl
  · rw [String.append_assoc,startsWith_slash_append hp,hsla]
 | false =>
  cases hroot : p.startsWith root with
  | true =>
   obtain ⟨t,ts,hts,_⟩ := parts_of_root hroot
   have hmem : ∀ x ∈ t :: (ts ++ parts q), '/' ∉ x.toList ∧ x ≠ "" ∧ x ≠ "." := by
    rw [← cons_append,← hts,← parts_append]
    exact fun _ => mem_parts
   rw [ofProject_of_root hroot,ofProject_of_root ((startsWith_root_append p q).trans hroot),
    parts_append,hts,
    cons_append,fromRoot?_slashed hmem,fromRoot?_slashed (hts ▸ fun _ => mem_parts),Option.map_map]
   simp [Function.comp_def]
  | false =>
   have habs : isAbsolute p = false := by rw [isAbsolute,hsla,hroot,Bool.or_false]
   rw [fromRoot?_ofProject_of_relative habs,fromRoot?_ofProject_of_relative
    ((isAbsolute_append hp q).trans habs),
    parts_append]
   rfl

lemma namesFolder_slashed (h : FileName name) (ps : List String) :
 namesFolder ("/".intercalate (ps ++ [name])) = false := by
 by_cases hps : ps = []
 · simpa [hps] using namesFolder_append "" h
 · rw [String.intercalate_append_of_ne_nil hps (cons_ne_nil _ _),String.intercalate_singleton,
    namesFolder_append _ h]

lemma namesFolder_ofProject (h : FileName name) (hp : p ≠ "")
 (hps : fromRoot? (ofProject p) = some ps) :
 namesFolder (ofProject (p ++ "/" ++ name)) = false := by
 have hpar : parts (p ++ "/" ++ name) = parts p ++ [name] := by rw [parts_append,h.parts]
 cases hsla : p.startsWith "/" with
 | true =>
  rw [fromRoot?_ofProject_of_slash hsla] at hps
  cases hps
 | false =>
  cases hroot : p.startsWith root with
  | true =>
   rw [ofProject_of_root ((startsWith_root_append p name).trans hroot),hpar,namesFolder_slashed h]
  | false =>
   have habs : isAbsolute p = false := by rw [isAbsolute,hsla,hroot,Bool.or_false]
   rw [ofProject_of_relative ((isAbsolute_append hp name).trans habs),hpar]
   exact namesFolder_slashed h (root :: project :: parts p)

lemma fromRoot?_ofProject_join (h : FileName name) (hps : fromRoot? (ofProject p) = some ps) :
 fromRoot? (ofProject (join p name)) = some (ps ++ [name]) ∧
  namesFolder (ofProject (join p name)) = false := by
 rcases join_cases p h with ⟨rfl,hjoin⟩ | ⟨b,rfl,hjoin⟩ | ⟨hne,hjoin⟩
 · have hemp : isAbsolute "" = false := by
    rw [isAbsolute,Bool.or_eq_false_iff,startsWith_string_eq_false_iff,startsWith_string_eq_false_iff]
    decide
   obtain rfl : [project] = ps := some.inj ((fromRoot?_ofProject_of_relative hemp).symm.trans hps)
   rw [hjoin,fromRoot?_ofProject_of_relative h.isAbsolute,ofProject_of_relative h.isAbsolute,h.parts]
   exact ⟨rfl,namesFolder_slashed h [root,project]⟩
 · by_cases hb : b = ""
   · subst hb
     rw [fromRoot?_ofProject_of_slash (by simp)] at hps
     cases hps
   · have hsla : b ++ "/" = b ++ "/" ++ "" := by simp
     rw [hsla,fromRoot?_ofProject_append hb,parts_empty,map_eq_some_iff] at hps
     obtain ⟨qs,hqs,rfl⟩ := hps
     rw [hjoin,fromRoot?_ofProject_append hb,hqs,h.parts,append_nil]
     exact ⟨rfl,namesFolder_ofProject h hb hqs⟩
 · rw [hjoin,fromRoot?_ofProject_append hne,hps,h.parts]
   exact ⟨rfl,namesFolder_ofProject h hne hps⟩

lemma FileName.append (h : FileName s) {t : String} (ht : '/' ∉ t.toList) : FileName (s ++ t) := by
 obtain ⟨c,cs,hcs,hdot,hroot⟩ := h.head
 refine ⟨?_,c,cs ++ t.toList,by rw [toList_append,hcs,cons_append],hdot,hroot⟩
 rw [toList_append,mem_append,not_or]
 exact ⟨h.slashless,ht⟩

lemma tidy_ne_empty (p : String) : tidy p ≠ "" := by
 rw [tidy]
 split
 · simp
 split
 · simp
 split
 · decide
 · next h => simpa using h

lemma ofProject_ne_empty (p : String) : ofProject p ≠ "" := by
 rw [ofProject,ofRoot,under]
 split <;> exact tidy_ne_empty _

end MotifMatch.Path

namespace MotifMatch.Entry
open List MotifMatch.Path Option
variable {top top' new c : Entry} {es : List (String × Entry)} {name m : String} {d : List String}

lemma child?_setChild (name m : String) (e : Entry) (es : List (String × Entry)) :
 (folder (setChild name e es)).child? m = if m = name then some e else (folder es).child? m := by
 induction es with
 | nil =>
  by_cases h : m = name
  · simp [child?,children,setChild,h]
  · simp [child?,children,setChild,h,Ne.symm h]
 | cons c es ih =>
  simp only [child?,children] at ih ⊢
  by_cases hc : c.1 = name
  · by_cases h : m = name
    · simp [setChild,hc,h]
    · simp [setChild,hc,h,Ne.symm h]
  · by_cases hm : c.1 = m
    · have hne : m ≠ name := fun h => hc (hm.trans h)
      simp [setChild,hm,hne]
    · simp [setChild,hc,hm,ih]

lemma find_cons_eq_ok {p : List String} {e : Entry} : top.find (m :: p) = .ok e ↔
 top.isFolder ∧ ∃ c, top.child? m = some c ∧ c.find p = .ok e := by
 cases top with
 | folder es =>
  rw [find]
  cases (folder es).child? m <;> simp [isFolder]
 | _ => simp [find,isFolder]

lemma find_append (top : Entry) (p q : List String) :
 top.find (p ++ q) = (top.find p).bind fun c => c.find q := by
 induction p generalizing top with
 | nil => rfl
 | cons m p ih =>
  cases top with
  | folder es =>
   rw [cons_append,find,find]
   cases (folder es).child? m with
   | none => rfl
   | some c => exact ih c
  | _ => rfl

lemma find_concat (h : top.find d = .ok (.folder es)) : top.find (d ++ [name]) =
 match (folder es).child? name with
 | some c => .ok c
 | none => .error .fileNotFound := by
 rw [find_append,h]
 rfl

def Keeps (top top' : Entry) : Prop :=
 ∀ d es, top.find d = .ok (.folder es) → ∃ es', top'.find d = .ok (.folder es')

lemma Keeps.refl (top : Entry) : Keeps top top := fun _ es h => ⟨es,h⟩

lemma Keeps.trans {top'' : Entry} (h : Keeps top top') (h' : Keeps top' top'') : Keeps top top'' :=
 fun d es hd =>
 let ⟨es',hes'⟩ := h d es hd
 h' d es' hes'

lemma keeps_of_not_folder (h : c.isFolder = false) : Keeps c new := by
 intro d es hd
 cases d with
 | nil =>
  cases hd
  cases h
 | cons m d => exact absurd (find_cons_eq_ok.1 hd).1 (by simp [h])

lemma Keeps.setChild (h : ∀ c, (folder es).child? m = some c → Keeps c new) :
 Keeps (folder es) (folder (setChild m new es)) := by
 intro d es' hd
 cases d with
 | nil => exact ⟨_,rfl⟩
 | cons n d =>
  obtain ⟨_,c,hc,hfind⟩ := find_cons_eq_ok.1 hd
  by_cases hn : n = m
  · obtain ⟨es'',hes''⟩ := h c (hn ▸ hc) d es' hfind
    exact ⟨es'',find_cons_eq_ok.2 ⟨rfl,new,by rw [child?_setChild,if_pos hn],hes''⟩⟩
  · exact ⟨es',find_cons_eq_ok.2 ⟨rfl,c,by rw [child?_setChild,if_neg hn,hc],hfind⟩⟩

section
variable {p q : List String}

def Apart (p q : List String) : Prop := ¬p <+: q ∧ ¬q <+: p

lemma Apart.append (h : Apart p q) (r : List String) : Apart (p ++ r) q :=
 ⟨fun hpre => h.1 ((prefix_append p r).trans hpre),
  fun hpre => ( prefix_or_prefix_of_prefix (prefix_append p r) hpre).elim h.1 h.2⟩

lemma Apart.symm (h : Apart p q) : Apart q p := ⟨h.2,h.1⟩

lemma apart_siblings {m n : String} (h : m ≠ n) (d : List String) : Apart (d ++ [m]) (d ++ [n]) := by
 constructor <;> rw [prefix_append_right_inj] <;> simp [h,h.symm]

def Spares (top : Entry) (p : List String) (top' : Entry) : Prop :=
 ∀ q, Apart p q → top'.find q = top.find q

lemma Spares.refl (top : Entry) (p : List String) : Spares top p top := fun _ _ => rfl

lemma Spares.trans {top'' : Entry} (h : Spares top p top') (h' : Spares top' p top'') :
 Spares top p top'' :=
 fun q hq => (h' q hq).trans (h q hq)

lemma Spares.of_append {r : List String} (h : Spares top (p ++ r) top') : Spares top p top' :=
 fun q hq => h q (hq.append r)

lemma put_cons_ok {n : String} (h : put new (n :: p) top = .ok top') : ∃ es c c', top = .folder es ∧
 top' = .folder (setChild n c' es) ∧ put new p c = .ok c' ∧
  (p = [] ∨ (folder es).child? n = some c) := by
 cases top with
 | folder es =>
  cases p with
  | nil =>
   cases h
   exact ⟨es,new,new,rfl,rfl,rfl,.inl rfl⟩
  | cons k p =>
   unfold put at h
   cases hc : (folder es).child? n with
   | none => simp [hc] at h
   | some c =>
    simp only [hc] at h
    cases hput : put new (k :: p) c with
    | error e => simp [hput,bind,Except.bind] at h
    | ok c' =>
     rw [hput] at h
     cases h
     exact ⟨es,c,c',rfl,rfl,hput,.inr hc⟩
 | _ => cases h

lemma find_put (h : put new p top = .ok top') : top'.find p = .ok new := by
 induction p generalizing top top' with
 | nil =>
  cases h
  rfl
 | cons n p ih =>
  obtain ⟨es,c,c',rfl,rfl,hput,_⟩ := put_cons_ok h
  exact find_cons_eq_ok.2 ⟨rfl,c',by rw [child?_setChild,if_pos rfl],ih hput⟩

lemma keeps_put (h : put new p top = .ok top')
 (hfree : ∀ c, top.find p = .ok c → c.isFolder = false) : Keeps top top' := by
 induction p generalizing top top' with
 | nil => exact keeps_of_not_folder (hfree top rfl)
 | cons n p ih =>
  obtain ⟨es,c,c',rfl,rfl,hput,hchi⟩ := put_cons_ok h
  refine .setChild fun x hx => ?_
  have hfree' := fun y hy => hfree y (find_cons_eq_ok.2 ⟨rfl,x,hx,hy⟩)
  rcases hchi with rfl | hc
  · exact keeps_of_not_folder (hfree' x rfl)
  · obtain rfl : c = x := some.inj (hc.symm.trans hx)
    exact ih hput hfree'

lemma spares_put (h : put new p top = .ok top') : Spares top p top' := by
 intro q hq
 induction p generalizing top top' q with
 | nil => exact absurd nil_prefix hq.1
 | cons n p ih =>
  obtain ⟨es,c,c',rfl,rfl,hput,hchi⟩ := put_cons_ok h
  cases q with
  | nil => exact absurd nil_prefix hq.2
  | cons m q =>
   by_cases hm : m = n
   · subst hm
     have hres : Apart p q := ⟨fun hpre => hq.1 (cons_prefix_cons.2 ⟨rfl,hpre⟩),
      fun hpre => hq.2 (cons_prefix_cons.2 ⟨rfl,hpre⟩)⟩
     rcases hchi with rfl | hc
     · exact absurd nil_prefix hres.1
     · rw [find,find,child?_setChild,if_pos rfl,hc]
       exact ih hput q hres
   · rw [find,find,child?_setChild,if_neg hm]

end

lemma put_concat (new : Entry) (h : top.find d = .ok (.folder es))
 (hfree : ∀ c, (folder es).child? name = some c → c.isFolder
 = false) :
 ∃ top', put new (d ++ [name]) top = .ok top' ∧ top'.find d = .ok (.folder (setChild name new es)) ∧
  Keeps top top' := by
 induction d generalizing top with
 | nil =>
  cases h
  exact ⟨_,rfl,rfl,.setChild fun c hc => keeps_of_not_folder (hfree c hc)⟩
 | cons m d ih =>
  obtain ⟨htop,c,hc,hfind⟩ := find_cons_eq_ok.1 h
  obtain ⟨c',hput,hfin',hkee⟩ := ih hfind
  cases top with
  | folder es₀ =>
   refine ⟨.folder (setChild m c' es₀),?_,?_,.setChild fun x hx => ?_⟩
   · obtain ⟨n,rest,hres⟩ : ∃ n rest, d ++ [name] = n :: rest := exists_cons_of_ne_nil (by simp)
     rw [cons_append,hres]
     unfold put
     rw [hres] at hput
     simp only [hc,hput]
     rfl
   · rw [find_cons_eq_ok]
     exact ⟨rfl,c',by rw [child?_setChild,if_pos rfl],hfin'⟩
   · obtain rfl : c = x := some.inj (hc.symm.trans hx)
     exact hkee
  | _ => cases htop

section
variable {here p q : List String}

lemma resolveFrom_names (top : Entry) (here : List String) (hq : ∀ s ∈ q, s ≠ "..") :
 top.resolveFrom here q = .ok (here.reverse ++ q) := by
 induction q generalizing here with
 | nil => simp [resolveFrom]
 | cons n q ih =>
  rw [resolveFrom,ih (n :: here) fun s hs => hq s (by simp [hs])]
  · simp
  · exact hq n (by simp)

lemma resolveFrom_append (hkee : Keeps top top') (h : top.resolveFrom here p = .ok d)
 (hq : ∀ s ∈ q, s ≠ "..") :
 top'.resolveFrom here (p ++ q) = .ok (d ++ q) := by
 fun_induction resolveFrom top here p with
 | case1 here =>
  cases h
  rw [nil_append,resolveFrom_names top' here hq]
 | case3 rest es n up hfind ih =>
  obtain ⟨es',hes'⟩ := hkee _ _ hfind
  unfold resolveFrom
  simp only [cons_append,hes']
  exact ih h
 | case6 here n rest hn ih =>
  rw [cons_append,resolveFrom]
  · exact ih h
  · exact hn
 | case2 | case4 | case5 => cases h

lemma resolveFrom_concat {n : String} (hn : n ≠ "..") (h : top.resolveFrom here (p ++ [n]) = .ok d) :
 ∃ e, top.resolveFrom here p = .ok e ∧ d = e ++ [n] := by
 fun_induction resolveFrom top here p with
 | case1 here =>
  rw [nil_append,resolveFrom_names top here (by simpa using hn)] at h
  exact ⟨_,rfl,(Except.ok.inj h).symm⟩
 | case6 here n rest hn ih =>
  rw [cons_append,resolveFrom] at h
  · exact ih h
  · exact hn
 | _ =>
  unfold resolveFrom at h
  simp_all

variable {path p : String}

lemma resolve_eq_ok : top.resolve path = .ok d ↔
 ∃ ps, fromRoot? path = some ps ∧ top.resolveFrom [] ps = .ok d := by
 rw [resolve]
 cases fromRoot? path <;> simp

lemma Keeps.resolve (hkee : Keeps top top') (h : top.resolve path = .ok d) :
 top'.resolve path = .ok d := by
 obtain ⟨ps,hps,hd⟩ := resolve_eq_ok.1 h
 have hd' := resolveFrom_append (q := []) hkee hd (by simp)
 rw [append_nil,append_nil] at hd'
 exact resolve_eq_ok.2 ⟨ps,hps,hd'⟩

lemma resolve_concat {path' : String} (h : top.resolve path = .ok d) (hnam : FileName name)
 (hpar : ∀ ps, fromRoot? path = some ps → fromRoot? path' = some (ps ++ [name])) :
  top.resolve path' = .ok (d ++ [name]) := by
 obtain ⟨ps,hps,hd⟩ := resolve_eq_ok.1 h
 exact resolve_eq_ok.2 ⟨_,hpar ps hps,
  resolveFrom_append (.refl top) hd (by simpa using hnam.ne_dots.2)⟩

lemma resolve_join (h : top.resolve path = .ok d) (hnam : FileName name) :
 top.resolve (join path name) = .ok (d ++ [name]) :=
 resolve_concat h hnam fun _ => fromRoot?_join hnam

lemma resolve_append (hne : path ≠ "") (h : top.resolve path = .ok d) (hnam : FileName name) :
 top.resolve (path ++ "/" ++ name) = .ok (d ++ [name]) := by
 refine resolve_concat h hnam fun ps hps => ?_
 rw [fromRoot?_append hne,hps,hnam.parts]
 rfl

lemma resolve_append_ok (hne : path ≠ "") (hnam : FileName name)
 (h : top.resolve (path ++ "/" ++ name) = .ok d) :
  ∃ e, top.resolve path = .ok e ∧ d = e ++ [name] := by
 obtain ⟨ps,hps,hd⟩ := resolve_eq_ok.1 h
 rw [fromRoot?_append hne,hnam.parts] at hps
 obtain ⟨qs,hqs,rfl⟩ := map_eq_some_iff.1 hps
 obtain ⟨e,he,rfl⟩ := resolveFrom_concat hnam.ne_dots.2 hd
 exact ⟨e,resolve_eq_ok.2 ⟨qs,hqs,he⟩,rfl⟩

lemma resolve_ofProject (hp : p ≠ "") (h : top.resolve (ofProject p) = .ok d)
 (hnam : FileName name) :
 top.resolve (ofProject (p ++ "/" ++ name)) = .ok (d ++ [name]) := by
 refine resolve_concat h hnam fun ps hps => ?_
 rw [fromRoot?_ofProject_append hp,hps,hnam.parts]
 rfl

lemma resolve_ofProject_join (h : top.resolve (ofProject p) = .ok d) (hnam : FileName name) :
 top.resolve (ofProject (join p name)) = .ok (d ++ [name]) :=
 resolve_concat h hnam fun _ hps => (fromRoot?_ofProject_join hnam hps).1

lemma lookup_of_find {path : String} {e : Entry} (h : top.resolve path = .ok d)
 (hfind : top.find d = .ok e)
 (hpath : namesFolder path = false) : top.lookup path = .ok e := by
 simp only [lookup,h,bind,Except.bind,hfind,hpath,Bool.false_and,Bool.false_eq_true,if_false]
 rfl

lemma lookup_of_not_found {path : String} {err : Error} (h : top.resolve path = .ok d)
 (hfind : top.find d = .error err) :
 top.lookup path = .error err := by
 simp only [lookup,h,bind,Except.bind,hfind]

end
end MotifMatch.Entry
