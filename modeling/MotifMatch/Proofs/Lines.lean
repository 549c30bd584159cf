import Mathlib.Tactic.Lemma
import MotifMatch.Listing.Basic

variable {cols : List String} {c : Char} {s : String} {ls : List String}
namespace MotifMatch.Text
open List Nat
variable {cs : List Char}

lemma scanDigits_of_isDigit (h : ∀ c ∈ cs, c.isDigit) (acc n : Nat) :
 scanDigits cs acc n = (ofDigitChars 10 cs acc,n + cs.length,[]) := by
 induction cs generalizing acc n with
 | nil => simp [scanDigits]
 | cons c cs ih =>
  have hc : digit? c = some (c.toNat - 48) := if_pos (h c (by simp))
  unfold scanDigits
  simp only [hc,ih (fun d hd => h d (by simp [hd]))]
  rw [Nat.ofDigitChars_cons,length_cons,Nat.mul_comm acc,Nat.add_assoc,Nat.add_comm 1]
  rfl

theorem wholeDigits?_toDigits (n : Nat) : wholeDigits? (Nat.toDigits 10 n) = some n := by
 have hdig : ∀ c ∈ toDigits 10 n, c.isDigit = true := fun c hc =>
  isDigit_of_mem_toDigits (by decide) (by decide) hc
 obtain ⟨c,cs,hcs⟩ := exists_cons_of_ne_nil toDigits_ne_nil
 rw [wholeDigits?,scanDigits_of_isDigit hdig,ofDigitChars_toDigits (by decide) (by decide),hcs,
  length_cons,Nat.zero_add]

lemma isBlank_of_isDigit (h : c.isDigit) : isBlank c = false := by
 have hran : 48 ≤ c.toNat ∧ c.toNat ≤ 57 := by simpa [Char.isDigit,UInt32.le_iff_toNat_le] using h
 simp [isBlank]
 omega

structure Plain (s : String) : Prop where
 ne_nil : s.toList ≠ []
 unbroken : ∀ c ∈ s.toList, isBlank c = false

lemma plain_iff : Plain s ↔ (!s.toList.isEmpty && s.toList.all fun c => !isBlank c) := by
 simp only [Bool.and_eq_true,all_eq_true,Bool.not_eq_true',isEmpty_eq_false_iff]
 exact ⟨fun h => ⟨h.ne_nil,h.unbroken⟩,fun h => ⟨h.1,h.2⟩⟩

instance (s : String) : Decidable (Plain s) := decidable_of_iff' _ plain_iff

lemma Plain.not_mem (h : Plain s) (hc : isBlank c) : c ∉ s.toList := by
 intro hmem
 rw [h.unbroken c hmem] at hc
 cases hc

lemma strip_of_ends {c d : Char} (hc : isBlank c = false) (hd : isBlank d = false)
 (hlast : (c :: cs).getLast? = some d) : strip (c :: cs) = c :: cs := by
 obtain ⟨ds,hds⟩ := getLast?_eq_some_iff.1 hlast
 rw [strip,dropWhile_cons_of_neg (by simp [hc]),hds,reverse_append,reverse_singleton,
  singleton_append,dropWhile_cons_of_neg (by simp [hd])]
 simp

lemma Plain.strip_eq (h : Plain s) : strip s.toList = s.toList := by
 obtain ⟨c,cs,hcs⟩ := exists_cons_of_ne_nil h.ne_nil
 obtain ⟨d,hd⟩ : ∃ d, (c :: cs).getLast? = some d := ⟨_,getLast?_eq_some_getLast (by simp)⟩
 rw [hcs]
 exact strip_of_ends (h.unbroken c (by simp [hcs])) (h.unbroken d (hcs ▸ mem_of_getLast? hd)) hd

lemma toList_toString_int (i : Int) : (toString i).toList =
 (if 0 ≤ i then [] else ['-']) ++ toDigits 10 i.natAbs := by
 rw [Int.toString_eq_repr,Int.repr_eq_if]
 split
 · next h => rw [toList_repr,nil_append,show i.toNat = i.natAbs by omega]
 · next h =>
   rw [String.toList_append,toList_repr,show (-i).toNat = i.natAbs by omega]
   rfl

lemma mem_toString_int {i : Int} (h : c ∈ (toString i).toList) : c = '-' ∨ c.isDigit := by
 rw [toList_toString_int,mem_append] at h
 rcases h with h | h
 · split at h
   · cases h
   · exact .inl (mem_singleton.1 h)
 · exact .inr (isDigit_of_mem_toDigits (by decide) (by decide) h)

lemma plain_int (i : Int) : Plain (toString i) where
 ne_nil := by
  rw [toList_toString_int]
  simp
 unbroken := by
  intro c hc
  rcases mem_toString_int hc with rfl | hdig
  · decide
  · exact isBlank_of_isDigit hdig

lemma int?_of_head (h : Plain s) (hcs : s.toList = c :: cs)
 (hc : c.isDigit) : int? s = (wholeDigits? s.toList).map Int.ofNat := by
 rw [int?,h.strip_eq,hcs]
 split
 · next heq =>
   obtain rfl := (cons.inj heq).1
   simp at hc
 · next heq =>
   obtain rfl := (cons.inj heq).1
   simp at hc
 · rfl

lemma int?_toString (i : Int) : int? (toString i) = some i := by
 by_cases h : 0 ≤ i
 · have hlist : (toString i).toList = toDigits 10 i.natAbs := by
    rw [toList_toString_int,if_pos h,nil_append]
   obtain ⟨c,cs,hcs⟩ := exists_cons_of_ne_nil (toDigits_ne_nil (n := i.natAbs) (b := 10))
   have hc : c ∈ Nat.toDigits 10 i.natAbs := by simp [hcs]
   rw [int?_of_head (plain_int i) (hlist.trans hcs)
    (isDigit_of_mem_toDigits (by decide) (by decide) hc),hlist,
    wholeDigits?_toDigits,Option.map_some]
   exact congrArg some (by simp only [Int.ofNat_eq_natCast]; omega)
 · have hlist : (toString i).toList = '-' :: toDigits 10 i.natAbs := by
    rw [toList_toString_int,if_neg h]
    rfl
   rw [int?,(plain_int i).strip_eq,hlist]
   simp only [wholeDigits?_toDigits]
   exact congrArg some (show -(i.natAbs : Int) = i by omega)

lemma toString_inj {i j : Int} (h : toString i = toString j) : i = j := by
 have hread := congrArg int? h
 rw [int?_toString,int?_toString] at hread
 exact Option.some.inj hread

variable {sep : Char}

lemma splitChars_of_not_mem (h : sep ∉ cs) : splitChars sep cs = [cs] := by
 induction cs with
 | nil => rfl
 | cons c cs ih =>
  have hc : c ≠ sep := fun hc => h (by simp [hc])
  rw [splitChars,if_neg hc,ih fun hcs => h (by simp [hcs])]

lemma splitChars_append (cs rest : List Char) :
 splitChars sep (cs ++ sep :: rest) = splitChars sep cs ++ splitChars sep rest := by
 induction cs with
 | nil => simp [splitChars]
 | cons c cs ih =>
  rw [cons_append,splitChars,splitChars,ih]
  by_cases hc : c = sep
  · rw [if_pos hc,if_pos hc,cons_append]
  · rw [if_neg hc,if_neg hc]
    obtain ⟨piece,pieces,hpie⟩ := exists_cons_of_ne_nil (splitChars_ne_nil sep cs)
    rw [hpie]
    rfl

lemma splitChars_append_of_not_mem (h : sep ∉ cs) (rest : List Char) :
 splitChars sep (cs ++ sep :: rest) = cs :: splitChars sep rest := by
 rw [splitChars_append,splitChars_of_not_mem h,singleton_append]

lemma splitChars_append_left {w : List Char} (h : sep ∉ w) (cs : List Char) :
 ∃ piece pieces, splitChars sep (w ++ cs) = (w ++ piece) :: pieces := by
 induction w with
 | nil => exact exists_cons_of_ne_nil (splitChars_ne_nil sep cs)
 | cons c w ih =>
  obtain ⟨piece,pieces,hspl⟩ := ih fun hw => h (by simp [hw])
  have hc : c ≠ sep := fun hc => h (by simp [hc])
  exact ⟨piece,pieces,by rw [cons_append,splitChars,if_neg hc,hspl]; rfl⟩

lemma not_mem_of_mem_splitChars {cs piece : List Char} (h : piece ∈ splitChars sep cs) :
 sep ∉ piece := by
 induction cs generalizing piece with
 | nil => simp [mem_singleton.1 h]
 | cons c cs ih =>
  obtain ⟨head,pieces,hpie⟩ := exists_cons_of_ne_nil (splitChars_ne_nil sep cs)
  rw [hpie] at ih
  by_cases hc : c = sep
  · rw [splitChars,if_pos hc,hpie] at h
    rcases mem_cons.1 h with rfl | h
    · simp
    · exact ih h
  · rw [splitChars,if_neg hc,hpie] at h
    rcases mem_cons.1 h with rfl | h
    · simpa [Ne.symm hc] using ih mem_cons_self
    · exact ih (mem_cons_of_mem _ h)

lemma splitChars_intercalate {pieces : List (List Char)} (hne : pieces ≠ [])
 (h : ∀ cs ∈ pieces, sep ∉ cs) :
 splitChars sep ([sep].intercalate pieces) = pieces := by
 induction pieces with
 | nil => exact absurd rfl hne
 | cons cs pieces ih =>
  by_cases hp : pieces = []
  · rw [hp,intercalate_singleton,splitChars_of_not_mem (h cs (by simp))]
  · rw [intercalate_cons_of_ne_nil hp,append_assoc,singleton_append,
     splitChars_append_of_not_mem (h cs (by simp)),
     ih hp fun ds hds => h ds (by simp [hds])]

lemma splitOn_intercalate (hne : cols ≠ []) (h : ∀ s ∈ cols, sep ∉ s.toList) :
 splitOn sep (String.intercalate (String.singleton sep) cols) = cols := by
 rw [splitOn,String.toList_intercalate,String.toList_singleton,
  splitChars_intercalate (by simpa using hne)]
 · simp [Function.comp_def]
 · intro cs hcs
   obtain ⟨s,hs,rfl⟩ := mem_map.1 hcs
   exact h s hs

lemma splitOn_pair {m s t : String} (hm : m.toList = [sep]) (hs : sep ∉ s.toList)
 (ht : sep ∉ t.toList) :
 splitOn sep (s ++ m ++ t) = [s,t] := by
 have hjoin : s ++ m ++ t = (String.singleton sep).intercalate [s,t] := by
  rw [← String.toList_inj,String.toList_intercalate]
  simp [hm]
 have hcols : ∀ u ∈ [s,t], sep ∉ u.toList := by simpa using ⟨hs,ht⟩
 rw [hjoin]
 exact splitOn_intercalate (by simp) hcols

def ended (ls : List String) : String := String.join (ls.map (· ++ "\n"))

lemma splitChars_ended (h : ∀ l ∈ ls, '\n' ∉ l.toList) :
 splitChars '\n' (ended ls).toList = ls.map String.toList ++ [[]] := by
 induction ls with
 | nil => rfl
 | cons l ls ih =>
  have hcons : (ended (l :: ls)).toList = l.toList ++ '\n' :: (ended ls).toList := by
   simp [ended,String.toList_join]
  rw [hcons,splitChars_append_of_not_mem (h l (by simp)),ih fun x hx => h x (by simp [hx])]
  rfl

lemma lines_ended (h : ∀ l ∈ ls, '\n' ∉ l.toList) : lines (ended ls) = ls := by
 have hpie : splitOn '\n' (ended ls) = ls ++ [""] := by
  rw [splitOn,splitChars_ended h]
  simp [Function.comp_def]
 rw [lines,hpie]
 simp

lemma unifyNewlines_of_not_mem (h : '\r' ∉ cs) : unifyNewlines cs = cs := by
 induction cs with
 | nil => rfl
 | cons c cs ih =>
  have hc : c ≠ '\r' := fun hc => h (by simp [hc])
  rw [unifyNewlines,ih fun hcs => h (by simp [hcs])]
  · exact fun _ hc' _ => hc hc'
  · exact fun hc' => hc hc'

lemma isInfixChars_iff {part cs : List Char} : isInfixChars part cs ↔ part <:+: cs := by
 induction cs with
 | nil => simp [isInfixChars]
 | cons c cs ih => simp [isInfixChars,ih,infix_cons_iff]

lemma prefix_of_prefix_append {sep : Char} {part u rest : List Char} (hsep : sep ∉ part)
 (h : part <+: u ++ sep :: rest) :
 part <+: u := by
 rcases prefix_or_prefix_of_prefix h ⟨rest,append_assoc u [sep] rest⟩ with hle | hge
 · rcases prefix_concat_iff.1 hle with rfl | hle
   · simp at hsep
   · exact hle
 · exact absurd (hge.subset (by simp)) hsep

lemma infix_of_infix_append {sep : Char} {part cs rest : List Char} (hsep : sep ∉ part)
 (h : part <:+: cs ++ sep :: rest) :
 part <:+: cs ∨ part <:+: rest := by
 induction cs with
 | nil =>
  rcases infix_cons_iff.1 h with hpre | hinf
  · exact .inl (prefix_of_prefix_append hsep hpre).isInfix
  · exact .inr hinf
 | cons c cs ih =>
  rcases infix_cons_iff.1 h with hpre | hinf
  · exact .inl (prefix_of_prefix_append hsep hpre).isInfix
  · exact (ih hinf).imp_left fun hin => infix_cons_iff.2 (.inr hin)

end MotifMatch.Text

namespace MotifMatch.Listing
open List Text

def rowText (cols : List String) : String := " ".intercalate cols

structure Tidy (cols : List String) : Prop where
 ne_nil : cols ≠ []
 plain : ∀ s ∈ cols, Plain s

lemma rowText_cons (h : cols ≠ []) :
 (rowText (s :: cols)).toList = s.toList ++ ' ' :: (rowText cols).toList := by
 rw [rowText,String.intercalate_cons_of_ne_nil h,String.toList_append,String.toList_append,
  append_assoc]
 rfl

lemma rowText_singleton (s : String) : rowText [s] = s := String.intercalate_singleton

lemma Tidy.mem_rowText (h : Tidy cols) (hc : c ∈ (rowText cols).toList) :
 c = ' ' ∨ isBlank c = false := by
 obtain ⟨hne,hpla⟩ := h
 induction cols with
 | nil => exact absurd rfl hne
 | cons s cols ih =>
  by_cases hcols : cols = []
  · rw [hcols,rowText_singleton] at hc
    exact .inr ((hpla s (by simp)).unbroken c hc)
  · rw [rowText_cons hcols,mem_append,mem_cons] at hc
    rcases hc with hc | hc | hc
    · exact .inr ((hpla s (by simp)).unbroken c hc)
    · exact .inl hc
    · exact ih hc hcols fun x hx => hpla x (by simp [hx])

lemma Tidy.getLast? (h : Tidy cols) :
 ∃ d, (rowText cols).toList.getLast? = some d ∧ isBlank d = false := by
 obtain ⟨hne,hpla⟩ := h
 induction cols with
 | nil => exact absurd rfl hne
 | cons s cols ih =>
  by_cases hcols : cols = []
  · have hs := hpla s (by simp)
    rw [hcols,rowText_singleton]
    exact ⟨_,getLast?_eq_some_getLast hs.ne_nil,hs.unbroken _ (getLast_mem hs.ne_nil)⟩
  · obtain ⟨d,hd,hbla⟩ := ih hcols fun x hx => hpla x (by simp [hx])
    refine ⟨d,?_,hbla⟩
    rw [rowText_cons hcols,getLast?_append,getLast?_cons,hd]
    rfl

lemma Tidy.strip (h : Tidy cols) :
 strip (rowText cols).toList = (rowText cols).toList := by
 obtain ⟨s,rest,rfl⟩ := exists_cons_of_ne_nil h.ne_nil
 have hs := h.plain s (by simp)
 obtain ⟨c,cs,hcs⟩ := exists_cons_of_ne_nil hs.ne_nil
 obtain ⟨tail,htail⟩ : ∃ tail, (rowText (s :: rest)).toList = c :: tail := by
  by_cases hres : rest = []
  · exact ⟨cs,by rw [hres,rowText_singleton,hcs]⟩
  · exact ⟨_,by rw [rowText_cons hres,hcs,cons_append]⟩
 obtain ⟨d,hd,hbla⟩ := h.getLast?
 rw [htail] at hd ⊢
 exact strip_of_ends (hs.unbroken c (by simp [hcs])) hbla hd

lemma Tidy.not_mem (h : Tidy cols) (hc : c ≠ ' ') (hbla : isBlank c) :
 c ∉ (rowText cols).toList := by
 intro hmem
 rcases h.mem_rowText hmem with heq | hnot
 · exact hc heq
 · rw [hbla] at hnot
   cases hnot

lemma Tidy.splitOn (h : Tidy cols) :
 splitOn ' ' (stripString (rowText cols)) = cols := by
 rw [stripString,h.strip,String.ofList_toList]
 exact splitOn_intercalate h.ne_nil fun s hs => (h.plain s hs).not_mem (by decide)

lemma mem_ended : c ∈ (ended ls).toList ↔ ∃ l ∈ ls, c ∈ l.toList ∨ c = '\n' := by
 simp only [ended,String.toList_join,mem_flatMap,mem_map]
 constructor
 · rintro ⟨_,⟨l,hl,rfl⟩,hc⟩
   exact ⟨l,hl,by simpa using hc⟩
 · rintro ⟨l,hl,hc⟩
   exact ⟨_,⟨l,hl,rfl⟩,by simpa using hc⟩

lemma rows_ended {rs : List (List String)} (h : ∀ r ∈ rs, Tidy r) :
 rows (String.ofList (unifyNewlines (ended (rs.map rowText)).toList)) = rs := by
 have hlin : ∀ l ∈ rs.map rowText, '\n' ∉ l.toList := by
  intro l hl
  obtain ⟨r,hr,rfl⟩ := mem_map.1 hl
  exact (h r hr).not_mem (by decide) (by decide)
 have hret : '\r' ∉ (ended (rs.map rowText)).toList := by
  rw [mem_ended]
  rintro ⟨l,hl,hc⟩
  obtain ⟨r,hr,rfl⟩ := mem_map.1 hl
  rcases hc with hc | hc
  · exact (h r hr).not_mem (by decide) (by decide) hc
  · exact absurd hc (by decide)
 have hread : rows (ended (rs.map rowText)) = rs := by
  rw [rows,lines_ended hlin,map_map,map_congr_left,map_id]
  intro r hr
  rw [Function.comp_apply,(h r hr).splitOn,id]
 rw [unifyNewlines_of_not_mem hret,String.ofList_toList,hread]

end MotifMatch.Listing
