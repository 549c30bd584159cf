import MotifMatch.Normal.Basic
import MotifMatch.Proofs.Graphs

namespace MotifMatch
open List

def Graph.Lettered (g : Graph) : Prop :=
 ∀ n ∈ g.ids, ∃ v, g.nodeAttr? n "label" = some v ∧ v.text.length = 1

def Graph.letter (g : Graph) (n : NodeId) : Char :=
 ((g.nodeAttr? n "label").getD .none).text.toList.headD ' '

lemma Graph.Lettered.toList_label {g : Graph} (hg : g.Lettered) {n : NodeId}
 (hn : n ∈ g.ids) {v : Value}
 (hv : g.nodeAttr? n "label" = some v) : v.text.toList = [g.letter n] := by
 obtain ⟨v',hv',hlen⟩ := hg n hn
 obtain rfl : v' = v := Option.some.inj (hv'.symm.trans hv)
 obtain ⟨c,hc⟩ := length_eq_one_iff.1 (String.length_toList.trans hlen)
 simp [Graph.letter,hv,hc]

namespace Normal

@[ext]
structure Letter where
 forward : Bool
 char : Char
 deriving DecidableEq

abbrev Word := List Letter

instance : LawfulBEq Word := inferInstance

abbrev Trail := List (NodeId × Bool)

def Manner.unit (m : Manner) : Nat := if m.marked then 2 else 1

def inscribe (marked : Bool) (l : Letter) : List Char :=
 if marked then [if l.forward then '>' else '<',l.char] else [l.char]

def spell (marked : Bool) (w : Word) : List Char := w.flatMap (inscribe marked)

def Manner.text (m : Manner) (w : Word) : String := String.ofList (spell m.marked w)

def word (g : Graph) (t : Trail) : Word := (t.map fun e => Letter.mk e.2 (g.letter e.1)).reverse

structure Proper (m : Manner) (w : Word) : Prop where
 start : w.head?.map Letter.forward = some false
 along : m.marked = false → ∀ l ∈ w.tail, l.forward = true

lemma inscribe_length (m : Manner) (l : Letter) : (inscribe m.marked l).length = m.unit := by
 unfold inscribe Manner.unit
 split <;> rfl

lemma spell_append (marked : Bool) (v w : Word) :
 spell marked (v ++ w) = spell marked v ++ spell marked w := by
 simp [spell]

lemma spell_length (m : Manner) (w : Word) : (spell m.marked w).length = m.unit * w.length := by
 induction w with
 | nil => rfl
 | cons l w ih =>
  have hcons : spell m.marked (l :: w) = inscribe m.marked l ++ spell m.marked w := rfl
  rw [hcons,length_append,ih,inscribe_length,length_cons,Nat.mul_add_one,Nat.add_comm]

lemma spell_unmarked (w : Word) : spell false w = w.map Letter.char := by
 induction w with
 | nil => rfl
 | cons l w ih => simpa [spell,inscribe] using ih

lemma spell_marked_injective : Function.Injective (spell true) := by
 intro v
 induction v with
 | nil =>
  intro w h
  cases w with
  | nil => rfl
  | cons l w => simp [spell,inscribe] at h
 | cons k v ih =>
  intro w h
  cases w with
  | nil => simp [spell,inscribe] at h
  | cons l w =>
   obtain ⟨f,c⟩ := k
   obtain ⟨f',c'⟩ := l
   simp only [spell,flatMap_cons,inscribe,if_true,cons_append,nil_append,
    cons.injEq] at h
   obtain ⟨hmark,rfl,hres⟩ := h
   have hf : f = f' := by cases f <;> cases f' <;> simp_all
   rw [hf,ih hres]

lemma eq_of_map_char {v w : Word} (h : v.map Letter.char = w.map Letter.char)
 (hv : ∀ l ∈ v, l.forward) (hw : ∀ l ∈ w, l.forward) : v = w := by
 induction v generalizing w with
 | nil => simpa using h.symm
 | cons k v ih =>
  cases w with
  | nil => simp at h
  | cons l w =>
   simp only [map_cons,cons.injEq] at h
   have hkl : k = l := by
    obtain ⟨f,c⟩ := k
    obtain ⟨f',c'⟩ := l
    have hf := hv ⟨f,c⟩ (by simp)
    have hf' := hw ⟨f',c'⟩ (by simp)
    simp_all
   rw [hkl,ih h.2 (fun x hx => hv x (by simp [hx])) (fun x hx => hw x (by simp [hx]))]

variable {m : Manner} {g : Graph}

lemma Proper.spell_inj {v w : Word} (hv : Proper m v) (hw : Proper m w)
 (h : spell m.marked v = spell m.marked w) : v = w := by
 cases hm : m.marked with
 | true => exact spell_marked_injective (by simpa [hm] using h)
 | false =>
  rw [hm,spell_unmarked,spell_unmarked] at h
  obtain ⟨hv0,hv1⟩ := hv
  obtain ⟨hw0,hw1⟩ := hw
  cases v with
  | nil => simp at hv0
  | cons k v =>
   cases w with
   | nil => simp at hw0
   | cons l w =>
    simp only [map_cons,cons.injEq] at h
    have hres := eq_of_map_char h.2 (hv1 hm) (hw1 hm)
    obtain ⟨f,c⟩ := k
    obtain ⟨f',c'⟩ := l
    simp_all

lemma Proper.text_inj {v w : Word} (hv : Proper m v) (hw : Proper m w) (h : m.text v = m.text w) :
 v = w :=
 hv.spell_inj hw (String.ofList_injective h)

lemma Proper.ne_nil {w : Word} (hw : Proper m w) : w ≠ [] := by
 rintro rfl
 simpa using hw.start

lemma Proper.take {w : Word} (hw : Proper m w) {n : Nat} (hn : 0 < n) : Proper m (w.take n) := by
 obtain ⟨h0,h1⟩ := hw
 cases w with
 | nil => simp at h0
 | cons l w =>
  obtain ⟨n,rfl⟩ : ∃ k, n = k + 1 := ⟨n - 1,by omega⟩
  exact ⟨by simpa using h0,fun hm x hx => h1 hm x (mem_of_mem_take hx)⟩

lemma text_length (w : Word) : (m.text w).length = m.unit * w.length := by
 rw [Manner.text,← String.length_toList,String.toList_ofList,spell_length]

lemma word_cons (e : NodeId × Bool) (t : Trail) :
 word g (e :: t) = word g t ++ [⟨e.2,g.letter e.1⟩] := by
 simp [word]

lemma word_length (t : Trail) : (word g t).length = t.length := by simp [word]

lemma text_append (hg : g.Lettered) {n : NodeId} {v : Value} (hv : g.nodeAttr? n "label" = some v)
 (hn : n ∈ g.ids) (f : Bool) (w : Word) :
 m.text w ++ m.piece f v = m.text (w ++ [⟨f,g.letter n⟩]) := by
 have hc := hg.toList_label hn hv
 rw [← String.toList_inj]
 simp only [Manner.text,String.toList_append,String.toList_ofList,spell_append]
 congr 1
 cases hm : m.marked <;> cases f <;> simp [Manner.piece,spell,inscribe,hm,hc,String.toList_append]

def Manner.Leads (m : Manner) (g : Graph) (u : NodeId) (e : NodeId × Bool) : Prop :=
 (e.2 = true ∧ g.hasEdge u e.1 = true) ∨ (m.marked = true ∧ e.2 = false ∧ g.hasEdge e.1 u = true)

inductive Roams (m : Manner) (g : Graph) : Trail → Prop
 | start : Roams m g [(m.anchor,false)]
 | step {u e : NodeId × Bool} {rest : Trail} : Roams m g (u :: rest) → m.Leads g u.1 e → e.1 ≠ m.anchor →
  rest.head?.map Prod.fst ≠ some e.1 → Roams m g (e :: u :: rest)

structure Grounded (m : Manner) (g : Graph) : Prop where
 sound : g.Sound
 anchor : m.anchor ∈ g.ids
 kind : m.marked = g.directed

structure Ready (m : Manner) (g : Graph) : Prop where
 sound : g.Sound
 lettered : g.Lettered
 anchor : m.anchor ∈ g.ids
 kind : m.marked = g.directed

lemma Ready.grounded (hr : Ready m g) : Grounded m g := ⟨hr.sound,hr.anchor,hr.kind⟩

lemma Grounded.leads_mem (hr : Grounded m g) {u : NodeId} {e : NodeId × Bool} (h : m.Leads g u e) :
 e.1 ∈ g.ids := by
 rcases h with ⟨_,h⟩ | ⟨_,_,h⟩
 · exact (hr.sound.of_hasEdge h).2
 · exact (hr.sound.of_hasEdge h).1

variable {t : Trail}

lemma Grounded.mem_ids (hr : Grounded m g) (h : Roams m g t) : ∀ e ∈ t, e.1 ∈ g.ids := by
 induction h with
 | start => simpa using hr.anchor
 | step _ hl _ _ ih =>
  intro x hx
  rcases mem_cons.1 hx with rfl | hx
  · exact hr.leads_mem hl
  · exact ih x hx

lemma Roams.mem_ids (hr : Ready m g) (h : Roams m g t) : ∀ e ∈ t, e.1 ∈ g.ids :=
 hr.grounded.mem_ids h

lemma Roams.ne_nil (h : Roams m g t) : t ≠ [] := by
 cases h <;> simp

lemma Roams.tail {e : NodeId × Bool} (h : Roams m g (e :: t)) : t = [] ∨ Roams m g t := by
 cases h with
 | start => exact .inl rfl
 | step h _ _ _ => exact .inr h

lemma Roams.proper (h : Roams m g t) : Proper m (word g t) := by
 induction h with
 | start => exact ⟨rfl,fun _ l hl => by simp [word] at hl⟩
 | @step u e rest _ hl _ _ ih =>
  rw [word_cons]
  refine ⟨?_,fun hm l hmem => ?_⟩
  · rw [head?_append_of_ne_nil _ ih.ne_nil]
    exact ih.start
  · rw [tail_append_of_ne_nil ih.ne_nil] at hmem
    rcases mem_append.1 hmem with hmem | hmem
    · exact ih.along hm l hmem
    · rw [mem_singleton.1 hmem]
      rcases hl with ⟨hf,_⟩ | ⟨hmk,_⟩
      · exact hf
      · simp [hm] at hmk

end Normal
end MotifMatch
