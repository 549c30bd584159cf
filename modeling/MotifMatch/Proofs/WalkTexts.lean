import MotifMatch.Proofs.FloatOrder
import MotifMatch.Proofs.Overlays

namespace MotifMatch.Normal
open List Option Manner Float MotifMatch.Graph
variable {m : Manner} {g : Graph} {a : NodeId} {ws : List Word} {done counted : List Trail}
 {s : Growth}

def Steps (g : Graph) (u v : NodeId × Bool) : Prop :=
 if v.2 then g.hasEdge u.1 v.1 = true else g.hasEdge v.1 u.1 = true

structure IsMarkedWalk (g : Graph) (a : NodeId) (w : List (NodeId × Bool)) : Prop where
 start : w.head? = some (a,false)
 joined : w.IsChain (Steps g)
 away : ∀ e ∈ w.tail, e.1 ≠ a
 onward : ∀ i u v, w[i]? = some u → w[i + 2]? = some v → v.1 ≠ u.1

def marking (g : Graph) (w : List (NodeId × Bool)) : Word := w.map fun e => ⟨e.2,g.letter e.1⟩

lemma marking_reverse (t : Trail) : marking g t.reverse = word g t := by
 rw [marking,word,map_reverse]

lemma isMarkedWalk_iff {w : List (NodeId × Bool)} :
 IsMarkedWalk g a w ↔ Strides (a,false) (Steps g) (fun u v => v.1 ≠ u.1) (fun e => e.1 ≠ a) w :=
 ⟨fun h => ⟨h.start,h.joined,h.away,h.onward⟩,fun ⟨hsta,hcha,haway,hon⟩ => ⟨hsta,hcha,haway,hon⟩⟩

lemma isMarkedWalk_singleton : IsMarkedWalk g a [(a,false)] :=
 isMarkedWalk_iff.2 ⟨rfl,.singleton _,by simp,by simp⟩

lemma isMarkedWalk_concat {w : List (NodeId × Bool)} {u v : NodeId × Bool} :
 IsMarkedWalk g a (w ++ [u] ++ [v]) ↔
 IsMarkedWalk g a (w ++ [u]) ∧ Steps g u v ∧ v.1 ≠ a ∧ w.getLast?.map Prod.fst ≠ some v.1 := by
 have hlast : (∀ x, w.getLast? = some x → v.1 ≠ x.1) ↔ w.getLast?.map Prod.fst ≠ some v.1 := by
  cases w.getLast? <;> simp [eq_comm]
 rw [isMarkedWalk_iff,isMarkedWalk_iff,strides_concat,hlast]

lemma leads_iff_steps {u v : NodeId × Bool} :
 m.Leads g u.1 v ↔ Steps g u v ∧ (m.marked = false → v.2) := by
 simp only [Manner.Leads,Steps]
 cases m.marked <;> cases v.2 <;> simp

lemma roams_iff_reverse {t : Trail} : Roams m g t ↔
 IsMarkedWalk g m.anchor t.reverse ∧ (m.marked = false → ∀ e ∈ t.reverse.tail, e.2) := by
 have htail : ∀ (e u x : NodeId × Bool) (rest : Trail), x ∈ (e :: u :: rest).reverse.tail ↔
  x ∈ (u :: rest).reverse.tail ∨ x = e := by
  intro e u x rest
  rw [reverse_cons,tail_append_of_ne_nil (by simp),mem_append,mem_singleton]
 constructor
 · intro h
   induction h with
   | start => exact ⟨isMarkedWalk_singleton,by simp⟩
   | @step u e rest _ hl haway hturn ih =>
    obtain ⟨hwalk,halo⟩ := ih
    obtain ⟨hste,hfor⟩ := leads_iff_steps.1 hl
    refine ⟨?_,fun hd x hx => ?_⟩
    · rw [reverse_cons] at hwalk ⊢
      rw [reverse_cons]
      exact isMarkedWalk_concat.2 ⟨hwalk,hste,haway,by rwa [getLast?_reverse]⟩
    · rcases (htail e u x rest).1 hx with hx | rfl
      · exact halo hd x hx
      · exact hfor hd
 · rintro ⟨h,halo⟩
   induction t with
   | nil => simpa using h.start
   | cons e t ih =>
    cases t with
    | nil =>
     obtain rfl : e = (m.anchor,false) := by simpa using h.start
     exact .start
    | cons u rest =>
     have hprev : Roams m g (u :: rest) := by
      refine ih ?_ fun hd x hx => halo hd x ((htail e u x rest).2 (.inl hx))
      rw [reverse_cons,reverse_cons] at h
      rw [reverse_cons]
      exact (isMarkedWalk_concat.1 h).1
     rw [reverse_cons,reverse_cons] at h
     obtain ⟨_,hste,haway,hturn⟩ := isMarkedWalk_concat.1 h
     rw [getLast?_reverse] at hturn
     refine .step hprev (leads_iff_steps.2 ⟨hste,fun hd => ?_⟩) haway hturn
     exact halo hd e ((htail e u e rest).2 (.inr rfl))

lemma roams_iff_markedWalk (hm : m.marked) {t : Trail} :
 Roams m g t ↔ IsMarkedWalk g m.anchor t.reverse := by
 rw [roams_iff_reverse]
 simp [hm]

def pairDistance (n : Nat) : Float := ofNat (2 * n) / 2.0 - 1.0

lemma pairDistance_eq {n : Nat} (hpos : 0 < n) (hlt : n < 2 ^ 52) :
 pairDistance n = ofNat (n - 1) := by
 obtain ⟨k,rfl⟩ : ∃ k, n = k + 1 := ⟨n - 1,by omega⟩
 exact Binary64.half_minus_one (by omega)

structure HoldsMarkedWalks (g : Graph) (a : NodeId) (limit : Int) (f : Form) (words : List Word) :
 Prop where
 directed : f.tree.directed = true
 ids : f.tree.ids = (range words.length).map fun i => .num i
 distinct : words.Nodup
 walks : ∀ s, s ∈ words ↔ ∃ w, IsMarkedWalk g a w ∧ (w.length : Int) ≤ (limit + 1) / 2 ∧
  marking g w = s
 root : words[0]? = some (marking g [(a,false)])
 edges : f.tree.edges.length + 1 = words.length
 parent : ∀ (i : Nat) (s : Word) (l : Letter), words[i + 1]? = some (s ++ [l]) →
  ∃ (p : Nat) (e : Edge), words[p]? = some s ∧ f.tree.edges[i]? = some e ∧
   (e.source,e.target) = if l.forward then (.num p,.num ((i + 1 : Nat)))
    else (.num ((i + 1 : Nat)),.num p)
 joined : ∀ (i j : Nat) (s t : Word), words[i]? = some s → words[j]? = some t →
  (f.tree.hasEdge (.num i) (.num j) = true ↔
   (∃ l, l.forward = true ∧ t = s ++ [l]) ∨ ∃ l, l.forward = false ∧ s = t ++ [l])
 label : ∀ (i : Nat) (s : Word) (l : Letter), words[i]? = some (s ++ [l]) →
  ∃ v, f.tree.nodeAttr? (.num i) "label" = some v ∧ v.text.toList = [l.char]
 distance : ∀ (i : Nat) (s : Word), words[i]? = some s →
  f.tree.nodeAttr? (.num i) "distance" = some (.float (pairDistance s.length)) ∧
   (s.length < 2 ^ 52 → pairDistance s.length = ofNat (s.length - 1))
 furthest : ∃ k : Nat, (∃ s ∈ words, s.length = k + 1) ∧ (∀ s ∈ words, s.length ≤ k + 1) ∧
  f.furthest = if k = 0 then .int 0 else .float (pairDistance (k + 1))

lemma Rooted.place (h : Rooted ws) {i : Nat} {w : Word} (hi : ws[i]? = some w) :
 w ∈ ws ∧ nodeOf ws w = .num i := by
 obtain ⟨hlt,rfl⟩ := List.getElem?_eq_some_iff.1 hi
 exact ⟨getElem_mem hlt,by rw [nodeOf,h.nodup.idxOf_getElem]⟩

lemma Grown.parent {t : Graph} (h : Grown t ws) {i : Nat} {w : Word} {l : Letter}
 (hi : ws[i + 1]? = some (w ++ [l])) :
 ∃ (p : Nat) (e : Edge), ws[p]? = some w ∧ t.edges[i]? = some e ∧
  (e.source,e.target) = if l.forward then (.num p,.num ((i + 1 : Nat)))
   else (.num ((i + 1 : Nat)),.num p) := by
 obtain ⟨hmem,hnode⟩ := h.rooted.place hi
 have htail : ws.tail[i]? = some (w ++ [l]) := by rw [getElem?_tail,hi]
 have hstem : w ∈ ws := by simpa using h.rooted.dropLast_mem (mem_of_getElem? htail)
 refine ⟨ws.idxOf w,limb ws (w ++ [l]),getElem?_idxOf hstem,?_,?_⟩
 · rw [h.edges,getElem?_map,htail,map_some]
 · rw [limb_concat,hnode]
   cases l.forward <;> rfl

lemma mem_markings (hm : m.marked) (h : Traced m g done counted ws s)
 (hdone : ∀ t, t ∈ done ↔ Roams m g t ∧ ((2 * (t.length - 1) : Nat) : Int) < m.limit) (x : Word) :
 x ∈ ws ↔ ∃ w, IsMarkedWalk g m.anchor w ∧ (w.length : Int) ≤ (m.limit + 1) / 2 ∧
  marking g w = x := by
 rw [h.words]
 constructor
 · rintro ⟨t,ht,rfl⟩
   obtain ⟨hroa,hlim⟩ := (hdone t).1 ht
   have hpos : 0 < t.length := length_pos_iff.2 hroa.ne_nil
   refine ⟨t.reverse,(roams_iff_markedWalk hm).1 hroa,?_,marking_reverse t⟩
   rw [length_reverse]
   omega
 · rintro ⟨w,hw,hlim,rfl⟩
   have hroa : Roams m g w.reverse := (roams_iff_markedWalk hm).2 (by rwa [reverse_reverse])
   have hpos : 0 < w.reverse.length := length_pos_iff.2 hroa.ne_nil
   refine ⟨w.reverse,(hdone _).2 ⟨hroa,?_⟩,by rw [← marking_reverse,reverse_reverse]⟩
   rw [length_reverse] at hpos ⊢
   omega

lemma Traced.root_marking (h : Traced m g done counted ws s) (hsta : [(m.anchor,false)] ∈ done) :
 ws[0]? = some (marking g [(m.anchor,false)]) := by
 have hmem : word g [(m.anchor,false)] ∈ ws := (h.words _).2 ⟨_,hsta,rfl⟩
 rw [← head?_eq_getElem?,h.tree.rooted.root _ hmem]
 rfl

lemma furthest_marked (hm : m.marked) (k : Nat) :
 m.furthest (m.unit * (k + 1)) = if k = 0 then .int 0 else .float (pairDistance (k + 1)) := by
 simp only [furthest,distance,unit,hm,if_true]
 by_cases hk : k = 0
 · rw [if_pos (by omega),if_pos hk]
 · rw [if_neg (by omega),if_neg hk]
   rfl

theorem markedForm_holdsWalks {limit : Int} (hg : g.Sound) (hd : g.directed = true)
 (ha : g.AnchoredAt a)
 (hl : g.Lettered) (hlim : 1 ≤ limit) :
 ∃ f words, (markedForm g limit).2 = .ok f ∧ HoldsMarkedWalks g a limit f words := by
 obtain rfl := ha.anchor_eq hg.ids
 have hr : Ready ⟨true,limit,g.anchor⟩ g := ⟨hg,hl,ha.mem,hd.symm⟩
 obtain ⟨s,ws,done,hform,hdir,h,hdone⟩ := formBy_traced hr true
 have hsta : [(g.anchor,false)] ∈ done :=
  (hdone _).2 ⟨.start,show ((0 : Nat) : Int) < limit by omega⟩
 have hne : ws ≠ [] := ne_nil_of_mem ((h.words _).2 ⟨_,hsta,rfl⟩)
 refine ⟨_,ws,by rw [markedForm,hform],hdir,h.tree.ids,h.tree.rooted.nodup,mem_markings rfl h hdone,
  h.root_marking hsta,?_,fun i w l hi => h.tree.parent hi,?_,?_,?_,?_⟩
 · have hpos : 0 < ws.length := length_pos_iff.2 hne
   rw [h.tree.edges,length_map,length_tail]
   omega
 · intro i j u v hi hj
   obtain ⟨hu,hnode⟩ := h.tree.rooted.place hi
   obtain ⟨hv,hnode'⟩ := h.tree.rooted.place hj
   rw [← hnode,← hnode',h.tree.spread.arcs u hu v hv,hdir]
   simp [Arc]
 · intro i w l hi
   obtain ⟨hw,hnode⟩ := h.tree.rooted.place hi
   rw [← hnode]
   exact h.label hr hw
 · intro i w hi
   obtain ⟨hw,hnode⟩ := h.tree.rooted.place hi
   obtain ⟨b,hb,hbea⟩ := h.nodes w hw
   refine ⟨?_,pairDistance_eq (length_pos_iff.2 (h.tree.rooted.pos w hw))⟩
   rw [← hnode,nodeAttr?,hb,bind_some,hbea.distance]
   rfl
 · obtain ⟨k,hk,hatt,hall⟩ := h.longest_word hsta
   exact ⟨k,hatt,hall,by rw [hk,furthest_marked rfl]⟩

def turnpike : Graph where
 directed := true
 multi := false
 nodes := ⟨[(.num 4,⟨[("label",.str "B"),("anchor",.int 0)]⟩),
  (.num 1,⟨[("label",.str "A"),("anchor",.int 1)]⟩),
  (.num 6,⟨[("label",.str "B"),("anchor",.int 0)]⟩)]⟩
 edges := [⟨.num 1,.num 4,.none,.empty⟩,⟨.num 4,.num 1,.none,.empty⟩,⟨.num 4,.num 6,.none,.empty⟩,
  ⟨.num 6,.num 1,.none,.empty⟩]

lemma turnpike_sound : turnpike.Sound := by decide

lemma turnpike_anchored : turnpike.AnchoredAt (.num 1) :=
 anchoredAt_of_filter turnpike_sound.ids (by simp [turnpike,isAnchor,Table.get?,Value.same_int])

theorem turnpike_holdsWalks : turnpike.Lettered ∧
 ∃ f words, (markedForm turnpike 5).2 = .ok f ∧ HoldsMarkedWalks turnpike (.num 1) 5 f words :=
 ⟨by decide,markedForm_holdsWalks turnpike_sound rfl turnpike_anchored (by decide) (by decide)⟩

end MotifMatch.Normal

namespace MotifMatch
open List MotifMatch.Normal Manner
namespace Graph

def stepText (g : Graph) (e : NodeId × Bool) : String :=
 (if g.directed then (if e.2 then ">" else "<") else "") ++
  ((g.nodeAttr? e.1 "label").getD .none).text

def walkText (g : Graph) (w : List (NodeId × Bool)) : String := String.join (w.map g.stepText)

variable {g : Graph}

lemma walkText_concat (w : List (NodeId × Bool)) (e : NodeId × Bool) :
 g.walkText (w ++ [e]) = g.walkText w ++ g.stepText e := by
 rw [← String.toList_inj]
 simp [walkText,String.toList_join]

lemma walkText_nil : g.walkText [] = "" := rfl

lemma stepText_eq_piece {m : Manner} (hm : m.marked = g.directed) {e : NodeId × Bool} {v : Value}
 (hv : g.nodeAttr? e.1 "label" = some v) : g.stepText e = m.piece e.2 v := by
 unfold stepText Manner.piece
 rw [hm,hv]
 cases g.directed <;> simp

lemma walkText_undirected (hd : g.directed = false) (w : List (NodeId × Bool)) :
 g.walkText w = g.labelText (w.map Prod.fst) := by
 have hste : g.stepText = fun e => ((g.nodeAttr? e.1 "label").getD .none).text := by
  funext e
  simp [stepText,hd]
 rw [walkText,labelText,map_map,hste]
 rfl

lemma Lettered.toList_walkText (hl : g.Lettered) {w : List (NodeId × Bool)}
 (hw : ∀ e ∈ w, e.1 ∈ g.ids) :
 (g.walkText w).toList = spell g.directed (marking g w) := by
 induction w using reverseRecOn with
 | nil => rfl
 | append_singleton w e ih =>
  obtain ⟨v,hv,_⟩ := hl e.1 (hw e (by simp))
  have hlet := hl.toList_label (hw e (by simp)) hv
  have hmar : marking g (w ++ [e]) = marking g w ++ [⟨e.2,g.letter e.1⟩] := by
   simp [marking]
  rw [walkText_concat,String.toList_append,ih fun x hx => hw x (by simp [hx]),hmar,spell_append]
  congr 1
  cases hd : g.directed <;> cases hf : e.2 <;>
   simp [stepText,spell,inscribe,hd,hf,hv,hlet]

end Graph

namespace Normal
variable {m : Manner} {g t : Graph} {a : NodeId} {limit : Int} {ws : List Word}
section

structure Admissible (g : Graph) (a : NodeId) (limit : Int) (w : List (NodeId × Bool)) : Prop where
 walk : IsMarkedWalk g a w
 along : g.directed = false → ∀ e ∈ w.tail, e.2 = true
 within : ((g.walkText w.dropLast).length : Int) < limit

variable {t : Trail}

lemma admissible_reverse_iff (hm : m.marked = g.directed) : Admissible g m.anchor limit t.reverse ↔
 Roams m g t ∧ ((g.walkText t.tail.reverse).length : Int) < limit := by
 have hinit : t.reverse.dropLast = t.tail.reverse := by cases t <;> simp
 rw [roams_iff_reverse,hm,← hinit]
 exact ⟨fun h => ⟨⟨h.walk,h.along⟩,h.within⟩,fun h => ⟨h.1.1,h.1.2,h.2⟩⟩

lemma Ready.walkText_reverse (hr : Ready m g) (ht : Roams m g t) :
 g.walkText t.reverse = m.text (word g t) := by
 rw [← String.toList_inj,hr.lettered.toList_walkText fun e he => ht.mem_ids hr e (mem_reverse.1 he),
  marking_reverse,← hr.kind,text,String.toList_ofList]

lemma Ready.length_walkText (hr : Ready m g) (ht : t = [] ∨ Roams m g t) :
 (g.walkText t.reverse).length = m.unit * t.length := by
 rcases ht with rfl | ht
 · rfl
 · rw [hr.walkText_reverse ht,text_length,word_length]

end

def footsteps (t : Graph) : Option NodeId → List NodeId → List (NodeId × Bool)
 | _, [] => []
 | before, n :: rest => (n,before.any (t.hasEdge · n)) :: footsteps t (some n) rest

def Writes (t : Graph) (n : NodeId) (s : String) : Prop :=
 ∃ p, AnchorPath t p ∧ p.getLast? = some n ∧ t.walkText (footsteps t none p) = s

lemma marking_footsteps (before : Option NodeId) (p : List NodeId) :
 marking t (footsteps t before p) = lettersFrom t before p := by
 induction p generalizing before with
 | nil => rfl
 | cons n p ih =>
  rw [lettersFrom,← ih]
  rfl

lemma map_fst_footsteps (before : Option NodeId) (p : List NodeId) :
 (footsteps t before p).map Prod.fst = p := by
 induction p generalizing before with
 | nil => rfl
 | cons n p ih => rw [footsteps,map_cons,ih]

lemma Spelt.lettered (h : Spelt m t ws) : t.Lettered := by
 intro n hn
 obtain ⟨w,hw,rfl⟩ := h.spread.eq_nodeOf hn
 obtain ⟨v,l,rfl⟩ : ∃ v l, w = v ++ [l] :=
  ⟨_,_,(dropLast_append_getLast (h.spread.rooted.pos w hw)).symm⟩
 obtain ⟨x,hx,htext⟩ := h.label v l hw
 exact ⟨x,hx,by rw [← String.length_toList,htext,length_singleton]⟩

lemma Spelt.writes_iff (h : Spelt m t ws) {n : NodeId} {s : String} :
 Writes t n s ↔ ∃ w ∈ ws, n = nodeOf ws w ∧ s = m.text w := by
 cases hd : t.directed with
 | false =>
  have hrea : Writes t n s ↔ Reads t n s := by
   simp only [Writes,Reads,Graph.walkText_undirected hd,map_fst_footsteps]
  rw [hrea,h.carries.reads_iff h.inscribed]
  simp only [text,← h.kind,hd,spell_unmarked]
 | true =>
  have htext : ∀ p, AnchorPath t p → t.walkText (footsteps t none p) =
   m.text (Normal.lettersFrom t none p) := by
   intro p hp
   have hmem : ∀ e ∈ footsteps t none p, e.1 ∈ t.ids := fun e he => hp.mem _ (by
    rw [← map_fst_footsteps none p]
    exact mem_map_of_mem he)
   rw [← String.toList_inj,h.lettered.toList_walkText hmem,marking_footsteps,h.kind,text,
    String.toList_ofList]
  constructor
  · rintro ⟨p,hp,hlast,rfl⟩
    obtain ⟨hw,hn⟩ := (h.route_iff hd).1 ⟨p,hp,hlast,rfl⟩
    exact ⟨_,hw,hn,htext p hp⟩
  · rintro ⟨w,hw,hn,rfl⟩
    obtain ⟨p,hp,hlast,rfl⟩ := (h.route_iff hd).2 ⟨hw,hn⟩
    exact ⟨p,hp,hlast,htext p hp⟩

end Normal
end MotifMatch
