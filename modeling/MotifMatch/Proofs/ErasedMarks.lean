import MotifMatch.Proofs.Overlays

namespace MotifMatch.Normal
open List MotifMatch.Graph Manner
variable {m : Manner} {g h : Graph} {a : NodeId} {ws : List Word}

def eraseMarks : List Char → List Char
 | c :: _ :: rest => c :: eraseMarks rest
 | cs => cs

def SpellsErased (t : Graph) (s : String) : Prop :=
 ∃ n w, Route t n w ∧ s = String.ofList (eraseMarks (strand true w))

lemma eraseMarks_spell (c : Char) (w : Word) :
 eraseMarks (c :: spell true w) = c :: w.map Letter.char := by
 induction w generalizing c with
 | nil => rfl
 | cons l w ih =>
  have hcons : spell true (l :: w) = (if l.forward then '>' else '<') :: l.char :: spell true w :=
   rfl
  rw [hcons,eraseMarks,ih,map_cons]

lemma eraseMarks_strand {w : Word} (hw : w ≠ []) :
 eraseMarks (strand true w) = w.map Letter.char := by
 cases w with
 | nil => exact absurd rfl hw
 | cons l w => exact eraseMarks_spell l.char w

lemma Spelt.spellsErased_iff {t : Graph} (ht : Spelt m t ws) (hd : t.directed) (s : String) :
 SpellsErased t s ↔ Spells t s := by
 rw [ht.worded.spells_iff]
 constructor
 · rintro ⟨n,w,hrou,rfl⟩
   have hw := ((ht.route_iff hd).1 hrou).1
   exact ⟨w,hw,by rw [eraseMarks_strand (ht.proper w hw).ne_nil]⟩
 · rintro ⟨w,hw,rfl⟩
   refine ⟨_,w,(ht.route_iff hd).2 ⟨hw,rfl⟩,?_⟩
   rw [eraseMarks_strand (ht.proper w hw).ne_nil]

lemma length_met (t : Trail) : (met t).length = t.length := by simp [met]

lemma chars_word (t : Trail) : (word g t).map Letter.char = (met t).map g.letter := by
 simp [word,met,Function.comp_def]

lemma IsWalk.take {p : List NodeId} (hp : IsWalk h a p) {n : Nat} (hn : 0 < n) :
 IsWalk h a (p.take n) := by
 have hpla : ∀ {i : Nat} {x : NodeId}, (p.take n)[i]? = some x → p[i]? = some x := by
  intro i x hx
  rw [getElem?_take] at hx
  split at hx
  · exact hx
  · cases hx
 refine ⟨?_,?_,?_,?_⟩
 · rw [getElem?_take,if_pos hn]
   exact hp.start
 · intro i u v hu hv
   exact hp.joined i u v (hpla hu) (hpla hv)
 · intro i hi hx
   exact hp.away i hi (hpla hx)
 · intro i u v hu hv
   exact hp.onward i u v (hpla hu) (hpla hv)

lemma leads_undirected (hd : g.directed = false) (limit : Int) (u v : NodeId) :
 (∃ f, Manner.Leads ⟨g.directed,limit,a⟩ g u (v,f)) ↔ g.hasEdge u v := by
 simp [Manner.Leads,hd]

lemma leads_directed (hg : g.Sound) (hd : g.directed) (limit : Int) (u v : NodeId) :
 (∃ f, Manner.Leads ⟨g.directed,limit,a⟩ g u (v,f)) ↔ g.toUndirected.hasEdge u v := by
 rw [Graph.toUndirected,if_pos hd,(Graph.recast_undirected hg g.multi).2.2.2 u v,Bool.or_eq_true]
 simp only [Manner.Leads,hd,true_and]
 constructor
 · rintro ⟨f,⟨_,hedge⟩ | ⟨_,hedge⟩⟩
   · exact .inl hedge
   · exact .inr hedge
 · rintro (hedge | hedge)
   · exact ⟨true,.inl ⟨rfl,hedge⟩⟩
   · exact ⟨false,.inr ⟨rfl,hedge⟩⟩

lemma form_eq (g : Graph) (limit : Int) :
 form g limit false = formBy g limit g.directed g.directed := by
 unfold form markedForm
 cases g.directed <;> rfl

structure Follows (h : Graph) (a : NodeId) (letter : NodeId → Char) (bound : Int) (f : Form)
 (d : Nat) : Prop where
 spells : ∀ s, Spells f.tree s ↔ ∃ p, IsWalk h a p ∧ (p.length : Int) ≤ bound ∧
  s = String.ofList (p.map letter)
 attained : ∃ s, Spells f.tree s ∧ s.length = d + 1
 within : ∀ s, Spells f.tree s → s.length ≤ d + 1

lemma length_ofList_map {α : Type} (p : List α) (f : α → Char) :
 (String.ofList (p.map f)).length = p.length := by
 rw [← String.length_toList,String.toList_ofList,length_map]

lemma form_follows {limit : Int} (hg : g.Sound) (ha : g.AnchoredAt a) (hl : g.Lettered)
 (hlim : 1 ≤ limit)
 (hlead : ∀ u v, (∃ f, Manner.Leads ⟨g.directed,limit,a⟩ g u (v,f)) ↔ h.hasEdge u v) :
 ∃ f ws d, (form g limit false).2 = .ok f ∧ Spelt ⟨g.directed,limit,a⟩ f.tree ws ∧
  f.furthest = furthest ⟨g.directed,limit,a⟩ ((if g.directed then 2 else 1) * (d + 1)) ∧
  Follows h a g.letter (if g.directed then (limit + 1) / 2 else limit) f d := by
 obtain rfl := ha.anchor_eq hg.ids
 have hr : Ready ⟨g.directed,limit,g.anchor⟩ g := ⟨hg,hl,ha.mem,rfl⟩
 obtain ⟨s,ws,done,hform,hdir,htr,hdone⟩ := formBy_traced hr g.directed
 have hsta : [(g.anchor,false)] ∈ done := (hdone _).2 ⟨.start,by rw [length_singleton]; omega⟩
 have hne : ws ≠ [] := ne_nil_of_mem ((htr.words _).2 ⟨_,hsta,rfl⟩)
 have hspe := htr.spelt hr ha hne hdir
 obtain ⟨d,hlon,⟨w,hw,hwd⟩,hall⟩ := htr.longest_word hsta
 have hbou : ∀ n : Nat, 0 < n → ((((if g.directed then 2 else 1) * (n - 1) : Nat) : Int) < limit ↔
  (n : Int) ≤ if g.directed then (limit + 1) / 2 else limit) := by
  intro n hn
  split <;> omega
 refine ⟨⟨s.tree,furthest ⟨g.directed,limit,g.anchor⟩ s.longest⟩,ws,d,by rw [form_eq,hform],hspe,
  by rw [hlon]; rfl,fun x => ?_,?_,?_⟩
 · rw [hspe.worded.spells_iff]
   constructor
   · rintro ⟨w,hw,rfl⟩
     obtain ⟨t,ht,rfl⟩ := (htr.words w).1 hw
     obtain ⟨hroa,hwit⟩ := (hdone t).1 ht
     refine ⟨met t,(exists_roams_iff hlead).1 ⟨t,hroa,rfl⟩,?_,by rw [chars_word]⟩
     rw [length_met]
     exact (hbou _ (length_pos_iff.2 hroa.ne_nil)).1 hwit
   · rintro ⟨p,hp,hwit,rfl⟩
     obtain ⟨t,hroa,rfl⟩ := (exists_roams_iff hlead).2 hp
     rw [length_met] at hwit
     have hlt := (hbou _ (length_pos_iff.2 hroa.ne_nil)).2 hwit
     exact ⟨word g t,(htr.words _).2 ⟨t,(hdone t).2 ⟨hroa,hlt⟩,rfl⟩,by rw [chars_word]⟩
 · exact ⟨_,hspe.worded.spells_iff.2 ⟨w,hw,rfl⟩,(length_ofList_map w _).trans hwd⟩
 · intro x hx
   obtain ⟨w,hw,rfl⟩ := hspe.worded.spells_iff.1 hx
   rw [length_ofList_map]
   exact hall w hw

section
variable {letter : NodeId → Char} {bound bound' : Int} {f f' : Form} {d d' : Nat}
variable (hf : Follows h a letter bound f d) (hf' : Follows h a letter bound' f' d')
 (hb : bound ≤ bound')
include hf hf' hb

lemma Follows.spells_cut (s : String) : Spells f.tree s ↔ Spells f'.tree s ∧ s.length ≤ bound := by
 rw [hf.spells,hf'.spells]
 constructor
 · rintro ⟨p,hp,hle,rfl⟩
   rw [length_ofList_map]
   exact ⟨⟨p,hp,hle.trans hb,rfl⟩,hle⟩
 · rintro ⟨⟨p,hp,_,rfl⟩,hle⟩
   rw [length_ofList_map] at hle
   exact ⟨p,hp,hle,rfl⟩

lemma Follows.steps_cut (hpos : 1 ≤ bound) : (d : Int) = min (d' : Int) (bound - 1) := by
 obtain ⟨x,hx,hxd⟩ := hf.attained
 obtain ⟨hx',hxb⟩ := (hf.spells_cut hf' hb x).1 hx
 have hle := hf'.within x hx'
 -- a walk to a furthest node of the other form, cut where the smaller bound ends
 obtain ⟨y,hy,hyd⟩ := hf'.attained
 obtain ⟨p,hp,_,rfl⟩ := (hf'.spells y).1 hy
 rw [length_ofList_map] at hyd
 let n := min d' (bound - 1).toNat + 1
 have hlen : (p.take n).length = n := length_take_of_le (by omega)
 have hcut : Spells f.tree (String.ofList ((p.take n).map letter)) :=
  (hf.spells _).2 ⟨p.take n,hp.take (Nat.succ_pos _),by omega,rfl⟩
 have hge := hf.within _ hcut
 rw [length_ofList_map] at hge
 omega

lemma Follows.same_iff (hpos : 1 ≤ bound) : (∀ s, Spells f.tree s ↔ Spells f'.tree s) ↔ d = d' := by
 have hste := hf.steps_cut hf' hb hpos
 constructor
 · intro hsame
   obtain ⟨y,hy,hyd⟩ := hf'.attained
   have := hf.within y ((hsame y).2 hy)
   omega
 · intro hdd s
   rw [hf.spells_cut hf' hb]
   refine and_iff_left_of_imp fun hs => ?_
   have := hf'.within s hs
   omega

end

lemma undirected_keeps (hg : g.Sound) (hd : g.directed) (ha : g.AnchoredAt a) (hl : g.Lettered) :
 g.toUndirected.Sound ∧ g.toUndirected.directed = false ∧ g.toUndirected.AnchoredAt a ∧
  g.toUndirected.Lettered ∧ g.toUndirected.letter = g.letter := by
 have hcast : g.toUndirected = g.recast false g.multi := by rw [toUndirected,if_pos hd]
 obtain ⟨hnod,hdir,_,_⟩ := recast_undirected hg g.multi
 rw [← hcast] at hnod hdir
 have hatt : ∀ n, g.toUndirected.attrs? n = g.attrs? n := fun n => by rw [attrs?,hnod,attrs?]
 have hnode : ∀ n k, g.toUndirected.nodeAttr? n k = g.nodeAttr? n k := fun n k => by
  rw [nodeAttr?,hatt,nodeAttr?]
 refine ⟨hcast ▸ hg.recast false g.multi,hdir,fun n => ?_,fun n hn => ?_,funext fun n => ?_⟩
 · rw [hatt]
   exact ha n
 · rw [ids,hnod] at hn
   rw [hnode]
   exact hl n hn
 · rw [letter,hnode,letter]

theorem directed_form_halved (limit : Int) (hg : g.Sound) (hd : g.directed = true)
 (ha : g.AnchoredAt a)
 (hl : g.Lettered) (hlim : 1 ≤ limit) : ∃ f f' half : Form, ∃ d d' : Nat,
  (form g limit false).2 = .ok f ∧ (form g.toUndirected limit false).2 = .ok f' ∧
  (form g.toUndirected ((limit + 1) / 2) false).2 = .ok half ∧
  (∀ s, SpellsErased f.tree s ↔ Spells half.tree s) ∧
  (∀ s, SpellsErased f.tree s ↔ Spells f'.tree s ∧ (s.length : Int) ≤ (limit + 1) / 2) ∧
  f.furthest = furthest ⟨true,limit,a⟩ (2 * (d + 1)) ∧ f'.furthest = .int d' ∧
  half.furthest = .int d ∧ (d : Int) = min (d' : Int) ((limit - 1) / 2) ∧
  ((∀ s, SpellsErased f.tree s ↔ Spells f'.tree s) ↔ d = d') := by
 obtain ⟨hsou,hdir,hanc,hlet,hletter⟩ := undirected_keeps hg hd ha hl
 obtain ⟨f,ws,d,hform,hspe,hfar,hf⟩ := form_follows hg ha hl hlim (leads_directed hg hd limit)
 obtain ⟨f',_,d',hform',_,hfar',hf'⟩ :=
  form_follows hsou hanc hlet hlim (leads_undirected hdir limit)
 obtain ⟨half,_,e,hformh,_,hfarh,hh⟩ :=
  form_follows hsou hanc hlet (by omega) (leads_undirected hdir ((limit + 1) / 2))
 have hera := hspe.spellsErased_iff (hspe.kind.trans hd)
 simp only [hd,if_true] at hf hfar
 simp only [hdir,hletter,Bool.false_eq_true,if_false] at hf' hfar' hh hfarh
 have hste := hf.steps_cut hf' (by omega) (by omega)
 have hsame := hf.steps_cut hh (by omega) (by omega)
 have hsame' := hh.steps_cut hf (by omega) (by omega)
 obtain rfl : d = e := by omega
 refine ⟨f,f',half,d,d',hform,hform',hformh,?_,?_,hfar,?_,?_,by omega,?_⟩
 · simp only [hera]
   exact (hf.same_iff hh (by omega) (by omega)).2 rfl
 · simp only [hera]
   exact hf.spells_cut hf' (by omega)
 · rw [hfar']
   exact furthest_along rfl d'
 · rw [hfarh]
   exact furthest_along rfl d
 · simp only [hera]
   exact hf.same_iff hf' (by omega) (by omega)

def row : Graph where
 directed := true
 multi := false
 nodes := ⟨[(.num 1,⟨[("label",.str "A"),("anchor",.int 1)]⟩),(.num 2,⟨[("label",.str "B")]⟩),
  (.num 3,⟨[("label",.str "C")]⟩),(.num 4,⟨[("label",.str "D")]⟩)]⟩
 edges := [⟨.num 1,.num 2,.none,.empty⟩,⟨.num 2,.num 3,.none,.empty⟩,⟨.num 3,.num 4,.none,.empty⟩]

lemma row_sound : row.Sound := by decide

lemma row_anchored : row.AnchoredAt (.num 1) :=
 anchoredAt_of_filter row_sound.ids (by simp [row,isAnchor,Table.get?,Value.same_int])

theorem row_halved : ∃ f f', (form row 2 false).2 = .ok f ∧
 (form row.toUndirected 2 false).2 = .ok f' ∧
 Spells f'.tree "AB" ∧ ¬ SpellsErased f.tree "AB" ∧ f.furthest = .int 0 ∧ f'.furthest ≠ .int 0 := by
 have hl : row.Lettered := by decide
 obtain ⟨f,f',_,d,d',hf,hf',_,_,hcut,hfar,hfar',_,hste,hsame⟩ :=
  directed_form_halved 2 row_sound rfl row_anchored hl (by decide)
 obtain ⟨hsou,hdir,hanc,hlet,hletter⟩ := undirected_keeps row_sound rfl row_anchored hl
 obtain ⟨_,_,_,hform,_,_,hfol⟩ :=
  form_follows hsou hanc hlet (by decide) (leads_undirected hdir 2)
 obtain rfl := Except.ok.inj (hf'.symm.trans hform)
 have hwalk : IsWalk row.toUndirected (.num 1) ([] ++ [.num 1] ++ [.num 2]) :=
  isWalk_concat.2 ⟨isWalk_singleton,by decide,by decide,by decide⟩
 have hspe : Spells f'.tree "AB" :=
  (hfol.spells _).2 ⟨_,hwalk,by rw [hdir]; decide,by rw [hletter]; decide⟩
 have hnot : ¬ SpellsErased f.tree "AB" := fun hera => absurd ((hcut _).1 hera).2 (by decide)
 obtain rfl : d = 0 := by omega
 refine ⟨f,f',hf,hf',hspe,hnot,hfar,?_⟩
 rw [hfar']
 rintro ⟨⟩
 exact hnot ((hsame.2 rfl _).2 hspe)

end MotifMatch.Normal
