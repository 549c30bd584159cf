import Mathlib.Logic.Function.Iterate
import MotifMatch.Proofs.WordTrees

namespace MotifMatch.Normal
open List Table

def scratch : List String := ["presence","distance"]

def Alike (a b : Attrs) : Prop := ∀ k, k ∉ scratch → a.get? k = b.get? k

structure Scribbled (g h : Graph) : Prop where
 directed : h.directed = g.directed
 multi : h.multi = g.multi
 edges : h.edges = g.edges
 ids : h.ids = g.ids
 attrs : ∀ n a, g.attrs? n = some a → ∃ b, h.attrs? n = some b ∧ b.keys.Nodup ∧ Alike b a

structure Bears (m : Manner) (g : Graph) (done counted : List Trail) (w : Word) (a : Attrs) :
 Prop where
 origin : ∃ e rest b, e :: rest ∈ done ∧ word g (e :: rest) = w ∧ g.attrs? e.1 = some b ∧ Alike a b
 distance : a.get? "distance" = some (m.distance (m.unit * w.length))
 presence : a.get? "presence" = some (.int (counted.countP fun t => w.isPrefixOf (word g t)))

structure Traced (m : Manner) (g : Graph) (done counted : List Trail) (ws : List Word)
 (s : Growth) : Prop where
 roams : ∀ t ∈ done, Roams m g t
 words : ∀ w, w ∈ ws ↔ ∃ t ∈ done, word g t = w
 input : Scribbled g s.input
 paths : s.paths.entries = ws.map fun w => (m.text w,rungs ws w)
 tree : Grown s.tree ws
 nodes : ∀ w ∈ ws, ∃ a, s.tree.attrs? (nodeOf ws w) = some a ∧ Bears m g done counted w a
 within : ∀ t ∈ counted, m.unit * t.length ≤ s.longest
 attained : s.longest = 0 ∨ ∃ t ∈ counted, m.unit * t.length = s.longest

variable {m : Manner} {g : Graph} {done counted : List Trail} {ws : List Word} {s : Growth}
 {w : Word} {e : NodeId × Bool}
 {a : Attrs} {b : Attrs} {t : Trail} {rest : Trail}

lemma Alike.put (h : Alike a b) {k : String} (hk : k ∈ scratch) (v : Value) :
 Alike (a.put k v) b := by
 intro j hj
 have hne : j ≠ k := fun hjk => hj (hjk ▸ hk)
 rw [get?_put_of_ne _ _ hne]
 exact h j hj

lemma Scribbled.refl (hg : g.Sound) : Scribbled g g where
 directed := rfl
 multi := rfl
 edges := rfl
 ids := rfl
 attrs := fun _ a ha => ⟨a,ha,hg.attrs _ (mem_of_get? ha),fun _ _ => rfl⟩

lemma Manner.steps_congr {h : Graph} (hd : h.directed = g.directed) (hm : h.multi = g.multi)
 (he : h.edges = g.edges)
 (n : NodeId) : m.steps h n = m.steps g n := by
 have hnei : h.neighbors n = g.neighbors n := by
  have hfar : h.farEnd? n = g.farEnd? n := by
   funext e
   simp [Graph.farEnd?,hd]
  simp [Graph.neighbors,he,hm,hfar]
 have hpre : h.predecessors n = g.predecessors n := by
  simp [Graph.predecessors,hd,he,hm,hnei]
 simp [Manner.steps,hd,hnei,hpre]

lemma Scribbled.label {h : Graph} (hs : Scribbled g h) {n : NodeId} {v : Value}
 (ha : h.attrs? n = some a) (hv : g.nodeAttr? n "label" = some v) : a.get? "label" = some v := by
 obtain ⟨b,hb,hbv⟩ := Option.bind_eq_some_iff.1 hv
 obtain ⟨a',ha',_,hal⟩ := hs.attrs n b hb
 obtain rfl : a' = a := Option.some.inj (ha'.symm.trans ha)
 rw [hal "label" (by decide)]
 exact hbv

def bump (a : Attrs) : Attrs :=
 a.put "presence" (match a.get? "presence" with
  | some (.int c) => .int (c + 1)
  | _ => .int 1)

lemma countAlong_frame (t : Graph) (path : List Nat) : (countAlong t path).directed = t.directed ∧
 (countAlong t path).multi = t.multi ∧ (countAlong t path).edges = t.edges ∧
 (countAlong t path).ids = t.ids := by
 induction path generalizing t with
 | nil => exact ⟨rfl,rfl,rfl,rfl⟩
 | cons n rest ih =>
  obtain ⟨hd,hm,he,hi⟩ := ih { t with nodes := t.nodes.modify (.num n) bump }
  exact ⟨hd,hm,he,hi.trans (keys_modify _ _ _)⟩

lemma countAlong_attrs {t : Graph} (ht : ∀ e ∈ t.nodes.entries, e.2.keys.Nodup) (path : List Nat) :
 ∀ e ∈ (countAlong t path).nodes.entries, e.2.keys.Nodup := by
 induction path generalizing t with
 | nil => exact ht
 | cons n rest ih =>
  refine ih ?_
  intro e he
  obtain ⟨x,hx,rfl⟩ := mem_map.1 he
  split
  · exact nodup_put (ht x hx) _ _
  · exact ht x hx

lemma attrs?_countAlong (t : Graph) {path : List Nat} (hp : path.Nodup) (i : Nat) :
 (countAlong t path).attrs? (.num i) =
  if i ∈ path then (t.attrs? (.num i)).map bump else t.attrs? (.num i) := by
 induction path generalizing t with
 | nil => rfl
 | cons n rest ih =>
  obtain ⟨hn,hres⟩ := nodup_cons.1 hp
  have hste : countAlong t (n :: rest) =
   countAlong { t with nodes := t.nodes.modify (.num n) bump } rest := rfl
  have hone : ({ t with nodes := t.nodes.modify (.num n) bump }).attrs? (.num i) =
   if i = n then (t.attrs? (.num i)).map bump else t.attrs? (.num i) := by
   simp only [Graph.attrs?,get?_modify,NodeId.num.injEq,Int.natCast_inj]
  rw [hste,ih _ hres,hone]
  by_cases hi : i = n
  · subst hi
    simp [hn]
  · simp [hi]

def waiting (m : Manner) (g : Graph) (ws : List Word) (e : NodeId × Bool) (rest : Trail) : Walk where
 node := e.1
 text := m.text (word g rest)
 path := rungs ws (word g rest)
 parent := (rungs ws (word g rest)).getLast?
 previous := rest.head?.map Prod.fst
 forward := e.2

def Manner.halts (m : Manner) (long : Trail → Bool) (e : NodeId × Bool) (rest : Trail) : Bool :=
 (e.1 == m.anchor && !rest.isEmpty) || long rest

def Manner.overlong (m : Manner) (t : Trail) : Bool := m.limit ≤ (m.unit * t.length : Nat)

lemma word_ne_nil (h : t ≠ []) : word g t ≠ [] := by
 simpa [word] using h

lemma waiting_parent (e : NodeId × Bool) (rest : Trail) (hres : rest ≠ []) :
 (waiting m g ws e rest).parent = some (ws.idxOf (word g rest)) :=
 rungs_getLast? (word_ne_nil hres)

lemma stops_waiting (e : NodeId × Bool) (rest : Trail) :
 m.stops (waiting m g ws e rest) = m.halts m.overlong e rest := by
 have hpar : (waiting m g ws e rest).parent.isSome = !rest.isEmpty := by
  cases rest with
  | nil => rfl
  | cons u rest => rw [waiting_parent _ _ (by simp)]; rfl
 have htext : (waiting m g ws e rest).text.length = m.unit * rest.length := by
  rw [waiting,text_length,word_length]
 rw [Manner.stops,Manner.halts,hpar,htext]
 rfl

def addWord (ws : List Word) (w : Word) : List Word := if w ∈ ws then ws else ws ++ [w]

section
variable (h : Traced m g done counted ws s)
include h

lemma Traced.keys : s.paths.keys = ws.map m.text := by
 simp [Table.keys,h.paths]

lemma Traced.proper (hw : w ∈ ws) : Proper m w := by
 obtain ⟨t,ht,rfl⟩ := (h.words w).1 hw
 exact (h.roams t ht).proper

lemma Traced.words_concat : (∃ x ∈ done ++ [t], word g x = w) ↔ w ∈ ws ∨ w = word g t := by
 simp only [h.words w,mem_append,mem_singleton,or_and_right,exists_or,exists_eq_left]
 rw [eq_comm (a := w)]

lemma Traced.contains_iff (hw : Proper m w) : s.paths.contains (m.text w) ↔ w ∈ ws := by
 rw [Table.contains_iff,h.keys,mem_map]
 constructor
 · rintro ⟨v,hv,heq⟩
   exact (h.proper hv).text_inj hw heq ▸ hv
 · exact fun hmem => ⟨w,hmem,rfl⟩

lemma Traced.path (hw : w ∈ ws) : s.paths.get? (m.text w) = some (rungs ws w) := by
 refine get?_of_mem ?_ ?_
 · rw [h.keys]
   exact (nodup_map_iff_inj_on h.tree.rooted.nodup).2 fun v hv u hu heq =>
    (h.proper hv).text_inj (h.proper hu) heq
 · rw [h.paths]
   exact mem_map_of_mem hw

end

lemma Traced.not_counted (h : Traced m g done done ws s) (hne : w ≠ []) (hw : w ∉ ws) :
 (done.countP fun t => w.isPrefixOf (word g t)) = 0 := by
 rw [countP_eq_zero]
 intro t ht hpre
 have hpr : w <+: word g t := by simpa using hpre
 have hmem : word g t ∈ ws := (h.words _).2 ⟨t,ht,rfl⟩
 have htake := h.tree.rooted.take_mem hmem (length_pos_iff.2 hne)
 rw [← prefix_iff_eq_take.1 hpr] at htake
 exact hw htake

def stamped (m : Manner) (w : Word) (a : Attrs) : Attrs :=
 (a.put "presence" (.int 0)).put "distance" (m.distance (m.text w).length)

lemma bears_stamped (hmem : e :: rest ∈ done)
 (hb : g.attrs? e.1 = some b) (hab : Alike a b)
 (hzero : (counted.countP fun t => (word g (e :: rest)).isPrefixOf (word g t)) = 0) :
 Bears m g done counted (word g (e :: rest)) (stamped m (word g (e :: rest)) a) where
 origin := ⟨e,rest,b,hmem,rfl,hb,(hab.put (by decide) _).put (by decide) _⟩
 distance := by rw [stamped,get?_put_self,text_length]
 presence := by
  rw [stamped,get?_put_of_ne _ _ (by decide),get?_put_self,hzero]
  rfl

lemma Bears.mono {done' : List Trail} (hb : Bears m g done counted w a)
 (hsub : ∀ t ∈ done, t ∈ done') : Bears m g done' counted w a where
 origin := by
  obtain ⟨e,rest,b,hmem,hres⟩ := hb.origin
  exact ⟨e,rest,b,hsub _ hmem,hres⟩
 distance := hb.distance
 presence := hb.presence

lemma sprout_eq (w : Walk) (v : Word) (a : Attrs) : sprout m s w (m.text v) a =
 { s with
   input := { s.input with nodes := s.input.nodes.put w.node (stamped m v a) }
   tree := match w.parent with
     | none => s.tree.addNode (.num s.tree.size) (stamped m v a)
     | some p => graft s.tree (.num s.tree.size) (.num p) (stamped m v a) !(m.marked && !w.forward)
   paths := s.paths.put (m.text v) (w.path ++ [s.tree.size]) } := by
 unfold sprout graft stamped
 cases w.parent with
 | none => rfl
 | some p =>
  simp only
  cases hb : m.marked && !w.forward <;> simp

lemma Traced.sprout_tree (h : Traced m g done counted ws s)
 (ht : Roams m g (e :: rest)) (hres : rest = [] ∧ ws = [] ∨ rest ∈ done)
 (hnew : word g (e :: rest) ∉ ws)
 (ha : (stamped m (word g (e :: rest)) a).keys.Nodup) :
 Grown (sprout m s (waiting m g ws e rest) (m.text (word g (e :: rest))) a).tree
  (ws ++ [word g (e :: rest)]) ∧
  (sprout m s (waiting m g ws e rest) (m.text (word g (e :: rest))) a).tree.nodes.entries =
   s.tree.nodes.entries ++ [(.num ws.length,stamped m (word g (e :: rest)) a)] := by
 rw [sprout_eq,h.tree.size]
 rcases hres with ⟨rfl,rfl⟩ | hres
 · have hold : s.tree.nodes.entries = [] := map_eq_nil_iff.1 h.tree.ids
   rw [hold]
   exact h.tree.root _ ha
 · have hne := (h.roams rest hres).ne_nil
   have hv : word g rest ∈ ws := (h.words _).2 ⟨rest,hres,rfl⟩
   -- without marks every later step runs along its edge
   have hfor : (!(m.marked && !e.2)) = e.2 := by
    cases hm : m.marked with
    | true => simp
    | false =>
     have hlast := ht.proper.along hm ⟨e.2,g.letter e.1⟩
     rw [word_cons,tail_append_of_ne_nil (word_ne_nil hne)] at hlast
     simpa using (hlast (by simp)).symm
   simp only [waiting_parent e rest hne]
   rw [show (waiting m g ws e rest).forward = e.2 from rfl,hfor]
   rw [word_cons] at hnew ha ⊢
   exact h.tree.graft hv hnew ha

lemma Scribbled.put {h : Graph} (hs : Scribbled g h) {n : NodeId} (hb : g.attrs? n = some b)
 (ha : a.keys.Nodup) (hab : Alike a b) : Scribbled g { h with nodes := h.nodes.put n a } where
 directed := hs.directed
 multi := hs.multi
 edges := hs.edges
 ids := by
  obtain ⟨c,hc,_⟩ := hs.attrs n b hb
  have hmem : h.nodes.contains n :=
   (contains_iff _ _).2 ((isSome_get?_iff _ _).1 (by rw [show h.nodes.get? n = some c from hc]; rfl))
  rw [← hs.ids,Graph.ids,keys_put,if_pos hmem]
  rfl
 attrs := by
  intro x c hc
  by_cases hx : x = n
  · subst hx
    obtain rfl : b = c := Option.some.inj (hb.symm.trans hc)
    exact ⟨a,get?_put_self _ _ _,ha,hab⟩
  · obtain ⟨d,hd,hres⟩ := hs.attrs x c hc
    exact ⟨d,(get?_put_of_ne _ _ hx).trans hd,hres⟩

lemma Traced.nodes_concat (h : Traced m g done counted ws s) {t : Graph} {v : Word} (hv : v ∉ ws)
 (hent : t.nodes.entries = s.tree.nodes.entries ++ [(.num ws.length,a)]) :
 (∀ w ∈ ws, t.attrs? (nodeOf (ws ++ [v]) w) = s.tree.attrs? (nodeOf ws w)) ∧
  t.attrs? (nodeOf (ws ++ [v]) v) = some a := by
 obtain ⟨hself,hold⟩ := Graph.attrs?_concat hent h.tree.fresh_not_mem
 refine ⟨fun w hw => ?_,by rw [nodeOf_concat_self hv,hself]⟩
 rw [nodeOf_append_of_mem hw,hold]
 exact fun heq => h.tree.fresh_not_mem (heq ▸ h.tree.nodeOf_mem hw)

lemma Traced.sprouted (h : Traced m g done done ws s)
 (ht : Roams m g (e :: rest)) (hres : rest = [] ∧ ws = [] ∨ rest ∈ done)
 (hnew : word g (e :: rest) ∉ ws)
 (hb : g.attrs? e.1 = some b) (ha : a.keys.Nodup) (hab : Alike a b) :
 Traced m g (done ++ [e :: rest]) done (ws ++ [word g (e :: rest)])
  (sprout m s (waiting m g ws e rest) (m.text (word g (e :: rest))) a) := by
 have hsta : (stamped m (word g (e :: rest)) a).keys.Nodup := nodup_put (nodup_put ha _ _) _ _
 obtain ⟨htree,hent⟩ := h.sprout_tree ht hres hnew hsta
 obtain ⟨hold,hself⟩ := h.nodes_concat hnew hent
 have hne : word g (e :: rest) ≠ [] := word_ne_nil (by simp)
 have hzero := h.not_counted hne hnew
 refine ⟨?_,?_,?_,?_,htree,?_,?_,?_⟩
 · exact forall_mem_append.2 ⟨h.roams,by simpa using ht⟩
 · intro w
   rw [h.words_concat,mem_append,mem_singleton]
 · rw [sprout_eq]
   exact h.input.put hb hsta ((hab.put (by decide) _).put (by decide) _)
 · have hkey : m.text (word g (e :: rest)) ∉ s.paths.keys := by
    rw [← Table.contains_iff,h.contains_iff ht.proper]
    exact hnew
   rw [sprout_eq]
   simp only [h.tree.size]
   rw [entries_put_of_not_mem _ _ hkey,h.paths,map_append,map_singleton]
   congr 1
   · exact map_congr_left fun w hw => by rw [rungs_eq_of_mem h.tree.rooted hw]
   · rw [word_cons,rungs_append,← word_cons,idxOf_append_of_notMem hnew]
     rcases hres with ⟨rfl,rfl⟩ | hmem
     · simp [waiting,rungs,word]
     · have hv : word g rest ∈ ws := (h.words _).2 ⟨rest,hmem,rfl⟩
       rw [rungs_eq_of_mem h.tree.rooted hv]
       simp [waiting]
 · intro w hw
   rcases mem_append.1 hw with hw | hw
   · obtain ⟨c,hc,hbea⟩ := h.nodes w hw
     exact ⟨c,(hold w hw).trans hc,hbea.mono fun x hx => mem_append_left _ hx⟩
   · rw [mem_singleton.1 hw]
     exact ⟨_,hself,bears_stamped (mem_append_right _ (by simp)) hb hab hzero⟩
 · rw [sprout_eq]
   exact h.within
 · rw [sprout_eq]
   exact h.attained

lemma Traced.known (h : Traced m g done counted ws s) (ht : Roams m g t) (hw : word g t ∈ ws) :
 Traced m g (done ++ [t]) counted ws s where
 roams := forall_mem_append.2 ⟨h.roams,by simpa using ht⟩
 words := by
  intro w
  rw [h.words_concat,or_iff_left_of_imp]
  rintro rfl
  exact hw
 input := h.input
 paths := h.paths
 tree := h.tree
 nodes := by
  intro w hw
  obtain ⟨a,ha,hbea⟩ := h.nodes w hw
  exact ⟨a,ha,hbea.mono fun x hx => mem_append_left _ hx⟩
 within := h.within
 attained := h.attained

lemma Alike.bump (h : Alike a b) : Alike (bump a) b := h.put (by decide) _

lemma Bears.counted_through (hb : Bears m g done counted w a)
 (h : w <+: word g t) : Bears m g done (counted ++ [t]) w (bump a) where
 origin := by
  obtain ⟨e,rest,b,hmem,hw,hbs,hab⟩ := hb.origin
  exact ⟨e,rest,b,hmem,hw,hbs,hab.bump⟩
 distance := by rw [bump,get?_put_of_ne _ _ (by decide)]; exact hb.distance
 presence := by
  have hone : (fun t => w.isPrefixOf (word g t)) t := by simpa using h
  rw [bump,get?_put_self,hb.presence,countP_append,countP_singleton,if_pos hone]
  rfl

lemma Bears.counted_past (hb : Bears m g done counted w a)
 (h : ¬ w <+: word g t) : Bears m g done (counted ++ [t]) w a where
 origin := hb.origin
 distance := hb.distance
 presence := by
  have hone : ¬ (fun t => w.isPrefixOf (word g t)) t := by simpa using h
  rw [hb.presence,countP_append,countP_singleton,if_neg hone]
  rfl

lemma Traced.count (h : Traced m g done counted ws s) (ht : t ∈ done) :
 Traced m g done (counted ++ [t]) ws { s with
   tree := countAlong s.tree (rungs ws (word g t))
   longest := max s.longest (m.unit * t.length) } := by
 have hw : word g t ∈ ws := (h.words _).2 ⟨t,ht,rfl⟩
 obtain ⟨hdir,hmul,hedg,hids⟩ := countAlong_frame s.tree (rungs ws (word g t))
 have hatt := attrs?_countAlong s.tree (h.tree.rooted.nodup_rungs hw)
 have hnod : ∀ w ∈ ws, ∃ a, (countAlong s.tree (rungs ws (word g t))).attrs? (nodeOf ws w) = some a ∧
  Bears m g done (counted ++ [t]) w a := by
  intro w hmem
  obtain ⟨a,ha,hbea⟩ := h.nodes w hmem
  rw [nodeOf] at ha ⊢
  rw [hatt,ha]
  by_cases hpre : w <+: word g t
  · exact ⟨bump a,by rw [if_pos ((h.tree.rooted.mem_rungs hmem hw).2 hpre)]; rfl,
     hbea.counted_through hpre⟩
  · exact ⟨a,by rw [if_neg fun hm => hpre ((h.tree.rooted.mem_rungs hmem hw).1 hm)],
     hbea.counted_past hpre⟩
 refine ⟨h.roams,h.words,h.input,h.paths,
  ⟨h.tree.rooted,hmul.trans h.tree.multi,hids.trans h.tree.ids,
  hedg.trans h.tree.edges,countAlong_attrs h.tree.attrs _⟩,hnod,?_,?_⟩
 · intro x hx
   rcases mem_append.1 hx with hx | hx
   · exact Nat.le_trans (h.within x hx) (Nat.le_max_left _ _)
   · rw [mem_singleton.1 hx]
     exact Nat.le_max_right _ _
 · rcases Nat.le_total s.longest (m.unit * t.length) with hle | hle
   · exact .inr ⟨t,by simp,(Nat.max_eq_right hle).symm⟩
   · rcases h.attained with hzero | ⟨x,hx,hlen⟩
     · exact .inl (by simp only; omega)
     · exact .inr ⟨x,mem_append_left _ hx,hlen.trans (Nat.max_eq_left hle).symm⟩

def onward (m : Manner) (g : Graph) (e : NodeId × Bool) (rest : Trail) : List (NodeId × Bool) :=
 (m.steps g e.1).toOption.getD [] |>.filter fun x => some x.1 != rest.head?.map Prod.fst

lemma Grounded.steps_ok (hr : Grounded m g) (n : NodeId) :
 m.steps g n = .ok ((m.steps g n).toOption.getD []) := by
 unfold Manner.steps
 split
 · next hm => rw [if_pos (hr.kind ▸ hm)]; rfl
 · rfl

lemma Traced.visit (hr : Ready m g) (h : Traced m g done done ws s)
 (ht : Roams m g (e :: rest)) (hres : rest = [] ∧ ws = [] ∨ rest ∈ done)
 (hgo : m.halts m.overlong e rest = false) :
 ∃ s', visit m s (waiting m g ws e rest) =
  (s',.ok ((onward m g e rest).map fun x => waiting m g (addWord ws (word g (e :: rest))) x
   (e :: rest))) ∧
  Traced m g (done ++ [e :: rest]) (done ++ [e :: rest]) (addWord ws (word g (e :: rest))) s' := by
 have hmem : e.1 ∈ g.ids := ht.mem_ids hr e (by simp)
 obtain ⟨b,hb⟩ := Graph.exists_attrs hmem
 obtain ⟨a,ha,hnod,hab⟩ := h.input.attrs e.1 b hb
 obtain ⟨v,hv,_⟩ := hr.lettered e.1 hmem
 have hlab := h.input.label ha hv
 have htext : (waiting m g ws e rest).text ++ m.piece (waiting m g ws e rest).forward v =
  m.text (word g (e :: rest)) := by
  rw [word_cons]
  exact text_append hr.lettered hv hmem e.2 (word g rest)
 -- the state once the word has its node
 obtain ⟨s₁,hs₁,htr₁⟩ : ∃ s₁, (if s.paths.contains (m.text (word g (e :: rest))) then s
  else sprout m s (waiting m g ws e rest) (m.text (word g (e :: rest))) a) = s₁ ∧
  Traced m g (done ++ [e :: rest]) done (addWord ws (word g (e :: rest))) s₁ := by
  by_cases hw : word g (e :: rest) ∈ ws
  · exact ⟨s,if_pos ((h.contains_iff ht.proper).2 hw),by rw [addWord,if_pos hw]; exact h.known ht hw⟩
  · refine ⟨_,if_neg fun hc => hw ((h.contains_iff ht.proper).1 hc),?_⟩
    rw [addWord,if_neg hw]
    exact h.sprouted ht hres hw hb hnod hab
 have hdone : e :: rest ∈ done ++ [e :: rest] := by simp
 have hpath : s₁.paths.getD (m.text (word g (e :: rest))) [] =
  rungs (addWord ws (word g (e :: rest))) (word g (e :: rest)) :=
  getD_of_get? (htr₁.path ((htr₁.words _).2 ⟨_,hdone,rfl⟩))
 have hlen : (m.text (word g (e :: rest))).length = m.unit * (e :: rest).length := by
  rw [text_length,word_length]
 refine ⟨_,?_,htr₁.count hdone⟩
 rw [Normal.visit,stops_waiting,hgo]
 simp only [Bool.false_eq_true,if_false]
 rw [show s.input.attrs? (waiting m g ws e rest).node = some a from ha]
 simp only [hlab,htext,hs₁,hpath,hlen]
 rw [m.steps_congr htr₁.input.directed htr₁.input.multi htr₁.input.edges,hr.grounded.steps_ok]
 rfl

open MotifMatch.Graph
variable {long : Trail → Bool} {p : Pending} {n : Nat}

abbrev Pending := (NodeId × Bool) × Trail

def visits (m : Manner) (long : Trail → Bool) (ps : List Pending) : List Trail :=
 (ps.filter fun p => !m.halts long p.1 p.2).map fun p => p.1 :: p.2

def sequel (m : Manner) (g : Graph) (long : Trail → Bool) (ps : List Pending) : List Pending :=
 (ps.filter fun p => !m.halts long p.1 p.2).flatMap fun p => (onward m g p.1 p.2).map fun x =>
  (x,p.1 :: p.2)

def roam (m : Manner) (g : Graph) (long : Trail → Bool) : Nat → List Pending → List Trail
 | 0, _ => []
 | n + 1, ps => visits m long ps ++ roam m g long n (sequel m g long ps)

def Sensible (m : Manner) (g : Graph) (long : Trail → Bool) (done : List Trail) (p : Pending) :
 Prop :=
 p.2 ∈ done ∧ (m.halts long p.1 p.2 = false → Roams m g (p.1 :: p.2))

lemma Grounded.mem_steps (hr : Grounded m g) {n : NodeId} {x : NodeId × Bool} :
 x ∈ (m.steps g n).toOption.getD [] ↔ m.Leads g n x := by
 obtain ⟨v,f⟩ := x
 unfold Manner.steps Manner.Leads
 cases hm : m.marked with
 | true =>
  have hd : g.directed := hr.kind ▸ hm
  simp only [if_true,hd,Except.toOption,Option.getD_some,mem_append,mem_map,Prod.mk.injEq,
   true_and,mem_neighbors_iff,mem_predecessors_iff]
  constructor
  · rintro (⟨u,hu,rfl,rfl⟩ | ⟨u,hu,rfl,rfl⟩)
    · exact .inl ⟨rfl,hu⟩
    · exact .inr ⟨rfl,hu⟩
  · rintro (⟨rfl,hu⟩ | ⟨rfl,hu⟩)
    · exact .inl ⟨v,hu,rfl,rfl⟩
    · exact .inr ⟨v,hu,rfl,rfl⟩
 | false =>
  simp only [Bool.false_eq_true,if_false,Except.toOption,Option.getD_some,mem_map,Prod.mk.injEq,
   false_and,or_false,mem_neighbors_iff]
  constructor
  · rintro ⟨u,hu,rfl,rfl⟩
    exact ⟨rfl,hu⟩
  · rintro ⟨rfl,hu⟩
    exact ⟨v,hu,rfl,rfl⟩

lemma Grounded.mem_onward (hr : Grounded m g) {e x : NodeId × Bool} :
 x ∈ onward m g e rest ↔ m.Leads g e.1 x ∧ rest.head?.map Prod.fst ≠ some x.1 := by
 rw [onward,mem_filter,hr.mem_steps]
 exact and_congr_right fun _ => by rw [bne_iff_ne,ne_comm]

lemma halts_eq_false {e : NodeId × Bool} :
 m.halts long e rest = false ↔ (e.1 = m.anchor → rest = []) ∧ long rest = false := by
 simp only [Manner.halts,Bool.or_eq_false_iff,Bool.and_eq_false_iff,beq_eq_false_iff_ne,ne_eq,
  Bool.not_eq_false',List.isEmpty_iff,Decidable.imp_iff_not_or]

lemma Grounded.sensible_onward (hr : Grounded m g) {e x : NodeId × Bool} (ht : Roams m g (e :: rest))
 (hmem : e :: rest ∈ done) (hx : x ∈ onward m g e rest) : Sensible m g long done (x,e :: rest) := by
 refine ⟨hmem,fun hgo => ?_⟩
 obtain ⟨hl,hprev⟩ := hr.mem_onward.1 hx
 have hne : x.1 ≠ m.anchor := fun h => by simpa using (halts_eq_false.1 hgo).1 h
 exact .step ht hl hne hprev

lemma Sensible.mono {done' : List Trail} (hsub : ∀ t ∈ done, t ∈ done')
 (h : Sensible m g long done p) : Sensible m g long done' p :=
 ⟨hsub _ h.1,h.2⟩

lemma visits_cons_of_halts (h : m.halts long p.1 p.2) (ps : List Pending) :
 visits m long (p :: ps) = visits m long ps ∧ sequel m g long (p :: ps) = sequel m g long ps := by
 simp [visits,sequel,h]

lemma visits_cons (h : m.halts long p.1 p.2 = false) (ps : List Pending) :
 visits m long (p :: ps) = (p.1 :: p.2) :: visits m long ps ∧
  sequel m g long (p :: ps) =
   (onward m g p.1 p.2).map (fun x => (x,p.1 :: p.2)) ++ sequel m g long ps := by
 simp [visits,sequel,h]

lemma mem_visits {ps : List Pending} : t ∈ visits m long ps ↔
 ∃ p ∈ ps, m.halts long p.1 p.2 = false ∧ p.1 :: p.2 = t := by
 simp [visits,and_assoc]

lemma mem_sequel {ps : List Pending} {q : Pending} : q ∈ sequel m g long ps ↔
 ∃ p ∈ ps, m.halts long p.1 p.2 = false ∧ q.2 = p.1 :: p.2 ∧ q.1 ∈ onward m g p.1 p.2 := by
 obtain ⟨x,t⟩ := q
 simp only [sequel,mem_flatMap,mem_filter,Bool.not_eq_true',mem_map,Prod.mk.injEq,and_assoc]
 constructor
 · rintro ⟨p,hp,hgo,y,hy,rfl,rfl⟩
   exact ⟨p,hp,hgo,rfl,hy⟩
 · rintro ⟨p,hp,hgo,rfl,hy⟩
   exact ⟨p,hp,hgo,x,hy,rfl,rfl⟩

def outset (m : Manner) : List Pending := [((m.anchor,false),[])]

def Due (done : List Trail) (p : Pending) : Prop := p.2 = [] ∧ done = [] ∨ p.2 ∈ done

def Agenda (m : Manner) (g : Graph) (long : Trail → Bool) (done : List Trail) (ps : List Pending) :
 Prop :=
 (∀ p ∈ ps, Sensible m g long done p) ∨ done = [] ∧ ps = outset m

lemma Agenda.cons {ps : List Pending} (h : Agenda m g long done (p :: ps)) : Due done p ∧
 (m.halts long p.1 p.2 = false → Roams m g (p.1 :: p.2)) ∧ ∀ q ∈ ps, Sensible m g long done q := by
 rcases h with h | ⟨rfl,h⟩
 · have hp := h p (by simp)
   exact ⟨.inr hp.1,hp.2,fun q hq => h q (by simp [hq])⟩
 · obtain ⟨rfl,rfl⟩ := cons.inj h
   exact ⟨.inl ⟨rfl,rfl⟩,fun _ => .start,by simp⟩

lemma Grounded.agenda_sequel (hr : Grounded m g) {ps : List Pending}
 (hps : Agenda m g long done ps) :
 Agenda m g long (done ++ visits m long ps) (sequel m g long ps) := by
 refine .inl ?_
 rintro ⟨x,t⟩ hq
 obtain ⟨p,hp,hgo,rfl,hx⟩ := mem_sequel.1 hq
 have hmem : p.1 :: p.2 ∈ done ++ visits m long ps :=
  mem_append_right _ (mem_visits.2 ⟨p,hp,hgo,rfl⟩)
 have hroa : Roams m g (p.1 :: p.2) := by
  rcases hps with h | ⟨_,rfl⟩
  · exact (h p hp).2 hgo
  · rw [mem_singleton.1 hp]
    exact .start
 exact hr.sensible_onward hroa hmem hx

structure Steady {σ : Type} (m : Manner) (g : Graph) (long : Trail → Bool)
 (wait : σ → Pending → Walk)
 (inv : List Trail → σ → Growth → Prop) : Prop where
 halt : ∀ {done c s p}, inv done c s → Due done p → m.stops (wait c p) = m.halts long p.1 p.2
 visit : ∀ {done c s p}, inv done c s → Roams m g (p.1 :: p.2) → Due done p →
  m.halts long p.1 p.2 = false →
  ∃ s' c', visit m s (wait c p) =
   (s',.ok ((onward m g p.1 p.2).map fun x => wait c' (x,p.1 :: p.2))) ∧
   inv (done ++ [p.1 :: p.2]) c' s' ∧ ∀ q : Pending, q.2 ∈ done → wait c' q = wait c q

variable {σ : Type} {wait : σ → Pending → Walk} {inv : List Trail → σ → Growth → Prop} {c : σ}

lemma Steady.visit_of_halts (hst : Steady m g long wait inv) (h : inv done c s) (hp : Due done p)
 (hgo : m.halts long p.1 p.2) : Normal.visit m s (wait c p) = (s,.ok []) := by
 rw [Normal.visit,hst.halt h hp,hgo]
 rfl

lemma Steady.visitAll (hst : Steady m g long wait inv) :
 ∀ ps {done : List Trail} {c : σ} {s : Growth},
 inv done c s → Agenda m g long done ps → ∀ found : List (List Walk),
 ∃ s' c', visitAll m s (ps.map (wait c)) found =
  (s',.ok (found.reverse.flatten ++ (sequel m g long ps).map (wait c'))) ∧
  (∀ q : Pending, q.2 ∈ done → wait c' q = wait c q) ∧ inv (done ++ visits m long ps) c' s' := by
 intro ps
 induction ps with
 | nil =>
  intro done c s h _ found
  exact ⟨s,c,by simp [Normal.visitAll,sequel],fun _ _ => rfl,by simpa [visits] using h⟩
 | cons p ps ih =>
  intro done c s h hps found
  obtain ⟨hdue,hroa,hres⟩ := hps.cons
  cases hgo : m.halts long p.1 p.2 with
  | true =>
   obtain ⟨s',c',heq,hkeep,hinv⟩ := ih h (.inl hres) ([] :: found)
   obtain ⟨hv,hq⟩ := visits_cons_of_halts hgo ps
   refine ⟨s',c',?_,hkeep,hv ▸ hinv⟩
   rw [map_cons,Normal.visitAll,hst.visit_of_halts h hdue hgo]
   simp only
   rw [heq,hq]
   simp
  | false =>
   obtain ⟨s₁,c₁,hvis,hinv₁,hkee₁⟩ := hst.visit h (hroa hgo) hdue hgo
   have hps₁ : ∀ q ∈ ps, Sensible m g long (done ++ [p.1 :: p.2]) q := fun q hq =>
    (hres q hq).mono fun t ht => mem_append_left _ ht
   have hwait := map_congr_left fun q hq => hkee₁ q (hres q hq).1
   obtain ⟨s',c',heq,hkeep,hinv⟩ := ih hinv₁ (.inl hps₁)
    (((onward m g p.1 p.2).map fun x => wait c₁ (x,p.1 :: p.2)) :: found)
   obtain ⟨hv,hq⟩ := visits_cons hgo ps
   refine ⟨s',c',?_,fun q hq => (hkeep q (mem_append_left _ hq)).trans (hkee₁ q hq),?_⟩
   · rw [map_cons,Normal.visitAll,hvis]
     simp only
     rw [← hwait,heq,hq]
     have hlast : ((onward m g p.1 p.2).map fun x => wait c₁ (x,p.1 :: p.2)) =
      (onward m g p.1 p.2).map fun x => wait c' (x,p.1 :: p.2) :=
      map_congr_left fun x _ => (hkeep (x,p.1 :: p.2) (by simp)).symm
     simp [hlast,Function.comp_def]
   · rw [hv]
     simpa using hinv

lemma roam_nil (k : Nat) : roam m g long k [] = [] := by
 induction k with
 | zero => rfl
 | succ k ih => simpa [roam,visits,sequel] using ih

lemma Steady.grow (hr : Grounded m g) (hst : Steady m g long wait inv) : ∀ n {ps : List Pending}
 {done : List Trail} {c : σ} {s : Growth}, inv done c s → Agenda m g long done ps →
 (sequel m g long)^[n] ps = [] →
 ∃ s' c', grow m n s (ps.map (wait c)) = (s',.ok ()) ∧ inv (done ++ roam m g long n ps) c' s' := by
 intro n
 induction n with
 | zero =>
  intro ps done c s h _ hend
  obtain rfl : ps = [] := hend
  exact ⟨s,c,rfl,by simpa [roam] using h⟩
 | succ n ih =>
  intro ps done c s h hps hend
  rw [Function.iterate_succ_apply] at hend
  obtain ⟨s₁,c₁,hall,_,hinv₁⟩ := hst.visitAll ps h hps []
  obtain ⟨s',c',hgrow,hinv⟩ := ih hinv₁ (hr.agenda_sequel hps) hend
  rw [append_assoc] at hinv
  cases ps with
  | nil => exact ⟨s,c,rfl,by simpa [roam_nil] using h⟩
  | cons p ps =>
   refine ⟨s',c',?_,hinv⟩
   rw [map_cons,Normal.grow]
   · rw [← map_cons,hall]
     simpa using hgrow
   · simp

section

structure Lengthens (m : Manner) (g : Graph) (long : Trail → Bool) (bound : Nat) : Prop where
 stays : ∀ e t, long t = true → long (e :: t) = true
 reached : ∀ t, t = [] ∨ Roams m g t → bound ≤ t.length → long t = true

variable {bound : Nat}

lemma Grounded.mem_visits_round (hr : Grounded m g) (hlong : Lengthens m g long bound) (k : Nat) :
 ∀ t : Trail,
 t ∈ visits m long ((sequel m g long)^[k] (outset m)) ↔ Roams m g t ∧ t.length = k + 1 ∧
  long t.tail = false := by
 induction k with
 | zero =>
  intro t
  simp only [Function.iterate_zero,id_eq,mem_visits,outset,mem_singleton,exists_eq_left,
   halts_eq_false]
  constructor
  · rintro ⟨⟨_,hlim⟩,rfl⟩
    exact ⟨.start,rfl,hlim⟩
  · rintro ⟨ht,hlen,hlim⟩
    cases ht with
    | start => exact ⟨⟨fun _ => trivial,hlim⟩,rfl⟩
    | step => simp at hlen
 | succ k ih =>
  intro t
  rw [Function.iterate_succ_apply',mem_visits]
  constructor
  · rintro ⟨⟨x,t'⟩,hq,hgo,rfl⟩
    obtain ⟨p,hp,hpgo,hpt,hx⟩ := mem_sequel.1 hq
    obtain rfl : t' = p.1 :: p.2 := hpt
    obtain ⟨hroam,hlen,_⟩ := (ih _).1 (mem_visits.2 ⟨p,hp,hpgo,rfl⟩)
    have hsens : Sensible m g long [p.1 :: p.2] (x,p.1 :: p.2) :=
     hr.sensible_onward hroam (by simp) hx
    exact ⟨hsens.2 hgo,by simp only [length_cons] at hlen ⊢; omega,(halts_eq_false.1 hgo).2⟩
  · rintro ⟨ht,hlen,hlim⟩
    cases ht with
    | start => simp at hlen
    | @step u e rest hu hl hne hprev =>
     have hlim' : long rest = false := by
      rw [Bool.eq_false_iff]
      intro h
      rw [tail_cons,hlong.stays u rest h] at hlim
      cases hlim
     obtain ⟨p,hp,hpgo,hpt⟩ := mem_visits.1 ((ih (u :: rest)).2 ⟨hu,by simpa using hlen,hlim'⟩)
     obtain ⟨rfl,rfl⟩ := cons.inj hpt
     exact ⟨(e,p.1 :: p.2),mem_sequel.2 ⟨p,hp,hpgo,rfl,hr.mem_onward.2 ⟨hl,hprev⟩⟩,
      halts_eq_false.2 ⟨fun h => absurd h hne,hlim⟩,rfl⟩

lemma mem_roam {ps : List Pending} : t ∈ roam m g long n ps ↔
 ∃ k < n, t ∈ visits m long ((sequel m g long)^[k] ps) := by
 induction n generalizing ps with
 | zero => simp [roam]
 | succ n ih =>
  rw [roam,mem_append,ih]
  constructor
  · rintro (h | ⟨k,hk,h⟩)
    · exact ⟨0,Nat.succ_pos n,h⟩
    · exact ⟨k + 1,Nat.succ_lt_succ hk,h⟩
  · rintro ⟨k,hk,h⟩
    cases k with
    | zero => exact .inl h
    | succ k => exact .inr ⟨k,Nat.lt_of_succ_lt_succ hk,h⟩

lemma sequel_eq_nil {ps : List Pending} (h : visits m long ps = []) : sequel m g long ps = [] := by
 have hnone := map_eq_nil_iff.1 h
 rw [sequel,hnone]
 rfl

lemma Roams.tail_length_lt (hlong : Lengthens m g long bound) (ht : Roams m g t)
 (hlim : long t.tail = false) : t.tail.length < bound := by
 by_contra hge
 have hroa : t.tail = [] ∨ Roams m g t.tail := by
  obtain ⟨e,rest,rfl⟩ := exists_cons_of_ne_nil ht.ne_nil
  exact ht.tail
 rw [hlong.reached _ hroa (by omega)] at hlim
 cases hlim

variable (hr : Grounded m g) (hlong : Lengthens m g long bound) (hn : bound ≤ n)
include hr hlong hn

lemma Grounded.outset_ends : (sequel m g long)^[n + 1] (outset m) = [] := by
 rw [Function.iterate_succ_apply']
 refine sequel_eq_nil (eq_nil_iff_forall_not_mem.2 fun t ht => ?_)
 obtain ⟨hroa,hlen,hlim⟩ := (hr.mem_visits_round hlong n t).1 ht
 have hlt := hroa.tail_length_lt hlong hlim
 rw [length_tail] at hlt
 omega

lemma Grounded.mem_roam_outset : t ∈ roam m g long (n + 1) (outset m) ↔ Roams m g t ∧
 long t.tail = false := by
 rw [mem_roam]
 constructor
 · rintro ⟨k,_,hk⟩
   obtain ⟨ht,_,hlim⟩ := (hr.mem_visits_round hlong k t).1 hk
   exact ⟨ht,hlim⟩
 · rintro ⟨ht,hlim⟩
   have hpos : 0 < t.length := length_pos_iff.2 ht.ne_nil
   have hlt := ht.tail_length_lt hlong hlim
   rw [length_tail] at hlt
   exact ⟨t.length - 1,by omega,(hr.mem_visits_round hlong _ t).2 ⟨ht,by omega,hlim⟩⟩

end

lemma sprout_directed (w : Walk) (text : String) (a : Attrs) :
 (sprout m s w text a).tree.directed = s.tree.directed := by
 unfold sprout
 cases w.parent with
 | none => rfl
 | some p =>
  simp only
  split <;> exact directed_addEdge _ _ _

lemma visit_directed (s : Growth) (w : Walk) : (visit m s w).1.tree.directed = s.tree.directed := by
 unfold visit
 split
 · rfl
 · split
   · rfl
   · split
     · rfl
     · simp only [(countAlong_frame _ _).1]
       split
       · rfl
       · exact sprout_directed _ _ _

lemma Steady.directed {d : Bool} (hst : Steady m g long wait inv) :
 Steady m g long wait fun done c s => inv done c s ∧ s.tree.directed = d where
 halt := fun h => hst.halt h.1
 visit := by
  rintro done c s p ⟨h,hd⟩ ht hdue hgo
  obtain ⟨s',c',hvis,hinv,hkeep⟩ := hst.visit h ht hdue hgo
  have hdir := visit_directed (m := m) s (wait c p)
  rw [hvis] at hdir
  exact ⟨s',c',hvis,⟨hinv,hdir.trans hd⟩,hkeep⟩

lemma limit_lt_lengthBound (g : Graph) (limit : Int) : limit.toNat < lengthBound g limit := by
 have h : (limit.toNat + 2) * 1 ≤ (limit.toNat + 2) * (g.size + 2) :=
  Nat.mul_le_mul_left _ (by omega)
 rw [lengthBound]
 omega

lemma Steady.formBy {limit : Int} {marked : Bool}
 (hst : Steady ⟨marked,limit,g.anchor⟩ g long wait inv) (hr : Grounded ⟨marked,limit,g.anchor⟩ g)
 (hlong : Lengthens ⟨marked,limit,g.anchor⟩ g long limit.toNat) {d : Bool}
 (hinv : inv [] c ⟨g,.empty d,.empty,0⟩)
 (hwait : wait c ((g.anchor,false),[]) = ⟨g.anchor,"",[],none,none,false⟩) :
 ∃ s c' done, formBy g limit marked d =
  (s.input,.ok ⟨s.tree,Manner.furthest ⟨marked,limit,g.anchor⟩ s.longest⟩) ∧ s.tree.directed = d ∧
  inv done c' s ∧ ∃ n, limit.toNat ≤ n ∧ done = roam ⟨marked,limit,g.anchor⟩ g long (n + 1)
   (outset ⟨marked,limit,g.anchor⟩) := by
 obtain ⟨n,hn⟩ : ∃ n, lengthBound g limit = n + 1 :=
  ⟨_,(Nat.succ_pred_eq_of_pos (by have := limit_lt_lengthBound g limit; omega)).symm⟩
 have hle : limit.toNat ≤ n := by
  have := limit_lt_lengthBound g limit
  omega
 obtain ⟨s,c',hgrow,hend,hdir⟩ :=
  hst.directed.grow hr (n + 1) ⟨hinv,rfl⟩ (.inr ⟨rfl,rfl⟩) (hr.outset_ends hlong hle)
 refine ⟨s,c',_,?_,hdir,hend,n,hle,rfl⟩
 rw [outset,map_singleton,hwait] at hgrow
 rw [Normal.formBy,hn,hgrow]

lemma Traced.waiting_eq (h : Traced m g done counted ws s) {vs : List Word} (hpre : ws <+: vs)
 (hp : p.2 ∈ done) : waiting m g vs p.1 p.2 = waiting m g ws p.1 p.2 := by
 obtain ⟨us,rfl⟩ := hpre
 have hw : word g p.2 ∈ ws := (h.words _).2 ⟨_,hp,rfl⟩
 simp only [waiting,rungs_eq_of_mem h.tree.rooted hw]

lemma prefix_addWord (w : Word) : ws <+: addWord ws w := by
 unfold addWord
 split
 · exact prefix_rfl
 · exact prefix_append _ _

lemma Ready.steady (hr : Ready m g) : Steady m g m.overlong (fun ws p => waiting m g ws p.1 p.2)
 fun done ws s => Traced m g done done ws s where
 halt := fun _ _ => stops_waiting _ _
 visit := by
  intro done ws s p h ht hdue hgo
  have hsta : p.2 = [] ∧ ws = [] ∨ p.2 ∈ done := by
   rcases hdue with ⟨hp,rfl⟩ | hp
   · exact .inl ⟨hp,eq_nil_iff_forall_not_mem.2 fun w hw => by simpa using (h.words w).1 hw⟩
   · exact .inr hp
  obtain ⟨s',hvis,htr⟩ := h.visit hr ht hsta hgo
  exact ⟨s',_,hvis,htr,fun q hq => h.waiting_eq (prefix_addWord _) hq⟩

lemma unit_pos : 0 < m.unit := by
 unfold Manner.unit
 split <;> simp

lemma lengthens_overlong : Lengthens m g m.overlong m.limit.toNat where
 stays := by
  intro e t h
  simp only [Manner.overlong,decide_eq_true_eq,length_cons] at h ⊢
  have hle : m.unit * t.length ≤ m.unit * (t.length + 1) := Nat.mul_le_mul_left _ (Nat.le_succ _)
  omega
 reached := by
  intro t _ h
  have hle : t.length ≤ m.unit * t.length := Nat.le_mul_of_pos_left _ unit_pos
  simp only [Manner.overlong,decide_eq_true_eq]
  omega

lemma traced_start (hg : g.Sound) (d : Bool) :
 Traced m g [] [] [] ⟨g,.empty d,.empty,0⟩ where
 roams := by simp
 words := by simp
 input := .refl hg
 paths := rfl
 tree := grown_empty d
 nodes := by simp
 within := by simp
 attained := .inl rfl

lemma formBy_traced {limit : Int} {marked : Bool} (hr : Ready ⟨marked,limit,g.anchor⟩ g) (d : Bool) :
 ∃ s ws done, formBy g limit marked d =
  (s.input,.ok ⟨s.tree,Manner.furthest ⟨marked,limit,g.anchor⟩ s.longest⟩) ∧ s.tree.directed = d ∧
  Traced ⟨marked,limit,g.anchor⟩ g done done ws s ∧
  ∀ t, t ∈ done ↔ Roams ⟨marked,limit,g.anchor⟩ g t ∧
   (((if marked then 2 else 1) * (t.length - 1) : Nat) : Int) < limit := by
 obtain ⟨s,ws,done,hform,hdir,htr,n,hn,rfl⟩ :=
  hr.steady.formBy hr.grounded lengthens_overlong (traced_start hr.sound d) rfl
 refine ⟨s,ws,_,hform,hdir,htr,fun t => ?_⟩
 rw [hr.grounded.mem_roam_outset lengthens_overlong hn]
 simp [Manner.overlong,Manner.unit]

end MotifMatch.Normal
