import MotifMatch.Proofs.WalkTexts

namespace MotifMatch.Normal
open Table MotifMatch.Graph Option List
variable {m : Manner} {g h k : Graph} {s s' : Growth}
section

def stamp (c v : Value) (a : Attrs) : Attrs := (a.put "presence" c).put "distance" v

lemma stamp_stamp (c v c' v' : Value) (a : Attrs) : stamp c v (stamp c' v' a) = stamp c v a := by
 have hmem : "presence" ∈ (a.put "presence" c').keys := mem_keys_put.2 (.inr rfl)
 rw [stamp,stamp,put_comm_of_mem hmem (by decide),put_put_self,put_put_self,stamp]

lemma get?_stamp {name : String} (hnam : name ∉ scratch) (c v : Value) (a : Attrs) :
 (stamp c v a).get? name = a.get? name := by
 simp only [scratch,mem_cons,not_mem_nil,or_false,not_or] at hnam
 rw [stamp,get?_put_of_ne _ _ hnam.2,get?_put_of_ne _ _ hnam.1]

structure Redrawn (g h : Graph) : Prop where
 directed : h.directed = g.directed
 multi : h.multi = g.multi
 edges : h.edges = g.edges
 ids : h.ids = g.ids
 attrs : ∀ n c v, (h.attrs? n).map (stamp c v) = (g.attrs? n).map (stamp c v)

lemma Redrawn.refl (g : Graph) : Redrawn g g := ⟨rfl,rfl,rfl,rfl,fun _ _ _ => rfl⟩

lemma Redrawn.symm (hr : Redrawn g h) : Redrawn h g :=
 ⟨hr.directed.symm,hr.multi.symm,hr.edges.symm,hr.ids.symm,fun n c v => (hr.attrs n c v).symm⟩

lemma Redrawn.trans (hr : Redrawn g h) (hr' : Redrawn h k) : Redrawn g k where
 directed := hr'.directed.trans hr.directed
 multi := hr'.multi.trans hr.multi
 edges := hr'.edges.trans hr.edges
 ids := hr'.ids.trans hr.ids
 attrs := fun n c v => (hr'.attrs n c v).trans (hr.attrs n c v)

lemma redrawn_put {n : NodeId} {a : Attrs} (ha : h.attrs? n = some a) (c v : Value) :
 Redrawn h { h with nodes := h.nodes.put n (stamp c v a) } where
 directed := rfl
 multi := rfl
 edges := rfl
 ids := by
  have hmem : h.nodes.contains n :=
   (contains_iff _ _).2 ((isSome_get?_iff _ _).1 (by rw [show h.nodes.get? n = some a from ha]; rfl))
  rw [ids,keys_put,if_pos hmem]
  rfl
 attrs := by
  intro x c' v'
  by_cases hx : x = n
  · rw [hx,ha,attrs?,get?_put_self,map_some,stamp_stamp]
    rfl
  · rw [attrs?,get?_put_of_ne _ _ hx]
    rfl

lemma Redrawn.exists_attrs (hr : Redrawn g h) {n : NodeId} {a : Attrs} (ha : g.attrs? n = some a) :
 ∃ b, h.attrs? n = some b ∧ ∀ c v, stamp c v b = stamp c v a := by
 have hmap := hr.attrs n
 simp only [ha,map_some,map_eq_some_iff] at hmap
 obtain ⟨b,hb,_⟩ := hmap .none .none
 refine ⟨b,hb,fun c v => ?_⟩
 obtain ⟨b',hb',heq⟩ := hmap c v
 rwa [some.inj (hb.symm.trans hb')]

lemma alike_of_stamp {a b : Attrs} (hab : ∀ c v, stamp c v b = stamp c v a) : Alike b a := by
 intro name hnam
 rw [← get?_stamp hnam .none .none b,hab,get?_stamp hnam]

variable (hr : Redrawn g h)
include hr

lemma Redrawn.nodeAttr? (n : NodeId) {name : String} (hnam : name ∉ scratch) :
 h.nodeAttr? n name = g.nodeAttr? n name := by
 cases ha : g.attrs? n with
 | none =>
  have hnone : h.attrs? n = none := by simpa [ha] using hr.attrs n .none .none
  rw [Graph.nodeAttr?,Graph.nodeAttr?,ha,hnone]
 | some a =>
  obtain ⟨b,hb,hab⟩ := hr.exists_attrs ha
  rw [Graph.nodeAttr?,Graph.nodeAttr?,ha,hb,Option.bind_some,Option.bind_some,
   alike_of_stamp hab name hnam]

lemma Redrawn.scribbled (hg : g.Sound) : Scribbled g h where
 directed := hr.directed
 multi := hr.multi
 edges := hr.edges
 ids := hr.ids
 attrs := by
  intro n a ha
  obtain ⟨b,hb,hab⟩ := hr.exists_attrs ha
  have hnod : (stamp .none .none a).keys.Nodup :=
   nodup_put (nodup_put (hg.attrs _ (mem_of_get? ha)) _ _) _ _
  rw [← hab] at hnod
  exact ⟨b,hb,nodup_of_nodup_put (nodup_of_nodup_put hnod),alike_of_stamp hab⟩

lemma Redrawn.anchoredAt {a : NodeId} (ha : g.AnchoredAt a) : h.AnchoredAt a := by
 rw [anchoredAt_iff] at ha ⊢
 intro n
 rw [hr.nodeAttr? n (by decide),ha n]

lemma Redrawn.anchor_eq (hg : g.ids.Nodup) {a : NodeId} (ha : g.AnchoredAt a) :
 h.anchor = g.anchor := by
 rw [(hr.anchoredAt ha).anchor_eq (hr.ids ▸ hg),ha.anchor_eq hg]

end

structure Abreast (s s' : Growth) : Prop where
 input : Redrawn s.input s'.input
 tree : s'.tree = s.tree
 paths : s'.paths = s.paths
 longest : s'.longest = s.longest

lemma sprout_input (w : Walk) (text : String) (a : Attrs) : (sprout m s w text a).input =
 { s.input with nodes := s.input.nodes.put w.node (stamp (.int 0) (m.distance text.length) a) } :=
  rfl

lemma Abreast.sprout (hs : Abreast s s') (w : Walk) (text : String) {a b : Attrs}
 (ha : s.input.attrs? w.node = some a)
 (hb : s'.input.attrs? w.node = some b) (hab : ∀ c v, stamp c v b = stamp c v a) :
 Abreast (sprout m s w text a) (sprout m s' w text b) where
 input := ((redrawn_put ha _ _).symm.trans hs.input).trans (redrawn_put hb _ _)
 tree := by
  have hsta := hab (.int 0) (m.distance text.length)
  unfold stamp at hsta
  unfold Normal.sprout
  rw [hs.tree,hsta]
 paths := by
  unfold Normal.sprout
  rw [hs.tree,hs.paths]
 longest := hs.longest

lemma Abreast.visit (hs : Abreast s s') (w : Walk) :
 Abreast (visit m s w).1 (visit m s' w).1 ∧ (visit m s' w).2 = (visit m s w).2 := by
 unfold Normal.visit
 split
 · exact ⟨hs,rfl⟩
 · cases ha : s.input.attrs? w.node with
   | none =>
    have hb : s'.input.attrs? w.node = none := by simpa [ha] using hs.input.attrs w.node .none .none
    rw [hb]
    exact ⟨hs,rfl⟩
   | some a =>
    obtain ⟨b,hb,hab⟩ := hs.input.exists_attrs ha
    have hlab : b.get? "label" = a.get? "label" := alike_of_stamp hab "label" (by decide)
    simp only [hb,hlab]
    cases a.get? "label" with
    | none => exact ⟨hs,rfl⟩
    | some label =>
     simp only [hs.paths]
     set text := w.text ++ m.piece w.forward label
     -- the two growths once the text has its node
     obtain ⟨s₁,s₁',hs₁,hs₁',hsame⟩ : ∃ s₁ s₁', (if s.paths.contains text then s else
      Normal.sprout m s w text a) = s₁ ∧ (if s.paths.contains text then s' else
      Normal.sprout m s' w text b) = s₁' ∧ Abreast s₁ s₁' := by
      refine ⟨_,_,rfl,rfl,?_⟩
      split
      · exact hs
      · exact hs.sprout w text ha hb hab
     rw [hs₁,hs₁',hsame.paths,hsame.tree,hsame.longest,
      m.steps_congr hsame.input.directed hsame.input.multi hsame.input.edges]
     exact ⟨⟨hsame.input,rfl,rfl,rfl⟩,rfl⟩

lemma Abreast.visitAll : ∀ ws {s s' : Growth} found, Abreast s s' →
 Abreast (visitAll m s ws found).1 (visitAll m s' ws found).1 ∧
  (visitAll m s' ws found).2 = (visitAll m s ws found).2 := by
 intro ws
 induction ws with
 | nil => exact fun _ hs => ⟨hs,rfl⟩
 | cons w ws ih =>
  intro s s' found hs
  obtain ⟨hvis,hres⟩ := hs.visit w
  rw [Normal.visitAll,Normal.visitAll]
  cases hv : Normal.visit m s w with
  | mk s₁ r =>
   cases hv' : Normal.visit m s' w with
   | mk s₁' r' =>
    rw [hv,hv'] at hvis hres
    obtain rfl : r' = r := hres
    cases r' with
    | error e => exact ⟨hvis,rfl⟩
    | ok more => exact ih (more :: found) hvis

lemma Abreast.grow : ∀ n {s s' : Growth} ws, Abreast s s' →
 Abreast (grow m n s ws).1 (grow m n s' ws).1 ∧
  (grow m n s' ws).2 = (grow m n s ws).2 := by
 intro n
 induction n with
 | zero =>
  intro s s' ws hs
  cases ws <;> exact ⟨hs,rfl⟩
 | succ n ih =>
  intro s s' ws hs
  cases ws with
  | nil => exact ⟨hs,rfl⟩
  | cons w ws =>
   obtain ⟨hall,hres⟩ := Abreast.visitAll (w :: ws) [] hs
   rw [Normal.grow,Normal.grow]
   · cases hv : Normal.visitAll m s (w :: ws) [] with
     | mk s₁ r =>
      cases hv' : Normal.visitAll m s' (w :: ws) [] with
      | mk s₁' r' =>
       rw [hv,hv'] at hall hres
       obtain rfl : r' = r := hres
       cases r' with
       | error e => exact ⟨hall,rfl⟩
       | ok more => exact ih more hall
   · simp
   · simp

lemma form_eq_formBy (g : Graph) (limit : Int) (forced : Bool) :
 form g limit forced = formBy g limit g.directed (g.directed || forced) := by
 unfold form
 cases g.directed <;> rfl

lemma Redrawn.form_eq (hr : Redrawn g h) (hg : g.ids.Nodup) {a : NodeId} (ha : g.AnchoredAt a)
 (limit : Int)
 (forced : Bool) : (form h limit forced).2 = (form g limit forced).2 := by
 have hsiz : h.size = g.size := by
  have hlen := congrArg length hr.ids
  simpa [Graph.ids,Graph.size,Table.keys,Table.size] using hlen
 rw [form_eq_formBy,form_eq_formBy,hr.directed,formBy,formBy,hr.anchor_eq hg ha,lengthBound,
  lengthBound,hsiz]
 have hsta : Abreast ⟨g,.empty (g.directed || forced),.empty,0⟩ ⟨h,.empty (g.directed || forced),
  .empty,0⟩ :=
  ⟨hr,rfl,rfl,rfl⟩
 obtain ⟨hend,hres⟩ := Abreast.grow ((limit.toNat + 2) * (g.size + 2))
  [⟨g.anchor,"",[],none,none,false⟩] hsta
 revert hend hres
 generalize grow _ _ ⟨g,_,_,_⟩ _ = x
 generalize grow _ _ ⟨h,_,_,_⟩ _ = y
 obtain ⟨s,r⟩ := x
 obtain ⟨s',r'⟩ := y
 rintro hend rfl
 cases r' with
 | error e => rfl
 | ok u =>
  obtain ⟨_,htree,_,hlon⟩ : Abreast s s' := hend
  simp only [htree,hlon]

section
variable {a : NodeId} {limit : Int}
variable (hr : Redrawn g h)
include hr

lemma Redrawn.joins (u v : NodeId) (e : Edge) : h.joins u v e = g.joins u v e :=
 joins_of_directed hr.directed

lemma Redrawn.hasEdge (u v : NodeId) : h.hasEdge u v = g.hasEdge u v := by
 rw [Graph.hasEdge,Graph.hasEdge,hr.edges,show h.joins u v = g.joins u v from funext (hr.joins u v)]

lemma Redrawn.sound (hg : g.Sound) : h.Sound where
 ids := hr.ids ▸ hg.ids
 attrs := by
  rintro ⟨n,b⟩ hmem
  have hids : h.ids.Nodup := hr.ids ▸ hg.ids
  have hb : h.attrs? n = some b := get?_of_mem hids hmem
  obtain ⟨a,ha,-⟩ := hr.symm.exists_attrs hb
  obtain ⟨b',hb',hnod,-⟩ := (hr.scribbled hg).attrs n a ha
  exact some.inj (hb'.symm.trans hb) ▸ hnod
 ends := fun e he => hr.ids ▸ hg.ends e (hr.edges ▸ he)
 edgeAttrs := fun e he => hg.edgeAttrs e (hr.edges ▸ he)
 single := by
  intro hm
  simp only [hr.edges,hr.joins]
  exact hg.single (hr.multi ▸ hm)

lemma Redrawn.walkText (w : List (NodeId × Bool)) : h.walkText w = g.walkText w := by
 have hste : h.stepText = g.stepText := by
  funext e
  rw [stepText,stepText,hr.directed,hr.nodeAttr? e.1 (by decide)]
 rw [Graph.walkText,Graph.walkText,hste]

lemma Redrawn.admissible {w : List (NodeId × Bool)} (hw : Admissible h a limit w) :
 Admissible g a limit w where
 walk := by
  have hste : Steps h = Steps g := by
   funext u v
   simp only [Steps,hr.hasEdge]
  exact ⟨hw.walk.start,hste ▸ hw.walk.joined,hw.walk.away,hw.walk.onward⟩
 along := hr.directed ▸ hw.along
 within := by
  rw [← hr.walkText]
  exact hw.within

end
end MotifMatch.Normal

namespace MotifMatch
open List MotifMatch.Graph Table

def Graph.Printable (g : Graph) : Prop :=
 ∀ n ∈ g.ids, ∃ v, g.nodeAttr? n "label" = some v ∧ v.text ≠ ""

instance (g : Graph) : Decidable g.Printable :=
 decidable_of_iff (∀ n ∈ g.ids, ((g.nodeAttr? n "label").any fun v => v.text != "") = true) (by
  simp only [Printable,Option.any_eq_true,bne_iff_ne])

variable {e : NodeId × Bool}

lemma Graph.Printable.length_stepText_pos {g : Graph} (hl : g.Printable) (he : e.1 ∈ g.ids) :
 0 < (g.stepText e).length := by
 obtain ⟨v,hv,hne⟩ := hl e.1 he
 have hpos : 0 < v.text.length := pos_of_ne_zero fun h => hne (String.length_eq_zero_iff.1 h)
 rw [stepText,hv,String.length_append]
 exact Nat.add_pos_right _ hpos

namespace Normal
variable {m : Manner} {g : Graph} {s : Growth} {done : List Trail} {paths : Table String (List Nat)}

def Manner.outgrown (m : Manner) (g : Graph) (t : Trail) : Bool :=
 m.limit ≤ ((g.walkText t.reverse).length : Int)

lemma walkText_cons (e : NodeId × Bool) (t : Trail) :
 g.walkText (e :: t).reverse = g.walkText t.reverse ++ g.stepText e := by
 rw [reverse_cons,walkText_concat]

lemma Grounded.length_le (hr : Grounded m g) (hl : g.Printable) {t : Trail} (ht : Roams m g t) :
 t.length ≤ (g.walkText t.reverse).length := by
 have hmem := hr.mem_ids ht
 clear ht
 induction t with
 | nil => exact Nat.zero_le _
 | cons e t ih =>
  have hpos := hl.length_stepText_pos (hmem e (by simp))
  have hle := ih fun x hx => hmem x (by simp [hx])
  rw [walkText_cons,String.length_append,length_cons]
  omega

lemma Grounded.walkText_ne_empty (hr : Grounded m g) (hl : g.Printable) {t : Trail}
 (ht : Roams m g t) :
 g.walkText t.reverse ≠ "" := by
 intro hemp
 have hle := hr.length_le hl ht
 rw [hemp] at hle
 exact ht.ne_nil (length_eq_zero_iff.1 (Nat.le_zero.1 hle))

section

def awaiting (g : Graph) (paths : Table String (List Nat)) (p : Pending) : Walk where
 node := p.1.1
 text := g.walkText p.2.reverse
 path := paths.getD (g.walkText p.2.reverse) []
 parent := (paths.getD (g.walkText p.2.reverse) []).getLast?
 previous := p.2.head?.map Prod.fst
 forward := p.1.2

structure Stems (m : Manner) (g : Graph) (done : List Trail) (paths : Table String (List Nat))
 (t : Graph) (i : Nat)
 (x : String) (path : List Nat) (e : NodeId × Bool) (rest : Trail) : Prop where
 visited : e :: rest ∈ done
 before : rest = [] ∨ rest ∈ done
 text : x = g.walkText (e :: rest).reverse
 path : path = paths.getD (g.walkText rest.reverse) [] ++ [i]
 later : ∀ k ∈ paths.getD (g.walkText rest.reverse) [], k < i
 shows : ∀ name, name ∉ scratch → t.nodeAttr? (.num i) name = g.nodeAttr? e.1 name
 distance : t.nodeAttr? (.num i) "distance" = some (m.distance x.length)

structure Kept (m : Manner) (g : Graph) (done : List Trail) (paths : Table String (List Nat))
 (s : Growth) : Prop where
 record : s.paths = paths
 roams : ∀ t ∈ done, Roams m g t
 seen : ∀ t ∈ done, g.walkText t.reverse ∈ paths.keys
 nodup : paths.keys.Nodup
 input : Redrawn g s.input
 spared : ∀ n, (∀ t ∈ done, t.head?.map Prod.fst ≠ some n) → s.input.attrs? n = g.attrs? n
 multi : s.tree.multi = false
 ids : s.tree.ids = (range paths.size).map fun i => .num i
 origin : ∀ (i : Nat) (x : String) (path : List Nat), paths.entries[i]? = some (x,path) →
  ∃ e rest, Stems m g done paths s.tree i x path e rest
 edges : ∀ u v, s.tree.hasEdge u v = true ∨ s.tree.hasEdge v u = true ↔ ∃ x path p i,
  (x,path ++ [p,i]) ∈ paths.entries ∧ (u = .num p ∧ v = .num i ∨ u = .num i ∧ v = .num p)

variable {x : String} {t : Graph}

lemma Stems.mono {done' : List Trail} {paths' : Table String (List Nat)} {t t' : Graph} {i : Nat}
 {path : List Nat} {rest : Trail} (hs : Stems m g done paths t i x path e rest)
 (hdone : ∀ r ∈ done, r ∈ done')
 (hkeep : paths'.getD (g.walkText rest.reverse) [] = paths.getD (g.walkText rest.reverse) [])
 (hsho : ∀ name, name ≠ "presence" → t'.nodeAttr? (.num i) name = t.nodeAttr? (.num i) name) :
 Stems m g done' paths' t' i x path e rest where
 visited := hdone _ hs.visited
 before := hs.before.imp_right (hdone _)
 text := hs.text
 path := hkeep ▸ hs.path
 later := hkeep ▸ hs.later
 shows := fun name hnam => (hsho name fun h => hnam (h ▸ by decide)).trans (hs.shows name hnam)
 distance := (hsho _ (by decide)).trans hs.distance

lemma Kept.exists_place (hk : Kept m g done paths s) (hx : x ∈ paths.keys) :
 ∃ (i : Nat) (path : List Nat), paths.entries[i]? = some (x,path) ∧ paths.getD x [] = path := by
 obtain ⟨⟨_,path⟩,hmem,rfl⟩ := mem_map.1 hx
 obtain ⟨i,hi⟩ := mem_iff_getElem?.1 hmem
 exact ⟨i,path,hi,getD_of_get? (get?_of_mem hk.nodup hmem)⟩

lemma Kept.path_of_mem (hk : Kept m g done paths s) (hx : x ∈ paths.keys) :
 ∃ i q, i < paths.size ∧ paths.getD x [] = q ++ [i] ∧ ∀ j ∈ q, j < i := by
 obtain ⟨i,path,hi,hpath⟩ := hk.exists_place hx
 obtain ⟨e,rest,hs⟩ := hk.origin i x path hi
 exact ⟨i,_,(lt_length hi),hpath.trans hs.path,hs.later⟩

lemma Kept.empty_not_mem (hr : Grounded m g) (hl : g.Printable) (hk : Kept m g done paths s) :
 "" ∉ paths.keys := by
 intro hmem
 obtain ⟨i,path,hi,_⟩ := hk.exists_place hmem
 obtain ⟨e,rest,hs⟩ := hk.origin i _ path hi
 exact hr.walkText_ne_empty hl (hk.roams _ hs.visited) hs.text.symm

lemma addEdge_shows (hm : t.multi = false) {x y : NodeId} (hx : x ∈ t.ids) (hy : y ∈ t.ids)
 (a : Attrs) :
 (t.addEdge x y a).nodes = t.nodes ∧ ∀ u v, (t.addEdge x y a).hasEdge u v ∨
  (t.addEdge x y a).hasEdge v u ↔
   (t.hasEdge u v ∨ t.hasEdge v u) ∨ u = x ∧ v = y ∨ u = y ∧ v = x := by
 rw [addEdge_of_mem hm hx hy]
 refine ⟨nodes_place _ _,fun u v => ?_⟩
 rw [hasEdge_place fun f hf => hf,hasEdge_place fun f hf => hf,Bool.or_eq_true,Bool.or_eq_true,
  joins_iff,joins_iff]
 grind

lemma graft_shows (hm : t.multi = false) {n p : NodeId} (hn : n ∉ t.ids) (hp : p ∈ t.ids) {a : Attrs}
 (ha : a.keys.Nodup) (forward : Bool) : (graft t n p a forward).multi = false ∧
  (graft t n p a forward).nodes.entries = t.nodes.entries ++ [(n,a)] ∧
  ∀ u v, (graft t n p a forward).hasEdge u v ∨ (graft t n p a forward).hasEdge v u ↔
   (t.hasEdge u v ∨ t.hasEdge v u) ∨ u = p ∧ v = n ∨ u = n ∧ v = p := by
 have hnod := nodes_addNode_of_not_mem hn ha
 have hmul : (t.addNode n a).multi = false := hm
 have hids : (t.addNode n a).ids = t.ids ++ [n] := by simp [Graph.ids,Table.keys,hnod]
 have hpmem : p ∈ (t.addNode n a).ids := by simp [hids,hp]
 have hnmem : n ∈ (t.addNode n a).ids := by simp [hids]
 have hsame : ∀ u v, (t.addNode n a).hasEdge u v = t.hasEdge u v := fun _ _ => rfl
 unfold graft
 split
 · obtain ⟨hkept,hedge⟩ := addEdge_shows hmul hpmem hnmem .empty
   exact ⟨by rwa [multi_addEdge],by rw [hkept,hnod],fun u v => by rw [hedge,hsame,hsame]⟩
 · obtain ⟨hkept,hedge⟩ := addEdge_shows hmul hnmem hpmem .empty
   exact ⟨by rwa [multi_addEdge],by rw [hkept,hnod],fun u v => by
    rw [hedge,hsame,hsame,or_comm (a := u = n ∧ v = p)]⟩

lemma sprout_shows {w : Walk} {q : List Nat} (hpar : w.parent = q.getLast?)
 (hq : ∀ j ∈ q, .num j ∈ s.tree.ids)
 (hm : s.tree.multi = false) (hn : .num s.tree.size ∉ s.tree.ids) {text : String} {a : Attrs}
 (ha : (stamp (.int 0) (m.distance text.length) a).keys.Nodup) :
  (sprout m s w text a).tree.multi = false ∧
  (sprout m s w text a).tree.nodes.entries =
   s.tree.nodes.entries ++ [(.num s.tree.size,stamp (.int 0) (m.distance text.length) a)] ∧
  ∀ u v, (sprout m s w text a).tree.hasEdge u v ∨ (sprout m s w text a).tree.hasEdge v u ↔
   (s.tree.hasEdge u v ∨ s.tree.hasEdge v u) ∨ ∃ p, q.getLast? = some p ∧
    (u = .num p ∧ v = .num s.tree.size ∨ u = .num s.tree.size ∧ v = .num p) := by
 cases hlast : q.getLast? with
 | none =>
  have htree : (sprout m s w text a).tree =
   s.tree.addNode (.num s.tree.size) (stamp (.int 0) (m.distance text.length) a) := by
   unfold sprout stamp
   rw [hpar,hlast]
  rw [htree]
  exact ⟨hm,nodes_addNode_of_not_mem hn ha,fun u v => by simp; rfl⟩
 | some p =>
  have htree : (sprout m s w text a).tree =
   graft s.tree (.num s.tree.size) (.num p) (stamp (.int 0) (m.distance text.length) a)
    !(m.marked && !w.forward) := by
   unfold sprout graft stamp
   rw [hpar,hlast]
   cases m.marked && !w.forward <;> simp
  rw [htree]
  obtain ⟨hmul,hent,hedge⟩ := graft_shows hm hn (hq p (mem_of_getLast? hlast)) ha _
  exact ⟨hmul,hent,fun u v => by rw [hedge]; simp⟩

lemma Kept.size_eq (hk : Kept m g done paths s) : s.tree.size = paths.size := by
 have hlen := congrArg length hk.ids
 simpa [Graph.ids,Graph.size,Table.keys,Table.size] using hlen

lemma Kept.mem_ids (hk : Kept m g done paths s) {i : Nat} :
 .num i ∈ s.tree.ids ↔ i < paths.size := by
 rw [hk.ids]
 simp

lemma Kept.path_due (hr : Grounded m g) (hl : g.Printable) (hk : Kept m g done paths s)
 {p : Pending} (hp : Due done p) :
 ((paths.getD (g.walkText p.2.reverse) []).getLast?.isSome = !p.2.isEmpty) ∧
  ∀ j ∈ paths.getD (g.walkText p.2.reverse) [], j < paths.size := by
 rcases hp with ⟨hp,_⟩ | hp
 · have hnone : paths.getD (g.walkText p.2.reverse) [] = [] := by
    rw [hp,reverse_nil,walkText_nil,Table.getD,(get?_eq_none_iff _ _).2 (hk.empty_not_mem hr hl)]
    rfl
   rw [hnone,hp]
   exact ⟨rfl,by simp⟩
 · obtain ⟨i,q,hi,hpath,hq⟩ := hk.path_of_mem (hk.seen _ hp)
   rw [hpath]
   refine ⟨by simp [(hk.roams _ hp).ne_nil],fun j hj => ?_⟩
   rcases mem_append.1 hj with hj | hj
   · exact (hq j hj).trans hi
   · rwa [mem_singleton.1 hj]

lemma Kept.stops_awaiting (hr : Grounded m g) (hl : g.Printable) (hk : Kept m g done paths s)
 {p : Pending}
 (hp : Due done p) : m.stops (awaiting g paths p) = m.halts (m.outgrown g) p.1 p.2 := by
 rw [Manner.stops,Manner.halts,← (hk.path_due hr hl hp).1]
 rfl

lemma Kept.known (hk : Kept m g done paths s) {t : Trail} (ht : Roams m g t)
 (hx : g.walkText t.reverse ∈ paths.keys) :
 Kept m g (done ++ [t]) paths s where
 record := hk.record
 roams := forall_mem_append.2 ⟨hk.roams,by simpa using ht⟩
 seen := forall_mem_append.2 ⟨hk.seen,by simpa using hx⟩
 nodup := hk.nodup
 input := hk.input
 spared := fun n hn => hk.spared n fun x hx => hn x (mem_append_left _ hx)
 multi := hk.multi
 ids := hk.ids
 origin := by
  intro i x path hi
  obtain ⟨e,rest,hs⟩ := hk.origin i x path hi
  exact ⟨e,rest,hs.mono (fun _ => mem_append_left _) rfl fun _ _ => rfl⟩
 edges := hk.edges

lemma exists_step_concat {entries : List (String × List Nat)} {x₀ : String} {q : List Nat} {k : Nat}
 {R : Nat → Nat → Prop} : (∃ x path p i, (x,path ++ [p,i]) ∈ entries ++ [(x₀,q ++ [k])] ∧ R p i) ↔
  (∃ x path p i, (x,path ++ [p,i]) ∈ entries ∧ R p i) ∨ ∃ p, q.getLast? = some p ∧ R p k := by
 constructor
 · rintro ⟨x,path,p,i,hmem,hste⟩
   rcases mem_append.1 hmem with hmem | hmem
   · exact .inl ⟨x,path,p,i,hmem,hste⟩
   · obtain ⟨-,hpath⟩ := Prod.mk.inj (mem_singleton.1 hmem)
     rw [show path ++ [p,i] = (path ++ [p]) ++ [i] by simp] at hpath
     obtain ⟨hq,hi⟩ := append_inj' hpath rfl
     obtain rfl : i = k := by simpa using hi
     exact .inr ⟨p,by rw [← hq,getLast?_concat],hste⟩
 · rintro (⟨x,path,p,i,hmem,hste⟩ | ⟨p,hlast,hste⟩)
   · exact ⟨x,path,p,i,mem_append_left _ hmem,hste⟩
   · obtain ⟨path,rfl⟩ := getLast?_eq_some_iff.1 hlast
     exact ⟨x₀,path,p,k,mem_append_right _ (by simp),hste⟩

section
variable {rest : Trail} {a : Attrs}

def lengthened (g : Graph) (paths : Table String (List Nat)) (e : NodeId × Bool) (rest : Trail) :
 Table String (List Nat) :=
 paths.put (g.walkText (e :: rest).reverse) (paths.getD (g.walkText rest.reverse) [] ++ [paths.size])

lemma entries_lengthened (hnew : g.walkText (e :: rest).reverse ∉ paths.keys) :
 (lengthened g paths e rest).entries =
 paths.entries ++ [(g.walkText (e :: rest).reverse,paths.getD (g.walkText rest.reverse) [] ++
  [paths.size])] :=
 entries_put_of_not_mem _ _ hnew

lemma size_lengthened (hnew : g.walkText (e :: rest).reverse ∉ paths.keys) :
 (lengthened g paths e rest).size = paths.size + 1 := by
 rw [Table.size,entries_lengthened hnew,length_append,length_singleton]
 rfl

lemma getD_lengthened (hne : x ≠ g.walkText (e :: rest).reverse) :
 (lengthened g paths e rest).getD x [] = paths.getD x [] := by
 rw [Table.getD,lengthened,get?_put_of_ne _ _ hne,Table.getD]

variable (hr : Grounded m g) (hl : g.Printable) (hk : Kept m g done paths s)
 (ht : Roams m g (e :: rest))
include hr hl hk ht

lemma Kept.getD_before (hnew : g.walkText (e :: rest).reverse ∉ paths.keys) {r : Trail}
 (hbef : r = [] ∨ r ∈ done) :
 (lengthened g paths e rest).getD (g.walkText r.reverse) [] =
  paths.getD (g.walkText r.reverse) [] := by
 refine getD_lengthened fun heq => ?_
 rcases hbef with rfl | hmem
 · exact hr.walkText_ne_empty hl ht heq.symm
 · exact hnew (heq ▸ hk.seen r hmem)

lemma Kept.sprout_tree (hdue : Due done (e,rest)) (ha : s.input.attrs? e.1 = some a) {text : String}
 (hspr : (sprout m s (awaiting g paths (e,rest)) text a).tree = t) : t.multi = false ∧
  t.nodes.entries = s.tree.nodes.entries ++
   [(.num paths.size,stamp (.int 0) (m.distance text.length) a)] ∧
  .num paths.size ∉ s.tree.ids ∧
  ∀ u v, t.hasEdge u v ∨ t.hasEdge v u ↔ (s.tree.hasEdge u v ∨ s.tree.hasEdge v u) ∨
   ∃ p, (paths.getD (g.walkText rest.reverse) []).getLast? = some p ∧
    (u = .num p ∧ v = .num paths.size ∨ u = .num paths.size ∧ v = .num p) := by
 have hfre : .num s.tree.size ∉ s.tree.ids := by
  rw [hk.size_eq,hk.mem_ids]
  exact lt_irrefl _
 have hnod : (stamp (.int 0) (m.distance text.length) a).keys.Nodup := by
  obtain ⟨b,hb⟩ := exists_attrs (hr.mem_ids ht e (by simp))
  obtain ⟨a',ha',hkey,_⟩ := (hk.input.scribbled hr.sound).attrs e.1 b hb
  obtain rfl : a' = a := Option.some.inj (ha'.symm.trans ha)
  exact nodup_put (nodup_put hkey _ _) _ _
 obtain ⟨hmul,hent,hedge⟩ := sprout_shows (s := s) (w := awaiting g paths (e,rest)) rfl
  (fun j hj => hk.mem_ids.2 ((hk.path_due hr hl hdue).2 j hj)) hk.multi hfre hnod
 rw [hk.size_eq] at hent hedge hfre
 rw [hspr] at hmul hent hedge
 exact ⟨hmul,hent,hfre,hedge⟩

lemma Kept.stems_lengthened (hbef : rest = [] ∨ rest ∈ done)
 (hnew : g.walkText (e :: rest).reverse ∉ paths.keys) (ha : s.input.attrs? e.1 = some a)
 (hlast : ∀ j ∈ paths.getD (g.walkText rest.reverse) [], j < paths.size)
 (hself : t.attrs? (.num paths.size) =
  some (stamp (.int 0) (m.distance (g.walkText (e :: rest).reverse).length) a)) :
 Stems m g (done ++ [e :: rest]) (lengthened g paths e rest) t paths.size
  (g.walkText (e :: rest).reverse)
  (paths.getD (g.walkText rest.reverse) [] ++ [paths.size]) e rest where
 visited := by simp
 before := hbef.imp_right (mem_append_left _)
 text := rfl
 path := by rw [hk.getD_before hr hl ht hnew hbef]
 later := by rwa [hk.getD_before hr hl ht hnew hbef]
 shows := by
  intro name hnam
  rw [nodeAttr?,hself,Option.bind_some,get?_stamp hnam,← hk.input.nodeAttr? e.1 hnam,nodeAttr?,ha,
   Option.bind_some]
 distance := by rw [nodeAttr?,hself,Option.bind_some,stamp,get?_put_self]

lemma Kept.sprouted
 (hdue : Due done (e,rest)) (hnew : g.walkText (e :: rest).reverse ∉ paths.keys)
 (ha : s.input.attrs? e.1 = some a) :
 Kept m g (done ++ [e :: rest]) (lengthened g paths e rest)
  (sprout m s (awaiting g paths (e,rest)) (g.walkText (e :: rest).reverse) a) := by
 obtain ⟨hmul,hent,hfre,hedge⟩ := hk.sprout_tree hr hl ht hdue ha rfl
 obtain ⟨hself,hold⟩ := attrs?_concat hent hfre
 refine ⟨?_,forall_mem_append.2 ⟨hk.roams,by simpa using ht⟩,forall_mem_append.2 ⟨?_,?_⟩,
  nodup_put hk.nodup _ _,hk.input.trans (redrawn_put ha _ _),?_,hmul,?_,?_,?_⟩
 · change s.paths.put _ (paths.getD _ [] ++ [s.tree.size]) = _
   rw [hk.record,hk.size_eq]
   rfl
 · exact fun x hx => mem_keys_put.2 (.inl (hk.seen x hx))
 · exact fun x hx => mem_keys_put.2 (.inr (by rw [mem_singleton.1 hx]))
 · intro n hn
   have hoth : n ≠ e.1 := fun h => hn (e :: rest) (by simp) (by simp [h])
   rw [sprout_input,← hk.spared n fun x hx => hn x (mem_append_left _ hx)]
   exact get?_put_of_ne _ _ hoth
 · rw [size_lengthened hnew,range_succ,map_append,← hk.ids,Graph.ids,Table.keys,hent,map_append]
   rfl
 · intro i x path hi
   rw [entries_lengthened hnew] at hi
   rcases lt_or_ge i paths.size with hlt | hge
   · rw [getElem?_append_left hlt] at hi
     obtain ⟨e',rest',hs⟩ := hk.origin i x path hi
     refine ⟨e',rest',hs.mono (fun _ => mem_append_left _) (hk.getD_before hr hl ht hnew hs.before)
      fun name _ => ?_⟩
     rw [nodeAttr?,hold _ (by simp; omega),nodeAttr?]
   · obtain ⟨hone,heq⟩ := List.getElem?_eq_some_iff.1 (getElem?_append_right hge ▸ hi)
     obtain rfl : i = paths.size := by
      have hlt : i - paths.size < 1 := hone
      omega
     obtain ⟨rfl,rfl⟩ : g.walkText (e :: rest).reverse = x ∧
      paths.getD (g.walkText rest.reverse) [] ++ [paths.size] = path := by simpa using heq
     exact ⟨e,rest,hk.stems_lengthened hr hl ht (hdue.imp_left And.left) hnew ha
      (hk.path_due hr hl hdue).2 hself⟩
 · intro u v
   rw [hedge,hk.edges,entries_lengthened hnew,exists_step_concat]

end

lemma nodeAttr?_countAlong (t : Graph) (path : List Nat) (n : NodeId) {name : String}
 (hnam : name ≠ "presence") :
 (countAlong t path).nodeAttr? n name = t.nodeAttr? n name := by
 induction path generalizing t with
 | nil => rfl
 | cons i rest ih =>
  refine (ih { t with nodes := t.nodes.modify (.num i) bump }).trans ?_
  rw [nodeAttr?,nodeAttr?,attrs?,get?_modify,attrs?]
  split
  · cases t.nodes.get? n with
    | none => rfl
    | some a => exact get?_put_of_ne _ _ hnam
  · rfl

lemma Kept.count (hk : Kept m g done paths s) (path : List Nat) (longest : Nat) :
 Kept m g done paths { s with tree := countAlong s.tree path, longest } := by
 obtain ⟨hdir,hmul,hedg,hids⟩ := countAlong_frame s.tree path
 have hedge : ∀ u v, (countAlong s.tree path).hasEdge u v = s.tree.hasEdge u v := by
  intro u v
  have hjoi : (countAlong s.tree path).joins u v = s.tree.joins u v :=
   funext fun _ => joins_of_directed hdir
  rw [hasEdge,hasEdge,hedg,hjoi]
 refine ⟨hk.record,hk.roams,hk.seen,hk.nodup,hk.input,hk.spared,hmul.trans hk.multi,
  hids.trans hk.ids,?_,?_⟩
 · intro i x way hi
   obtain ⟨e,rest,hs⟩ := hk.origin i x way hi
   exact ⟨e,rest,hs.mono (fun _ hr => hr) rfl fun name hnam => nodeAttr?_countAlong _ _ _ hnam⟩
 · intro u v
   rw [hedge,hedge,hk.edges]

section
variable (hr : Grounded m g) (hl : g.Printable)
include hr hl

lemma Kept.visit (hk : Kept m g done paths s) {rest : Trail}
 (ht : Roams m g (e :: rest)) (hdue : Due done (e,rest))
 (hgo : m.halts (m.outgrown g) e rest = false) :
 ∃ s' paths', Normal.visit m s (awaiting g paths (e,rest)) =
  (s',.ok ((onward m g e rest).map fun x => awaiting g paths' (x,e :: rest))) ∧
  Kept m g (done ++ [e :: rest]) paths' s' ∧ ∀ q :
   Pending, q.2 ∈ done → awaiting g paths' q = awaiting g paths q := by
 have hmem : e.1 ∈ g.ids := hr.mem_ids ht e (by simp)
 obtain ⟨b,hb⟩ := exists_attrs hmem
 obtain ⟨a,ha,hab⟩ := hk.input.exists_attrs hb
 obtain ⟨v,hv,_⟩ := hl e.1 hmem
 have hlab : a.get? "label" = some v := by
  rw [alike_of_stamp hab "label" (by decide),← hv,nodeAttr?,hb,Option.bind_some]
 have htext : (awaiting g paths (e,rest)).text ++ m.piece (awaiting g paths (e,rest)).forward v =
  g.walkText (e :: rest).reverse := by
  rw [walkText_cons,stepText_eq_piece hr.kind hv]
  rfl
 -- the state once the text has its node
 obtain ⟨s₁,paths₁,hs₁,hk₁,hkeep⟩ :
  ∃ s₁ paths₁, (if s.paths.contains (g.walkText (e :: rest).reverse) then s
  else sprout m s (awaiting g paths (e,rest)) (g.walkText (e :: rest).reverse) a) = s₁ ∧
  Kept m g (done ++ [e :: rest]) paths₁ s₁ ∧
  ∀ x ∈ paths.keys, paths₁.getD x [] = paths.getD x [] := by
  by_cases hx : g.walkText (e :: rest).reverse ∈ paths.keys
  · exact ⟨s,paths,if_pos ((contains_iff _ _).2 (hk.record ▸ hx)),hk.known ht hx,fun _ _ => rfl⟩
  · refine ⟨_,_,if_neg fun hc => hx (hk.record ▸ (contains_iff _ _).1 hc),
     hk.sprouted hr hl ht hdue hx ha,?_⟩
    exact fun x hmem => getD_lengthened fun heq => hx (heq ▸ hmem)
 refine ⟨_,paths₁,?_,hk₁.count (paths₁.getD (g.walkText (e :: rest).reverse) [])
  (max s₁.longest (g.walkText (e :: rest).reverse).length),fun q hq => ?_⟩
 · rw [Normal.visit,hk.stops_awaiting hr hl hdue,hgo]
   simp only [Bool.false_eq_true,if_false]
   rw [show s.input.attrs? (awaiting g paths (e,rest)).node = some a from ha]
   simp only [hlab,htext,hs₁]
   rw [m.steps_congr hk₁.input.directed hk₁.input.multi hk₁.input.edges,hr.steps_ok,hk₁.record]
   rfl
 · rw [awaiting,awaiting,hkeep _ (hk.seen _ hq)]

lemma Grounded.steady : Steady m g (m.outgrown g) (awaiting g) (Kept m g) where
 halt := fun hk hp => hk.stops_awaiting hr hl hp
 visit := fun hk ht hdue hgo => hk.visit hr hl ht hdue hgo

lemma Grounded.lengthens : Lengthens m g (m.outgrown g) m.limit.toNat where
 stays := by
  intro e t h
  simp only [Manner.outgrown,decide_eq_true_eq] at h ⊢
  rw [walkText_cons,String.length_append]
  omega
 reached := by
  intro t ht hlen
  have hle : t.length ≤ (g.walkText t.reverse).length := by
   rcases ht with rfl | ht
   · exact Nat.zero_le _
   · exact hr.length_le hl ht
  simp only [Manner.outgrown,decide_eq_true_eq]
  omega

end

lemma kept_start (g : Graph) (d : Bool) : Kept m g [] .empty ⟨g,.empty d,.empty,0⟩ where
 record := rfl
 roams := by simp
 seen := by simp
 nodup := nodup_nil
 input := .refl g
 spared := fun _ _ => rfl
 multi := rfl
 ids := rfl
 origin := by simp [Table.empty]
 edges := by simp [Table.empty,Graph.hasEdge,Graph.empty]

lemma formBy_kept {a : NodeId} (hg : g.Sound) (ha : g.AnchoredAt a) (hl : g.Printable) (limit : Int)
 (d : Bool) :
 ∃ s paths done, formBy g limit g.directed d =
  (s.input,.ok ⟨s.tree,Manner.furthest ⟨g.directed,limit,a⟩ s.longest⟩) ∧ s.tree.directed = d ∧
  Kept ⟨g.directed,limit,a⟩ g done paths s ∧ ∀ t, t ∈ done ↔ Admissible g a limit t.reverse := by
 obtain rfl := ha.anchor_eq hg.ids
 have hr : Grounded ⟨g.directed,limit,g.anchor⟩ g := ⟨hg,ha.mem,rfl⟩
 obtain ⟨s,paths,done,hform,hdir,hk,n,hn,rfl⟩ :=
  (hr.steady hl).formBy hr (hr.lengthens hl) (kept_start g d) rfl
 refine ⟨s,paths,_,hform,hdir,hk,fun t => ?_⟩
 rw [hr.mem_roam_outset (hr.lengthens hl) hn,admissible_reverse_iff (m :=
  ⟨g.directed,limit,g.anchor⟩) rfl]
 simp [Manner.outgrown]

end

variable {a : NodeId}

def retaken (g : Graph) (calls : List (Int × Bool)) : Graph :=
 calls.foldl (fun h c => (form h c.1 c.2).1) g

lemma Redrawn.printable {h : Graph} (hr : Redrawn g h) (hl : g.Printable) : h.Printable := by
 intro n hn
 rw [hr.nodeAttr? n (by decide)]
 exact hl n (hr.ids ▸ hn)

lemma form_writes (hg : g.Sound) (ha : g.AnchoredAt a) (hl : g.Printable) (limit : Int)
 (forced : Bool) :
 ∃ h f, form g limit forced = (h,.ok f) ∧ Redrawn g h ∧
  ∀ n, (∀ w, Admissible g a limit w → n ∉ w.map Prod.fst) → h.attrs? n = g.attrs? n := by
 obtain ⟨s,paths,done,hform,-,hk,hdone⟩ := formBy_kept hg ha hl limit (g.directed || forced)
 refine ⟨s.input,
  _,by rw [form_eq_formBy,hform],hk.input,fun n hn => hk.spared n fun t ht hhead => ?_⟩
 obtain ⟨e,rest,rfl⟩ := exists_cons_of_ne_nil (hk.roams t ht).ne_nil
 obtain rfl : e.1 = n := by simpa using hhead
 exact hn _ ((hdone _).1 ht) (by simp)

lemma retaken_redrawn (hg : g.Sound) (ha : g.AnchoredAt a) (hl : g.Printable)
 (calls : List (Int × Bool)) :
 Redrawn g (retaken g calls) ∧ ∀ n, (∀ c ∈ calls, ∀ w, Admissible g a c.1 w → n ∉ w.map Prod.fst) →
  (retaken g calls).attrs? n = g.attrs? n := by
 induction calls using reverseRecOn with
 | nil => exact ⟨.refl g,fun _ _ => rfl⟩
 | append_singleton calls c ih =>
  obtain ⟨hr,hspa⟩ := ih
  obtain ⟨h,f,hform,hwri,hkept⟩ :=
   form_writes (hr.sound hg) (hr.anchoredAt ha) (hr.printable hl) c.1 c.2
  have hlast : retaken g (calls ++ [c]) = h := by
   rw [retaken,foldl_append,foldl_cons,foldl_nil,← retaken,hform]
  rw [hlast]
  refine ⟨hr.trans hwri,fun n hn => ?_⟩
  rw [hkept n fun w hw => hn c (by simp) w (hr.admissible hw)]
  exact hspa n fun c' hc' => hn c' (by simp [hc'])

theorem form_retaken (hg : g.Sound) (ha : g.AnchoredAt a) (hl : g.Printable)
 (calls : List (Int × Bool)) (limit : Int)
 (forced : Bool) : Scribbled g (retaken g calls) ∧
  (∀ n, (∀ c ∈ calls, ∀ w, Admissible g a c.1 w → n ∉ w.map Prod.fst) → (retaken g calls).attrs? n =
   g.attrs? n) ∧
  ∃ f, (form g limit forced).2 = .ok f ∧ (form (retaken g calls) limit forced).2 = .ok f := by
 obtain ⟨hr,hspa⟩ := retaken_redrawn hg ha hl calls
 obtain ⟨h,f,hform,-⟩ := form_writes hg ha hl limit forced
 exact ⟨hr.scribbled hg,hspa,f,by rw [hform],by rw [hr.form_eq hg.ids ha,hform]⟩

theorem turnpike_form_retaken : turnpike.Printable ∧
 Scribbled turnpike (retaken turnpike [(5,false),(2,false)]) ∧
 (∀ n, (∀ c ∈ [(5,false),(2,false)], ∀ w, Admissible turnpike (.num 1) c.1 w → n ∉ w.map Prod.fst) →
  (retaken turnpike [(5,false),(2,false)]).attrs? n = turnpike.attrs? n) ∧
 ∃ f, (form turnpike 3 false).2 = .ok f ∧
  (form (retaken turnpike [(5,false),(2,false)]) 3 false).2 = .ok f :=
 ⟨by decide,form_retaken turnpike_sound turnpike_anchored (by decide) _ 3 false⟩

end Normal
end MotifMatch
