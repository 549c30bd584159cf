import MotifMatch.Proofs.Adjacency

namespace MotifMatch.Encoding
open List

def labelOf (g : Graph) (n : NodeId) : Int := ((g.nodeAttr? n "label").bind Value.toInt?).getD 0

def flagOf (g : Graph) (n : NodeId) : Bool := (g.nodeAttr? n "anchor").bind Value.toInt? == some 1

structure Legible (g : Graph) : Prop where
 label : ∀ n ∈ g.ids, ∃ v l, g.nodeAttr? n "label" = some v ∧ v.toInt? = some l ∧ 0 < l
 anchor : ∀ n ∈ g.ids, ∀ v, g.nodeAttr? n "anchor" = some v → v.toInt? = some 0 ∨ v.toInt? = some 1
 weight : ∀ e ∈ g.edges, e.attrs.get? "weight" = none

def shown (w : Nat) (anchored : Bool) (l : Int) : Int :=
 if (w : Int) ≤ (if anchored then l else l - 1) then Catalog.defaultInteraction + 1 else l

def slot (w : Nat) (anchored : Bool) (l : Int) : Nat :=
 (if anchored then shown w anchored l else shown w anchored l - 1).toNat

variable {w : Nat} {anchored : Bool} {l : Int}

lemma shown_pos (w : Nat) (anchored : Bool) (hl : 0 < l) : 0 < shown w anchored l := by
 rw [shown,Catalog.defaultInteraction]
 generalize (if anchored then l else l - 1) = k
 split <;> omega

lemma slot_lt (anchored : Bool) (hw : 3 ≤ w) (hl : 0 < l) : slot w anchored l < w := by
 unfold slot shown Catalog.defaultInteraction
 cases anchored <;> simp only [Bool.false_eq_true,if_false,if_true] <;> split <;> omega

lemma slot_pos (hl : 0 < l) : 0 < slot w true l := by
 have := shown_pos w true hl
 simp only [slot,if_true]
 omega

lemma slot_inj {k : Int} (hl : 0 < l) (hk : 0 < k) :
 slot w anchored l = slot w anchored k ↔ shown w anchored l = shown w anchored k := by
 have hl' := shown_pos w anchored hl
 have hk' := shown_pos w anchored hk
 unfold slot
 cases anchored <;> simp only [Bool.false_eq_true,if_false,if_true] <;> omega

variable {label anchor : Value} {xs : List Value}

lemma number?_of_toInt? {v : Value} (h : v.toInt? = some l) : v.number? = some (.int l) := by
 cases v <;> simp_all [Value.toInt?,Value.number?]

lemma setAt_eq {place : Value} {i : Nat} (hpla : place.number? = some (.int i)) (hi : i < xs.length)
 (x : Value) :
 setAt xs place x = .ok (xs.set i x) := by
 have hran : (0 ≤ (i : Int) && decide ((i : Int) < xs.length)) := by simp [hi]
 rw [setAt,hpla]
 simp only [show ¬ (i : Int) < 0 by omega,if_false,hran,if_true,Int.toNat_natCast]

lemma reaches_eq (h : label.number? = some (.int l)) :
 reaches label (.int w) = .ok (decide ((w : Int) ≤ l)) := by
 have hnum : (Value.int w).number? = some (.int w) := rfl
 rw [reaches,h,hnum]
 refine congrArg Except.ok ?_
 rw [Bool.eq_iff_iff]
 simp only [Value.Number.compare?,Bool.or_eq_true,beq_iff_eq,Option.some.injEq,decide_eq_true_eq,
  Int.compare_eq_gt,
  compare_eq_iff_eq]
 omega

lemma add_eq {v : Value} (h : v.toInt? = some l) (k : Int) :
 v.add (.int k) = .ok (.int (l + k)) := by
 cases v <;> simp_all [Value.toInt?,Value.add,Value.number?]

lemma number?_shown (w : Nat) (anchored : Bool) (hlab : label.toInt? = some l) :
 (if w ≤ (if anchored then l else l - 1) then .int (Catalog.defaultInteraction +
  1) else label).toInt? =
  some (shown w anchored l) := by
 rw [shown]
 generalize (if anchored then l else l - 1) = k
 split
 · rfl
 · exact hlab

def rawVector (w : Nat) (anchored : Bool) (l : Int) (anchor : Value) : List Value :=
 (range w).map fun k => if k = slot w anchored l then .int 1 else if anchored = true ∧
  k = 0 then anchor else .int 0

lemma set_eq_rawVector (w : Nat) (anchored : Bool) (l : Int) (anchor : Value) :
 (if anchored then (replicate w (.int 0)).set 0 anchor else replicate w (.int 0)).set
  (slot w anchored l)
  (.int 1) = rawVector w anchored l anchor := by
 refine ext_getElem (by cases anchored <;> simp [rawVector]) fun i hi _ => ?_
 simp only [rawVector,getElem_map,getElem_range,getElem_set,eq_comm]
 refine if_congr Iff.rfl rfl ?_
 cases anchored
 · simp
 · simp [getElem_set,eq_comm]

lemma oneHot_eq (hlab : label.toInt? = some l) (hl : 0 < l) (hw : 3 ≤ w) :
 oneHot label anchor (.int w) anchored = .ok (rawVector w anchored l anchor) := by
 have hwid : widthOf (.int w) = .ok w := rfl
 have hlt := slot_lt anchored hw hl
 have hpos := shown_pos w anchored hl
 have hsho := number?_shown w anchored hlab
 rw [oneHot,hwid,← set_eq_rawVector]
 cases anchored with
 | true =>
  have hslot : (slot w true l : Int) = shown w true l := by
   simp only [slot,if_true]
   omega
  rw [← hslot] at hsho
  have hfro : setAt (List.replicate w (.int 0)) (.int 0) anchor =
   .ok ((List.replicate w (.int 0)).set 0 anchor) :=
   setAt_eq (i := 0) rfl (by rw [length_replicate]; omega) anchor
  simp only [bind,Except.bind,if_true,reaches_eq (number?_of_toInt? hlab),hfro,decide_eq_true_eq]
  exact setAt_eq (number?_of_toInt? hsho) (by simpa using hlt) _
 | false =>
  have hslot : (slot w false l : Int) = shown w false l + -1 := by
   simp only [slot,Bool.false_eq_true,if_false]
   omega
  have hrea : reaches (.int (l + -1)) (.int w) = .ok (decide ((w : Int) ≤ l + -1)) := reaches_eq rfl
  simp only [bind,Except.bind,Bool.false_eq_true,if_false,add_eq hlab,hrea,
   decide_eq_true_eq] at hsho ⊢
  rw [← sub_eq_add_neg,add_eq hsho,← hslot]
  exact setAt_eq rfl (by simpa using hlt) _

section
variable {α : Type} [Scalar α] {flag : Bool} {anchor : Value}

def hot (w : Nat) (anchored : Bool) (l : Int) (flag : Bool) (k : Nat) : α :=
 if k = slot w anchored l ∨ (k = 0 ∧ anchored = true ∧ flag = true) then Scalar.one else Scalar.zero

lemma toScalar?_flag (h : anchor.toInt? = some (if flag then 1 else 0)) :
 anchor.toScalar? = some (if flag then Scalar.one else Scalar.zero : α) := by
 cases anchor with
 | int i =>
  cases h
  cases flag <;> rfl
 | bool b =>
  have hb : b = flag := by
   have := Option.some.inj h
   cases b <;> cases flag <;> simp_all
  rw [hb]
  rfl
 | _ => cases h

lemma numbers_rawVector (hanc : anchored → anchor.toInt? = some (if flag then 1 else 0)) :
 numbers (rawVector w anchored l anchor) =
  .ok ((List.range w).map (hot w anchored l flag : Nat → α)) := by
 rw [numbers,rawVector,mapM_map]
 refine mapM_ok fun k _ => ?_
 by_cases hslot : k = slot w anchored l
 · simp only [Function.comp,hslot,hot,if_true,true_or]
   rfl
 · by_cases hfro : anchored ∧ k = 0
   · obtain ⟨rfl,rfl⟩ := hfro
     simp [hslot,hot,toScalar?_flag (hanc rfl)]
   · have hhot : hot w anchored l flag k = (Scalar.zero : α) :=
      if_neg (by rintro (h | ⟨h,ha,_⟩); exacts [hslot h,hfro ⟨ha,h⟩])
     simp only [Function.comp,hslot,hfro,if_false,hhot]
     rfl

end

section
variable {α : Type} [Scalar α] {g : Graph} {n : NodeId}

lemma Legible.labelOf_pos (h : Legible g) (hn : n ∈ g.ids) : 0 < labelOf g n := by
 obtain ⟨v,l,hv,hl,hpos⟩ := h.label n hn
 simpa [labelOf,hv,hl] using hpos

lemma Legible.nodeVector_eq (h : Legible g) (anchored : Bool) (hn : n ∈ g.ids) (hw : 3 ≤ w) :
 ∃ anchor : Value,
 nodeVector oneHot g n (.int w) anchored = .ok (rawVector w anchored (labelOf g n) anchor) ∧
  (anchored → anchor.toInt? = some (if flagOf g n then 1 else 0)) := by
 obtain ⟨v,l,hv,hl,hpos⟩ := h.label n hn
 obtain ⟨a,ha⟩ := Graph.exists_attrs hn
 have hattr : ∀ k, g.nodeAttr? n k = a.get? k := fun k => by rw [Graph.nodeAttr?,ha,Option.bind_some]
 have hlab : Graph.attrOf a "label" = .ok v := by rw [Graph.attrOf,← hattr,hv]
 refine ⟨if anchored then a.getD "anchor" (.int 0) else .int 0,?_,?_⟩
 · rw [nodeVector,ha]
   simp only [bind,Except.bind,hlab,oneHot_eq hl hpos hw,labelOf,hv,hl,Option.bind_some,
    Option.getD_some]
 · rintro rfl
   have hanc := h.anchor n hn
   rw [hattr] at hanc
   rw [if_pos rfl,flagOf,hattr,Table.getD]
   cases hget : a.get? "anchor" with
   | none => rfl
   | some x => rcases hanc x hget with hx | hx <;> simp [hx]

lemma nodeMatrix_rows {width : Value} {rows : List (List α)}
 (hrows : (g.ids.mapM fun n => do numbers (← nodeVector oneHot g n width anchored)) = .ok rows)
 (hne : rows ≠ [])
 (hlen : ∀ r ∈ rows, r.length = w) : ∃ t, nodeMatrix g width anchored = .ok t ∧
  ∀ i r, rows[i]? = some r → ∀ k < w, some (t.at2 w i k) = r[k]? := by
 obtain ⟨r,rs,rfl⟩ := exists_cons_of_ne_nil hne
 refine ⟨⟨[(r :: rs).length,r.length],
  (r :: rs).flatten.toArray⟩,by rw [nodeMatrix,hrows]; rfl,fun i x hx k hk => ?_⟩
 have hlt : k < x.length := hlen x (mem_of_getElem? hx) ▸ hk
 have hblo := Tensor.getElem?_flatMap_blocks (f := id) hlen hx hk
 rw [flatMap_id] at hblo
 rw [Tensor.at2,Array.getD_eq_getD_getElem?,getElem?_toArray,hblo,id,getElem?_eq_getElem hlt,
  Option.getD_some]

lemma Legible.nodeMatrix_eq (h : Legible g) (anchored : Bool) (hne : g.ids ≠ []) (hw : 3 ≤ w) :
 ∃ t : Tensor α,
 nodeMatrix g (.int w) anchored = .ok t ∧
  ∀ i u, g.ids[i]? = some u → ∀ k < w, t.at2 w i k = hot w anchored (labelOf g u)
   (flagOf g u) k := by
 let row (u : NodeId) : List α := (range w).map (hot w anchored (labelOf g u) (flagOf g u))
 have hrows : (g.ids.mapM fun n => do numbers (← nodeVector oneHot g n (.int w) anchored)) =
  .ok (g.ids.map row) := by
  refine mapM_ok fun u hu => ?_
  obtain ⟨anchor,hvec,hanc⟩ := h.nodeVector_eq anchored hu hw
  simp only [bind,Except.bind,hvec,numbers_rawVector hanc,row]
 obtain ⟨t,ht,hent⟩ := nodeMatrix_rows hrows (by simpa using hne) (w := w) (by simp [row])
 refine ⟨t,ht,fun i u hu k hk => Option.some.inj ((hent i (row u) ?_ k hk).trans ?_)⟩
 · rw [getElem?_map,hu,Option.map_some]
 · simp [row,hk]

end

section
variable {α : Type} [Scalar α] [Scalar.Exact α] {k : Int} {flag flag' : Bool}

lemma eq_marks_iff {p q : Prop} [Decidable p] [Decidable q] :
 Scalar.eq (if p then Scalar.one else Scalar.zero : α) (if q then Scalar.one else Scalar.zero) ↔
  (p ↔ q) := by
 by_cases hp : p <;> by_cases hq : q <;>
  simp [hp,hq,Scalar.Exact.eq_one,Scalar.Exact.eq_zero,Scalar.Exact.eq_one_zero,
   Scalar.Exact.eq_zero_one]

lemma hot_eq_iff (hw : 3 ≤ w) (hl : 0 < l) (hk : 0 < k) :
 (∀ i < w, Scalar.eq (hot w anchored l flag i : α) (hot w anchored k flag' i)) ↔
  shown w anchored l = shown w anchored k ∧ (anchored → flag = flag') := by
 simp only [hot,eq_marks_iff]
 constructor
 · intro h
   refine ⟨(slot_inj hl hk).1 ?_,?_⟩
   · rcases (h (slot w anchored l) (slot_lt anchored hw hl)).1 (.inl rfl) with heq | ⟨hfro,rfl,_⟩
     · exact heq
     · exact absurd hfro (slot_pos hl).ne'
   · rintro rfl
     have hfro := h 0 (by omega)
     simp only [(slot_pos hl).ne,(slot_pos hk).ne,false_or,true_and] at hfro
     exact Bool.eq_iff_iff.2 hfro
 · rintro ⟨hsho,hflag⟩ i _
   rw [(slot_inj hl hk).2 hsho]
   refine or_congr_right (and_congr_right fun _ => and_congr_right fun ha => ?_)
   rw [hflag ha]

end

open MotifMatch.Graph Tensor
variable {α : Type} [Scalar α] {query source : Graph} {w : Nat} {anchored custom : Bool}
 {width key : Value}
 {pairs : Except Error (List (Int × Int))} {s : Sample α}

def sites (query source : Graph) : List (Bool × NodeId) :=
 query.ids.map (Prod.mk true) ++ source.ids.map (Prod.mk false)

lemma length_sites : (sites query source).length = query.size + source.size := by
 simp [sites,size_eq_length]

lemma getElem?_sites {i : Nat} {x : Bool × NodeId} (h : (sites query source)[i]? = some x) :
 (x.1 ∧ i < query.size ∧ query.ids[i]? = some x.2) ∨
  (x.1 = false ∧ query.size ≤ i ∧ i - query.size < source.size ∧ source.ids[i - query.size]? =
   some x.2) := by
 have hlt := lt_length h
 rw [length_sites] at hlt
 by_cases hi : i < query.size
 · rw [sites,getElem?_append_left (by simpa [size_eq_length] using hi),getElem?_map,
    Option.map_eq_some_iff] at h
   obtain ⟨u,hu,rfl⟩ := h
   exact .inl ⟨rfl,hi,hu⟩
 · rw [sites,getElem?_append_right (by simpa [size_eq_length] using hi),length_map,← size_eq_length,
    getElem?_map,Option.map_eq_some_iff] at h
   obtain ⟨u,hu,rfl⟩ := h
   exact .inr ⟨rfl,by omega,by omega,hu⟩

def Tabulates {β : Type} (t : Tensor α) (xs : List β) (f : β → β → α) : Prop :=
 t.Shaped [xs.length,xs.length] ∧
  ∀ i j x y, xs[i]? = some x → xs[j]? = some y → t.at2 xs.length i j = f x y

lemma at2_build {n m i j : Nat} {f : Nat → α} (hi : i < n) (hj : j < m) :
 (build [n,m] f).at2 m i j = f (i * m + j) :=
 entry_build (place_lt_pair hi hj)

lemma at2_blank (n i j : Nat) : (Tensor.filled [0,0] (Scalar.zero : α)).at2 n i j = Scalar.zero := by
 simp [at2,filled,volume]

lemma tabulates_blocks {q s : Tensor α} {cross : Nat → Nat → α} (own : Bool → NodeId → NodeId → α)
 {between : Bool × NodeId → Bool × NodeId → α}
 (hq : ∀ i j u v, query.ids[i]? = some u → query.ids[j]? = some v →
  q.at2 query.size i j = own true u v)
 (hs : ∀ i j u v, source.ids[i]? = some u → source.ids[j]? = some v →
  s.at2 source.size i j = own false u v)
 (hcro : ∀ i j u v, i < query.size → j < source.size → query.ids[i]? = some u →
  source.ids[j]? = some v →
  cross i j = between (true,u) (false,v))
 (hsymm : ∀ x y, between x y = between y x) :
 Tabulates (build [query.size + source.size,query.size + source.size]
  (blockEntry query.size (query.size + source.size) q s cross)) (sites query source)
  fun x y => if x.1 = y.1 then own x.1 x.2 y.2 else between x y := by
 refine ⟨by rw [length_sites]; exact shaped_build _ _,fun i j x y hx hy => ?_⟩
 have hi := lt_length hx
 have hj := lt_length hy
 rw [length_sites] at hi hj ⊢
 rw [at2_build hi hj,blockEntry]
 dsimp only
 rw [place_div hj,place_mod hj,Nat.add_sub_cancel_left]
 obtain ⟨a,u⟩ := x
 obtain ⟨b,v⟩ := y
 rcases getElem?_sites hx with ⟨rfl,hi,hu⟩ | ⟨rfl,hi,hi',hu⟩ <;>
  rcases getElem?_sites hy with ⟨rfl,hj,hv⟩ | ⟨rfl,hj,hj',hv⟩
 · rw [if_pos hi,if_pos hj,if_pos rfl]
   exact hq i j u v hu hv
 · rw [if_pos hi,if_neg (by omega),if_neg (by simp)]
   exact hcro i _ u v hi hj' hu hv
 · rw [if_neg (by omega),if_pos hj,if_neg (by simp),hsymm]
   exact hcro j _ v u hj hi' hv hu
 · rw [if_neg (by omega),if_neg (by omega),if_pos rfl]
   exact hs _ _ u v hu hv

def crossOf (nq ns w : Nat) (hQuery hSource : Tensor α) (i j : Nat) : α :=
 if (Array.ofFn (n := nq * ns) fun k => sameRow hQuery hSource w (k.val / ns) (k.val % ns)).getD
  (i * ns + j) false then
  Scalar.one else Scalar.zero

def assemble (nq ns w : Nat) (adjQuery hQuery adjSource hSource mapping : Tensor α) (verdict : Int)
 (key : Value) :
 Sample α where
 size := nq + ns
 features := build [nq + ns,2 * w] fun k =>
  let i := k / (2 * w)
  let j := k % (2 * w)
  if i < nq then (if j < w then hQuery.at2 w i j else Scalar.zero)
  else (if j < w then Scalar.zero else hSource.at2 w (i - nq) (j - w))
 inner := .build [nq + ns,nq + ns] (blockEntry nq (nq + ns) adjQuery adjSource fun _ _ =>
  Scalar.zero)
 outer := .build [nq + ns,nq + ns]
  (blockEntry nq (nq + ns) adjQuery adjSource (crossOf nq ns w hQuery hSource))
 verdict := verdict
 mask := .build [nq + ns] fun i => if i < nq then Scalar.one else Scalar.zero
 key := key
 mapping := mapping
 sameLabel := .build [nq + ns,nq + ns] (blockEntry nq (nq + ns) (.filled [0,0] Scalar.zero)
  (.filled [0,0] Scalar.zero)
  (crossOf nq ns w hQuery hSource))

structure Parts (query source : Graph) (width : Value) (anchored : Bool) (w : Nat)
 (adjQuery hQuery adjSource hSource : Tensor α) : Prop where
 adjQuery : adjacency query = .ok adjQuery
 hQuery : nodeMatrix query width anchored = .ok hQuery
 adjSource : adjacency source = .ok adjSource
 hSource : nodeMatrix source width anchored = .ok hSource
 nonempty : query.size ≠ 0 ∧ source.size ≠ 0
 width : widthOf width = .ok w

variable {adjQuery hQuery adjSource hSource : Tensor α}

lemma Parts.encode_eq (h : Parts query source width anchored w adjQuery hQuery adjSource hSource) :
 encode query source width anchored pairs key custom = do
  let mapping ← mappingMatrix query.size (query.size + source.size) (← pairs)
  return assemble query.size source.size w adjQuery hQuery adjSource hSource mapping
   (← verdictOf key custom) key := by
 rw [encode,h.adjQuery,h.hQuery,h.adjSource,h.hSource]
 simp only [bind,Except.bind,h.width]
 rw [if_neg (by simp [h.nonempty.1,h.nonempty.2])]
 rfl

lemma exists_parts (h : encode query source width anchored pairs key custom = .ok s) :
 ∃ (w : Nat) (adjQuery hQuery adjSource hSource mapping : Tensor α) (verdict : Int)
  (ps : List (Int × Int)),
  Parts query source width anchored w adjQuery hQuery adjSource hSource ∧ pairs = .ok ps ∧
  mappingMatrix query.size (query.size + source.size) ps = .ok mapping ∧
   verdictOf key custom = .ok verdict ∧
  s = assemble query.size source.size w adjQuery hQuery adjSource hSource mapping verdict key := by
 obtain ⟨adjQuery,hadjQ,h⟩ := bind_eq_ok h
 obtain ⟨hQuery,hhQ,h⟩ := bind_eq_ok h
 obtain ⟨adjSource,hadjS,h⟩ := bind_eq_ok h
 obtain ⟨hSource,hhS,h⟩ := bind_eq_ok h
 dsimp only at h
 split at h
 · cases h
 · next hsiz =>
   obtain ⟨w,hw,h⟩ := bind_eq_ok h
   obtain ⟨ps,hps,h⟩ := bind_eq_ok h
   obtain ⟨mapping,hmap,h⟩ := bind_eq_ok h
   obtain ⟨verdict,hver,h⟩ := bind_eq_ok h
   exact ⟨w,adjQuery,hQuery,adjSource,hSource,mapping,verdict,ps,
    ⟨hadjQ,hhQ,hadjS,hhS,by simpa using hsiz,hw⟩,hps,hmap,hver,
    (Except.ok.inj h).symm⟩

section

def sideOf (query source : Graph) (ofQuery : Bool) : Graph := if ofQuery then query else source

def Alike (query source : Graph) (w : Nat) (anchored : Bool) (x y : Bool × NodeId) : Prop :=
 shown w anchored (labelOf (sideOf query source x.1) x.2) =
  shown w anchored (labelOf (sideOf query source y.1) y.2) ∧
  (anchored = true → flagOf (sideOf query source x.1) x.2 = flagOf (sideOf query source y.1) y.2)

instance (query source : Graph) (w : Nat) (anchored : Bool) (x y : Bool × NodeId) :
 Decidable (Alike query source w anchored x y) := inferInstanceAs (Decidable (_ ∧ (_ → _)))

def links (query source : Graph) (ofQuery : Bool) (u v : NodeId) : α :=
 tally ((sideOf query source ofQuery).linkCount u v + if u = v then 1 else 0)

def likeness (query source : Graph) (w : Nat) (anchored : Bool) (x y : Bool × NodeId) : α :=
 if Alike query source w anchored x y then Scalar.one else Scalar.zero

structure Encodes (query source : Graph) (w : Nat) (anchored : Bool) (s : Sample α) : Prop where
 size : s.size = query.size + source.size
 single : ∀ side, (sideOf query source side).multi = false →
  ∀ u v, (links query source side u v : α) =
  if (sideOf query source side).hasEdge u v then (if u = v then Scalar.one +
   Scalar.one else Scalar.one)
  else if u = v then Scalar.one else Scalar.zero
 inner : Tabulates s.inner (sites query source) fun x y =>
  if x.1 = y.1 then links query source x.1 x.2 y.2 else Scalar.zero
 outer : Tabulates s.outer (sites query source) fun x y =>
  if x.1 = y.1 then links query source x.1 x.2 y.2 else likeness query source w anchored x y
 sameLabel : Tabulates s.sameLabel (sites query source) fun x y =>
  if x.1 = y.1 then Scalar.zero else likeness query source w anchored x y
 mask : s.mask.Shaped [query.size + source.size] ∧ ∀ i < query.size + source.size,
  s.mask.entry i = if i < query.size then Scalar.one else Scalar.zero
 features : s.features.Shaped [query.size + source.size,2 * w]
 queryRow : ∀ i u, query.ids[i]? = some u → ∀ k < w,
  s.features.at2 (2 * w) i k = hot w anchored (labelOf query u) (flagOf query u) k ∧
   s.features.at2 (2 * w) i (w + k) = Scalar.zero
 sourceRow : ∀ i u, source.ids[i]? = some u → ∀ k < w,
  s.features.at2 (2 * w) (query.size + i) k = Scalar.zero ∧
   s.features.at2 (2 * w) (query.size + i) (w + k) = hot w anchored (labelOf source u)
    (flagOf source u) k

lemma likeness_symm (x y : Bool × NodeId) :
 (likeness query source w anchored x y : α) = likeness query source w anchored y x := by
 unfold likeness Alike
 refine if_congr ?_ rfl rfl
 exact and_congr eq_comm (imp_congr_right fun _ => eq_comm)

lemma crossOf_eq {nq ns i j : Nat} (hi : i < nq) (hj : j < ns) :
 crossOf nq ns w hQuery hSource i j =
  if sameRow hQuery hSource w i j then Scalar.one else Scalar.zero := by
 have hlt : i * ns + j < nq * ns := place_lt hi hj
 simp only [crossOf,Array.getD_eq_getD_getElem?,Array.getElem?_ofFn,hlt,dif_pos,Option.getD_some,
  place_div hj,
  place_mod hj]

lemma sameRow_iff {i j : Nat} : sameRow hQuery hSource w i j ↔
 ∀ k < w, Scalar.eq (hQuery.at2 w i k) (hSource.at2 w j k) := by
 simp [sameRow]

variable [Scalar.Exact α]

lemma links_single (hq : query.Sound) (hs : source.Sound) {side : Bool}
 (hm : (sideOf query source side).multi = false)
 (u v : NodeId) : (links query source side u v : α) =
  if (sideOf query source side).hasEdge u v then (if u = v then Scalar.one +
   Scalar.one else Scalar.one)
  else if u = v then Scalar.one else Scalar.zero := by
 have hsou : (sideOf query source side).Sound := by cases side <;> assumption
 rw [links,linkCount_single hsou hm]
 split <;> split <;> simp [tally,Scalar.Exact.zero_add_one]

lemma Legible.crossOf_likeness (hq : Legible query) (hs : Legible source) (hw : 3 ≤ w) {i j : Nat}
 {u v : NodeId} (hi : i < query.size) (hj : j < source.size) (hu : query.ids[i]? = some u)
 (hv : source.ids[j]? = some v)
 (hQ : ∀ k < w, hQuery.at2 w i k = hot w anchored (labelOf query u) (flagOf query u) k)
 (hS : ∀ k < w, hSource.at2 w j k = hot w anchored (labelOf source v) (flagOf source v) k) :
 crossOf query.size source.size w hQuery hSource i j = likeness query source w anchored (true,u)
  (false,v) := by
 rw [crossOf_eq hi hj]
 refine if_congr (sameRow_iff.trans ?_) rfl rfl
 refine Iff.trans (forall_congr' fun k => forall_congr' fun hk => ?_) (hot_eq_iff (α := α) hw
  (hq.labelOf_pos (mem_of_getElem? hu)) (hs.labelOf_pos (mem_of_getElem? hv)))
 rw [hQ k hk,hS k hk]
 exact Iff.rfl

lemma exists_parts_of_legible (anchored : Bool) (hq : query.Sound) (hs : source.Sound)
 (hq' : Legible query) (hs' : Legible source)
 (hnq : query.ids ≠ []) (hns : source.ids ≠ []) (hw : 3 ≤ w) :
  ∃ adjQuery hQuery adjSource hSource : Tensor α,
  Parts query source (.int w) anchored w adjQuery hQuery adjSource hSource ∧
  Counts query.ids (fun u v => query.linkCount u v + if u = v then 1 else 0) adjQuery.data ∧
  Counts source.ids (fun u v => source.linkCount u v + if u = v then 1 else 0) adjSource.data ∧
  (∀ i u, query.ids[i]? = some u → ∀ k < w, hQuery.at2 w i k = hot w anchored (labelOf query u)
   (flagOf query u) k) ∧
  ∀ i u, source.ids[i]? = some u → ∀ k < w, hSource.at2 w i k = hot w anchored (labelOf source u)
   (flagOf source u) k := by
 obtain ⟨adjQuery,hadjQ,_,hcq⟩ := adjacency_entries (α := α) hq hq'.weight
 obtain ⟨adjSource,hadjS,_,hcs⟩ := adjacency_entries (α := α) hs hs'.weight
 obtain ⟨hQuery,hhQ,hQ⟩ := hq'.nodeMatrix_eq (α := α) anchored hnq hw
 obtain ⟨hSource,hhS,hS⟩ := hs'.nodeMatrix_eq (α := α) anchored hns hw
 refine ⟨adjQuery,hQuery,adjSource,hSource,⟨hadjQ,hhQ,hadjS,hhS,?_,rfl⟩,hcq,hcs,hQ,hS⟩
 rw [size_eq_length,size_eq_length]
 exact ⟨fun h => hnq (length_eq_zero_iff.1 h),fun h => hns (length_eq_zero_iff.1 h)⟩

lemma encodes_assemble (hq : query.Sound) (hs : source.Sound) (hq' : Legible query)
 (hs' : Legible source) (hw : 3 ≤ w)
 {adjQuery hQuery adjSource hSource : Tensor α}
 (hcq : Counts query.ids (fun u v => query.linkCount u v + if u = v then 1 else 0) adjQuery.data)
 (hcs : Counts source.ids (fun u v => source.linkCount u v + if u = v then 1 else 0) adjSource.data)
 (hQ : ∀ i u, query.ids[i]? = some u → ∀ k < w, hQuery.at2 w i k = hot w anchored (labelOf query u)
  (flagOf query u) k)
 (hS : ∀ i u, source.ids[i]? = some u → ∀ k < w, hSource.at2 w i k =
  hot w anchored (labelOf source u) (flagOf source u) k)
 (mapping : Tensor α) (verdict : Int) (key : Value) : Encodes query source w anchored
  (assemble query.size source.size w adjQuery hQuery adjSource hSource mapping verdict key) := by
 have hown : ∀ i j u v, query.ids[i]? = some u → query.ids[j]? = some v →
  adjQuery.at2 query.size i j = links query source true u v := fun i j u v hu hv => by
  rw [size_eq_length]
  exact hcq.at2 hq.ids hu hv
 have hown' : ∀ i j u v, source.ids[i]? = some u → source.ids[j]? = some v →
  adjSource.at2 source.size i j = links query source false u v := fun i j u v hu hv => by
  rw [size_eq_length]
  exact hcs.at2 hs.ids hu hv
 have hcro : ∀ i j u v, i < query.size → j < source.size → query.ids[i]? = some u →
  source.ids[j]? = some v →
  crossOf query.size source.size w hQuery hSource i j = likeness query source w anchored (true,u)
   (false,v) :=
  fun i j u v hi hj hu hv => hq'.crossOf_likeness hs' hw hi hj hu hv (hQ i u hu) (hS j v hv)
 have hlt : ∀ {g : Graph} {i : Nat} {u : NodeId}, g.ids[i]? = some u → i < g.size :=
  fun {g i u} hu => by
  rw [size_eq_length]
  exact lt_length hu
 refine
  { size := rfl
    single := fun _ hm => links_single hq hs hm
    inner := tabulates_blocks (links query source) hown hown' (fun _ _ _ _ _ _ _ _ => rfl)
     fun _ _ => rfl
    outer := tabulates_blocks (links query source) hown hown' hcro likeness_symm
    sameLabel := tabulates_blocks (fun _ _ _ => Scalar.zero) (fun _ _ _ _ _ _ => at2_blank _ _ _)
      (fun _ _ _ _ _ _ => at2_blank _ _ _) hcro likeness_symm
    mask := ⟨⟨rfl,Array.size_ofFn⟩,fun i hi => entry_build (by simpa [volume] using hi)⟩
    features := ⟨rfl,Array.size_ofFn⟩
    queryRow := fun i u hu k hk => ?_
    sourceRow := fun i u hu k hk => ?_ }
 · have hi := hlt hu
   refine ⟨(at2_build (by omega) (by omega)).trans ?_,(at2_build (by omega) (by omega)).trans ?_⟩
   · dsimp only
     rw [place_div (by omega),place_mod (by omega),if_pos hi,if_pos hk,hQ i u hu k hk]
   · dsimp only
     rw [place_div (by omega),place_mod (by omega),if_pos hi,if_neg (by omega)]
 · have hi := hlt hu
   refine ⟨(at2_build (by omega) (by omega)).trans ?_,(at2_build (by omega) (by omega)).trans ?_⟩
   · dsimp only
     rw [place_div (by omega),place_mod (by omega),if_neg (by omega),if_pos hk]
   · dsimp only
     rw [place_div (by omega),place_mod (by omega),if_neg (by omega),if_neg (by omega),
      Nat.add_sub_cancel_left,Nat.add_sub_cancel_left,hS i u hu k hk]

theorem encode_blocks (hq : query.Sound) (hs : source.Sound) (hq' : Legible query)
 (hs' : Legible source)
 (hnq : query.ids ≠ []) (hns : source.ids ≠ []) (hw : 3 ≤ w) :
 (∃ s : Sample α, encode query source (.int w) anchored (.ok []) .none false = .ok s) ∧
  ∀ pairs key custom (s : Sample α), encode query source (.int w) anchored pairs key custom = .ok s →
   Encodes query source w anchored s := by
 obtain ⟨adjQuery,hQuery,adjSource,hSource,hpart,hcq,hcs,hQ,hS⟩ :=
  exists_parts_of_legible (α := α) anchored hq hs hq' hs' hnq hns hw
 refine ⟨⟨_,hpart.encode_eq⟩,fun pairs key custom s h => ?_⟩
 rw [hpart.encode_eq] at h
 obtain ⟨_,_,h⟩ := bind_eq_ok h
 obtain ⟨mapping,_,h⟩ := bind_eq_ok h
 obtain ⟨verdict,_,h⟩ := bind_eq_ok h
 cases h
 exact encodes_assemble hq hs hq' hs' hw hcq hcs hQ hS mapping verdict key

def hook : Graph where
 directed := false
 multi := false
 nodes := ⟨[(.num 0,⟨[("label",.int 1),("anchor",.int 1)]⟩),(.num 1,⟨[("label",.int 7)]⟩)]⟩
 edges := [⟨.num 0,.num 1,.none,.empty⟩]

def net : Graph where
 directed := false
 multi := false
 nodes := ⟨[(.num 5,⟨[("label",.int 2),("anchor",.int 0)]⟩),
  (.num 3,⟨[("label",.int 1),("anchor",.int 1)]⟩),
  (.num 4,⟨[("label",.int 1)]⟩)]⟩
 edges := [⟨.num 5,.num 3,.none,.empty⟩,⟨.num 3,.num 4,.none,.empty⟩,⟨.num 4,.num 5,.none,.empty⟩,
  ⟨.num 4,.num 4,.none,.empty⟩]

lemma hook_sound : hook.Sound := by decide

lemma net_sound : net.Sound := by decide

lemma hook_legible : Legible hook where
 label n hn := by fin_cases hn <;> exact ⟨_,_,rfl,rfl,by decide⟩
 anchor n hn v hv := by
  fin_cases hn <;> cases hv
  exact .inr rfl
 weight := by simp [hook,Table.empty,Table.get?]

lemma net_legible : Legible net where
 label n hn := by fin_cases hn <;> exact ⟨_,_,rfl,rfl,by decide⟩
 anchor n hn v hv := by fin_cases hn <;> cases hv <;> simp [Value.toInt?]
 weight := by simp [net,Table.empty,Table.get?]

theorem hook_net_blocks : hook.ids ≠ [] ∧ net.ids ≠ [] ∧
 (∃ s : Sample Float, encode hook net (.int 3) true (.ok []) .none false = .ok s) ∧
  ∀ pairs key custom (s : Sample Float), encode hook net (.int 3) true pairs key custom = .ok s →
   Encodes hook net 3 true s :=
 ⟨by decide,by decide,encode_blocks hook_sound net_sound hook_legible net_legible (by decide) (by decide) (by decide)⟩

end
end MotifMatch.Encoding
