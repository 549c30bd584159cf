import MotifMatch.Proofs.Provenance

namespace MotifMatch.Import
open List Run
open Corpus (View imported placeIn rank)
variable {v : View} {x : Note}
section
variable {c : Collection} {notes : List Note} {s : Slice} {l : Graph} {n : NodeId}
 {number : Int} {i : Nat}

lemma Tallied.number_iff (h : Tallied c notes) :
 c.graph.nodeAttr? n "graph_idx" = some (.int number) ↔
 ∃ (i : Nat) (x : Note), notes[i]? = some x ∧ x.number = number ∧ n = .num (i + 1) := by
 constructor
 · intro hn
   have hmem : n ∈ c.graph.ids := Graph.attrs?_isSome_iff.1 (by
    rw [Graph.nodeAttr?,Option.bind_eq_some_iff] at hn
    obtain ⟨a,ha,_⟩ := hn
    rw [ha]
    rfl)
   obtain ⟨i,hi,rfl⟩ := h.mem_ids.1 hmem
   have hx := getElem?_eq_getElem hi
   rw [Graph.nodeAttr?,h.attrs? hx,Option.bind_some,Note.get?_number] at hn
   exact ⟨i,_,hx,by simpa using hn,rfl⟩
 · rintro ⟨i,x,hx,rfl,rfl⟩
   rw [Graph.nodeAttr?,h.attrs? hx,Option.bind_some,Note.get?_number]

lemma Tallied.label_eq (h : Tallied c notes) (hx : notes[i]? = some x) :
 c.graph.nodeAttr? (.num (i + 1)) "label" = some (.int x.label) := by
 rw [Graph.nodeAttr?,h.attrs? hx,Option.bind_some,Note.get?_label]

section
variable (h : Cut v c notes s)
include h

lemma Cut.mem_order : .num i ∈ s.order ↔ ∃ x, notes[i]? = some x ∧ x.number = s.number := by
 rw [h.perm.mem_iff,mem_orderAt]
 constructor
 · rintro ⟨j,x,hx,hnum,heq⟩
   obtain rfl : i = j := Int.ofNat.inj (NodeId.num.inj heq)
   exact ⟨x,hx,hnum⟩
 · rintro ⟨x,hx,hnum⟩
   exact ⟨i,x,hx,hnum,rfl⟩

lemma Cut.imported_eq (hi : .num i ∈ s.order) :
 imported s.names (.num (placeIn s.order (.num i))) = .num (i + 1) := h.naming.imported_eq (Slice.mem_names hi)

lemma Cut.mem_loaded (hl : ∀ n, n ∈ l.ids ↔ ∃ m ∈ s.graph.ids, imported s.names m = n) :
 n ∈ l.ids ↔ ∃ (i : Nat), .num i ∈ s.order ∧ n = .num (i + 1) := by
 rw [hl]
 constructor
 · rintro ⟨m,hm,rfl⟩
   obtain ⟨k,hk,rfl⟩ := (h.crops.ids m).1 hm
   obtain ⟨i,_,_,_,rfl⟩ := mem_orderAt.1 (h.perm.mem_iff.1 hk)
   exact ⟨i,hk,h.imported_eq hk⟩
 · rintro ⟨i,hi,rfl⟩
   exact ⟨_,(h.crops.ids _).2 ⟨_,hi,rfl⟩,h.imported_eq hi⟩

lemma Cut.number_loaded (htal : Tallied c notes)
 (hl : ∀ n, n ∈ l.ids ↔ ∃ m ∈ s.graph.ids, imported s.names m = n) :
 n ∈ l.ids ↔ c.graph.nodeAttr? n "graph_idx" = some (.int s.number) := by
 rw [h.mem_loaded hl,htal.number_iff]
 constructor
 · rintro ⟨i,hi,rfl⟩
   obtain ⟨x,hx,hnum⟩ := h.mem_order.1 hi
   exact ⟨i,x,hx,hnum,rfl⟩
 · rintro ⟨i,x,hx,hnum,rfl⟩
   exact ⟨i,h.mem_order.2 ⟨x,hx,hnum⟩,rfl⟩

lemma Cut.label_loaded (htal : Tallied c notes) {a : NodeId}
 (hl : l.Restores s.graph (imported s.names) a) (hx : notes[i]? = some x)
 (hnum : x.number = s.number) :
 l.nodeAttr? (.num (i + 1)) "label" = some (.int (rank (labelsAt notes s.number) x.label + 1)) := by
 have hi := h.mem_order.2 ⟨x,hx,hnum⟩
 have hran := rank_orderAt htal hx (hnum ▸ h.perm)
 rw [hnum] at hran
 rw [← h.imported_eq hi,hl.label _ ((h.crops.ids _).2 ⟨_,hi,rfl⟩),h.crops.label _ hi,
  labelAt_eq hx,hran]

end

structure Shows (c : Collection) (number : Int) (l : Graph) : Prop where
 sound : l.Sound
 single : l.multi = false
 undirected : l.directed = false
 ids : ∀ n, n ∈ l.ids ↔ c.graph.nodeAttr? n "graph_idx" = some (.int number)
 edges : ∀ m ∈ l.ids, ∀ n ∈ l.ids, l.hasEdge m n = (c.graph.hasEdge m n || c.graph.hasEdge n m)
 labels : ∀ m ∈ l.ids, ∀ n ∈ l.ids,
  l.nodeAttr? m "label" = l.nodeAttr? n "label" ↔ c.graph.nodeAttr? m "label" =
   c.graph.nodeAttr? n "label"
 anchor : ∃ a, c.anchors.get? number = some a ∧ .num a ∈ l.ids ∧
  ∀ n ∈ l.ids, l.nodeAttr? n "anchor" = some (.int (if n = .num a then 1 else 0))

lemma Cut.shows (h : Cut v c notes s) (htal : Tallied c notes)
 (hl : l.Restores s.graph (imported s.names) (.num s.anchor)) :
 Shows c s.number l where
 sound := hl.sound
 single := hl.multi
 undirected := hl.directed.trans h.crops.listable.undirected
 ids _ := h.number_loaded htal hl.ids
 edges m hm n hn := by
  obtain ⟨i,hi,rfl⟩ := (h.mem_loaded hl.ids).1 hm
  obtain ⟨j,hj,rfl⟩ := (h.mem_loaded hl.ids).1 hn
  have hmem : ∀ {k : Nat}, .num k ∈ s.order → .num (placeIn s.order (.num k)) ∈ s.graph.ids :=
   fun hk =>
   (h.crops.ids _).2 ⟨_,hk,rfl⟩
  rw [← h.imported_eq hi,← h.imported_eq hj,hl.hasEdge _ (hmem hi) _ (hmem hj),
   h.crops.hasEdge _ hi _ hj,
   hasEdge_total htal,h.imported_eq hi,h.imported_eq hj]
 labels m hm n hn := by
  obtain ⟨i,hi,rfl⟩ := (h.mem_loaded hl.ids).1 hm
  obtain ⟨j,hj,rfl⟩ := (h.mem_loaded hl.ids).1 hn
  obtain ⟨x,hx,hxnu⟩ := h.mem_order.1 hi
  obtain ⟨y,hy,hynu⟩ := h.mem_order.1 hj
  have hlab : ∀ {k : Nat} {z : Note}, notes[k]? = some z → z.number = s.number →
   z.label ∈ labelsAt notes s.number :=
   fun hz hnum => mem_map_of_mem (mem_filter.2 ⟨mem_of_getElem? hz,by simpa using hnum⟩)
  rw [h.label_loaded htal hl hx hxnu,h.label_loaded htal hl hy hynu,htal.label_eq hx,htal.label_eq hy,
   Option.some.injEq,Option.some.injEq,Value.int.injEq,Value.int.injEq]
  constructor
  · intro heq
    exact Corpus.rank_inj (hlab hx hxnu) (hlab hy hynu) (by omega)
  · intro heq
    rw [heq]
 anchor := by
  obtain ⟨i,hi,hanc,hget⟩ := h.anchor
  have hpla : NodeId.num s.anchor = .num (placeIn s.order (.num i)) := by
   rw [hanc]
   rfl
  refine ⟨i + 1,hget,(h.mem_loaded hl.ids).2 ⟨i,hi,rfl⟩,fun n hn => ?_⟩
  obtain ⟨j,hj,rfl⟩ := (h.mem_loaded hl.ids).1 hn
  rw [← h.imported_eq hj,hl.anchor _ ((h.crops.ids _).2 ⟨_,hj,rfl⟩),h.imported_eq hj,hpla]
  by_cases hij : j = i
  · subst hij
    rw [if_pos rfl,if_pos rfl]
  · rw [if_neg fun heq => hij ?_,if_neg fun heq => hij ?_]
    · have := NodeId.num.inj heq
      omega
    · exact Int.ofNat.inj (NodeId.num.inj (Corpus.placeIn_inj hj (NodeId.num.inj heq)))

lemma Shows.number_eq {number' : Int} (h : Shows c number l) (h' : Shows c number' l) :
 number = number' := by
 obtain ⟨a,_,ha,_⟩ := h.anchor
 have hsame := ((h.ids _).1 ha).symm.trans ((h'.ids _).1 ha)
 simpa using hsame

end

section
variable {σ : Session} {name dir : String} {d : List String} {c : Collection} {notes : List Note}
 {xs : Bool → List (Int × Slice)} {place : Bool × Int} {l l' : Graph} {number : Int}
 {directed : Bool}

lemma Yields.unique (h : Yields σ place l) (h' : Yields σ place l') : l = l' := by
 obtain ⟨_,hends⟩ := h
 obtain ⟨_,hend'⟩ := h'
 exact Except.ok.inj (hends.unique hend').1

variable (h : Distributed v c notes σ d name xs)
include h

lemma Distributed.of_yields (hload : Loadable σ name dir d directed)
 (hyie : Yields σ place l) : ∃ x ∈ xs place.1, x.1 = place.2 ∧
  l.Restores (x.2.graph.facing directed Graph.idNumber) (imported x.2.names) (.num x.2.anchor) := by
 obtain ⟨x,hx,hkey⟩ := hload.stored_of_yields (h.stocked place.1) hyie
 have hpla : (place.1,x.1) = place := by rw [hkey]
 -- a source that is stored under the mark of an end is never loaded
 have hne : x.1 ≠ -1 := fun hmin => hload.not_yields (h.stocked place.1) hx hmin (hpla ▸ hyie)
 obtain ⟨l',hyie',hres⟩ := hload.yields_stored (h.stocked place.1) hx (h.cut place.1 x hx) hne
 rw [hyie.unique (hpla ▸ hyie')]
 exact ⟨x,hx,hkey,hres⟩

lemma Distributed.shows_of_yields (hload : Loadable σ name dir d false) (htal : Tallied c notes)
 (hyie : Yields σ place l) : ∃ x ∈ xs place.1, x.1 = place.2 ∧ Shows c x.2.number l := by
 obtain ⟨x,hx,hkey,hres⟩ := h.of_yields hload hyie
 exact ⟨x,hx,hkey,(h.cut place.1 x hx).shows htal hres⟩

lemma Distributed.place_eq {test test' : Bool} {x y : Int × Slice} (hx : x ∈ xs test)
 (hy : y ∈ xs test') (hnum : x.2.number = y.2.number) : (test,x.1) = (test',y.1) := by
 have hnu := h.numbers
 rw [map_append,nodup_append] at hnu
 obtain ⟨htra,htest,hapa⟩ := hnu
 have hmem : ∀ {test : Bool} {z : Int × Slice}, z ∈ xs test →
  z.2.number ∈ (xs test).map fun z => z.2.number := fun hz =>
  mem_map_of_mem hz
 cases test <;> cases test'
 · rw [inj_on_of_nodup_map htra hx hy hnum]
 · exact absurd hnum (hapa _ (hmem hx) _ (hmem hy))
 · exact absurd hnum.symm (hapa _ (hmem hy) _ (hmem hx))
 · rw [inj_on_of_nodup_map htest hx hy hnum]

lemma Distributed.exists_source (htal : Tallied c notes)
 (hnum : ∃ n, c.graph.nodeAttr? n "graph_idx" = some (.int number)) :
  ∃ test, ∃ x ∈ xs test, x.2.number = number := by
 obtain ⟨n,hn⟩ := hnum
 obtain ⟨i,y,hy,rfl,_⟩ := htal.number_iff.1 hn
 obtain ⟨x,hx,hxnu⟩ := h.covers y (mem_of_getElem? hy)
 rcases mem_append.1 hx with hx | hx
 · exact ⟨false,x,hx,hxnu⟩
 · exact ⟨true,x,hx,hxnu⟩

lemma Distributed.existsUnique (hload : Loadable σ name dir d false) (htal : Tallied c notes)
 (hkeys : ∀ test, ∀ x ∈ xs test, x.1 ≠ -1) (hnum : ∃ n, c.graph.nodeAttr? n "graph_idx" =
  some (.int number)) :
 ∃! place, ∃ l, Yields σ place l ∧ Shows c number l := by
 obtain ⟨test,x,hx,rfl⟩ := h.exists_source htal hnum
 obtain ⟨l,hyie,hres⟩ := hload.yields_stored (h.stocked test) hx (h.cut test x hx) (hkeys test x hx)
 refine ⟨(test,x.1),⟨l,hyie,(h.cut test x hx).shows htal hres⟩,?_⟩
 rintro place ⟨l',hyie',hsho'⟩
 obtain ⟨y,hy,hkey,hsho⟩ := h.shows_of_yields hload htal hyie'
 have hpla := h.place_eq hy hx (hsho.number_eq hsho')
 rwa [hkey] at hpla

end

variable {σ : Session} {name raw : String} {r : List String} {c : Collection} {notes : List Note}

structure Lined (a : Attrs) : Prop where
 scope : ∃ s, a.get? "record_scope" = some (.str s) ∧ Text.Neat s
 patternId : a.get? "pattern_id" = some .none ∨ ∃ s, a.get? "pattern_id" =
  some (.str s) ∧ Text.Neat s
 dataset : ∃ s, a.get? "record_dataset" = some (.str s) ∧ Text.Neat s

structure Annotates (c : Collection) (scopes datasets patterns : Table String String) : Prop where
 scope : ∀ n a, c.graph.attrs? n = some a → scopes.get? n.text =
  (a.get? "record_scope").map fun s => (PatternId.encode s (a.getD "pattern_id" .none)).text
 dataset : ∀ n a, c.graph.attrs? n = some a →
  datasets.get? n.text = (a.get? "record_dataset").map Value.text
 pattern : ∀ n a, c.graph.attrs? n = some a → ∃ ps :
  List String, a.get? "pattern_types" = some (.list (ps.map .str)) ∧
  patterns.get? n.text = ps.getLast?

lemma Tallied.exists_note (h : Tallied c notes) {n : NodeId} {a : Attrs}
 (ha : c.graph.attrs? n = some a) :
 ∃ (i : Nat) (x : Note), notes[i]? = some x ∧ n = .num (i + 1) ∧ a = x.attrs := by
 obtain ⟨i,hi,rfl⟩ := h.mem_ids.1 (Graph.attrs?_isSome_iff.1 (by rw [ha]; rfl))
 have hx := getElem?_eq_getElem hi
 exact ⟨i,_,hx,rfl,Option.some.inj (ha.symm.trans (h.attrs? hx))⟩

lemma Archived.annotates (h : Archived σ raw name r c notes) (htal : Tallied c notes)
 (hne : notes ≠ [])
 (hdat : σ.settings.get "dataset" = .ok (.str name))
 (hraw : σ.settings.get "raw_dataset_dir" = .ok (.str raw))
 (hlin : ∀ n a, c.graph.attrs? n = some a → Lined a) :
 ∃ scopes datasets patterns, Ends Annotations.recordScopes σ (.ok scopes) σ ∧
  Ends Annotations.recordDatasets σ (.ok datasets) σ ∧
   Ends Annotations.designPatterns σ (.ok patterns) σ ∧
  Annotates c scopes datasets patterns := by
 have hnot : ∀ x ∈ notes, x.Lined := by
  intro x hx
  obtain ⟨i,hi⟩ := mem_iff_getElem?.1 hx
  obtain ⟨hsco,hpat,hset⟩ := hlin _ _ (htal.attrs? hi)
  simp only [Note.get?_scope,Note.get?_patternId,Note.get?_dataset,
   Option.some.injEq] at hsco hpat hset
  exact ⟨hsco,hpat,hset⟩
 have hfil : (".record_scopes",notes.map Note.shownScope) ∈ archive c notes ∧
  (".record_datasets",notes.map fun x => x.dataset.text) ∈ archive c notes := by simp [archive]
 obtain ⟨scopes,hsc,hsco⟩ := h.ends_perNode hdat hraw hne hfil.1 fun x hx => (hnot x hx).neat_scope
 obtain ⟨datasets,hda,hset⟩ := h.ends_perNode hdat hraw hne hfil.2 fun x hx =>
  (hnot x hx).neat_dataset
 obtain ⟨patterns,hpa,hpat⟩ := h.ends_designPatterns hdat hraw htal.valid
 refine ⟨scopes,datasets,patterns,hsc,hda,hpa,?_,?_,?_⟩
 · intro n a ha
   obtain ⟨i,x,hx,rfl,rfl⟩ := htal.exists_note ha
   rw [Note.get?_scope,Table.getD_of_get? x.get?_patternId]
   exact hsco i x hx
 · intro n a ha
   obtain ⟨i,x,hx,rfl,rfl⟩ := htal.exists_note ha
   exact hset i x hx
 · intro n a ha
   obtain ⟨i,x,hx,rfl,rfl⟩ := htal.exists_note ha
   exact ⟨x.patterns,x.get?_patterns,hpat i x hx⟩

variable {σ' : Session} {dir : String} {d : List String} {queries : Bool → Value → Queries}

structure Legible (c : Collection) : Prop where
 edge : ∃ u v, c.graph.hasEdge u v = true
 lined : ∀ n a, c.graph.attrs? n = some a → Lined a

def Anchored (c : Collection) : Prop :=
 ∀ n number, c.graph.nodeAttr? n "graph_idx" = some (.int number) →
  ∃ a, c.anchors.get? number = some a

lemma Tallied.edges_ne_nil (h : Tallied c notes) (hedge : ∃ u v, c.graph.hasEdge u v) :
 c.graph.edgeList ≠ [] := by
 obtain ⟨u,v,huv⟩ := hedge
 obtain ⟨e,he,_⟩ := (Graph.hasEdge_iff_listed h.sound).1 huv
 exact ne_nil_of_mem he

lemma Anchored.of_note (h : Anchored c) (htal : Tallied c notes) :
 ∀ x ∈ notes, ∃ a, c.anchors.get? x.number = some a := by
 intro x hx
 obtain ⟨i,hi⟩ := mem_iff_getElem?.1 hx
 exact h _ _ (htal.number_iff.2 ⟨i,x,hi,rfl,rfl⟩)

lemma Furnished.loadable {directed : Bool} (h : Furnished σ name raw dir r d)
 (hdir : ∃ v, σ.settings.get "directed" = .ok v ∧ v.truthy = directed)
 (hkee : σ.files.Keeps σ'.files)
 (hset : σ'.settings = σ.settings) : Loadable σ' name dir d directed :=
 ⟨hset ▸ h.dataset,hset ▸ h.dataDir,hset ▸ hdir,h.dirNamed,hkee.resolve h.leads,h.partFile⟩

lemma Ready.loadable (h : Ready σ name raw dir r d) (hkee : σ.files.Keeps σ'.files)
 (hset : σ'.settings = σ.settings) :
 Loadable σ' name dir d false :=
 h.toFurnished.loadable h.undirected hkee hset

lemma Cut.exists_node {s : Slice} (h : Cut v c notes s) (htal : Tallied c notes) :
 ∃ n, c.graph.nodeAttr? n "graph_idx" = some (.int s.number) := by
 obtain ⟨i,hi,_⟩ := h.anchor
 obtain ⟨x,hx,hnum⟩ := h.mem_order.1 hi
 exact ⟨_,htal.number_iff.2 ⟨i,x,hx,hnum,rfl⟩⟩

lemma Distributed.key_ne {xs : Bool → List (Int × Slice)} (h : Distributed v c notes σ d name xs)
 (htal : Tallied c notes)
 {split : Bool} (hkey : if split then ∀ test, ∀ x ∈ xs test, 0 ≤ x.1 else xs false = [] ∧
  ∀ x ∈ xs true, x.2.number = x.1 + 1)
 (hzero : split ∨ ∀ n, c.graph.nodeAttr? n "graph_idx" ≠ some (.int 0)) :
  ∀ test, ∀ x ∈ xs test, x.1 ≠ -1 := by
 intro test x hx
 cases split with
 | true =>
  have := hkey test x hx
  omega
 | false =>
  obtain ⟨htra,htest⟩ := hkey
  obtain ⟨n,hn⟩ := (h.cut test x hx).exists_node htal
  have hnum : x.2.number ≠ 0 := fun h0 => (hzero.resolve_left (by decide)) n (h0 ▸ hn)
  cases test with
  | false =>
   rw [htra] at hx
   cases hx
  | true =>
   have := htest x hx
   omega

structure Shown (c : Collection) (σ : Session) : Prop where
 each : ∀ number, (∃ n, c.graph.nodeAttr? n "graph_idx" = some (.int number)) →
  ∃! place, ∃ l, Yields σ place l ∧ Shows c number l
 only : ∀ place l, Yields σ place l → ∃ number, Shows c number l
 annotated : ∃ scopes datasets patterns, Ends Annotations.recordScopes σ (.ok scopes) σ ∧
  Ends Annotations.recordDatasets σ (.ok datasets) σ ∧
   Ends Annotations.designPatterns σ (.ok patterns) σ ∧
  Annotates c scopes datasets patterns

/-- However the sources are split, every collected graph is loaded once, from one place, with its
own nodes, edges and anchor, and nothing else is loaded. Sources that are not split are stored under
their numbers less one, and one of these is the mark that ends a listing. -/
theorem prepare_shows_each (v : View) (calls : List Call) (hleg : Legible (collected calls))
 (hanc : Anchored (collected calls))
 (hread : Ready σ name raw dir r d) (hque : ∀ test k, (queries test k).Valid) (split : Bool)
 (hzero : split = true ∨ ∀ n, (collected calls).graph.nodeAttr? n "graph_idx" ≠ some (.int 0)) :
 ∃ σ', Ends (prepare v (collected calls) split queries) σ (.ok ()) σ' ∧
  Shown (collected calls) σ' := by
 obtain ⟨notes,htal⟩ := collected_tallied calls
 have hedge := htal.edges_ne_nil hleg.edge
 obtain ⟨σ',xs,hends,hset,hkeep,harc,hdist,hkey⟩ := ends_prepare hread htal hedge
  v (hanc.of_note htal) hque split
 have hload := hread.loadable hkeep hset
 have hmin := hdist.key_ne htal hkey hzero
 refine ⟨σ',hends,fun number hnum => hdist.existsUnique hload htal hmin hnum,fun place l hyie => ?_,
  harc.annotates htal (htal.notes_ne_nil hedge) (hset ▸ hread.dataset)
   (hset ▸ hread.rawDir) hleg.lined⟩
 obtain ⟨x,_,_,hsho⟩ := hdist.shows_of_yields hload htal hyie
 exact ⟨_,hsho⟩

lemma unsplit_hides_zero (v : View) (htal : Tallied c notes) (hedge : ∃ u v, c.graph.hasEdge u v)
 (hanc : Anchored c)
 (hrea : Ready σ name raw dir r d) (hque : ∀ test k, (queries test k).Valid) :
 ∃ σ', Ends (prepare v c false queries) σ (.ok ()) σ' ∧ ∀ place l, Yields σ' place l →
  ¬Shows c 0 l := by
 obtain ⟨σ',xs,hends,hset,hkee,_,hdis,htra,htest⟩ := ends_prepare hrea htal
  (htal.edges_ne_nil hedge) v (hanc.of_note htal) hque false
 have hload := hrea.loadable hkee hset
 refine ⟨σ',hends,?_⟩
 rintro ⟨test,k⟩ l hyie hzero
 obtain ⟨x,hx,hkey,hsho⟩ := hdis.shows_of_yields hload htal hyie
 have hnum := hsho.number_eq hzero
 cases test with
 | false =>
  rw [htra] at hx
  cases hx
 | true =>
  have hmin : x.1 = -1 := by
   have := htest x hx
   omega
  obtain rfl : k = x.1 := hkey.symm
  exact hload.not_yields (hdis.stocked true) hx hmin hyie

section
variable {number : Int}

def creation : Graph where
 directed := true
 multi := false
 nodes := ⟨[
  (.name "Shop",⟨[("labels_RecordDeclaration",.int 1),("labels_SINGLETON",.int 1),
   ("node_patternId",.str "p1"),
   ("node_scopedRecordName",.str "shop.Shop"),("node_dataset",.str "shops")]⟩),
  (.name "makes",⟨[("labels_CREATES_RECORD",.int 1)]⟩),
  (.name "Cart",⟨[("labels_RecordDeclaration",.int 1)]⟩)]⟩
 edges := [⟨.name "Shop",.name "makes",.none,.empty⟩,⟨.name "makes",.name "Cart",.none,.empty⟩]

def acquaintance : Graph where
 directed := true
 multi := false
 nodes := ⟨[(.name "knows",⟨[("labels_KNOWS_RECORD",.int 1)]⟩),
  (.name "Bank",⟨[("labels_RecordDeclaration",.int 1)]⟩)]⟩
 edges := [⟨.name "Bank",.name "knows",.none,.empty⟩,⟨.name "knows",.name "Bank",.none,.empty⟩]

def unremarkable (label number : Int) : Note := ⟨label,number,[],.none,.str "None",.str "None"⟩

def creationNotes (number : Int) : List Note :=
 [⟨1,number,["SINGLETON"],.str "p1",.str "shop.Shop",.str "shops"⟩,unremarkable 3 number,
  unremarkable 1 number]

def acquaintanceNotes (number : Int) : List Note := [unremarkable 2 number,unremarkable 1 number]

lemma number_creation (hx : x ∈ creationNotes number) : x.number = number := by
 simp only [creationNotes,mem_cons,not_mem_nil,or_false] at hx
 rcases hx with rfl | rfl | rfl <;> rfl

lemma number_acquaintance (hx : x ∈ acquaintanceNotes number) : x.number = number := by
 rcases mem_pair.1 hx with rfl | rfl <;> rfl

def shops : List Call := [⟨creation,.name "Shop",1⟩,⟨acquaintance,.name "Bank",2⟩]

lemma nodes_shops : (collected shops).graph.nodes.entries =
 noted (creationNotes 1 ++ acquaintanceNotes 2) := by rfl

section
variable (h : c.graph.nodes.entries = noted notes)
include h

lemma exists_note_of_nodes {n : NodeId} {a : Attrs} (ha : c.graph.attrs? n = some a) :
 ∃ x ∈ notes, a = x.attrs := by
 have hmem := Table.mem_of_get? ha
 rw [h] at hmem
 obtain ⟨⟨x,i⟩,hx,heq⟩ := mem_map.1 hmem
 exact ⟨x,fst_mem_of_mem_zipIdx hx,(Prod.mk.inj heq).2.symm⟩

lemma exists_note_of_number {n : NodeId}
 (hn : c.graph.nodeAttr? n "graph_idx" = some (.int number)) : ∃ x ∈ notes, x.number = number := by
 rw [Graph.nodeAttr?,Option.bind_eq_some_iff] at hn
 obtain ⟨a,ha,hget⟩ := hn
 obtain ⟨x,hx,rfl⟩ := exists_note_of_nodes h ha
 rw [Note.get?_number] at hget
 exact ⟨x,hx,by simpa using hget⟩

lemma lined_of_nodes (hlin : ∀ x ∈ notes, x.Lined) : ∀ n a, c.graph.attrs? n = some a → Lined a := by
 intro n a ha
 obtain ⟨x,hx,rfl⟩ := exists_note_of_nodes h ha
 obtain ⟨⟨s,hs,hneat⟩,hpat,t,ht,hnea'⟩ := hlin x hx
 refine ⟨⟨s,by rw [Note.get?_scope,hs],hneat⟩,?_,t,by rw [Note.get?_dataset,ht],hnea'⟩
 rw [Note.get?_patternId]
 simpa using hpat

end

lemma lined_unremarkable (label number : Int) : (unremarkable label number).Lined :=
 ⟨⟨_,rfl,by decide⟩,.inl rfl,_,rfl,by decide⟩

lemma lined_creation (number : Int) : ∀ x ∈ creationNotes number, x.Lined := by
 simp only [creationNotes,forall_mem_cons]
 exact ⟨⟨⟨_,rfl,by decide⟩,.inr ⟨_,rfl,by decide⟩,_,rfl,by decide⟩,lined_unremarkable 3 number,
  lined_unremarkable 1 number,by simp⟩

lemma lined_acquaintance (number : Int) : ∀ x ∈ acquaintanceNotes number, x.Lined := by
 simp only [acquaintanceNotes,forall_mem_cons]
 exact ⟨lined_unremarkable 2 number,lined_unremarkable 1 number,by simp⟩

lemma legible_shops : Legible (collected shops) :=
 ⟨⟨.num 1,.num 2,by decide⟩,lined_of_nodes nodes_shops
  (forall_mem_append.2 ⟨lined_creation 1,lined_acquaintance 2⟩)⟩

lemma anchored_shops : Anchored (collected shops) := by
 intro n number hn
 obtain ⟨x,hx,rfl⟩ := exists_note_of_number nodes_shops hn
 rcases mem_append.1 hx with hx | hx
 · exact ⟨1,by rw [number_creation hx]; decide⟩
 · exact ⟨5,by rw [number_acquaintance hx]; decide⟩

def depot : Session where
 streams := default
 settings :=
  ⟨⟨[("directed",.bool false),("dataset",.str "CPG"),("raw_dataset_dir",.str "data/raw_datasets/"),
  ("dataset_dir",.str "data/datasets/")]⟩⟩
 files := .folder [("glema",
  .folder [("data",.folder [("raw_datasets",.folder []),("datasets",.folder [])])])]
 printed := #[]
 records := []

lemma relative_data (s : String) : Path.isAbsolute ("data" ++ "/" ++ s) = false := by
 have hnam : Path.FileName "data" := ⟨by decide,'d',_,rfl,by decide,by decide⟩
 rw [Path.isAbsolute_append (by decide),hnam.isAbsolute]

lemma depot_ready : Ready depot "CPG" "data/raw_datasets/" "data/datasets/"
 ["glema","data","raw_datasets"]
 ["glema","data","datasets"] where
 dataset := rfl
 rawDir := rfl
 dataDir := rfl
 undirected := ⟨_,rfl,rfl⟩
 named := ⟨by decide,'C',_,rfl,by decide,by decide⟩
 dirNamed := by decide
 room := ⟨Entry.resolve_eq_ok.2 ⟨_,
  Path.fromRoot?_ofProject_of_relative (relative_data "raw_datasets/"),by rfl⟩,⟨[],rfl⟩,
  fun e he => by cases he⟩
 leads := Entry.resolve_eq_ok.2 ⟨_,
  Path.fromRoot?_ofProject_of_relative (relative_data "datasets/"),by rfl⟩
 found := ⟨[],rfl⟩
 fresh := fun _ => ⟨_,rfl⟩
 outside := by decide

def backwards : View := ⟨reverse,reverse_perm⟩

def unasked (_ : Bool) (_ : Value) : Queries := ⟨[],[]⟩

lemma valid_unasked (test : Bool) (k : Value) : (unasked test k).Valid :=
 ⟨by simp [unasked],by simp [unasked]⟩

theorem shops_shown : (∃ σ', Ends (prepare backwards (collected shops) true unasked) depot
 (.ok ()) σ' ∧ Shown (collected shops) σ') ∧
 ∃ σ', Ends (prepare backwards (collected shops) false unasked) depot (.ok ()) σ' ∧
  Shown (collected shops) σ' := by
 have hzero : ∀ n, (collected shops).graph.nodeAttr? n "graph_idx" ≠ some (.int 0) := by
  intro n hn
  obtain ⟨x,hx,hnum⟩ := exists_note_of_number nodes_shops hn
  rcases mem_append.1 hx with hx | hx
  · cases hnum.symm.trans (number_creation hx)
  · cases hnum.symm.trans (number_acquaintance hx)
 exact ⟨prepare_shows_each backwards shops legible_shops anchored_shops depot_ready valid_unasked
  true (.inl rfl),
  prepare_shows_each backwards shops legible_shops anchored_shops depot_ready valid_unasked false
   (.inr hzero)⟩

def zeroth : List Call := [⟨creation,.name "Shop",0⟩]

lemma nodes_zeroth : (collected zeroth).graph.nodes.entries = noted (creationNotes 0) := by rfl

lemma anchored_zeroth : Anchored (collected zeroth) := by
 intro n number hn
 obtain ⟨x,hx,rfl⟩ := exists_note_of_number nodes_zeroth hn
 exact ⟨1,by rw [number_creation hx]; decide⟩

def unanchored : List Call := [⟨creation,.name "Shop",1⟩,⟨acquaintance,.name "Till",2⟩]

lemma nodes_unanchored : (collected unanchored).graph.nodes.entries =
 noted (creationNotes 1 ++ acquaintanceNotes 2) := by rfl

theorem zeroth_and_unanchored_not_shown :
 (Legible (collected zeroth) ∧
  ∃ σ', Ends (prepare backwards (collected zeroth) false unasked) depot (.ok ()) σ' ∧
   ¬Shown (collected zeroth) σ') ∧
 Legible (collected unanchored) ∧
  ∃ σ', Ends (prepare backwards (collected unanchored) true unasked) depot
   (.error .missingKey) σ' := by
 have hzero : Legible (collected zeroth) :=
  ⟨⟨.num 1,.num 2,by decide⟩,lined_of_nodes nodes_zeroth (lined_creation 0)⟩
 have huna : Legible (collected unanchored) := ⟨⟨.num 1,.num 2,by decide⟩,
  lined_of_nodes nodes_unanchored (forall_mem_append.2 ⟨lined_creation 1,lined_acquaintance 2⟩)⟩
 refine ⟨⟨hzero,?_⟩,huna,?_⟩
 · obtain ⟨notes,htal⟩ := collected_tallied zeroth
   obtain ⟨σ',hends,hhid⟩ :=
    unsplit_hides_zero backwards htal hzero.edge anchored_zeroth depot_ready valid_unasked
   refine ⟨σ',hends,fun hsho => ?_⟩
   obtain ⟨place,⟨l,hyie,hshows⟩,_⟩ := hsho.each 0 ⟨.num 1,by rfl⟩
   exact hhid place l hyie hshows
 · obtain ⟨notes,htal⟩ := collected_tallied unanchored
   have hsec : (collected unanchored).graph.nodeAttr? (.num 4) "graph_idx" = some (.int 2) := by rfl
   obtain ⟨i,x,hx,hnum,_⟩ := htal.number_iff.1 hsec
   exact ends_prepare_error depot_ready htal (htal.edges_ne_nil huna.edge) backwards (by decide)
    (mem_of_getElem? hx)
    (by rw [hnum]; decide) true unasked

end

open Corpus (imported placeIn)
open MotifMatch.Graph (idNumber)
variable {s : Slice} {l : Graph} {number : Int}

def Collection.membersOf (c : Collection) (number : Int) : List NodeId :=
 (c.graph.ids.filter fun n => c.graph.nodeAttr? n "graph_idx" == some (.int number)).map lower

def Collection.placeOf (v : View) (c : Collection) (number : Int) (n : NodeId) : Int :=
 placeIn (v.order (c.membersOf number)) (lower n)

lemma Tallied.membersOf_eq (h : Tallied c notes) (number : Int) :
 c.membersOf number = orderAt notes number := by
 have hids : c.graph.ids = notes.zipIdx.map fun x => .num (x.2 + 1) := by
  rw [Graph.ids,Table.keys,h.nodes,noted,map_map]
  rfl
 rw [Collection.membersOf,hids,filter_map,map_map,orderAt]
 refine congrArg₂ map (funext fun x => ?_) (filter_congr fun x hx => ?_)
 · exact congrArg NodeId.num (Int.add_sub_cancel _ _)
 · rw [Function.comp_apply,Graph.nodeAttr?,h.attrs? (mk_mem_zipIdx_iff_getElem?.1 hx),
    Option.bind_some,Note.get?_number]
   exact Value.same_int _ _

lemma Cut.placeOf_eq (h : Cut v c notes s) (htal : Tallied c notes) (i : Nat) :
 c.placeOf v s.number (.num (i + 1)) = placeIn s.order (.num i) := by
 rw [Collection.placeOf,htal.membersOf_eq,h.order]
 exact congrArg (placeIn _) (congrArg NodeId.num (Int.add_sub_cancel _ _))

/-- A source as it is loaded with directions. Each of its edges leads from the end that was listed
first. -/
structure Directs (v : View) (c : Collection) (number : Int) (l : Graph) : Prop where
 sound : l.Sound
 single : l.multi = false
 directed : l.directed = true
 ids : ∀ n, n ∈ l.ids ↔ c.graph.nodeAttr? n "graph_idx" = some (.int number)
 places : ∀ m ∈ l.ids, ∀ n ∈ l.ids, c.placeOf v number m = c.placeOf v number n → m = n
 edges : ∀ m ∈ l.ids, ∀ n ∈ l.ids, l.hasEdge m n =
  (decide (c.placeOf v number m ≤ c.placeOf v number n) &&
   (c.graph.hasEdge m n || c.graph.hasEdge n m))

lemma Cut.hasEdge_facing (h : Cut v c notes s) {i j : Nat} (hi : .num i ∈ s.order)
 (hj : .num j ∈ s.order) :
 (s.graph.facing true idNumber).hasEdge (.num (placeIn s.order (.num i)))
  (.num (placeIn s.order (.num j))) =
  (decide (placeIn s.order (.num i) ≤ placeIn s.order (.num j)) && (total c notes).hasEdge (.num i)
   (.num j)) := by
 have hlis := h.crops.listable
 rw [Graph.facing,Graph.hasEdge_oriented hlis.sound hlis.undirected hlis.idNumber_inj,
  h.crops.hasEdge _ hi _ hj]
 rfl

lemma Cut.directs (h : Cut v c notes s) (htal : Tallied c notes)
 (hl : l.Restores (s.graph.facing true idNumber) (imported s.names) (.num s.anchor)) :
  Directs v c s.number l := by
 refine ⟨hl.sound,hl.multi,hl.directed,fun n => h.number_loaded htal hl.ids,fun m hm n hn heq => ?_,
  fun m hm n hn => ?_⟩
 · obtain ⟨i,hi,rfl⟩ := (h.mem_loaded hl.ids).1 hm
   obtain ⟨j,hj,rfl⟩ := (h.mem_loaded hl.ids).1 hn
   rw [h.placeOf_eq htal,h.placeOf_eq htal] at heq
   obtain rfl := Int.ofNat.inj (NodeId.num.inj (Corpus.placeIn_inj hi heq))
   rfl
 · obtain ⟨i,hi,rfl⟩ := (h.mem_loaded hl.ids).1 hm
   obtain ⟨j,hj,rfl⟩ := (h.mem_loaded hl.ids).1 hn
   have hpla : ∀ {k : Nat}, .num k ∈ s.order → .num (placeIn s.order (.num k)) ∈
    (s.graph.facing true idNumber).ids :=
    fun hk => (h.crops.ids _).2 ⟨_,hk,rfl⟩
   rw [h.placeOf_eq htal,h.placeOf_eq htal,← h.imported_eq hi,← h.imported_eq hj,
    hl.hasEdge _ (hpla hi) _ (hpla hj),
    h.hasEdge_facing hi hj,hasEdge_total htal,h.imported_eq hi,h.imported_eq hj]

lemma Directs.hasEdge_eq_iff (h : Directs v c number l) {m n : NodeId} (hm : m ∈ l.ids)
 (hn : n ∈ l.ids) :
 (l.hasEdge m n = c.graph.hasEdge m n ∧ l.hasEdge n m = c.graph.hasEdge n m) ↔
  ((c.graph.hasEdge m n → c.placeOf v number m ≤ c.placeOf v number n) ∧
   (c.graph.hasEdge n m → c.placeOf v number n ≤ c.placeOf v number m)) := by
 rw [h.edges m hm n hn,h.edges n hn m hm]
 by_cases hle : c.placeOf v number m ≤ c.placeOf v number n <;> by_cases hge :
  c.placeOf v number n ≤ c.placeOf v number m
 · obtain rfl := h.places m hm n hn (le_antisymm hle hge)
   simp
 · cases c.graph.hasEdge m n <;> cases c.graph.hasEdge n m <;> simp [hle,hge]
 · cases c.graph.hasEdge m n <;> cases c.graph.hasEdge n m <;> simp [hle,hge]
 · omega

theorem prepare_turns_edges (v : View) (calls : List Call)
 (hedge : ∃ u v, (collected calls).graph.hasEdge u v = true)
 (hanc : Anchored (collected calls)) (hfur : Furnished σ name raw dir r d)
 (hdirected : ∃ v, σ.settings.get "directed" = .ok v ∧ v.truthy = true)
 (hque : ∀ test k, (queries test k).Valid)
 (split : Bool) (hzero : split = true ∨ ∀ n, (collected calls).graph.nodeAttr? n "graph_idx" ≠
  some (.int 0)) :
 ∃ σ', Ends (prepare v (collected calls) split queries) σ (.ok ()) σ' ∧
  (∀ number, (∃ n, (collected calls).graph.nodeAttr? n "graph_idx" = some (.int number)) →
   ∃ place l, Yields σ' place l ∧ Directs v (collected calls) number l) ∧
  (∀ place l, Yields σ' place l → ∃ number, Directs v (collected calls) number l) ∧
  ((∀ place l, Yields σ' place l → ∀ m ∈ l.ids, ∀ n ∈ l.ids,
   l.hasEdge m n = (collected calls).graph.hasEdge m n) ↔
   ∀ m n number, (collected calls).graph.nodeAttr? m "graph_idx" = some (.int number) →
    (collected calls).graph.nodeAttr? n "graph_idx" = some (.int number) →
     (collected calls).graph.hasEdge m n = true →
    (collected calls).placeOf v number m ≤ (collected calls).placeOf v number n) := by
 obtain ⟨notes,htal⟩ := collected_tallied calls
 obtain ⟨σ',xs,hends,hset,hkeep,_,hdist,hkey⟩ := hfur.ends_prepare v htal
  (htal.edges_ne_nil hedge) (hanc.of_note htal) hque split
 have hload := hfur.loadable hdirected hkeep hset
 have hmin := hdist.key_ne htal hkey hzero
 have heach : ∀ number, (∃ n, (collected calls).graph.nodeAttr? n "graph_idx" = some (.int number)) →
  ∃ place l, Yields σ' place l ∧ Directs v (collected calls) number l := by
  intro number hnumb
  obtain ⟨test,x,hx,rfl⟩ := hdist.exists_source htal hnumb
  obtain ⟨l,hyie,hres⟩ := hload.yields_stored (hdist.stocked test) hx (hdist.cut test x hx)
   (hmin test x hx)
  exact ⟨_,l,hyie,(hdist.cut test x hx).directs htal hres⟩
 have honly : ∀ place l, Yields σ' place l → ∃ number, Directs v (collected calls) number l := by
  intro place l hyie
  obtain ⟨x,hx,_,hres⟩ := hdist.of_yields hload hyie
  exact ⟨_,(hdist.cut place.1 x hx).directs htal hres⟩
 refine ⟨σ',hends,heach,honly,?_,?_⟩
 · intro hkept m n number hm hn hmn
   obtain ⟨place,l,hyie,hdir⟩ := heach number ⟨_,hm⟩
   have hm := (hdir.ids _).2 hm
   have hn := (hdir.ids _).2 hn
   exact ((hdir.hasEdge_eq_iff hm hn).1 ⟨hkept place l hyie _ hm _ hn,
    hkept place l hyie _ hn _ hm⟩).1 hmn
 · intro hfor place l hyie m hm n hn
   obtain ⟨number,hdir⟩ := honly place l hyie
   have hnum := fun {n} (hn : n ∈ l.ids) => (hdir.ids n).1 hn
   exact ((hdir.hasEdge_eq_iff hm hn).2 ⟨hfor m n number (hnum hm) (hnum hn),
    hfor n m number (hnum hn) (hnum hm)⟩).1

def directedDepot : Session := { depot with settings := depot.settings.set "directed" (.bool true) }

lemma directedDepot_furnished : Furnished directedDepot "CPG" "data/raw_datasets/" "data/datasets/"
 ["glema","data","raw_datasets"] ["glema","data","datasets"] where
 dataset := rfl
 rawDir := rfl
 dataDir := rfl
 named := depot_ready.named
 dirNamed := depot_ready.dirNamed
 room := ⟨depot_ready.room.leads,depot_ready.room.found,depot_ready.room.free⟩
 leads := depot_ready.leads
 found := depot_ready.found
 fresh := depot_ready.fresh
 outside := depot_ready.outside

theorem shops_lose_edge : (collected shops).graph.hasEdge (.num 4) (.num 5) = true ∧
 (collected shops).graph.hasEdge (.num 5) (.num 4) = true ∧
 ∀ v : View, ∃ σ', Ends (prepare v (collected shops) true unasked) directedDepot (.ok ()) σ' ∧
  ∃ place l, Yields σ' place l ∧ .num 4 ∈ l.ids ∧ .num 5 ∈ l.ids ∧
   l.hasEdge (.num 5) (.num 4) = !l.hasEdge (.num 4) (.num 5) := by
 have hthere : (collected shops).graph.hasEdge (.num 4) (.num 5) = true := by decide
 have hback : (collected shops).graph.hasEdge (.num 5) (.num 4) = true := by decide
 refine ⟨hthere,hback,fun v => ?_⟩
 obtain ⟨σ',hends,heach,_,_⟩ :=
  prepare_turns_edges v shops legible_shops.edge anchored_shops directedDepot_furnished
  ⟨_,rfl,rfl⟩ valid_unasked true (.inl rfl)
 obtain ⟨place,l,hyie,hdir⟩ := heach 2 ⟨.num 4,by rfl⟩
 have hkno : .num 4 ∈ l.ids := (hdir.ids _).2 (by rfl)
 have hbank : .num 5 ∈ l.ids := (hdir.ids _).2 (by rfl)
 refine ⟨σ',hends,place,l,hyie,hkno,hbank,?_⟩
 have hne := mt (hdir.places _ hkno _ hbank) (by decide)
 rw [hdir.edges _ hbank _ hkno,hdir.edges _ hkno _ hbank,hthere,hback,Bool.or_self,Bool.and_true,
  Bool.and_true,← decide_not,
  decide_eq_decide]
 omega

open Corpus (imported rank)

def Collection.labelsIn (c : Collection) (number : Int) : List Int :=
 c.graph.nodes.values.filterMap fun a =>
  match a.get? "graph_idx", a.get? "label" with
  | some (.int i), some (.int k) => if i == number then some k else none
  | _, _ => none

variable {k : Int}

lemma Tallied.labelsIn_eq (h : Tallied c notes) (number : Int) :
 c.labelsIn number = labelsAt notes number := by
 have hval : c.graph.nodes.values = notes.map Note.attrs := by
  rw [Table.values,h.nodes,noted,map_map]
  conv_rhs => rw [← zipIdx_map_fst 0 notes,map_map]
  rfl
 rw [Collection.labelsIn,hval,filterMap_map,labelsAt,← filterMap_ite]
 rfl

lemma Tallied.mem_labelsIn (h : Tallied c notes) : k ∈ c.labelsIn number ↔ ∃ n,
 c.graph.nodeAttr? n "graph_idx" = some (.int number) ∧ c.graph.nodeAttr? n "label" =
  some (.int k) := by
 rw [h.labelsIn_eq,labelsAt,mem_map]
 constructor
 · rintro ⟨x,hx,rfl⟩
   obtain ⟨hx,hnum⟩ := mem_filter.1 hx
   obtain ⟨i,hi⟩ := mem_iff_getElem?.1 hx
   exact ⟨_,h.number_iff.2 ⟨i,x,hi,by simpa using hnum,rfl⟩,h.label_eq hi⟩
 · rintro ⟨n,hnum,hlab⟩
   obtain ⟨i,x,hi,hx,rfl⟩ := h.number_iff.1 hnum
   rw [h.label_eq hi] at hlab
   exact ⟨x,mem_filter.2 ⟨mem_of_getElem? hi,by simpa using hx⟩,by simpa using hlab⟩

lemma Tallied.label_pos (h : Tallied c notes) (hk : k ∈ c.labelsIn number) : 1 ≤ k := by
 rw [h.labelsIn_eq,labelsAt,mem_map] at hk
 obtain ⟨x,hx,rfl⟩ := hk
 exact (h.valid x (mem_of_mem_filter hx)).label.1

structure Ranked (c : Collection) (number : Int) (l : Graph) : Prop where
 ids : ∀ n, n ∈ l.ids ↔ c.graph.nodeAttr? n "graph_idx" = some (.int number)
 label : ∀ n ∈ l.ids, ∃ k, c.graph.nodeAttr? n "label" = some (.int k) ∧
  l.nodeAttr? n "label" = some (.int (rank (c.labelsIn number) k + 1))

lemma Cut.ranked (h : Cut v c notes s) (htal : Tallied c notes)
 (hl : l.Restores s.graph (imported s.names) (.num s.anchor)) :
 Ranked c s.number l where
 ids _ := h.number_loaded htal hl.ids
 label n hn := by
  obtain ⟨i,hi,rfl⟩ := (h.mem_loaded hl.ids).1 hn
  obtain ⟨x,hx,hnum⟩ := h.mem_order.1 hi
  rw [htal.labelsIn_eq]
  exact ⟨x.label,htal.label_eq hx,h.label_loaded htal hl hx hnum⟩

lemma Ranked.label_eq_iff (h : Ranked c number l) (htal : Tallied c notes) {n : NodeId}
 (hn : n ∈ l.ids)
 (hk : c.graph.nodeAttr? n "label" = some (.int k)) :
 l.nodeAttr? n "label" = c.graph.nodeAttr? n "label" ↔ ∀ j, 1 ≤ j → j < k →
  j ∈ c.labelsIn number := by
 obtain ⟨k',hk',hlab⟩ := h.label n hn
 obtain rfl : k = k' := by simpa using hk.symm.trans hk'
 have hmem : k ∈ c.labelsIn number := htal.mem_labelsIn.2 ⟨n,(h.ids n).1 hn,hk⟩
 rw [hlab,hk,Option.some.injEq,Value.int.injEq]
 exact Corpus.rank_eq_iff (fun j hj => htal.label_pos hj) (htal.label_pos hmem)

theorem prepare_ranks_labels (v : View) (calls : List Call)
 (hedge : ∃ u v, (collected calls).graph.hasEdge u v = true)
 (hanc : Anchored (collected calls)) (hread : Ready σ name raw dir r d)
 (hque : ∀ test k, (queries test k).Valid)
 (split : Bool) (hzero : split = true ∨ ∀ n, (collected calls).graph.nodeAttr? n "graph_idx" ≠
  some (.int 0)) :
 ∃ σ', Run.Ends (prepare v (collected calls) split queries) σ (.ok ()) σ' ∧
  (∀ number, (∃ n, (collected calls).graph.nodeAttr? n "graph_idx" = some (.int number)) →
   ∃ place l, Yields σ' place l ∧ Ranked (collected calls) number l) ∧
  (∀ place l, Yields σ' place l → ∃ number, Ranked (collected calls) number l) ∧
  ((∀ place l, Yields σ' place l → ∀ n ∈ l.ids, l.nodeAttr? n "label" =
   (collected calls).graph.nodeAttr? n "label") ↔
   ∀ number, ∀ k ∈ (collected calls).labelsIn number, ∀ j, 1 ≤ j → j < k →
    j ∈ (collected calls).labelsIn number) := by
 obtain ⟨notes,htal⟩ := collected_tallied calls
 obtain ⟨σ',xs,hends,hset,hkeep,_,hdist,hkey⟩ := ends_prepare hread htal
  (htal.edges_ne_nil hedge) v (hanc.of_note htal) hque split
 have hload := hread.loadable hkeep hset
 have hmin := hdist.key_ne htal hkey hzero
 have heach : ∀ number, (∃ n, (collected calls).graph.nodeAttr? n "graph_idx" = some (.int number)) →
  ∃ place l, Yields σ' place l ∧ Ranked (collected calls) number l := by
  intro number hnum
  obtain ⟨test,x,hx,rfl⟩ := hdist.exists_source htal hnum
  obtain ⟨l,hyie,hres⟩ := hload.yields_stored (hdist.stocked test) hx (hdist.cut test x hx)
   (hmin test x hx)
  exact ⟨_,l,hyie,(hdist.cut test x hx).ranked htal hres⟩
 have honly : ∀ place l, Yields σ' place l → ∃ number, Ranked (collected calls) number l := by
  intro place l hyie
  obtain ⟨x,hx,_,hres⟩ := hdist.of_yields hload hyie
  exact ⟨_,(hdist.cut place.1 x hx).ranked htal hres⟩
 refine ⟨σ',hends,heach,honly,?_,?_⟩
 · intro hkept number k hk
   obtain ⟨n,hnum,hlab⟩ := htal.mem_labelsIn.1 hk
   obtain ⟨place,l,hyie,hran⟩ := heach number ⟨n,hnum⟩
   have hn := (hran.ids n).2 hnum
   exact (hran.label_eq_iff htal hn hlab).1 (hkept place l hyie n hn)
 · intro hgap place l hyie n hn
   obtain ⟨number,hran⟩ := honly place l hyie
   obtain ⟨k,hk,_⟩ := hran.label n hn
   have hmem := htal.mem_labelsIn.2 ⟨n,(hran.ids n).1 hn,hk⟩
   exact (hran.label_eq_iff htal hn hk).2 (hgap number k hmem)

theorem shops_share_label :
 ∃ σ', Ends (prepare backwards (collected shops) true unasked) depot (.ok ()) σ' ∧
 (collected shops).graph.nodeAttr? (.num 2) "label" = some (.int 3) ∧
 (collected shops).graph.nodeAttr? (.num 4) "label" = some (.int 2) ∧
 (∃ place l, Yields σ' place l ∧ l.nodeAttr? (.num 2) "label" = some (.int 2)) ∧
 ∃ place l, Yields σ' place l ∧ l.nodeAttr? (.num 4) "label" = some (.int 2) := by
 obtain ⟨σ',hends,heach,_,_⟩ := prepare_ranks_labels backwards shops legible_shops.edge
  anchored_shops depot_ready valid_unasked true
  (.inl rfl)
 have hmake : (collected shops).graph.nodeAttr? (.num 2) "label" = some (.int 3) := by rfl
 have hkno : (collected shops).graph.nodeAttr? (.num 4) "label" = some (.int 2) := by rfl
 refine ⟨σ',hends,hmake,hkno,?_,?_⟩
 · obtain ⟨place,l,hyie,hran⟩ := heach 1 ⟨.num 2,by rfl⟩
   obtain ⟨k,hk,hlab⟩ := hran.label (.num 2) ((hran.ids _).2 (by rfl))
   obtain rfl : 3 = k := by simpa using hmake.symm.trans hk
   exact ⟨place,l,hyie,hlab⟩
 · obtain ⟨place,l,hyie,hran⟩ := heach 2 ⟨.num 4,by rfl⟩
   obtain ⟨k,hk,hlab⟩ := hran.label (.num 4) ((hran.ids _).2 (by rfl))
   obtain rfl : 2 = k := by simpa using hkno.symm.trans hk
   exact ⟨place,l,hyie,hlab⟩

end MotifMatch.Import
