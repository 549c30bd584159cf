import MotifMatch.Corpus.Load
import MotifMatch.Proofs.Relabeling
import MotifMatch.Proofs.Writing

namespace MotifMatch.Graph
variable {g h : Graph} {f f' : NodeId → NodeId} {anchor : NodeId}

structure MarkedCopies (h g : Graph) (f : NodeId → NodeId) (mark : NodeId → Prop) :
 Prop extends Copies h g f where
 one : ∀ n ∈ g.ids, mark n → h.nodeAttr? (f n) "anchor" = some (.int 1)
 zero : ∀ n ∈ g.ids, ¬mark n → h.nodeAttr? (f n) "anchor" = some (.int 0)

structure Restores (h g : Graph) (f : NodeId → NodeId) (anchor : NodeId) :
 Prop extends Copies h g f where
 anchor : ∀ n ∈ g.ids, h.nodeAttr? (f n) "anchor" = some (.int (if n = anchor then 1 else 0))

variable {mark : NodeId → Prop}

lemma MarkedCopies.renamed (hc : MarkedCopies h g f mark)
 (hinj : ∀ m ∈ h.ids, ∀ n ∈ h.ids, f' m = f' n → m = n) :
 MarkedCopies (h.renamed f') g (f' ∘ f) mark := by
 have hattr : ∀ n ∈ g.ids, (h.renamed f').nodeAttr? (f' (f n)) "anchor" =
  h.nodeAttr? (f n) "anchor" := by
  intro n hn
  rw [nodeAttr?,attrs?_renamed hc.sound hc.multi hinj ((hc.ids _).2 ⟨n,hn,rfl⟩),← nodeAttr?]
 exact ⟨hc.toCopies.renamed hinj,fun n hn h => (hattr n hn).trans (hc.one n hn h),
  fun n hn h => (hattr n hn).trans (hc.zero n hn h)⟩

lemma MarkedCopies.congr (hc : MarkedCopies h g f mark) (heq : ∀ n ∈ g.ids, f n = f' n) :
 MarkedCopies h g f' mark :=
 ⟨hc.toCopies.congr heq,fun n hn h => heq n hn ▸ hc.one n hn h,
  fun n hn h => heq n hn ▸ hc.zero n hn h⟩

lemma MarkedCopies.restores (hc : MarkedCopies h g f mark) (hm : ∀ n ∈ g.ids, mark n ↔ n = anchor) :
 Restores h g f anchor := by
 refine ⟨hc.toCopies,fun n hn => ?_⟩
 by_cases hn' : n = anchor
 · rw [if_pos hn',hc.one n hn ((hm n hn).2 hn')]
 · rw [if_neg hn',hc.zero n hn (mt (hm n hn).1 hn')]

def marked (anchor : NodeId) (g : Graph) : Graph :=
 { g with nodes := ⟨g.nodes.entries.map fun e =>
  (e.1,e.2.put "anchor" (.int (if e.1 = anchor then 1 else 0)))⟩ }

lemma marked_eq_putEach (anchor : NodeId) (g : Graph) :
 g.marked anchor = g.putEach "anchor" fun n => .int (if n = anchor then 1 else 0) := rfl

lemma ids_marked : (g.marked anchor).ids = g.ids := by rw [marked_eq_putEach,ids_putEach]

lemma attrs?_marked (hg : g.Sound) {n : NodeId} {a : Attrs} (h : g.attrs? n = some a) :
 (g.marked anchor).attrs? n = some (a.put "anchor" (.int (if n = anchor then 1 else 0))) := by
 rw [marked_eq_putEach,attrs?_putEach hg h]

lemma Sound.marked (hg : g.Sound) (anchor : NodeId) : (g.marked anchor).Sound := by
 rw [marked_eq_putEach]
 exact hg.putEach _ _

lemma Copies.marked (hc : Copies h g f) (m : NodeId) :
 MarkedCopies (h.marked m) g f fun n => f n = m := by
 have hatt : ∀ n ∈ g.ids, ∃ a, h.attrs? (f n) = some a := fun n hn =>
  exists_attrs ((hc.ids _).2 ⟨n,hn,rfl⟩)
 have hanc : ∀ n ∈ g.ids, (h.marked m).nodeAttr? (f n) "anchor" =
  some (.int (if f n = m then 1 else 0)) := by
  intro n hn
  obtain ⟨a,ha⟩ := hatt n hn
  rw [nodeAttr?,attrs?_marked hc.sound ha,Option.bind_some,Table.get?_put_self]
 refine ⟨⟨hc.sound.marked m,hc.multi,hc.directed,hc.inj,?_,?_,hc.hasEdge,hc.edgeLabel⟩,?_,?_⟩
 · intro n
   rw [ids_marked]
   exact hc.ids n
 · intro n hn
   obtain ⟨a,ha⟩ := hatt n hn
   rw [← hc.label n hn,nodeAttr?,nodeAttr?,attrs?_marked hc.sound ha,ha,Option.bind_some,
    Option.bind_some,
    Table.get?_put_of_ne _ _ (by decide)]
 · intro n hn hmark
   rw [hanc n hn,if_pos hmark]
 · intro n hn hmark
   rw [hanc n hn,if_neg hmark]

end MotifMatch.Graph

namespace MotifMatch.Corpus
open List Run MotifMatch.Path Value Names Int
open Listing (rowText headRow pairRow edgeRow)
open MotifMatch.Graph (through idNumber)
open Listing (firstColumn rows number mappings tidy_headRow graphs)
open Table (ofList entries_ofList nodup_ofList)
variable {g : Graph}

lemma markNodes_eq {es : List (NodeId × Attrs)} (h : ∀ e ∈ es, ∃ i, e.1 = .num i) (a : Int) :
 markNodes (.int a) es =
  (es.map fun e => (e.1,e.2.put "anchor" (.int (if e.1 = .num a then 1 else 0))),.ok ()) := by
 induction es with
 | nil => rfl
 | cons e es ih =>
  obtain ⟨n,attrs⟩ := e
  obtain ⟨i,rfl⟩ : ∃ i, n = .num i := h (n,attrs) (by simp)
  rw [markNodes]
  simp only [ih fun x hx => h x (by simp [hx]),same_int,map_cons,beq_iff_eq,NodeId.num.injEq]

lemma markRows_of_ne {rows : List (List String)} (h : ∀ r ∈ rows, firstColumn r ≠ "p") (g : Graph) :
 markRows none rows g = (g,.ok ()) := by
 induction rows with
 | nil => rfl
 | cons r rows ih =>
  have hr : (firstColumn r == "p") = false := by simpa using h r (by simp)
  rw [markRows]
  simp only [markRows.firstColumn,hr,Bool.false_eq_true,if_false,ih fun x hx => h x (by simp [hx])]

lemma markedBy_eq {text : String} {k a : Int} {c : Listing.Contents}
 (htext : rows text = headRow k :: ["p","#",toString a] :: c.rows)
 (hg : ∀ n ∈ g.ids, ∃ i, n = .num i) :
 markedBy text none g = (g.marked (.num a),.ok ()) := by
 have hres : ∀ r ∈ c.rows.take 1, firstColumn r ≠ "p" := by
  intro r hr
  rcases mem_append.1 (mem_of_mem_take hr) with hr | hr
  · obtain ⟨x,_,rfl⟩ := mem_map.1 hr
    simp [pairRow,firstColumn]
  · obtain ⟨x,_,rfl⟩ := mem_map.1 hr
    simp [edgeRow,firstColumn]
 have hnod : markNodes (.int a) g.nodes.entries = _ :=
  markNodes_eq (fun e he => hg e.1 (mem_map_of_mem he)) a
 have hnum : number (Listing.lastColumn ["p","#",toString a]) = .ok a := Listing.number_toString a
 have htake : (headRow k :: ["p","#",toString a] :: c.rows).take 3 = headRow k ::
  ["p","#",toString a] :: c.rows.take 1 := rfl
 rw [markedBy,htext,htake,markRows,markRows]
 simp only [markRows.firstColumn,firstColumn,headRow,head?_cons,Option.getD_some,hnum,bind,
  Except.bind]
 simp only [hnod,pure,Except.pure]
 exact markRows_of_ne hres _

section
variable {σ₀ σ : Session} {d : List String} {es : List (String × MotifMatch.Entry)} {i a : Int}
 {name : String}
 {rs : List (List String)}

def Located (σ : Session) (d : List String) : Prop :=
 ∃ test dataset dir, σ.settings.get "test_data" = .ok test ∧ σ.settings.get "dataset" = .ok dataset ∧
  σ.settings.get "dataset_dir" = .ok dir ∧
  σ.files.resolve (ofProject (dir.text ++ "/" ++
   (dataset.text ++ "_" ++ if test.truthy then "test" else "train"))) = .ok d

structure Configured (σ : Session) (d : List String) : Prop where
 undirected : ∃ v, σ.settings.get "directed" = .ok v ∧ v.truthy = false
 located : Located σ d

def Opens (σ : Session) (path : String) (rs : List (List String)) : Prop :=
 ∃ text, Ends (readText path) σ (.ok text) σ ∧ rows text = rs

lemma opens_child {path : String} (hfol : σ.files.find d = .ok (.folder es))
 (hpath : σ.files.resolve path = .ok (d ++ [name])) (hnam : Path.namesFolder path = false)
 (hrows : ∀ r ∈ rs, Listing.Tidy r)
 (hfile : (Entry.folder es).child? name = some (.text (Text.ended (rs.map rowText)))) :
  Opens σ path rs := by
 have hfind : σ.files.find (d ++ [name]) = .ok (.text (Text.ended (rs.map rowText))) := by
  rw [Entry.find_concat hfol,hfile]
 exact ⟨_,ends_readText (Entry.lookup_of_find hpath hfind hnam),Listing.rows_ended hrows⟩

def Reads (σ : Session) (i : Int) (name : String) (rs : List (List String)) : Prop :=
 ∃ path, Ends (sourceFile (.int i) name) σ (.ok path) σ ∧ Opens σ path rs

lemma Configured.keeps (hσ : Configured σ₀ d) (hkee : σ₀.files.Keeps σ.files)
 (hset : σ.settings = σ₀.settings) :
 Configured σ d := by
 obtain ⟨test,dataset,dir,htest,hdat,hdir,hlea⟩ := hσ.located
 exact ⟨hset ▸ hσ.undirected,test,dataset,dir,hset ▸ htest,hset ▸ hdat,hset ▸ hdir,
  hkee.resolve hlea⟩

lemma Located.ends_sourceFile (hσ : Located σ d) (i : Int) (hname : FileName name) :
 ∃ path, Ends (sourceFile (.int i) name) σ (.ok path) σ ∧
  σ.files.resolve path = .ok (d ++ [toString i] ++ [name]) ∧
  namesFolder path = false := by
 obtain ⟨test,dataset,dir,htest,hdat,hdir,hlea⟩ := hσ
 have hi := fileName_int i
 have hcur :
  Ends current σ (.ok (dataset.text ++ "_" ++ if test.truthy then "test" else "train")) σ :=
  (ends_flag htest).bind ((ends_shownSetting hdat).bind (ends_pure _ σ))
 have hne : ∀ s t : String, s ++ "/" ++ t ≠ "" := by
  intro s t hemp
  have hlist := congrArg String.toList hemp
  simp at hlist
 have hres := Entry.resolve_ofProject (hne _ _) (Entry.resolve_ofProject (hne _ _) hlea hi) hname
 obtain ⟨ps,hps,_⟩ := Entry.resolve_eq_ok.1 (Entry.resolve_ofProject (hne _ _) hlea hi)
 have hnam := namesFolder_ofProject hname (hne _ _) hps
 refine ⟨_,hcur.bind ((ends_shownSetting hdir).bind (ends_pure _ σ)),?_,?_⟩
 · rw [text_int]
   exact hres
 · rw [text_int]
   exact hnam

lemma Located.reads (hσ : Located σ d) (hfol : σ.files.find (d ++ [toString i]) = .ok (.folder es))
 (hname : Path.FileName name) (hrows : ∀ r ∈ rs, Listing.Tidy r)
 (hfile : (MotifMatch.Entry.folder es).child? name = some (.text (Text.ended (rs.map rowText)))) :
  Reads σ i name rs := by
 obtain ⟨path,hpath,hres,hnam⟩ := hσ.ends_sourceFile i hname
 exact ⟨path,hpath,opens_child hfol hres hnam hrows hfile⟩

lemma Reads.bind {α : Type} (h : Reads σ i name rs) {f : String → Run α} {r : Except Error α}
 {σ' : Session}
 (hf : ∀ text, rows text = rs → Ends (f text) σ r σ') :
 Ends (sourceFile (.int i) name >>= fun path => readText path >>= f) σ r σ' := by
 obtain ⟨path,hpath,text,htext,hrows⟩ := h
 exact hpath.bind (htext.bind (hf text hrows))

lemma ends_markAnchor {c : Listing.Contents}
 (hread : Reads σ i "source.lg" (headRow i :: ["p","#",toString a] :: c.rows))
 {g : Graph} (hg : ∀ n ∈ g.ids, ∃ j, n = .num j) :
  Run.Ends (markAnchor g (.int i)) σ (.ok (g.marked (.num a))) σ := by
 refine hread.bind fun text htext => ?_
 rw [markedBy_eq htext hg]
 exact ends_pure _ σ

end

section
variable {σ : Session} {i a : Int} {names : List (Int × Int)}

def importTable (names : List (Int × Int)) : Names := ofList (names.map fun x => (x.2,x.1 + 1))

def imported (names : List (Int × Int)) : NodeId → NodeId := through (importTable names)

structure Naming (names : List (Int × Int)) (g : Graph) : Prop where
 old : (names.map Prod.fst).Nodup
 new : (names.map Prod.snd).Nodup
 covers : ∀ n ∈ g.ids, ∃ x ∈ names, n = .num x.2

lemma entries_importTable (hnew : (names.map Prod.snd).Nodup) :
 (importTable names).entries = names.map fun x => (x.2,x.1 + 1) :=
 entries_ofList (by rwa [map_map])

lemma Naming.get? (hn : Naming names g) {x : Int × Int} (hx : x ∈ names) :
 (importTable names).get? x.2 = some (x.1 + 1) := by
 have hmem : (x.2,x.1 + 1) ∈ (importTable names).entries := by
  rw [entries_importTable hn.new]
  exact mem_map_of_mem hx
 exact Table.get?_of_mem (nodup_ofList _) hmem

lemma Naming.imported_eq (hn : Naming names g) {x : Int × Int} (hx : x ∈ names) :
 imported names (.num x.2) = .num (x.1 + 1) := by
 rw [imported,through,hn.get? hx]
 rfl

lemma numbered_ofList {α : Type} (i : Int) (x : α) : numbered (ofList [(i,x)]) (.int i) = .ok x := by
 rw [numbered]
 simp [number?,ofList,Table.putAll,Table.get?_put_self]

lemma ends_sourceNames (hn : Naming names g) (hi : i ≠ -1)
 (hread : Reads σ i "source_mapping.lg" (headRow i :: (names.map Prod.swap).map pairRow)) :
 Ends (sourceNames (.int i) true) σ (.ok (importTable names)) σ := by
 refine hread.bind fun text htext => ?_
 have hall : mappings false text = .ok (ofList [(i,ofList names)]) := by
  rw [mappings,htext,Listing.mapRows_single hi,map_map]
  simp
 refine (ends_ofExcept_ok hall).bind ((ends_ofExcept_ok (numbered_ofList i _)).bind ?_)
 have hshi : (ofList ((ofList names).entries.map fun e => (e.1 + 1,e.2))).entries =
  names.map fun e => (e.1 + 1,e.2) := by
  rw [entries_ofList hn.old,entries_ofList]
  rw [map_map]
  have := hn.old.map (f := (· + 1)) fun _ _ h => by simpa using h
  rwa [map_map] at this
 have hfli : flipped (ofList ((ofList names).entries.map fun e => (e.1 + 1,e.2))) =
  importTable names := by
  rw [flipped,hshi,importTable,map_map]
  rfl
 rw [← hfli]
 exact ends_pure _ σ

end

section
variable {foreign : Bool} {names : List (Int × Int)} {s h : Graph} {order : List NodeId}
 {q : Graph × List NodeId}

lemma importTable_inj (hold : (names.map Prod.fst).Nodup) (hnew : (names.map Prod.snd).Nodup)
 {i j k : Int}
 (hi : (importTable names).get? i = some k) (hj : (importTable names).get? j = some k) : i = j := by
 have hmem : ∀ {i}, (importTable names).get? i = some k → ∃ x ∈ names, x.2 = i ∧ x.1 + 1 = k := by
  intro i hi
  have hent := Table.mem_of_get? hi
  rw [entries_importTable hnew] at hent
  obtain ⟨x,hx,hxe⟩ := mem_map.1 hent
  exact ⟨x,hx,(Prod.mk.inj hxe).1,(Prod.mk.inj hxe).2⟩
 obtain ⟨x,hx,rfl,hxk⟩ := hmem hi
 obtain ⟨y,hy,rfl,hyk⟩ := hmem hj
 rw [inj_on_of_nodup_map hold hx hy (by omega)]

lemma Naming.relabeled (hn : Naming names g) {f : NodeId → NodeId} (hc : h.Copies s f)
 (hnum : ∀ n ∈ h.ids, ∃ i, n = .num i)
 (a : NodeId) : ∃ l, (h.marked a).relabeled (importTable names).toValues = .ok l ∧
  l.MarkedCopies s (h.relabeling (importTable names) ∘ f) fun n => f n = a := by
 have hmar := hc.marked a
 have hids : (h.marked a).ids = h.ids := Graph.ids_marked
 have hsame : (h.marked a).relabeling (importTable names) = h.relabeling (importTable names) := by
  funext n
  simp only [Graph.relabeling,Graph.topNumber,Graph.usedNumbers,Graph.unknown,hids]
 refine ⟨_,Graph.relabeled_eq hmar.sound (nodup_ofList _) (hids ▸ hnum),?_⟩
 rw [← hsame]
 refine hmar.renamed (Graph.relabeling_inj fun u hu v hv j hju hjv => ?_)
 obtain ⟨i,rfl⟩ := hnum u (hids ▸ hu)
 obtain ⟨k,rfl⟩ := hnum v (hids ▸ hv)
 exact congrArg NodeId.num (importTable_inj hn.old hn.new hju hjv)

lemma Naming.restores (hn : Naming names g) (hc : h.Copies s id) (hsub : ∀ n ∈ s.ids, n ∈ g.ids)
 (a : NodeId) :
 ∃ l, (h.marked a).relabeled (importTable names).toValues = .ok l ∧
  l.Restores s (imported names) a := by
 have hids : ∀ n ∈ h.ids, n ∈ g.ids := by
  intro n hmem
  obtain ⟨m,hm,rfl⟩ := (hc.ids n).1 hmem
  exact hsub m hm
 have hnum : ∀ n ∈ h.ids, ∃ i, n = .num i := by
  intro n hmem
  obtain ⟨x,_,rfl⟩ := hn.covers n (hids n hmem)
  exact ⟨x.2,rfl⟩
 obtain ⟨l,hl,hcop⟩ := hn.relabeled hc hnum a
 refine ⟨l,hl,(hcop.congr fun n hmem => ?_).restores fun n _ => Iff.rfl⟩
 obtain ⟨x,hx,rfl⟩ := hn.covers n (hsub n hmem)
 rw [hn.imported_eq hx]
 exact Graph.relabeling_of_get? (hn.get? hx)

lemma Listable.idNumber_inj (hg : Listable g) :
 ∀ m ∈ g.ids, ∀ n ∈ g.ids, idNumber m = idNumber n → m = n := by
 intro m hm n hn heq
 rw [hg.numbered.id_eq hm,hg.numbered.id_eq hn,heq]

lemma Listable.copies_source (hg : Listable g) :
 ((g.contents idNumber g.ids).graph false).Copies g id := by
 have hcop := hg.numbered.copies hg.sound hg.single hg.idNumber_inj hg.sound.ids fun _ => Iff.rfl
 rw [hg.undirected] at hcop
 exact hcop.congr fun n hn => (hg.numbered.id_eq hn).symm

lemma Listable.copies_facing (hg : Listable g) {directed : Bool}
 (hup : directed = true → g.ids.Pairwise fun m n => idNumber m < idNumber n) :
 ((g.contents idNumber g.ids).graph directed).Copies (g.facing directed idNumber) id := by
 cases directed with
 | false => exact hg.copies_source
 | true =>
  have hcop := hg.numbered.copies_oriented hg.sound hg.single hg.undirected hg.idNumber_inj
   hg.sound.ids fun _ => Iff.rfl
  rw [Graph.upwards_contents fun e he => Graph.le_of_listed hg.sound hg.single hg.undirected
   (hup rfl) he] at hcop
  exact hcop.congr fun n hn => (hg.numbered.id_eq hn).symm

lemma placeIn_inj {m n : NodeId} (hm : m ∈ order) (heq : placeIn order m = placeIn order n) :
 m = n :=
 (idxOf_inj hm).1 (ofNat.inj heq)

def placeTable (foreign : Bool) (q : Graph × List NodeId) : Names := ofList (queryPairs foreign q)

lemma entries_placeTable (hnod : q.2.Nodup) :
 (placeTable foreign q).entries = queryPairs foreign q := by
 refine entries_ofList ?_
 rw [queryPairs,map_map]
 exact (nodup_map_iff_inj_on (hnod.filter _)).2 fun m hm n _ => placeIn_inj (mem_of_mem_filter hm)

lemma get?_placeTable (foreign : Bool) (hnod : q.2.Nodup) {n : NodeId} (hn : n ∈ q.2) :
 (placeTable foreign q).get? (placeIn q.2 n) =
 if paired foreign q.1 n then some (idNumber n) else none := by
 have hkey : (placeTable foreign q).keys.Nodup := nodup_ofList _
 split
 · next hpai =>
   refine Table.get?_of_mem hkey ?_
   rw [entries_placeTable hnod]
   exact mem_map.2 ⟨n,mem_filter.2 ⟨hn,hpai⟩,rfl⟩
 · next hnot =>
   rw [Table.get?_eq_none_iff,Table.keys,entries_placeTable hnod]
   intro hmem
   obtain ⟨x,hx,hpla⟩ := mem_map.1 hmem
   obtain ⟨m,hm,rfl⟩ := mem_map.1 hx
   obtain ⟨hm,hpai⟩ := mem_filter.1 hm
   exact hnot (placeIn_inj hm hpla ▸ hpai)

lemma Listable.flipped_eq (hs : Listable q.1) (hper : q.2.Perm q.1.ids) :
 flipped (ofList ((queryPairs foreign q).map Prod.swap)) = placeTable foreign q := by
 have hkey : (((queryPairs foreign q).map Prod.swap).map Prod.fst).Nodup := by
  rw [queryPairs,map_map,map_map]
  have hnod : q.2.Nodup := hper.nodup_iff.2 hs.sound.ids
  refine (nodup_map_iff_inj_on (hnod.filter _)).2 fun m hm n hn heq => ?_
  exact hs.idNumber_inj m (hper.mem_iff.1 (mem_of_mem_filter hm)) n
   (hper.mem_iff.1 (mem_of_mem_filter hn)) heq
 rw [flipped,entries_ofList hkey,placeTable,map_map]
 simp [Function.comp_def]

def placed (q : Graph × List NodeId) : Graph := (q.1.contents (placeIn q.2) q.2).graph false

lemma Listable.copies_placed (hs : Listable q.1) (hper : q.2.Perm q.1.ids) :
 (placed q).Copies q.1 fun n => .num (placeIn q.2 n) := by
 have hnod : q.2.Nodup := hper.nodup_iff.2 hs.sound.ids
 have hmem : ∀ n, n ∈ q.2 ↔ n ∈ q.1.ids := fun n => hper.mem_iff
 have hread := hs.numbered.copies hs.sound hs.single
  (fun m hm n _ => placeIn_inj ((hmem m).2 hm)) hnod hmem
 rwa [hs.undirected] at hread

def unplacing (foreign : Bool) (q : Graph × List NodeId) (n : NodeId) : NodeId :=
 (placed q).relabeling (placeTable foreign q) (.num (placeIn q.2 n))

lemma unplacing_eq (foreign : Bool) (q : Graph × List NodeId) (n : NodeId) :
 unplacing foreign q n = .num (idNumber (unplacing foreign q n)) := rfl

variable (hs : Listable q.1) (hper : q.2.Perm q.1.ids)
include hs hper

lemma Listable.unplacing_of_paired {n : NodeId} (hn : n ∈ q.1.ids)
 (hpai : paired foreign q.1 n = true) : unplacing foreign q n = n := by
 have hget := get?_placeTable foreign (hper.nodup_iff.2 hs.sound.ids) (hper.mem_iff.2 hn)
 rw [if_pos hpai] at hget
 rw [unplacing,Graph.relabeling_of_get? hget,← hs.numbered.id_eq hn]

lemma Listable.copies_query (foreign : Bool) :
 ∃ h, (placed q).relabeled (placeTable foreign q).toValues = .ok h ∧
  h.Copies q.1 (unplacing foreign q) := by
 have hnod : q.2.Nodup := hper.nodup_iff.2 hs.sound.ids
 have hread := hs.copies_placed hper
 have hnum : ∀ n ∈ (placed q).ids, ∃ i, n = .num i := by
  intro n hn
  obtain ⟨m,_,rfl⟩ := (hread.ids n).1 hn
  exact ⟨_,rfl⟩
 refine ⟨_,Graph.relabeled_eq hread.sound (nodup_ofList _) hnum,?_⟩
 refine hread.renamed (Graph.relabeling_inj fun u hu v hv j hju hjv => ?_)
 obtain ⟨m,hm,rfl⟩ := (hread.ids u).1 hu
 obtain ⟨n,hn,rfl⟩ := (hread.ids v).1 hv
 rw [idNumber,get?_placeTable foreign hnod (hper.mem_iff.2 hm),Option.ite_none_right_eq_some] at hju
 rw [idNumber,get?_placeTable foreign hnod (hper.mem_iff.2 hn),Option.ite_none_right_eq_some] at hjv
 rw [hs.idNumber_inj m hm n hn (Option.some.inj (hju.2.trans hjv.2.symm))]

lemma Listable.unplacing_part : ∀ n ∈ q.1.ids, unplacing false q n = id n :=
 fun _ hn => hs.unplacing_of_paired hper hn rfl

end

variable {σ : Session} {i a : Int} {names : List (Int × Int)} {kind : String} {foreign : Bool}
 {qs : List (Graph × List NodeId)}

structure Readable (σ : Session) (i a : Int) (g : Graph) (names : List (Int × Int)) : Prop where
 undirected : ∃ v, σ.settings.get "directed" = .ok v ∧ v.truthy = false
 listing : Reads σ i "source.lg" (sourceRows i a g)
 mapping : Reads σ i "source_mapping.lg" (nameRows i names)

structure ReadableQueries (σ : Session) (i : Int) (kind : String) (foreign : Bool)
 (qs : List (Graph × List NodeId)) : Prop where
 listing : Reads σ i (kind ++ ".lg") (rowsFor false (shuffledRows foreign 0 qs))
 mapping : Reads σ i (kind ++ "_mapping.lg") (rowsFor true (shuffledRows foreign 0 qs))

variable {d : List String} {es : List (String × MotifMatch.Entry)}

lemma tidy_sourceRows (i a : Int) (g : Graph) : ∀ r ∈ sourceRows i a g, Listing.Tidy r := by
 intro r hr
 simp only [sourceRows,mem_cons] at hr
 rcases hr with rfl | rfl | hr
 · exact tidy_headRow i
 · refine ⟨by simp,fun s hs => ?_⟩
   simp only [mem_cons,not_mem_nil,or_false] at hs
   rcases hs with rfl | rfl | rfl
   · decide
   · decide
   · exact Text.plain_int a
 · exact Listing.Contents.tidy_rows _ r hr

lemma tidy_pairRows (xs : List (Int × Int)) : ∀ r ∈ xs.map Listing.pairRow, Listing.Tidy r := by
 intro r hr
 obtain ⟨x,_,rfl⟩ := mem_map.1 hr
 exact Listing.tidy_pairRow x

lemma tidy_nameRows (i : Int) (names : List (Int × Int)) :
 ∀ r ∈ nameRows i names, Listing.Tidy r := by
 intro r hr
 rcases mem_cons.1 hr with rfl | hr
 · exact tidy_headRow i
 · exact tidy_pairRows _ r hr

lemma tidy_shuffledRows (b foreign : Bool) (qs : List (Graph × List NodeId)) :
 ∀ r ∈ rowsFor b (shuffledRows foreign 0 qs), Listing.Tidy r := by
 cases b with
 | false =>
  rw [rowsFor_shuffledRows_false]
  exact Listing.tidy_numberedRows Listing.Contents.tidy_rows 0 _
 | true =>
  rw [rowsFor_shuffledRows_true]
  exact Listing.tidy_numberedRows tidy_pairRows 0 _

lemma Written.readable (h : Written es i a g names) (hσ : Configured σ d)
 (hfol : σ.files.find (d ++ [toString i]) = .ok (.folder es)) : Readable σ i a g names where
 undirected := hσ.undirected
 listing := hσ.located.reads hfol fileName_source (tidy_sourceRows i a g) h.source
 mapping := hσ.located.reads hfol fileName_names (tidy_nameRows i names) h.names

lemma Filed.readable (h : Filed es kind foreign qs) (hkind : QueryFiles kind) (hσ : Configured σ d)
 (hfol : σ.files.find (d ++ [toString i]) = .ok (.folder es)) :
  ReadableQueries σ i kind foreign qs where
 listing := hσ.located.reads hfol hkind.listing (tidy_shuffledRows false foreign qs) h.listing
 mapping := hσ.located.reads hfol hkind.mapping (tidy_shuffledRows true foreign qs) h.mapping

lemma ends_source_of_copies {v : Value} (hdir : σ.settings.get "directed" = .ok v)
 (hlis : Reads σ i "source.lg" (sourceRows i a g))
 (hmap : Reads σ i "source_mapping.lg" (nameRows i names))
 (hn : Naming names g) (hi : i ≠ -1) {o : Graph}
 (hcop : ((g.contents idNumber g.ids).graph v.truthy).Copies o id)
 (hsub : ∀ n ∈ o.ids, n ∈ g.ids) :
 ∃ l, Ends (source (.int i) true) σ (.ok l) σ ∧ l.Restores o (imported names) (.num a) := by
 obtain ⟨l,hl,hres⟩ := hn.restores hcop hsub (.num a)
 refine ⟨l,hlis.bind fun text htext => ?_,hres⟩
 have hall : graphs v.truthy text =
  .ok (ofList [(i,(g.contents idNumber g.ids).graph v.truthy)]) := by
  rw [graphs,htext,sourceRows,Listing.readRows_single hi]
 have hnum : ∀ n ∈ ((g.contents idNumber g.ids).graph v.truthy).ids, ∃ j, n = .num j := by
  intro n hmem
  obtain ⟨m,hm,rfl⟩ := (hcop.ids n).1 hmem
  obtain ⟨x,_,hx⟩ := hn.covers m (hsub m hm)
  exact ⟨x.2,hx⟩
 exact (ends_flag hdir).bind ((ends_ofExcept_ok hall).bind
  ((ends_ofExcept_ok (numbered_ofList i _)).bind
  ((ends_markAnchor hlis hnum).bind ((ends_sourceNames hn hi hmap).bind (ends_ofExcept_ok hl)))))

lemma Readable.ends_source (h : Readable σ i a g names) (hg : Listable g) (hn : Naming names g)
 (hi : i ≠ -1) :
 ∃ l, Ends (source (.int i) true) σ (.ok l) σ ∧ l.Restores g (imported names) (.num a) := by
 obtain ⟨v,hdir,hv⟩ := h.undirected
 exact ends_source_of_copies hdir h.listing h.mapping hn hi (hv ▸ hg.copies_source)
  fun _ hmem => hmem

lemma ends_foldlM {x : Int × Graph → Run Graph} {P : Int × Graph → Graph → Prop}
 {es : List (Int × Graph)}
 (h : ∀ e ∈ es, ∃ l, Ends (x e) σ (.ok l) σ ∧ P e l) (t : Table Int Graph) :
 ∃ out, out.map Prod.fst = es.map Prod.fst ∧
  Ends (es.foldlM (fun t e => do return t.put e.1 (← x e)) t) σ (.ok (t.putAll out)) σ ∧
  ∀ e ∈ es, ∃ l, (e.1,l) ∈ out ∧ P e l := by
 induction es generalizing t with
 | nil => exact ⟨[],rfl,ends_pure t σ,by simp⟩
 | cons e es ih =>
  obtain ⟨l,hl,hP⟩ := h e (by simp)
  obtain ⟨out,hout,hends,hall⟩ := ih (fun x hx => h x (by simp [hx])) (t.put e.1 l)
  refine ⟨(e.1,l) :: out,by simp [hout],?_,?_⟩
  · rw [foldlM_cons]
    have hfir : Ends (do return t.put e.1 (← x e)) σ (.ok (t.put e.1 l)) σ := hl.bind (ends_pure _ σ)
    exact hfir.bind hends
  · intro x hx
    rcases mem_cons.1 hx with rfl | hx
    · exact ⟨l,by simp,hP⟩
    · obtain ⟨l',hl',hP'⟩ := hall x hx
      exact ⟨l',by simp [hl'],hP'⟩

variable {α β γ : Type} {f : α → β} {l : List α}

def numberTable (f : α → β) (l : List α) : Table Int β :=
 ofList ((l.zipIdx 0).map fun x => ((x.2 : Int),f x.1))

lemma entries_numberTable (f : α → β) (l : List α) :
 (numberTable f l).entries = (l.zipIdx 0).map fun x => ((x.2 : Int),f x.1) := by
 refine entries_ofList ?_
 have hnod : ((l.zipIdx 0).map Prod.snd).Nodup := by
  rw [zipIdx_map_snd]
  exact nodup_range'
 have hcast := hnod.map fun _ _ h => ofNat.inj h
 rwa [map_map] at hcast ⊢

lemma keys_numberTable (f : α → β) (l : List α) :
 (numberTable f l).keys = (List.range l.length).map Int.ofNat := by
 rw [Table.keys,entries_numberTable,map_map,range_eq_range',← zipIdx_map_snd 0 l,map_map]
 rfl

lemma mem_numberTable {e : Int × β} :
 e ∈ (numberTable f l).entries ↔ ∃ (k : Nat) (x : α), l[k]? = some x ∧ e = ((k : Int),f x) := by
 simp only [entries_numberTable,mem_map,Prod.exists,mk_mem_zipIdx_iff_getElem?]
 constructor
 · rintro ⟨x,k,hk,rfl⟩
   exact ⟨k,x,hk,rfl⟩
 · rintro ⟨k,x,hk,rfl⟩
   exact ⟨x,k,hk,rfl⟩

lemma numbered_numberTable (f : α → β) {k : Nat} {x : α} (h : l[k]? = some x) :
 numbered (numberTable f l) (.int k) = .ok (f x) := by
 have hget : (numberTable f l).get? k = some (f x) :=
  Table.get?_of_mem (nodup_ofList _) (mem_numberTable.2 ⟨k,x,h,rfl⟩)
 simp only [numbered,number?,hget]

lemma numberTable_map (f : β → γ) (f' : α → β) (l : List α) :
 numberTable f (l.map f') = numberTable (fun x => f (f' x)) l := by
 rw [numberTable,numberTable,zipIdx_map,map_map]
 rfl

lemma numberTable_congr {f' : α → β} (h : ∀ x ∈ l, f x = f' x) :
 numberTable f l = numberTable f' l := by
 rw [numberTable,numberTable]
 congr 1
 refine map_congr_left fun x hx => ?_
 rw [h x.1 (fst_mem_of_mem_zipIdx hx)]

lemma mapValues_numberTable (f' : β → γ) :
 (numberTable f l).mapValues (fun _ y => f' y) = numberTable (fun x => f' (f x)) l := by
 have hent : ((numberTable f l).mapValues fun _ y => f' y).entries =
  (numberTable (fun x => f' (f x)) l).entries := by
  rw [entries_numberTable,Table.mapValues,entries_numberTable,map_map]
  rfl
 exact congrArg Table.mk hent

lemma ends_queryKind {v : Value} (hiso : σ.settings.get "iso" = .ok v) :
 Ends queryKind σ (.ok (if v.truthy then "iso_subgraphs" else "noniso_subgraphs")) σ := by
 have hkind : Ends queryKind σ (.ok ((if v.truthy then "iso" else "noniso") ++ "_subgraphs")) σ :=
  (ends_flag hiso).bind (ends_pure _ σ)
 cases hv : v.truthy with
 | false =>
  rw [hv] at hkind
  exact hkind
 | true =>
  rw [hv] at hkind
  exact hkind

lemma ReadableQueries.ends_queryNames (h : ReadableQueries σ i kind foreign qs)
 (hkind : Ends queryKind σ (.ok kind) σ)
 (hqs : ∀ q ∈ qs, Listable q.1 ∧ q.2.Perm q.1.ids) :
 Ends (queryNames (.int i) true) σ (.ok (numberTable (placeTable foreign) qs)) σ := by
 refine hkind.bind (h.mapping.bind fun text htext => ?_)
 have hall : mappings false text =
  .ok (numberTable (fun q => ofList ((queryPairs foreign q).map Prod.swap)) qs) := by
  rw [mappings,htext,rowsFor_shuffledRows_true,Listing.mapRows_numbered]
  exact congrArg Except.ok (numberTable_map (fun c : List (Int × Int) =>
   ofList (c.map Prod.swap)) _ qs)
 have hfli : (numberTable (fun q : Graph × List NodeId =>
  ofList ((queryPairs foreign q).map Prod.swap)) qs).mapValues
  (fun _ m => flipped m) = numberTable (placeTable foreign) qs := by
  rw [mapValues_numberTable]
  exact numberTable_congr fun q hq => (hqs q hq).1.flipped_eq (hqs q hq).2
 rw [← hfli]
 exact (ends_ofExcept_ok hall).bind (ends_pure _ σ)

def Returned (names : List (Int × Int)) (a : Int) (foreign : Bool) (q : Graph × List NodeId)
 (l : Graph) : Prop :=
 ∃ h : Graph, h.Copies q.1 (unplacing foreign q) ∧
  l.MarkedCopies q.1 (h.relabeling (importTable names) ∘ unplacing foreign q) fun n =>
   unplacing foreign q n = .num a

lemma Returned.restores {q : Graph × List NodeId} {l : Graph} (h : Returned names a false q l)
 (hn : Naming names g)
 (hlis : Listable q.1) (hper : q.2.Perm q.1.ids) (hsub : ∀ n ∈ q.1.ids, n ∈ g.ids) :
 l.Restores q.1 (imported names) (.num a) := by
 obtain ⟨u,hcop,hmar⟩ := h
 have hsame := hlis.unplacing_part hper
 refine (hmar.congr fun n hmem => ?_).restores fun n hmem => by rw [hsame n hmem,id]
 obtain ⟨x,hx,rfl⟩ := hn.covers n (hsub n hmem)
 rw [hn.imported_eq hx,Function.comp_apply,hsame _ hmem]
 exact Graph.relabeling_of_get? (hn.get? hx)

lemma Readable.ends_renamedQuery (h : Readable σ i a g names) (hn : Naming names g) {k : Nat}
 {q : Graph × List NodeId}
 (hk : qs[k]? = some q) (hlis : Listable q.1) (hper : q.2.Perm q.1.ids) (foreign : Bool) :
 ∃ l, Ends (renamedQuery (.int i) (numberTable (placeTable foreign) qs)
  (importTable names) k (placed q)) σ (.ok l) σ ∧
  Returned names a foreign q l := by
 obtain ⟨unshuffled,hrel,hcop⟩ := hlis.copies_query hper foreign
 have hnum : ∀ n ∈ unshuffled.ids, ∃ j, n = .num j := by
  intro n hmem
  obtain ⟨m,_,rfl⟩ := (hcop.ids n).1 hmem
  exact ⟨_,rfl⟩
 obtain ⟨l,hl,hmar⟩ := hn.relabeled hcop hnum (.num a)
 exact ⟨l,(ends_ofExcept_ok (numbered_numberTable _ hk)).bind ((ends_ofExcept_ok hrel).bind
  ((ends_markAnchor h.listing hnum).bind (ends_ofExcept_ok hl))),unshuffled,hcop,hmar⟩

lemma Readable.ends_queries (h : Readable σ i a g names) (hq : ReadableQueries σ i kind foreign qs)
 (hkind : Ends queryKind σ (.ok kind) σ) (hn : Naming names g) (hi : i ≠ -1)
 (hqs : ∀ q ∈ qs, Listable q.1 ∧ q.2.Perm q.1.ids) :
 ∃ t, Ends (queries (.int i) true) σ (.ok t) σ ∧ t.keys = (List.range qs.length).map ofNat ∧
  ∀ (k : Nat) (q : Graph × List NodeId), qs[k]? = some q → ∃ l, t.get? k = some l ∧
   Returned names a foreign q l := by
 obtain ⟨v,hdir,hv⟩ := h.undirected
 have hpla := hq.ends_queryNames hkind hqs
 have hste : ∀ e ∈ (numberTable placed qs).entries, ∃ l,
  Ends (renamedQuery (.int i) (numberTable (placeTable foreign) qs) (importTable names) e.1 e.2)
   σ (.ok l) σ ∧
   ∀ (k : Nat) (q : Graph × List NodeId), e.1 = k → qs[k]? = some q →
    Returned names a foreign q l := by
  intro e he
  obtain ⟨k,q,hk,rfl⟩ := mem_numberTable.1 he
  obtain ⟨hlis,hper⟩ := hqs q (mem_of_getElem? hk)
  obtain ⟨l,hends,hret⟩ := h.ends_renamedQuery hn hk hlis hper foreign
  refine ⟨l,hends,fun j q' hj hq' => ?_⟩
  cases hj
  obtain rfl : q = q' := Option.some.inj (hk.symm.trans hq')
  exact hret
 obtain ⟨out,hout,hends,hres⟩ := ends_foldlM hste (numberTable placed qs)
 have hkey : (Table.mk out).keys = (numberTable placed qs).keys := hout
 refine ⟨(numberTable placed qs).putAll out,hkind.bind (hq.listing.bind fun text htext => ?_),?_,
  fun k q hk => ?_⟩
 · have hall : graphs v.truthy text = .ok (numberTable placed qs) := by
    rw [hv,graphs,htext,rowsFor_shuffledRows_false,Listing.readRows_numbered]
    exact congrArg Except.ok (numberTable_map (fun c : Listing.Contents => c.graph false) _ qs)
   exact (ends_flag hdir).bind ((ends_ofExcept_ok hall).bind (hpla.bind
    ((ends_sourceNames hn hi h.mapping).bind hends)))
 · rw [Table.keys_putAll_of_subset fun k hk => hkey ▸ hk,keys_numberTable]
 · obtain ⟨l,hl,hret⟩ := hres _ (mem_numberTable.2 ⟨k,q,hk,rfl⟩)
   have hnod : (Table.mk out).keys.Nodup := hkey ▸ nodup_ofList _
   have hget := Table.get?_putAll_entries (numberTable placed qs) hnod (k : Int)
   rw [Table.get?_of_mem hnod hl,Option.some_or] at hget
   exact ⟨l,hget,hret k q rfl hk⟩

end MotifMatch.Corpus
