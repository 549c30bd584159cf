import MotifMatch.Proofs.Slices

namespace MotifMatch.Import
open List Run Entry MotifMatch.Path MotifMatch.Graph Slice Int Text
open Corpus (Listable Naming Sources View Written placeIn)
variable {v : View} {c : Collection} {notes : List Note} {s : Slice} {n : NodeId}

def Slice.names (s : Slice) : List (Int × Int) := s.order.zipIdx.map fun x => (idNumber x.1,x.2)

lemma nodup_orderAt (notes : List Note) (number : Int) : (orderAt notes number).Nodup := by
 have hpla : (notes.zipIdx.map Prod.snd).Nodup := by
  rw [zipIdx_map_snd]
  exact nodup_range'
 have hsub := hpla.sublist (filter_sublist (p := fun x => x.1.number == number).map Prod.snd)
 have hmap := hsub.map fun i j heq => ofNat.inj (NodeId.num.inj heq)
 rwa [map_map] at hmap

lemma Cut.perm (h : Cut v c notes s) : s.order.Perm (orderAt notes s.number) := h.order ▸ v.perm _

lemma Cut.nodup (h : Cut v c notes s) : s.order.Nodup :=
 h.perm.nodup_iff.2 (nodup_orderAt notes s.number)

lemma Cut.id_eq (h : Cut v c notes s) (hn : n ∈ s.order) : n = .num (idNumber n) := by
 obtain ⟨i,_,_,_,rfl⟩ := mem_orderAt.1 (h.perm.mem_iff.1 hn)
 rfl

lemma Cut.names_eq (h : Cut v c notes s) :
 (s.order.zipIdx.map fun x => (x.1.toValue,Value.int x.2)) = s.names.map fun x =>
  (.int x.1,.int x.2) := by
 rw [Slice.names,map_map]
 refine map_congr_left fun x hx => ?_
 rw [h.id_eq (fst_mem_of_mem_zipIdx hx)]
 rfl

lemma Slice.mem_names (hn : n ∈ s.order) : (idNumber n,placeIn s.order n) ∈ s.names :=
 mem_map.2 ⟨(n,s.order.idxOf n),mk_mem_zipIdx_iff_getElem?.2 (getElem?_idxOf hn),rfl⟩

lemma Cut.naming (h : Cut v c notes s) : Naming s.names s.graph where
 old := by
  have hinj : ∀ m ∈ s.order, ∀ n ∈ s.order, idNumber m = idNumber n → m = n :=
   fun m hm n hn heq => by
   rw [h.id_eq hm,h.id_eq hn,heq]
  have hmap : s.names.map Prod.fst = s.order.map idNumber := by
   rw [Slice.names,map_map]
   conv_rhs => rw [← zipIdx_map_fst 0 s.order,map_map]
   rfl
  rw [hmap]
  exact (nodup_map_iff_inj_on h.nodup).2 hinj
 new := by
  have hmap : s.names.map Prod.snd = (s.order.zipIdx.map Prod.snd).map ofNat := by
   rw [Slice.names,map_map,map_map]
   rfl
  rw [hmap,zipIdx_map_snd]
  exact Nodup.map (fun i j heq => ofNat.inj heq) nodup_range'
 covers := by
  intro n hn
  obtain ⟨m,hm,rfl⟩ := (h.crops.ids n).1 hn
  exact ⟨_,mem_names hm,rfl⟩

variable {σ σ' σ'' : Session} {p q : List String} {es : List (String × Entry)}

structure Kept (σ : Session) (p : List String) (σ' : Session) : Prop where
 keeps : σ.files.Keeps σ'.files
 spares : σ.files.Spares p σ'.files
 settings : σ'.settings = σ.settings

lemma Kept.refl (σ : Session) (p : List String) : Kept σ p σ := ⟨.refl _,.refl _ _,rfl⟩

lemma Kept.trans (h : Kept σ p σ') (h' : Kept σ' p σ'') : Kept σ p σ'' :=
 ⟨h.keeps.trans h'.keeps,h.spares.trans h'.spares,h'.settings.trans h.settings⟩

lemma Kept.of_shelved (h : Shelved σ σ' (p ++ q) es) : Kept σ p σ' :=
 ⟨h.keeps,h.spares.of_append,h.settings⟩

section
variable {xs ys : List (Int × Slice)} {folder : String}

structure Stocked (σ : Session) (p : List String) (xs : List (Int × Slice)) : Prop where
 stored : ∀ x ∈ xs, ∃ es, σ.files.find (p ++ [toString x.1]) = .ok (.folder es) ∧
  Written es x.1 x.2.anchor x.2.graph x.2.names
 absent : ∀ m, (∀ x ∈ xs, m ≠ toString x.1) → ∃ e, σ.files.find (p ++ [m]) = .error e

lemma Stocked.frame (h : Stocked σ p xs) (hkept : Kept σ q σ') (hapa : Apart q p) :
 Stocked σ' p xs := by
 have hspa : ∀ m, σ'.files.find (p ++ [m]) = σ.files.find (p ++ [m]) := fun m =>
  hkept.spares _ (hapa.symm.append [m]).symm
 refine ⟨fun x hx => ?_,fun m hm => ?_⟩
 · obtain ⟨es,hes,hwri⟩ := h.stored x hx
   exact ⟨es,(hspa _).trans hes,hwri⟩
 · rw [hspa]
   exact h.absent m hm

lemma Stocked.ends_write (h : Stocked σ p xs) (hlea : σ.files.resolve folder = .ok p)
 (hfou : ∃ es, σ.files.find p = .ok (.folder es)) {x : Int × Slice} (hx : Cut v c notes x.2)
 (hnew : ∀ y ∈ xs, x.1 ≠ y.1)
 {iso nonIso : List Graph} (hiso : ∀ s ∈ iso, Listable s) (hnonI : ∀ s ∈ nonIso, Corpus.Foreign s) :
 ∃ σ', Run.Ends (Corpus.write folder ⟨.int x.1,x.2.graph,
  x.2.order.zipIdx.map fun e => (e.1.toValue,.int e.2),
  .int x.2.anchor,iso,nonIso⟩) σ (.ok ()) σ' ∧ Kept σ p σ' ∧ Stocked σ' p (xs ++ [x]) := by
 have hfre :=
  h.absent _ fun y hy heq => hnew y hy (toString_inj heq)
 have hroom : Corpus.Room σ folder (toString x.1) p := by
  refine ⟨hlea,hfou,fun e he => ?_⟩
  obtain ⟨err,herr⟩ := hfre
  rw [herr] at he
  cases he
 obtain ⟨r,σ',es,_,hends,hshe,hwri,_,_,hok⟩ :=
  hroom.ends_write hx.crops.listable hiso x.2.names x.2.anchor nonIso
 rw [(hok hnonI).1,← hx.names_eq] at hends
 have hspa : ∀ m, m ≠ toString x.1 → σ'.files.find (p ++ [m]) = σ.files.find (p ++ [m]) :=
  fun m hm =>
  hshe.spares _ (apart_siblings (Ne.symm hm) p)
 refine ⟨σ',hends,.of_shelved hshe,fun y hy => ?_,fun m hm => ?_⟩
 · rcases mem_append.1 hy with hy | hy
   · obtain ⟨es',hes',hwri'⟩ := h.stored y hy
     exact ⟨es',(hspa _ fun heq => hnew y hy (toString_inj heq).symm).trans hes',hwri'⟩
   · rw [mem_singleton.1 hy]
     exact ⟨es,hshe.found,hwri⟩
 · rw [hspa m (hm x (by simp))]
   exact h.absent m fun y hy => hm y (by simp [hy])

end

variable {d : List String} {xs ys : List (Int × Slice)} {folder name dir part : String}
 {queries : Value → Queries}

def entryOf {ν : Type} (t : List (Value × ν)) (k : Value) : Except Error ν :=
 match (Table.mk t).get? k with
 | some v => .ok v
 | none => .error .missingKey

structure Queries where
 iso : List Graph
 nonIso : List Graph

structure Queries.Valid (q : Queries) : Prop where
 iso : ∀ s ∈ q.iso, Listable s
 nonIso : ∀ s ∈ q.nonIso, Corpus.Foreign s

def storeOne (folder : String) (s : Sources) (queries : Value → Queries) (e : Value × Graph) :
 Run Unit := do
 let names ← Run.ofExcept (entryOf s.names e.1)
 let anchor ← Run.ofExcept (entryOf s.anchors e.1)
 Corpus.write folder {
   number := e.1
   graph := e.2
   names := names.map fun x => (x.1.toValue,.int x.2)
   anchor := .int anchor
   iso := (queries e.1).iso
   nonIso := (queries e.1).nonIso }

def store (part : String) (s : Sources) (queries : Value → Queries) : Run Unit := do
 let folder :=
  ofProject (join (← settingText "dataset_dir") ((← settingText "dataset") ++ "_" ++ part))
 Corpus.ensurePath folder
 s.graphs.forM (storeOne folder s queries)

lemma entryOf_keyed {β : Type} (f : Slice → β) (hkey : (xs.map Prod.fst).Nodup) {x : Int × Slice}
 (hx : x ∈ xs) :
 entryOf (keyed f xs) (.int x.1) = .ok (f x.2) := by
 rw [entryOf,get?_keyed f hkey hx]

lemma Stocked.ends_forM (hlea : σ.files.resolve folder = .ok p)
 (hfou : ∃ es, σ.files.find p = .ok (.folder es))
 (hxs : (xs.map Prod.fst).Nodup) (hque : ∀ k, (queries k).Valid) {done : List (Int × Slice)}
 (h : Stocked σ p done) (hys : ∀ y ∈ ys, y ∈ xs ∧ Cut v c notes y.2)
 (hkey : ((done ++ ys).map Prod.fst).Nodup) :
 ∃ σ', Ends ((keyed graph ys).forM (storeOne folder (sourcesOf xs) queries)) σ (.ok ()) σ' ∧
  Kept σ p σ' ∧
  Stocked σ' p (done ++ ys) := by
 induction ys generalizing σ done with
 | nil => exact ⟨σ,ends_pure () σ,.refl σ p,by rwa [append_nil]⟩
 | cons y ys ih =>
  obtain ⟨hmem,hcut⟩ := hys y (by simp)
  -- the keys differ, so what was stored before stays as it is
  have hnew : ∀ z ∈ done, y.1 ≠ z.1 := by
   intro z hz heq
   rw [map_append,nodup_append] at hkey
   exact hkey.2.2 z.1 (mem_map_of_mem hz) y.1 (by simp) heq.symm
  obtain ⟨σ₁,hend₁,hkep₁,h₁⟩ :=
   h.ends_write hlea hfou hcut hnew (hque (.int y.1)).iso (hque (.int y.1)).nonIso
  obtain ⟨es,hes⟩ := hfou
  obtain ⟨σ₂,hend₂,hkep₂,h₂⟩ := ih (hkep₁.keeps.resolve hlea) (hkep₁.keeps p es hes) h₁
   (fun z hz => hys z (by simp [hz])) (by simpa using hkey)
  have hone : Ends (storeOne folder (sourcesOf xs) queries (.int y.1,y.2.graph)) σ (.ok ()) σ₁ :=
   (ends_ofExcept_ok (entryOf_keyed (fun s => s.order.zipIdx) hxs hmem)).bind
    ((ends_ofExcept_ok (entryOf_keyed anchor hxs hmem)).bind hend₁)
  exact ⟨σ₂,hone.bind hend₂,hkep₁.trans hkep₂,by simpa using h₂⟩

lemma ends_store (hdat : σ.settings.get "dataset" = .ok (.str name))
 (hdir : σ.settings.get "dataset_dir" = .ok (.str dir))
 (hlea : σ.files.resolve (ofProject dir) = .ok d) (hpart : FileName (name ++ "_" ++ part))
 (hfou : ∃ es, σ.files.find d = .ok (.folder es))
 (hnew : ∃ e, σ.files.find (d ++ [name ++ "_" ++ part]) = .error e)
 (hkey : (xs.map Prod.fst).Nodup) (hxs : ∀ x ∈ xs, Cut v c notes x.2)
 (hque : ∀ k, (queries k).Valid) :
 ∃ σ', Ends (store part (sourcesOf xs) queries) σ (.ok ()) σ' ∧
  Kept σ (d ++ [name ++ "_" ++ part]) σ' ∧
  Stocked σ' (d ++ [name ++ "_" ++ part]) xs := by
 obtain ⟨es,hes⟩ := hfou
 have hchi : (folder es).child? (name ++ "_" ++ part) = none := by
  obtain ⟨e,he⟩ := hnew
  rw [find_concat hes] at he
  cases hc : (folder es).child? (name ++ "_" ++ part) with
  | none => rfl
  | some _ => simp [hc] at he
 have hfol := resolve_ofProject_join hlea hpart
 obtain ⟨σ₁,hend₁,_,h₁⟩ := Corpus.ends_ensure_new hes hchi hfol
 have hemp : Stocked σ₁ (d ++ [name ++ "_" ++ part]) [] :=
  ⟨by simp,fun m _ => ⟨.fileNotFound,by rw [find_concat h₁.found]; rfl⟩⟩
 obtain ⟨σ₂,hend₂,hkep₂,h₂⟩ := Stocked.ends_forM (h₁.keeps.resolve hfol) ⟨_,h₁.found⟩ hkey hque hemp
  (fun y hy => ⟨hy,hxs y hy⟩) hkey
 have hkep₁ : Kept σ (d ++ [name ++ "_" ++ part]) σ₁ := ⟨h₁.keeps,h₁.spares,h₁.settings⟩
 exact ⟨σ₂,(ends_settingText hdir).bind ((ends_settingText hdat).bind (hend₁.bind hend₂)),
  hkep₁.trans hkep₂,h₂⟩

open Corpus (Listable Sources View Written imported placeIn)

def partName (test : Bool) : String := if test then "test" else "train"

abbrev partPlace (d : List String) (name : String) (test : Bool) : List String :=
 d ++ [name ++ "_" ++ partName test]

def storeParts (split : Bool) (s : Sources) (queries : Bool → Value → Queries) : Run Unit :=
 if split then do
  let parts ← s.split
  store (partName false) parts.1 (queries false)
  store (partName true) parts.2 (queries true)
 else store (partName true) s (queries true)

def prepare (v : View) (c : Collection) (split : Bool) (queries : Bool → Value → Queries) :
 Run Unit := do
 c.write
 let raw ← Corpus.readRaw (← settingText "raw_dataset_dir") (← settingText "dataset")
 let s ← Run.ofExcept (raw.sources v)
 storeParts split s queries

def loadFrom (test : Bool) (k : Int) : Run Graph := do
 assign "test_data" (.bool test)
 Corpus.source (.int k) true

def Yields (σ : Session) (place : Bool × Int) (l : Graph) : Prop :=
 ∃ σ', Ends (loadFrom place.1 place.2) σ (.ok l) σ'

section
variable {raw : String} {r : List String} {queries : Bool → Value → Queries}

structure Furnished (σ : Session) (name raw dir : String) (r d : List String) : Prop where
 dataset : σ.settings.get "dataset" = .ok (.str name)
 rawDir : σ.settings.get "raw_dataset_dir" = .ok (.str raw)
 dataDir : σ.settings.get "dataset_dir" = .ok (.str dir)
 named : FileName name
 dirNamed : dir ≠ ""
 room : Corpus.Room σ (Path.ofProject raw) name r
 leads : σ.files.resolve (ofProject dir) = .ok d
 found : ∃ es, σ.files.find d = .ok (.folder es)
 fresh : ∀ test, ∃ e, σ.files.find (partPlace d name test) = .error e
 outside : ¬r ++ [name] <+: d

structure Ready (σ : Session) (name raw dir : String) (r d : List String) :
 Prop extends Furnished σ name raw dir r d where
 undirected : ∃ v, σ.settings.get "directed" = .ok v ∧ v.truthy = false

lemma Furnished.apart (h : Furnished σ name raw dir r d) (test : Bool) :
 Entry.Apart (r ++ [name]) (partPlace d name test) := by
 have hne : name ≠ name ++ "_" ++ partName test := by
  intro heq
  have hlen := congrArg (fun s => s.toList.length) heq
  simp at hlen
 constructor
 · rw [prefix_concat_iff]
   rintro (heq | hpre)
   · exact hne (by simpa using (append_inj' heq rfl).2)
   · exact h.outside hpre
 · rw [prefix_concat_iff]
   rintro (heq | ⟨rest,hres⟩)
   · exact hne (by simpa using (append_inj' heq rfl).2.symm)
   · obtain ⟨es,hes⟩ := h.room.found
     obtain ⟨e,he⟩ := h.fresh test
     rw [← hres,find_append,he] at hes
     cases hes

lemma Furnished.partFile (h : Furnished σ name raw dir r d) (test : Bool) :
 Path.FileName (name ++ "_" ++ partName test) := by
 rw [String.append_assoc]
 refine h.named.append ?_
 cases test <;> decide

lemma apart_parts (d : List String) (name : String) :
 Apart (partPlace d name false) (partPlace d name true) := by
 refine apart_siblings (fun heq => ?_) d
 have hpart := String.append_right_inj (name ++ "_") |>.mp heq
 exact absurd hpart (by decide)

lemma Archived.frame (h : Archived σ raw name r c notes) (hkee : σ.files.Keeps σ'.files)
 (hsame : ∀ m, σ'.files.find (r ++ [name] ++ [m]) = σ.files.find (r ++ [name] ++ [m])) :
  Archived σ' raw name r c notes := by
 refine ⟨hkee.resolve h.leads,h.named,fun x hx => ?_⟩
 rw [← h.files x hx]
 simpa using hsame (name ++ x.1)

lemma Archived.ends_readRaw (h : Archived σ raw name r c notes) (htal : Tallied c notes)
 (hedge : c.graph.edgeList ≠ [])
 (hanc : c.anchors.entries ≠ []) : Run.Ends (Corpus.readRaw raw name) σ
  (.ok ⟨total c notes,Corpus.membersOf (notes.map fun x => x.number - 1),lowerAnchors c⟩) σ := by
 have hread : ∀ x ∈ archive c notes, _ := fun x hx => h.ends_readText hx
 simp only [archive,forall_mem_cons] at hread
 obtain ⟨hlab,hlin,hnum,_,hmar,_⟩ := hread
 refine hlab.bind (hlin.bind (hnum.bind (hmar.bind (ends_ofExcept_ok ?_))))
 exact ofTexts_eq htal hedge hanc

structure Distributed (v : View) (c : Collection) (notes : List Note) (σ : Session)
 (d : List String) (name : String)
 (xs : Bool → List (Int × Slice)) : Prop where
 stocked : ∀ test, Stocked σ (partPlace d name test) (xs test)
 keys : ∀ test, ((xs test).map Prod.fst).Nodup
 cut : ∀ test, ∀ x ∈ xs test, Cut v c notes x.2
 numbers : ((xs false ++ xs true).map fun x => x.2.number).Nodup
 covers : ∀ x ∈ notes, ∃ y ∈ xs false ++ xs true, y.2.number = x.number

lemma Furnished.ends_store (h : Furnished σ name raw dir r d) (hkee : σ.files.Keeps σ'.files)
 (hset : σ'.settings = σ.settings)
 {test : Bool} (hfre : ∃ e, σ'.files.find (partPlace d name test) = .error e)
 (hkey : (xs.map Prod.fst).Nodup) (hxs : ∀ x ∈ xs, Cut v c notes x.2) {queries : Value → Queries}
 (hque : ∀ k, (queries k).Valid) :
 ∃ σ'', Run.Ends (store (partName test) (sourcesOf xs) queries) σ' (.ok ()) σ'' ∧
  Kept σ' (partPlace d name test) σ'' ∧ Stocked σ'' (partPlace d name test) xs := by
 obtain ⟨es,hes⟩ := h.found
 exact Import.ends_store (hset ▸ h.dataset) (hset ▸ h.dataDir) (hkee.resolve h.leads)
  (h.partFile test)
  (hkee d es hes) hfre hkey hxs hque

lemma stocked_nil {p : List String} (h : ∃ e, σ.files.find p = .error e) : Stocked σ p [] := by
 obtain ⟨e,he⟩ := h
 refine ⟨by simp,fun m _ => ⟨e,?_⟩⟩
 rw [find_append,he]
 rfl

lemma keys_renumbered (xs : List (Int × Slice)) :
 (renumbered xs).map Prod.fst = (List.range xs.length).map ofNat := by
 rw [renumbered,map_map,range_eq_range',← zipIdx_map_snd 0 xs,map_map]
 rfl

lemma slices_renumbered (xs : List (Int × Slice)) :
 (renumbered xs).map Prod.snd = xs.map Prod.snd := by
 rw [renumbered,map_map]
 conv_rhs => rw [← zipIdx_map_fst 0 xs,map_map]
 rfl

lemma nodup_renumbered (xs : List (Int × Slice)) : ((renumbered xs).map Prod.fst).Nodup := by
 rw [keys_renumbered]
 exact nodup_range.map fun i j heq => ofNat.inj heq

lemma renumbered_nonneg (xs : List (Int × Slice)) : ∀ y ∈ renumbered xs, 0 ≤ y.1 := by
 intro y hy
 obtain ⟨x,_,rfl⟩ := mem_map.1 hy
 exact natCast_nonneg _

lemma cut_renumbered (h : ∀ x ∈ xs, Cut v c notes x.2) : ∀ y ∈ renumbered xs, Cut v c notes y.2 := by
 intro y hy
 obtain ⟨x,hx,heq⟩ := mem_map.1 (slices_renumbered xs ▸ mem_map_of_mem hy)
 exact heq ▸ h x hx

lemma Furnished.ends_storeParts (h : Furnished σ name raw dir r d) (hkee : σ.files.Keeps σ'.files)
 (hset : σ'.settings = σ.settings)
 (hfre : ∀ test, ∃ e, σ'.files.find (partPlace d name test) = .error e)
 (hkey : (xs.map Prod.fst).Nodup) (hcut : ∀ x ∈ xs, Cut v c notes x.2)
 (hque : ∀ test k, (queries test k).Valid) (split : Bool) :
 ∃ (σ'' : Session) (ys : Bool → List (Int × Slice)),
  Ends (storeParts split (sourcesOf xs) queries) σ' (.ok ()) σ'' ∧
  σ''.settings = σ'.settings ∧ σ'.files.Keeps σ''.files ∧
  (∀ q, (∀ test, Apart (partPlace d name test) q) → σ''.files.find q = σ'.files.find q) ∧
  (∀ test, Stocked σ'' (partPlace d name test) (ys test) ∧ ((ys test).map Prod.fst).Nodup) ∧
  ((ys false ++ ys true).map Prod.snd).Perm (xs.map Prod.snd) ∧
  if split then ∀ test, ∀ y ∈ ys test, 0 ≤ y.1 else ys false = [] ∧ ys true = xs := by
 have hapa := apart_parts d name
 cases split with
 | false =>
  obtain ⟨σ₂,hsto,hkept,hstoc⟩ := h.ends_store hkee hset (hfre true) hkey hcut (hque true)
  have hemp := (stocked_nil (hfre false)).frame hkept hapa.symm
  exact ⟨σ₂,fun test => if test then xs else [],hsto,hkept.settings,hkept.keeps,
   fun q hq => hkept.spares q (hq true),
   Bool.forall_bool.2 ⟨⟨hemp,nodup_nil⟩,⟨hstoc,hkey⟩⟩,.refl _,rfl,rfl⟩
 | true =>
  obtain ⟨ys,zs,σ₁,hper,hspl,hfil,hset₁⟩ := ends_split hkey σ'
  rw [← hfil] at hkee hfre
  rw [← hfil,← hset₁]
  obtain ⟨σ₂,hst₂,hkep₂,hsto₂⟩ := h.ends_store hkee (hset₁.trans hset) (hfre false)
   (nodup_renumbered ys) (cut_renumbered fun w hw => hcut w (hper.mem_iff.1 (by simp [hw])))
    (hque false)
  -- the test part is still not there when the training part is
  have hfre₂ : ∃ e, σ₂.files.find (partPlace d name true) = .error e := by
   rw [hkep₂.spares _ hapa]
   exact hfre true
  have hset₂ := hkep₂.settings.trans (hset₁.trans hset)
  obtain ⟨σ₃,hst₃,hkep₃,hsto₃⟩ := h.ends_store (hkee.trans hkep₂.keeps) hset₂ hfre₂
   (nodup_renumbered zs) (cut_renumbered fun w hw => hcut w (hper.mem_iff.1 (by simp [hw])))
    (hque true)
  refine ⟨σ₃,fun test => if test then renumbered zs else renumbered ys,hspl.bind (hst₂.bind hst₃),
   hkep₃.settings.trans hkep₂.settings,hkep₂.keeps.trans hkep₃.keeps,
   fun q hq => (hkep₃.spares q (hq true)).trans (hkep₂.spares q (hq false)),
   Bool.forall_bool.2 ⟨⟨hsto₂.frame hkep₃ hapa.symm,nodup_renumbered ys⟩,
    ⟨hsto₃,nodup_renumbered zs⟩⟩,?_,
   Bool.forall_bool.2 ⟨renumbered_nonneg ys,renumbered_nonneg zs⟩⟩
  simpa [slices_renumbered] using hper.map Prod.snd

lemma Furnished.ends_prepare (v : View) (h : Furnished σ name raw dir r d) (htal : Tallied c notes)
 (hedge : c.graph.edgeList ≠ [])
 (hanc : ∀ x ∈ notes, ∃ a, c.anchors.get? x.number = some a)
 (hque : ∀ test k, (queries test k).Valid) (split : Bool) :
 ∃ σ' xs, Ends (prepare v c split queries) σ (.ok ()) σ' ∧ σ'.settings = σ.settings ∧
  σ.files.Keeps σ'.files ∧
  Archived σ' raw name r c notes ∧ Distributed v c notes σ' d name xs ∧
  if split then ∀ test, ∀ x ∈ xs test, 0 ≤ x.1 else xs false = [] ∧ ∀ x ∈ xs true, x.2.number =
   x.1 + 1 := by
 obtain ⟨σ₁,es₁,hwri,hshe,harc⟩ := ends_write htal h.dataset h.rawDir h.room h.named
 have han : c.anchors.entries ≠ [] := by
  obtain ⟨x,hx⟩ := exists_mem_of_ne_nil _ (htal.notes_ne_nil hedge)
  obtain ⟨a,ha⟩ := hanc x hx
  exact ne_nil_of_mem (Table.mem_of_get? ha)
 have hread := harc.ends_readRaw htal hedge han
 obtain ⟨xs,hsou,hkey,hcut,hcov⟩ := sources_ok htal hanc
 have hfre : ∀ test, ∃ e, σ₁.files.find (partPlace d name test) = .error e := by
  intro test
  rw [hshe.spares _ (h.apart test)]
  exact h.fresh test
 have hnum : (xs.map fun x => x.2.number).Nodup := by
  have hmap : (xs.map fun x => x.2.number) = (xs.map Prod.fst).map (· + 1) := by
   rw [map_map]
   exact map_congr_left fun x hx => (hcut x hx).2
  rw [hmap]
  exact hkey.map fun i j heq => by simpa using heq
 obtain ⟨σ₂,ys,hsto,hset,hkee,hsame,hstoc,hper,hpar⟩ := h.ends_storeParts hshe.keeps hshe.settings
  hfre hkey (fun x hx => (hcut x hx).1) hque split
 have hsli : ∀ y ∈ ys false ++ ys true, ∃ x ∈ xs, x.2 = y.2 := fun y hy =>
  mem_map.1 (hper.mem_iff.1 (mem_map_of_mem hy))
 refine ⟨σ₂,ys,?_,hset.trans hshe.settings,hshe.keeps.trans hkee,?_,⟨fun test => (hstoc test).1,
  fun test => (hstoc test).2,?_,?_,?_⟩,?_⟩
 · exact hwri.bind ((ends_settingText (hshe.settings ▸ h.rawDir)).bind
    ((ends_settingText (hshe.settings ▸ h.dataset)).bind
     (hread.bind ((ends_ofExcept_ok hsou).bind hsto))))
 · -- the parts are apart from the files of the collection
   exact harc.frame hkee fun m => hsame _ fun test => ((h.apart test).append [m]).symm
 · intro test x hx
   obtain ⟨y,hy,heq⟩ := hsli x (by cases test <;> simp [hx])
   exact heq ▸ (hcut y hy).1
 · have hmap := hper.map number
   rw [map_map,map_map] at hmap
   exact hmap.nodup_iff.2 hnum
 · intro x hx
   obtain ⟨y,hy,hnu⟩ := hcov x hx
   obtain ⟨z,hz,heq⟩ := mem_map.1 (hper.mem_iff.2 (mem_map_of_mem (f := Prod.snd) hy))
   exact ⟨z,hz,heq ▸ hnu⟩
 · cases split with
   | true => exact hpar
   | false => exact ⟨hpar.1,hpar.2 ▸ fun x hx => (hcut x hx).2⟩

variable (h : Ready σ name raw dir r d) (htal : Tallied c notes) (hedge : c.graph.edgeList ≠ [])
include h htal hedge

lemma ends_prepare (v : View) (hanc : ∀ x ∈ notes, ∃ a, c.anchors.get? x.number = some a)
 (hque : ∀ test k, (queries test k).Valid) (split : Bool) :
 ∃ σ' xs, Run.Ends (prepare v c split queries) σ (.ok ()) σ' ∧ σ'.settings = σ.settings ∧
  σ.files.Keeps σ'.files ∧
  Archived σ' raw name r c notes ∧ Distributed v c notes σ' d name xs ∧
  if split then ∀ test, ∀ x ∈ xs test, 0 ≤ x.1 else xs false = [] ∧
   ∀ x ∈ xs true, x.2.number = x.1 + 1 :=
 h.toFurnished.ends_prepare v htal hedge hanc hque split

lemma ends_prepare_error (v : View)
 (hanc : c.anchors.entries ≠ []) {x : Note} (hx : x ∈ notes)
 (hnone : c.anchors.get? x.number = none) (split : Bool)
 (queries : Bool → Value → Queries) :
  ∃ σ', Run.Ends (prepare v c split queries) σ (.error .missingKey) σ' := by
 obtain ⟨σ₁,_,hwri,hshe,harc⟩ := ends_write htal h.dataset h.rawDir h.room h.named
 have hread := harc.ends_readRaw htal hedge hanc
 exact ⟨σ₁,hwri.bind ((ends_settingText (hshe.settings ▸ h.rawDir)).bind
  ((ends_settingText (hshe.settings ▸ h.dataset)).bind
   (hread.bind (ends_ofExcept_error (sources_error htal hx hnone)).bind_error)))⟩

end

section
variable {test directed : Bool} {k : Int} {l : Graph} {x : Int × Slice}

structure Loadable (σ : Session) (name dir : String) (d : List String) (directed : Bool) : Prop where
 dataset : σ.settings.get "dataset" = .ok (.str name)
 dataDir : σ.settings.get "dataset_dir" = .ok (.str dir)
 direction : ∃ v, σ.settings.get "directed" = .ok v ∧ v.truthy = directed
 dirNamed : dir ≠ ""
 leads : σ.files.resolve (ofProject dir) = .ok d
 parts : ∀ test, FileName (name ++ "_" ++ partName test)

def onPart (σ : Session) (test : Bool) : Session :=
 { σ with settings := σ.settings.set "test_data" (.bool test) }

lemma get_onPart {m : String} (h : m ≠ "test_data") (σ : Session) (test : Bool) :
 (onPart σ test).settings.get m = σ.settings.get m := by
 simp only [onPart,Settings.get,Settings.set,Table.get?_put,if_neg h]

variable (h : Loadable σ name dir d directed)
include h

lemma Loadable.located (test : Bool) : Corpus.Located (onPart σ test) (partPlace d name test) := by
 refine ⟨_,_,_,Settings.get_set _ _ _,(get_onPart (by decide) σ test).trans h.dataset,
  (get_onPart (by decide) σ test).trans h.dataDir,?_⟩
 have hlea := resolve_ofProject h.dirNamed h.leads (h.parts test)
 cases test <;> exact hlea

variable (hstoc : Stocked σ (partPlace d name test) xs)
include hstoc

lemma Loadable.reads (hx : x ∈ xs) :
 Corpus.Reads (onPart σ test) x.1 "source.lg" (Corpus.sourceRows x.1 x.2.anchor x.2.graph) ∧
  Corpus.Reads (onPart σ test) x.1 "source_mapping.lg" (Corpus.nameRows x.1 x.2.names) := by
 obtain ⟨es,hfou,hwri⟩ := hstoc.stored x hx
 exact ⟨(h.located test).reads hfou Corpus.fileName_source
  (Corpus.tidy_sourceRows _ _ _) hwri.source,
  (h.located test).reads hfou Corpus.fileName_names (Corpus.tidy_nameRows _ _) hwri.names⟩

lemma Loadable.yields_stored (hx : x ∈ xs) (hcut : Cut v c notes x.2) (hkey : x.1 ≠ -1) :
 ∃ l, Yields σ (test,x.1) l ∧ l.Restores (x.2.graph.facing directed idNumber) (imported x.2.names)
  (.num x.2.anchor) := by
 obtain ⟨hlis,hmap⟩ := h.reads hstoc hx
 obtain ⟨v,hv,rfl⟩ := h.direction
 obtain ⟨l,hends,hres⟩ :=
  Corpus.ends_source_of_copies ((get_onPart (by decide) σ test).trans hv) hlis hmap
  hcut.naming hkey (hcut.crops.listable.copies_facing fun _ => hcut.crops.ascending)
  fun n hn => ids_facing v.truthy idNumber x.2.graph ▸ hn
 exact ⟨l,⟨_,(ends_assign _ _ _).bind hends⟩,hres⟩

lemma Loadable.stored_of_yields (hyie : Yields σ (test,k) l) : ∃ x ∈ xs, x.1 = k := by
 by_contra hnone
 obtain ⟨e,he⟩ := hstoc.absent (toString k) fun x hx heq => hnone ⟨x,hx,(toString_inj heq).symm⟩
 obtain ⟨path,hpath,hlea,_⟩ := (h.located test).ends_sourceFile k Corpus.fileName_source
 have hloo : (onPart σ test).files.lookup path = .error e := by
  refine lookup_of_not_found hlea ?_
  rw [find_append,show (onPart σ test).files = σ.files from rfl,he]
  rfl
 have hfai : Ends (loadFrom test k) σ (.error e) (onPart σ test) :=
  (ends_assign _ _ _).bind (hpath.bind (ends_readText_error hloo).bind_error)
 obtain ⟨σ',hends⟩ := hyie
 cases (hends.unique hfai).1

lemma Loadable.not_yields (hx : x ∈ xs) (hkey : x.1 = -1) : ¬Yields σ (test,x.1) l := by
 rintro ⟨σ',hends⟩
 obtain ⟨hlis,_⟩ := h.reads hstoc hx
 obtain ⟨v,hv,_⟩ := h.direction
 have hfai : Ends (Corpus.source (.int x.1) true) (onPart σ test) (.error .missingKey)
  (onPart σ test) := by
  refine hlis.bind fun text htext => ?_
  refine (ends_flag ((get_onPart (by decide) σ test).trans hv)).bind ?_
  have hnone : Listing.graphs v.truthy text = .ok .empty := by
   rw [Listing.graphs,htext,Corpus.sourceRows,hkey]
   rfl
  exact (ends_ofExcept_ok hnone).bind (ends_ofExcept _ _).bind_error
 cases (hends.unique ((ends_assign _ _ _).bind hfai)).1

end
end MotifMatch.Import
