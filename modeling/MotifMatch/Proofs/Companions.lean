import Mathlib.Data.List.TakeWhile
import MotifMatch.Annotations
import MotifMatch.Import.Datasets
import MotifMatch.Proofs.Writing

namespace MotifMatch.Import
open List MotifMatch.Graph Table Catalog

structure Call where
 source : Graph
 anchor : NodeId
 number : Int

def collected (calls : List Call) : Collection :=
 calls.foldl (fun c k => c.add k.source k.anchor k.number) .start

structure Note where
 label : Int
 number : Int
 patterns : List String
 patternId : Value
 scope : Value
 dataset : Value

namespace Note

def attrs (x : Note) : Attrs := .ofList [
 ("label",.int x.label),
 ("graph_idx",.int x.number),
 ("pattern_types",.list (x.patterns.map .str)),
 ("pattern_id",x.patternId),
 ("record_scope",x.scope),
 ("record_dataset",x.dataset)]

structure Valid (x : Note) : Prop where
 label : 1 ≤ x.label ∧ x.label ≤ nodeLabel.members.length
 patterns : ∀ p ∈ x.patterns, p ∈ designPattern.members.map Member.value

variable (x : Note)

lemma get?_label : x.attrs.get? "label" = some (.int x.label) := rfl

lemma get?_number : x.attrs.get? "graph_idx" = some (.int x.number) := rfl

lemma get?_patterns : x.attrs.get? "pattern_types" = some (.list (x.patterns.map .str)) := rfl

lemma get?_patternId : x.attrs.get? "pattern_id" = some x.patternId := rfl

lemma get?_scope : x.attrs.get? "record_scope" = some x.scope := rfl

lemma get?_dataset : x.attrs.get? "record_dataset" = some x.dataset := rfl

lemma nodup_attrs : x.attrs.keys.Nodup := nodup_ofList _

end Note

def noteOf (number : Int) (label : Member) (a : Attrs) : Note where
 label := nodeLabel.position label
 number := number
 patterns := patternsOf a
 patternId := a.getD "node_patternId" .none
 scope := a.getD "node_scopedRecordName" (.str "None")
 dataset := a.getD "node_dataset" (.str "None")

lemma keptAttrs_eq (number : Int) (label : Member) (a : Attrs) :
 keptAttrs number label a = (noteOf number label a).attrs :=
 rfl

lemma valid_noteOf {a : Attrs} {label : Member} (h : recordLabel? a = some label) (number : Int) :
 (noteOf number label a).Valid where
 label := by
  have hmem : label ∈ nodeLabel.members := mem_of_find?_eq_some h
  have hlt := idxOf_lt_length_of_mem hmem
  simp only [noteOf,Catalog.position]
  omega
 patterns := by
  intro p hp
  obtain ⟨m,hm,rfl⟩ := mem_map.1 hp
  exact mem_map_of_mem (mem_of_mem_filter hm)

def noteFor (number : Int) (e : NodeId × Attrs) : Option Note :=
 (recordLabel? e.2).map fun l => noteOf number l e.2

def noted (notes : List Note) : List (NodeId × Attrs) :=
 notes.zipIdx.map fun x => (.num (x.2 + 1),x.1.attrs)

structure Tallied (c : Collection) (notes : List Note) : Prop where
 sound : c.graph.Sound
 directed : c.graph.directed = true
 single : c.graph.multi = false
 nodes : c.graph.nodes.entries = noted notes
 valid : ∀ x ∈ notes, x.Valid
 names : ∀ s k, c.names.get? s = some k → .num k ∈ c.graph.ids
 anchors : ∀ number k, c.anchors.get? number = some k → ∃ (i : Nat) (x : Note), notes[i]? = some x ∧
  x.number = number ∧ k = i + 1
 anchorKeys : c.anchors.keys.Nodup

section
variable {c : Collection} {notes : List Note} {number : Int} {anchor : NodeId}

lemma noted_concat (notes : List Note) (x : Note) :
 noted (notes ++ [x]) = noted notes ++ [(.num (notes.length + 1),x.attrs)] := by
 simp [noted,zipIdx_append]

section
variable (h : Tallied c notes)
include h

lemma Tallied.size : c.graph.size = notes.length := by
 rw [Graph.size,Table.size,h.nodes,noted,length_map,length_zipIdx]

lemma Tallied.ids : c.graph.ids = (List.range notes.length).map fun i => .num (i + 1) := by
 rw [Graph.ids,Table.keys,h.nodes,noted,map_map,range_eq_range',← zipIdx_map_snd 0 notes,map_map]
 rfl

lemma Tallied.mem_ids {n : NodeId} : n ∈ c.graph.ids ↔ ∃ i < notes.length, n = .num (i + 1) := by
 rw [h.ids]
 simp [eq_comm]

lemma Tallied.attrs? {i : Nat} {x : Note} (hi : notes[i]? = some x) :
 c.graph.attrs? (.num (i + 1)) = some x.attrs := by
 refine get?_of_mem h.sound.ids ?_
 rw [h.nodes]
 exact mem_map.2 ⟨(x,i),mk_mem_zipIdx_iff_getElem?.2 hi,rfl⟩

end

lemma tallied_start : Tallied .start [] where
 sound := ⟨nodup_nil,by simp [Collection.start,Graph.empty,Table.empty],by simp [Collection.start,Graph.empty],
  by simp [Collection.start,Graph.empty],fun _ => .nil⟩
 directed := rfl
 single := rfl
 nodes := rfl
 valid := by simp
 names _ _ h := by cases h
 anchors _ _ h := by cases h
 anchorKeys := nodup_nil

lemma Tallied.addNode (h : Tallied c notes) (number : Int) (anchor : NodeId) (e : NodeId × Attrs) :
 Tallied (addNode number anchor c e) (notes ++ (noteFor number e).toList) := by
 cases hlab : recordLabel? e.2 with
 | none =>
  rw [Import.addNode,noteFor,hlab,Option.map_none,Option.toList_none,append_nil]
  exact h
 | some label =>
  have hfre : .num (notes.length + 1) ∉ c.graph.ids := by
   rw [h.mem_ids]
   rintro ⟨i,hi,heq⟩
   have := NodeId.num.inj heq
   omega
  have hids : ∀ n, n ∈ (c.graph.addNode (.num (notes.length + 1)) (keptAttrs number label e.2)).ids ↔
   n ∈ c.graph.ids ∨ n = .num (notes.length + 1) := fun n => mem_keys_put
  rw [Import.addNode,noteFor,hlab,Option.map_some,Option.toList_some]
  simp only [h.size]
  refine ⟨h.sound.addNode _ _,h.directed,h.single,?_,?_,?_,?_,?_⟩
  · rw [keptAttrs_eq,nodes_addNode_of_not_mem hfre (Note.nodup_attrs _),h.nodes,noted_concat]
  · intro x hx
    rcases mem_append.1 hx with hx | hx
    · exact h.valid x hx
    · rw [mem_singleton.1 hx]
      exact valid_noteOf hlab number
  · intro s k hk
    rw [hids]
    rw [get?_put] at hk
    split at hk
    · exact .inr (by rw [← Option.some.inj hk])
    · exact .inl (h.names s k hk)
  · intro m k hk
    have hold : c.anchors.get? m = some k → ∃ (i : Nat) (x : Note),
     (notes ++ [noteOf number label e.2])[i]? = some x ∧ x.number = m ∧ k = i + 1 := by
     intro hget
     obtain ⟨i,x,hx,hnum,hpla⟩ := h.anchors m k hget
     exact ⟨i,x,getElem?_append_left (lt_length hx) ▸ hx,hnum,hpla⟩
    split at hk
    · rw [get?_put] at hk
      split at hk
      · next hm =>
        exact ⟨notes.length,noteOf number label e.2,by simp,hm.symm,by rw [← Option.some.inj hk]⟩
      · exact hold hk
    · exact hold hk
  · split
    · exact nodup_put h.anchorKeys _ _
    · exact h.anchorKeys

lemma Tallied.addEdge (h : Tallied c notes) (number : Int) (e : Edge) :
 Tallied (addEdge number c e) notes := by
 rw [Import.addEdge]
 split
 · next u v hu hv =>
   have hs := h.names _ u hu
   have ht := h.names _ v hv
   have hlis : c.graph.addEdge (.num u) (.num v) .empty =
    c.graph.addListed ⟨.num u,.num v,.none,.empty⟩ := by
    rw [addListed,h.single]
    rfl
   have hpla := addListed_of_mem (e := ⟨.num u,.num v,.none,.empty⟩) h.single hs ht
   have hsou := h.sound.addListed (e := ⟨.num u,.num v,.none,.empty⟩) hs ht nodup_nil
   rw [hlis]
   rw [hpla] at hsou ⊢
   exact ⟨hsou,h.directed ▸ directed_place _ _,h.single ▸ multi_place _ _,
    h.nodes ▸ congrArg entries (nodes_place _ _),
    h.valid,fun s k hk => by rw [Graph.ids,nodes_place]; exact h.names s k hk,h.anchors,h.anchorKeys⟩
 · exact h

lemma Tallied.add (h : Tallied c notes) (source : Graph) (anchor : NodeId) (number : Int) :
 ∃ notes', Tallied (c.add source anchor number) notes' := by
 have hnod : ∀ (es : List (NodeId × Attrs)) (c : Collection) (notes : List Note), Tallied c notes →
  ∃ notes', Tallied (es.foldl (Import.addNode number anchor) c) notes' := by
  intro es
  induction es with
  | nil => exact fun c notes h => ⟨notes,h⟩
  | cons e es ih => exact fun c notes h => ih _ _ (h.addNode number anchor e)
 have hedg : ∀ (es : List Edge) (c : Collection) (notes : List Note), Tallied c notes →
  Tallied (es.foldl (Import.addEdge number) c) notes := by
  intro es
  induction es with
  | nil => exact fun c notes h => h
  | cons e es ih => exact fun c notes h => ih _ notes (h.addEdge number e)
 obtain ⟨notes',h'⟩ := hnod source.nodes.entries c notes h
 exact ⟨notes',hedg source.edgeList _ notes' h'⟩

lemma collected_tallied (calls : List Call) : ∃ notes, Tallied (collected calls) notes := by
 have hrun : ∀ (calls : List Call) (c : Collection) (notes : List Note), Tallied c notes →
  ∃ notes', Tallied (calls.foldl (fun c k => c.add k.source k.anchor k.number) c) notes' := by
  intro calls
  induction calls with
  | nil => exact fun c notes h => ⟨notes,h⟩
  | cons k calls ih =>
   intro c notes h
   obtain ⟨notes',h'⟩ := h.add k.source k.anchor k.number
   exact ih _ notes' h'
 exact hrun calls .start [] tallied_start

end
end MotifMatch.Import

namespace MotifMatch.Text
open List String

structure Neat (s : String) : Prop where
 ne_empty : s ≠ ""
 unbroken : '\n' ∉ s.toList ∧ '\r' ∉ s.toList
 stripped : stripString s = s

lemma neat_iff {s : String} : Neat s ↔ s ≠ "" ∧ ('\n' ∉ s.toList ∧ '\r' ∉ s.toList) ∧
 stripString s = s :=
 ⟨fun h => ⟨h.ne_empty,h.unbroken,h.stripped⟩,fun h => ⟨h.1,h.2.1,h.2.2⟩⟩

instance (s : String) : Decidable (Neat s) := decidable_of_iff' _ neat_iff

variable {s : String} {ls : List String}

lemma eq_of_dropWhile {p : Char → Bool} {cs : List Char} (h : cs.dropWhile p = cs) {c : Char}
 (hc : cs.head? = some c) :
 p c = false := by
 obtain ⟨rest,rfl⟩ := head?_eq_some_iff.1 hc
 refine Bool.eq_false_iff.2 fun hp => ?_
 have hlen := (dropWhile_sublist p (l := rest)).length_le
 rw [dropWhile_cons_of_pos hp] at h
 rw [h,length_cons] at hlen
 omega

lemma Neat.strip_eq (h : Neat s) : strip s.toList = s.toList := by
 rw [← String.toList_ofList (l := strip s.toList)]
 exact congrArg toList h.stripped

lemma Neat.ends (h : Neat s) : ∃ c cs d, s.toList = c :: cs ∧ isBlank c = false ∧
 s.toList.getLast? = some d ∧ isBlank d = false := by
 have hstr := h.strip_eq
 obtain ⟨c,cs,hcs⟩ := exists_cons_of_ne_nil (mt toList_eq_nil_iff.1 h.ne_empty)
 obtain ⟨d,hd⟩ : ∃ d, s.toList.getLast? = some d := ⟨_,getLast?_eq_some_getLast (by simp [hcs])⟩
 -- stripping drops at most what is dropped in front
 have hfro : s.toList.dropWhile isBlank = s.toList := by
  refine (dropWhile_sublist isBlank).eq_of_length_le ?_
  have hle := (dropWhile_sublist isBlank (l := (s.toList.dropWhile isBlank).reverse)).length_le
  have hlen := congrArg List.length hstr
  rw [strip,length_reverse] at hlen
  rw [length_reverse] at hle
  omega
 have hback : s.toList.reverse.dropWhile isBlank = s.toList.reverse := by
  rw [strip,hfro] at hstr
  rw [← reverse_reverse (s.toList.reverse.dropWhile isBlank),hstr]
 exact ⟨c,cs,d,hcs,eq_of_dropWhile hfro (by rw [hcs]; rfl),hd,
  eq_of_dropWhile hback (by rw [head?_reverse,hd])⟩

lemma Neat.between {t m : String} (hs : Neat s) (ht : Neat t)
 (hm : '\n' ∉ m.toList ∧ '\r' ∉ m.toList) : Neat (s ++ m ++ t) := by
 obtain ⟨c,cs,_,hcs,hc,_⟩ := hs.ends
 obtain ⟨_,_,d,_,_,hd,hbla⟩ := ht.ends
 have hlist : (s ++ m ++ t).toList = c :: (cs ++ m.toList ++ t.toList) := by simp [hcs]
 have hlast : (c :: (cs ++ m.toList ++ t.toList)).getLast? = some d := by
  rw [← hlist,toList_append,getLast?_append,hd]
  rfl
 refine ⟨fun hemp => ?_,by simp [hs.unbroken,ht.unbroken,hm],?_⟩
 · rw [hemp] at hlist
   cases hlist
 · rw [stripString,hlist,strip_of_ends hc hbla hlast,← hlist,ofList_toList]

lemma Plain.neat (h : Plain s) : Neat s where
 ne_empty hemp := h.ne_nil (by rw [hemp]; rfl)
 unbroken := ⟨h.not_mem (by decide),h.not_mem (by decide)⟩
 stripped := by rw [stripString,h.strip_eq,ofList_toList]

lemma ended_eq (hne : ls ≠ []) : (ended ls).toList = ("\n".intercalate ls).toList ++ ['\n'] := by
 induction ls with
 | nil => exact absurd rfl hne
 | cons l ls ih =>
  have hcons : (ended (l :: ls)).toList = l.toList ++ '\n' :: (ended ls).toList := by
   simp [ended,toList_join]
  by_cases hls : ls = []
  · subst hls
    rw [hcons,String.intercalate_singleton]
    rfl
  · rw [hcons,ih hls,intercalate_cons_of_ne_nil hls]
    simp

lemma intercalate_ends (hne : ls ≠ []) (h : ∀ l ∈ ls, Neat l) :
 ∃ c cs d, ("\n".intercalate ls).toList = c :: cs ∧
 isBlank c = false ∧ ("\n".intercalate ls).toList.getLast? = some d ∧ isBlank d = false := by
 induction ls with
 | nil => exact absurd rfl hne
 | cons l ls ih =>
  obtain ⟨c,cs,d,hcs,hc,hd,hbla⟩ := (h l (by simp)).ends
  by_cases hls : ls = []
  · subst hls
    rw [String.intercalate_singleton]
    exact ⟨c,cs,d,hcs,hc,hd,hbla⟩
  · obtain ⟨_,_,d',_,_,hd',hbla'⟩ := ih hls fun x hx => h x (by simp [hx])
    rw [intercalate_cons_of_ne_nil hls]
    refine ⟨c,cs ++ "\n".toList ++ ("\n".intercalate ls).toList,d',?_,hc,?_,hbla'⟩
    · simp [hcs]
    · rw [toList_append,getLast?_append,hd']
      rfl

def readLines (text : String) : List String :=
 splitOn '\n' (stripString (ofList (unifyNewlines text.toList)))

lemma readLines_ended (hne : ls ≠ []) (h : ∀ l ∈ ls, Neat l) : readLines (ended ls) = ls := by
 obtain ⟨c,cs,d,hcs,hc,hd,hbla⟩ := intercalate_ends hne h
 have hret : '\r' ∉ (ended ls).toList := by
  rw [Listing.mem_ended]
  rintro ⟨l,hl,hmem | hmem⟩
  · exact (h l hl).unbroken.2 hmem
  · exact absurd hmem (by decide)
 have hstr : strip (ended ls).toList = ("\n".intercalate ls).toList := by
  obtain ⟨ds,hds⟩ := getLast?_eq_some_iff.1 hd
  rw [ended_eq hne,strip,hcs,cons_append,dropWhile_cons_of_neg (by simp [hc]),← cons_append,← hcs,hds]
  simp only [reverse_append,reverse_singleton,singleton_append]
  rw [dropWhile_cons_of_pos (by decide),dropWhile_cons_of_neg (by simp [hbla])]
  simp
 rw [readLines,unifyNewlines_of_not_mem hret,stripString,toList_ofList,hstr,ofList_toList]
 exact splitOn_intercalate hne fun l hl => (h l hl).unbroken.1

lemma readLines_empty : readLines (ended []) = [""] := by decide

end MotifMatch.Text

namespace MotifMatch.Import
open List Run Entry MotifMatch.Path Text Corpus
variable {σ₀ σ : Session} {d : List String} {es : List (String × Entry)} {place name : String}

lemma ends_writeRows (h : Shelved σ₀ σ d es) (hpla : σ₀.files.resolve place = .ok d)
 (hnam : FileName name)
 (ls : List String) : ∃ σ', Ends (writeRows (join place name) (ls.map .ok)) σ (.ok ()) σ' ∧
  Shelved σ₀ σ' d (Entry.setChild name (.text (Text.ended ls)) es) := by
 obtain ⟨σ',hends,_,hshe⟩ := h.writeText hpla hnam (ended ls)
 have hall : ∀ p : Except Error String → Bool, (∀ s, p (.ok s) = true) → (ls.map .ok).takeWhile p =
  ls.map .ok :=
  fun p hp => takeWhile_eq_self_iff.2 (by simpa using fun s _ => hp s)
 refine ⟨σ',?_,hshe⟩
 rw [writeRows,hall _ fun _ => rfl,drop_length,map_map]
 exact hends.bind (ends_pure () σ')

def writeAll (place name : String) (files : List (String × List String)) : Run Unit :=
 files.forM fun x => writeRows (join place (name ++ x.1)) (x.2.map .ok)

lemma ends_writeAll (h : Shelved σ₀ σ d es) (hpla : σ₀.files.resolve place = .ok d)
 (hnam : FileName name)
 {files : List (String × List String)} (hfil : ∀ m ∈ files.map Prod.fst, '/' ∉ m.toList)
 (hnod : (files.map Prod.fst).Nodup) :
 ∃ σ' es', Ends (writeAll place name files) σ (.ok ()) σ' ∧ Shelved σ₀ σ' d es' ∧
  (∀ x ∈ files, (folder es').child? (name ++ x.1) = some (.text (ended x.2))) ∧
  ∀ m, (∀ x ∈ files, m ≠ name ++ x.1) → (folder es').child? m = (folder es).child? m := by
 induction files generalizing σ es with
 | nil => exact ⟨σ,es,ends_pure () σ,h,by simp,fun _ _ => rfl⟩
 | cons x files ih =>
  rw [map_cons,nodup_cons] at hnod
  obtain ⟨σ₁,hend₁,h₁⟩ := ends_writeRows h hpla (hnam.append (hfil x.1 (by simp))) x.2
  obtain ⟨σ₂,es₂,hend₂,h₂,hwri,hoth⟩ := ih h₁ (fun m hm => hfil m (mem_cons_of_mem _ hm)) hnod.2
  refine ⟨σ₂,es₂,hend₁.bind hend₂,h₂,fun y hy => ?_,fun m hm => ?_⟩
  · rcases mem_cons.1 hy with rfl | hy
    · rw [hoth,child?_setChild,if_pos rfl]
      intro z hz heq
      exact hnod.1 (String.append_right_inj name |>.mp heq ▸ mem_map_of_mem hz)
    · exact hwri y hy
  · rw [hoth m fun y hy => hm y (by simp [hy]),child?_setChild,if_neg (hm x (by simp))]

def Note.shownScope (x : Note) : String := (PatternId.encode x.scope x.patternId).text

def patternLines (notes : List Note) : List String :=
 notes.zipIdx.flatMap fun x => x.1.patterns.map fun p => toString (x.2 + 1 : Int) ++ " " ++ p

def archive (c : Collection) (notes : List Note) : List (String × List String) := [
 (".node_labels",notes.map fun x => toString x.label),
 (".edges",c.graph.edgeList.map fun e => e.source.text ++ ", " ++ e.target.text),
 (".graph_idx",notes.map fun x => toString x.number),
 (".node_id_mapping",c.names.entries.map fun e => toString e.2 ++ " " ++ e.1),
 (".anchors",c.anchors.entries.map fun e => toString e.1 ++ " " ++ toString e.2),
 (".record_scopes",notes.map Note.shownScope),
 (".record_datasets",notes.map fun x => x.dataset.text),
 (".pattern_types",patternLines notes)]

variable {c : Collection} {notes : List Note} {raw : String} {r : List String}
 {x : String × List String}

def archiveEndings : List String :=
 [".node_labels",".edges",".graph_idx",".node_id_mapping",".anchors",".record_scopes",
 ".record_datasets",".pattern_types"]

lemma archive_endings (c : Collection) (notes : List Note) :
 (archive c notes).map Prod.fst = archiveEndings := rfl

lemma Tallied.values (h : Tallied c notes) : c.graph.nodes.values = notes.map Note.attrs := by
 rw [Table.values,h.nodes,noted,map_map]
 conv_rhs => rw [← zipIdx_map_fst 0 notes,map_map]
 rfl

lemma patternRows_eq (h : Tallied c notes) :
 c.graph.nodes.entries.flatMap patternRows = (patternLines notes).map .ok := by
 have hrow : ∀ x : Note × Nat, patternRows (.num (x.2 + 1),x.1.attrs) =
  (x.1.patterns.map fun p => toString (x.2 + 1 : Int) ++ " " ++ p).map .ok := by
  intro x
  rw [patternRows,show attr x.1.attrs "pattern_types" = .ok (.list (x.1.patterns.map .str)) from rfl]
  simp only [map_map]
  rfl
 rw [h.nodes,noted,flatMap_map,patternLines,map_flatMap]
 exact flatMap_congr fun x _ => hrow x

lemma write_eq (h : Tallied c notes) : c.write = (do
 let dataset ← settingText "dataset"
 let folder ← outputFolder dataset
 writeAll folder dataset (archive c notes)) := by
 have hrows : ∀ (name : String) (f : Note → String),
  (∀ x : Note, (do return (← attr x.attrs name).text) = .ok (f x)) →
  (c.graph.nodes.values.map fun a => do return (← attr a name).text) = (notes.map f).map .ok := by
  intro name f hf
  rw [h.values,map_map,map_map]
  exact map_congr_left fun x _ => hf x
 have hsco : c.graph.nodes.values.map scopeRow = (notes.map Note.shownScope).map .ok := by
  rw [h.values,map_map,map_map]
  rfl
 rw [Collection.write,writeFiles]
 simp only [hrows "label" (fun x => toString x.label) fun x =>
  congrArg Except.ok (Value.text_int x.label),
  hrows "graph_idx" (fun x => toString x.number) fun x =>
   congrArg Except.ok (Value.text_int x.number),
  hrows "record_dataset" (fun x => x.dataset.text) fun _ => rfl,hsco,patternRows_eq h,
   writeAll,archive]
 simp only [forM_eq_forM,forM_cons,forM_nil,bind_pure_unit,map_map]
 rfl

lemma outputFolder_eq (dataset : String) : outputFolder dataset = (do
 let raw ← settingText "raw_dataset_dir"
 ensurePath (ofProject (join raw dataset))
 return ofProject (join raw dataset)) := by
 refine bind_congr fun raw => ?_
 rw [ensurePath,bind_assoc]
 refine bind_congr fun b => ?_
 cases b with
 | true => simp
 | false => rfl

structure Archived (σ : Session) (raw name : String) (r : List String) (c : Collection)
 (notes : List Note) : Prop where
 leads : σ.files.resolve (ofProject raw) = .ok r
 named : FileName name
 files : ∀ x ∈ archive c notes, σ.files.find (r ++ [name,name ++ x.1]) = .ok (.text (ended x.2))

lemma ends_write (h : Tallied c notes) (hdat : σ.settings.get "dataset" = .ok (.str name))
 (hraw : σ.settings.get "raw_dataset_dir" = .ok (.str raw)) (hroom : Room σ (ofProject raw) name r)
 (hnam : FileName name) : ∃ σ' es, Ends c.write σ (.ok ()) σ' ∧ Shelved σ σ' (r ++ [name]) es ∧
  Archived σ' raw name r c notes := by
 obtain ⟨ps,hps,_⟩ := resolve_eq_ok.1 hroom.leads
 have hlea := resolve_ofProject_join hroom.leads hnam
 obtain ⟨σ₁,es₁,hend₁,_,h₁⟩ := hroom.ends_ensure hlea (fromRoot?_ofProject_join hnam hps).2
 have hfol : Ends (outputFolder name) σ (.ok (ofProject (join raw name))) σ₁ := by
  rw [outputFolder_eq]
  exact (ends_settingText hraw).bind (hend₁.bind (ends_pure _ σ₁))
 have hfil : ∀ m ∈ (archive c notes).map Prod.fst, '/' ∉ m.toList := by
  rw [archive_endings]
  decide
 obtain ⟨σ₂,es₂,hend₂,h₂,hwri,_⟩ := ends_writeAll h₁ hlea hnam hfil (by rw [archive_endings]; decide)
 refine ⟨σ₂,es₂,?_,h₂,h₂.keeps.resolve hroom.leads,hnam,fun x hx => ?_⟩
 · rw [write_eq h]
   exact (ends_settingText hdat).bind (hfol.bind hend₂)
 · rw [show r ++ [name,name ++ x.1] = r ++ [name] ++
    [name ++ x.1] by simp,find_concat h₂.found,hwri x hx]

lemma Archived.fileName (h : Archived σ raw name r c notes) (hx : x ∈ archive c notes) :
 FileName (name ++ x.1) := by
 have hend : ∀ m ∈ archiveEndings, '/' ∉ m.toList := by decide
 exact h.named.append (hend _ (archive_endings c notes ▸ mem_map_of_mem hx))

def received (text : String) : String := String.ofList (unifyNewlines text.toList)

lemma Archived.ends_readText (h : Archived σ raw name r c notes) (hx : x ∈ archive c notes) :
 Ends (readText (join (ofProject (join raw name)) (name ++ x.1))) σ
  (.ok (received (ended x.2))) σ := by
 have hlea := resolve_join (resolve_ofProject_join h.leads h.named) (h.fileName hx)
 rw [append_assoc] at hlea
 exact Run.ends_readText (lookup_of_find hlea (h.files x hx)
  (Path.namesFolder_join _ (h.fileName hx)))

lemma Archived.ends_companion (h : Archived σ raw name r c notes)
 (hdat : σ.settings.get "dataset" = .ok (.str name))
 (hraw : σ.settings.get "raw_dataset_dir" = .ok (.str raw)) (hx : x ∈ archive c notes) :
 Run.Ends (Annotations.companion x.1) σ (.ok (Text.readLines (Text.ended x.2))) σ := by
 obtain ⟨ps,hps,_⟩ := resolve_eq_ok.1 h.leads
 have hfol := (fromRoot?_ofProject_join (h.fileName hx) (fromRoot?_ofProject_join h.named hps).1).2
 have hlea := resolve_ofProject_join (resolve_ofProject_join h.leads h.named) (h.fileName hx)
 rw [append_assoc] at hlea
 have hread := Run.ends_readText (lookup_of_find hlea (h.files x hx) hfol)
 exact (ends_settingText hdat).bind ((ends_settingText hraw).bind (hread.bind (ends_pure _ σ)))

end MotifMatch.Import

namespace MotifMatch.Table
variable {κ ν : Type} [BEq κ] [LawfulBEq κ]

lemma get?_ofList_getLast (kvs : List (κ × ν)) (k : κ) :
 (ofList kvs).get? k = ((kvs.filter fun e => e.1 == k).map Prod.snd).getLast? := by
 rw [ofList,get?_putAll,get?,List.getLast?_map]
 simp only [← List.head?_filter,List.filter_reverse,List.head?_reverse]
 cases (kvs.filter fun e => e.1 == k).getLast? <;> rfl

end MotifMatch.Table

namespace MotifMatch.Import
open List Text Annotations Table Run Function PatternId Note

lemma flatMap_zipIdx {α β : Type} (f : α → List β) (l : List α) (n i : Nat) :
 ((l.zipIdx n).flatMap fun x => if x.2 = n + i then f x.1 else []) = (l[i]?.map f).getD [] := by
 induction l generalizing n i with
 | nil => rfl
 | cons a l ih =>
  rw [zipIdx_cons,flatMap_cons]
  cases i with
  | zero =>
   have hres : (l.zipIdx (n + 1)).flatMap (fun x => if x.2 = n + 0 then f x.1 else []) = [] := by
    refine flatMap_eq_nil_iff.2 fun x hx => if_neg ?_
    have := le_snd_of_mem_zipIdx hx
    omega
   rw [hres,append_nil]
   exact if_pos rfl
  | succ i =>
   rw [if_neg (by omega),nil_append,show n + (i + 1) = n + 1 + i by omega,ih]
   rfl

def filed {α : Type} (f : α → List String) (l : List α) : List (String × String) :=
 l.zipIdx.flatMap fun x => (f x.1).map fun s => (toString (x.2 + 1 : Int),s)

lemma get?_filed {α : Type} (f : α → List String) (l : List α) (i : Nat) :
 (ofList (filed f l)).get? (toString (i + 1 : Int)) = ((l[i]?.map f).getD []).getLast? := by
 have hfil : ∀ x : α × Nat, ((f x.1).map fun s => (toString (x.2 + 1 : Int),s)).filter
  (fun e => e.1 == toString (i + 1 : Int)) =
  if x.2 = 0 + i then (f x.1).map fun s => (toString (i + 1 : Int),s) else [] := by
  intro x
  split
  · next hx =>
    rw [filter_eq_self.2,hx,Nat.zero_add]
    simp [hx]
  · next hx =>
    refine filter_eq_nil_iff.2 fun e he => ?_
    obtain ⟨s,_,rfl⟩ := mem_map.1 he
    rw [beq_iff_eq]
    intro heq
    have := toString_inj heq
    omega
 rw [get?_ofList_getLast,filed,filter_flatMap]
 simp only [hfil]
 rw [flatMap_zipIdx (fun a => (f a).map fun s => (toString (i + 1 : Int),s))]
 cases l[i]? with
 | none => rfl
 | some a => simp [comp_def]

lemma numberRows_eq (ls : List String) (n : Nat) : numberRows (n + 1) ls =
 (ls.zipIdx n).flatMap fun x => [x.1].map fun s => (toString (x.2 + 1 : Int),s) := by
 induction ls generalizing n with
 | nil => rfl
 | cons l ls ih =>
  rw [numberRows,ih,zipIdx_cons,flatMap_cons]
  rfl

lemma patternRow_eq (t : Table String String) (i : Int) {p : String} (hp : ' ' ∉ p.toList) :
 patternRow t (toString i ++ " " ++ p) = .ok (t.put (toString i) p) := by
 rw [patternRow,splitOn_pair (by rfl) ((plain_int i).not_mem (by decide)) hp]
 simp only [Listing.number_toString,bind,Except.bind]
 rfl

lemma foldlM_patternRow {xs : List (Int × String)} (h : ∀ x ∈ xs, ' ' ∉ x.2.toList)
 (t : Table String String) :
 (xs.map fun x => toString x.1 ++ " " ++ x.2).foldlM patternRow t =
  .ok (t.putAll (xs.map fun x => (toString x.1,x.2))) := by
 rw [foldlM_map,foldlM_eq_ok fun t x hx => patternRow_eq t x.1 (h x hx),putAll,foldl_map]

section
variable {σ : Session} {raw name : String} {r : List String} {c : Collection} {notes : List Note}

structure Note.Lined (x : Note) : Prop where
 scope : ∃ s, x.scope = .str s ∧ Neat s
 patternId : x.patternId = .none ∨ ∃ s, x.patternId = .str s ∧ Neat s
 dataset : ∃ s, x.dataset = .str s ∧ Neat s

lemma encode_str (s : String) (pid : Value) : encode (.str s) pid = .str s ∨
 encode (.str s) pid = .str (s ++ "#" ++ pid.text) ∧ pid ≠ .none := by
 unfold encode
 split
 · next heq => cases heq
 · exact .inl rfl
 · exact .inl rfl
 · exact .inr ⟨rfl,by assumption⟩

lemma Note.Lined.neat_scope {x : Note} (h : x.Lined) : Neat x.shownScope := by
 obtain ⟨s,hs,hneat⟩ := h.scope
 rw [shownScope,hs]
 rcases encode_str s x.patternId with heq | ⟨heq,hne⟩
 · rw [heq]
   exact hneat
 · obtain ⟨p,hp,hpne⟩ := h.patternId.resolve_left hne
   rw [heq,hp]
   exact hneat.between hpne (by decide)

lemma Note.Lined.neat_dataset {x : Note} (h : x.Lined) : Neat x.dataset.text := by
 obtain ⟨s,hs,hneat⟩ := h.dataset
 rw [hs]
 exact hneat

lemma Note.Valid.patterns_plain {x : Note} (h : x.Valid) : ∀ p ∈ x.patterns, Plain p := by
 have hall : ∀ p ∈ Catalog.designPattern.members.map Member.value, Plain p := by decide
 exact fun p hp => hall p (h.patterns p hp)

variable (h : Archived σ raw name r c notes) (hdata : σ.settings.get "dataset" = .ok (.str name))
 (hraw : σ.settings.get "raw_dataset_dir" = .ok (.str raw))
include h hdata hraw

lemma Archived.ends_perNode (hne : notes ≠ []) {ending : String} {f : Note → String}
 (hfile : (ending,notes.map f) ∈ archive c notes) (hf : ∀ x ∈ notes, Neat (f x)) :
 ∃ t, Ends (perNode ending) σ (.ok t) σ ∧
  ∀ (i : Nat) (x : Note), notes[i]? = some x → t.get? (toString (i + 1 : Int)) = some (f x) := by
 refine ⟨_,(h.ends_companion hdata hraw hfile).bind (ends_pure _ σ),fun i x hx => ?_⟩
 have hlin : readLines (ended (notes.map f)) = notes.map f := by
  refine readLines_ended (by simpa using hne) fun l hl => ?_
  obtain ⟨x,hx,rfl⟩ := mem_map.1 hl
  exact hf x hx
 have hget := get?_filed (fun s => [s]) (notes.map f) i
 rw [filed,← numberRows_eq,getElem?_map,hx] at hget
 rw [hlin]
 exact hget

lemma Archived.ends_designPatterns (hval : ∀ x ∈ notes, x.Valid) :
 ∃ t, Ends designPatterns σ (.ok t) σ ∧
 ∀ (i : Nat) (x : Note), notes[i]? = some x → t.get? (toString (i + 1 : Int)) =
  x.patterns.getLast? := by
 let pairs : List (Int × String) :=
  notes.zipIdx.flatMap fun x => x.1.patterns.map fun p => (x.2 + 1,p)
 have hpla : ∀ x ∈ pairs, Plain x.2 := by
  intro x hx
  obtain ⟨y,hy,hx⟩ := mem_flatMap.1 hx
  obtain ⟨p,hp,rfl⟩ := mem_map.1 hx
  exact (hval y.1 (fst_mem_of_mem_zipIdx hy)).patterns_plain p hp
 have hlin : patternLines notes = pairs.map fun x => toString x.1 ++ " " ++ x.2 := by
  rw [patternLines,map_flatMap]
  simp only [map_map,comp_def]
 have hfil : pairs.map (fun x => (toString x.1,x.2)) = filed patterns notes := by
  rw [filed,map_flatMap]
  simp only [map_map,comp_def]
 have hfold : (readLines (ended (patternLines notes))).foldlM patternRow .empty =
  .ok (ofList (filed patterns notes)) := by
  by_cases hemp : pairs = []
  · rw [hlin,← hfil,hemp,map_nil,readLines_empty]
    rfl
  · rw [readLines_ended (by simpa [hlin] using hemp),hlin,foldlM_patternRow,hfil]
    · rfl
    · exact fun x hx => (hpla x hx).not_mem (by decide)
    · intro l hl
      rw [hlin] at hl
      obtain ⟨x,hx,rfl⟩ := mem_map.1 hl
      exact (plain_int x.1).neat.between (hpla x hx).neat (by decide)
 refine ⟨_,(h.ends_companion hdata hraw (x :=
  (".pattern_types",patternLines notes)) (by simp [archive])).bind
  (ends_ofExcept_ok hfold),fun i x hx => ?_⟩
 rw [get?_filed,hx]
 rfl

end
end MotifMatch.Import
