import MotifMatch.Corpus.Write
import MotifMatch.Proofs.Copies
import MotifMatch.Proofs.Sessions

namespace MotifMatch
open List MotifMatch.Graph Run Entry
open MotifMatch.Graph (idNumber labelNumber nodeAttr? contents ids)
variable {α : Type}

lemma Stream.swap_perm (xs : Array α) (i j : Nat) : (xs.swapIfInBounds i j).Perm xs := by
 rw [Array.swapIfInBounds_def]
 split
 · split
   · exact Array.swap_perm _ _
   · exact .refl xs
 · exact .refl xs

lemma Stream.shuffleArray_perm (n : Nat) (xs : Array α) (s : Stream) :
 (shuffleArray n xs s).1.Perm xs := by
 induction n generalizing xs s with
 | zero => exact .refl xs
 | succ n ih => exact (ih _ _).trans (swap_perm xs _ _)

lemma Stream.shuffle_perm (xs : List α) (s : Stream) : (s.shuffle xs).1.Perm xs :=
 (shuffleArray_perm (xs.length - 1) xs.toArray s).toList

namespace Corpus
open Listing (rowText headRow pairRow edgeRow)

def lined (xs : List (Bool × List String)) : List Line := xs.map fun x => ⟨x.1,.ok (rowText x.2)⟩

def rowsFor (b : Bool) (xs : List (Bool × List String)) : List (List String) :=
 (xs.filter fun x => x.1 == b).map Prod.snd

lemma rowsFor_append (b : Bool) (xs ys : List (Bool × List String)) :
 rowsFor b (xs ++ ys) = rowsFor b xs ++ rowsFor b ys := by
 rw [rowsFor,filter_append,map_append]
 rfl

lemma rowsFor_map_self (b : Bool) (f : α → List String) (xs : List α) :
 rowsFor b (xs.map fun x => (b,f x)) = xs.map f := by
 induction xs with
 | nil => rfl
 | cons x xs ih => simp_all [rowsFor]

lemma rowsFor_map_of_ne {b c : Bool} (h : c ≠ b) (f : α → List String) (xs : List α) :
 rowsFor b (xs.map fun x => (c,f x)) = [] := by
 induction xs with
 | nil => rfl
 | cons x xs ih => simp_all [rowsFor]

lemma rowsFor_pairs (b : Bool) (f f' : α → List String) (keep : α → Bool) (xs : List α) :
 rowsFor b (xs.flatMap fun x => (false,f x) :: if keep x then [(true,f' x)] else []) =
  if b then (xs.filter keep).map f' else xs.map f := by
 induction xs with
 | nil => cases b <;> rfl
 | cons x xs ih =>
  rw [flatMap_cons,rowsFor_append,ih,filter_cons]
  cases b <;> cases keep x <;> rfl

lemma isWritten_lined (xs : List (Bool × List String)) : ∀ l ∈ lined xs, isWritten l := by
 intro l hl
 obtain ⟨x,_,rfl⟩ := mem_map.1 hl
 rfl

lemma written_lined (b : Bool) (xs : List (Bool × List String)) :
 written b (lined xs) = Text.ended ((rowsFor b xs).map rowText) := by
 have hall : (lined xs).takeWhile isWritten = lined xs := by
  induction xs with
  | nil => rfl
  | cons x xs ih => exact congrArg (cons _) ih
 rw [written,hall,Text.ended]
 congr 1
 induction xs with
 | nil => rfl
 | cons x xs ih =>
  have hres := ih (cons.inj hall).2
  by_cases hx : x.1 = b
  · simp_all [lined,rowsFor]
  · simp_all [lined,rowsFor]

lemma failure?_eq_none {ls : List Line} (h : ∀ l ∈ ls, isWritten l) : failure? ls = none := by
 have hfind : ls.find? (fun l => !isWritten l) = none := find?_eq_none.2 fun l hl => by simp [h l hl]
 rw [failure?,hfind]
 rfl

def outcome (ls : List Line) : Except Error Unit :=
 match failure? ls with
 | some e => .error e
 | none => .ok ()

lemma outcome_eq_ok {ls : List Line} (h : ∀ l ∈ ls, isWritten l) : outcome ls = .ok () := by
 rw [outcome,failure?_eq_none h]

structure Listable (g : Graph) : Prop where
 sound : g.Sound
 single : g.multi = false
 undirected : g.directed = false
 numbered : g.Numbered

section
variable {g : Graph} {n : NodeId} {order : List NodeId} {qs : List (Graph × List NodeId)}

lemma rowText_pair (i j : Int) : "v " ++ toString i ++ " " ++ toString j =
 rowText (pairRow (i,j)) := by
 rw [← String.toList_inj,rowText,pairRow]
 simp

lemma rowText_edge (i j l : Int) :
 "e " ++ toString i ++ " " ++ toString j ++ " " ++ toString l = rowText (edgeRow (i,j,l)) := by
 rw [← String.toList_inj,rowText,edgeRow]
 simp

lemma rowText_head (k : Int) : "t # " ++ toString k = rowText (headRow k) := by
 rw [← String.toList_inj,rowText,headRow]
 simp

lemma text_of_mem (hg : Listable g) (hn : n ∈ g.ids) : n.text = toString (idNumber n) := by
 rw [hg.numbered.id_eq hn]
 rfl

lemma nodeLine_eq (hg : Listable g) (hn : n ∈ g.ids) (i : Int) :
 nodeLine (toString i) ((g.attrs? n).getD .empty) =
  ⟨false,.ok (rowText (pairRow (i,labelNumber ((g.attrs? n).getD .empty))))⟩ := by
 have hlab := hg.numbered.label hn
 obtain ⟨a,ha⟩ := exists_attrs hn
 rw [nodeAttr?,ha,Option.bind_some,Option.getD_some] at hlab
 rw [ha,Option.getD_some,nodeLine,attrText,Option.bind_some,hlab,← rowText_pair,← Value.text_int]
 rfl

lemma edgeLine_eq (hg : Listable g) {e : Edge} (he : e ∈ g.edgeList) (i j : Int) :
 edgeLine (toString i) (toString j) e.attrs =
  ⟨false,.ok (rowText (edgeRow (i,j,labelNumber e.attrs)))⟩ := by
 obtain ⟨f,hf,_,hatt⟩ := (exists_mem_edgeList_iff hg.sound).1
  ⟨e,he,joins_iff.2 (.inl ⟨rfl,rfl⟩),rfl⟩
 obtain ⟨l,hl⟩ := hg.numbered.edges f hf
 rw [hatt] at hl
 rw [edgeLine,attrText,Option.bind_some,hl,labelNumber_eq hl,← rowText_edge,← Value.text_int l]
 rfl

lemma lined_append (xs ys : List (Bool × List String)) : lined (xs ++ ys) = lined xs ++ lined ys :=
 map_append

lemma sourceLines_eq (hg : Listable g) (k a : Int) : sourceLines (.int k) (.int a) g =
 lined ((headRow k :: ["p","#",toString a] :: (g.contents idNumber g.ids).rows).map fun r =>
  (false,r)) := by
 have hnod : g.nodes.entries.map (fun e => nodeLine e.1.text e.2) =
  lined ((g.contents idNumber g.ids).nodes.map fun x => (false,pairRow x)) := by
  simp only [lined,contents,ids,Table.keys,map_map]
  refine map_congr_left fun e he => ?_
  have hmem : e.1 ∈ g.ids := mem_map_of_mem he
  have hatt : g.attrs? e.1 = some e.2 := Table.get?_of_mem hg.sound.ids he
  have hline := nodeLine_eq hg hmem (idNumber e.1)
  rw [hatt,Option.getD_some,← text_of_mem hg hmem] at hline
  simp only [Function.comp_apply,hatt,Option.getD_some,hline]
 have hedg : g.edgeList.map (fun e => edgeLine e.source.text e.target.text e.attrs) =
  lined ((g.contents idNumber g.ids).edges.map fun x => (false,edgeRow x)) := by
  simp only [lined,contents,map_map]
  refine map_congr_left fun e he => ?_
  obtain ⟨hs,ht,_⟩ := mem_edgeList_ends hg.sound he
  rw [text_of_mem hg hs,text_of_mem hg ht,edgeLine_eq hg he]
  rfl
 have hanc : "p # " ++ toString a = rowText ["p","#",toString a] := by
  rw [← String.toList_inj,rowText]
  simp
 rw [sourceLines,hnod,hedg,Value.text_int,Value.text_int,rowText_head,hanc,Listing.Contents.rows]
 simp only [map_cons,map_append,map_map,lined]
 rfl

def placeIn (order : List NodeId) (n : NodeId) : Int := order.idxOf n

def paired (foreign : Bool) (g : Graph) (n : NodeId) : Bool :=
 !foreign || match g.nodeAttr? n "modified" with
  | some v => !v.truthy
  | none => false

structure Fits (foreign : Bool) (g : Graph) : Prop where
 listable : Listable g
 noted : foreign = true → ∀ n ∈ g.ids, (g.nodeAttr? n "modified").isSome = true

abbrev Foreign (g : Graph) : Prop := Fits true g

lemma Listable.fits (hg : Listable g) : Fits false g := ⟨hg,fun h => by cases h⟩

def queryRows (foreign : Bool) (k : Nat) (g : Graph) (order : List NodeId) :
 List (Bool × List String) :=
 [(false,headRow k),(true,headRow k)] ++
  order.flatMap (fun n => (false,pairRow (placeIn order n,labelNumber ((g.attrs? n).getD .empty))) ::
   if paired foreign g n then [(true,pairRow (placeIn order n,idNumber n))] else []) ++
  (g.contents (placeIn order) order).edges.map fun x => (false,edgeRow x)

lemma pairLines_eq {foreign : Bool} (hg : Fits foreign g) (hn : n ∈ g.ids) (l : Line) :
 (if foreign then
  match ((g.attrs? n).getD .empty).get? "modified" with
  | none => [⟨true,.error .missingKey⟩]
  | some m => if m.truthy then [] else [l]
  else [l]) = if paired foreign g n then [l] else [] := by
 cases foreign with
 | false => rfl
 | true =>
  obtain ⟨v,hv⟩ := Option.isSome_iff_exists.1 (hg.noted rfl n hn)
  obtain ⟨a,ha⟩ := exists_attrs hn
  have hget : a.get? "modified" = some v := by rwa [nodeAttr?,ha,Option.bind_some] at hv
  rw [paired,hv,ha,Option.getD_some,hget]
  cases htru : v.truthy <;> simp [htru]

lemma queryLines_eq {foreign : Bool} (hg : Fits foreign g) (k : Nat)
 (hord : ∀ n ∈ order, n ∈ g.ids) :
 queryLines k foreign g order = lined (queryRows foreign k g order) := by
 have hind : ∀ n, toString (order.idxOf n) = toString (placeIn order n) := fun n => rfl
 have hnod : order.flatMap (fun n => nodeLine (toString (placeIn order n))
  ((g.attrs? n).getD .empty) ::
  if foreign then
   match ((g.attrs? n).getD .empty).get? "modified" with
   | none => [⟨true,.error .missingKey⟩]
   | some m =>
    if m.truthy then [] else [Line.pair ("v " ++ toString (placeIn order n) ++ " " ++ n.text)]
  else [Line.pair ("v " ++ toString (placeIn order n) ++ " " ++ n.text)]) =
  lined (order.flatMap fun n => (false,
   pairRow (placeIn order n,labelNumber ((g.attrs? n).getD .empty))) ::
   if paired foreign g n then [(true,pairRow (placeIn order n,idNumber n))] else []) := by
  rw [lined,map_flatMap]
  refine flatMap_congr fun n hn => ?_
  rw [pairLines_eq hg (hord n hn),nodeLine_eq hg.listable (hord n hn),
   text_of_mem hg.listable (hord n hn),
   rowText_pair]
  cases paired foreign g n <;> rfl
 have hedg : g.edgeList.map (fun e => edgeLine (toString (placeIn order e.source))
  (toString (placeIn order e.target)) e.attrs) =
  lined ((g.contents (placeIn order) order).edges.map fun x => (false,edgeRow x)) := by
  simp only [lined,contents,map_map]
  exact map_congr_left fun e he => edgeLine_eq hg.listable he _ _
 rw [queryRows,lined_append,lined_append,← hnod,← hedg,queryLines]
 simp only [hind]
 rfl

def queryPairs (foreign : Bool) (q : Graph × List NodeId) : List (Int × Int) :=
 (q.2.filter (paired foreign q.1)).map fun n => (placeIn q.2 n,idNumber n)

lemma rowsFor_queryRows (b foreign : Bool) (k : Nat) :
 rowsFor b (queryRows foreign k g order) = headRow k ::
 if b then (queryPairs foreign (g,order)).map pairRow
  else (g.contents (placeIn order) order).rows := by
 rw [queryRows,rowsFor_append,rowsFor_append,rowsFor_pairs]
 cases b with
 | true =>
  rw [rowsFor_map_of_ne (by decide),append_nil,if_pos rfl,if_pos rfl,queryPairs,map_map]
  rfl
 | false =>
  rw [rowsFor_map_self,if_neg Bool.false_ne_true,if_neg Bool.false_ne_true,
   Listing.Contents.rows,contents,
   map_map (f := fun n => (placeIn order n,labelNumber ((g.attrs? n).getD .empty)))]
  rfl

def shuffledRows (foreign : Bool) (k : Nat) (qs : List (Graph × List NodeId)) :
 List (Bool × List String) :=
 (qs.zipIdx k).flatMap fun x => queryRows foreign x.2 x.1.1 x.1.2

section
variable (foreign : Bool) (k : Nat)
include foreign k

lemma shuffledRows_cons (q : Graph × List NodeId) (qs : List (Graph × List NodeId)) :
 shuffledRows foreign k (q :: qs) = queryRows foreign k q.1 q.2 ++
  shuffledRows foreign (k + 1) qs := by
 rw [shuffledRows,zipIdx_cons,flatMap_cons]
 rfl

lemma rowsFor_shuffledRows_false (qs : List (Graph × List NodeId)) :
 rowsFor false (shuffledRows foreign k qs) =
 Listing.numberedRows Listing.Contents.rows k (qs.map fun q => q.1.contents (placeIn q.2) q.2) := by
 induction qs generalizing k with
 | nil => rfl
 | cons q qs ih =>
  rw [shuffledRows_cons,rowsFor_append,rowsFor_queryRows,ih,map_cons,Listing.numberedRows_cons]; rfl

lemma rowsFor_shuffledRows_true (qs : List (Graph × List NodeId)) :
 rowsFor true (shuffledRows foreign k qs) =
  Listing.numberedRows (List.map pairRow) k (qs.map (queryPairs foreign)) := by
 induction qs generalizing k with
 | nil => rfl
 | cons q qs ih =>
  rw [shuffledRows_cons,rowsFor_append,rowsFor_queryRows,ih,map_cons,Listing.numberedRows_cons]; rfl

lemma shuffledLines_cons (gs : List Graph) (st : Streams) :
 (shuffledLines foreign k (g :: gs)).run.run st =
 (let lines := queryLines k foreign g (st.shuffling.shuffle g.ids).1
 (if (failure? lines).isSome then pure lines
  else do return lines ++ (← shuffledLines foreign (k + 1) gs)).run.run
   { st with shuffling := (st.shuffling.shuffle g.ids).2 }) := rfl

end

lemma append_run {x : Draw (List Line)} {lines rest : List Line} {st : Streams}
 (h : (x.run.run st).1 = .ok rest) :
 ((do return lines ++ (← x)).run.run st).1 = .ok (lines ++ rest) := by
 simp only [ExceptT.run_bind,StateT.run_bind]
 generalize x.run.run st = out at h ⊢
 obtain ⟨r,st'⟩ := out
 cases h
 rfl

structure Ordered (qs : List (Graph × List NodeId)) (gs : List Graph) : Prop where
 graphs : qs.map Prod.fst = gs
 perm : ∀ q ∈ qs, q.2.Perm q.1.ids

lemma Ordered.mem {gs : List Graph} (h : Ordered qs gs) {q : Graph × List NodeId} (hq : q ∈ qs) :
 q.1 ∈ gs :=
 h.graphs ▸ mem_map_of_mem hq

lemma Ordered.length {gs : List Graph} (h : Ordered qs gs) : qs.length = gs.length := by
 rw [← h.graphs,length_map]

def shuffled : Stream → List Graph → List (Graph × List NodeId)
 | _, [] => []
 | s, g :: gs => (g,(s.shuffle g.ids).1) :: shuffled (s.shuffle g.ids).2 gs

lemma ordered_shuffled (s : Stream) (gs : List Graph) : Ordered (shuffled s gs) gs := by
 induction gs generalizing s with
 | nil => exact ⟨rfl,by simp [shuffled]⟩
 | cons g gs ih =>
  obtain ⟨hgra,hper⟩ := ih (s.shuffle g.ids).2
  refine ⟨by rw [shuffled,map_cons,hgra],fun q hq => ?_⟩
  rcases mem_cons.1 hq with rfl | hq
  · exact Stream.shuffle_perm g.ids s
  · exact hper q hq

lemma shuffledLines_eq (foreign : Bool) (gs : List Graph) (k : Nat) (st : Streams) :
 ∃ lines, ((shuffledLines foreign k gs).run.run st).1 = .ok lines ∧
  ((∀ g ∈ gs, Fits foreign g) → lines =
   lined (shuffledRows foreign k (shuffled st.shuffling gs))) := by
 induction gs generalizing k st with
 | nil => exact ⟨[],rfl,fun _ => rfl⟩
 | cons g gs ih =>
  have hper := Stream.shuffle_perm g.ids st.shuffling
  have hfir : Fits foreign g → queryLines k foreign g (st.shuffling.shuffle g.ids).1 = lined _ :=
   fun hg =>
   queryLines_eq hg k fun n hn => hper.mem_iff.1 hn
  obtain ⟨lines,hrun,hres⟩ := ih (k + 1) { st with shuffling := (st.shuffling.shuffle g.ids).2 }
  rw [shuffledLines_cons]
  dsimp only
  split
  · next hfai =>
    refine ⟨_,rfl,fun h => ?_⟩
    rw [hfir (h g (by simp)),failure?_eq_none (isWritten_lined _)] at hfai
    cases hfai
  · refine ⟨queryLines k foreign g (st.shuffling.shuffle g.ids).1 ++ lines,append_run hrun,
     fun h => ?_⟩
    rw [hfir (h g (by simp)),hres fun g' hg' => h g' (by simp [hg']),shuffled,shuffledRows_cons,
     lined_append]

end

variable {σ₀ σ : Session} {d : List String} {es : List (String × MotifMatch.Entry)}
 {place name : String}

lemma ends_writeLines (h : Shelved σ₀ σ d es) (hpla : σ₀.files.resolve place = .ok d)
 (hnam : Path.FileName name)
 (rows : List (List String)) :
  ∃ σ', Ends (writeLines (Path.join place name) (lined (rows.map fun r => (false,r)))) σ
  (.ok ()) σ' ∧ σ'.streams = σ.streams ∧
   Shelved σ₀ σ' d (setChild name (.text (Text.ended (rows.map rowText))) es) := by
 obtain ⟨σ',hends,hstr,hshe⟩ := h.writeText hpla hnam (Text.ended (rows.map rowText))
 refine ⟨σ',?_,hstr,hshe⟩
 rw [Corpus.writeLines,written_lined,failure?_eq_none (isWritten_lined _),rowsFor_map_self,map_id']
 exact hends.bind (ends_pure () σ')

structure QueryFiles (kind : String) : Prop where
 listing : Path.FileName (kind ++ ".lg")
 mapping : Path.FileName (kind ++ "_mapping.lg")

def queryEntries (kind : String) (L M : String) (es : List (String × MotifMatch.Entry)) :
 List (String × MotifMatch.Entry) :=
 Entry.setChild (kind ++ "_mapping.lg") (.text M) (Entry.setChild (kind ++ ".lg") (.text L)
  (Entry.setChild (kind ++ "_mapping.lg") (.text "") (Entry.setChild (kind ++ ".lg") (.text "") es)))

lemma ends_writeQueries (h : Shelved σ₀ σ d es) (hpla : σ₀.files.resolve place = .ok d)
 {kind : String}
 (hkind : QueryFiles kind) (foreign : Bool) (gs : List Graph) :
 ∃ lines σ', ((∀ g ∈ gs, Fits foreign g) →
  lines = lined (shuffledRows foreign 0 (shuffled σ.streams.shuffling gs))) ∧
  Run.Ends (Corpus.writeQueries place kind foreign gs) σ
  (outcome lines) σ' ∧
  Shelved σ₀ σ' d (queryEntries kind (written false lines) (written true lines) es) := by
 obtain ⟨σ₁,hend₁,hstr₁,h₁⟩ := h.writeText hpla hkind.listing ""
 obtain ⟨σ₂,hend₂,hstr₂,h₂⟩ := h₁.writeText hpla hkind.mapping ""
 obtain ⟨lines,hrun,hlin⟩ := shuffledLines_eq foreign gs 0 σ₂.streams
 have hdraw := ends_draw (shuffledLines foreign 0 gs) σ₂
 rw [hrun] at hdraw
 have h₃ :
  Shelved σ₀ { σ₂ with streams := ((shuffledLines foreign 0 gs).run.run σ₂.streams).2 } d _ :=
  ⟨h₂.keeps,h₂.spares,h₂.settings,h₂.found,h₂.free⟩
 obtain ⟨σ₄,hend₄,_,h₄⟩ := h₃.writeText hpla hkind.listing (written false lines)
 obtain ⟨σ₅,hend₅,_,h₅⟩ := h₄.writeText hpla hkind.mapping (written true lines)
 rw [hstr₂,hstr₁] at hlin
 refine ⟨lines,σ₅,hlin,?_,h₅⟩
 refine hend₁.bind (hend₂.bind (hdraw.bind (hend₄.bind (hend₅.bind ?_))))
 rw [outcome]
 cases failure? lines with
 | none => exact ends_pure () σ₅
 | some e => exact ends_throw e σ₅

structure Room (σ : Session) (folder name : String) (d : List String) : Prop where
 leads : σ.files.resolve folder = .ok d
 found : ∃ es, σ.files.find d = .ok (.folder es)
 free : ∀ e, σ.files.find (d ++ [name]) = .ok e → ∃ es, e = .folder es ∧
  ∀ m c, (Entry.folder es).child? m = some c → c.isFolder = false

lemma ends_ensure_new {path : String} (hfou : σ.files.find d = .ok (.folder es))
 (hnew : (Entry.folder es).child? name = none) (hlea : σ.files.resolve path = .ok (d ++ [name])) :
 ∃ σ', Ends (ensurePath path) σ (.ok ()) σ' ∧ σ'.streams = σ.streams ∧
  Shelved σ σ' (d ++ [name]) [] := by
 have hexi := ends_pathExists path σ
 have hfind : σ.files.find (d ++ [name]) = .error .fileNotFound := by rw [find_concat hfou,hnew]
 rw [exists?,lookup_of_not_found hlea hfind] at hexi
 obtain ⟨files,hmake,hmade,hkee,hspa⟩ := ends_makeFolder hfou hnew hlea
 refine ⟨_,hexi.bind hmake,rfl,hkee,hspa,rfl,?_,fun m c hc => by cases hc⟩
 rw [find_concat hmade,child?_setChild,if_pos rfl]

lemma Room.ends_ensure (h : Room σ place name d) {path : String}
 (hlea : σ.files.resolve path = .ok (d ++ [name]))
 (hpath : Path.namesFolder path = false) :
 ∃ σ' es, Ends (ensurePath path) σ (.ok ()) σ' ∧ σ'.streams = σ.streams ∧
  Shelved σ σ' (d ++ [name]) es := by
 obtain ⟨es₀,hes₀⟩ := h.found
 cases hchi : (Entry.folder es₀).child? name with
 | some e =>
  have hexi := ends_pathExists path σ
  have hfind : σ.files.find (d ++ [name]) = .ok e := by rw [find_concat hes₀,hchi]
  obtain ⟨es,rfl,hfree⟩ := h.free e hfind
  rw [Entry.exists?,lookup_of_find hlea hfind hpath] at hexi
  exact ⟨σ,es,hexi.bind (ends_pure () σ),rfl,.refl σ.files,.refl σ.files _,rfl,hfind,hfree⟩
 | none =>
  obtain ⟨σ',hends,hstr,hshe⟩ := ends_ensure_new hes₀ hchi hlea
  exact ⟨σ',[],hends,hstr,hshe⟩

lemma Room.ends_ensurePath (h : Room σ place name d) (hnam : Path.FileName name) :
 ∃ σ' es, Ends (ensurePath (Path.join place name)) σ (.ok ()) σ' ∧ σ'.streams = σ.streams ∧
  Shelved σ σ' (d ++ [name]) es :=
 h.ends_ensure (resolve_join h.leads hnam) (Path.namesFolder_join place hnam)

section
variable {folder : String} {i : Int} {g : Graph} {iso : List Graph}

def sourceRows (i a : Int) (g : Graph) : List (List String) :=
 headRow i :: ["p","#",toString a] :: (g.contents idNumber g.ids).rows

def nameRows (i : Int) (names : List (Int × Int)) : List (List String) :=
 headRow i :: (names.map Prod.swap).map pairRow

lemma sourceNameLines_eq (i : Int) (names : List (Int × Int)) :
 sourceNameLines (.int i) (names.map fun x => (.int x.1,.int x.2)) =
  lined ((nameRows i names).map fun r => (false,r)) := by
 have hpai : ∀ x : Int × Int, "v " ++ (Value.int x.2).text ++ " " ++ (Value.int x.1).text =
  rowText (pairRow x.swap) := by
  intro x
  rw [Value.text_int,Value.text_int,rowText_pair]
  rfl
 rw [sourceNameLines,nameRows,Value.text_int,rowText_head]
 simp only [map_map,Function.comp_def,hpai,lined,map_cons]
 rfl

lemma fileName_int (i : Int) : Path.FileName (toString i) := by
 have hdig : ∀ c ∈ Nat.toDigits 10 i.natAbs, c.isDigit := fun c hc =>
  Nat.isDigit_of_mem_toDigits (by decide) (by decide) hc
 obtain ⟨c,cs,hcs⟩ := exists_cons_of_ne_nil (Nat.toDigits_ne_nil (n := i.natAbs) (b := 10))
 have hlist := Text.toList_toString_int i
 constructor
 · intro hsla
   rcases Text.mem_toString_int hsla with hc | hc
   · cases hc
   · exact absurd hc (by decide)
 · by_cases hi : 0 ≤ i
   · have hc := hdig c (by simp [hcs])
     refine ⟨c,cs,by rw [hlist,if_pos hi,nil_append,hcs],?_,?_⟩
     · rintro rfl
       exact absurd hc (by decide)
     · rintro rfl
       exact absurd hc (by decide)
   · exact ⟨'-',_,by rw [hlist,if_neg hi,singleton_append],by decide,by decide⟩

lemma fileName_source : Path.FileName "source.lg" := ⟨by decide,'s',_,rfl,by decide,by decide⟩

lemma fileName_names : Path.FileName "source_mapping.lg" := ⟨by decide,'s',_,rfl,by decide,by decide⟩

lemma queryFiles_iso : QueryFiles "iso_subgraphs" :=
 ⟨⟨by decide,'i',_,rfl,by decide,by decide⟩,⟨by decide,'i',_,rfl,by decide,by decide⟩⟩

lemma queryFiles_nonIso : QueryFiles "noniso_subgraphs" :=
 ⟨⟨by decide,'n',_,rfl,by decide,by decide⟩,⟨by decide,'n',_,rfl,by decide,by decide⟩⟩

structure Written (es : List (String × MotifMatch.Entry)) (i a : Int) (g : Graph)
 (names : List (Int × Int)) : Prop where
 source : (MotifMatch.Entry.folder es).child? "source.lg" =
  some (.text (Text.ended ((sourceRows i a g).map rowText)))
 names : (MotifMatch.Entry.folder es).child? "source_mapping.lg" =
  some (.text (Text.ended ((nameRows i names).map rowText)))

structure Filed (es : List (String × MotifMatch.Entry)) (kind : String) (foreign : Bool)
 (qs : List (Graph × List NodeId)) :
 Prop where
 listing : (MotifMatch.Entry.folder es).child? (kind ++ ".lg") =
  some (.text (Text.ended ((rowsFor false (shuffledRows foreign 0 qs)).map rowText)))
 mapping : (MotifMatch.Entry.folder es).child? (kind ++ "_mapping.lg") =
  some (.text (Text.ended ((rowsFor true (shuffledRows foreign 0 qs)).map rowText)))

variable (h : Room σ folder (toString i) d) (hg : Listable g) (hiso : ∀ s ∈ iso, Listable s)
 (names : List (Int × Int))
 (a : Int) (nonIso : List Graph)
include h hg hiso names a nonIso

lemma Room.ends_write_shuffled :
 ∃ r σ' es, Run.Ends (write folder ⟨.int i,g,names.map fun x => (.int x.1,.int x.2),.int a,iso,
  nonIso⟩) σ r σ' ∧
  Shelved σ σ' (d ++ [toString i]) es ∧ Written es i a g names ∧
  Filed es "iso_subgraphs" false (shuffled σ.streams.shuffling iso) ∧
  ((∀ s ∈ nonIso, Foreign s) → r = .ok () ∧ ∃ ns, Ordered ns nonIso ∧
   Filed es "noniso_subgraphs" true ns) := by
 have hnam := fileName_int i
 have hpla := resolve_join h.leads hnam
 obtain ⟨σ₁,es₁,hend₁,hstr₁,h₁⟩ := h.ends_ensurePath hnam
 obtain ⟨σ₂,hend₂,hstr₂,h₂⟩ := ends_writeLines h₁ hpla fileName_source (sourceRows i a g)
 obtain ⟨σ₃,hend₃,hstr₃,h₃⟩ := ends_writeLines h₂ hpla fileName_names (nameRows i names)
 obtain ⟨lines,σ₄,hlin,hend₄,h₄⟩ := ends_writeQueries h₃ hpla queryFiles_iso false iso
 obtain rfl := hlin fun s hs => (hiso s hs).fits
 obtain ⟨lines,σ₅,hlin,hend₅,h₅⟩ := ends_writeQueries h₄ hpla queryFiles_nonIso true nonIso
 rw [outcome_eq_ok (isWritten_lined _)] at hend₄
 rw [written_lined,written_lined,hstr₃,hstr₂,hstr₁] at h₅
 refine ⟨outcome lines,σ₅,_,?_,h₅,?_,?_,fun hnon => ?_⟩
 · rw [write]
   simp only [Value.text_int,sourceLines_eq hg,sourceNameLines_eq]
   exact hend₁.bind (hend₂.bind (hend₃.bind (hend₄.bind hend₅)))
 · constructor <;> simp only [queryEntries,child?_setChild] <;> rfl
 · constructor <;> simp only [queryEntries,child?_setChild] <;> rfl
 · obtain rfl := hlin fun s hs => hnon s hs
   refine ⟨outcome_eq_ok (isWritten_lined _),_,ordered_shuffled σ₄.streams.shuffling nonIso,?_⟩
   rw [written_lined,written_lined]
   constructor <;> simp only [queryEntries,child?_setChild] <;> rfl

lemma Room.ends_write :
 ∃ r σ' es qs, Run.Ends (write folder ⟨.int i,g,names.map fun x => (.int x.1,.int x.2),.int a,iso,
  nonIso⟩) σ r σ' ∧
  Shelved σ σ' (d ++ [toString i]) es ∧ Written es i a g names ∧ Ordered qs iso ∧
   Filed es "iso_subgraphs" false qs ∧
  ((∀ s ∈ nonIso, Foreign s) → r = .ok () ∧ ∃ ns, Ordered ns nonIso ∧
   Filed es "noniso_subgraphs" true ns) := by
 obtain ⟨r,σ',es,hends,hshe,hwri,hfil,hok⟩ := h.ends_write_shuffled hg hiso names a nonIso
 exact ⟨r,σ',es,_,hends,hshe,hwri,ordered_shuffled _ _,hfil,hok⟩

end
end Corpus
end MotifMatch
