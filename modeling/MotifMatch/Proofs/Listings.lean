import MotifMatch.Proofs.Lines
import MotifMatch.Proofs.Tables

namespace MotifMatch.Listing
open List Table Surveying Text

def headRow (k : Int) : List String := ["t","#",toString k]

def pairRow (x : Int × Int) : List String := ["v",toString x.1,toString x.2]

def edgeRow (x : Int × Int × Int) : List String := ["e",toString x.1,toString x.2.1,toString x.2.2]

lemma number_toString (i : Int) : number (toString i) = .ok i := by rw [number,int?_toString]

lemma tidy_cons_ints {s : String} (hs : Plain s) (is : List Int) : Tidy (s :: is.map toString) where
 ne_nil := by simp
 plain := by
  intro x hx
  rcases mem_cons.1 hx with rfl | hx
  · exact hs
  · obtain ⟨i,_,rfl⟩ := mem_map.1 hx
    exact plain_int i

lemma tidy_headRow (k : Int) : Tidy (headRow k) where
 ne_nil := by simp [headRow]
 plain := by
  intro x hx
  simp only [headRow,mem_cons,not_mem_nil,or_false] at hx
  rcases hx with rfl | rfl | rfl
  · decide
  · decide
  · exact plain_int k

lemma tidy_pairRow (x : Int × Int) : Tidy (pairRow x) :=
 tidy_cons_ints (by decide) [x.1,x.2]

lemma tidy_edgeRow (x : Int × Int × Int) : Tidy (edgeRow x) :=
 tidy_cons_ints (by decide) [x.1,x.2.1,x.2.2]

lemma headRow_columns (k : Int) : firstColumn (headRow k) = "t" ∧
 columnNumber (headRow k) 2 = .ok k :=
 ⟨rfl,number_toString k⟩

lemma endsHere_headRow {k : Int} (h : k ≠ -1) : endsHere (headRow k) = false := by
 exact beq_eq_false_iff_ne.2 fun heq => h (toString_inj heq)

lemma endsHere_headRow_nat (n : Nat) : endsHere (headRow n) = false := endsHere_headRow (by omega)

lemma pairRow_columns (x : Int × Int) :
 firstColumn (pairRow x) = "v" ∧ columnNumber (pairRow x) 1 = .ok x.1 ∧
 columnNumber (pairRow x) 2 = .ok x.2 := ⟨rfl,number_toString _,number_toString _⟩

lemma edgeRow_columns (x : Int × Int × Int) :
 firstColumn (edgeRow x) = "e" ∧ columnNumber (edgeRow x) 1 = .ok x.1 ∧
 columnNumber (edgeRow x) 2 = .ok x.2.1 ∧ columnNumber (edgeRow x) 3 = .ok x.2.2 :=
 ⟨rfl,number_toString _,number_toString _,number_toString _⟩

section
variable {directed : Bool} {done : Graphs} {g : Graph} {k : Int} {rest : List (List String)}

lemma readRows_head (s : Reading) (h : k ≠ -1) :
 readRows directed (headRow k :: rest) s =
  readRows directed rest ⟨s.close,some (.empty directed),k⟩ := by
 rw [readRows]
 simp only [headRow_columns,endsHere_headRow h,bind,Except.bind,Bool.false_eq_true,if_false]

lemma readRows_pair (x : Int × Int) : readRows directed (pairRow x :: rest) ⟨done,some g,k⟩ =
 readRows directed rest ⟨done,some (g.addNode (.num x.1) (labelled x.2)),k⟩ := by
 rw [readRows]
 simp only [pairRow_columns,Reading.current,bind,Except.bind]

lemma readRows_edge (x : Int × Int × Int) : readRows directed (edgeRow x :: rest) ⟨done,some g,k⟩ =
 readRows directed rest ⟨done,some (g.addEdge (.num x.1) (.num x.2.1) (labelled x.2.2)),k⟩ := by
 rw [readRows]
 simp only [edgeRow_columns,Reading.current,bind,Except.bind]

lemma readRows_pairs (xs : List (Int × Int)) :
 readRows directed (xs.map pairRow ++ rest) ⟨done,some g,k⟩ =
 readRows directed rest ⟨done,some (xs.foldl (fun g x => g.addNode (.num x.1) (labelled x.2)) g),
  k⟩ := by
 induction xs generalizing g with
 | nil => rfl
 | cons x xs ih => rw [map_cons,cons_append,readRows_pair,ih,foldl_cons]

lemma readRows_edges (xs : List (Int × Int × Int)) :
 readRows directed (xs.map edgeRow ++ rest) ⟨done,some g,k⟩ =
 readRows directed rest
  ⟨done,some (xs.foldl (fun g x => g.addEdge (.num x.1) (.num x.2.1) (labelled x.2.2)) g),k⟩ := by
 induction xs generalizing g with
 | nil => rfl
 | cons x xs ih => rw [map_cons,cons_append,readRows_edge,ih,foldl_cons]

structure Contents where
 nodes : List (Int × Int)
 edges : List (Int × Int × Int)

namespace Contents

def rows (c : Contents) : List (List String) := c.nodes.map pairRow ++ c.edges.map edgeRow

def graph (c : Contents) (directed : Bool) : Graph :=
 c.edges.foldl (fun g x => g.addEdge (.num x.1) (.num x.2.1) (labelled x.2.2))
  (c.nodes.foldl (fun g x => g.addNode (.num x.1) (labelled x.2)) (.empty directed))

def upwards (c : Contents) : Contents :=
 ⟨c.nodes,c.edges.map fun x => if x.1 < x.2.1 then x else (x.2.1,x.1,x.2.2)⟩

lemma tidy_rows (c : Contents) : ∀ r ∈ c.rows, Tidy r := by
 intro r hr
 rcases mem_append.1 hr with hr | hr
 · obtain ⟨x,_,rfl⟩ := mem_map.1 hr
   exact tidy_pairRow x
 · obtain ⟨x,_,rfl⟩ := mem_map.1 hr
   exact tidy_edgeRow x

end Contents

lemma readRows_contents (c : Contents) :
 readRows directed (c.rows ++ rest) ⟨done,some (.empty directed),k⟩ =
 readRows directed rest ⟨done,some (c.graph directed),k⟩ := by
 rw [Contents.rows,append_assoc,readRows_pairs,readRows_edges,Contents.graph]

lemma readRows_single (h : k ≠ -1) (c : Contents) (anchor : String) :
 readRows directed (headRow k :: ["p","#",anchor] :: c.rows) ⟨.empty,none,0⟩ =
  .ok (ofList [(k,c.graph directed)]) := by
 rw [readRows_head _ h,readRows]
 simp only [firstColumn,head?_cons,Option.getD_some]
 rw [← append_nil c.rows,readRows_contents,readRows]
 rfl

def numberedRows {α : Type} (rows : α → List (List String)) (n : Nat) (cs : List α) :
 List (List String) :=
 (cs.zipIdx n).flatMap fun x => headRow x.2 :: rows x.1

lemma numberedRows_cons {α : Type} (rows : α → List (List String)) (n : Nat) (c : α) (cs : List α) :
 numberedRows rows n (c :: cs) = headRow n :: (rows c ++ numberedRows rows (n + 1) cs) := by
 simp [numberedRows,zipIdx_cons]

lemma tidy_numberedRows {α : Type} {rows : α → List (List String)}
 (h : ∀ c, ∀ r ∈ rows c, Tidy r) (n : Nat)
 (cs : List α) : ∀ r ∈ numberedRows rows n cs, Tidy r := by
 intro r hr
 obtain ⟨x,_,hx⟩ := mem_flatMap.1 hr
 rcases mem_cons.1 hx with rfl | hx
 · exact tidy_headRow _
 · exact h _ r hx

lemma readRows_numbered (cs : List Contents) (n : Nat) (s : Reading) :
 readRows directed (numberedRows Contents.rows n cs) s =
  .ok (s.close.putAll ((cs.zipIdx n).map fun x => (x.2,x.1.graph directed))) := by
 induction cs generalizing n s with
 | nil =>
  rw [numberedRows,zipIdx_nil,flatMap_nil,readRows]
  rfl
 | cons c cs ih =>
  rw [numberedRows_cons,readRows_head _ (by omega),readRows_contents,ih]
  rfl

end

variable {done : Table Int (Table Int Int)} {m : Table Int Int} {k : Int} {rest : List (List String)}

lemma mapRows_head (s : MapReading) (h : k ≠ -1) :
 mapRows false (headRow k :: rest) s = mapRows false rest ⟨s.close,some .empty,k⟩ := by
 rw [mapRows]
 simp only [headRow_columns,endsHere_headRow h,bind,Except.bind,Bool.false_eq_true,if_false]

lemma mapRows_pairs (xs : List (Int × Int)) :
 mapRows false (xs.map pairRow ++ rest) ⟨done,some m,k⟩ =
 mapRows false rest ⟨done,some (m.putAll (xs.map Prod.swap)),k⟩ := by
 induction xs generalizing m with
 | nil => rfl
 | cons x xs ih =>
  rw [map_cons,cons_append,mapRows]
  simp only [pairRow_columns,bind,Except.bind,Bool.false_eq_true,if_false,ih]
  rfl

lemma mapRows_single (h : k ≠ -1) (xs : List (Int × Int)) :
 mapRows false (headRow k :: xs.map pairRow) ⟨.empty,none,0⟩ =
  .ok (ofList [(k,ofList (xs.map Prod.swap))]) := by
 rw [mapRows_head _ h,← append_nil (xs.map pairRow),mapRows_pairs,mapRows]
 rfl

lemma mapRows_numbered (cs : List (List (Int × Int))) (n : Nat) (s : MapReading) :
 mapRows false (numberedRows (map pairRow) n cs) s =
  .ok (s.close.putAll ((cs.zipIdx n).map fun x => (x.2,ofList (x.1.map Prod.swap)))) := by
 induction cs generalizing n s with
 | nil =>
  rw [numberedRows,zipIdx_nil,flatMap_nil,mapRows]
  rfl
 | cons c cs ih =>
  rw [numberedRows_cons,mapRows_head _ (by omega),mapRows_pairs,ih]
  rfl

def admits (limit : Int) (k : Nat) : Bool := decide (limit ≤ 0 ∨ (k : Int) < limit)

variable {limit : Int}

lemma admits_iff {k : Nat} : admits limit k ↔ limit ≤ 0 ∨ k < limit := decide_eq_true_iff

lemma stops_iff {k : Nat} : (decide (0 < limit) && decide (limit ≤ k)) = !admits limit k := by
 rw [Bool.eq_iff_iff,Bool.and_eq_true,decide_eq_true_iff,decide_eq_true_iff,
  Bool.not_eq_true',← Bool.not_eq_true,
  admits_iff]
 omega

variable {α : Type}

def within (limit : Int) (n : Nat) (cs : List α) : List (α × Nat) :=
 (cs.zipIdx n).filter fun x => admits limit x.2

lemma within_cons {n : Nat} (h : admits limit n) (c : α) (cs : List α) :
 within limit n (c :: cs) = (c,n) :: within limit (n + 1) cs := by
 rw [within,zipIdx_cons,filter_cons,if_pos h]
 rfl

lemma within_eq_nil {n : Nat} (h : admits limit n = false)
 (cs : List α) : within limit n cs = [] := by
 refine filter_eq_nil_iff.2 fun x hx => ?_
 have hle : n ≤ x.2 := (mem_zipIdx hx).1
 rw [← Bool.not_eq_true,admits_iff] at h
 rw [admits_iff]
 omega

variable {β γ : Type} {f : α → β} {l : List α}

lemma mem_within {x : α × Nat} : x ∈ within limit 0 l ↔ l[x.2]? = some x.1 ∧ admits limit x.2 := by
 rw [within,mem_filter,mem_zipIdx_iff_getElem?]

def admitted (limit : Int) (f : α → β) (l : List α) : Table Int β :=
 ofList ((within limit 0 l).map fun x => ((x.2 : Int),f x.1))

lemma numbers_within (limit : Int) (l : List α) :
 (within limit 0 l).map Prod.snd = (range l.length).filter (admits limit) := by
 rw [within,range_eq_range',← zipIdx_map_snd 0 l,filter_map]
 rfl

lemma nodup_numbers (limit : Int) (f : α → β) (l : List α) :
 (((within limit 0 l).map fun x => ((x.2 : Int),f x.1)).map Prod.fst).Nodup := by
 have hnod : ((within limit 0 l).map Prod.snd).Nodup := by
  rw [numbers_within]
  exact nodup_range.filter _
 have hcast := hnod.map fun _ _ h => Int.ofNat.inj h
 rwa [map_map] at hcast ⊢

lemma entries_admitted (limit : Int) (f : α → β) (l : List α) :
 (admitted limit f l).entries = (within limit 0 l).map fun x => ((x.2 : Int),f x.1) :=
 entries_ofList (nodup_numbers limit f l)

lemma keys_admitted (limit : Int) (f : α → β) (l : List α) :
 (admitted limit f l).keys = ((List.range l.length).filter (admits limit)).map Int.ofNat := by
 rw [Table.keys,entries_admitted,← numbers_within,map_map,map_map]
 rfl

lemma mem_admitted {e : Int × β} : e ∈ (admitted limit f l).entries ↔
 ∃ (k : Nat) (x : α), l[k]? = some x ∧ admits limit k ∧ e = ((k : Int),f x) := by
 simp only [entries_admitted,mem_map,mem_within,Prod.exists]
 constructor
 · rintro ⟨x,k,⟨hk,hadm⟩,rfl⟩
   exact ⟨k,x,hk,hadm,rfl⟩
 · rintro ⟨k,x,hk,hadm,rfl⟩
   exact ⟨x,k,⟨hk,hadm⟩,rfl⟩

lemma get?_admitted (f : α → β) {k : Nat} {x : α} (hk : l[k]? = some x) (h : admits limit k) :
 (admitted limit f l).get? k = some (f x) :=
 get?_of_mem (nodup_ofList _) (mem_admitted.2 ⟨k,x,hk,h,rfl⟩)

lemma admitted_map (f : β → γ) (f' : α → β) (l : List α) :
 admitted limit f (l.map f') = admitted limit (fun x => f (f' x)) l := by
 rw [admitted,admitted,within,zipIdx_map,filter_map,map_map]
 rfl

variable {directed : Bool} {done : Survey} {g : Graph}

def Survey.note (s : Survey) (e : Int × Graph) : Survey :=
 { s with
   graphs := s.graphs.put e.1 e.2
   sizes := s.sizes.put e.1 e.2.size
   degrees := s.degrees.put e.1 (Float.ofNat (2 * e.2.edges.length) / Float.ofNat e.2.size) }

def Survey.noteAll (s : Survey) (es : List (Int × Graph)) : Survey := es.foldl Survey.note s

lemma Survey.graphs_noteAll (s : Survey) (es : List (Int × Graph)) :
 (s.noteAll es).graphs = s.graphs.putAll es := by
 induction es generalizing s with
 | nil => rfl
 | cons e es ih => exact ih (s.note e)

lemma Surveying.close_open (h : g.size ≠ 0) : close ⟨done,some g,k⟩ = .ok (done.note (k,g)) := by
 rw [close]
 simp only [meanDegree,if_neg h,bind,Except.bind]
 rfl

lemma surveyRows_head {n : Nat} {s : Surveying} (hclo : s.close = .ok done) :
 surveyRows directed limit (headRow n :: rest) s =
  if admits limit n then surveyRows directed limit rest
   ⟨done,some (.empty directed),n⟩ else .ok done := by
 rw [surveyRows]
 simp only [headRow_columns,endsHere_headRow_nat,bind,Except.bind,hclo,Bool.false_eq_true,
  if_false,stops_iff]
 cases admits limit n <;> rfl

lemma surveyRows_pairs (xs : List (Int × Int)) :
 surveyRows directed limit (xs.map pairRow ++ rest) ⟨done,some g,k⟩ =
 surveyRows directed limit rest ⟨done,
  some (xs.foldl (fun g x => g.addNode (.num x.1) (labelled x.2)) g),k⟩ := by
 induction xs generalizing g with
 | nil => rfl
 | cons x xs ih =>
  rw [map_cons,cons_append,surveyRows]
  simp only [pairRow_columns,current,bind,Except.bind,ih,foldl_cons]

lemma surveyRows_edges (xs : List (Int × Int × Int)) :
 surveyRows directed limit (xs.map edgeRow ++ rest) ⟨done,some g,k⟩ =
 surveyRows directed limit rest ⟨done,
  some ((xs.map fun x => if x.1 < x.2.1 then x else (x.2.1,x.1,x.2.2)).foldl
  (fun g x => g.addEdge (.num x.1) (.num x.2.1) (labelled x.2.2)) g),k⟩ := by
 induction xs generalizing g with
 | nil => rfl
 | cons x xs ih =>
  rw [map_cons,cons_append,surveyRows]
  simp only [edgeRow_columns,current,bind,Except.bind]
  rw [ih,map_cons,foldl_cons]
  split <;> rfl

lemma surveyRows_contents (c : Contents) :
 surveyRows directed limit (c.rows ++ rest) ⟨done,some (.empty directed),k⟩ =
 surveyRows directed limit rest ⟨done,some (c.upwards.graph directed),k⟩ := by
 rw [Contents.rows,append_assoc,surveyRows_pairs,surveyRows_edges]
 rfl

lemma surveyRows_single {k : Int} (h : k ≠ -1) {c : Contents}
 (hc : (c.upwards.graph directed).size ≠ 0) (a : Int) :
 surveyRows directed (-1) (headRow k :: ["p","#",toString a] :: c.rows)
  ⟨⟨.empty,.empty,.empty,none⟩,none,0⟩ =
  .ok (Survey.note ⟨.empty,.empty,.empty,some a⟩ (k,c.upwards.graph directed)) := by
 have hlim : (decide (0 < (-1)) && decide ((-1) ≤ k)) = false := rfl
 rw [surveyRows]
 simp only [headRow_columns,endsHere_headRow h,bind,Except.bind,close,Bool.false_eq_true,
  if_false,hlim]
 rw [surveyRows]
 simp only [firstColumn,lastColumn,head?_cons,Option.getD_some,getLast?_cons_cons,getLast?_singleton]
 simp only [bind,Except.bind,number_toString]
 rw [← append_nil c.rows,surveyRows_contents,surveyRows,close_open hc]

lemma surveyRows_numbered {cs : List Contents} (hcs : ∀ c ∈ cs, (c.upwards.graph directed).size ≠ 0)
 (n : Nat) {s : Surveying}
 (hclo : s.close = .ok done) : surveyRows directed limit (numberedRows Contents.rows n cs) s =
  .ok (done.noteAll ((within limit n cs).map fun x => (x.2,x.1.upwards.graph directed))) := by
 induction cs generalizing n s done with
 | nil =>
  rw [numberedRows,zipIdx_nil,flatMap_nil,surveyRows,hclo]
  rfl
 | cons c cs ih =>
  rw [numberedRows_cons,surveyRows_head hclo]
  cases hadm : admits limit n with
  | false =>
   rw [within_eq_nil hadm]
   rfl
  | true =>
   rw [if_pos rfl,surveyRows_contents,within_cons hadm,
    ih (fun d hd => hcs d (by simp [hd])) (n + 1) (close_open (hcs c (by simp)))]
   rfl

lemma survey_numbered {contents : α → Contents} {l : List α} {text : String}
 (htext : rows text = numberedRows Contents.rows 0 (l.map contents))
 (hl : ∀ x ∈ l, ((contents x).upwards.graph directed).size ≠ 0) :
 ∃ s, survey directed limit text = .ok s ∧ s.graphs =
  admitted limit (fun x => (contents x).upwards.graph directed) l := by
 have hall : ∀ c ∈ l.map contents, (c.upwards.graph directed).size ≠ 0 := by
  intro c hc
  obtain ⟨x,hx,rfl⟩ := mem_map.1 hc
  exact hl x hx
 refine ⟨_,by rw [survey,htext]; exact surveyRows_numbered hall 0 rfl,?_⟩
 rw [Survey.graphs_noteAll]
 exact admitted_map (fun c : Contents => c.upwards.graph directed) contents l

lemma pairRows_pairs {rest : List (List String)} {done : Table Int (List (Int × Int))}
 {m : List (Int × Int)} {k : Int}
 (xs : List (Int × Int)) : pairRows limit (xs.map pairRow ++ rest) ⟨done,some m,k⟩ =
  pairRows limit rest ⟨done,some (m ++ xs),k⟩ := by
 induction xs generalizing m with
 | nil => rw [append_nil]; rfl
 | cons x xs ih =>
  rw [map_cons,cons_append,pairRows]
  simp only [pairRow_columns,bind,Except.bind,ih,append_assoc,singleton_append]

lemma pairRows_numbered (cs : List (List (Int × Int))) (n : Nat) (s : PairReading) :
 pairRows limit (numberedRows (map pairRow) n cs) s =
  .ok (s.close.putAll ((within limit n cs).map fun x => (x.2,x.1))) := by
 induction cs generalizing n s with
 | nil =>
  rw [numberedRows,zipIdx_nil,flatMap_nil,pairRows]
  rfl
 | cons c cs ih =>
  rw [numberedRows_cons,pairRows]
  simp only [headRow_columns,endsHere_headRow_nat,bind,Except.bind,Bool.false_eq_true,
   if_false,stops_iff]
  cases hadm : admits limit n with
  | false =>
   rw [within_eq_nil hadm]
   rfl
  | true =>
   simp only [Bool.not_true,Bool.false_eq_true,if_false]
   rw [pairRows_pairs,ih,within_cons hadm]
   rfl

lemma pairs_numbered {mapping : α → List (Int × Int)} {l : List α} {text : String}
 (htext : rows text = numberedRows (map pairRow) 0 (l.map mapping)) (limit : Int) :
 pairs limit text = .ok (admitted limit mapping l) := by
 rw [pairs,htext,pairRows_numbered]
 exact congrArg Except.ok (admitted_map (fun ps : List (Int × Int) => ps) mapping l)

end MotifMatch.Listing
