import MotifMatch.Proofs.Connectivity
import MotifMatch.Sampling.Edits

namespace MotifMatch
open List MotifMatch.Graph Option Prod
section
variable {S α β : Type} {x : ExceptT Error (StateM S) α} {f : α → ExceptT Error (StateM S) β}
 {P P' : S → Prop}
 {Q Q' : α → S → Prop} {R : β → S → Prop} {F F' : Error → S → Prop} {s : S}

def Leads (x : ExceptT Error (StateM S) α) (P : S → Prop) (Q : α → S → Prop) : Prop :=
 ∀ s a s', P s → x.run.run s = (.ok a,s') → Q a s'

lemma Leads.imp (h : Leads x P Q) (hP : ∀ s, P' s → P s) (hQ : ∀ a s, Q a s → Q' a s) :
 Leads x P' Q' :=
 fun s a s' hs hrun => hQ a s' (h s a s' (hP s hs) hrun)

lemma leads_and {p : Prop} (h : p → Leads x P Q) : Leads x (fun s => p ∧ P s) Q :=
 fun s a s' hs hrun => h hs.1 s a s' hs.2 hrun

def Outcome (Q : α → S → Prop) (F : Error → S → Prop) : Except Error α × S → Prop
 | (.ok a,s) => Q a s
 | (.error e,s) => F e s

def Proceeds (x : ExceptT Error (StateM S) α) (s : S) (Q : α → S → Prop) (F : Error → S → Prop) :
 Prop :=
 Outcome Q F (x.run.run s)

lemma Outcome.imp {o : Except Error α × S} (h : Outcome Q F o) (hQ : ∀ a s, Q a s → Q' a s)
 (hF : ∀ e s, F e s → F' e s) :
 Outcome Q' F' o := by
 obtain ⟨_ | _,s⟩ := o
 · exact hF _ _ h
 · exact hQ _ _ h

lemma Proceeds.bind (h : Proceeds x s (fun a s' => Proceeds (f a) s' R F) F) :
 Proceeds (x >>= f) s R F := by
 rw [Proceeds] at h
 rw [Proceeds,ExceptT.run_bind,StateT.run_bind]
 cases hx : x.run.run s with
 | mk r t =>
  rw [hx] at h
  cases r <;> exact h

lemma leads_iff : Leads x P Q ↔ ∀ s, P s → Proceeds x s Q fun _ _ => True := by
 constructor
 · intro h s hs
   rw [Proceeds]
   cases hx : x.run.run s with
   | mk r t =>
    cases r with
    | ok a => exact h s a t hs hx
    | error e => trivial
 · intro h s a s' hs hrun
   have := h s hs
   rwa [Proceeds,hrun] at this

lemma leads_pure {a : α} (h : ∀ s, P s → Q a s) : Leads (pure a) P Q := leads_iff.2 h

lemma leads_throw (e : Error) : Leads (throw e) P Q := leads_iff.2 fun _ _ => trivial

lemma Leads.bind (h : Leads x P Q) (hf : ∀ a, Leads (f a) (Q a) R) : Leads (x >>= f) P R :=
 leads_iff.2 fun s hs => Proceeds.bind
  ((leads_iff.1 h s hs).imp (fun a t ht => leads_iff.1 (hf a) t ht) fun _ _ h => h)

lemma leads_get : Leads get P fun t s => t = s ∧ P s := leads_iff.2 fun _ hs => ⟨rfl,hs⟩

end

namespace Draw
variable {α β : Type} {d : Draw α} {f : α → Draw β} {P P' : α → Prop} {Q : β → Prop}
 {E E' : Error → Prop}

def Gives (d : Draw α) (P : α → Prop) : Prop := Leads d (fun _ => True) fun a _ => P a

lemma gives_trivial (d : Draw α) : Gives d fun _ => True := fun _ _ _ _ _ => trivial

lemma gives_pure {a : α} (h : P a) : Gives (pure a) P := leads_pure fun _ _ => h

lemma Gives.imp (hd : Gives d P) (h : ∀ a, P a → P' a) : Gives d P' :=
 Leads.imp hd (fun _ hs => hs) fun a _ => h a

lemma Gives.bind (hd : Gives d P) (hf : ∀ a, P a → Gives (f a) Q) : Gives (d >>= f) Q :=
 Leads.bind hd fun a s b s' h hrun => hf a h s b s' trivial hrun

def Brings (d : Draw α) (P : α → Prop) (E : Error → Prop) : Prop :=
 ∀ st, Proceeds d st (fun a _ => P a) fun e _ => E e

lemma Brings.gives (h : Brings d P E) : Gives d P :=
 leads_iff.2 fun st _ => (h st).imp (fun _ _ h => h) fun _ _ _ => trivial

lemma Brings.imp (h : Brings d P E) (hP : ∀ a, P a → P' a) (hE : ∀ e, E e → E' e) : Brings d P' E' :=
 fun st => (h st).imp (fun a _ => hP a) fun e _ => hE e

lemma Brings.bind (h : Brings d P E) (hf : ∀ a, P a → Brings (f a) Q E) : Brings (d >>= f) Q E :=
 fun st => Proceeds.bind ((h st).imp (fun a st' ha => hf a ha st') fun _ _ h => h)

lemma brings_pure {a : α} (h : P a) : Brings (pure a) P E := fun _ => h

lemma brings_throw {e : Error} (h : E e) : Brings (throw e) P E := fun _ => h

lemma brings_lift (x : Except Error α) : Brings (liftM x) (x = .ok ·) (x = .error ·) := by
 intro st
 cases x <;> exact rfl

lemma brings_below {draw : Nat → Draw Nat} (hdraw : ∀ n, 0 < n → Brings (draw n) (· < n) E)
 (xs : List α) (e : Error) :
 Brings (do
  let k ← (if xs.isEmpty then fail e else draw xs.length)
  match xs[k]? with
  | some x => return x
  | none => fail e) (· ∈ xs) fun e => xs = [] ∨ E e := by
 refine Brings.bind (P := (· < xs.length)) ?_ fun k hk => ?_
 · split
   · next h => exact brings_throw (.inl (isEmpty_iff.1 h))
   · next h =>
     have hpos : 0 < xs.length := length_pos_iff.2 fun hnil => h (isEmpty_iff.2 hnil)
     exact (hdraw _ hpos).imp (fun _ h => h) fun _ => .inr
 · rw [getElem?_eq_getElem hk]
   exact brings_pure (getElem_mem hk)

lemma brings_drawBelow {n : Nat} (hn : 0 < n) : Brings (drawBelow n) (· < n) E :=
 fun st => Stream.below_lt hn st.sampling

lemma brings_tossBelow {n : Nat} (hn : 0 < n) : Brings (tossBelow n) (· < n) E :=
 fun st => Stream.below_lt hn st.shuffling

lemma brings_drawFrom (xs : List α) : Brings (drawFrom xs) (· ∈ xs) fun _ => xs = [] :=
 (brings_below (fun _ => brings_drawBelow) xs _).imp (fun _ h => h) fun _ h => h.resolve_right id

lemma brings_tossFrom (xs : List α) : Brings (tossFrom xs) (· ∈ xs) fun _ => xs = [] :=
 (brings_below (fun _ => brings_tossBelow) xs _).imp (fun _ h => h) fun _ h => h.resolve_right id

lemma brings_drawInt (low high : Int) :
 Brings (drawInt low high) (fun i => low ≤ i ∧ i < high) fun _ => high ≤ low := by
 unfold drawInt
 split
 · next h => exact brings_throw h
 · refine (brings_drawBelow (by omega)).bind fun k hk => brings_pure ?_
   omega

lemma brings_drawWithout (n : Nat) (xs : List α) :
 Brings (drawWithout n xs) (fun ys => ys.length = n ∧ ∀ y ∈ ys, y ∈ xs) fun _ => xs.length < n := by
 induction n generalizing xs with
 | zero => exact brings_pure (by simp)
 | succ n ih =>
  refine Brings.bind (P := (· < xs.length)) ?_ fun k hk => ?_
  · split
    · next h => exact brings_throw (by simp [isEmpty_iff.1 h])
    · next h => exact brings_drawBelow (length_pos_iff.2 fun hnil => h (hnil ▸ rfl))
  · rw [getElem?_eq_getElem hk]
    refine ((ih (xs.eraseIdx k)).imp (fun _ h => h) fun _ h => ?_).bind fun ys hys =>
     brings_pure ⟨by simp [hys.1],?_⟩
    · rw [length_eraseIdx_of_lt hk] at h
      omega
    · simpa using fun y hy => mem_of_mem_eraseIdx (hys.2 y hy)

end Draw

namespace Sampling
variable {α β : Type} {x : Edit α} {f : α → Edit β} {d : Draft} {Q Q' : α → Draft → Prop}
 {R : β → Draft → Prop}
 {F F' : Error → Draft → Prop} {g : Graph}

def Turns (x : Edit α) (d : Draft) (Q : α → Draft → Prop) (F : Error → Draft → Prop) : Prop :=
 ∀ st, Proceeds x (st,d) (fun a s => Q a s.2) fun e s => F e s.2

lemma Turns.imp (h : Turns x d Q F) (hQ : ∀ a d, Q a d → Q' a d) (hF : ∀ e d, F e d → F' e d) :
 Turns x d Q' F' :=
 fun st => (h st).imp (fun a s => hQ a s.2) fun e s => hF e s.2

lemma Turns.bind (h : Turns x d (fun a d' => Turns (f a) d' R F) F) : Turns (x >>= f) d R F :=
 fun st => Proceeds.bind ((h st).imp (fun _ s hs => hs s.1) fun _ _ h => h)

lemma turns_pure {a : α} (h : Q a d) : Turns (pure a) d Q F := fun _ => h

lemma turns_throw {e : Error} (h : F e d) : Turns (throw e) d Q F := fun _ => h

lemma turns_enter {f : Unit → Edit β} {loop : Graph → Loop} (h : Turns (f ()) d R F) :
 Turns (Editor.enter loop >>= f) d R F := Turns.bind (turns_pure h)

lemma turns_graph {Q : Graph → Draft → Prop} (h : Q d.work d) : Turns .graph d Q F := fun _ => h

lemma turns_edit {Q : Unit → Draft → Prop} {k : Graph → Graph} (h : Q () (d.edit k)) :
 Turns (Edit.edit k) d Q F := fun _ => h

lemma turns_leave {Q : Unit → Draft → Prop} (h : Q () (d.leave g)) : Turns (Edit.leave g) d Q F :=
 fun _ => h

lemma turns_lift {x : Except Error α} (hQ : ∀ a, x = .ok a → Q a d)
 (hF : ∀ e, x = .error e → F e d) :
 Turns (liftM x) d Q F := by
 intro st
 cases x with
 | ok a => exact hQ a rfl
 | error e => exact hF e rfl

lemma turns_draw {k : Draw α} {P : α → Prop} {E : Error → Prop} (hk : k.Brings P E)
 (hQ : ∀ a, P a → Q a d)
 (hF : ∀ e, E e → F e d) : Turns (Edit.draw k) d Q F := by
 intro st
 have h := hk st
 have hget : (get : Edit (Streams × Draft)).run.run (st,d) = (.ok (st,d),(st,d)) := rfl
 rw [Proceeds] at h
 rw [Edit.draw]
 refine Proceeds.bind ?_
 rw [Proceeds,hget]
 dsimp only [Outcome]
 generalize k.run.run st = o at h ⊢
 obtain ⟨_ | _,st'⟩ := o
 · exact hF _ h
 · exact hQ _ h

lemma Turns.on (h : Turns x (.start g) Q F) (st : Streams) :
 Outcome Q F ((x.on g st).1,(x.on g st).2.1) := by
 have := h st
 rw [Proceeds] at this
 rw [Edit.on]
 cases hx : x.run.run (st,.start g) with
 | mk r s =>
  rw [hx] at this
  cases r <;> exact this

lemma brings_result {Q : α → Graph → Prop} {E : Error → Prop}
 (h : Turns x (.start g) (fun a d => Q a d.work) fun e _ => E e) :
  (x.result g).Brings (fun r => Q r.1 r.2) E := by
 intro st
 have := h.on st
 have hget : (get : Draw Streams).run.run st = (.ok st,st) := rfl
 rw [Edit.result]
 refine Proceeds.bind ?_
 rw [Proceeds,hget]
 dsimp only [Outcome]
 generalize x.on g st = o at this ⊢
 obtain ⟨_ | _,s⟩ := o <;> exact this

def Draft.Apart (g : Graph) (d : Draft) : Prop := ∃ fs, d.past = fs ++ [⟨g,true⟩]

lemma Draft.Apart.edit (hd : d.Apart g) (f : Graph → Graph) : (d.edit f).Apart g := by
 obtain ⟨fs,hfs⟩ := hd
 exact ⟨⟨d.work,false⟩ :: fs,by rw [Draft.edit,hfs,cons_append]⟩

lemma Draft.Apart.leave (hd : d.Apart g) (h : Graph) : (d.leave h).Apart g := by
 obtain ⟨fs,hfs⟩ := hd
 exact ⟨⟨d.work,true⟩ :: fs,by rw [Draft.leave,hfs,cons_append]⟩

lemma Draft.Apart.given (hd : d.Apart g) : d.given = g := by
 obtain ⟨fs,hfs⟩ := hd
 simp [Draft.given,Draft.parted,hfs]

section

lemma turns_retry {attempt : Edit (Option α)}
 (h : Turns attempt d (fun o d' => d' = d ∧ ∀ a, o = some a → Q a d) F)
 (hF : F .outOfPatience d) (n : Nat) : Turns (retry attempt n) d Q F := by
 induction n with
 | zero => exact turns_throw hF
 | succ n ih =>
  refine Turns.bind (h.imp (fun o d' ho => ?_) fun _ _ h => h)
  obtain ⟨rfl,ho⟩ := ho
  cases o with
  | some a => exact turns_pure (ho a rfl)
  | none => exact ih

lemma turns_connected {Q : Bool → Draft → Prop} (hQ : ∀ b, g.isConnected true = .ok b → Q b d)
 (hF : ∀ e, g.ids = [] → F e d) : Turns (connected g) d Q F := by
 unfold connected
 split
 · next b hb => exact turns_pure (hQ b hb)
 · next e he =>
   refine turns_throw (hF e ?_)
   by_contra hne
   obtain ⟨b,hb⟩ := exists_isConnected hne
   cases hb.symm.trans he

variable {labels : Int} {patience : Nat} {Q : Value → Draft → Prop} {i : Int}

lemma turns_drawLabel_numbered (hQ : ∀ l : Int, 1 ≤ l → l ≤ labels → Q (.int l) d)
 (hF : ∀ e, labels < 1 → F e d) : Turns (drawLabel labels) d Q F :=
 Turns.bind (turns_draw (Draw.brings_drawInt 1 (labels + 1))
  (fun l hl => turns_pure (hQ l hl.1 (by omega)))
  fun e h => hF e (by omega))

lemma turns_drawLabel (hQ : ∀ l : Int, Q (.int l) d) (hF : ∀ e, labels < 1 → F e d) :
 Turns (drawLabel labels) d Q F :=
 turns_drawLabel_numbered (fun l _ _ => hQ l) hF

lemma turns_removeNode {Q : Unit → Draft → Prop} (hQ : ∀ n ∈ d.work.ids,
 (d.work.relisted.removeNode n).isConnected true = .ok true →
  Q () (d.leave (d.work.relisted.removeNode n)))
 (hF : ∀ e, (e = .outOfPatience ∨ ∃ n, ∀ m ∈ d.work.ids, m = n) → F e d) :
  Turns (removeNode patience) d Q F := by
 refine turns_enter (Turns.bind (turns_graph (Turns.bind (turns_retry
  (Q := fun smaller d' => d' = d ∧ Q () (d.leave smaller)) ?_ ?_ _ |>.imp ?_ fun _ _ h => h))))
 · refine Turns.bind (turns_draw (Draw.brings_drawFrom d.work.ids) (fun n hn => ?_) fun e h =>
    hF e (.inr ⟨.num 0,by simp [h]⟩))
   refine Turns.bind (turns_connected (fun b hb => ?_) fun e h => hF e (.inr ⟨n,fun m hm => ?_⟩))
   · cases b with
     | true => exact turns_pure ⟨rfl,fun _ heq => some.inj heq ▸ ⟨rfl,hQ n hn hb⟩⟩
     | false => exact turns_pure ⟨rfl,fun _ heq => by cases heq⟩
   · by_contra hne
     have hmem : m ∈ (d.work.relisted.removeNode n).ids := by
      obtain ⟨e,he,rfl⟩ := mem_map.1 hm
      exact mem_map.2 ⟨e,mem_filter.2 ⟨he,by simpa using hne⟩,rfl⟩
     simp [h] at hmem
 · exact hF _ (.inl rfl)
 · rintro smaller _ ⟨rfl,h⟩
   exact turns_leave h

lemma turns_removeEdge {Q : Unit → Draft → Prop} (hQ : ∀ e ∈ d.work.edgeList,
 (d.work.relisted.removeEdge e.source e.target).isConnected true = .ok true →
 Q () (d.leave (d.work.relisted.removeEdge e.source e.target)))
 (hF : ∀ e, (e = .outOfPatience ∨ d.work.edgeList = []) → F e d) :
  Turns (removeEdge patience) d Q F := by
 refine turns_enter (Turns.bind (turns_graph (Turns.bind (turns_retry
  (Q := fun smaller d' => d' = d ∧ Q () (d.leave smaller)) ?_ ?_ _ |>.imp ?_ fun _ _ h => h))))
 · refine Turns.bind (turns_draw (Draw.brings_tossFrom d.work.edgeList) (fun e he => ?_) fun e h =>
    hF e (.inr h))
   refine Turns.bind (turns_connected (fun b hb => ?_) fun e h => hF e (.inr ?_))
   · cases b with
     | true => exact turns_pure ⟨rfl,fun _ heq => some.inj heq ▸ ⟨rfl,hQ e he hb⟩⟩
     | false => exact turns_pure ⟨rfl,fun _ heq => by cases heq⟩
   · rw [edgeList,show d.work.ids = [] from h]
     rfl
 · exact hF _ (.inl rfl)
 · rintro smaller _ ⟨rfl,h⟩
   exact turns_leave h

lemma turns_joinLoneNodes {J : List NodeId → List NodeId → Draft → Prop} {Q : Unit → Draft → Prop}
 (hdone : ∀ linked lone d, J linked lone d →
  (d.work.isConnected true = .ok true ∨ lone = []) → Q () d)
 (hfir : ∀ lone d new old l, J [] lone d → new ∈ lone → old ∈ lone → old ≠ new →
  J [old,new] ((lone.erase old).erase new) ((d.edit (link old new (.int l))).edit (mark old)))
 (hnext : ∀ linked lone d new old l, J linked lone d → new ∈ lone → old ∈ linked →
  J (linked ++ [new]) (lone.erase new) ((d.edit (link old new (.int l))).edit (mark old)))
 (hF : ∀ linked lone d e, J linked lone d →
  (e = .outOfPatience ∨ labels < 1 ∨ d.work.ids = []) → F e d)
 (fuel : Nat) {linked lone : List NodeId} (hd : J linked lone d) :
 Turns (joinLoneNodes patience labels fuel linked lone) d Q F := by
 induction fuel generalizing linked lone d with
 | zero => exact turns_throw (hF _ _ _ _ hd (.inl rfl))
 | succ fuel ih =>
  have hlab : ∀ e, labels < 1 → F e d := fun e h => hF _ _ _ _ hd (.inr (.inl h))
  refine Turns.bind (turns_graph (Turns.bind (turns_connected (fun b hb => ?_) fun e h =>
   hF _ _ _ _ hd (.inr (.inr h)))))
  cases b with
  | true => exact turns_pure (hdone linked lone d hd (.inl hb))
  | false =>
  by_cases hlone : lone = []
  · subst hlone
    exact turns_pure (hdone linked [] d hd (.inr rfl))
  rw [if_neg (by simp),if_neg (by simpa using hlone)]
  refine Turns.bind (turns_draw (Draw.brings_tossFrom lone) (fun new hnew => ?_) fun e h =>
   absurd h hlone)
  cases linked with
  | nil =>
   refine Turns.bind (Turns.imp (Q := fun old d' => d' = d ∧ old ∈ lone ∧ old ≠ new) (F :=
    F) (turns_retry ?_ ?_ patience)
    ?_ fun _ _ h => h)
   · refine Turns.bind (turns_draw (Draw.brings_tossFrom lone)
      (fun n hn => turns_pure ⟨rfl,fun old heq => ?_⟩)
      fun e h => absurd h hlone)
     split at heq
     · cases heq
     · next hne =>
       cases heq
       exact ⟨rfl,hn,by simpa using hne⟩
   · exact hF _ _ _ _ hd (.inl rfl)
   · rintro old _ ⟨rfl,hold,hne⟩
     exact Turns.bind (turns_drawLabel (fun l => Turns.bind (turns_edit (Turns.bind (turns_edit
      (ih (hfir lone _ new old l hd hnew hold hne)))))) hlab)
  | cons first rest =>
   rw [if_neg (by simp)]
   refine Turns.bind (turns_draw (Draw.brings_tossFrom (first :: rest)) (fun old hold => ?_)
    fun e h => by cases h)
   exact Turns.bind (turns_drawLabel (fun l => Turns.bind (turns_edit (Turns.bind (turns_edit
    (ih (hnext _ lone d new old l hd hnew hold)))))) hlab)

lemma turns_drawPair {Q : NodeId × NodeId → Draft → Prop}
 (hQ : ∀ u ∈ d.work.ids, ∀ v ∈ d.work.ids, Q (u,v) d)
 (hF : ∀ e, (e = .outOfPatience ∨ d.work.ids.length < 2) → F e d) : Turns (retry (do
  match ← Edit.draw (Draw.drawWithout 2 d.work.ids) with
  | [u,v] => return if d.work.hasEdge u v then none else some (u,v)
  | _ => throw .badValue) patience) d Q F := by
 refine turns_retry (Turns.bind (turns_draw (Draw.brings_drawWithout 2 d.work.ids) (fun ns hns => ?_)
  fun e h => hF e (.inr h))) (hF _ (.inl rfl)) patience
 obtain ⟨u,v,rfl⟩ := length_eq_two.1 hns.1
 refine turns_pure ⟨rfl,fun pair heq => ?_⟩
 split at heq
 · cases heq
 · cases heq
   exact hQ u (hns.2 u (by simp)) v (hns.2 v (by simp))

lemma turns_joinPairs {I : Draft → Prop}
 (hste : ∀ d u v l, I d → u ∈ d.work.ids → v ∈ d.work.ids →
  I (((d.edit (link u v (.int l))).edit (mark u)).edit (mark v)))
 (hF : ∀ d e, I d → (e = .outOfPatience ∨ labels < 1 ∨ d.work.ids.length < 2) → F e d)
  (target : Int) (fuel : Nat)
 (hd : I d) : Turns (joinPairs patience labels target fuel) d (fun _ => I) F := by
 induction fuel generalizing d with
 | zero => exact turns_throw (hF d _ hd (.inl rfl))
 | succ fuel ih =>
  refine Turns.bind (turns_graph ?_)
  split
  · exact turns_pure hd
  refine turns_enter (Turns.bind (turns_drawPair (fun u hu v hv => ?_) fun e h =>
   hF d e hd (h.imp id .inr)))
  refine Turns.bind (turns_drawLabel (fun l => ?_) fun e h => hF _ e hd (.inr (.inl h)))
  exact Turns.bind
   (turns_edit (Turns.bind (turns_edit (Turns.bind (turns_edit (ih (hste _ u v l hd hu hv)))))))

def newNodes (id : Int) : List Int → List (NodeId × Attrs)
 | [] => []
 | l :: ls => newNode id (.int l) :: newNodes (id + 1) ls

lemma length_newNodes (i : Int) (ls : List Int) : (newNodes i ls).length = ls.length := by
 induction ls generalizing i with
 | nil => rfl
 | cons l ls ih => rw [newNodes,length_cons,ih,length_cons]

lemma mem_newNodes {ls : List Int} {n : NodeId} :
 n ∈ (newNodes i ls).map fst ↔ ∃ j, i ≤ j ∧ j < i + ls.length ∧ n = .num j := by
 induction ls generalizing i with
 | nil => simpa [newNodes] using fun j hle hlt => absurd hle (Int.not_le.2 hlt)
 | cons l ls ih =>
  rw [newNodes,map_cons,mem_cons,ih]
  constructor
  · rintro (rfl | ⟨j,hle,hlt,rfl⟩)
    · exact ⟨i,Int.le_refl i,by rw [length_cons]; omega,rfl⟩
    · exact ⟨j,by omega,by rw [length_cons]; omega,rfl⟩
  · rintro ⟨j,hle,hlt,rfl⟩
    rcases Int.lt_or_eq_of_le hle with hlt' | rfl
    · exact .inr ⟨j,by omega,by rw [length_cons] at hlt; omega,rfl⟩
    · exact .inl rfl

lemma nodup_newNodes (i : Int) (ls : List Int) : ((newNodes i ls).map fst).Nodup := by
 induction ls generalizing i with
 | nil => exact nodup_nil
 | cons l ls ih =>
  refine nodup_cons.2 ⟨fun hmem => ?_,ih (i + 1)⟩
  obtain ⟨j,hle,_,heq⟩ := mem_newNodes.1 hmem
  have := NodeId.num.inj heq
  omega

section
variable (hg : g.ids.Nodup) (hbel : ∀ j, .num j ∈ g.ids → j < i) (ls : List Int)
include hg hbel ls

lemma ids_addAll : (addAll (newNodes i ls) g).ids = g.ids ++ (newNodes i ls).map fst := by
 refine ids_foldl_addNode (nodup_append.2 ⟨hg,nodup_newNodes i ls,?_⟩)
 rintro a ha b hb rfl
 obtain ⟨j,hle,_,rfl⟩ := mem_newNodes.1 hb
 have := hbel j ha
 omega

lemma below_addAll {j : Int} (hj : .num j ∈ (addAll (newNodes i ls) g).ids) : j < i + ls.length := by
 rw [ids_addAll hg hbel,mem_append] at hj
 rcases hj with hj | hj
 · have := hbel j hj
   omega
 · obtain ⟨j',_,hlt,heq⟩ := mem_newNodes.1 hj
   cases heq
   exact hlt

lemma size_addAll : (addAll (newNodes i ls) g).size = g.size + ls.length := by
 rw [size_eq_length,ids_addAll hg hbel,length_append,← size_eq_length,length_map,length_newNodes]

end

lemma turns_drawNodes_numbered {Q : List (NodeId × Attrs) → Draft → Prop} (n : Nat) (id : Int)
 (hQ : ∀ ls : List Int, ls.length = n → (∀ l ∈ ls, 1 ≤ l ∧ l ≤ labels) → Q (newNodes id ls) d)
 (hF : ∀ e, labels < 1 → F e d) :
 Turns (drawNodes labels n id) d Q F := by
 induction n generalizing id Q with
 | zero => exact turns_pure (hQ [] rfl (by simp))
 | succ n ih =>
  refine Turns.bind (turns_drawLabel_numbered
   (fun l hl hl' => Turns.bind (ih (id + 1) fun ls hls hmem => turns_pure ?_)) hF)
  exact hQ (l :: ls) (by simp [hls]) (forall_mem_cons.2 ⟨⟨hl,hl'⟩,hmem⟩)

lemma turns_drawNodes {Q : List (NodeId × Attrs) → Draft → Prop} (n : Nat) (id : Int)
 (hQ : ∀ ls, ls.length = n → Q (newNodes id ls) d) (hF : ∀ e, labels < 1 → F e d) :
  Turns (drawNodes labels n id) d Q F :=
 turns_drawNodes_numbered n id (fun ls hls _ => hQ ls hls) hF

lemma turns_drawOther {old : Value}
 (hQ : ∀ l : Int, 1 ≤ l → l ≤ labels → Q (.int l) d)
 (hF : ∀ e, (e = .outOfPatience ∨ labels < 1) → F e d) :
 Turns (retry (do
  let v ← drawLabel labels
  return if v == old then none else some v) patience) d Q F := by
 refine turns_retry (Turns.bind (turns_drawLabel_numbered
  (fun l hl hl' => turns_pure ⟨rfl,fun v heq => ?_⟩)
  fun e h => hF e (.inr h))) (hF _ (.inl rfl)) patience
 split at heq
 · cases heq
 · exact some.inj heq ▸ hQ l hl hl'

lemma turns_changeLabel {Q : Unit → Draft → Prop}
 (hQ : ∀ n ∈ d.work.ids, ∀ l, Q () (d.edit (relabel n (.int l))))
 (hF : ∀ e, (e = .outOfPatience ∨ labels < 1 ∨ d.work.ids = [] ∨ ∃ n ∈ d.work.ids,
  d.work.nodeAttr? n "label" = none) → F e d) :
 Turns (changeLabel patience labels) d Q F := by
 refine Turns.bind (turns_graph (Turns.bind (turns_draw (Draw.brings_drawFrom d.work.ids)
  (fun n hn => ?_)
  fun e h => hF e (.inr (.inr (.inl h))))))
 cases hlab : d.work.nodeAttr? n "label" with
 | none => exact Turns.bind (turns_throw (hF _ (.inr (.inr (.inr ⟨n,hn,hlab⟩)))))
 | some old =>
  exact Turns.bind
   (turns_pure (turns_enter (Turns.bind (turns_drawOther (fun l _ _ => turns_edit (hQ n hn l))
   fun e h => hF e (h.imp id .inl)))))

end

section
variable {patience : Nat} {nodeLabels edgeLabels least most : Int} {I I' : Int → Draft → Prop}

structure Upkeep (patience : Nat) (nodeLabels edgeLabels least most : Int)
 (I I' : Int → Draft → Prop) (F : Error → Draft → Prop) :
 Prop where
 changeLabel : ∀ i d, I i d → Turns (changeLabel patience nodeLabels) d (fun _ => I i) F
 addEdge : ∀ i d n, I i d → Turns (addEdges patience edgeLabels n n) d (fun _ => I i) F
 removeEdge : ∀ i d, I i d → Turns (removeEdge patience) d (fun _ => I i) F
 addNode : ∀ i d, I i d →
  Turns (addNodes patience (d.work.size + 1) i nodeLabels edgeLabels least most) d I' F
 removeNode : ∀ i d, I' i d → Turns (removeNodesDownTo patience (d.work.size - 1)) d (fun _ => I i) F

variable (h : Upkeep patience nodeLabels edgeLabels least most I I' F) {i : Int}
include h

lemma Upkeep.weaken (hF : ∀ e d, F e d → F' e d) :
 Upkeep patience nodeLabels edgeLabels least most I I' F' where
 changeLabel i d hd := (h.changeLabel i d hd).imp (fun _ _ h => h) hF
 addEdge i d n hd := (h.addEdge i d n hd).imp (fun _ _ h => h) hF
 removeEdge i d hd := (h.removeEdge i d hd).imp (fun _ _ h => h) hF
 addNode i d hd := (h.addNode i d hd).imp (fun _ _ h => h) hF
 removeNode i d hd := (h.removeNode i d hd).imp (fun _ _ h => h) hF

lemma Upkeep.turns_removeEdges (n : Nat) (hd : I i d) :
 Turns (removeEdges patience n) d (fun _ => I i) F := by
 induction n generalizing d with
 | zero => exact turns_pure hd
 | succ n ih => exact Turns.bind ((h.removeEdge i d hd).imp (fun _ _ hd => ih hd) fun _ _ h => h)

lemma Upkeep.turns_moveEdge (hd : I i d) :
 Turns (moveEdge patience edgeLabels) d (fun _ => I i) F := by
 have hrem : ∀ n d, I i d →
  Turns (do if n ≤ ((← Edit.graph).edges.length : Int) then Sampling.removeEdge patience) d
  (fun _ => I i) F := by
  intro n d hd
  refine Turns.bind (turns_graph ?_)
  split
  · exact h.removeEdge i d hd
  · exact turns_pure hd
 refine Turns.bind (turns_graph ?_)
 dsimp only
 split
 · exact Turns.bind ((h.addEdge i d _ hd).imp (fun _ d hd => hrem _ d hd) fun _ _ h => h)
 · exact hrem _ d hd

lemma Upkeep.turns_modifySteps (n : Nat) (hd : I i d) :
 Turns (modifySteps patience nodeLabels edgeLabels least most n i) d I F := by
 induction n generalizing i d with
 | zero => exact turns_pure hd
 | succ n ih =>
  refine Turns.bind (turns_draw (Draw.brings_drawInt 0 3) (fun kind _ => ?_) fun _ h => by omega)
  dsimp only
  split
  · exact Turns.bind ((h.changeLabel i d hd).imp (fun _ _ hd => Turns.bind (turns_pure (ih hd)))
     fun _ _ h => h)
  · refine Turns.bind (turns_graph (Turns.bind ((h.addNode i d hd).imp (fun j d' hd' => ?_)
     fun _ _ h => h)))
    exact Turns.bind (turns_graph
     (Turns.bind ((h.removeNode j d' hd').imp (fun _ _ hd => Turns.bind (turns_pure (ih hd)))
     fun _ _ h => h)))
  · exact Turns.bind ((h.turns_moveEdge hd).imp (fun _ _ hd => Turns.bind (turns_pure (ih hd)))
     fun _ _ h => h)

lemma Upkeep.turns_modifyAtRandom (hd : I i d) :
 Turns (modifyAtRandom patience nodeLabels edgeLabels i least most) d I F :=
 Turns.bind (turns_graph (Turns.bind (turns_draw (Draw.brings_drawInt 1 _)
  (fun _ _ => h.turns_modifySteps _ hd)
  fun _ h => by omega)))

end

section

structure Stable (I : Int → Draft → Prop) : Prop where
 ends : ∀ i d u v, I i d → d.work.hasEdge u v = true → v ∈ d.work.ids
 withoutNode : ∀ i d n, I i d → n ∈ d.work.ids → I i (d.leave (d.work.relisted.removeNode n))
 withoutEdge : ∀ i d e, I i d → e ∈ d.work.edgeList →
  I i (d.leave (d.work.relisted.removeEdge e.source e.target))
 linked : ∀ i d u v l, I i d → u ∈ d.work.ids → v ∈ d.work.ids → I i (d.edit (link u v (.int l)))
 marked : ∀ i d n, I i d → n ∈ d.work.ids → I i (d.edit (mark n))
 relabelled : ∀ i d n l, I i d → n ∈ d.work.ids → I i (d.edit (relabel n (.int l)))
 added : ∀ i d ls, I i d → I (i + ls.length) (d.edit (addAll (newNodes i ls)))

lemma ids_setNodeAttr (g : Graph) (n : NodeId) (name : String) (v : Value) :
 (g.setNodeAttr n name v).ids = g.ids :=
 Table.keys_modify g.nodes n _

variable {u v : NodeId}

lemma ids_addEdge (hu : u ∈ g.ids) (hv : v ∈ g.ids) (a : Attrs) : (g.addEdge u v a).ids = g.ids := by
 rw [addEdge,touch_of_mem hu,touch_of_mem hv]
 dsimp only
 split
 · rfl
 · rw [ids,nodes_place,ids]

lemma ids_linkMark (hu : u ∈ g.ids) (hv : v ∈ g.ids) (n : NodeId) (l : Value) :
 (mark n (link u v l g)).ids = g.ids := by
 rw [mark,ids_setNodeAttr,link,ids_addEdge hu hv]

variable {I : Int → Draft → Prop} (hI : Stable I) {patience : Nat} {i : Int}
include hI

lemma Stable.turns_removeNode (hd : I i d) :
 Turns (removeNode patience) d (fun _ => I i) fun _ d => ∃ i, I i d :=
 Sampling.turns_removeNode (fun n hn _ => hI.withoutNode i d n hd hn) fun _ _ => ⟨i,hd⟩

lemma Stable.turns_removeEdge (hd : I i d) :
 Turns (removeEdge patience) d (fun _ => I i) fun _ d => ∃ i, I i d :=
 Sampling.turns_removeEdge (fun e he _ => hI.withoutEdge i d e hd he) fun _ _ => ⟨i,hd⟩

lemma Stable.turns_removeNodesBy (n : Nat) (hd : I i d) :
 Turns (removeNodesBy patience n) d (fun _ => I i) fun _ d => ∃ i, I i d := by
 induction n generalizing d with
 | zero => exact turns_pure hd
 | succ n ih => exact Turns.bind ((hI.turns_removeNode hd).imp (fun _ _ hd => ih hd) fun _ _ h => h)

lemma Stable.turns_removeNodesDownTo (count : Int) (hd : I i d) :
 Turns (removeNodesDownTo patience count) d (fun _ => I i) fun _ d => ∃ i, I i d :=
 Turns.bind (turns_graph (hI.turns_removeNodesBy _ hd))

lemma Stable.linkMark (hd : I i d) (hu : u ∈ d.work.ids) (hv : v ∈ d.work.ids) (l : Int) :
 I i ((d.edit (link u v (.int l))).edit (mark u)) := by
 refine hI.marked i _ u (hI.linked i d u v l hd hu hv) ?_
 exact ids_addEdge hu hv _ ▸ hu

lemma Stable.turns_joinLoneNodes (labels : Int) (fuel : Nat) {linked lone : List NodeId} (hd : I i d)
 (hlin : ∀ n ∈ linked, n ∈ d.work.ids) (hlone : ∀ n ∈ lone, n ∈ d.work.ids) :
 Turns (joinLoneNodes patience labels fuel linked lone) d (fun _ => I i) fun _ d => ∃ i, I i d := by
 refine Sampling.turns_joinLoneNodes (J :=
  fun linked lone d => I i d ∧ (∀ n ∈ linked, n ∈ d.work.ids) ∧ ∀ n ∈ lone, n ∈ d.work.ids)
  (fun _ _ _ h _ => h.1) ?_ ?_ (fun _ _ _ _ h _ => ⟨i,h.1⟩) fuel ⟨hd,hlin,hlone⟩
 · rintro lone d new old l ⟨hd,-,hlone⟩ hnew hold -
   have hids := ids_linkMark (hlone old hold) (hlone new hnew) old (.int l)
   refine ⟨hI.linkMark hd (hlone old hold) (hlone new hnew) l,fun n hn => ?_,fun n hn => ?_⟩
   · refine hids ▸ hlone n ?_
     rcases mem_pair.1 hn with rfl | rfl
     · exact hold
     · exact hnew
   · exact hids ▸ hlone n (mem_of_mem_erase (mem_of_mem_erase hn))
 · rintro linked lone d new old l ⟨hd,hlin,hlone⟩ hnew hold
   have hids := ids_linkMark (hlin old hold) (hlone new hnew) old (.int l)
   refine ⟨hI.linkMark hd (hlin old hold) (hlone new hnew) l,fun n hn => ?_,fun n hn => ?_⟩
   · rcases mem_append.1 hn with hn | hn
     · exact hids ▸ hlin n hn
     · exact hids ▸ hlone n (mem_singleton.1 hn ▸ hnew)
   · exact hids ▸ hlone n (mem_of_mem_erase hn)

lemma Stable.turns_addEdges (labels least most : Int) (hd : I i d) :
 Turns (addEdges patience labels least most) d (fun _ => I i) fun _ d => ∃ i, I i d := by
 refine Turns.bind (turns_graph ?_)
 split
 · exact turns_pure hd
 have hlin : ∀ n ∈ distinct (d.work.ids.flatMap d.work.neighbors), n ∈ d.work.ids := by
  intro n hn
  obtain ⟨m,_,hmn⟩ := mem_flatMap.1 (mem_distinct.1 hn)
  exact hI.ends i d m n hd (mem_neighbors_iff.1 hmn)
 refine Turns.bind ((hI.turns_joinLoneNodes labels _ hd hlin fun n hn => mem_of_mem_filter hn).imp
  (fun _ d hd => ?_)
  fun _ _ h => h)
 refine Turns.bind (turns_draw (Draw.brings_drawInt least (most + 1)) (fun drawn _ => ?_)
  fun _ _ => ⟨i,hd⟩)
 refine turns_joinPairs (fun d u v l hd hu hv => ?_) (fun d _ hd _ => ⟨i,hd⟩) _ _ hd
 exact hI.marked i _ v (hI.linkMark hd hu hv l) (ids_linkMark hu hv u (.int l) ▸ hv)

lemma Stable.turns_addNodes (count nodeLabels edgeLabels least most : Int) (hd : I i d) :
 Turns (addNodes patience count i nodeLabels edgeLabels least most) d I fun _ d => ∃ i, I i d := by
 refine Turns.bind (turns_graph (Turns.bind (turns_drawNodes _ i (fun ls hls => ?_)
  fun _ _ => ⟨i,hd⟩)))
 refine Turns.bind
  (turns_edit (Turns.bind ((hI.turns_addEdges edgeLabels least most (hI.added i d ls hd)).imp
  (fun _ d hd => turns_pure ?_) fun _ _ h => h)))
 rwa [hls] at hd

lemma Stable.upkeep (patience : Nat) (nodeLabels edgeLabels least most : Int) :
 Upkeep patience nodeLabels edgeLabels least most I I fun _ d => ∃ i, I i d where
 changeLabel i d hd := turns_changeLabel (fun n hn l => hI.relabelled i d n l hd hn)
  fun _ _ => ⟨i,hd⟩
 addEdge _ _ _ hd := hI.turns_addEdges _ _ _ hd
 removeEdge _ _ hd := hI.turns_removeEdge hd
 addNode _ _ hd := hI.turns_addNodes _ _ _ _ _ hd
 removeNode _ _ hd := hI.turns_removeNodesDownTo _ hd

end
end Sampling
end MotifMatch
