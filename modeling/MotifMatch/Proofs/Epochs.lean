import MotifMatch.Proofs.Curricula
import MotifMatch.Proofs.Verdicts
import MotifMatch.Training

namespace MotifMatch.Draw

lemma yields_balance (size : Nat) (keys : List String) :
 Yields (Curriculum.balance size keys true) fun _ => True :=
 (yields_shuffle _).bind fun _ _ => (yields_shuffle _).bind fun _ _ => (yields_shuffle _).imp
  fun _ _ => trivial

end MotifMatch.Draw

namespace MotifMatch.Curriculum
open Draw

lemma refill_limit (c : Curriculum) : Yields c.refill fun c' => c'.limit = -1 ∨
 c'.limit = c.limit := by
 have hadm : c.admitted.limit = -1 ∨ c.admitted.limit = c.limit := by
  rcases admitted_cases c with ⟨h,_⟩ | ⟨t,_,_,h⟩ <;> rw [h]
  · exact .inl rfl
  · exact .inr rfl
 rw [refill_eq]
 split
 · exact (yields_balance _ _).bind fun _ _ => yields_pure hadm
 · exact yields_pure hadm

lemma raise_limit (c : Curriculum) : Yields (c.raise 1) fun c' => c'.limit = -1 ∨
 c'.limit = c.limit ∧ c.limit < 0 ∨ c'.limit = c.limit + 1 := by
 unfold raise
 split
 · next h => exact yields_pure (.inr (.inl ⟨rfl,h⟩))
 · dsimp only
   split
   · exact (refill_limit _).imp fun c' h => .inl (h.elim id id)
   · exact (refill_limit _).imp fun c' h => h.imp id .inr

end MotifMatch.Curriculum

namespace MotifMatch.Training
open List Run Evaluation Binary64 Network
variable {α : Type} {p : Plan} {log : List Epoch} {e : Epoch} {c c' : Course} {k n : Nat}
 {m : Model Float} {s : Float}
 {σ σ₀ σ' τ : Session} {go : Bool} {t : Nat → Course → Run (Model Float × Float)}

/-- The earlier epochs of the same phase: those on the same side of the removal of the limit. -/
def peers (log : List Epoch) (limit : Int) : List Epoch :=
 log.filter fun x => decide (0 < x.limit) == decide (0 < limit)

def Record (log : List Epoch) (e : Epoch) : Prop :=
 0.0 < e.score ∧ ∀ x ∈ peers log e.limit, x.score < e.score ∨ undefined x.score = true

instance : Decidable (Record log e) := inferInstanceAs (Decidable (_ ∧ _))

def Idle (log : List Epoch) (e : Epoch) : Prop := e.limit ≤ 0 ∧ ¬ Record log e

instance : Decidable (Idle log e) := inferInstanceAs (Decidable (_ ∧ _))

def idleRun : List Epoch → Nat
 | [] => 0
 | e :: log => if Idle log e then idleRun log + 1 else 0

def lastRecord : List Epoch → Option Epoch
 | [] => none
 | e :: log => if Record log e then some e else lastRecord log

section
variable {x y z : Float}

lemma number_of_lt (h : x < y) : y.toModel.unpack ≠ .notANumber :=
 undefined_iff.not.1 (Bool.eq_false_iff.1 (lt_iff_standing.1 h).2)

lemma lt_of_lt_of_not_lt (h : x < z) (hy : ¬ x < y) : y < z ∨ undefined y := by
 by_cases hnan : y.toModel.unpack = .notANumber
 · exact .inr (undefined_iff.2 hnan)
 · have hx := not_nan_of_lt h
   have hz := number_of_lt h
   rw [lt_iff hx hnan] at hy
   rw [lt_iff hx hz] at h
   exact .inl ((lt_iff hnan hz).2 (by omega))

end

def Climbs (k k' : Int) : Prop := k' = k ∨ 0 < k ∧ (k' = -1 ∨ k < k')

structure Charts (p : Plan) (log : List Epoch) (c : Course) : Prop where
 growing : 0 < c.set.limit → p.growing = true
 reached : c.best = 0.0 ∨ ∃ x ∈ peers log c.set.limit, x.score = c.best ∧ 0.0 < x.score
 bound : ∀ x ∈ peers log c.set.limit, ¬ c.best < x.score
 idle : c.idle = idleRun log
 limits : ∀ x ∈ log, Climbs x.limit c.set.limit

lemma Charts.record_iff (h : Charts p log c) : Record log ⟨c.set.limit,m,s⟩ ↔ c.best < s := by
 constructor
 · rintro ⟨hpos,hall⟩
   rcases h.reached with hzero | ⟨x,hx,hbest,hx0⟩
   · exact hzero ▸ hpos
   · refine hbest ▸ (hall x hx).resolve_right fun hnan => ?_
     exact number_of_lt hx0 (undefined_iff.1 hnan)
 · intro hlt
   refine ⟨?_,fun x hx => lt_of_lt_of_not_lt hlt (h.bound x hx)⟩
   rcases h.reached with hzero | ⟨x,_,hbest,hx0⟩
   · exact hzero ▸ hlt
   · exact lt_trans hx0 (hbest ▸ hlt)

lemma mem_peers_cons {limit : Int} {x : Epoch} (he : e.limit = limit) :
 x ∈ peers (e :: log) limit ↔ x = e ∨ x ∈ peers log limit := by
 rw [peers,filter_cons_of_pos (by simp [he]),mem_cons,peers]

lemma Charts.cons_record (h : Charts p log c) (hlt : c.best < s) :
 Charts p (⟨c.set.limit,m,s⟩ :: log) { c with best := s, idle := 0 } where
 growing := h.growing
 reached := .inr ⟨_,(mem_peers_cons rfl).2 (.inl rfl),rfl,(h.record_iff.2 hlt).1⟩
 bound x hx hs := by
  rcases (mem_peers_cons rfl).1 hx with rfl | hx
  · exact absurd hs (lt_irrefl _)
  · exact h.bound x hx (lt_trans hlt hs)
 idle := by rw [idleRun,if_neg fun hidle => hidle.2 (h.record_iff.2 hlt)]
 limits := forall_mem_cons.2 ⟨.inl rfl,h.limits⟩

lemma idleRun_eq_zero (h : ∀ x ∈ log, 0 < x.limit) : idleRun log = 0 := by
 cases log with
 | nil => rfl
 | cons e log =>
  refine if_neg fun hidle => ?_
  exact not_le.2 (h e mem_cons_self) hidle.1

lemma Charts.limited (h : Charts p log c) (hlim : 0 < c.set.limit) : ∀ x ∈ log, 0 < x.limit := by
 intro x hx
 have := h.limits x hx
 unfold Climbs at this
 omega

lemma Charts.cons_other (h : Charts p log c) (hlt : ¬ c.best < s) :
 Charts p (⟨c.set.limit,m,s⟩ :: log) (if p.growing && 0 <
  c.set.limit then c else { c with idle := c.idle + 1 }) := by
 have hall : ∀ i, i = idleRun (⟨c.set.limit,m,s⟩ :: log) →
  Charts p (⟨c.set.limit,m,s⟩ :: log) { c with idle := i } := fun i hi =>
  { growing := h.growing
    reached := h.reached.imp id fun ⟨x,hx,hbest⟩ => ⟨x,(mem_peers_cons rfl).2 (.inr hx),hbest⟩
    bound := fun x hx => ((mem_peers_cons rfl).1 hx).elim (fun hxe => hxe ▸ hlt) (h.bound x)
    idle := hi
    limits := forall_mem_cons.2 ⟨.inl rfl,h.limits⟩ }
 split
 · next hgrow =>
   have hlim : 0 < c.set.limit := by simpa using (Bool.and_eq_true_iff.1 hgrow).2
   have hlog := h.limited hlim
   exact hall c.idle
    (by rw [h.idle,idleRun_eq_zero hlog,idleRun_eq_zero (forall_mem_cons.2 ⟨hlim,hlog⟩)])
 · next hgrow =>
   refine hall _ ?_
   have hlim : c.set.limit ≤ 0 := by
    by_contra hpos
    exact hgrow (by simp [h.growing (by omega),not_le.1 hpos])
   rw [idleRun,if_pos ⟨hlim,mt h.record_iff.1 hlt⟩,h.idle]

lemma grow_cases (h : Ends (grow p k c) σ (.ok c') σ') (hlim : 0 < c.set.limit) :
 σ'.files = σ.files ∧
 (c' = c ∨ ∃ set : Curriculum, set.limit = -1 ∧ c' = { set } ∨ set.limit = c.set.limit + 1 ∧
  c' = { c with set }) := by
 unfold grow at h
 split at h
 · cases (h.unique (ends_throw _ _)).1
 split at h
 · obtain ⟨rfl,rfl⟩ := h.of_pure
   exact ⟨rfl,.inl rfl⟩
 · obtain ⟨set,_,hdraw,h⟩ := h.split
   obtain ⟨rfl,rfl⟩ := h.of_pure
   obtain ⟨hset,rfl⟩ := (ends_draw _ _).unique hdraw
   refine ⟨rfl,.inr ⟨set,?_⟩⟩
   rcases (Curriculum.raise_limit c.set).of_run (Prod.ext hset rfl) with hnew | ⟨_,hneg⟩ | hnew
   · exact .inl ⟨hnew,if_pos (by omega)⟩
   · omega
   · exact .inr ⟨hnew,if_neg (by omega)⟩

lemma Charts.grown (h : Charts p log c) (hlim : 0 < c.set.limit)
 (hgrow : Ends (grow p k c) σ (.ok c') σ') : Charts p log c' := by
 have hlog := h.limited hlim
 have hcli : ∀ {l : Int}, l = -1 ∨ c.set.limit < l → ∀ x ∈ log, Climbs x.limit l := by
  intro l hl x hx
  have := h.limits x hx
  have := hlog x hx
  unfold Climbs at *
  omega
 obtain ⟨_,rfl | ⟨set,⟨hset,rfl⟩ | ⟨hset,rfl⟩⟩⟩ := grow_cases hgrow hlim
 · exact h
 · refine ⟨fun hpos => ?_,.inl rfl,fun x hx => ?_,(idleRun_eq_zero hlog).symm,hcli (.inl hset)⟩
   · simp only [hset] at hpos
     omega
   · -- no epoch has run since the limit was removed
     have hx' := mem_filter.1 hx
     simp [hset,hlog x hx'.1] at hx'
 · have hpee : peers log set.limit = peers log c.set.limit := by
    rw [peers,peers,hset]
    simp [hlim,show 0 < c.set.limit + 1 by omega]
   exact ⟨fun _ => h.growing hlim,hpee ▸ h.reached,hpee ▸ h.bound,h.idle,
    hcli (.inr (by simp only [hset]; omega))⟩

def Holds (p : Plan) (i : Item) (σ : Session) : Prop :=
 ∃ place, σ.files.resolve p.checkpoint = .ok place ∧ σ.files.find place = .ok (.stored i)

lemma holds_of_store {i j : Item} (h : Ends (store p.checkpoint i) σ (.ok ()) σ') :
 Holds p j σ' ↔ j = i := by
 obtain ⟨place,files,rfl,hpla,hput,hkeep⟩ := h.of_writeEntry
 have hres := hkeep.resolve hpla
 have hfind := Entry.find_put hput
 constructor
 · rintro ⟨_,hres',hfind'⟩
   cases hres.symm.trans hres'
   cases hfind.symm.trans hfind'
   rfl
 · rintro rfl
   exact ⟨place,hres,hfind⟩

lemma Charts.settled (h : Charts p log c) (hrun : Ends (settle p k c m s) σ (.ok (c',go)) σ') :
 (go = false ↔ 3 ≤ idleRun (⟨c.set.limit,m,s⟩ :: log)) ∧
  (go → Charts p (⟨c.set.limit,m,s⟩ :: log) c') ∧
 ∀ i, Holds p i σ' ↔ if Record log ⟨c.set.limit,m,s⟩ then i = parameters m else Holds p i σ := by
 obtain ⟨c₁,τ,hfir,hrun⟩ := hrun.split
 have hnew : Charts p (⟨c.set.limit,m,s⟩ :: log) c₁ ∧ c₁.set = c.set ∧
  ∀ i, Holds p i τ ↔ if Record log ⟨c.set.limit,m,s⟩ then i = parameters m else Holds p i σ := by
  split at hfir
  · next hlt =>
    obtain ⟨_,_,hsto,hfir⟩ := hfir.split
    obtain ⟨rfl,rfl⟩ := hfir.of_pure
    exact ⟨h.cons_record hlt,rfl,fun i => by rw [if_pos (h.record_iff.2 hlt),holds_of_store hsto]⟩
  · next hlt =>
    obtain ⟨rfl,rfl⟩ := hfir.of_pure
    exact ⟨h.cons_other hlt,by split <;> rfl,fun i => by rw [if_neg (mt h.record_iff.1 hlt)]⟩
 obtain ⟨hcha,hset,hhold⟩ := hnew
 split at hrun
 · next hgrow =>
   have hlim : 0 < c.set.limit := by simpa using (Bool.and_eq_true_iff.1 hgrow).2
   obtain ⟨c₂,_,hgrown,hrun⟩ := hrun.split
   obtain ⟨hpair,rfl⟩ := hrun.of_pure
   obtain ⟨rfl,rfl⟩ := Prod.mk.inj hpair
   rw [← hset] at hlim
   have hzero := idleRun_eq_zero (hcha.limited hlim)
   refine ⟨by rw [hzero]; simp,fun _ => hcha.grown hlim hgrown,fun i => ?_⟩
   rw [← hhold,Holds,(grow_cases hgrown hlim).1,Holds]
 · obtain ⟨hpair,rfl⟩ := hrun.of_pure
   obtain ⟨rfl,rfl⟩ := Prod.mk.inj hpair
   exact ⟨by rw [hcha.idle]; simp,fun _ => hcha,hhold⟩

structure Chronicle (p : Plan) (σ₀ : Session) (log : List Epoch) (σ : Session) : Prop where
 climbs : log.Pairwise fun e x => Climbs x.limit e.limit
 goesOn : ∀ l, l <:+ log → l ≠ log → idleRun l < 3
 saved : ∀ i, Holds p i σ ↔ (lastRecord log).elim (Holds p i σ₀) fun e => i = parameters e.model

def Spares (p : Plan) (x : Run α) : Prop :=
 ∀ σ a σ', Ends x σ (.ok a) σ' → ∀ i, Holds p i σ' ↔ Holds p i σ

lemma Chronicle.cons (h : Chronicle p σ₀ log σ) (hcha : Charts p log c) (hcal : idleRun log < 3)
 (hhold : ∀ i, Holds p i σ' ↔ if Record log ⟨c.set.limit,m,s⟩ then i =
  parameters m else Holds p i σ) :
 Chronicle p σ₀ (⟨c.set.limit,m,s⟩ :: log) σ' where
 climbs := pairwise_cons.2 ⟨hcha.limits,h.climbs⟩
 goesOn l hl hne := by
  rcases suffix_cons_iff.1 hl with rfl | hl
  · exact absurd rfl hne
  · by_cases heq : l = log
    · exact heq ▸ hcal
    · exact h.goesOn l hl heq
 saved i := by
  rw [hhold,lastRecord]
  split
  · rfl
  · exact h.saved i

lemma Chronicle.run (htri : ∀ k c, Spares p (t k c)) {log' : List Epoch} (h : Chronicle p σ₀ log σ)
 (hcha : Charts p log c)
 (hcal : idleRun log < 3) (hrun : Ends (epochs p t n k c log) σ (.ok log') σ') :
 Chronicle p σ₀ log' σ' ∧ log'.length ≤ log.length + n ∧
  (log'.length < log.length + n → 3 ≤ idleRun log') := by
 induction n generalizing k c log σ with
 | zero =>
  obtain ⟨rfl,rfl⟩ := hrun.of_pure
  exact ⟨h,le_rfl,fun hlt => absurd hlt (lt_irrefl _)⟩
 | succ n ih =>
  obtain ⟨⟨m,s⟩,τ,htrie,hrun⟩ := hrun.split
  obtain ⟨⟨c',go⟩,τ',hset,hrun⟩ := hrun.split
  obtain ⟨hgo,hcha',hhold⟩ := hcha.settled hset
  simp only [htri k c σ _ τ htrie] at hhold
  have hnext := h.cons hcha hcal hhold
  cases go with
  | false =>
   obtain ⟨rfl,rfl⟩ := hrun.of_pure
   exact ⟨hnext,by rw [length_cons]; omega,fun _ => hgo.1 rfl⟩
  | true =>
   obtain ⟨hdone,hle,hstop⟩ := ih hnext (hcha' rfl) (lt_of_not_ge fun hle => by cases hgo.2 hle) hrun
   rw [length_cons,Nat.add_right_comm] at hle hstop
   exact ⟨hdone,hle,hstop⟩

end MotifMatch.Training
