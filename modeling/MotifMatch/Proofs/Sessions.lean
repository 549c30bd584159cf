import MotifMatch.Proofs.FileTrees
import MotifMatch.Session

namespace MotifMatch.Run
open Entry
variable {α β : Type} {x : Run α} {f : α → Run β} {σ σ' σ'' : Session} {a : α} {r : Except Error β}
 {name path : String}

def Ends (x : Run α) (σ : Session) (r : Except Error α) (σ' : Session) : Prop := x.run.run σ = (r,σ')

lemma ends_pure (a : α) (σ : Session) : Ends (pure a) σ (.ok a) σ := rfl

lemma ends_throw (e : Error) (σ : Session) : Ends (throw e : Run α) σ (.error e) σ := rfl

lemma Ends.bind (h : Ends x σ (.ok a) σ') (hf : Ends (f a) σ' r σ'') : Ends (x >>= f) σ r σ'' := by
 simp only [Ends,ExceptT.run_bind,StateT.run_bind] at h hf ⊢
 rw [h]
 exact hf

lemma Ends.bind_error {e : Error} (h : Ends x σ (.error e) σ') : Ends (x >>= f) σ (.error e) σ' := by
 simp only [Ends,ExceptT.run_bind,StateT.run_bind] at h ⊢
 rw [h]
 rfl

lemma ends_get (σ : Session) : Ends get σ (.ok σ) σ := rfl

lemma ends_set (σ σ' : Session) : Ends (set σ') σ (.ok ()) σ' := rfl

lemma ends_ofExcept (r : Except Error α) (σ : Session) : Ends (ofExcept r) σ r σ := by
 cases r <;> rfl

lemma ends_ofExcept_ok {r : Except Error α} (h : r = .ok a) : Ends (ofExcept r) σ (.ok a) σ :=
 h ▸ ends_ofExcept r σ

lemma ends_ofExcept_error {r : Except Error α} {e : Error} (h : r = .error e) :
 Ends (ofExcept r) σ (.error e) σ :=
 h ▸ ends_ofExcept r σ

lemma ends_draw (d : Draw α) (σ : Session) :
 Ends (draw d) σ (d.run.run σ.streams).1 { σ with streams := (d.run.run σ.streams).2 } :=
 (ends_get σ).bind ((ends_set σ _).bind (ends_ofExcept _ _))

lemma ends_setting (name : String) (σ : Session) : Ends (setting name) σ (σ.settings.get name) σ :=
 (ends_get σ).bind (ends_ofExcept _ σ)

lemma ends_flag {v : Value} (h : σ.settings.get name = .ok v) :
 Ends (flag name) σ (.ok v.truthy) σ :=
 Ends.bind (h ▸ ends_setting name σ) (ends_pure _ σ)

lemma ends_shownSetting {v : Value} (h : σ.settings.get name = .ok v) :
 Ends (shownSetting name) σ (.ok v.text) σ :=
 Ends.bind (h ▸ ends_setting name σ) (ends_pure _ σ)

lemma ends_settingText {s : String} (h : σ.settings.get name = .ok (.str s)) :
 Ends (settingText name) σ (.ok s) σ :=
 Ends.bind (h ▸ ends_setting name σ) (ends_pure _ σ)

lemma ends_settingInt {i : Int} (h : σ.settings.get name = .ok (.int i)) :
 Ends (settingInt name) σ (.ok i) σ := by
 have hread := h ▸ ends_setting name σ
 exact hread.bind (ends_pure i σ)

lemma Ends.unique {r r' : Except Error α} (h : Ends x σ r σ') (h' : Ends x σ r' σ'') :
 r = r' ∧ σ' = σ'' :=
 Prod.mk.inj (Eq.trans (Eq.symm h) h')

lemma ends_entryAt (path : String) (σ : Session) : Ends (entryAt path) σ (σ.files.lookup path) σ :=
 (ends_get σ).bind (ends_ofExcept _ σ)

lemma ends_readText {s : String} (h : σ.files.lookup path = .ok (.text s)) :
 Ends (readText path) σ (.ok (String.ofList (Text.unifyNewlines s.toList))) σ :=
 Ends.bind (h ▸ ends_entryAt path σ) (ends_pure _ σ)

lemma ends_readText_error {e : Error} (h : σ.files.lookup path = .error e) :
 Ends (readText path) σ (.error e) σ :=
 Ends.bind_error (h ▸ ends_entryAt path σ)

lemma ends_assign (name : String) (v : Value) (σ : Session) :
 Ends (assign name v) σ (.ok ()) { σ with settings := σ.settings.set name v } := rfl

lemma ends_pathExists (path : String) (σ : Session) :
 Ends (pathExists path) σ (.ok (σ.files.exists? path)) σ :=
 (ends_get σ).bind (ends_pure _ σ)

section
variable {d : List String} {es : List (String × Entry)}

lemma ends_writeText (text : String) (hfou : σ.files.find d = .ok (.folder es))
 (hfree : ∀ c, (folder es).child? name = some c → c.isFolder = false)
 (hpath : σ.files.resolve path = .ok (d ++ [name])) (hnam : Path.namesFolder path = false) :
 ∃ files, Ends (writeText path text) σ (.ok ()) { σ with files } ∧
  files.find d = .ok (.folder (setChild name (.text text) es)) ∧ σ.files.Keeps files ∧
  σ.files.Spares (d ++ [name]) files := by
 obtain ⟨files,hput,hfind,hkee⟩ := put_concat (.text text) hfou hfree
 refine ⟨files,?_,hfind,hkee,spares_put hput⟩
 refine (ends_get σ).bind (Ends.bind (ends_ofExcept_ok hpath) ?_)
 simp only [hnam,Bool.false_eq_true,if_false,find_concat hfou]
 cases hchi : (folder es).child? name with
 | none => exact Ends.bind (ends_ofExcept_ok hput) (ends_set σ _)
 | some c =>
  cases c with
  | folder _ => cases hfree _ hchi
  | text _ | stored _ => exact Ends.bind (ends_ofExcept_ok hput) (ends_set σ _)

lemma ends_makeFolder (hfou : σ.files.find d = .ok (.folder es))
 (hfree : (folder es).child? name = none)
 (hpath : σ.files.resolve path = .ok (d ++ [name])) :
 ∃ files, Ends (makeFolder path) σ (.ok ()) { σ with files } ∧
  files.find d = .ok (.folder (setChild name (.folder []) es)) ∧ σ.files.Keeps files ∧
  σ.files.Spares (d ++ [name]) files := by
 obtain ⟨files,hput,hfind,hkee⟩ :=
  put_concat (.folder []) hfou fun c hc => by rw [hfree] at hc; cases hc
 refine ⟨files,?_,hfind,hkee,spares_put hput⟩
 refine (ends_get σ).bind (Ends.bind (ends_ofExcept_ok hpath) ?_)
 simp only [find_concat hfou,hfree]
 exact Ends.bind (ends_ofExcept_ok hput) (ends_set σ _)

end

section
open List
variable {b : β} {τ : Session} {folder m : String} {i j : Item}

lemma Ends.split (h : Ends (x >>= f) σ (.ok b) σ') :
 ∃ a τ, Ends x σ (.ok a) τ ∧ Ends (f a) τ (.ok b) σ' := by
 obtain ⟨r,τ,hx⟩ : ∃ r τ, Ends x σ r τ := ⟨_,_,rfl⟩
 cases r with
 | error e => cases ((hx.bind_error).unique h).1
 | ok a =>
  refine ⟨a,τ,hx,?_⟩
  obtain ⟨r,σ₁,hf⟩ : ∃ r σ₁, Ends (f a) τ r σ₁ := ⟨_,_,rfl⟩
  obtain ⟨rfl,rfl⟩ := (hx.bind hf).unique h
  exact hf

lemma Ends.of_pure {a b : α} (h : Ends (pure a) σ (.ok b) σ') : a = b ∧ σ = σ' := by
 obtain ⟨hab,hσ⟩ := (ends_pure a σ).unique h
 exact ⟨Except.ok.inj hab,hσ⟩

lemma Ends.of_ofExcept {r : Except Error α} {a : α} (h : Ends (ofExcept r) σ (.ok a) σ') :
 r = .ok a ∧ σ = σ' :=
 (ends_ofExcept r σ).unique h

/-- Where it succeeds, the command changes nothing. -/
def Reads (x : Run α) : Prop := ∀ σ a σ', Ends x σ (.ok a) σ' → σ = σ'

lemma reads_pure (a : α) : Reads (pure a) := fun _ _ _ h => h.of_pure.2

lemma reads_throw (e : Error) : Reads (throw e : Run α) :=
 fun σ _ _ h => by cases (h.unique (ends_throw e σ)).1

lemma Reads.bind (hx : Reads x) (hf : ∀ a, Reads (f a)) : Reads (x >>= f) := by
 intro σ b σ' h
 obtain ⟨a,τ,ha,hb⟩ := h.split
 exact (hx σ a τ ha).trans (hf a τ b σ' hb)

lemma reads_ofExcept (r : Except Error α) : Reads (ofExcept r) := fun _ _ _ h => h.of_ofExcept.2

lemma reads_get : Reads get := fun σ _ _ h => ((ends_get σ).unique h).2

lemma reads_setting (name : String) : Reads (setting name) :=
 reads_get.bind fun _ => reads_ofExcept _

lemma reads_flag (name : String) : Reads (flag name) :=
 (reads_setting name).bind fun _ => reads_pure _

lemma reads_settingText (name : String) : Reads (settingText name) := by
 refine (reads_setting name).bind fun v => ?_
 split
 · exact reads_pure _
 · exact reads_throw _

lemma reads_settingInt (name : String) : Reads (settingInt name) := by
 refine (reads_setting name).bind fun v => ?_
 split
 · exact reads_pure _
 · exact reads_throw _

lemma reads_entryAt (path : String) : Reads (entryAt path) :=
 reads_get.bind fun _ => reads_ofExcept _

lemma reads_readText (path : String) : Reads (readText path) := by
 refine (reads_entryAt path).bind fun e => ?_
 cases e with
 | text s => exact reads_pure _
 | stored x => exact reads_throw _
 | folder es => exact reads_throw _

lemma reads_fetch (path : String) : Reads (fetch path) := by
 refine (reads_entryAt path).bind fun e => ?_
 cases e with
 | stored x => exact reads_pure _
 | text s => exact reads_throw _
 | folder es => exact reads_throw _

lemma reads_filterM {p : α → Run Bool} (h : ∀ a, Reads (p a)) (xs : List α) :
 Reads (xs.filterM p) := by
 suffices haux : ∀ acc, Reads (xs.filterAuxM p acc) from (haux []).bind fun _ => reads_pure _
 induction xs with
 | nil => exact fun acc => reads_pure acc
 | cons a xs ih => exact fun acc => (h a).bind fun b => ih _

lemma Ends.of_flag {b : Bool} {v : Value} (h : Ends (flag name) σ (.ok b) σ')
 (hv : σ.settings.get name = .ok v) : b =
 v.truthy :=
 Except.ok.inj (h.unique (ends_flag hv)).1

lemma Ends.of_settingText {s : String} (h : Ends (settingText name) σ (.ok s) σ') :
 σ.settings.get name = .ok (.str s) := by
 obtain ⟨v,τ,hv,h⟩ := h.split
 rw [((ends_setting name σ).unique hv).1]
 split at h
 · rw [← h.of_pure.1]
 · cases (h.unique (ends_throw _ τ)).1

lemma Ends.of_writeEntry {e : Entry} (h : Ends (writeEntry path e) σ (.ok ()) σ') :
 ∃ place files, σ' = { σ with files } ∧
 σ.files.resolve path = .ok place ∧ put e place σ.files = .ok files ∧ σ.files.Keeps files := by
 obtain ⟨s,τ,hget,hrun⟩ := h.split
 obtain ⟨hs,rfl⟩ := (ends_get σ).unique hget
 cases hs
 obtain ⟨place,_,hplac,hwri⟩ := hrun.split
 obtain ⟨hpla,rfl⟩ := hplac.of_ofExcept
 extract_lets rest at hwri
 have hres : Ends (rest ()) σ (.ok ()) σ' := by
  split at hwri
  · obtain ⟨_,_,hthr,_⟩ := hwri.split
    cases (hthr.unique (ends_throw _ _)).1
  · exact hwri
 simp only [rest] at hres
 split at hres
 · cases (hres.unique (ends_throw _ _)).1
 · next hfree =>
   obtain ⟨files,_,hfile,hset⟩ := hres.split
   obtain ⟨hput,rfl⟩ := hfile.of_ofExcept
   refine ⟨place,files,((ends_set _ _).unique hset).2.symm,hpla,hput,keeps_put hput fun c hc => ?_⟩
   cases c with
   | folder es => exact absurd hc (hfree es)
   | _ => rfl

def Shelves (folder name : String) (i : Item) (σ : Session) : Prop :=
 ∃ d, σ.files.resolve folder = .ok d ∧ σ.files.find (d ++ [name]) = .ok (.stored i)

lemma Ends.of_store (h : Ends (store (folder ++ "/" ++ name) i) σ (.ok ()) σ') (hne : folder ≠ "")
 (hnam : Path.FileName
 name) :
 Shelves folder name i σ' ∧ ∀ m j, m ≠ name → Shelves folder m j σ → Shelves folder m j σ' := by
 obtain ⟨place,files,rfl,hpla,hput,hkeep⟩ := h.of_writeEntry
 obtain ⟨d,hd,rfl⟩ := resolve_append_ok hne hnam hpla
 refine ⟨⟨d,hkeep.resolve hd,find_put hput⟩,fun m j hm hj => ?_⟩
 obtain ⟨e,he,hfind⟩ := hj
 obtain rfl : d = e := Except.ok.inj (hd.symm.trans he)
 exact ⟨d,hkeep.resolve hd,(spares_put hput _ (apart_siblings hm.symm d)).trans hfind⟩

lemma Shelves.ends_fetch (h : Shelves folder name i σ) (hne : folder ≠ "")
 (hnam : Path.FileName name) :
 Ends (fetch (folder ++ "/" ++ name)) σ (.ok i) σ := by
 obtain ⟨d,hd,hfind⟩ := h
 have hent :=
  lookup_of_find (resolve_append hne hd hnam) hfind
   (Path.namesFolder_append _ hnam) ▸ ends_entryAt _ σ
 exact hent.bind (ends_pure i σ)

inductive Since (folder : String) (σ : Session) : Session → Prop
 | refl : Since folder σ σ
 | store {τ τ' : Session} {name : String} {i : Item} : Since folder σ τ → Ends (store (folder ++ "/" ++ name) i) τ (.ok ()) τ' →
  Since folder σ τ'

lemma Ends.of_foldlM {f : β → α → Run β} {J : List α → β → Session → Prop} {xs : List α} {b b' : β}
 (hste : ∀ done b x σ b' σ', J done b σ → Ends (f b x) σ (.ok b') σ' → J (done ++ [x]) b' σ')
 (h : Ends (xs.foldlM f b) σ (.ok b') σ') (hb : J [] b σ) : J xs b' σ' := by
 suffices hall : ∀ done b σ, J done b σ → Ends (xs.foldlM f b) σ (.ok b') σ' → J (done ++ xs) b' σ' from hall [] b σ hb h
 clear h hb
 induction xs with
 | nil =>
  intro done b σ hb h
  obtain ⟨rfl,rfl⟩ := h.of_pure
  rwa [append_nil]
 | cons x xs ih =>
  intro done b σ hb h
  rw [foldlM_cons] at h
  obtain ⟨c,τ,hc,h⟩ := h.split
  rw [append_cons]
  exact ih (done ++ [x]) c τ (hste done b x σ c τ hb hc) h

lemma Ends.of_forIn {f : α → β → Run (ForInStep β)} {P : Session → Prop} {xs : List α} {b b' : β}
 (hste : ∀ x ∈ xs, ∀ b σ r σ', P σ → Ends (f x b) σ (.ok r) σ' → P σ')
 (h : Ends (forIn xs b f) σ (.ok b') σ') (hσ : P σ) : P
  σ' := by
 induction xs generalizing b σ with
 | nil => exact h.of_pure.2 ▸ hσ
 | cons x xs ih =>
  rw [forIn_cons] at h
  obtain ⟨r,τ,hr,h⟩ := h.split
  have hτ : P τ := hste x mem_cons_self b σ r τ hσ hr
  cases r with
  | done b => exact h.of_pure.2 ▸ hτ
  | yield b => exact ih (fun y hy => hste y (mem_cons_of_mem x hy)) h hτ

lemma Ends.of_makeFolder (h : Ends (makeFolder path) σ (.ok ()) σ') :
 ∃ d files, Entry.put (.folder []) d σ.files = .ok files ∧ σ' = { σ with files } := by
 obtain ⟨s,_,hget,hrun⟩ := h.split
 obtain ⟨hs,rfl⟩ := (ends_get σ).unique hget
 cases hs
 obtain ⟨place,_,hpla,hrun⟩ := hrun.split
 obtain rfl := hpla.of_ofExcept.2
 split at hrun
 · cases (hrun.unique (ends_throw _ _)).1
 · obtain ⟨files,_,hfile,hset⟩ := hrun.split
   obtain ⟨hput,rfl⟩ := hfile.of_ofExcept
   exact ⟨place,files,hput,((ends_set _ _).unique hset).2.symm⟩

end
end MotifMatch.Run

namespace MotifMatch
open Entry MotifMatch.Path
variable {σ₀ σ : Session} {d : List String} {es : List (String × Entry)} {place name : String}

structure Shelved (σ₀ σ : Session) (d : List String) (es : List (String × Entry)) : Prop where
 keeps : σ₀.files.Keeps σ.files
 spares : σ₀.files.Spares d σ.files
 settings : σ.settings = σ₀.settings
 found : σ.files.find d = .ok (.folder es)
 free : ∀ name c, (folder es).child? name = some c → c.isFolder = false

lemma Shelved.writeText (h : Shelved σ₀ σ d es) (hpla : σ₀.files.resolve place = .ok d)
 (hnam : FileName name)
 (text : String) : ∃ σ', Run.Ends (Run.writeText (join place name) text) σ (.ok ()) σ' ∧
  σ'.streams = σ.streams ∧
  Shelved σ₀ σ' d (setChild name (.text text) es) := by
 obtain ⟨files,hends,hfou,hkee,hspa⟩ := Run.ends_writeText text h.found (h.free name)
  (resolve_join (h.keeps.resolve hpla) hnam) (namesFolder_join place hnam)
 refine ⟨_,hends,rfl,h.keeps.trans hkee,h.spares.trans hspa.of_append,h.settings,hfou,
  fun m c hc => ?_⟩
 rw [child?_setChild] at hc
 split at hc
 · cases hc
   rfl
 · exact h.free m c hc

end MotifMatch
