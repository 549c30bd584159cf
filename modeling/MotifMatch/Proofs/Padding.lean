import MotifMatch.Proofs.Bulks
import MotifMatch.Proofs.Edits
import MotifMatch.Proofs.Sessions

namespace MotifMatch
open Encoding
namespace Run
variable {α β : Type} {S : Settings} {x : Run α} {f : α → Run β} {P : α → Prop} {Q : β → Prop}

def Finds (S : Settings) (x : Run α) (P : α → Prop) : Prop :=
 Leads x (fun σ => σ.settings = S) fun a σ => P a ∧ σ.settings = S

lemma finds_pure {a : α} (h : P a) : Finds S (pure a) P := leads_pure fun _ hs => ⟨h,hs⟩

lemma finds_throw (e : Error) : Finds S (throw e) P := leads_throw e

lemma Finds.bind (hx : Finds S x P) (hf : ∀ a, P a → Finds S (f a) Q) : Finds S (x >>= f) Q :=
 Leads.bind hx fun a => leads_and (hf a)

lemma finds_get : Finds S get fun σ => σ.settings = S :=
 leads_get.imp (fun _ hs => hs) fun _ _ hs => ⟨hs.1 ▸ hs.2,hs.2⟩

lemma finds_ofExcept {r : Except Error α} (h : ∀ a, r = .ok a → P a) : Finds S (ofExcept r) P := by
 cases r with
 | ok a => exact finds_pure (h a rfl)
 | error e => exact finds_throw e

lemma finds_setting (name : String) : Finds S (setting name) fun v => S.get name = .ok v :=
 finds_get.bind fun _ hσ => finds_ofExcept fun _ hv => hσ ▸ hv

lemma finds_shownSetting (name : String) : Finds S (shownSetting name) fun _ => True :=
 (finds_setting name).bind fun _ _ => finds_pure trivial

lemma finds_flag (name : String) : Finds S (flag name) fun _ => True :=
 (finds_setting name).bind fun _ _ => finds_pure trivial

lemma finds_fetch (path : String) : Finds S (fetch path) fun _ => True := by
 refine (finds_get.bind fun _ _ => finds_ofExcept fun _ _ => trivial).bind fun e _ => ?_
 cases e with
 | stored x => exact finds_pure trivial
 | text s => exact finds_throw _
 | folder es => exact finds_throw _

lemma finds_draw {d : Draw α} (h : d.Gives P) : Finds S (draw d) P := by
 rintro σ a σ' rfl hrun
 obtain ⟨ha,rfl⟩ := Prod.mk.inj ((ends_draw d σ).symm.trans hrun)
 exact ⟨h σ.streams a _ trivial (Prod.ext ha rfl),rfl⟩

end Run

namespace Network
open Draw (Gives gives_pure gives_trivial)

lemma Linear.gives_initial (inputs outputs : Nat) (biased : Bool) :
 Gives (Linear.initial inputs outputs biased : Draw (Linear ℝ)) fun l => l.inputs = inputs ∧
  l.outputs = outputs :=
 (gives_trivial _).bind fun _ _ => (gives_trivial _).bind fun _ _ => gives_pure ⟨rfl,rfl⟩

lemma Layer.gives_initial (inputs width hops heads : Nat) (directed : Bool) :
 Gives (Layer.initial inputs width hops heads (some .mean) directed : Draw (Layer ℝ)) fun l =>
  l.Fits ∧ l.embedding.inputs = inputs ∧ l.width = width := by
 refine (Linear.gives_initial _ _ _).bind fun embedding hemb => ?_
 refine (Linear.gives_initial _ _ _).bind fun gate hgate => ?_
 exact (gives_pure rfl).bind fun merging (hmer : none = merging) =>
  gives_pure ⟨⟨hgate.1,fun m hm => by cases hmer.trans hm⟩,hemb.1,rfl⟩

lemma Model.gives_initialLayers (p : Plan ℝ) (n i : Nat) : Gives (initialLayers p n i) fun ls =>
 ∀ l ∈ ls, l.Fits ∧ l.embedding.inputs = p.layerWidth ∧ l.width = p.layerWidth := by
 induction n generalizing i with
 | zero => exact gives_pure (by simp)
 | succ n ih =>
  refine (Layer.gives_initial _ _ _ _ _).bind fun l hl => (ih (i + 1)).bind fun ls hls =>
   gives_pure ?_
  exact List.forall_mem_cons.2 ⟨hl,hls⟩

lemma Model.gives_initialDense (p : Plan ℝ) (n i : Nat) : Gives (initialDense p n i) fun ls =>
 Chained (if i = 0 then p.layerWidth else p.denseWidth) ls := by
 induction n generalizing i with
 | zero => exact gives_pure trivial
 | succ n ih =>
  have hfir : Gives (if i = 0 then Linear.initial p.layerWidth p.denseWidth true
   else if n = 0 then Linear.initial p.denseWidth 1 true
   else Linear.initial p.denseWidth p.denseWidth true : Draw (Linear ℝ)) fun l =>
   l.inputs = (if i = 0 then p.layerWidth else p.denseWidth) ∧
    (n ≠ 0 → l.outputs = p.denseWidth) := by
   by_cases hi : i = 0
   · rw [if_pos hi,if_pos hi]
     exact (Linear.gives_initial _ _ _).imp fun l hl => ⟨hl.1,fun _ => hl.2⟩
   · rw [if_neg hi,if_neg hi]
     by_cases hn : n = 0
     · rw [if_pos hn]
       exact (Linear.gives_initial _ _ _).imp fun l hl => ⟨hl.1,fun h => absurd hn h⟩
     · rw [if_neg hn]
       exact (Linear.gives_initial _ _ _).imp fun l hl => ⟨hl.1,fun _ => hl.2⟩
  refine hfir.bind fun l hl => ?_
  cases n with
  | zero =>
   exact (gives_pure (P := (· = [])) rfl).bind fun rest hres => gives_pure ⟨hl.1,hres ▸ trivial⟩
  | succ n =>
   refine (ih (i + 1)).bind fun rest hres => gives_pure ⟨hl.1,?_⟩
   rwa [if_neg (Nat.succ_ne_zero i),← hl.2 (Nat.succ_ne_zero n)] at hres

lemma Model.gives_initial (p : Plan ℝ) : Gives (Model.initial p) fun m => m.Fitted ∧
 m.entry.inputs = 2 * p.embedding := by
 refine (gives_initialLayers p _ _).bind fun layers hlay => (gives_initialDense p _ _).bind
  fun dense hden => ?_
 refine (Linear.gives_initial _ _ _).bind fun entry hent => gives_pure ⟨⟨?_,?_⟩,hent.1⟩
 · simpa only [hent.2] using hlay
 · simpa only [hent.2,if_true] using hden

variable {m : Model ℝ}

def Linear.Alike (l l' : Linear ℝ) : Prop := l'.inputs = l.inputs ∧ l'.outputs = l.outputs

lemma Linear.alike_restore (l : Linear ℝ) (ts : List (Tensor ℝ)) : l.Alike (l.restore ts).1 := by
 unfold Linear.restore
 split <;> exact ⟨rfl,rfl⟩

structure Layer.Alike (l l' : Layer ℝ) : Prop where
 fits : l.Fits → l'.Fits
 inputs : l'.embedding.inputs = l.embedding.inputs
 width : l'.width = l.width

lemma Layer.alike_restore (l : Layer ℝ) (ts : List (Tensor ℝ)) : l.Alike (l.restore ts).1 := by
 cases ts with
 | nil => exact ⟨id,rfl,rfl⟩
 | cons scores ts =>
  have hemb := l.embedding.alike_restore ts
  have hgate := l.gate.alike_restore (l.embedding.restore ts).2
  cases hmer : l.merging with
  | none =>
   simp only [restore,hmer]
   exact ⟨fun hl => ⟨hgate.1.trans hl.gate,by simp⟩,hemb.1,rfl⟩
  | some m =>
   have hm := m.alike_restore (l.gate.restore (l.embedding.restore ts).2).2
   simp only [restore,hmer]
   refine ⟨fun hl => ⟨hgate.1.trans hl.gate,fun m' hm' => ?_⟩,hemb.1,rfl⟩
   rw [← Option.some.inj hm',hm.1]
   exact hl.merging m hmer

lemma Model.forall₂_restoreAll {β : Type} {one : β → List (Tensor ℝ) → β × List (Tensor ℝ)}
 {R : β → β → Prop}
 (h : ∀ b ts, R b (one b ts).1) (bs : List β) (ts : List (Tensor ℝ)) :
  List.Forall₂ R bs (restoreAll one bs ts).1 := by
 induction bs generalizing ts with
 | nil => exact .nil
 | cons b bs ih => exact .cons (h b ts) (ih _)

lemma Chained.of_alike {d : Nat} {ls ls' : List (Linear ℝ)} (h : Chained d ls)
 (hls : List.Forall₂ Linear.Alike ls ls') :
 Chained d ls' := by
 induction hls generalizing d with
 | nil => exact trivial
 | cons hl _ ih => exact ⟨hl.1.trans h.1,hl.2 ▸ ih h.2⟩

lemma Model.Fitted.restore (hm : m.Fitted) (ts : List (Tensor ℝ)) :
 (m.restore ts).Fitted ∧ (m.restore ts).entry.inputs = m.entry.inputs := by
 have hlay := forall₂_restoreAll Layer.alike_restore m.layers ts
 have hden := forall₂_restoreAll Linear.alike_restore m.dense
  (restoreAll Layer.restore m.layers ts).2
 have hent := m.entry.alike_restore (restoreAll Linear.restore m.dense
  (restoreAll Layer.restore m.layers ts).2).2
 refine ⟨⟨fun l' hl' => ?_,?_⟩,hent.1⟩
 · obtain ⟨l,hl,hali⟩ := exists_of_forall₂ hlay hl'
   obtain ⟨hfits,hinp,hwid⟩ := hm.layers l hl
   exact ⟨hali.fits hfits,hali.inputs.trans (hinp.trans hent.2.symm),
    hali.width.trans (hwid.trans hent.2.symm)⟩
 · have hout : (m.restore ts).entry.outputs = m.entry.outputs := hent.2
   rw [hout]
   exact hm.dense.of_alike hden

lemma Model.gives_redraw (hm : m.Fitted) :
 Gives m.redraw fun m' => m'.Fitted ∧ m'.entry.inputs = m.entry.inputs :=
 (gives_trivial _).bind fun ts _ => gives_pure (hm.restore ts)

section
variable {S : Settings}
open Run (Finds finds_pure finds_throw finds_setting finds_shownSetting finds_flag finds_fetch finds_draw)

lemma finds_settingNat (name : String) : Finds S (settingNat name) fun n =>
 ∀ v, S.get name = .ok v → widthOf v = .ok n := by
 have hint : Finds S (Run.settingInt name) fun i => ∃ v, S.get name = .ok v ∧ v.toInt? = some i := by
  refine (finds_setting name).bind fun v hv => ?_
  split
  · next i hi => exact finds_pure ⟨v,hv,hi⟩
  · exact finds_throw _
 refine hint.bind fun i hi => finds_pure fun v hv => ?_
 obtain ⟨v',hv',hi⟩ := hi
 obtain rfl := Except.ok.inj (hv'.symm.trans hv)
 rw [widthOf,hi]

lemma finds_tacticOf : Finds S tacticOf fun _ => True := by
 refine (finds_shownSetting "tactic").bind fun t _ => ?_
 split
 · exact (finds_settingNat "nhop").bind fun _ _ => finds_pure trivial
 · exact finds_pure trivial
 · exact finds_pure trivial
 · exact finds_throw _

lemma finds_settingScalar (name : String) : Finds S (settingScalar name : Run ℝ) fun _ => True := by
 refine (finds_setting name).bind fun v _ => ?_
 split
 · exact finds_pure trivial
 · exact finds_throw _

lemma finds_planOf : Finds S (planOf : Run (Plan ℝ)) fun p =>
 ∀ v, S.get "embedding_dim" = .ok v → widthOf v = .ok p.embedding := by
 refine finds_tacticOf.bind fun _ _ => ?_
 refine (finds_settingNat "n_graph_layer").bind fun _ _ => (finds_settingNat "d_graph_layer").bind
  fun _ _ => ?_
 refine (finds_settingNat "n_FC_layer").bind fun _ _ => (finds_settingNat "d_FC_layer").bind
  fun _ _ => ?_
 refine (finds_shownSetting "branch").bind fun _ _ => (finds_settingNat "nhead").bind fun _ _ => ?_
 refine (finds_flag "directed").bind fun _ _ => (finds_settingNat "embedding_dim").bind
  fun n hn => ?_
 exact (finds_settingScalar "al_scale").bind fun _ _ => finds_pure hn

lemma finds_ready (hm : m.Fitted) (checkpoint : Value) :
 Finds S (ready m checkpoint) fun m' => m'.Fitted ∧ m'.entry.inputs = m.entry.inputs := by
 unfold ready
 split
 · exact finds_draw (Model.gives_redraw hm)
 · exact ((finds_fetch _).bind fun _ _ => finds_pure trivial).bind fun _ (_ : True) =>
    finds_pure ⟨hm,rfl⟩
 · exact finds_throw _

lemma finds_matcher : Finds S (matcher : Run (Matcher ℝ)) Matcher.Fitted := by
 have hfre : Finds S (fresh : Run (Model ℝ)) fun m =>
  m.Fitted ∧ ∀ v, S.get "embedding_dim" = .ok v → ∀ w, widthOf v = .ok w →
   m.entry.inputs = 2 * w := by
  refine finds_planOf.bind fun p hp => ?_
  refine finds_draw ((Model.gives_initial p).imp fun m hm => ⟨hm.1,fun v hv w hw => ?_⟩)
  rw [hm.2,Except.ok.inj ((hp v hv).symm.trans hw)]
 refine hfre.bind fun model hmod => (finds_setting "ckpt_path").bind fun checkpoint _ => ?_
 refine (finds_ready hmod.1 checkpoint).bind fun model' hmod' => ?_
 refine (finds_setting "embedding_dim").bind fun width hwid => (finds_flag "anchored").bind
  fun _ _ => ?_
 exact finds_pure ⟨hmod'.1,fun w hw => hmod'.2.trans (hmod.2 width hwid w hw)⟩

end

open Tensor Run Scalar MotifMatch.Path Arrange Nat
open Tensor (sigmoid held entry tiny at2)
open Finset (range sum_range_succ mem_range sum_range_one)

theorem predictions_follow_padding (m : Matcher ℝ) :
 (∀ σ σ', Ends matcher σ (.ok m) σ' → m.Fitted) ∧
 (m.Fitted → m.model.layers ≠ [] → ∀ sources queries bulk, 1 ≤ bulk →
  m.predictAll sources queries bulk = do
   let samples ← (queries.zip sources).mapM m.sample
   return (chunks bulk.toNat samples.length samples).flatMap m.model.outlooks) ∧
 (m.Fitted → m.model.layers ≠ [] → ∀ sources queries k,
  (∀ p ∈ queries.zip sources, p.1.size + p.2.size = k) →
  ∀ bulk bulk' : Int, 1 ≤ bulk → 1 ≤ bulk' → m.predictAll sources queries bulk =
   m.predictAll sources queries bulk') ∧
 (m.Fitted → m.model.layers = [] → ∀ sources queries, queries.zip sources ≠ [] →
  ∀ bulk : Int, 1 ≤ bulk →
  ∃ e, m.predictAll sources queries bulk = .error e) ∧
 ∀ l : Layer ℝ, l.Fits → ∀ n extra x adj x' adj',
  Layer.Padded n extra l.embedding.inputs x adj x' adj' →
  (∀ i < n, ∀ c < l.width, (l.attend (n + extra) x' adj').nodes.at2 l.width i c =
   l.among n extra (x.at2 l.embedding.inputs) (adj.at2 n) i c) ∧
  (0 < extra → 0 < l.heads → ∀ i < n, ∀ j < n, 0 < adj.at2 n i j →
   (l.attend (n + extra) x' adj').attention.at2 (n + extra) i j <
    (l.attend n x adj).attention.at2 n i j) := by
 refine ⟨?_,?_,?_,?_,?_⟩
 · intro σ σ' hm
   exact (finds_matcher σ m σ' rfl hm).1
 · intro hm hlay sources queries bulk hbulk
   exact m.predictAll_outlooks hm sources queries hbulk hlay
 · intro hm hlay sources queries k hpair bulk bulk' hbulk hbulk'
   rw [m.predictAll_of_size hm sources queries hbulk hlay hpair,
    m.predictAll_of_size hm sources queries hbulk' hlay hpair]
 · intro hm hlay sources queries hpair bulk hbulk
   exact m.predictAll_error hm sources queries hbulk hlay hpair
 · intro l hl n extra x adj x' adj' hpad
   exact ⟨fun i hi c hc => hpad.nodes hl hi hc,
    fun hext hhead i hi j hj => hpad.attention_lt hext hhead hi hj⟩

def workshop : Session where
 streams := default
 settings :=
  ⟨⟨[("tactic",.str "static"),("nhop",.int 1),("n_graph_layer",.int 1),("d_graph_layer",.int 1),
  ("n_FC_layer",.int 1),("d_FC_layer",.int 1),("branch",.str "both"),("nhead",.int 1),
   ("directed",.bool false),
  ("embedding_dim",.int 2),("al_scale",.int 1),("ckpt_path",.str "model"),("anchored",.bool false)]⟩⟩
 files := .folder [("glema",.folder [("model",.stored (.data .none))])]
 printed := #[]
 records := []

lemma lookup_model : workshop.files.lookup (ofProject "model") = .ok (.stored (.data .none)) := by
 have hnam : FileName "model" := ⟨by decide,'m',_,rfl,by decide,by decide⟩
 have hroot := fromRoot?_ofProject_of_relative hnam.isAbsolute
 rw [hnam.parts] at hroot
 refine Entry.lookup_of_find (Entry.resolve_eq_ok.2 ⟨_,hroot,rfl⟩) rfl ?_
 rw [ofProject_of_relative hnam.isAbsolute,hnam.parts]
 exact namesFolder_slashed hnam [root,project]

lemma workshop_built : ∃ (m : Matcher ℝ) (σ : Session), Ends matcher workshop (.ok m) σ ∧
 m.model.layers ≠ [] := by
 obtain ⟨model,σ,hfre,hse,hfil,hlay⟩ : ∃ model σ,
  Ends fresh workshop (.ok model) σ ∧ σ.settings = workshop.settings ∧ σ.files = workshop.files ∧
   model.layers ≠ [] :=
  ⟨_,_,(rfl : (fresh : Run (Model ℝ)).run.run workshop = _),rfl,rfl,by simp⟩
 have hset : ∀ name v, workshop.settings.get name = .ok v → Ends (setting name) σ (.ok v) σ := by
  intro name v hv
  rw [← hv,← hse]
  exact ends_setting name σ
 have hent : Ends (entryAt (ofProject "model")) σ (.ok (.stored (.data .none))) σ := by
  rw [← lookup_model,← hfil]
  exact (ends_get σ).bind (ends_ofExcept _ σ)
 have hfet : Ends (fetch (ofProject "model")) σ (.ok (.data .none)) σ := hent.bind (ends_pure _ σ)
 have hdis : Ends (discard (fetch (ofProject "model"))) σ (.ok ()) σ := hfet.bind (ends_pure () σ)
 -- Where parameters are stored none are drawn anew, so the network stays as it was made.
 have hrea : Ends (ready model (.str "model")) σ (.ok model) σ := hdis.bind (ends_pure model σ)
 refine ⟨⟨model,.int 2,false⟩,σ,?_,hlay⟩
 have hflag : Ends (flag "anchored") σ (.ok false) σ :=
  (hset "anchored" (.bool false) rfl).bind (ends_pure _ σ)
 refine hfre.bind ((hset "ckpt_path" (.str "model") rfl).bind (hrea.bind ?_))
 exact (hset "embedding_dim" (.int 2) rfl).bind (hflag.bind (ends_pure _ σ))

def dot : Graph where
 directed := false
 multi := false
 nodes := ⟨[(.num 1,⟨[("label",.int 1)]⟩)]⟩
 edges := []

def rod : Graph where
 directed := false
 multi := false
 nodes := ⟨[(.num 1,⟨[("label",.int 1)]⟩),(.num 2,⟨[("label",.int 2)]⟩)]⟩
 edges := [⟨.num 1,.num 2,.none,⟨[]⟩⟩]

def echo : Layer ℝ where
 embedding := ⟨1,1,⟨[1,1],#[1]⟩,none⟩
 scores := ⟨[1,1],#[0]⟩
 gate := ⟨2,1,⟨[1,2],#[0,0]⟩,none⟩
 merging := none
 hops := 1
 heads := 1
 width := 1
 directed := true

lemma echo_fits : echo.Fits := ⟨rfl,fun _ h => by cases h⟩

lemma image_unbiased {l : Linear ℝ} (h : l.bias = none) (row : Nat → ℝ) (o : Nat) :
 l.image row o = ∑ i ∈ range l.inputs, row i * l.weight.entry (o * l.inputs + i) := by
 rw [Linear.image,h]
 exact sumTo_real _ _

lemma sigmoid_real {x : ℝ} (hlow : -50 ≤ x) (hhigh : x ≤ 50) :
 sigmoid x = 1 / (1 + Real.exp (-x)) := by
 have hheld : held x = x := by
  have hlow' : ¬ x < ofInt (-50) := not_lt.2 (le_of_eq_of_le (by norm_num [ofInt]) hlow)
  have hhig' : ¬ (ofInt 50) < x := not_lt.2 (hhigh.trans_eq (by norm_num [ofInt]))
  simp [held,atLeast,atMost,hlow',hhig']
 have h : sigmoid x = one / (one + Real.exp (-held x)) := rfl
 rw [h,hheld,one_real]

lemma echo_among {n : Nat} {x adj : Nat → Nat → ℝ} (hn : 0 < n) (hx : x 0 0 = 1)
 (hself : adj 0 0 = 1)
 (halo : ∀ j, 0 < j → j < n → adj 0 j = 0) (extra : Nat) :
 echo.among n extra x adj 0 0 = 1 / 2 + 1 / 2 * Layer.share n extra (fun _ => 0) 0 := by
 have hhea : echo.headed x 0 0 0 = 1 := by
  rw [Layer.headed,image_unbiased rfl]
  simp [echo,entry,hx]
 have hsco : ∀ h i a j, echo.score h i a j = 0 := by
  intro h i a j
  simp [Layer.score,echo,entry]
 have hhold : ∀ h y i a, echo.hold h y i a = 1 / 2 := by
  intro h y i a
  have hzero : sigmoid (0 : ℝ) = 1 / 2 := by
   rw [sigmoid_real (by norm_num) (by norm_num),neg_zero,Real.exp_zero]
   norm_num
  rw [Layer.hold,image_unbiased rfl,← hzero]
  congr 1
  simp [echo,entry,sum_range_succ]
 have hwei : ∀ j, echo.weights n extra x adj 0 0 j = Layer.share n extra (fun _ => 0) 0 *
  adj 0 j := by
  intro j
  simp [Layer.weights,Layer.weight,Layer.balanced,hsco]
 have hgat : Layer.gathered n (echo.weights n extra x adj) (echo.headed x) 0 0 0 =
  Layer.share n extra (fun _ => 0) 0 := by
  rw [Layer.gathered,Finset.sum_eq_single_of_mem 0 (mem_range.2 hn),hwei,hhea,hself,mul_one,mul_one]
  · exact max_eq_right (Layer.share_pos 0).le
  · intro j hj hne
    rw [hwei,halo j (pos_of_ne_zero hne) (mem_range.1 hj),mul_zero,zero_mul]
 have hnode : echo.among n extra x adj 0 0 =
  (∑ a ∈ range 1, Layer.settled n (echo.weights n extra x adj) (echo.headed x)
  (echo.hold (echo.headed x) (Layer.gathered n (echo.weights n extra x adj) (echo.headed x))) 1
   (echo.headed x) 0 a 0) /
   (1 : Nat) := rfl
 rw [hnode,sum_range_one,Layer.settled,Layer.settled,hhold,hhea,hgat]
 norm_num

def lens : Matcher ℝ where
 model := ⟨.inner,[echo],[⟨1,1,⟨[1,1],#[1]⟩,none⟩],⟨4,1,⟨[1,4],#[1,1,1,1]⟩,none⟩,1⟩
 width := .int 2
 anchored := false

lemma lens_fitted : lens.Fitted where
 model := ⟨fun l hl => by
  obtain rfl := List.mem_singleton.1 hl
  exact ⟨echo_fits,rfl,rfl⟩,rfl,trivial⟩
 width w hw := by
  cases hw
  rfl

lemma sample_dots : ∃ s, lens.sample (dot,dot) = .ok s ∧ s.size = 2 ∧
 (∀ c < 4, s.features.at2 4 0 c = if c = 0 then 1 else 0) ∧
 s.inner.at2 2 0 0 = 1 ∧ s.inner.at2 2 0 1 = 0 ∧ s.mask.entry 0 = 1 ∧ s.mask.entry 1 = 0 := by
 refine ⟨_,rfl,rfl,?_,?_,?_,?_,?_⟩
 · intro c hc
   obtain rfl | rfl | rfl | rfl : c = 0 ∨ c = 1 ∨ c = 2 ∨ c = 3 := by omega
   · exact (entry_build (by decide)).trans one_real
   all_goals exact (entry_build (by decide)).trans zero_real
 · have hself : Scalar.zero + Scalar.one = (1 : ℝ) := by simp
   exact (entry_build (by decide)).trans hself
 · exact (entry_build (by decide)).trans zero_real
 · exact (entry_build (by decide)).trans one_real
 · exact (entry_build (by decide)).trans zero_real

noncomputable def remnant (extra : Nat) : ℝ := 1 / 2 + 1 / 2 * Layer.share 2 extra (fun _ => 0) 0

lemma outlook_dots {s : Sample ℝ} (hs : lens.sample (dot,dot) = .ok s) (extra : Nat) :
 lens.model.outlook extra s = [sigmoid (remnant extra)] := by
 obtain ⟨s',hs',hsiz,hfea,hself,hoth,hque,hsou⟩ := sample_dots
 obtain rfl : s = s' := Except.ok.inj (hs.symm.trans hs')
 have hent : lens.model.entry.image (s.features.at2 4 0) 0 = 1 := by
  rw [image_unbiased rfl]
  calc ∑ c ∈ range 4, s.features.at2 4 0 c * lens.model.entry.weight.entry (0 * 4 + c)
      = ∑ c ∈ range 4, if c = 0 then 1 else 0 := by
        refine Finset.sum_congr rfl fun c hc => ?_
        rw [hfea c (mem_range.1 hc)]
        obtain rfl | hc := Nat.eq_zero_or_pos c
        · simp [lens,entry]
        · simp [hc.ne']
    _ = 1 := by simp
 have hnode : lens.model.passed extra s [echo]
  (fun j => lens.model.entry.image (s.features.at2 4 j)) 0 0 = remnant extra := by
  have hste : lens.model.passed extra s [echo]
   (fun j => lens.model.entry.image (s.features.at2 4 j)) 0 0 =
   echo.among s.size extra (fun j => lens.model.entry.image (s.features.at2 4 j))
    (s.inner.at2 s.size) 0 0 := rfl
  rw [hste,hsiz]
  refine echo_among two_pos hent hself (fun j hj hlt => ?_) extra
  obtain rfl : j = 1 := by omega
  exact hoth
 have hsum : lens.model.summary extra s 0 = remnant extra := by
  have hmask : ∑ j ∈ range 2, s.mask.entry j = 1 := by simp [sum_range_succ,hque,hsou]
  have hmean : lens.model.summary extra s 0 =
   (∑ j ∈ range s.size, lens.model.passed extra s [echo]
    (fun j => lens.model.entry.image (s.features.at2 4 j)) j 0 * s.mask.entry j) /
   if ∑ j ∈ range s.size, s.mask.entry j = 0 then tiny else ∑ j ∈ range s.size, s.mask.entry j := rfl
  rw [hmean,hsiz,hmask,if_neg one_ne_zero,div_one,sum_range_succ,sum_range_one,hnode,hque,hsou,
   mul_one,mul_zero,add_zero]
 have hden : Model.reduced lens.model.dense (lens.model.summary extra s) 0 = remnant extra := by
  have hima : Model.reduced lens.model.dense (lens.model.summary extra s) 0 =
   (⟨1,1,⟨[1,1],#[1]⟩,none⟩ : Linear ℝ).image (lens.model.summary extra s) 0 := rfl
  rw [hima,image_unbiased rfl,sum_range_one,hsum]
  simp [entry]
 rw [← hden]
 rfl

lemma remnant_pos (extra : Nat) : 0 < remnant extra := by
 have hsha : 0 < Layer.share 2 extra (fun _ => 0) 0 := Layer.share_pos 0
 rw [remnant]
 linarith

lemma remnant_lt_one (extra : Nat) : remnant extra < 1 := by
 have hsha : Layer.share 2 extra (fun _ => 0) 0 < 1 := Layer.share_lt_one two_pos
 rw [remnant]
 linarith

lemma sigmoid_remnant_lt : sigmoid (remnant 1) < sigmoid (remnant 0) := by
 have hlt : remnant 1 < remnant 0 := by
  have hsha := Layer.share_lt (n := 2) (s := fun _ => 0) one_pos 0
  rw [remnant,remnant]
  linarith
 -- Both values lie between the bounds that the sigmoid cuts its argument to.
 have hheld : ∀ extra, sigmoid (remnant extra) = 1 / (1 + Real.exp (-remnant extra)) := by
  intro extra
  have hpos := remnant_pos extra
  have hone := remnant_lt_one extra
  exact sigmoid_real (by linarith) (by linarith)
 rw [hheld,hheld]
 refine one_div_lt_one_div_of_lt (by positivity) ?_
 gcongr

lemma outlooks_single (m : Model ℝ) (u : Sample ℝ) : m.outlooks [u] = m.outlook 0 u := by
 have hwid : u.size = Encoding.widest [u] :=
  Encoding.size_eq_widest (k := u.size) (by simp) List.mem_cons_self
 rw [Model.outlooks,List.flatMap_singleton,← hwid,Nat.sub_self]

lemma padded_dot : Layer.Padded 1 1 1 ⟨[1,1],#[1]⟩ ⟨[1,1],#[1]⟩ ⟨[2,1],#[1,0]⟩
 ⟨[2,2],#[1,0,0,0]⟩ := by
 refine ⟨fun i hi c hc => ?_,fun i hi j hj => ?_⟩
 · obtain rfl := lt_one_iff.1 hi
   obtain rfl := lt_one_iff.1 hc
   rfl
 · obtain rfl | rfl : i = 0 ∨ i = 1 := by omega
   all_goals obtain rfl | rfl : j = 0 ∨ j = 1 := by omega
   all_goals simp [at2]

theorem dot_follows_padding :
 (∃ (m : Matcher ℝ) (σ : Session), Ends matcher workshop (.ok m) σ ∧
  m.model.layers ≠ [] ∧ m.Fitted) ∧
 (∃ p p' q : ℝ, lens.predictAll [dot,rod] [dot,dot] 1 = .ok [p,q] ∧
  lens.predictAll [dot,rod] [dot,dot] 2 = .ok [p',q] ∧ p' < p) ∧
 lens.predictAll [dot,dot] [dot,dot] 1 = lens.predictAll [dot,dot] [dot,dot] 2 ∧
 (∃ e, { lens with model := { lens.model with layers := [] } }.predictAll [dot] [dot] 1 = .error e) ∧
 (echo.attend 2 ⟨[2,1],#[1,0]⟩ ⟨[2,2],#[1,0,0,0]⟩).attention.at2 2 0 0 <
  (echo.attend 1 ⟨[1,1],#[1]⟩ ⟨[1,1],#[1]⟩).attention.at2 1 0 0 := by
 obtain ⟨-,hpred,hequ,-,hlayer⟩ := predictions_follow_padding lens
 have hlay : lens.model.layers ≠ [] := List.cons_ne_nil _ _
 refine ⟨?_,?_,?_,?_,?_⟩
 · obtain ⟨m,σ,hm,hne⟩ := workshop_built
   exact ⟨m,σ,hm,hne,(predictions_follow_padding m).1 _ σ hm⟩
 · obtain ⟨s,hs,hsiz,-⟩ := sample_dots
   obtain ⟨t,ht,htsi⟩ : ∃ t, lens.sample (dot,rod) = .ok t ∧ t.size = 3 := ⟨_,rfl,rfl⟩
   obtain ⟨q,hq⟩ : ∃ q, lens.model.outlook 0 t = [q] := ⟨_,rfl⟩
   have hsam : ([dot,dot].zip [dot,rod]).mapM lens.sample = .ok [s,t] := by
    simp only [List.zip_cons_cons,List.zip_nil_right,List.mapM_cons,List.mapM_nil,hs,ht]
    rfl
   refine ⟨_,_,q,?_,?_,sigmoid_remnant_lt⟩
   · have hone : (chunks 1 2 [s,t]).flatMap lens.model.outlooks = [sigmoid (remnant 0),q] := by
      simp [chunks,outlooks_single,outlook_dots hs,hq]
     rw [hpred lens_fitted hlay _ _ 1 le_rfl,hsam]
     exact congrArg Except.ok hone
   · have hbulk : lens.model.outlooks [s,t] = [sigmoid (remnant 1),q] := by
      simp [Model.outlooks,Encoding.widest,hsiz,htsi,outlook_dots hs,hq]
     have htwo : (chunks 2 2 [s,t]).flatMap lens.model.outlooks = [sigmoid (remnant 1),q] := by
      simp [chunks,hbulk]
     rw [hpred lens_fitted hlay _ _ 2 (by decide),hsam]
     exact congrArg Except.ok htwo
 · exact hequ lens_fitted hlay _ _ 2 (by decide) 1 2 le_rfl (by decide)
 · have hfit : Matcher.Fitted { lens with model := { lens.model with layers := [] } } :=
    ⟨⟨fun _ h => absurd h List.not_mem_nil,lens_fitted.model.dense⟩,lens_fitted.width⟩
   obtain ⟨-,-,-,hbare,-⟩ :=
    predictions_follow_padding { lens with model := { lens.model with layers := [] } }
   exact hbare hfit rfl [dot] [dot] (List.cons_ne_nil _ _) 1 le_rfl
 · exact (hlayer echo echo_fits 1 1 _ _ _ _ padded_dot).2 one_pos one_pos 0 one_pos 0 one_pos
    (by simp [at2])

end Network
end MotifMatch
