import MotifMatch.Network.Model
import MotifMatch.Proofs.Attention
import MotifMatch.Proofs.Batches

namespace MotifMatch.Network
open List Tensor Nat Layer
open Finset (range)
open Tensor (Shaped volume volume_concat)
open Encoding (Sample)
open Tensor (tiny rank relu sigmoid)

lemma Linear.apply_blocks {α : Type} [Scalar α] (l : Linear α) (shape : List Nat) {t : Tensor α}
 (ht : Shaped t (shape ++ [l.inputs])) : ∃ r, l.apply t = .ok r ∧ Shaped r (shape ++ [l.outputs]) ∧
  ∀ p < volume shape, ∀ o < l.outputs,
   r.entry (p * l.outputs + o) = l.image (fun i => t.entry (p * l.inputs + i)) o := by
 refine ⟨_,?_,shaped_build (shape ++ [l.outputs]) fun k =>
  l.image (fun i => t.entry (k / l.outputs * l.inputs + i)) (k % l.outputs),?_⟩
 · simp [Linear.apply,ht.shape_eq]
 · intro p hp o ho
   have hk := volume_concat shape _ ▸ place_lt hp ho
   rw [entry_build hk,place_div ho,place_mod ho]

variable {l : Layer ℝ} {b n : Nat} {h adj : Tensor ℝ}

lemma Layer.shaped_nodes (l : Layer ℝ) (n : Nat) (x adj : Tensor ℝ) :
 Shaped (l.attend n x adj).nodes [n,l.width] := by
 simp only [attend,joined]
 split <;> exact shaped_build _ _

lemma Layer.shaped_attention (l : Layer ℝ) (n : Nat) (x adj : Tensor ℝ) :
 Shaped (l.attend n x adj).attention [n,n] := by
 simp only [attend]
 exact shaped_build _ _

lemma Layer.forward_blocks (hl : l.Fits) (hh : Shaped h [b,n,l.embedding.inputs])
 (hadj : Shaped adj [b,n,n]) :
 ∃ a, l.forward h adj = .ok a ∧ Shaped a.nodes [b,n,l.width] ∧ Shaped a.attention [b,n,n] ∧
  ∀ i < b, ∀ j < n, ∀ c < l.width, a.nodes.entry ((i * n + j) * l.width + c) =
   l.among n 0 (fun j c => h.entry ((i * n + j) * l.embedding.inputs + c))
    (fun j k => adj.entry ((i * n + j) * n + k))
    j c := by
 let one i : Attended ℝ :=
  l.attend n (part h (n * l.embedding.inputs) i [n,l.embedding.inputs]) (part adj (n * n) i [n,n])
 have hnod : ∀ u ∈ ((List.range b).map one).map Attended.nodes, Shaped u [n,l.width] := by
  simp only [map_map,mem_map,forall_exists_index,and_imp,forall_apply_eq_imp_iff₂]
  exact fun i _ => l.shaped_nodes _ _ _
 have hatts : ∀ u ∈ ((List.range b).map one).map Attended.attention, Shaped u [n,n] := by
  simp only [map_map,mem_map,forall_exists_index,and_imp,forall_apply_eq_imp_iff₂]
  exact fun i _ => l.shaped_attention _ _ _
 refine ⟨⟨stack [n,l.width] (((List.range b).map one).map Attended.nodes),
  stack [n,n] (((List.range b).map one).map Attended.attention)⟩,?_,?_,?_,?_⟩
 · simp [forward,hh.shape_eq,hadj.shape_eq,one]
 · simpa using shaped_stack hnod
 · simpa using shaped_stack hatts
 · intro i hi j hj c hc
   have hpla : (i * n + j) * l.width + c = i * volume [n,l.width] +
    (j * l.width + c) := by rw [volume_pair]; ring
   have hone : (((List.range b).map one).map Attended.nodes)[i]? = some (one i).nodes := by simp [hi]
   rw [hpla,entry_stack hnod hone (place_lt_pair hj hc)]
   refine entry_nodes (fun j hj c hc => ?_) (fun j hj k hk => ?_) hl hj hc
   · rw [entry_part (place_lt hj hc)]
     congr 1
     ring
   · refine (entry_part (place_lt hj hk)).trans ?_
     congr 1
     ring

variable {d : Nat} {masks : Tensor ℝ}

lemma Model.pooled_blocks (hh : Shaped h [b,n,d]) (hmas : Shaped masks [b,n]) :
 ∃ v, Model.pooled h masks = .ok v ∧ Shaped v [b,d] ∧ ∀ i < b, ∀ c < d, v.entry (i * d + c) =
  (∑ j ∈ range n, h.entry ((i * n + j) * d + c) * masks.entry (i * n + j)) /
   if ∑ j ∈ range n, masks.entry (i * n + j) = 0 then tiny else ∑ j ∈
    range n, masks.entry (i * n + j) := by
 have hexp : masks.expand (-1) = .ok ⟨[b,n] ++ [1],masks.data⟩ := by
  simp [expand,rank,hmas.shape_eq]
  rfl
 have hcol : Shaped (⟨[b,n] ++ [1],masks.data⟩) ([b,n] ++ [1]) :=
  ⟨rfl,by rw [hmas.size_eq,volume_concat,mul_one]⟩
 obtain ⟨marked,hmar,hsha,hent⟩ := zipWith_block (fun x y : ℝ => x * y) [b,n] hh hcol
 obtain ⟨sums,hsums,hsumS,hsumE⟩ := sum_middle hsha
 obtain ⟨totals,htot,htotS,htotE⟩ := sum_last hmas
 obtain ⟨v,hv,hvS,hvE⟩ := zipWith_block
  (fun x y : ℝ => x / if Scalar.eq y Scalar.zero then tiny else y) [b] hsumS htotS
 have htim : h.times ⟨[b,n] ++ [1],masks.data⟩ = .ok marked := hmar
 have hover : sums.over totals = .ok v := hv
 refine ⟨v,?_,hvS,?_⟩
 · simp only [Model.pooled,hexp,htim,hsums,htot,hover,bind,Except.bind]
 · intro i hi c hc
   rw [hvE i (by simpa [volume] using hi) c hc,hsumE i hi c hc,htotE i hi,Scalar.eq_real,
    Scalar.zero_real]
   simp only [decide_eq_true_eq]
   congr 1
   refine Finset.sum_congr rfl fun j hj => ?_
   exact hent (i * n + j) (place_lt_pair hi (Finset.mem_range.1 hj)) c hc

namespace Model
variable (m : Model ℝ) (extra : Nat) (s : Sample ℝ)

noncomputable def stepped (l : Layer ℝ) (h : Nat → Nat → ℝ) (j c : Nat) : ℝ :=
 match m.branch with
 | .inner => l.among s.size extra h (s.inner.at2 s.size) j c
 | .outer => l.among s.size extra h (s.outer.at2 s.size) j c
 | .both =>
  l.among s.size extra h (s.outer.at2 s.size) j c - l.among s.size extra h (s.inner.at2 s.size) j c

noncomputable def passed : List (Layer ℝ) → (Nat → Nat → ℝ) → Nat → Nat → ℝ
 | [], h => h
 | l :: rest, h => passed rest (m.stepped extra s l h)

noncomputable def summary (c : Nat) : ℝ :=
 let h := m.passed extra s m.layers fun j => m.entry.image (s.features.at2 m.entry.inputs j)
 (∑ j ∈ range s.size, h j c * s.mask.entry j) /
  if ∑ j ∈ range s.size, s.mask.entry j = 0 then tiny else ∑ j ∈ range s.size, s.mask.entry j

noncomputable def reduced : List (Linear ℝ) → (Nat → ℝ) → Nat → ℝ
 | [], v => v
 | [l], v => l.image v
 | l :: rest, v => reduced rest fun c => relu (l.image v c)

def breadth : Nat → List (Linear ℝ) → Nat
 | d, [] => d
 | _, l :: rest => breadth l.outputs rest

noncomputable def outlook : List ℝ :=
 (List.range (breadth m.entry.outputs m.dense)).map fun o =>
  sigmoid (reduced m.dense (m.summary extra s) o)

end Model

variable {ss : List (Sample ℝ)} {t : Tensor ℝ} {rows : Sample ℝ → Nat → Nat → ℝ}
 {pick : Sample ℝ → Tensor ℝ}

structure Holds (t : Tensor ℝ) (ss : List (Sample ℝ)) (n d : Nat)
 (rows : Sample ℝ → Nat → Nat → ℝ) : Prop where
 shaped : Shaped t [ss.length,n,d]
 entry : ∀ i s, ss[i]? = some s → ∀ j < s.size, ∀ c < d, t.entry ((i * n + j) * d + c) = rows s j c

structure Joins (t : Tensor ℝ) (ss : List (Sample ℝ)) (n : Nat) (pick : Sample ℝ → Tensor ℝ) :
 Prop where
 shaped : Shaped t [ss.length,n,n]
 entry : ∀ i s, ss[i]? = some s → ∀ j < n, ∀ k < n,
  t.entry ((i * n + j) * n + k) = if j < s.size ∧ k < s.size then (pick s).at2 s.size j k else 0

structure Model.Input.Pads (x : Model.Input ℝ) (ss : List (Sample ℝ)) (n d : Nat) : Prop where
 size_le : ∀ s ∈ ss, s.size ≤ n
 features : Holds x.features ss n d fun s => s.features.at2 d
 inner : Joins x.inner ss n Sample.inner
 outer : Joins x.outer ss n Sample.outer
 masks : Shaped x.masks [ss.length,n]
 mask : ∀ i s, ss[i]? = some s → ∀ j < n, x.masks.entry (i * n + j) = if j <
  s.size then s.mask.entry j else 0

lemma Layer.forward_holds {l : Layer ℝ} {h adj : Tensor ℝ} (hl : l.Fits)
 (hsiz : ∀ s ∈ ss, s.size ≤ n)
 (hh : Holds h ss n l.embedding.inputs rows) (hadj : Joins adj ss n pick) :
 ∃ a, l.forward h adj = .ok a ∧ a.attention.shape = [ss.length,n,n] ∧
  Holds a.nodes ss n l.width fun s => l.among s.size (n - s.size) (rows s)
   ((pick s).at2 s.size) := by
 obtain ⟨a,ha,hnod,hatt,hent⟩ := forward_blocks hl hh.shaped hadj.shaped
 refine ⟨a,ha,hatt.shape_eq,hnod,?_⟩
 intro i s hs j hj c hc
 have hle := hsiz s (mem_of_getElem? hs)
 have hn : s.size + (n - s.size) = n := add_sub_of_le hle
 have hpad : l.among (s.size + (n - s.size)) 0
  (fun j c => h.entry ((i * n + j) * l.embedding.inputs + c))
  (fun j k => adj.entry ((i * n + j) * n + k)) j c =
   l.among s.size (n - s.size) (rows s) ((pick s).at2 s.size) j c := by
  refine among_padded (fun j hj c hc => hh.entry i s hs j hj c hc) (fun j hj k hk => ?_)
   (fun j k hout hj hk => ?_) hj c
  · rw [hadj.entry i s hs j (by omega) k (by omega),if_pos ⟨hj,hk⟩]
  · rw [hadj.entry i s hs j (by omega) k (by omega),if_neg (by omega)]
 rw [hn] at hpad
 rw [hent i (lt_length hs) j (by omega) c hc,hpad]

lemma Model.step_holds {m : Model ℝ} {x : Model.Input ℝ} {l : Layer ℝ} {h : Tensor ℝ} {f : Nat}
 (hl : l.Fits)
 (hx : x.Pads ss n f) (hh : Holds h ss n l.embedding.inputs rows) :
 ∃ a, m.step x h l = .ok a ∧ a.attention.shape = [ss.length,n,n] ∧
  Holds a.nodes ss n l.width fun s => m.stepped (n - s.size) s l (rows s) := by
 obtain ⟨one,hone,honeS,hinn⟩ := forward_holds hl hx.size_le hh hx.inner
 obtain ⟨two,htwo,htwoS,hout⟩ := forward_holds hl hx.size_le hh hx.outer
 have hpla : ∀ i s, ss[i]? = some s → ∀ j < s.size, ∀ c < l.width,
  (i * n + j) * l.width + c < volume [ss.length,n,l.width] := fun i s hs j hj c hc =>
  place_lt_volume (lt_length hs) (hj.trans_le (hx.size_le s (mem_of_getElem? hs))) hc
 cases hbra : m.branch with
 | inner =>
  refine ⟨{ one with nodes := one.nodes.map fun v => Scalar.zero - -v },?_,honeS,
   hinn.shaped.map _,?_⟩
  · simp only [Model.step,hbra,hone,bind,Except.bind]
    rfl
  · intro i s hs j hj c hc
    rw [hinn.shaped.entry_map _ (hpla i s hs j hj c hc),hinn.entry i s hs j hj c hc,
     Scalar.zero_real,Model.stepped,
     hbra]
    exact (zero_sub _).trans (neg_neg _)
 | outer =>
  refine ⟨two,?_,htwoS,hout.shaped,?_⟩
  · simp only [Model.step,hbra,htwo]
  · simpa only [Model.stepped,hbra] using hout.entry
 | both =>
  obtain ⟨r,hr,hsha,hent⟩ := zipWith_same hout.shaped hinn.shaped
  have hmin : two.nodes.minus one.nodes = .ok r := hr
  refine ⟨{ two with nodes := r },?_,htwoS,hsha,?_⟩
  · simp only [Model.step,hbra,hone,htwo,hmin,bind,Except.bind]
    rfl
  · intro i s hs j hj c hc
    simp only [hent _ (hpla i s hs j hj c hc),hout.entry i s hs j hj c hc,hinn.entry i s hs j hj c hc,
     Model.stepped,hbra]

lemma Model.passLayers_holds {m : Model ℝ} {x : Model.Input ℝ} {f : Nat} (hx : x.Pads ss n f)
 {ls : List (Layer ℝ)}
 (hls : ∀ l ∈ ls, l.Fits ∧ l.embedding.inputs = d ∧ l.width = d) {h : Tensor ℝ}
 (hh : Holds h ss n d rows)
 (att : Option (Tensor ℝ)) :
 ∃ r att', m.passLayers x ls h att = .ok (r,att') ∧
  Holds r ss n d (fun s => m.passed (n - s.size) s ls (rows s)) ∧
  (ls = [] ∧ att' = att ∨ ∃ a, att' = some a ∧ a.shape = [ss.length,n,n]) := by
 induction ls generalizing h rows att with
 | nil => exact ⟨h,att,rfl,hh,.inl ⟨rfl,rfl⟩⟩
 | cons l ls ih =>
  obtain ⟨hfits,hinp,hwid⟩ := hls l mem_cons_self
  obtain ⟨a,ha,hsha,hnod⟩ := Model.step_holds hfits hx (hinp ▸ hh)
  have hres := fun l' hl' => hls l' (mem_cons_of_mem l hl')
  obtain ⟨r,att',hr,hrows,hatt⟩ := ih hres (hwid ▸ hnod) (some a.attention)
  refine ⟨r,att',?_,hrows,.inr ?_⟩
  · simp only [Model.passLayers,ha,bind,Except.bind,hr]
  · obtain ⟨_,rfl⟩ | h := hatt
    · exact ⟨a.attention,rfl,hsha⟩
    · exact h

lemma sum_own {k : Nat} {f : Nat → ℝ} (hle : k ≤ n) (hzero : ∀ j, k ≤ j → j < n → f j = 0) :
 ∑ j ∈ range n, f j = ∑ j ∈ range k, f j := by
 symm
 refine Finset.sum_subset (Finset.range_subset_range.2 hle) fun j hj hout => ?_
 exact hzero j (not_lt.1 fun h => hout (Finset.mem_range.2 h)) (Finset.mem_range.1 hj)

def Chained : Nat → List (Linear ℝ) → Prop
 | _, [] => True
 | d, l :: rest => l.inputs = d ∧ Chained l.outputs rest

structure Model.Fitted (m : Model ℝ) : Prop where
 layers : ∀ l ∈ m.layers, l.Fits ∧ l.embedding.inputs = m.entry.outputs ∧ l.width = m.entry.outputs
 dense : Chained m.entry.outputs m.dense

namespace Model
variable {m : Model ℝ} {x : Input ℝ}

lemma embed_summaries (hm : m.Fitted) (hlay : m.layers ≠ []) (hx : x.Pads ss n m.entry.inputs) :
 ∃ v att, m.embed x = .ok (v,att) ∧ Shaped v [ss.length,m.entry.outputs] ∧
  ∀ i s, ss[i]? = some s → ∀ c < m.entry.outputs, v.entry (i * m.entry.outputs + c) =
   m.summary (n - s.size) s c := by
 obtain ⟨h,hh,hsha,hent⟩ := m.entry.apply_blocks [ss.length,n] hx.features.shaped
 have hhol : Holds h ss n m.entry.outputs fun s j =>
  m.entry.image (s.features.at2 m.entry.inputs j) := by
  refine ⟨hsha,fun i s hs j hj c hc => ?_⟩
  have hp : i * n + j < volume [ss.length,n] :=
   place_lt_pair (lt_length hs) (hj.trans_le (hx.size_le s (mem_of_getElem? hs)))
  rw [hent _ hp c hc]
  exact Linear.image_congr (fun k hk => hx.features.entry i s hs j hj k hk) c
 obtain ⟨r,att,hr,hrows,hatt⟩ := passLayers_holds (m := m) hx hm.layers hhol none
 obtain ⟨v,hv,hvS,hvE⟩ := pooled_blocks hrows.shaped hx.masks
 obtain ⟨h,_⟩ | ⟨a,rfl,hsh⟩ := hatt
 · exact absurd h hlay
 obtain ⟨normal,hnor⟩ := normalize_ok hsh tiny
 refine ⟨v,normal,?_,hvS,?_⟩
 · simp only [embed,hh,hr,hv,hnor,bind,Except.bind]
   rfl
 · intro i s hs c hc
   have hle := hx.size_le s (mem_of_getElem? hs)
   -- The mask is zero at the further nodes, so the mean is taken over own nodes only.
   have hmask : ∑ j ∈ range n, x.masks.entry (i * n + j) = ∑ j ∈ range s.size, s.mask.entry j := by
    rw [sum_own hle fun j hj hn => by rw [hx.mask i s hs j hn,if_neg (by omega)]]
    refine Finset.sum_congr rfl fun j hj => ?_
    have hj := Finset.mem_range.1 hj
    rw [hx.mask i s hs j (by omega),if_pos hj]
   have hmar : ∑ j ∈ range n, r.entry ((i * n + j) * m.entry.outputs + c) *
    x.masks.entry (i * n + j) =
    ∑ j ∈ range s.size, m.passed (n - s.size) s m.layers
     (fun j => m.entry.image (s.features.at2 m.entry.inputs j)) j c *
     s.mask.entry j := by
    rw [sum_own hle fun j hj hn => by rw [hx.mask i s hs j hn,if_neg (by omega),mul_zero]]
    refine Finset.sum_congr rfl fun j hj => ?_
    have hj := Finset.mem_range.1 hj
    rw [hrows.entry i s hs j hj c hc,hx.mask i s hs j (by omega),if_pos hj]
   rw [hvE i (lt_length hs) c hc,hmask,hmar,summary]

lemma passDense_blocks {b : Nat} {ls : List (Linear ℝ)} (hls : Chained d ls) {v : Tensor ℝ}
 (hv : Shaped v [b,d])
 (vs : Nat → Nat → ℝ) (hent : ∀ i < b, ∀ c < d, v.entry (i * d + c) = vs i c) :
 ∃ r, passDense ls v = .ok r ∧ Shaped r [b,breadth d ls] ∧
  ∀ i < b, ∀ c < breadth d ls, r.entry (i * breadth d ls + c) = reduced ls (vs i) c := by
 induction ls generalizing d v vs with
 | nil => exact ⟨v,rfl,hv,hent⟩
 | cons l rest ih =>
  obtain ⟨rfl,hres⟩ := hls
  obtain ⟨u,hu,hsha,hima⟩ := l.apply_blocks [b] hv
  have hrow : ∀ i < b, ∀ c < l.outputs, u.entry (i * l.outputs + c) = l.image (vs i) c := by
   intro i hi c hc
   rw [hima i (by simpa [volume] using hi) c hc]
   exact Linear.image_congr (hent i hi) c
  cases rest with
  | nil => exact ⟨u,hu,hsha,hrow⟩
  | cons k rest =>
   have hrelu : ∀ i < b, ∀ c < l.outputs,
    (u.map relu).entry (i * l.outputs + c) = relu (l.image (vs i) c) := by
    intro i hi c hc
    rw [hsha.entry_map _ (place_lt_pair hi hc),hrow i hi c hc]
   obtain ⟨r,hr,hrS,hrE⟩ := ih hres (hsha.map relu) (fun i c => relu (l.image (vs i) c)) hrelu
   refine ⟨r,?_,hrS,hrE⟩
   simp only [passDense,hu,bind,Except.bind,hr]

lemma toList_of_entries {o : Nat} {t : Tensor ℝ} {f : Sample ℝ → Nat → ℝ}
 (ht : t.data.size = ss.length * o)
 (hent : ∀ i s, ss[i]? = some s → ∀ c < o, t.entry (i * o + c) = f s c) :
 t.data.toList = ss.flatMap fun s => (List.range o).map (f s) := by
 refine ext_getElem? fun k => ?_
 by_cases hk : k < ss.length * o
 · have ho : 0 < o := Nat.pos_of_lt_mul_left hk
   have hi : k / o < ss.length := Nat.div_lt_of_lt_mul (Nat.mul_comm _ _ ▸ hk)
   have hs : ss[k / o]? = some ss[k / o] := getElem?_eq_getElem hi
   have hblo := getElem?_flatMap_blocks (f := fun s => (List.range o).map (f s)) (v :=
    o) (by simp) hs (Nat.mod_lt k ho)
   have hcell := hent _ _ hs (k % o) (mod_lt k ho)
   rw [div_add_mod'] at hblo hcell
   rw [hblo,Array.getElem?_toList,getElem?_map,getElem?_range (mod_lt k ho),Option.map_some,← hcell,
    entry_of_lt (ht ▸ hk),Array.getElem?_eq_getElem]
 · rw [getElem?_eq_none (by simpa [ht] using hk),getElem?_eq_none]
   simpa [length_flatMap,Function.comp_def] using hk

lemma predict_outlooks (hm : m.Fitted) (hlay : m.layers ≠ []) (hx : x.Pads ss n m.entry.inputs) :
 ∃ p, m.predict x = .ok p ∧ p.data.toList = ss.flatMap fun s => m.outlook (n - s.size) s := by
 obtain ⟨v,att,hv,hsha,hent⟩ := embed_summaries hm hlay hx
 let vs (i c : Nat) : ℝ := (ss[i]?.map fun s => m.summary (n - s.size) s c).getD 0
 have hvs : ∀ i s, ss[i]? = some s → vs i = m.summary (n - s.size) s := fun i s hs => by simp [vs,hs]
 obtain ⟨r,hr,hrS,hrE⟩ := passDense_blocks hm.dense hsha vs (fun i hi c hc => by
  rw [hent i ss[i] (getElem?_eq_getElem hi) c hc,hvs i ss[i] (getElem?_eq_getElem hi)])
 refine ⟨⟨[(r.map sigmoid).count],(r.map sigmoid).data⟩,?_,?_⟩
 · simp only [predict,hv,probabilities,hr,bind,Except.bind]
   rfl
 · refine toList_of_entries (t := r.map sigmoid) ((hrS.map _).size_eq.trans (volume_pair _ _))
    fun i s hs c hc => ?_
   rw [hrS.entry_map _ (place_lt_pair (lt_length hs) hc),hrE i (lt_length hs) c hc,hvs i s hs]

lemma predict_error (hlay : m.layers = []) (hx : x.Pads ss n m.entry.inputs) :
 m.predict x = .error .wrongType := by
 obtain ⟨h,hh,hsha,_⟩ := m.entry.apply_blocks [ss.length,n] hx.features.shaped
 obtain ⟨v,hv,_⟩ := pooled_blocks hsha hx.masks
 simp only [predict,embed,hlay,passLayers,hh,hv,bind,Except.bind,pure,Except.pure]
 rfl

end Model
end MotifMatch.Network

namespace MotifMatch
open List Tensor
variable {ε α β γ : Type}

lemma mapM_congr {f g : α → Except ε β} {xs : List α} (h : ∀ x ∈ xs, f x = g x) :
 xs.mapM f = xs.mapM g := by
 induction xs with
 | nil => rfl
 | cons x xs ih =>
  rw [mapM_cons,mapM_cons,h x mem_cons_self,ih fun y hy => h y (mem_cons_of_mem x hy)]

lemma exists_error_of_mapM {f : α → Except ε β} {xs : List α} (hxs : xs ≠ [])
 (h : ∀ x ∈ xs, ∃ e, f x = .error e) :
 ∃ e, xs.mapM f = .error e := by
 obtain ⟨x,ys,rfl⟩ := exists_cons_of_ne_nil hxs
 obtain ⟨e,he⟩ := h x mem_cons_self
 exact ⟨e,by rw [mapM_cons,he]; rfl⟩

namespace Arrange
variable {size : Nat}

lemma zip_chunks (size n : Nat) {xs : List α} {ys : List β} (h : xs.length = ys.length) :
 ((chunks size n xs).zip (chunks size n ys)).map (fun p => p.1.zip p.2) =
  chunks size n (xs.zip ys) := by
 induction n generalizing xs ys with
 | zero => rfl
 | succ n ih =>
  cases xs with
  | nil =>
   obtain rfl := length_eq_zero_iff.1 h.symm
   rfl
  | cons x xs =>
   cases ys with
   | nil => simp at h
   | cons y ys =>
    have hdrop : ((x :: xs).drop size).length =
     ((y :: ys).drop size).length := by simp only [length_drop,h]
    have htak : ((x :: xs).zip (y :: ys)).take size =
     ((x :: xs).take size).zip ((y :: ys).take size) :=
     take_zipWith
    have hdro : ((x :: xs).zip (y :: ys)).drop size =
     ((x :: xs).drop size).zip ((y :: ys).drop size) :=
     drop_zipWith
    rw [chunks,chunks,zip_cons_cons,map_cons,ih hdrop,← htak,← hdro]
    rfl

lemma ne_nil_of_mem_chunks (hsiz : 0 < size) {n : Nat} {xs c : List α} (hc : c ∈ chunks size n xs) :
 c ≠ [] := by
 induction n generalizing xs with
 | zero => cases hc
 | succ n ih =>
  cases xs with
  | nil => cases hc
  | cons x xs =>
   obtain rfl | hc := mem_cons.1 hc
   · simp [hsiz.ne']
   · exact ih hc

lemma chunks_append {n : Nat} {xs ys : List α} (hxs : xs ≠ [])
 (h : xs.length = size ∨ xs.length ≤ size ∧ ys = []) :
 chunks size (n + 1) (xs ++ ys) = xs :: chunks size n ys := by
 obtain ⟨x,zs,rfl⟩ := exists_cons_of_ne_nil hxs
 rw [cons_append,chunks,← cons_append]
 obtain h | ⟨h,rfl⟩ := h
 · rw [take_left' h,drop_left' h]
 · rw [append_nil,take_of_length_le h,drop_of_length_le h]

lemma mapM_chunks {f : α → Except ε β} (g : List β → γ) (hsiz : 0 < size) {n : Nat} {xs : List α}
 (hn : xs.length ≤ n) :
 ((chunks size n xs).mapM fun c => return g (← c.mapM f)) = do
  let ys ← xs.mapM f
  return (chunks size n ys).map g := by
 induction n generalizing xs with
 | zero =>
  obtain rfl := length_eq_zero_iff.1 (Nat.le_zero.1 hn)
  rfl
 | succ n ih =>
  cases xs with
  | nil => rfl
  | cons x xs =>
   have hdrop : ((x :: xs).drop size).length ≤ n := by
    rw [length_drop]
    omega
   have hspl : (x :: xs).mapM f = do
    let ys ← ((x :: xs).take size).mapM f
    let zs ← ((x :: xs).drop size).mapM f
    return ys ++ zs := by
    rw [← mapM_append,take_append_drop]
   rw [chunks,mapM_cons,ih hdrop,hspl]
   cases htook : ((x :: xs).take size).mapM f with
   | error e => rfl
   | ok ys =>
    cases hleft : ((x :: xs).drop size).mapM f with
    | error e => rfl
    | ok zs =>
     have hys : ys.length = min size (x :: xs).length := by
      rw [← (forall₂_of_mapM htook).length_eq,length_take]
     have hzs : zs.length = (x :: xs).length - size := by
      rw [← (forall₂_of_mapM hleft).length_eq,length_drop]
     have hne : ys ≠ [] := fun h => by simp [h] at hys; omega
     -- Only the last piece may be short, and nothing is left behind it.
     have hlast : ys.length = size ∨ ys.length ≤ size ∧ zs = [] := by
      rcases le_total size (x :: xs).length with h | h
      · exact .inl (hys.trans (min_eq_left h))
      · exact .inr ⟨by omega,length_eq_zero_iff.1 (by omega)⟩
     refine congrArg Except.ok (?_)
     rw [chunks_append hne hlast,map_cons]

end Arrange

namespace Encoding
variable {ss : List (Sample ℝ)}

lemma size_eq_widest {k : Nat} (h : ∀ s ∈ ss, s.size = k) {s : Sample ℝ} (hs : s ∈ ss) :
 s.size = widest ss := by
 obtain ⟨hsome,hle⟩ := widest_spec ss
 obtain hzero | ⟨r,hr,hsiz⟩ := hsome
 · have := hle s hs
   omega
 · rw [← hsiz,h s hs,h r hr]

end Encoding

namespace Network
open Encoding (Sample widest)
variable {ss : List (Sample ℝ)} {n w : Nat}

lemma collate_pads (hss : ss ≠ []) (hwid : ∀ s ∈ ss, Encoding.widthOfSample s = w) :
 ∃ b, Encoding.collate ss = .ok b ∧ (ofBatch b).Pads ss (widest ss) w := by
 obtain ⟨b,hb,hsiz,rfl,hsea,hhol⟩ := Encoding.collate_ok hss hwid
 have hle := (Encoding.widest_spec ss).2
 rw [← hsiz] at hle ⊢
 have hpla : ∀ i s, ss[i]? = some s → b.sampleAt (fun _ => s.verdict) i = s.padded b.size b.width :=
  fun i s hs =>
  (hhol i s hs).2 _ rfl
 refine ⟨b,hb,hle,⟨hsea.features,fun i s hs j hj c hc => ?_⟩,
  ⟨hsea.squares _ (by simp [ofBatch]),fun i s hs j hj k hk => ?_⟩,
  ⟨hsea.squares _ (by simp [ofBatch]),fun i s hs j hj k hk => ?_⟩,hsea.masks,fun i s hs j hj => ?_⟩
 · have hfea := congrArg Sample.features (hpla i s hs)
   exact (entry_of_block hfea (hj.trans_le (hle s (mem_of_getElem? hs))) hc).trans (if_pos ⟨hj,hc⟩)
 · rw [← Scalar.zero_real]
   exact entry_of_block (congrArg Sample.inner (hpla i s hs)) hj hk
 · rw [← Scalar.zero_real]
   exact entry_of_block (congrArg Sample.outer (hpla i s hs)) hj hk
 · have hmas := congrArg (·.mask.entry j) (hpla i s hs)
   have hj' : j < volume [b.size] := by simpa [volume] using hj
   simp only [Encoding.Batch.sampleAt,Encoding.Sample.padded,entry_build hj'] at hmas
   rw [← Scalar.zero_real]
   exact hmas

noncomputable def Model.outlooks (m : Model ℝ) (ss : List (Sample ℝ)) : List ℝ :=
 ss.flatMap fun s => m.outlook (widest ss - s.size) s

namespace Matcher
section
variable {α : Type} [Scalar α]

def sample (m : Matcher α) (p : Graph × Graph) : Except Error (Sample α) :=
 Encoding.encode p.1 p.2 m.width m.anchored (.ok []) .none false

def judged (m : Matcher α) (pairs : List (Graph × Graph)) : Except Error (List α) := do
 let samples ← pairs.mapM m.sample
 return (← m.model.predict (ofBatch (← Encoding.collate samples))).data.toList

lemma labels_judged (m : Matcher α) (queries sources : List Graph) :
 (do return (← m.labels queries sources).data.toList) = m.judged (queries.zip sources) := by
 have hbat : m.batch queries sources = do
  let samples ← (queries.zip sources).mapM m.sample
  return ofBatch (← Encoding.collate samples) := rfl
 rw [labels,hbat,judged]
 simp only [bind_assoc,pure_bind]

lemma predictAll_judged (m : Matcher α) (sources queries : List Graph) {bulk : Int}
 (hbulk : 1 ≤ bulk) :
 m.predictAll sources queries bulk = do
  let parts ← (Arrange.chunks bulk.toNat (queries.zip sources).length
   (queries.zip sources)).mapM m.judged
  return parts.flatten := by
 have hbat : ∀ xs : List Graph, Arrange.batches bulk xs =
  .ok (Arrange.chunks bulk.toNat xs.length xs) := fun xs => by
  rw [Arrange.batches,if_neg (by omega),if_neg (by omega)]
 let size := min sources.length queries.length
 have hsou : (sources.take size).length = size := by rw [length_take]; omega
 have hque : (queries.take size).length = size := by rw [length_take]; omega
 have hpai : (queries.take size).zip (sources.take size) = queries.zip sources := by
  conv_rhs => rw [zip_eq_zip_take_min,min_comm]
 have hlen : (queries.zip sources).length = size := by rw [length_zip,min_comm]
 rw [hlen,← hpai,← Arrange.zip_chunks bulk.toNat size (hque.trans hsou.symm),mapM_map]
 have hpar : (m.judged ∘ fun p : List Graph × List Graph => p.1.zip p.2) =
  fun p => do return (← m.labels p.1 p.2).data.toList := funext fun p => (m.labels_judged p.1 p.2).symm
 rw [hpar,predictAll,hbat,hbat,hsou,hque]
 rfl

end

structure Fitted (m : Matcher ℝ) : Prop where
 model : m.model.Fitted
 width : ∀ w, Encoding.widthOf m.width = .ok w → m.model.entry.inputs = 2 * w

variable {m : Matcher ℝ} {pairs : List (Graph × Graph)}

lemma Fitted.pads (hm : m.Fitted) (hpai : pairs ≠ []) {samples : List (Sample ℝ)}
 (h : pairs.mapM m.sample = .ok samples) :
 ∃ b, Encoding.collate samples = .ok b ∧
  (ofBatch b).Pads samples (widest samples) m.model.entry.inputs := by
 have hall := forall₂_of_mapM h
 refine collate_pads (fun hnil =>
  hpai (length_eq_zero_iff.1 (by rw [hall.length_eq,hnil,length_nil]))) ?_
 intro s hs
 obtain ⟨p,_,hp⟩ := exists_of_forall₂ hall hs
 obtain ⟨_,w,hw,hreg⟩ := Encoding.encode_regular hp
 rw [hreg.width_eq,hm.width w hw]

lemma judged_outlooks (hm : m.Fitted) (hlay : m.model.layers ≠ []) (hpai : pairs ≠ []) :
 m.judged pairs = do return m.model.outlooks (← pairs.mapM m.sample) := by
 rw [judged]
 cases hsam : pairs.mapM m.sample with
 | error e => rfl
 | ok samples =>
  obtain ⟨b,hb,hpads⟩ := hm.pads hpai hsam
  obtain ⟨p,hp,hlist⟩ := Model.predict_outlooks hm.model hlay hpads
  simp only [bind,Except.bind,pure,Except.pure,hb,hp,hlist,Model.outlooks]

lemma judged_error (hm : m.Fitted) (hlay : m.model.layers = []) (hpai : pairs ≠ []) :
 ∃ e, m.judged pairs = .error e := by
 rw [judged]
 cases hsam : pairs.mapM m.sample with
 | error e => exact ⟨e,rfl⟩
 | ok samples =>
  obtain ⟨b,hb,hpads⟩ := hm.pads hpai hsam
  exact ⟨.wrongType,by simp only [bind,Except.bind,hb,Model.predict_error hlay hpads]⟩

section
variable (hm : m.Fitted) (sources queries : List Graph) {bulk : Int} (hbulk : 1 ≤ bulk)
include hm hbulk

lemma predictAll_outlooks (hlay : m.model.layers ≠ []) : m.predictAll sources queries bulk = do
 let samples ← (queries.zip sources).mapM m.sample
 return (Arrange.chunks bulk.toNat samples.length samples).flatMap m.model.outlooks := by
 have hsiz : 0 < bulk.toNat := by omega
 rw [m.predictAll_judged sources queries hbulk,mapM_congr fun c hc =>
  judged_outlooks hm hlay (Arrange.ne_nil_of_mem_chunks hsiz hc),
   Arrange.mapM_chunks m.model.outlooks hsiz le_rfl]
 cases hsam : (queries.zip sources).mapM m.sample with
 | error e => rfl
 | ok samples =>
  have hflat :
   ((Arrange.chunks bulk.toNat (queries.zip sources).length samples).map m.model.outlooks).flatten =
   (Arrange.chunks bulk.toNat samples.length samples).flatMap m.model.outlooks := by
   rw [(forall₂_of_mapM hsam).length_eq,flatMap_def]
  exact congrArg Except.ok hflat

lemma predictAll_error (hlay : m.model.layers = []) (hpai : queries.zip sources ≠ []) :
 ∃ e, m.predictAll sources queries bulk = .error e := by
 have hsiz : 0 < bulk.toNat := by omega
 have hchu : Arrange.chunks bulk.toNat (queries.zip sources).length (queries.zip sources) ≠ [] :=
  fun h =>
  hpai (by rw [← Arrange.flatten_chunks hsiz _ (queries.zip sources) le_rfl,h,flatten_nil])
 obtain ⟨e,he⟩ := exists_error_of_mapM hchu fun c hc =>
  judged_error hm hlay (Arrange.ne_nil_of_mem_chunks hsiz hc)
 exact ⟨e,by rw [m.predictAll_judged sources queries hbulk,he]; rfl⟩

lemma predictAll_of_size (hlay : m.model.layers ≠ []) {k : Nat}
 (hpai : ∀ p ∈ queries.zip sources, p.1.size + p.2.size = k) : m.predictAll sources queries bulk = do
  let samples ← (queries.zip sources).mapM m.sample
  return samples.flatMap (m.model.outlook 0) := by
 rw [predictAll_outlooks hm sources queries hbulk hlay]
 cases hsam : (queries.zip sources).mapM m.sample with
 | error e => rfl
 | ok samples =>
  have hsiz : ∀ s ∈ samples, s.size = k := by
   intro s hs
   obtain ⟨p,hp,hsa⟩ := exists_of_forall₂ (forall₂_of_mapM hsam) hs
   rw [(Encoding.encode_regular hsa).1,hpai p hp]
  have hflat := Arrange.flatten_chunks (show 0 < bulk.toNat by omega) samples.length samples le_rfl
  have hout : ∀ c ∈ Arrange.chunks bulk.toNat samples.length samples,
   m.model.outlooks c = c.flatMap (m.model.outlook 0) := by
   intro c hc
   refine flatMap_congr fun s hs => ?_
   have hmem : ∀ r ∈ c, r ∈ samples := fun r hr => hflat ▸ mem_flatten_of_mem hc hr
   rw [← Encoding.size_eq_widest (fun r hr => hsiz r (hmem r hr)) hs,Nat.sub_self]
  refine congrArg Except.ok (?_)
  rw [flatMap_congr hout,← flatMap_assoc,flatMap_id',hflat]

end
end Matcher
end Network
end MotifMatch
