namespace MotifMatch
open Prod List

structure Table (κ ν : Type) where
 entries : List (κ × ν)
 deriving Repr

namespace Table
variable {κ ν μ : Type}

instance : Inhabited (Table κ ν) := ⟨⟨[]⟩⟩

instance [BEq κ] [BEq ν] : BEq (Table κ ν) := ⟨fun s t => s.entries == t.entries⟩

def empty : Table κ ν := ⟨[]⟩

def keys (t : Table κ ν) : List κ := t.entries.map fst

def values (t : Table κ ν) : List ν := t.entries.map snd

def size (t : Table κ ν) : Nat := t.entries.length

@[simp] theorem keys_empty : (empty : Table κ ν).keys = [] := rfl

def mapValues (f : κ → ν → μ) (t : Table κ ν) : Table κ μ :=
 ⟨t.entries.map fun e => (e.1,f e.1 e.2)⟩

def filter (p : κ → ν → Bool) (t : Table κ ν) : Table κ ν :=
 ⟨t.entries.filter fun e => p e.1 e.2⟩

variable [BEq κ]

def get? (t : Table κ ν) (k : κ) : Option ν := (t.entries.find? fun e => e.1 == k).map snd

def contains (t : Table κ ν) (k : κ) : Bool := t.entries.any fun e => e.1 == k

def getD (t : Table κ ν) (k : κ) (d : ν) : ν := (t.get? k).getD d

def putEntries (k : κ) (v : ν) : List (κ × ν) → List (κ × ν)
 | [] => [(k,v)]
 | e :: rest => if e.1 == k then (e.1,v) :: rest else e :: putEntries k v rest

def put (t : Table κ ν) (k : κ) (v : ν) : Table κ ν := ⟨putEntries k v t.entries⟩

def erase (t : Table κ ν) (k : κ) : Table κ ν := ⟨t.entries.filter fun e => !(e.1 == k)⟩

def modify (t : Table κ ν) (k : κ) (f : ν → ν) : Table κ ν :=
 ⟨t.entries.map fun e => if e.1 == k then (e.1,f e.2) else e⟩

def putAll (t : Table κ ν) (kvs : List (κ × ν)) : Table κ ν :=
 kvs.foldl (fun acc e => acc.put e.1 e.2) t

def ofList (kvs : List (κ × ν)) : Table κ ν := (empty : Table κ ν).putAll kvs

theorem keys_putEntries (k : κ) (v : ν) :
 ∀ l : List (κ × ν), (putEntries k v l).map fst =
  if l.any (fun e => e.1 == k) then l.map fst else l.map fst ++ [k] := by
 intro l
 induction l with
 | nil => simp [putEntries]
 | cons e rest ih =>
  simp only [putEntries]
  by_cases h : (e.1 == k) = true
  · simp [h]
  · simp only [h,Bool.false_eq_true,if_false,map_cons,ih,any_cons]
    by_cases h' : (rest.any fun e => e.1 == k) = true <;> simp [h']

theorem keys_put (t : Table κ ν) (k : κ) (v : ν) :
 (t.put k v).keys = if t.contains k then t.keys else t.keys ++ [k] := by
 simp only [put,keys,contains]
 exact keys_putEntries k v t.entries

theorem get?_put_self [LawfulBEq κ] (t : Table κ ν) (k : κ) (v : ν) :
 (t.put k v).get? k = some v := by
 simp only [put,get?]
 induction t.entries with
 | nil => simp [putEntries]
 | cons e rest ih =>
  simp only [putEntries]
  by_cases h : (e.1 == k) = true
  · simp [h]
  · simp only [h,Bool.false_eq_true,if_false,find?_cons]
    exact ih

theorem get?_put_of_ne [LawfulBEq κ] (t : Table κ ν) {k j : κ} (v : ν) (hne : j ≠ k) :
 (t.put k v).get? j = t.get? j := by
 simp only [put,get?]
 induction t.entries with
 | nil => simp [putEntries,Ne.symm hne]
 | cons e rest ih =>
  simp only [putEntries]
  by_cases h : e.1 = k
  · have hj : e.1 ≠ j := fun hh => hne (hh.symm.trans h)
    simp [h,Ne.symm hne]
  · by_cases hj : e.1 = j
    · simp [hj,hne]
    · simp only [beq_iff_eq,h,if_false,find?_cons,beq_eq_false_iff_ne.mpr hj]
      exact ih

end Table
end MotifMatch
