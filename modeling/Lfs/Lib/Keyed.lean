/-
Tables of entries with a key, kept as lists.

An entry is looked up by its key, and the first one that has it is found.  `upsertWith f x` changes the
entry with the key of `x` by `f x`, and adds `x` at the end if there is none.  If `f x` does not change
keys, one such step changes what is found for one key only (`entry_upsertWith`).
-/
import Mathlib.Data.Finset.Card
import Mathlib.Data.List.Find

namespace Lfs.Lib

open List

variable {α κ : Type*} [DecidableEq κ] (key : α → κ) (f : α → α → α)

def entry (k : κ) (l : List α) : Option α := l.find? fun e => decide (key e = k)

/-- The entry with the key of `x` is changed by `f x`, or `x` is added. -/
def upsertWith (l : List α) (x : α) : List α :=
  match l.findIdx? fun e => decide (key e = key x) with
  | some i => l.modify i (f x)
  | none => l ++ [x]

variable {key f} {k : κ} {l xs : List α} {x : α}

lemma entry_eq_none_iff : entry key k l = none ↔ k ∉ l.map key := by
  simp [entry]

lemma entry_cons (e : α) : entry key k (e :: l) = if key e = k then some e else entry key k l := by
  rw [entry, find?_cons]
  by_cases he : key e = k <;> simp [he, entry]

lemma key_of_entry {e : α} (h : entry key k l = some e) : key e = k := by
  rw [entry] at h
  simpa using find?_some h

lemma entry_eq_some_iff (hl : (l.map key).Nodup) {e : α} (he : key e = k) :
    entry key k l = some e ↔ e ∈ l := by
  constructor
  · exact mem_of_find?_eq_some
  · intro hmem
    cases hfind : entry key k l with
    | none => exact absurd (mem_map.2 ⟨e, hmem, he⟩) (entry_eq_none_iff.1 hfind)
    | some e' =>
      have hmem' : e' ∈ l := mem_of_find?_eq_some hfind
      rw [inj_on_of_nodup_map hl hmem' hmem ((key_of_entry hfind).trans he.symm)]

lemma upsertWith_cons (e : α) :
    upsertWith key f (e :: l) x = if key e = key x then f x e :: l else e :: upsertWith key f l x := by
  rw [upsertWith, findIdx?_cons]
  by_cases he : key e = key x
  · simp [he]
  · rw [if_neg (by simpa using he), if_neg he, upsertWith]
    cases l.findIdx? fun e => decide (key e = key x) <;> simp

section

variable (hf : ∀ e, key (f x e) = key e)
include hf

/-- **One step** changes the entry of one key. -/
lemma entry_upsertWith (k : κ) (l : List α) :
    entry key k (upsertWith key f l x) =
      if key x = k then some ((entry key k l).elim x (f x)) else entry key k l := by
  induction l with
  | nil =>
    rw [upsertWith, findIdx?_nil, nil_append, entry_cons]
    rfl
  | cons e l ih =>
    rw [upsertWith_cons, entry_cons]
    by_cases he : key e = key x
    · rw [if_pos he, entry_cons, hf]
      by_cases hk : key e = k
      · simp [hk, he ▸ hk]
      · simp [hk, he ▸ hk]
    · rw [if_neg he, entry_cons, ih]
      by_cases hk : key e = k
      · have hx : key x ≠ k := fun hx => he (hk.trans hx.symm)
        simp [hk, hx]
      · simp [hk]

lemma keys_upsertWith (l : List α) :
    (upsertWith key f l x).map key =
      if key x ∈ l.map key then l.map key else l.map key ++ [key x] := by
  induction l with
  | nil => simp [upsertWith]
  | cons e l ih =>
    rw [upsertWith_cons]
    by_cases he : key e = key x
    · simp [he, hf]
    · rw [if_neg he, map_cons, ih]
      by_cases hx : key x ∈ l.map key
      · simp [hx]
      · simp [hx, Ne.symm he]

lemma nodup_keys_upsertWith (hl : (l.map key).Nodup) :
    ((upsertWith key f l x).map key).Nodup := by
  rw [keys_upsertWith hf]
  split_ifs with hx
  · exact hl
  · rw [← concat_eq_append, nodup_concat]
    exact ⟨hx, hl⟩

lemma toFinset_keys_upsertWith (l : List α) :
    ((upsertWith key f l x).map key).toFinset = insert (key x) (l.map key).toFinset := by
  rw [keys_upsertWith hf]
  split_ifs with hx
  · rw [Finset.insert_eq_of_mem (mem_toFinset.2 hx)]
  · rw [toFinset_append, Finset.insert_eq, Finset.union_comm]
    rfl

end

/-! ### Many steps -/

section

variable (hf : ∀ x e, key (f x e) = key e)
include hf

lemma nodup_keys_foldl (hl : (l.map key).Nodup) (xs : List α) :
    ((xs.foldl (upsertWith key f) l).map key).Nodup := by
  induction xs generalizing l with
  | nil => exact hl
  | cons x xs ih => exact ih (nodup_keys_upsertWith (hf x) hl)

/-- **Many steps.**  The keys are those before and those of the steps. -/
lemma toFinset_keys_foldl (l xs : List α) :
    ((xs.foldl (upsertWith key f) l).map key).toFinset = ((l ++ xs).map key).toFinset := by
  induction xs generalizing l with
  | nil => rw [append_nil, foldl_nil]
  | cons x xs ih =>
    rw [foldl_cons, ih, map_append, toFinset_append, toFinset_keys_upsertWith (hf x)]
    simp [map_append, toFinset_append, Finset.union_insert]

lemma length_foldl (hl : (l.map key).Nodup) (xs : List α) :
    (xs.foldl (upsertWith key f) l).length = ((l ++ xs).map key).toFinset.card := by
  rw [← toFinset_keys_foldl hf, toFinset_card_of_nodup (nodup_keys_foldl hf hl xs), length_map]

lemma entry_foldl_of_notMem (hk : k ∉ xs.map key) (l : List α) :
    entry key k (xs.foldl (upsertWith key f) l) = entry key k l := by
  induction xs generalizing l with
  | nil => rfl
  | cons x xs ih =>
    rw [map_cons, mem_cons, not_or] at hk
    rw [foldl_cons, ih hk.2, entry_upsertWith (hf x), if_neg (Ne.symm hk.1)]

/-- **Equal steps.**  If all steps for a key are `x`, and doing `x` again changes nothing, then one of
them counts. -/
lemma entry_foldl_of_forall_eq (hself : f x x = x)
    (hidem : ∀ e, f x (f x e) = f x e) (hx : x ∈ xs) (heq : ∀ y ∈ xs, key y = key x → y = x)
    (l : List α) :
    entry key (key x) (xs.foldl (upsertWith key f) l) = some ((entry key (key x) l).elim x (f x)) := by
  induction xs generalizing l with
  | nil => exact absurd hx not_mem_nil
  | cons y xs ih =>
    have htail : ∀ z ∈ xs, key z = key x → z = x := fun z hz => heq z (mem_cons_of_mem y hz)
    rw [foldl_cons]
    by_cases hy : key y = key x
    · -- the first one is `x`, and a further one changes nothing
      obtain rfl := heq y mem_cons_self hy
      have hone : entry key (key y) (upsertWith key f l y) = some ((entry key (key y) l).elim y (f y)) := by
        rw [entry_upsertWith (hf y), if_pos rfl]
      by_cases hmem : y ∈ xs
      · rw [ih hmem htail, hone]
        cases entry key (key y) l with
        | none => simp [hself]
        | some e => simp [hidem]
      · have hnot : key y ∉ xs.map key := by
          rintro hkey
          obtain ⟨z, hz, hzkey⟩ := mem_map.1 hkey
          exact hmem (htail z hz hzkey ▸ hz)
        rw [entry_foldl_of_notMem hf hnot, hone]
    · have hmem : x ∈ xs := by
        rcases mem_cons.1 hx with rfl | hmem
        · exact absurd rfl hy
        · exact hmem
      rw [ih hmem htail, entry_upsertWith (hf y), if_neg hy]

end

end Lfs.Lib
