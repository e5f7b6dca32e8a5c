/-
Arrays of pointers that grow when they are full.

An array has slots, of which the first `count` are in use; a slot that is not is null.  A value is stored
in the first slot that is not in use.  When there is none, a longer array is made and the used slots are
copied over one by one.  What the array is for is the list of the values in its used slots, `view`: if no
used slot is null (`Filled`), growing does not change it and storing a value adds it at the end
(`view_push`).
-/
import Mathlib.Data.Nat.Basic
import Mathlib.Order.MinMax
import Mathlib.Tactic.Common

namespace Lfs.Lib

open List Option

/-- An array of pointers, of which the first `count` are in use. -/
structure GrowArray (α : Type*) where
  slots : List (Option α)
  count : ℕ
  count_le : count ≤ slots.length

namespace GrowArray

variable {α : Type*}

/-- An array of `n` null pointers. -/
def empty (n : ℕ) : GrowArray α := ⟨replicate n none, 0, Nat.zero_le _⟩

/-- A value is stored in the first slot that is not in use. -/
def store (a : GrowArray α) (x : α) (h : a.count < a.slots.length) : GrowArray α :=
  ⟨a.slots.set a.count (some x), a.count + 1, by rwa [length_set]⟩

/-- The loop that copies `xs` to the front of `new`. -/
def copy (xs new : List (Option α)) : List (Option α) :=
  xs.zipIdx.foldl (fun new p => new.set p.2 p.1) new

lemma length_copy (xs new : List (Option α)) : (copy xs new).length = new.length := by
  unfold copy
  generalize xs.zipIdx = ps
  induction ps generalizing new with
  | nil => rfl
  | cons p ps ih => rw [foldl_cons, ih, length_set]

/-- The used slots are copied to an array with `n` more slots. -/
def grow (n : ℕ) (a : GrowArray α) : GrowArray α where
  slots := copy (a.slots.take a.count) (replicate (a.slots.length + n) none)
  count := a.count
  count_le := by
    rw [length_copy, length_replicate]
    exact a.count_le.trans (Nat.le_add_right _ _)

lemma length_grow (n : ℕ) (a : GrowArray α) : (a.grow n).slots.length = a.slots.length + n := by
  rw [grow, length_copy, length_replicate]

lemma count_lt_length_grow {n : ℕ} (hn : 0 < n) (a : GrowArray α) :
    (a.grow n).count < (a.grow n).slots.length := by
  rw [length_grow]
  exact a.count_le.trans_lt (Nat.lt_add_of_pos_right hn)

/-- A value is added.  A full array grows by `n` slots before; `alloc` is whether there is memory for
the new array. -/
def push {n : ℕ} (hn : 0 < n) (alloc : Bool) (x : α) (a : GrowArray α) : Option (GrowArray α) :=
  if h : a.slots.length ≤ a.count then
    if alloc then some ((a.grow n).store x (count_lt_length_grow hn a)) else none
  else some (a.store x (not_le.1 h))

/-- The value in the slot `i` is changed in place. -/
def modifyAt (i : ℕ) (f : α → α) (a : GrowArray α) : GrowArray α :=
  ⟨a.slots.modify i (Option.map f), a.count, by rw [length_modify]; exact a.count_le⟩

def used (a : GrowArray α) : List (Option α) := a.slots.take a.count

/-- The first used slot with a value that satisfies `p`. -/
def findIdx? (p : α → Bool) (a : GrowArray α) : Option ℕ := a.used.findIdx? fun o => o.any p

/-- The value in the slot `i`. -/
def get? (a : GrowArray α) (i : ℕ) : Option α := a.slots[i]?.join

/-! ### The used slots -/

variable {a a' : GrowArray α} {x : α} {n : ℕ} {hn : 0 < n} {alloc : Bool}

lemma length_used (a : GrowArray α) : a.used.length = a.count := by
  rw [used, length_take, min_eq_left a.count_le]

@[simp] lemma used_empty (n : ℕ) : (empty n : GrowArray α).used = [] := rfl

lemma used_store (h : a.count < a.slots.length) : (a.store x h).used = a.used ++ [some x] := by
  show (a.slots.set a.count (some x)).take (a.count + 1) = _
  rw [take_add_one, getElem?_set_self h, take_set_of_le le_rfl]
  rfl

lemma foldl_set_zipIdx (xs new : List (Option α)) (k : ℕ) (h : k + xs.length ≤ new.length) :
    (xs.zipIdx k).foldl (fun new p => new.set p.2 p.1) new =
      new.take k ++ xs ++ new.drop (k + xs.length) := by
  induction xs generalizing k new with
  | nil => simp
  | cons x xs ih =>
    rw [length_cons] at h
    have hk : k < new.length := by omega
    rw [zipIdx_cons, foldl_cons, ih (new.set k x) (k + 1) (by rw [length_set]; omega),
      take_add_one, getElem?_set_self hk, take_set_of_le le_rfl,
      drop_set_of_lt (by omega), length_cons]
    simp [Nat.add_assoc, Nat.add_comm 1]

lemma used_grow (n : ℕ) (a : GrowArray α) : (a.grow n).used = a.used := by
  have hroom : 0 + a.used.length ≤ (replicate (a.slots.length + n) (none : Option α)).length := by
    rw [length_used, length_replicate, Nat.zero_add]
    exact a.count_le.trans (Nat.le_add_right _ _)
  have hloop := foldl_set_zipIdx a.used _ 0 hroom
  rw [take_zero, nil_append] at hloop
  have hslots : (a.grow n).slots = a.used ++ _ := hloop
  show (a.grow n).slots.take a.count = _
  rw [hslots, take_append_of_le_length (length_used a).ge, take_of_length_le (length_used a).le]

lemma used_push (h : a.push hn alloc x = some a') : a'.used = a.used ++ [some x] := by
  rw [push] at h
  split_ifs at h with hfull halloc
  · obtain rfl := some.inj h
    rw [used_store, used_grow]
  · obtain rfl := some.inj h
    exact used_store _

lemma push_isSome_iff : (a.push hn alloc x).isSome ↔ a.count < a.slots.length ∨ alloc = true := by
  rw [push]
  split_ifs with hfull halloc
  · simp [halloc]
  · simp [halloc, hfull]
  · simp [not_le.1 hfull]

lemma used_modifyAt (i : ℕ) (f : α → α) (a : GrowArray α) :
    (a.modifyAt i f).used = a.used.modify i (Option.map f) :=
  take_modify ..

lemma findIdx?_push {p : α → Bool} (h : a.push hn alloc x = some a') (hnone : a.findIdx? p = none)
    (hx : p x = true) : a'.findIdx? p = some a.count := by
  rw [findIdx?] at hnone
  rw [findIdx?, used_push h, findIdx?_append, hnone, length_used]
  simp [hx]

lemma exists_get?_of_findIdx? {p : α → Bool} {i : ℕ} (h : a.findIdx? p = some i) :
    ∃ x, a.get? i = some x := by
  obtain ⟨hi, hp, -⟩ := findIdx?_eq_some_iff_getElem.1 h
  obtain ⟨hsome, -⟩ := (any_eq_true_iff_get ..).1 hp
  obtain ⟨x, hx⟩ := isSome_iff_exists.1 hsome
  have hslot : a.slots[i]? = some (some x) := by
    rw [← hx, ← getElem?_take_of_lt (hi.trans_eq a.length_used)]
    exact getElem?_eq_getElem hi
  exact ⟨x, by rw [get?, hslot, join_some]⟩

lemma findIdx?_modifyAt {p : α → Bool} {f : α → α} (hf : ∀ x, p (f x) = p x) (i : ℕ) :
    (a.modifyAt i f).findIdx? p = a.findIdx? p := by
  have hmap (l : List (Option α)) : l.findIdx? (fun o => o.any p) =
      (l.map fun o => o.any p).findIdx? id := by
    rw [findIdx?_map, Function.id_comp]
  rw [findIdx?, findIdx?, used_modifyAt, hmap, hmap]
  congr 1
  refine ext_getElem? fun j => ?_
  rw [getElem?_map, getElem?_map, getElem?_modify]
  cases a.used[j]? with
  | none => simp
  | some o =>
    split_ifs
    · cases o with
      | none => rfl
      | some x => exact congrArg some (hf x)
    · rfl

/-! ### The values -/

def view (a : GrowArray α) : List α := a.used.filterMap id

/-- No used slot is null. -/
def Filled (a : GrowArray α) : Prop := a.used = a.view.map some

lemma filled_of_eq {l : List α} (h : a.used = l.map some) : a.Filled ∧ a.view = l := by
  have hview : a.view = l := by
    rw [view, h, filterMap_map, Function.id_comp, filterMap_some]
  exact ⟨by rw [Filled, hview, h], hview⟩

lemma Filled.length_view (h : a.Filled) : a.view.length = a.count := by
  rw [← length_used, h, length_map]

lemma filled_empty (n : ℕ) : (empty n : GrowArray α).Filled ∧ (empty n : GrowArray α).view = [] :=
  filled_of_eq (used_empty n)

lemma Filled.push (h : a.Filled) (hpush : a.push hn alloc x = some a') :
    a'.Filled ∧ a'.view = a.view ++ [x] := by
  refine filled_of_eq ?_
  rw [used_push hpush, h, map_append]
  rfl

lemma Filled.modifyAt (h : a.Filled) (i : ℕ) (f : α → α) :
    (a.modifyAt i f).Filled ∧ (a.modifyAt i f).view = a.view.modify i f := by
  refine filled_of_eq ?_
  rw [used_modifyAt, h]
  refine ext_getElem? fun j => ?_
  rw [getElem?_modify, getElem?_map, getElem?_map, getElem?_modify]
  cases a.view[j]? with
  | none => simp
  | some y => split_ifs <;> rfl

lemma Filled.findIdx?_eq (h : a.Filled) (p : α → Bool) : a.findIdx? p = a.view.findIdx? p := by
  rw [GrowArray.findIdx?, h, findIdx?_map]
  rfl

lemma Filled.get?_eq (h : a.Filled) {i : ℕ} (hi : i < a.count) : a.get? i = a.view[i]? := by
  have hget : a.slots[i]? = (a.view.map some)[i]? := by
    rw [← h, used, getElem?_take_of_lt hi]
  rw [GrowArray.get?, hget, getElem?_map]
  cases a.view[i]? <;> rfl

end GrowArray

end Lfs.Lib
