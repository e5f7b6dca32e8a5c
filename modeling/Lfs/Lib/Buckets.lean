/-
Arrays of bucket lists with checked accesses.

A bucket table is an array of lists, written at an index by pushing a value to the
front of the list stored there.  Every access is checked: `push` and `pushAll`
return `none` when an index is not below the length of the array, so that a
result `some _` says that every index used was in range.  The lemmas describe what
the buckets of the table hold after a push, and after pushing a whole list.
-/
import Mathlib.Data.List.Nodup
import Mathlib.Tactic.Common

namespace Lfs.Lib

open List Option

variable {α : Type*}

abbrev Buckets (α : Type*) : Type _ := List (List α)

namespace Buckets

variable {t t' : Buckets α} {x y : α} {xs : List α} {i j : ℕ} {f : α → ℕ}

/-- A table of `n` empty buckets. -/
def empty (n : ℕ) : Buckets α := replicate n []

/-- Push `x` to the front of the bucket `i`. -/
def push (t : Buckets α) (i : ℕ) (x : α) : Option (Buckets α) :=
  (t[i]?).map fun b => t.set i (x :: b)

/-- Push the values of a list one after the other, `x` to the bucket `f x`. -/
def pushAll (f : α → ℕ) (t : Buckets α) (xs : List α) : Option (Buckets α) :=
  xs.foldlM (fun t x => t.push (f x) x) t

@[simp] lemma length_empty (n : ℕ) : (empty n : Buckets α).length = n := by simp [empty]

lemma getElem?_empty {n : ℕ} {b : List α} (h : (empty n : Buckets α)[i]? = some b) : b = [] := by
  simp only [empty, getElem?_replicate] at h
  split at h <;> simp_all

lemma push_eq_some (h : i < t.length) : t.push i x = some (t.set i (x :: t[i])) := by
  simp [push, getElem?_eq_getElem h]

lemma push_eq_none (h : t.length ≤ i) : t.push i x = none := by
  simp [push, getElem?_eq_none h]

lemma push_inv (h : t.push i x = some t') : ∃ hi : i < t.length, t' = t.set i (x :: t[i]) := by
  rcases Nat.lt_or_ge i t.length with hi | hi
  · rw [push_eq_some hi] at h
    exact ⟨hi, (some.inj h).symm⟩
  · rw [push_eq_none hi] at h
    exact absurd h (by simp)

lemma push_length (h : t.push i x = some t') : t'.length = t.length := by
  obtain ⟨hi, rfl⟩ := push_inv h
  simp

/-- The value `y` is in the bucket `j`. -/
def Mem (t : Buckets α) (j : ℕ) (y : α) : Prop := ∃ b, t[j]? = some b ∧ y ∈ b

lemma mem_empty {n : ℕ} : ¬ Mem (empty n : Buckets α) j y := by
  rintro ⟨b, hb, hy⟩
  rw [getElem?_empty hb] at hy
  exact absurd hy (by simp)

lemma mem_push (h : t.push i x = some t') : Mem t' j y ↔ (j = i ∧ y = x) ∨ Mem t j y := by
  obtain ⟨hi, rfl⟩ := push_inv h
  by_cases hj : j = i
  · subst hj
    simp [Mem, getElem?_set_self hi, getElem?_eq_getElem hi]
  · simp [Mem, getElem?_set_ne (Ne.symm hj), hj]

lemma pushAll_length (h : pushAll f t xs = some t') : t'.length = t.length := by
  induction xs generalizing t with
  | nil => simp_all [pushAll]
  | cons x xs ih =>
    simp only [pushAll, foldlM_cons, bind_eq_bind, bind_eq_some_iff] at h
    obtain ⟨t₁, h₁, h₂⟩ := h
    rw [ih h₂, push_length h₁]

lemma mem_pushAll (h : pushAll f t xs = some t') : Mem t' j y ↔ (y ∈ xs ∧ j = f y) ∨ Mem t j y := by
  induction xs generalizing t with
  | nil => simp_all [pushAll]
  | cons x xs ih =>
    simp only [pushAll, foldlM_cons, bind_eq_bind, bind_eq_some_iff] at h
    obtain ⟨t₁, h₁, h₂⟩ := h
    rw [ih h₂, mem_push h₁, mem_cons]
    constructor
    · rintro (⟨hy, hj⟩ | ⟨rfl, rfl⟩ | hm)
      · exact Or.inl ⟨Or.inr hy, hj⟩
      · exact Or.inl ⟨Or.inl rfl, rfl⟩
      · exact Or.inr hm
    · rintro (⟨rfl | hy, hj⟩ | hm)
      · exact Or.inr (Or.inl ⟨hj, rfl⟩)
      · exact Or.inl ⟨hy, hj⟩
      · exact Or.inr (Or.inr hm)

lemma exists_pushAll (h : ∀ x ∈ xs, f x < t.length) : ∃ t', pushAll f t xs = some t' := by
  induction xs generalizing t with
  | nil => exact ⟨t, rfl⟩
  | cons x xs ih =>
    have hx : f x < t.length := h x (by simp)
    obtain ⟨t', ht'⟩ := ih (t := t.set (f x) (x :: t[f x]))
      (fun y hy => by simpa using h y (by simp [hy]))
    exact ⟨t', by simpa [pushAll, push_eq_some hx] using ht'⟩

lemma push_map {β : Type*} (g : α → β) :
    push (t.map (List.map g)) i (g x) = (t.push i x).map (List.map (List.map g)) := by
  simp only [push, getElem?_map, Option.map_map]
  cases t[i]? with
  | none => rfl
  | some b => simp [map_set]

lemma pushAll_map {β : Type*} {g : α → β} {f' : β → ℕ} (hf : ∀ x, f' (g x) = f x) :
    pushAll f' (t.map (List.map g)) (xs.map g) = (pushAll f t xs).map (List.map (List.map g)) := by
  induction xs generalizing t with
  | nil => simp [pushAll]
  | cons x xs ih =>
    simp only [pushAll, map_cons, foldlM_cons, bind_eq_bind, hf, push_map]
    cases t.push (f x) x with
    | none => rfl
    | some t' => exact ih

lemma mem_map {β : Type*} {g : α → β} {z : β} :
    Mem (t.map (List.map g)) j z ↔ ∃ y, t.Mem j y ∧ g y = z := by
  simp only [Mem, getElem?_map, map_eq_some_iff]
  constructor
  · rintro ⟨_, ⟨b, hb, rfl⟩, hz⟩
    obtain ⟨y, hy, rfl⟩ := List.mem_map.1 hz
    exact ⟨y, ⟨b, hb, hy⟩, rfl⟩
  · rintro ⟨y, ⟨b, hb, hy⟩, rfl⟩
    exact ⟨_, ⟨b, hb, rfl⟩, mem_map_of_mem hy⟩

lemma mem_flatten : y ∈ t.flatten ↔ ∃ j, t.Mem j y := by
  constructor
  · intro hy
    obtain ⟨b, hb, hyb⟩ := List.mem_flatten.1 hy
    obtain ⟨j, hj⟩ := mem_iff_getElem?.1 hb
    exact ⟨j, b, hj, hyb⟩
  · rintro ⟨j, b, hj, hyb⟩
    exact List.mem_flatten.2 ⟨b, mem_of_getElem? hj, hyb⟩

lemma mem_unique (hnodup : t.flatten.Nodup) (hi : t.Mem i y) (hj : t.Mem j y) : i = j := by
  have hdisjoint := pairwise_iff_getElem.1 (nodup_flatten.1 hnodup).2
  obtain ⟨b, hb, hyb⟩ := hi
  obtain ⟨d, hd, hyd⟩ := hj
  obtain ⟨hilt, rfl⟩ := List.getElem?_eq_some_iff.1 hb
  obtain ⟨hjlt, rfl⟩ := List.getElem?_eq_some_iff.1 hd
  rcases Nat.lt_trichotomy i j with hlt | heq | hgt
  · exact absurd hyd (hdisjoint i j hilt hjlt hlt hyb)
  · exact heq
  · exact absurd hyb (hdisjoint j i hjlt hilt hgt hyd)

@[simp] lemma flatten_empty (n : ℕ) : (empty n : Buckets α).flatten = [] := by
  refine eq_nil_iff_forall_not_mem.2 fun y hy => ?_
  obtain ⟨j, hj⟩ := mem_flatten.1 hy
  exact mem_empty hj

lemma flatten_set_perm {b d : List α} (h : t[i]? = some b) :
    (b ++ (t.set i d).flatten).Perm (d ++ t.flatten) := by
  induction t generalizing i with
  | nil => simp at h
  | cons a t ih =>
    cases i with
    | zero =>
      obtain rfl : a = b := by simpa using h
      rw [set_cons_zero, flatten_cons, flatten_cons]
      exact perm_append_comm_assoc ..
    | succ i =>
      rw [set_cons_succ, flatten_cons, flatten_cons]
      calc (b ++ (a ++ (t.set i d).flatten)).Perm (a ++ (b ++ (t.set i d).flatten)) :=
            perm_append_comm_assoc ..
        _ |>.Perm (a ++ (d ++ t.flatten)) := (ih (by simpa using h)).append_left a
        _ |>.Perm (d ++ (a ++ t.flatten)) := perm_append_comm_assoc ..

lemma flatten_set_tail_perm {b : List α} (h : t[i]? = some (x :: b)) :
    (x :: (t.set i b).flatten).Perm t.flatten := by
  have hperm := flatten_set_perm (d := b) h
  rw [cons_append] at hperm
  exact (perm_append_left_iff b).1 (perm_middle.trans hperm)

lemma mem_of_mem_set {b d : List α} (h : t[i]? = some b) (hsub : d ⊆ b) (hy : Mem (t.set i d) j y) :
    Mem t j y := by
  obtain ⟨hi, -⟩ := List.getElem?_eq_some_iff.1 h
  obtain ⟨e, he, hye⟩ := hy
  by_cases hij : i = j
  · subst hij
    rw [getElem?_set_self hi] at he
    obtain rfl := some.inj he
    exact ⟨b, h, hsub hye⟩
  · rw [getElem?_set_ne hij] at he
    exact ⟨e, he, hye⟩

lemma flatten_push_perm (h : t.push i x = some t') : t'.flatten.Perm (x :: t.flatten) := by
  obtain ⟨hi, rfl⟩ := push_inv h
  have hperm := flatten_set_perm (d := x :: t[i]) (getElem?_eq_getElem hi)
  rw [cons_append] at hperm
  exact (perm_append_left_iff t[i]).1 (hperm.trans perm_middle.symm)

lemma flatten_pushAll_perm (h : pushAll f t xs = some t') : t'.flatten.Perm (xs ++ t.flatten) := by
  induction xs generalizing t with
  | nil =>
    obtain rfl : t = t' := by simpa [pushAll] using h
    exact List.Perm.refl _
  | cons x xs ih =>
    simp only [pushAll, foldlM_cons, bind_eq_bind, bind_eq_some_iff] at h
    obtain ⟨t₁, h₁, h₂⟩ := h
    exact (ih h₂).trans (((flatten_push_perm h₁).append_left xs).trans perm_middle)

end Buckets

/-- The search for a key gives the same result in a list as in a list that contains
it, has distinct keys and has all its values with that key in the first list. -/
lemma find?_key_eq {κ : Type*} [BEq κ] [LawfulBEq κ] {key : α → κ} {k : κ} {l ins : List α}
    (hsub : ∀ v ∈ l, v ∈ ins) (hdist : (ins.map key).Nodup) (hmem : ∀ v ∈ ins, key v = k → v ∈ l) :
    l.find? (fun v => key v == k) = ins.find? fun v => key v == k := by
  rcases hins : ins.find? (fun v => key v == k) with _ | w
  · rw [find?_eq_none] at hins ⊢
    exact fun v hv => hins v (hsub v hv)
  · have hw : w ∈ ins := mem_of_find?_eq_some hins
    have hwk : key w = k := by simpa using find?_some hins
    rcases hl : l.find? (fun v => key v == k) with _ | v
    · rw [find?_eq_none] at hl
      exact absurd (hl w (hmem w hw hwk)) (by simp [hwk])
    · have hv : v ∈ ins := hsub v (mem_of_find?_eq_some hl)
      have hvk : key v = k := by simpa using find?_some hl
      rw [inj_on_of_nodup_map hdist hv hw (hvk.trans hwk.symm)]

end Lfs.Lib
