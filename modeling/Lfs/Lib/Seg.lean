/-
Linked lists in a heap from which cells may have been freed.

`next a` is the pointer that is stored in the cell `a`, or `none` if `a` is not allocated; the pointer
itself is a cell or null.  `Seg next x P y` says that the pointer `x` leads through the cells `P` to the
pointer `y`, and every cell of `P` is allocated.  A list that ends is the only one from its pointer, and
goes through no cell twice: a pointer from which a segment leads to a freed cell, or back to itself,
leads to no null pointer.
-/
import Mathlib.Data.List.Nodup
import Mathlib.Tactic.Common

namespace Lfs.Lib

open List Option

variable {α : Type*} {next next' : α → Option (Option α)} {x y z : Option α} {a : α} {P Q L : List α}

/-- The pointer `x` leads through the allocated cells of the list to the pointer `y`. -/
def Seg (next : α → Option (Option α)) : Option α → List α → Option α → Prop
  | x, [], y => x = y
  | x, a :: P, y => x = some a ∧ ∃ z, next a = some z ∧ Seg next z P y

namespace Seg

@[simp] lemma nil_iff : Seg next x [] y ↔ x = y := Iff.rfl

@[simp] lemma cons_iff :
    Seg next x (a :: P) y ↔ x = some a ∧ ∃ z, next a = some z ∧ Seg next z P y := Iff.rfl

lemma append_iff : Seg next x (P ++ Q) z ↔ ∃ y, Seg next x P y ∧ Seg next y Q z := by
  induction P generalizing x with
  | nil => simp
  | cons a P ih =>
    rw [cons_append, cons_iff]
    constructor
    · rintro ⟨rfl, w, hw, hrest⟩
      obtain ⟨y, hP, hQ⟩ := ih.1 hrest
      exact ⟨y, ⟨rfl, w, hw, hP⟩, hQ⟩
    · rintro ⟨y, ⟨rfl, w, hw, hP⟩, hQ⟩
      exact ⟨rfl, w, hw, ih.2 ⟨y, hP, hQ⟩⟩

lemma congr (h : Seg next x P y) (hnext : ∀ a ∈ P, next' a = next a) : Seg next' x P y := by
  induction P generalizing x with
  | nil => exact h
  | cons a P ih =>
    obtain ⟨rfl, z, hz, hP⟩ := h
    refine ⟨rfl, z, ?_, ih hP fun b hb => hnext b (mem_cons_of_mem a hb)⟩
    rw [hnext a mem_cons_self]
    exact hz

lemma next_ne_none (h : Seg next x P y) (ha : a ∈ P) : next a ≠ none := by
  induction P generalizing x with
  | nil => exact absurd ha (by simp)
  | cons b P ih =>
    obtain ⟨-, z, hz, hP⟩ := h
    rcases mem_cons.1 ha with rfl | ha
    · rw [hz]
      exact some_ne_none z
    · exact ih hP ha

lemma rest (h : Seg next x P y) (hL : Seg next x L none) : ∃ Q, L = P ++ Q ∧ Seg next y Q none := by
  induction P generalizing x L with
  | nil =>
    obtain rfl := nil_iff.1 h
    exact ⟨L, rfl, hL⟩
  | cons a P ih =>
    obtain ⟨rfl, z, hz, hP⟩ := h
    cases L with
    | nil => exact absurd (nil_iff.1 hL) (by simp)
    | cons b L =>
      obtain ⟨heq, z', hz', hL⟩ := hL
      obtain rfl := some.inj heq
      obtain rfl : z = z' := some.inj (hz.symm.trans hz')
      obtain ⟨Q, rfl, hQ⟩ := ih hP hL
      exact ⟨Q, rfl, hQ⟩

lemma eq_nil (h : Seg next none L none) : L = [] := by
  cases L with
  | nil => rfl
  | cons a L => exact absurd h.1 (by simp)

lemma unique (h : Seg next x P none) (hL : Seg next x L none) : L = P := by
  obtain ⟨Q, rfl, hQ⟩ := h.rest hL
  rw [hQ.eq_nil, append_nil]

lemma nodup (h : Seg next x L none) : L.Nodup := by
  induction L generalizing x with
  | nil => exact nodup_nil
  | cons a L ih =>
    obtain ⟨-, z, hz, hL⟩ := h
    refine nodup_cons.2 ⟨fun ha => ?_, ih hL⟩
    -- from the second occurrence the list would be as long as from the first one
    obtain ⟨P, Q, rfl⟩ := append_of_mem ha
    obtain ⟨y, -, hQ⟩ := append_iff.1 hL
    obtain rfl : y = some a := hQ.1
    have heq := congrArg List.length (unique hQ (L := a :: (P ++ a :: Q)) ⟨rfl, z, hz, hL⟩)
    simp only [length_cons, length_append] at heq
    omega

lemma not_ends_of_freed (h : Seg next x P (some a)) (ha : next a = none) : ¬ Seg next x L none := by
  intro hL
  obtain ⟨Q, -, hQ⟩ := h.rest hL
  cases Q with
  | nil => exact absurd (nil_iff.1 hQ) (by simp)
  | cons b Q =>
    obtain ⟨heq, z, hz, -⟩ := hQ
    rw [← some.inj heq, ha] at hz
    exact absurd hz (by simp)

lemma not_ends_of_cycle (h : Seg next x P x) (hP : P ≠ []) : ¬ Seg next x L none := by
  intro hL
  obtain ⟨Q, rfl, hQ⟩ := h.rest hL
  have heq := congrArg List.length (unique hQ hL)
  have hpos := length_pos_iff.2 hP
  rw [length_append] at heq
  omega

end Seg

end Lfs.Lib
