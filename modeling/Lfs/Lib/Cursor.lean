/-
A cursor over a log of items that are delivered at least once.

The items of a log lie one behind the other, each of some positive size, and a position is
the number of bytes in front of it.  A cursor that starts at `start` may stand at a
position only if all items between the start and the position have been acknowledged.
This holds at the start and in front of it, it survives items that are acknowledged or
appended later, and the cursor may step over an item once that item is acknowledged.
-/
import Mathlib.Algebra.BigOperators.Group.List.Basic
import Mathlib.Algebra.GroupWithZero.Nat
import Mathlib.Tactic.Common

namespace Lfs.Lib

open List

variable {α : Type*} {size : α → ℕ}

/-- The position behind the items `done` at the front of a log. -/
def offset (size : α → ℕ) (done : List α) : ℕ := (done.map size).sum

@[simp] lemma offset_nil : offset size [] = 0 := rfl

@[simp] lemma offset_append (xs ys : List α) :
    offset size (xs ++ ys) = offset size xs + offset size ys := by
  simp [offset]

@[simp] lemma offset_cons (x : α) (xs : List α) :
    offset size (x :: xs) = size x + offset size xs := by
  simp [offset]

/-- The position `p` is one between two items, or one of the ends of the log. -/
def Boundary (size : α → ℕ) (log : List α) (p : ℕ) : Prop :=
  ∃ done rest, log = done ++ rest ∧ p = offset size done

/-- The position `p` is a boundary, and it is not behind any item from the position `start`
on that has not been acknowledged. -/
structure NotAhead (size : α → ℕ) (log : List α) (start : ℕ) (acked : ℕ → α → Prop) (p : ℕ) :
    Prop where
  boundary : Boundary size log p
  le : ∀ done a rest, log = done ++ a :: rest → start ≤ offset size done →
    ¬ acked (offset size done) a → p ≤ offset size done

variable {log : List α} {start p : ℕ} {acked acked' : ℕ → α → Prop}

lemma Boundary.zero : Boundary size log 0 := ⟨[], log, rfl, rfl⟩

lemma Boundary.append (h : Boundary size log p) (more : List α) :
    Boundary size (log ++ more) p := by
  obtain ⟨done, rest, rfl, rfl⟩ := h
  exact ⟨done, rest ++ more, append_assoc .., rfl⟩

lemma Boundary.le (h : Boundary size log p) : p ≤ offset size log := by
  obtain ⟨done, rest, rfl, rfl⟩ := h
  rw [offset_append]
  exact Nat.le_add_right _ _

namespace NotAhead

lemma zero : NotAhead size log start acked 0 := ⟨.zero, fun _ _ _ _ _ _ => Nat.zero_le _⟩

lemma at_start (h : Boundary size log start) : NotAhead size log start acked start :=
  ⟨h, fun _ _ _ _ hstart _ => hstart⟩

lemma mono (h : NotAhead size log start acked p) (hacked : ∀ q a, acked q a → acked' q a) :
    NotAhead size log start acked' p :=
  ⟨h.boundary, fun done a rest hlog hstart hnot =>
    h.le done a rest hlog hstart fun ha => hnot (hacked _ _ ha)⟩

lemma append (h : NotAhead size log start acked p) (more : List α) :
    NotAhead size (log ++ more) start acked p := by
  refine ⟨h.boundary.append more, fun done a rest hlog hstart hnot => ?_⟩
  rcases append_eq_append_iff.1 hlog with ⟨as, rfl, -⟩ | ⟨bs, rfl, hbs⟩
  · -- an item that has been appended
    rw [offset_append]
    exact Nat.le_trans h.boundary.le (Nat.le_add_right _ _)
  · cases bs with
    | nil =>
      rw [append_nil] at h
      exact h.boundary.le
    | cons b bs =>
      obtain ⟨rfl, -⟩ := List.cons.inj hbs
      exact h.le done a bs rfl hstart hnot

lemma advance (hpos : ∀ a, 0 < size a) {done rest : List α} {a : α}
    (h : NotAhead size (done ++ a :: rest) start acked (offset size done))
    (ha : acked (offset size done) a) :
    NotAhead size (done ++ a :: rest) start acked (offset size (done ++ [a])) := by
  refine ⟨⟨done ++ [a], rest, by simp, rfl⟩, fun done' b rest' hlog hstart hnot => ?_⟩
  have hle := h.le done' b rest' hlog hstart hnot
  rcases append_eq_append_iff.1 hlog with ⟨as, rfl, has⟩ | ⟨bs, rfl, -⟩
  · cases as with
    | nil =>
      -- the item itself, which has been acknowledged
      rw [nil_append] at has
      obtain ⟨rfl, -⟩ := List.cons.inj has
      rw [append_nil] at hnot
      exact absurd ha hnot
    | cons c as =>
      obtain ⟨rfl, -⟩ := List.cons.inj has
      simp only [offset_append, offset_cons, offset_nil]
      omega
  · cases bs with
    | nil =>
      rw [append_nil, append_cancel_left_eq] at hlog
      obtain ⟨rfl, -⟩ := List.cons.inj hlog
      rw [append_nil] at ha
      exact absurd ha hnot
    | cons c bs =>
      -- an item in front of the cursor
      have hc := hpos c
      simp only [offset_append, offset_cons] at hle
      omega

end NotAhead

end Lfs.Lib
