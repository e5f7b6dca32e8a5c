/-
Cutting a list at a separator, and lists made of lines.

`cut c l` splits `l` at the first occurrence of `c`, as `strchr` and `memchr` do.  A
line is a list that ends in the terminator `c` and holds it nowhere else, and
`linesOf c l` are the complete lines at the front of `l`.  The lemmas say that a list
made of lines is cut into these lines one by one, however it is handed out in pieces.
`pieces n l` cuts a list into pieces of `n` elements instead.
-/
import Mathlib.Data.List.Basic
import Mathlib.Tactic.Common

namespace Lfs.Lib

open List Option

variable {α : Type*} {c : α} {a b d l t u : List α} {ls : List (List α)}

/-- A list that ends in `c` and holds it nowhere else. -/
def IsLine (c : α) (l : List α) : Prop := ∃ a, c ∉ a ∧ l = a ++ [c]

lemma IsLine.mem (h : IsLine c l) : c ∈ l := by
  obtain ⟨a, -, rfl⟩ := h
  simp

lemma IsLine.ne_nil (h : IsLine c l) : l ≠ [] := ne_nil_of_mem h.mem

lemma lines_eq_nil (hls : ∀ l ∈ ls, IsLine c l) (h : c ∉ ls.flatten) : ls = [] := by
  cases ls with
  | nil => rfl
  | cons l ls => exact absurd (by simp [(hls l (by simp)).mem]) h

/-- The pieces of `n` elements, the last one possibly shorter, that a list is made of. -/
def pieces (n : ℕ) (l : List α) : List (List α) :=
  if n = 0 ∨ l = [] then [] else l.take n :: pieces n (l.drop n)
termination_by l.length
decreasing_by
  rename_i h
  simp only [not_or] at h
  have := length_pos_iff.2 h.2
  rw [length_drop]
  omega

@[simp] lemma pieces_nil {n : ℕ} : pieces n ([] : List α) = [] := by
  rw [pieces, if_pos (Or.inr rfl)]

lemma pieces_of_ne_nil {n : ℕ} (hn : n ≠ 0) (hl : l ≠ []) :
    pieces n l = l.take n :: pieces n (l.drop n) := by
  rw [pieces, if_neg (not_or.2 ⟨hn, hl⟩)]

lemma pieces_flatten {n : ℕ} (hn : n ≠ 0) (l : List α) : (pieces n l).flatten = l := by
  induction l using pieces.induct n with
  | case1 l h =>
    rw [pieces, if_pos h, h.resolve_left hn]
    rfl
  | case2 l h ih => rw [pieces, if_neg h, flatten_cons, ih, take_append_drop]

lemma ne_nil_of_mem_pieces {n : ℕ} (ha : a ∈ pieces n l) : a ≠ [] := by
  induction l using pieces.induct n with
  | case1 l h => rw [pieces, if_pos h] at ha; exact absurd ha (by simp)
  | case2 l h ih =>
    rw [pieces, if_neg h, mem_cons] at ha
    rcases ha with rfl | ha
    · simpa [not_or, and_comm] using h
    · exact ih ha

variable [DecidableEq α]

/-- The parts of a list before and after the first occurrence of `c`. -/
def cut (c : α) : List α → Option (List α × List α)
  | [] => none
  | x :: l => if x = c then some ([], l) else (cut c l).map fun p => (x :: p.1, p.2)

lemma cut_append (h : c ∉ a) : cut c (a ++ c :: b) = some (a, b) := by
  induction a with
  | nil => simp [cut]
  | cons x a ih =>
    simp only [mem_cons, not_or] at h
    simp [cut, ih h.2, Ne.symm h.1]

/-- A list that starts with `a`, the separator and `t` has one splitting at the first separator. -/
lemma append_cons_prefixOf_iff (ha : c ∉ a) (hb : c ∉ b) :
    a ++ c :: t <+: b ++ c :: u ↔ a = b ∧ t <+: u := by
  constructor
  · rintro ⟨d, hd⟩
    have hcut : cut c (a ++ c :: (t ++ d)) = cut c (b ++ c :: u) := by
      rw [← hd, append_assoc, cons_append]
    rw [cut_append ha, cut_append hb, some_inj, Prod.mk.injEq] at hcut
    exact ⟨hcut.1, d, hcut.2⟩
  · rintro ⟨rfl, d, rfl⟩
    exact ⟨d, by rw [append_assoc, cons_append]⟩

lemma cut_eq_none : cut c l = none ↔ c ∉ l := by
  induction l with
  | nil => simp [cut]
  | cons x l ih =>
    by_cases hx : x = c
    · simp [cut, hx]
    · simp [cut, hx, ih, Ne.symm hx]

lemma cut_eq_some : cut c l = some (a, b) ↔ c ∉ a ∧ l = a ++ c :: b := by
  constructor
  · intro h
    induction l generalizing a with
    | nil => simp [cut] at h
    | cons x l ih =>
      by_cases hx : x = c
      · simp only [cut, hx, if_true, Option.some.injEq, Prod.mk.injEq] at h
        obtain ⟨rfl, rfl⟩ := h
        simp [hx]
      · simp only [cut, hx, if_false, map_eq_some_iff, Prod.mk.injEq] at h
        obtain ⟨⟨a', b'⟩, hcut, rfl, rfl⟩ := h
        obtain ⟨ha', rfl⟩ := ih hcut
        exact ⟨by simp [ha', Ne.symm hx], rfl⟩
  · rintro ⟨ha, rfl⟩
    exact cut_append ha

lemma exists_cut (h : c ∈ l) : ∃ a b, cut c l = some (a, b) ∧ c ∉ a ∧ l = a ++ c :: b := by
  obtain ⟨⟨a, b⟩, hcut⟩ : ∃ p, cut c l = some p :=
    ne_none_iff_exists'.1 fun hnone => cut_eq_none.1 hnone h
  exact ⟨a, b, hcut, cut_eq_some.1 hcut⟩

/-- The complete lines at the front of a list. -/
def linesOf (c : α) : List α → List (List α)
  | [] => []
  | x :: l =>
    if x = c then [c] :: linesOf c l
    else match linesOf c l with
      | [] => []
      | h :: t => (x :: h) :: t

lemma linesOf_of_not_mem (h : c ∉ l) : linesOf c l = [] := by
  induction l with
  | nil => rfl
  | cons x l ih =>
    simp only [mem_cons, not_or] at h
    simp [linesOf, ih h.2, Ne.symm h.1]

lemma linesOf_append_of_isLine (hl : IsLine c l) : linesOf c (l ++ u) = l :: linesOf c u := by
  obtain ⟨a, ha, rfl⟩ := hl
  induction a with
  | nil => simp [linesOf]
  | cons x a ih =>
    simp only [mem_cons, not_or] at ha
    simp only [cons_append, linesOf, if_neg (Ne.symm ha.1)]
    rw [ih ha.2]

lemma linesOf_flatten_append (hls : ∀ l ∈ ls, IsLine c l) :
    linesOf c (ls.flatten ++ u) = ls ++ linesOf c u := by
  induction ls with
  | nil => simp
  | cons l ls ih =>
    simp only [flatten_cons, append_assoc]
    rw [linesOf_append_of_isLine (hls l (by simp)), ih fun l hl => hls l (by simp [hl])]
    rfl

lemma linesOf_flatten (hls : ∀ l ∈ ls, IsLine c l) : linesOf c ls.flatten = ls := by
  simpa [linesOf] using linesOf_flatten_append (u := []) hls

end Lfs.Lib
