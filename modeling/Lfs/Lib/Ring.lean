/-
Doubly linked lists that close at a head.

The head is a cell of the ring that carries no element.  As in `Chain`, the position `none` is the head
and the position `some a` is the cell `a`; here the pointers behind the last cell and before the first
one lead back to the head.  So a ring through the elements `L` is a chain through `L` forwards, and one
through `L` in reverse order backwards.  A cell is put in behind a position, and taken out, by
changing four and two pointers.
-/
import Lfs.Lib.Chain
import Mathlib.Data.List.Induction
import Mathlib.Data.List.Nodup
import Mathlib.Logic.Function.Basic

namespace Lfs.Lib

open List Option Function

/-- The pointers `next` and `prev` of the head and of the cells. -/
structure Links (α : Type*) where
  next : Option α → Option α
  prev : Option α → Option α

namespace Links

variable {α : Type*}

/-- An empty ring: the pointers of the head lead to the head. -/
def empty : Links α := ⟨fun _ => none, fun _ => none⟩

/-- The cell `a` is linked in behind the position `x`. -/
def insert [DecidableEq α] (a : α) (x : Option α) (l : Links α) : Links α :=
  let n := l.next x
  { next := update (update l.next (some a) n) x (some a)
    prev := update (update l.prev n (some a)) (some a) x }

/-- The neighbours of the cell `a` are linked to each other. -/
def remove [DecidableEq α] (a : α) (l : Links α) : Links α :=
  let p := l.prev (some a)
  let n := l.next (some a)
  { next := update l.next p n
    prev := update l.prev n p }

/-- The first cell from the position `x` backwards for which `p` holds, or the head; at most `n` cells
are looked at. -/
def findBack (p : α → Bool) (l : Links α) : ℕ → Option α → Option α
  | _, none => none
  | 0, some _ => none
  | n + 1, some a => if p a then some a else l.findBack p n (l.prev (some a))

/-- The cells from the position `x` on, at most `n` of them. -/
def toList (l : Links α) : ℕ → Option α → List α
  | 0, _ => []
  | _ + 1, none => []
  | n + 1, some a => a :: l.toList n (l.next (some a))

/-- The pointers form a ring through the elements `L`. -/
structure Ring (l : Links α) (L : List α) : Prop where
  fwd : Chain l.next L
  bwd : Chain l.prev L.reverse
  nodup : L.Nodup

namespace Ring

variable {l : Links α} {L P S : List α} {a : α}

lemma empty : Ring (Links.empty : Links α) [] := ⟨.nil rfl, .nil rfl, nodup_nil⟩

lemma next_head (h : l.Ring L) : l.next none = L.head? := h.fwd.head

lemma next_getLast? (h : l.Ring (P ++ S)) : l.next P.getLast? = S.head? := h.fwd P S rfl

lemma prev_head? (h : l.Ring (P ++ S)) : l.prev S.head? = P.getLast? := by
  have hbwd := h.bwd S.reverse P.reverse reverse_append
  rwa [getLast?_reverse, head?_reverse] at hbwd

lemma findBack_getLast? {p : α → Bool} {n : ℕ} (h : l.Ring (P ++ S)) (hn : P.length ≤ n) :
    l.findBack p n P.getLast? = P.reverse.find? p := by
  induction n generalizing P S with
  | zero =>
    obtain rfl := eq_nil_of_length_eq_zero (Nat.le_zero.1 hn)
    rfl
  | succ n ih =>
    rcases eq_nil_or_concat P with rfl | ⟨P, b, rfl⟩
    · rfl
    · rw [concat_eq_append] at h hn ⊢
      rw [append_assoc, singleton_append] at h
      have hprev : l.prev (some b) = P.getLast? := h.prev_head?
      have hlen : P.length ≤ n := by
        rw [length_append, length_singleton] at hn
        omega
      rw [getLast?_append, getLast?_singleton, some_or, findBack, reverse_append,
        reverse_singleton, singleton_append, find?_cons, hprev, ih h hlen]
      cases p b with
      | true | false => rfl

/-- **The search through the ring** ends behind the cells for which `p` does not hold. -/
lemma exists_findBack {p : α → Bool} {n : ℕ} (h : l.Ring L) (hn : L.length ≤ n) :
    ∃ P S, L = P ++ S ∧ l.findBack p n (l.prev none) = P.getLast? ∧
      (∀ a ∈ P.getLast?, p a = true) ∧ ∀ a ∈ S, p a = false := by
  have happend : l.Ring (L ++ []) := (append_nil L).symm ▸ h
  have hlast : l.prev none = L.getLast? := happend.prev_head?
  rw [hlast, happend.findBack_getLast? hn]
  clear happend hlast h hn
  induction L using List.reverseRecOn with
  | nil => exact ⟨[], [], rfl, rfl, by simp, by simp⟩
  | append_singleton L b ih =>
    rw [reverse_append, reverse_singleton, singleton_append, find?_cons]
    cases hb : p b with
    | true =>
      refine ⟨L ++ [b], [], (append_nil _).symm, ?_, ?_, by simp⟩
      · rw [getLast?_append, getLast?_singleton, some_or]
      · simpa using hb
    | false =>
      obtain ⟨P, S, hL, hfind, hP, hS⟩ := ih
      refine ⟨P, S ++ [b], by rw [hL, append_assoc], hfind, hP, fun a ha => ?_⟩
      rcases mem_append.1 ha with ha | ha
      · exact hS a ha
      · exact mem_singleton.1 ha ▸ hb

lemma toList_getLast? {n : ℕ} (h : l.Ring (P ++ S)) (hn : S.length ≤ n) :
    l.toList n (l.next P.getLast?) = S := by
  induction S generalizing P n with
  | nil =>
    rw [h.next_getLast?]
    cases n with
    | zero | succ n => rfl
  | cons a S ih =>
    obtain ⟨n, rfl⟩ := Nat.exists_eq_succ_of_ne_zero (Nat.ne_of_gt (Nat.lt_of_lt_of_le (by simp) hn))
    have happend : l.Ring ((P ++ [a]) ++ S) := append_cons P a S ▸ h
    have hrest := ih happend (Nat.le_of_succ_le_succ hn)
    rw [getLast?_append, getLast?_singleton, some_or] at hrest
    rw [h.next_getLast?, head?_cons, toList, hrest]

lemma toList_eq {n : ℕ} (h : l.Ring L) (hn : L.length ≤ n) : l.toList n (l.next none) = L :=
  toList_getLast? (P := []) h hn

section Update

variable [DecidableEq α]

/-- **A cell is put in** behind the position `P`. -/
lemma insert (h : l.Ring (P ++ S)) (ha : a ∉ P ++ S) :
    (l.insert a P.getLast?).Ring (P ++ a :: S) := by
  have hP : P.getLast? ≠ some a := fun heq =>
    ha (mem_append_left S (mem_of_getLast? heq))
  refine ⟨?_, ?_, ?_⟩
  · have hnext : (l.insert a P.getLast?).next = fun x =>
        if x = some a then l.next P.getLast? else if x = P.getLast? then some a else l.next x := by
      funext x
      simp only [Links.insert, update_apply]
      by_cases hx : x = P.getLast?
      · subst hx
        rw [if_pos rfl, if_neg hP, if_pos rfl]
      · rw [if_neg hx, if_neg hx]
    rw [hnext]
    exact h.fwd.insert h.nodup ha
  · have hprev : (l.insert a P.getLast?).prev = fun x =>
        if x = some a then l.prev S.reverse.getLast?
        else if x = S.reverse.getLast? then some a else l.prev x := by
      funext x
      simp only [Links.insert, update_apply, h.next_getLast?, getLast?_reverse, h.prev_head?]
    have hbwd : Chain l.prev (S.reverse ++ P.reverse) := reverse_append ▸ h.bwd
    have hnodup : (S.reverse ++ P.reverse).Nodup :=
      reverse_append ▸ nodup_reverse.2 h.nodup
    have ha' : a ∉ S.reverse ++ P.reverse := by
      rw [← reverse_append, mem_reverse]
      exact ha
    have hrev : (P ++ a :: S).reverse = S.reverse ++ a :: P.reverse := by simp
    rw [hprev, hrev]
    exact hbwd.insert hnodup ha'
  · exact (perm_middle.nodup_iff).2 (nodup_cons.2 ⟨ha, h.nodup⟩)

lemma remove (h : l.Ring (P ++ a :: S)) : (l.remove a).Ring (P ++ S) := by
  have hprevious : l.prev (some a) = P.getLast? := h.prev_head?
  have hfollowing : l.next (some a) = S.head? := h.fwd.cell
  refine ⟨?_, ?_, ?_⟩
  · have hnext : (l.remove a).next = fun x =>
        if x = P.getLast? then l.next (some a) else l.next x := by
      funext x
      simp only [Links.remove, update_apply, hprevious]
    rw [hnext]
    exact h.fwd.remove h.nodup
  · have hrev : (P ++ a :: S).reverse = S.reverse ++ a :: P.reverse := by simp
    have hbwd : Chain l.prev (S.reverse ++ a :: P.reverse) := hrev ▸ h.bwd
    have hnodup : (S.reverse ++ a :: P.reverse).Nodup := hrev ▸ nodup_reverse.2 h.nodup
    have hprev : (l.remove a).prev = fun x =>
        if x = S.reverse.getLast? then l.prev (some a) else l.prev x := by
      funext x
      simp only [Links.remove, update_apply, hfollowing, getLast?_reverse]
    rw [hprev, reverse_append]
    exact hbwd.remove hnodup
  · exact h.nodup.sublist ((sublist_cons_self a S).append_left P)

end Update

end Ring

end Links

end Lfs.Lib
