/-
A single mark for the progress of a replica.

Items have keys in a linear order.  A replica that has a mark promises that it stores every
acknowledged item whose key is at most the mark.  The two rules say exactly when an
acknowledgement elsewhere and an item that raises the mark keep the promise.
-/
import Mathlib.Order.MinMax
import Mathlib.Data.Set.Insert

namespace Lfs.Lib

variable {α κ : Type*} [LinearOrder κ] (key : α → κ)

/-- Every acknowledged item whose key is at most the mark is stored. -/
def UpTo (acked stored : Set α) (mark : κ) : Prop := ∀ a ∈ acked, key a ≤ mark → a ∈ stored

variable {key} {acked stored stored' : Set α} {mark mark' : κ} {a : α}

lemma UpTo.mono (h : UpTo key acked stored mark) (hstored : stored ⊆ stored') (hmark : mark' ≤ mark) :
    UpTo key acked stored' mark' :=
  fun b hb hle => hstored (h b hb (hle.trans hmark))

lemma upTo_insert_acked : UpTo key (insert a acked) stored mark ↔
    (key a ≤ mark → a ∈ stored) ∧ UpTo key acked stored mark := by
  constructor
  · intro h
    exact ⟨h a (Set.mem_insert a acked), fun b hb => h b (Set.mem_insert_of_mem a hb)⟩
  · rintro ⟨ha, h⟩ b (rfl | hb)
    · exact ha
    · exact h b hb

lemma UpTo.upTo_insert_stored_iff (h : UpTo key acked stored mark) :
    UpTo key acked (insert a stored) (max mark (key a)) ↔
      ∀ b ∈ acked, key b ≤ key a → b = a ∨ b ∈ stored := by
  constructor
  · intro hmax b hb hle
    exact hmax b hb (hle.trans (le_max_right mark (key a)))
  · intro hall b hb hle
    rcases le_max_iff.1 hle with hmark | hkey
    · exact Set.mem_insert_of_mem a (h b hb hmark)
    · exact hall b hb hkey

end Lfs.Lib
