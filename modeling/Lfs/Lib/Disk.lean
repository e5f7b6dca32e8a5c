/-
Regular files under the names they have.

A disk says what is stored at each entry.  A program gives paths to the calls; which entry a path names
depends on the directory the program is in, so two paths may name one entry.  Writing a file piece by
piece from its start lays the pieces over what was there (`overwrite_laid`).
-/
import Mathlib.Data.List.Basic
import Mathlib.Logic.Function.Basic
import Mathlib.Data.Nat.Notation

namespace Lfs.Lib

open List Function

/-- What is stored at the entries of a disk. -/
abbrev Disk (ι α : Type*) := ι → Option (List α)

section Files

variable {α : Type*} {z : α} {old w bs : List α}

/-- The file `old` with `bs` written at `pos`; what is between its end and `pos` is filled with `z`. -/
def overwrite (z : α) (pos : ℕ) (bs old : List α) : List α :=
  old.take pos ++ List.replicate (pos - old.length) z ++ bs ++ old.drop (pos + bs.length)

/-- The bytes `bs` laid over the front of `old`. -/
def laid (bs old : List α) : List α := bs ++ old.drop bs.length

lemma laid_eq_left_iff : laid bs old = bs ↔ old.length ≤ bs.length := by
  rw [laid, append_right_eq_self, drop_eq_nil_iff]

lemma overwrite_laid : overwrite z w.length bs (laid w old) = laid (w ++ bs) old := by
  have htake : (laid w old).take w.length = w := take_left
  have hhole : w.length - (laid w old).length = 0 := by simp [laid]
  have hdrop : (laid w old).drop (w.length + bs.length) = old.drop (w.length + bs.length) := by
    rw [laid, ← drop_drop, drop_left, drop_drop]
  rw [overwrite, htake, hhole, hdrop, laid, length_append]
  simp

end Files

namespace Disk

variable {ι α : Type*} [DecidableEq ι] {d : Disk ι α} {e e' : ι}

/-- `open` with `O_CREAT` and without `O_TRUNC`. -/
def create (e : ι) (d : Disk ι α) : Disk ι α := update d e (some ((d e).getD []))

/-- `write` to a file that is open at `pos`; a hole reads as `z`. -/
def write (z : α) (e : ι) (pos : ℕ) (bs : List α) (d : Disk ι α) : Disk ι α :=
  update d e (some (overwrite z pos bs ((d e).getD [])))

def unlink (e : ι) (d : Disk ι α) : Disk ι α := update d e none

/-- `rename` of the file at `e`; an older file at `e'` is replaced. -/
def rename (e e' : ι) (d : Disk ι α) : Disk ι α :=
  if e = e' then d else update (update d e' (d e)) e none

lemma create_eq : d.create e = update d e (some (laid [] ((d e).getD []))) := rfl

lemma write_update_laid {z : α} {old w bs : List α} :
    write z e w.length bs (update d e (some (laid w old))) =
      update d e (some (laid (w ++ bs) old)) := by
  rw [write, update_self, Option.getD_some, overwrite_laid, update_idem]

end Disk

end Lfs.Lib
