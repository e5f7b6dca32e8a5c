/-
What a socket delivers.

The input of a connection is a list of events: pieces of data, and moments at which nothing is there.
`payload` is the data without the way it comes in.  On a socket that nobody closes, a call of `read`
takes bytes from the front of the payload or finds nothing for now (`readSock_calm`), so whatever is
proved from this holds for every way the bytes arrive.

Where the outcome of every single call matters, it is a `CallRes`: `read` and `write` return a positive
number, or 0, or they fail with some `errno`.
-/
import Lfs.Server.Conn

namespace Lfs.Server

open List

def payload : List ReadEv → List Byte
  | [] => []
  | .data bs :: input => bs ++ payload input
  | _ :: input => payload input

/-- The client does not close the connection, and no call of `read` fails. -/
def Calm (input : List ReadEv) : Prop := ∀ ev ∈ input, ev ≠ .eof ∧ ev ≠ .error

instance (input : List ReadEv) : Decidable (Calm input) :=
  inferInstanceAs (Decidable (∀ ev ∈ input, _))

/-- How much there is left to happen on a socket. -/
def pending (input : List ReadEv) : ℕ := (payload input).length + input.length

/-- Something has happened on the socket, unless there was nothing to happen. -/
def Advances (input input' : List ReadEv) : Prop :=
  pending input' ≤ pending input ∧ (input ≠ [] → pending input' < pending input)

lemma Calm.tail {ev : ReadEv} {input : List ReadEv} (h : Calm (ev :: input)) : Calm input :=
  fun ev' hev => h ev' (mem_cons_of_mem ev hev)

/-- **A call of `read`** on a calm socket takes some bytes, or there are none for now. -/
lemma readSock_calm {n : ℕ} (hn : n ≠ 0) {input : List ReadEv} (h : Calm input) :
    (∃ bs input', readSock (some n) input = (.bytes bs, input') ∧ bs ≠ [] ∧ bs.length ≤ n ∧
      payload input = bs ++ payload input' ∧ Calm input' ∧ pending input' < pending input) ∨
    (∃ input', readSock (some n) input = (.again, input') ∧ payload input' = payload input ∧
      Calm input' ∧ Advances input input') := by
  have hsock : readSock (some n) input = readAvail (some n) input := if_neg (by simpa using hn)
  rw [hsock]
  clear hsock
  induction input with
  | nil => exact .inr ⟨[], rfl, rfl, h, le_rfl, fun hnil => absurd rfl hnil⟩
  | cons ev input ih =>
    have hev := h ev mem_cons_self
    cases ev with
    | data bs =>
      cases bs with
      | nil =>
        -- an empty piece is passed over
        have hpending : pending (.data [] :: input) = pending input + 1 := by
          simp [pending, payload, add_assoc]
        rcases ih h.tail with ⟨bs, input', hread, hne, hle, hpayload, hcalm, hlt⟩ |
          ⟨input', hread, hpayload, hcalm, hlt⟩
        · exact .inl ⟨bs, input', hread, hne, hle, hpayload, hcalm, by omega⟩
        · have hle := hlt.1
          exact .inr ⟨input', hread, hpayload, hcalm, by omega, fun _ => by omega⟩
      | cons b bs =>
        left
        refine ⟨(b :: bs).take n, .data ((b :: bs).drop n) :: input, rfl, ?_, ?_, ?_, ?_, ?_⟩
        · simp [hn]
        · exact length_take_le ..
        · rw [payload, payload, ← append_assoc, take_append_drop]
        · intro ev hev
          rcases mem_cons.1 hev with rfl | hev
          · simp
          · exact h.tail ev hev
        · simp only [pending, payload, length_append, length_drop, length_cons]
          omega
    | again =>
      have hpending : pending (.again :: input) = pending input + 1 := by
        simp [pending, payload, add_assoc]
      exact .inr ⟨input, rfl, rfl, h.tail, by omega, fun _ => by omega⟩
    | eof => exact absurd rfl hev.1
    | error => exact absurd rfl hev.2

lemma ne_nil_of_readSock {count : Option ℕ} {bs : List Byte} {input input' : List ReadEv}
    (h : readSock count input = (.bytes bs, input')) : bs ≠ [] := by
  unfold readSock at h
  split_ifs at h with hcount
  · cases h
  · induction input with
    | nil => cases h
    | cons ev input ih =>
      cases ev with
      | data bytes =>
        cases bytes with
        | nil => exact ih h
        | cons b bytes =>
          cases count with
          | none =>
            obtain ⟨hbs, -⟩ := Prod.mk.inj h
            rw [← ReadRes.bytes.inj hbs]
            exact cons_ne_nil b bytes
          | some n =>
            obtain ⟨hbs, -⟩ := Prod.mk.inj h
            rw [← ReadRes.bytes.inj hbs]
            have hn : n ≠ 0 := fun hzero => hcount (congrArg some hzero)
            simp [hn]
      | again | eof | error => cases h

/-! ### The outcomes of single calls -/

def eintr : ℕ := 4

def eagain : ℕ := 11

def ewouldblock : ℕ := 11

/-- How a call of `read` or `write` ends.  It takes some bytes, at least one, or it returns 0, or it
fails. -/
inductive CallRes where
  | bytes (b : Byte) (bs : List Byte)
  | zero
  | fail (errno : ℕ)
deriving DecidableEq

namespace CallRes

/-- What a call of `read` finds on the socket; all functions that read it take `EAGAIN` and `EWOULDBLOCK`
for a moment at which nothing is there. -/
def toReadEv : CallRes → ReadEv
  | bytes b bs => .data (b :: bs)
  | zero => .eof
  | fail errno => if errno = eagain ∨ errno = ewouldblock then .again else .error

/-- What becomes of a call of `write`; all functions that write to the socket wait for it at `EINTR` and
`EWOULDBLOCK`. -/
def toWriteRes : CallRes → WriteRes
  | bytes _ bs => .wrote (bs.length + 1)
  | zero => .error
  | fail errno => if errno = eintr ∨ errno = ewouldblock then .again else .error

end CallRes

end Lfs.Server
