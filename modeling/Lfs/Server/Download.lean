/-
How a part of a file gets from the disk to the socket.

A dio thread fills the buffer of the file context from the file (`dio_read`), and the nio thread writes
the buffer to the socket (`__network_fwrite`), in turns.  `f_offset` is at once the position in the file,
the count of the bytes that were sent and what is compared with `f_size` at the end.

A request asks for `download_size` bytes at `file_offset`; `handle_cmd_filedownload` checks the offset
and then does not use it.
-/
import Lfs.Lib.Reach
import Lfs.Server.Machine
import Mathlib.Tactic.Ring

namespace Lfs.Server

open Lfs.Lib List FileCtx

/-- Who works on a file that is sent. -/
inductive SendPhase where
  /-- A dio thread, in `dio_read`. -/
  | dio
  /-- The nio thread, in `__network_fwrite`. -/
  | fwrite
  /-- No one: `dio_read` found nothing more to read. -/
  | done
  /-- No one: the file could not be read. -/
  | failed
  | closed
deriving DecidableEq

/-- A file on its way from the disk to the socket. -/
structure Download where
  f : FileCtx
  phase : SendPhase
  sent : List Byte
  /-- The results of the next calls of `write`; when they are used up, a call writes everything. -/
  writes : List WriteRes
deriving DecidableEq

namespace Download

/-- `dio_read`, with a buffer of `buffSize` bytes. -/
def dioRead (buffSize : ℕ) (file : List Byte) (d : Download) : Download :=
  if d.f.fSize ≤ d.f.fOffset then { d with phase := .done }
  else
    let readBytes := min (buffSize - d.f.fBuffOffset) (d.f.fSize - d.f.fOffset).toNat
    let bytes := (file.drop d.f.fOffset.toNat).take readBytes
    if bytes.length ≠ readBytes then { d with phase := .failed }
    else
      { d with
        f := { d.f with fBuff := d.f.fBuff ++ bytes, fBuffOffset := d.f.fBuffOffset + readBytes }
        phase := .fwrite }

/-- A call of `write` that takes `n` bytes. -/
def wrote (n : ℕ) (d : Download) : Download :=
  { d with f := d.f.sent n, sent := d.sent ++ (d.f.fBuff.drop d.f.fRwoffset).take n }

/-- One round of the loop of `__network_fwrite`. -/
def networkFwrite (d : Download) : Download :=
  let remain := d.f.fBuffOffset - d.f.fRwoffset
  if remain = 0 then { d with f := d.f.buffReset, phase := .dio }
  else
    match d.writes with
    | [] => d.wrote remain
    | .wrote n :: writes => { d with writes := writes }.wrote (min (max n 1) remain)
    -- the next event finds the connection in `conn_fwrite`
    | .again :: writes => { d with writes := writes }
    | .error :: writes => { d with writes := writes, phase := .closed }

/-- One step of the thread that works on the file. -/
def next (buffSize : ℕ) (file : List Byte) (d : Download) : Download :=
  match d.phase with
  | .dio => d.dioRead buffSize file
  | .fwrite => d.networkFwrite
  | _ => d

/-- The nio thread gives the file context to a dio thread. -/
def start (f : FileCtx) (writes : List WriteRes) : Download where
  f := f
  phase := .dio
  sent := []
  writes := writes

variable {buffSize size : ℕ} {file : List Byte} {d : Download}

lemma next_fwrite (hphase : d.phase = .fwrite) : d.next buffSize file = d.networkFwrite := by
  rw [next, hphase]

/-! ### The turns -/

/-- What is in the buffer and not yet sent. -/
def rest (d : Download) : List Byte := d.f.fBuff.drop d.f.fRwoffset

/-- Between two steps of sending the first `size` bytes of `file`. -/
structure Sending (size : ℕ) (file : List Byte) (d : Download) : Prop where
  size_eq : d.f.fSize = size
  no_error : ∀ w ∈ d.writes, w ≠ .error
  offset_eq : d.f.fOffset = d.sent.length
  buffOffset_eq : d.f.fBuffOffset = d.f.fBuff.length
  sent_eq : d.sent ++ d.rest = file.take (d.sent.length + d.rest.length)
  bound : d.sent.length + d.rest.length ≤ size
  turn : d.phase = .dio ∧ d.f.fBuff = [] ∧ d.f.fRwoffset = 0 ∨ d.phase = .fwrite

def leftOfTurn : SendPhase → List Byte → ℕ
  | .fwrite, [] => 3
  | .dio, _ => 2
  | .fwrite, _ :: _ => 1
  | _, _ => 0

def left (size : ℕ) (d : Download) : ℕ :=
  3 * (size - d.sent.length) + d.writes.length + leftOfTurn d.phase d.rest

lemma leftOfTurn_le (phase : SendPhase) (rest : List Byte) : leftOfTurn phase rest ≤ 3 := by
  cases phase <;> cases rest <;> simp [leftOfTurn]

lemma sending_start (job : FileJob) {writes : List WriteRes} (hwrites : ∀ w ∈ writes, w ≠ .error) :
    Sending size file (start { fileCtxNew with fSize := size, job := job } writes) where
  size_eq := rfl
  no_error := hwrites
  offset_eq := rfl
  buffOffset_eq := rfl
  sent_eq := rfl
  bound := Nat.zero_le size
  turn := .inl ⟨rfl, rfl, rfl⟩

section

variable (h : Sending size file d)
include h

lemma Sending.of_rest_nil (hrest : d.rest = []) :
    d.sent = file.take d.sent.length ∧ d.sent.length ≤ size := by
  have hsent := h.sent_eq
  have hbound := h.bound
  rw [hrest] at hsent hbound
  exact ⟨by simpa using hsent, by simpa using hbound⟩

/-- `dio_read` gets the next part of the file, of at least one byte. -/
lemma Sending.dioRead_eq (hbuff : 0 < buffSize) (hfile : size ≤ file.length)
    (hnil : d.f.fBuff = []) (hlt : d.sent.length < size) :
    ∃ n, 0 < n ∧ d.sent.length + n ≤ size ∧ ((file.drop d.sent.length).take n).length = n ∧
      d.dioRead buffSize file =
        { d with
          f := { d.f with fBuff := (file.drop d.sent.length).take n, fBuffOffset := n }
          phase := .fwrite } := by
  have hmore : ¬ (size : ℤ) ≤ d.sent.length := by omega
  have hcount : ((size : ℤ) - d.sent.length).toNat = size - d.sent.length := by omega
  have hread : ((file.drop d.sent.length).take (min buffSize (size - d.sent.length))).length =
      min buffSize (size - d.sent.length) := by
    rw [length_take, length_drop]
    omega
  refine ⟨min buffSize (size - d.sent.length), by omega, by omega, hread, ?_⟩
  simp only [dioRead, h.size_eq, h.offset_eq, h.buffOffset_eq, hnil, length_nil, Nat.sub_zero,
    if_neg hmore, hcount, Int.toNat_natCast, hread, ne_eq, not_true_eq_false, if_false,
    nil_append, Nat.zero_add]

lemma Sending.dio (hbuff : 0 < buffSize) (hfile : size ≤ file.length) (hphase : d.phase = .dio) :
    Sending size file (d.next buffSize file) ∧ (d.next buffSize file).left size < d.left size ∨
      (d.next buffSize file).phase = .done ∧ (d.next buffSize file).sent = file.take size := by
  obtain ⟨hnil, hrw⟩ : d.f.fBuff = [] ∧ d.f.fRwoffset = 0 := by
    rcases h.turn with ⟨-, hnil, hrw⟩ | hfwrite
    · exact ⟨hnil, hrw⟩
    · rw [hphase] at hfwrite
      cases hfwrite
  obtain ⟨hsent, hbound⟩ := h.of_rest_nil (by simp [rest, hnil])
  have hnext : d.next buffSize file = d.dioRead buffSize file := by rw [next, hphase]
  rw [hnext]
  rcases hbound.lt_or_eq with hlt | heq
  · left
    obtain ⟨n, hpos, hle, hlen, hread⟩ := h.dioRead_eq hbuff hfile hnil hlt
    rw [hread]
    have hrest : rest { d with
        f := { d.f with fBuff := (file.drop d.sent.length).take n, fBuffOffset := n }
        phase := .fwrite } = (file.drop d.sent.length).take n := by
      simp [rest, hrw]
    refine ⟨{ h with
      buffOffset_eq := hlen.symm
      sent_eq := ?_
      bound := by rw [hrest, hlen]; exact hle
      turn := .inr rfl }, ?_⟩
    · rw [hrest, hlen, take_add, ← hsent]
    · obtain ⟨b, bs, hcons⟩ := exists_cons_of_length_pos (hpos.trans_eq hlen.symm)
      rw [left, left, hrest, hcons, hphase]
      simp [leftOfTurn]
  · right
    have hdone : d.f.fSize ≤ d.f.fOffset := by
      rw [h.size_eq, h.offset_eq, heq]
    rw [dioRead, if_pos hdone]
    refine ⟨rfl, ?_⟩
    rw [← heq]
    exact hsent

lemma Sending.wrote (hphase : d.phase = .fwrite) {n : ℕ} (hpos : 0 < n) (hn : n ≤ d.rest.length) :
    Sending size file (d.wrote n) ∧ (d.wrote n).left size < d.left size := by
  have hrest : (d.wrote n).rest = d.rest.drop n := by
    simp [rest, Download.wrote, FileCtx.sent]
  have hsent : (d.wrote n).sent = d.sent ++ d.rest.take n := rfl
  have hlen : (d.wrote n).sent.length = d.sent.length + n := by
    rw [hsent, length_append, length_take, Nat.min_eq_left hn]
  have hlen' : (d.wrote n).rest.length = d.rest.length - n := by rw [hrest, length_drop]
  have hbound := h.bound
  have hsum : (d.wrote n).sent.length + (d.wrote n).rest.length = d.sent.length + d.rest.length := by
    omega
  refine ⟨{ h with offset_eq := ?_, sent_eq := ?_, bound := ?_, turn := .inr hphase }, ?_⟩
  · rw [hlen]
    simp [Download.wrote, FileCtx.sent, h.offset_eq]
  · rw [hsum, hsent, hrest, append_assoc, take_append_drop]
    exact h.sent_eq
  · rw [hsum]
    exact hbound
  · have hturn : leftOfTurn d.phase d.rest = 1 := by
      obtain ⟨b, bs, hcons⟩ := exists_cons_of_length_pos (hpos.trans_le hn)
      rw [hphase, hcons]
      rfl
    have hturn' := leftOfTurn_le (d.wrote n).phase (d.wrote n).rest
    have hwrites : (d.wrote n).writes.length = d.writes.length := rfl
    rw [left, left, hlen, hwrites, hturn]
    omega

lemma Sending.fwrite (hphase : d.phase = .fwrite) :
    Sending size file (d.next buffSize file) ∧ (d.next buffSize file).left size < d.left size := by
  have hremain : d.f.fBuffOffset - d.f.fRwoffset = d.rest.length := by
    rw [h.buffOffset_eq, rest, length_drop]
  have hround : d.next buffSize file = d.networkFwrite := next_fwrite hphase
  rw [networkFwrite, hremain] at hround
  by_cases hzero : d.rest.length = 0
  · have hnil := length_eq_zero_iff.1 hzero
    obtain ⟨hsent, hbound⟩ := h.of_rest_nil hnil
    rw [if_pos hzero] at hround
    rw [hround]
    refine ⟨{ h with
      buffOffset_eq := rfl
      sent_eq := ?_
      bound := ?_
      turn := .inl ⟨rfl, rfl, rfl⟩ }, ?_⟩
    · simpa [rest, buffReset] using hsent
    · simpa [rest, buffReset] using hbound
    · rw [left, left, hphase, hnil]
      simp [leftOfTurn]
  · rw [if_neg hzero] at hround
    have hpos := Nat.pos_of_ne_zero hzero
    cases hws : d.writes with
    | nil =>
      rw [hws] at hround
      rw [hround]
      exact h.wrote hphase hpos le_rfl
    | cons w ws =>
      -- what happens with the result of the call taken off
      have hrest : Sending size file { d with writes := ws } :=
        { h with no_error := fun v hv => h.no_error v (by rw [hws]; exact mem_cons_of_mem w hv) }
      have hleft : left size { d with writes := ws } < d.left size := by
        simp only [left, hws, length_cons, rest]
        omega
      rw [hws] at hround
      rw [hround]
      cases w with
      | wrote n =>
        obtain ⟨hnext, hlt⟩ := hrest.wrote hphase (n := min (max n 1) d.rest.length) (by omega)
          (Nat.min_le_right _ _)
        exact ⟨hnext, hlt.trans hleft⟩
      | again => exact ⟨hrest, hleft⟩
      | error => exact absurd rfl (h.no_error .error (by rw [hws]; exact mem_cons_self))

end

/-- **The turns send the start of the file**, whatever the socket takes at a time. -/
lemma settles_take (hbuff : 0 < buffSize) (hfile : size ≤ file.length) (h : Sending size file d) :
    ∃ t, Settles (next buffSize file) d t ∧ t.phase = .done ∧ t.sent = file.take size := by
  obtain ⟨t, hreach, hdone, hsent⟩ := Reaches.of_measure (f := next buffSize file)
    (D := fun t => t.phase = .done ∧ t.sent = file.take size) (left size) (fun d hd => by
      rcases hd.turn with ⟨hphase, -⟩ | hphase
      · exact hd.dio hbuff hfile hphase
      · exact .inl (hd.fwrite hphase)) h
  exact ⟨t, ⟨hreach, by rw [next, hdone]⟩, hdone, hsent⟩

/-- Without a buffer the turns go on for ever, and nothing is sent. -/
lemma not_settles_zero {job : FileJob} {writes : List WriteRes} (hsize : 0 < size) {t : Download} :
    ¬ Settles (next 0 file)
      (start { fileCtxNew with fSize := size, job := job } writes) t := by
  set s := start { fileCtxNew with fSize := size, job := job } writes with hs
  have hdio : s.next 0 file = { s with phase := .fwrite } := by
    simp [hs, next, start, dioRead, fileCtxNew, hsize.ne']
  have hfwrite : next 0 file { s with phase := .fwrite } = s := by
    simp [hs, next, start, networkFwrite, fileCtxNew, buffReset]
  refine not_settles_of_inv (I := fun t => t = s ∨ t = { s with phase := .fwrite }) ?_ (.inl rfl)
  rintro t (rfl | rfl)
  · refine ⟨.inr hdio, fun hfix => ?_⟩
    rw [hdio] at hfix
    cases congrArg Download.phase hfix
  · refine ⟨.inl hfwrite, fun hfix => ?_⟩
    rw [hfwrite] at hfix
    cases congrArg Download.phase hfix

end Download

namespace Conn

/-- `file_offset` of a `FILE_DOWNLOAD` request. -/
def fileOffset (c : Conn) : ℤ := buff2long (c.field 0 8)

/-- `download_size` of a `FILE_DOWNLOAD` request. -/
def downloadSize (c : Conn) : ℤ := buff2long (c.field 8 8)

/-- A request that `handle_cmd_filedownload` accepts, and its context. -/
lemma of_filedownload_accepted {env : StepEnv} {c c' : Conn}
    (haccepted : c.handleCmdFiledownload env = (c', .success)) :
    0 ≤ c.fileOffset ∧ 0 < c.downloadSize ∧
      c'.fctx = some { fileCtxNew with fSize := c.downloadSize, job := .download } := by
  rw [handleCmdFiledownload] at haccepted
  change (if env.fileCtxNew = false then _ else if c.fileOffset < 0 then _ else if c.downloadSize ≤ 0
    then _ else if c.fileOffset ≠ 0 ∧ c.fileOffset ≤ c.downloadSize then _ else _) = _ at haccepted
  split_ifs at haccepted with hmemory hoffset hsize hlarge
  · cases congrArg Prod.snd haccepted
  · cases congrArg Prod.snd haccepted
  · cases congrArg Prod.snd haccepted
  · cases congrArg Prod.snd haccepted
  · obtain ⟨hc', -⟩ := Prod.mk.inj haccepted
    refine ⟨not_lt.1 hoffset, not_le.1 hsize, ?_⟩
    rw [← hc']
    rfl

end Conn

/-- **A ranged download.**  The turns come to an end with exactly the bytes sent that were asked for if
and only if the buffer has room for a byte and the file has the same bytes at its start, as it has where
the offset is 0. -/
theorem ranged_download_iff (buffSize : ℕ) (file : List Byte) (env : StepEnv) (c c' : Conn)
    (haccepted : c.handleCmdFiledownload env = (c', .success))
    (hrange : c.fileOffset + c.downloadSize ≤ file.length) (writes : List WriteRes)
    (hwrites : ∀ w ∈ writes, w ≠ .error) :
    ∃ f, c'.fctx = some f ∧ ((∃ d, Settles (Download.next buffSize file) (.start f writes) d ∧
          d.sent = (file.drop c.fileOffset.toNat).take c.downloadSize.toNat) ↔
        0 < buffSize ∧ file.take c.downloadSize.toNat =
            (file.drop c.fileOffset.toNat).take c.downloadSize.toNat) := by
  obtain ⟨hoffset, hsize, hfctx⟩ := Conn.of_filedownload_accepted haccepted
  obtain ⟨size, hsize'⟩ := Int.eq_ofNat_of_zero_le hsize.le
  rw [hsize'] at hrange hfctx hsize ⊢
  rw [Int.toNat_natCast]
  refine ⟨_, hfctx, ?_⟩
  rcases Nat.eq_zero_or_pos buffSize with rfl | hbuff
  · refine iff_of_false ?_ fun h => lt_irrefl 0 h.1
    rintro ⟨d, hsettles, -⟩
    exact Download.not_settles_zero (by exact_mod_cast hsize) hsettles
  · have hfile : size ≤ file.length := by omega
    obtain ⟨d, hsettles, -, hsent⟩ := Download.settles_take hbuff hfile
      (Download.sending_start .download hwrites)
    rw [and_iff_right hbuff]
    constructor
    · rintro ⟨d', hsettles', hsent'⟩
      rw [← hsent, hsettles.unique hsettles']
      exact hsent'
    · intro hsame
      exact ⟨d, hsettles, hsent.trans hsame⟩

/-- A `FILE_DOWNLOAD` request in the read buffer. -/
def rangeRequest (offset size : Byte) : Conn :=
  { Conn.connNew 1024 [] with
    rbuff := List.replicate 23 0 ++ offset :: (List.replicate 7 0 ++ [size])
    rcurr := headerSize }

/-- The first two bytes of a file of five, through a buffer of one byte. -/
theorem ranged_download_two :
    ∃ f, ((rangeRequest 0 2).handleCmdFiledownload (.ok .nio)).1.fctx = some f ∧
      ∃ d, Settles (Download.next 1 [1, 2, 3, 4, 5]) (.start f [.again, .wrote 1, .again]) d ∧
        d.sent = [1, 2] := by
  have hoffset : (rangeRequest 0 2).fileOffset = 0 := by decide +kernel
  have hsize : (rangeRequest 0 2).downloadSize = 2 := by decide +kernel
  obtain ⟨f, hf, hiff⟩ := ranged_download_iff 1 [1, 2, 3, 4, 5] (.ok .nio) (rangeRequest 0 2)
    ((rangeRequest 0 2).handleCmdFiledownload (.ok .nio)).1 (by decide +kernel) (by decide +kernel)
    [.again, .wrote 1, .again] (by decide)
  rw [hoffset, hsize] at hiff
  exact ⟨f, hf, hiff.2 ⟨one_pos, rfl⟩⟩

/-- The last two bytes of a file of five are asked for, and the first two are sent. -/
theorem ranged_download_sends_start :
    ((rangeRequest 3 2).handleCmdFiledownload (.ok .nio)).2 = .success ∧
    (rangeRequest 3 2).fileOffset = 3 ∧ (rangeRequest 3 2).downloadSize = 2 ∧
    ∃ f d, ((rangeRequest 3 2).handleCmdFiledownload (.ok .nio)).1.fctx = some f ∧
      Settles (Download.next fileBuffSize [1, 2, 3, 4, 5]) (.start f []) d ∧
      d.sent = [1, 2] ∧ d.sent ≠ ([1, 2, 3, 4, 5].drop 3).take 2 := by
  refine ⟨by decide +kernel, by decide +kernel, by decide +kernel,
    { fileCtxNew with fSize := 2, job := .download },
    (Download.next fileBuffSize [1, 2, 3, 4, 5])^[4]
      (.start { fileCtxNew with fSize := 2, job := .download } []),
    by decide +kernel, ⟨⟨4, rfl⟩, by decide +kernel⟩, by decide +kernel, by decide +kernel⟩

end Lfs.Server
