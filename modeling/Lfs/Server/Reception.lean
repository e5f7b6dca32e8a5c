/-
How a file gets from the socket to the disk.

The nio thread fills the buffer of the file context from the socket (`__network_fread`), and a dio thread
writes the buffer to the file and empties it (`dio_write`), in turns, until `f_size` bytes are written.
`f_buff_offset` and `f_rwoffset` count the bytes of this turn, `f_offset` those of the file.  The nio
thread stops at a full buffer or as soon as a `read` gives less than there is room for.

The file is opened without `O_TRUNC`, so the bytes are laid over a file that was there before.  Its paths
are looked up by `entry`, which stands for the directory the server is in.
-/
import Lfs.Lib.Disk
import Lfs.Lib.Reach
import Lfs.Server.Machine
import Lfs.Server.Socket

namespace Lfs.Server

open Lfs.Lib List FileCtx

/-! ### `__network_fread` -/

/-- How a round of the loop of `__network_fread` ends. -/
inductive FreadRound where
  | more
  /-- `READ_COMPLETE`. -/
  | complete
  | again
  | eof
deriving DecidableEq

/-- One round of the loop of `__network_fread`, with a buffer of `buffSize` bytes. -/
def freadRound (buffSize : ℕ) (f : FileCtx) (input : List ReadEv) :
    FreadRound × FileCtx × List ReadEv :=
  let avail := buffSize - f.fBuffOffset
  if f.fSize ≤ f.fRwoffset ∨ buffSize ≤ f.fBuffOffset then (.complete, f, input)
  else
    match readSock (some avail) input with
    | (.bytes bs, input) =>
      if bs.length = avail then (.more, f.received bs, input) else (.complete, f.received bs, input)
    | (.eof, input) => (.eof, f, input)
    | (.again, input) => (.again, f, input)
    -- no branch of the source is for another error
    | (.error, input) => (.more, f, input)

/-! ### `dio_write` -/

/-- The result of a `write` to a file. -/
inductive DiskWrite where
  | all
  /-- At most `n` bytes are written. -/
  | upTo (n : ℕ)
  | error
deriving DecidableEq

/-- The bytes that are written, of those that were to be written. -/
def DiskWrite.bytes (bs : List Byte) : DiskWrite → Option (List Byte)
  | .all => some bs
  | .upTo n => some (bs.take n)
  | .error => none

/-- The outcomes of the calls that `dio_write` makes. -/
structure DioEnv where
  /-- The descriptor from `open`, if there is one. -/
  openFile : Option ℕ
  lseek : Bool
  write : DiskWrite
deriving DecidableEq

/-- All calls succeed, and `open` gives the descriptor `fd`. -/
def DioEnv.ok (fd : ℕ) : DioEnv where
  openFile := some fd
  lseek := true
  write := .all

/-- Who works on the file. -/
inductive Phase where
  /-- The nio thread, in `conn_fread`. -/
  | fread
  | dio
  /-- No one, after the call of `f_op_func`. -/
  | done
  | closed
deriving DecidableEq

/-- A file on its way from the socket to the disk. -/
structure Reception (ι : Type*) where
  f : FileCtx
  fd : Option ℕ
  /-- The position of `fd` in the file. -/
  pos : ℕ
  fMapName : List Byte
  fBlockMapName : List Byte
  disk : Disk ι Byte
  input : List ReadEv
  phase : Phase
  /-- The calls of `f_op_func`: whether the error number is 0, and the file at that moment. -/
  calls : List (Bool × Option (List Byte))

namespace Reception

variable {ι : Type*} [DecidableEq ι] (entry : List Byte → ι)

/-- `__open_file`, and whether it returns 0. -/
def openFile (env : DioEnv) (r : Reception ι) : Reception ι × Bool :=
  match r.fd, env.openFile with
  | some _, _ => (r, true)
  | none, none => (r, false)
  | none, some fd =>
    let r := { r with fd := some fd, pos := 0, disk := r.disk.create (entry r.fBlockMapName) }
    if r.f.fOffset ≤ 0 then (r, true)
    else if env.lseek then ({ r with pos := r.f.fOffset.toNat }, true)
    else (r, false)

/-- `close`, where the descriptor is positive. -/
def closeFile (r : Reception ι) : Reception ι := { r with fd := r.fd.filter (· = 0) }

/-- `file_unlink`; it takes `f_map_name`, not `f_block_map_name`. -/
def fileUnlink (r : Reception ι) : Reception ι := { r with disk := r.disk.unlink (entry r.fMapName) }

def dioWriteErrorCleanup (r : Reception ι) : Reception ι :=
  if 0 < r.fd.getD 0 then
    if r.f.fRwoffset < r.f.fSize then r.closeFile.fileUnlink entry else r.closeFile
  else r

/-- The call of `f_op_func`. -/
def opFunc (ok : Bool) (r : Reception ι) : Reception ι :=
  { r with phase := .done, calls := r.calls ++ [(ok, r.disk (entry r.fBlockMapName))] }

/-- The end of `dio_write` after an error. -/
def dioWriteError (r : Reception ι) : Reception ι := (r.dioWriteErrorCleanup entry).opFunc entry false

/-- `dio_write` with the file open. -/
def dioWriteOpen (env : DioEnv) (r : Reception ι) : Reception ι :=
  match env.write.bytes r.f.fBuff with
  | none => r.dioWriteError entry
  | some bs =>
    let r := { r with pos := r.pos + bs.length, disk := r.disk.write 0 (entry r.fBlockMapName) r.pos bs }
    if bs.length ≠ r.f.fBuffOffset then r.dioWriteError entry
    else if r.f.written.fOffset < r.f.written.fSize then
      { r with f := r.f.written.buffReset, phase := .fread }
    else { r with f := r.f.written }.closeFile.opFunc entry true

def dioWrite (env : DioEnv) (r : Reception ι) : Reception ι :=
  match r.openFile entry env with
  | (r, true) => r.dioWriteOpen entry env
  | (r, false) => r.dioWriteError entry

/-- The nio thread after a round of the loop of `__network_fread`. -/
def afterRound (r : Reception ι) : FreadRound × FileCtx × List ReadEv → Reception ι
  | (.more, f, input) => { r with f := f, input := input, phase := .fread }
  | (.complete, f, input) => { r with f := f, input := input, phase := .dio }
  -- the next event finds the connection in `conn_fread`
  | (.again, f, input) => { r with f := f, input := input, phase := .fread }
  | (.eof, f, input) => { r with f := f, input := input, phase := .closed }

/-- One step of the thread that works on the file. -/
def step (buffSize : ℕ) (r : Reception ι) (env : DioEnv) : Reception ι :=
  match r.phase with
  | .fread => r.afterRound (freadRound buffSize r.f r.input)
  | .dio => r.dioWrite entry env
  | .done => r
  | .closed => r

/-- The context after a request for `size` bytes of a file of `totalSize` bytes has been handled. -/
def start (job : FileJob) (size totalSize : ℤ) (fMapName fBlockMapName : List Byte)
    (disk : Disk ι Byte) (input : List ReadEv) : Reception ι where
  f := { fileCtxNew with fSize := size, fTotalSize := totalSize, job := job }
  fd := none
  pos := 0
  fMapName := fMapName
  fBlockMapName := fBlockMapName
  disk := disk
  input := input
  phase := .fread
  calls := []

/-! ### The turns -/

/-- Between two steps, with the content `content` on its way to the file `name`, where `old` was. -/
structure Receiving (buffSize : ℕ) (content old : List Byte) (disk : Disk ι Byte) (name : List Byte)
    (r : Reception ι) : Prop where
  name_eq : r.fBlockMapName = name
  calm : Calm r.input
  size_eq : r.f.fSize = content.length
  content_eq : content = r.f.file ++ (r.f.fBuff ++ payload r.input)
  offset_eq : r.f.fOffset = r.f.file.length
  buffOffset_eq : r.f.fBuffOffset = r.f.fBuff.length
  rwoffset_eq : r.f.fRwoffset = r.f.fBuff.length
  -- the file is open once something is written
  stored : r.fd = none ∧ r.f.file = [] ∧ r.disk = disk ∨ r.fd.isSome ∧ r.pos = r.f.file.length ∧
      r.disk = Function.update disk (entry name) (some (laid r.f.file old))
  calls_eq : r.calls = []
  -- a turn ends with a full buffer, or with bytes in it, or the file is empty
  turn : r.phase = .fread ∧ (r.f.fBuff = [] ∧ (payload r.input ≠ [] ∨ content = []) ∨
      r.f.fBuff.length = buffSize) ∨
    r.phase = .dio ∧ (r.f.fBuff ≠ [] ∨ content = [])

/-- The file is there, and `f_op_func` was called once, with the complete file on the disk. -/
structure Received (content old : List Byte) (disk : Disk ι Byte) (name : List Byte)
    (r : Reception ι) : Prop where
  phase_eq : r.phase = .done
  disk_eq : r.disk = Function.update disk (entry name) (some (laid content old))
  calls_eq : r.calls = [(true, some (laid content old))]

def leftOfTurn : Phase → List Byte → ℕ
  | .fread, _ :: _ => 4
  | .dio, _ :: _ => 3
  | .fread, [] => 2
  | .dio, [] => 1
  | _, _ => 0

/-- What is left to do: the bytes on the socket, and the rest of the turn. -/
def left (r : Reception ι) : ℕ := 5 * pending r.input + leftOfTurn r.phase r.f.fBuff

lemma leftOfTurn_le (phase : Phase) (buff : List Byte) : leftOfTurn phase buff ≤ 4 := by
  cases phase <;> cases buff <;> simp [leftOfTurn]

section Turns

variable {entry} {buffSize : ℕ} {content old name : List Byte} {disk : Disk ι Byte} {r : Reception ι}
  {fd : ℕ}

lemma receiving_start {job : FileJob} {totalSize : ℤ} {fMapName : List Byte} {input : List ReadEv}
    (hcalm : Calm input) :
    Receiving entry buffSize (payload input) old disk name
      (start job (payload input).length totalSize fMapName name disk input) where
  name_eq := rfl
  calm := hcalm
  size_eq := rfl
  content_eq := rfl
  offset_eq := rfl
  buffOffset_eq := rfl
  rwoffset_eq := rfl
  stored := .inl ⟨rfl, rfl, rfl⟩
  calls_eq := rfl
  turn := .inl ⟨rfl, .inl ⟨rfl, (ne_or_eq _ _)⟩⟩

lemma step_fread (hphase : r.phase = .fread) (env : DioEnv) :
    r.step entry buffSize env = r.afterRound (freadRound buffSize r.f r.input) := by
  rw [step, hphase]

section Receiving

variable (h : Receiving entry buffSize content old disk name r)
include h

lemma Receiving.received
    (hempty : r.f.fBuff = []) {bs : List Byte} {input : List ReadEv} {phase : Phase}
    (hpayload : payload r.input = bs ++ payload input) (hcalm : Calm input)
    (hturn : phase = .fread ∧ bs.length = buffSize ∨ phase = .dio ∧ bs ≠ []) :
    Receiving entry buffSize content old disk name
      { r with f := r.f.received bs, input := input, phase := phase } := by
  have hbuff : (r.f.received bs).fBuff = bs := by rw [FileCtx.received, hempty]; rfl
  refine { h with calm := hcalm, content_eq := ?_, buffOffset_eq := ?_, rwoffset_eq := ?_, turn := ?_ }
  · rw [hbuff, ← hpayload]
    have hfile : (r.f.received bs).file = r.f.file := rfl
    simpa [hfile, hempty] using h.content_eq
  · simp [FileCtx.received, h.buffOffset_eq]
  · simp [FileCtx.received, h.rwoffset_eq]
  · rw [hbuff]
    rcases hturn with ⟨hphase, hfull⟩ | ⟨hphase, hne⟩
    · exact .inl ⟨hphase, .inr hfull⟩
    · exact .inr ⟨hphase, .inl hne⟩

lemma Receiving.complete
    (hphase : r.phase = .fread) (hfull : r.f.fSize ≤ r.f.fRwoffset ∨ buffSize ≤ r.f.fBuffOffset)
    (hturn : r.f.fBuff ≠ [] ∨ content = []) :
    Receiving entry buffSize content old disk name (r.step entry buffSize (.ok fd)) ∧
      (r.step entry buffSize (.ok fd)).left < r.left := by
  rw [step_fread hphase, freadRound, if_pos hfull]
  refine ⟨{ h with turn := .inr ⟨rfl, hturn⟩ }, ?_⟩
  have hlt : leftOfTurn .dio r.f.fBuff < leftOfTurn .fread r.f.fBuff := by
    cases r.f.fBuff <;> simp [leftOfTurn]
  simp only [left, afterRound, hphase]
  omega

lemma Receiving.read (hbuff : 0 < buffSize)
    (hphase : r.phase = .fread) (hempty : r.f.fBuff = []) (hrest : payload r.input ≠ []) :
    Receiving entry buffSize content old disk name (r.step entry buffSize (.ok fd)) ∧
      (r.step entry buffSize (.ok fd)).left < r.left := by
  have hlen : 0 < content.length := by
    rw [h.content_eq]
    simp [length_pos_iff.2 hrest, hempty]
  have hmore : ¬ (r.f.fSize ≤ r.f.fRwoffset ∨ buffSize ≤ r.f.fBuffOffset) := by
    rw [h.size_eq, h.rwoffset_eq, h.buffOffset_eq, hempty, length_nil]
    omega
  have havail : buffSize - r.f.fBuffOffset = buffSize := by
    rw [h.buffOffset_eq, hempty]
    rfl
  rw [step_fread hphase, freadRound, if_neg hmore, havail]
  rcases readSock_calm hbuff.ne' h.calm with
    ⟨bs, input, hread, hne, hle, hpayload, hcalm, hlt⟩ | ⟨input, hread, hpayload, hcalm, hle, hlt⟩
  · rw [hread]
    have hleft (phase : Phase) :
        left { r with f := r.f.received bs, input := input, phase := phase } < r.left := by
      have hle := leftOfTurn_le phase (r.f.received bs).fBuff
      simp only [left]
      omega
    by_cases hall : bs.length = buffSize
    · simp only [hall, if_true, afterRound]
      exact ⟨h.received hempty hpayload hcalm (.inl ⟨rfl, hall⟩), hleft .fread⟩
    · simp only [hall, if_false, afterRound]
      exact ⟨h.received hempty hpayload hcalm (.inr ⟨rfl, hne⟩), hleft .dio⟩
  · -- nothing is there: the event has passed
    rw [hread]
    have hinput : r.input ≠ [] := by
      rintro hnil
      rw [hnil] at hrest
      exact hrest rfl
    refine ⟨{ h with
      calm := hcalm
      content_eq := by simpa [afterRound, hpayload] using h.content_eq
      turn := .inl ⟨rfl, .inl ⟨hempty, .inl (by simpa [afterRound, hpayload] using hrest)⟩⟩ }, ?_⟩
    have hlt := hlt hinput
    simp only [left, afterRound, hphase]
    omega

lemma Receiving.fread (hbuff : 0 < buffSize) (hphase : r.phase = .fread) :
    Receiving entry buffSize content old disk name (r.step entry buffSize (.ok fd)) ∧
      (r.step entry buffSize (.ok fd)).left < r.left := by
  rcases h.turn with ⟨-, ⟨hempty, hrest | hnil⟩ | hfull⟩ | ⟨hdio, -⟩
  · exact h.read hbuff hphase hempty hrest
  · refine h.complete hphase (.inl ?_) (.inr hnil)
    rw [h.size_eq, hnil]
    simp
  · refine h.complete hphase (.inr ?_) (.inl ?_)
    · rw [h.buffOffset_eq, hfull]
    · rw [← length_pos_iff, hfull]
      exact hbuff
  · rw [hdio] at hphase
    cases hphase

lemma Receiving.openFile (hold : (disk (entry name)).getD [] = old) (fd : ℕ) :
    ∃ n, r.openFile entry (.ok fd) =
      ({ r with
          fd := some n
          pos := r.f.file.length
          disk := Function.update disk (entry name) (some (laid r.f.file old)) }, true) := by
  rcases h.stored with ⟨hfd, hfile, hdisk⟩ | ⟨hfd, hpos, hdisk⟩
  · refine ⟨fd, ?_⟩
    have hoffset : r.f.fOffset ≤ 0 := by
      rw [h.offset_eq, hfile]
      rfl
    simp only [Reception.openFile, hfd, DioEnv.ok, hoffset, if_true]
    rw [hdisk, h.name_eq, hfile, Disk.create_eq, hold]
    rfl
  · obtain ⟨n, hn⟩ := Option.isSome_iff_exists.1 hfd
    refine ⟨n, ?_⟩
    simp only [Reception.openFile, hn]
    rw [← hn, ← hpos, ← hdisk]

/-- What `dio_write` makes of the file: the buffer is at its end. -/
lemma Receiving.dioWrite_eq
    (hold : (disk (entry name)).getD [] = old) (hphase : r.phase = .dio) (fd : ℕ) :
    ∃ n, r.step entry buffSize (.ok fd) = let r' : Reception ι :=
        { r with
          fd := some n
          pos := r.f.file.length + r.f.fBuff.length
          disk := Function.update disk (entry name) (some (laid (r.f.file ++ r.f.fBuff) old)) }
      if (r.f.file ++ r.f.fBuff).length < content.length then
        { r' with f := r.f.written.buffReset, phase := .fread }
      else ({ r' with f := r.f.written }.closeFile).opFunc entry true := by
  obtain ⟨n, hopen⟩ := h.openFile hold fd
  refine ⟨n, ?_⟩
  have hoffset : r.f.written.fOffset = (r.f.file ++ r.f.fBuff).length := by
    simp [written, h.offset_eq, h.buffOffset_eq]
  have hsize : r.f.written.fSize = content.length := h.size_eq
  have hstep : r.step entry buffSize (.ok fd) = r.dioWrite entry (.ok fd) := by rw [step, hphase]
  rw [hstep, dioWrite, hopen]
  simp only [dioWriteOpen, DioEnv.ok, DiskWrite.bytes, h.name_eq, h.buffOffset_eq, hoffset, hsize,
    Disk.write_update_laid, ne_eq, not_true_eq_false, if_false, Nat.cast_lt]

lemma Receiving.dio (hold : (disk (entry name)).getD [] = old) (hphase : r.phase = .dio) :
    Receiving entry buffSize content old disk name (r.step entry buffSize (.ok fd)) ∧
      (r.step entry buffSize (.ok fd)).left < r.left ∨
    Received entry content old disk name (r.step entry buffSize (.ok fd)) := by
  obtain ⟨n, hstep⟩ := h.dioWrite_eq hold hphase fd
  have hlen := congrArg List.length h.content_eq
  simp only [length_append] at hlen
  rw [hstep]
  by_cases hlt : (r.f.file ++ r.f.fBuff).length < content.length
  · -- the buffer is emptied, and there is more to come
    left
    simp only [hlt, if_true]
    rw [length_append] at hlt
    have hrest : payload r.input ≠ [] := by
      intro hnil
      rw [hnil, length_nil] at hlen
      omega
    have hne : r.f.fBuff ≠ [] := by
      rcases h.turn with ⟨hfread, -⟩ | ⟨-, hne | hnil⟩
      · rw [hphase] at hfread
        cases hfread
      · exact hne
      · rw [hnil, length_nil] at hlt
        omega
    refine ⟨{ h with
      content_eq := by simpa [written, buffReset] using h.content_eq
      offset_eq := by simp [written, buffReset, h.offset_eq, h.buffOffset_eq]
      buffOffset_eq := rfl
      rwoffset_eq := rfl
      stored := .inr ⟨rfl, by simp [written, buffReset], rfl⟩
      turn := .inl ⟨rfl, .inl ⟨rfl, .inl hrest⟩⟩ }, ?_⟩
    obtain ⟨b, bs, hbuff⟩ := exists_cons_of_ne_nil hne
    simp [left, leftOfTurn, hphase, hbuff, buffReset]
  · -- everything has arrived
    right
    simp only [hlt, if_false]
    rw [length_append] at hlt
    have hnil : payload r.input = [] := by
      rw [← length_eq_zero_iff]
      omega
    have hdone : content = r.f.file ++ r.f.fBuff := by simpa [hnil] using h.content_eq
    refine ⟨rfl, ?_, ?_⟩
    · rw [hdone]
      rfl
    · rw [hdone]
      simp [opFunc, closeFile, h.calls_eq, h.name_eq]

end Receiving

/-- **A file arrives whole.**  However the `f_size` bytes of a file come in, and however large the buffer
is, the turns of the nio thread and of the dio threads come to an end with these bytes, in order, at
`f_block_map_name`, laid over a file that was there; no other file changes.  `f_op_func` is called once,
and the file is complete at this moment. -/
lemma reception_laid (entry : List Byte → ι) (buffSize : ℕ) (hbuff : 0 < buffSize)
    (content : List Byte) (input : List ReadEv) (hcalm : Calm input) (hpayload : payload input = content)
    (job : FileJob) (totalSize : ℤ) (fMapName fBlockMapName : List Byte) (disk : Disk ι Byte)
    (fd : ℕ) :
    ∃ r, Settles (fun r => step entry buffSize r (.ok fd))
        (start job content.length totalSize fMapName fBlockMapName disk input) r ∧
      r.disk = Function.update disk (entry fBlockMapName)
        (some (laid content ((disk (entry fBlockMapName)).getD []))) ∧
      r.calls = [(true, some (laid content ((disk (entry fBlockMapName)).getD [])))] := by
  subst hpayload
  set old := (disk (entry fBlockMapName)).getD [] with hold
  have hstart : Receiving entry buffSize (payload input) old disk fBlockMapName
      (start job (payload input).length totalSize fMapName fBlockMapName disk input) :=
    receiving_start hcalm
  obtain ⟨r, hreach, hr⟩ := Reaches.of_measure (f := fun r => step entry buffSize r (.ok fd))
    (D := Received entry (payload input) old disk fBlockMapName) left (fun r hr => by
      rcases hr.turn with ⟨hphase, -⟩ | ⟨hphase, -⟩
      · exact .inl (hr.fread hbuff hphase)
      · exact hr.dio hold.symm hphase) hstart
  exact ⟨r, ⟨hreach, by simp only [step, hr.phase_eq]⟩, hr.disk_eq, hr.calls_eq⟩

/-- **Exactly the file.**  The turns come to an end with exactly the bytes that came in at
`f_block_map_name`, and with one call of `f_op_func` on this file, if and only if no file longer than
`f_size` was there before. -/
theorem reception_exact_iff (entry : List Byte → ι) (buffSize : ℕ) (hbuff : 0 < buffSize)
    (content : List Byte) (input : List ReadEv) (hcalm : Calm input) (hpayload : payload input = content)
    (job : FileJob) (totalSize : ℤ) (fMapName fBlockMapName : List Byte) (disk : Disk ι Byte)
    (fd : ℕ) :
    (∃ r, Settles (fun r => step entry buffSize r (.ok fd))
        (start job content.length totalSize fMapName fBlockMapName disk input) r ∧
      r.disk = Function.update disk (entry fBlockMapName) (some content) ∧
      r.calls = [(true, some content)]) ↔
      ∀ old ∈ disk (entry fBlockMapName), old.length ≤ content.length := by
  obtain ⟨r, hsettles, hdisk, hcalls⟩ := reception_laid entry buffSize hbuff content input hcalm hpayload
    job totalSize fMapName fBlockMapName disk fd
  have hold : (∀ old ∈ disk (entry fBlockMapName), old.length ≤ content.length) ↔
      laid content ((disk (entry fBlockMapName)).getD []) = content := by
    rw [laid_eq_left_iff]
    cases disk (entry fBlockMapName) <;> simp
  rw [hold]
  constructor
  · rintro ⟨r', hsettles', -, hcalls'⟩
    obtain rfl := hsettles.unique hsettles'
    simpa [hcalls] using hcalls'
  · intro heq
    rw [heq] at hdisk hcalls
    exact ⟨r, hsettles, hdisk, hcalls⟩

end Turns

/-- Three bytes in two pieces, through a buffer of two bytes, over a file of one byte. -/
theorem reception_exact_three : ∃ r, Settles (fun r => step id 2 r (.ok 3))
        (start .upload 3 3 [109] [47, 109] (fun _ => some [9]) [.data [1], .again, .data [2, 3]]) r ∧
      r.disk = Function.update (fun _ => some [9]) [47, 109] (some [1, 2, 3]) ∧
      r.calls = [(true, some [1, 2, 3])] :=
  (reception_exact_iff id 2 (by decide) [1, 2, 3] [.data [1], .again, .data [2, 3]] (by decide) rfl .upload 3
    [109] [47, 109] (fun _ => some [9]) 3).2 (by simp)

/-- A file of one byte is copied from a peer over a file of three bytes, of which two stay. -/
theorem reception_over_longer : (∃ r, Settles (fun r => step id 2 r (.ok 3))
        (start .asyncCopy 1 1 [109] [47, 109] (fun _ => some [9, 9, 9]) [.data [1]]) r ∧
      r.calls = [(true, some [1, 9, 9])]) ∧
    ¬ ∃ r, Settles (fun r => step id 2 r (.ok 3))
        (start .asyncCopy 1 1 [109] [47, 109] (fun _ => some [9, 9, 9]) [.data [1]]) r ∧
      r.disk [47, 109] = some [1] := by
  obtain ⟨r, hsettles, hdisk, hcalls⟩ := reception_laid id 2 (by decide) [1] [.data [1]] (by decide) rfl
    .asyncCopy 1 [109] [47, 109] (fun _ => some [9, 9, 9]) 3
  refine ⟨⟨r, hsettles, hcalls⟩, ?_⟩
  rintro ⟨r', hsettles', hdisk'⟩
  obtain rfl := hsettles.unique hsettles'
  rw [hdisk] at hdisk'
  exact absurd hdisk' (by decide)

end Reception

end Lfs.Server
