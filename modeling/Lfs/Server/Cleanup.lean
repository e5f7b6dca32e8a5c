/-
What a failed upload leaves behind.

If `dio_write` fails, `dio_write_error_cleanup` closes the file and removes it, and the callback sends an
error.  But the file is removed by `f_map_name`, which is its path below the mount point, so it depends
on the directory the server is in whether this is the file; and it is removed only if `f_rwoffset`, which
counts the bytes of this turn, is less than the size of the file, so a file that came in one turn stays.
If the `rename` fails at the end, nothing is removed.
-/
import Lfs.Lib.Run
import Lfs.Server.Reception

namespace Lfs.Server

open Lfs.Lib Option Function

/-- The outcomes of the calls that a dio thread makes for an upload. -/
structure UploadEnv extends DioEnv where
  rename : Bool
  binlogWrite : Bool
deriving DecidableEq

/-- The path that `__blockmapname_pack` makes for a file below a mount point. -/
def blockMapName (mountPath fMapName : List Byte) : List Byte :=
  mountPath ++ fileIdSeperator :: fMapName

structure Upload (ι : Type*) where
  r : Reception ι
  /-- The files, by `f_map_name`, of the records given to `binlog_write`. -/
  binlog : List (List Byte)
  reply : Option RespStatus

namespace Upload

variable {ι : Type*} [DecidableEq ι] (entry : List Byte → ι)

/-- `file_upload_done_callback`; `finalName` is the `f_map_name` that `file_metedata_pack` makes with the
time and the checksum of the file. -/
def fileUploadDoneCallback (mountPath finalName : List Byte) (env : UploadEnv) (ok : Bool)
    (u : Upload ι) : Upload ι :=
  if ok = false then { u with reply := some .errorDioWriteDisk }
  else if u.r.f.fTotalSize ≤ u.r.f.fTotalOffset then
    let oldBlockmn := u.r.fBlockMapName
    let newBlockmn := blockMapName mountPath finalName
    let r := { u.r with fMapName := finalName, fBlockMapName := newBlockmn }
    if env.rename = false then { u with r := r, reply := some .errorFilemetedataPack }
    else
      { u with
        r := { r with disk := r.disk.rename (entry oldBlockmn) (entry newBlockmn) }
        binlog := u.binlog ++ [finalName]
        reply := some (if env.binlogWrite then .success else .errorBinlogWrite) }
  else if u.r.f.fSize ≤ u.r.f.fOffset then
    { u with r := { u.r with f := u.r.f.reset }, reply := some .success }
  else u

/-- One step: of the thread that works on the file, and of the callback if it is called. -/
def step (buffSize : ℕ) (mountPath finalName : List Byte) (u : Upload ι) (env : UploadEnv) :
    Upload ι :=
  let r := u.r.step entry buffSize env.toDioEnv
  match r.calls.drop u.r.calls.length with
  | [] => { u with r := r }
  | (ok, _) :: _ => { u with r := r }.fileUploadDoneCallback entry mountPath finalName env ok

/-- The upload after `handle_cmd_fileupload`. -/
def start (size totalSize : ℤ) (mountPath fMapName : List Byte) (disk : Disk ι Byte)
    (input : List ReadEv) : Upload ι where
  r := .start .upload size totalSize fMapName (blockMapName mountPath fMapName) disk input
  binlog := []
  reply := none

/-! ### Failure -/

/-- The reply says that the file could not be written or could not be given its name. -/
def Failed (u : Upload ι) : Prop :=
  u.reply = some .errorDioWriteDisk ∨ u.reply = some .errorFilemetedataPack

instance (u : Upload ι) : Decidable u.Failed := inferInstanceAs (Decidable (_ ∨ _))

/-- There is no file under the two names, and the binlog has no record of one. -/
structure LeavesNothing (mountPath fMapName finalName : List Byte) (u : Upload ι) : Prop where
  block : u.r.disk (entry (blockMapName mountPath fMapName)) = none
  final : u.r.disk (entry (blockMapName mountPath finalName)) = none
  binlog_eq : u.binlog = []

instance (mountPath fMapName finalName : List Byte) (u : Upload ι) :
    Decidable (u.LeavesNothing entry mountPath fMapName finalName) :=
  decidable_of_iff (_ ∧ _ ∧ _) ⟨fun h => ⟨h.1, h.2.1, h.2.2⟩, fun h => ⟨h.block, h.final, h.binlog_eq⟩⟩

/-- The descriptor that `dio_write` works with, if the file is open or can be opened. -/
def descriptor (env : UploadEnv) (u : Upload ι) : Option ℕ := u.r.fd.or env.openFile

/-- The `write` of `dio_write` does not write the whole buffer. -/
def WriteFails (env : UploadEnv) (u : Upload ι) : Prop :=
  ∀ bs ∈ env.write.bytes u.r.f.fBuff, bs.length ≠ u.r.f.fBuffOffset

instance (env : UploadEnv) (u : Upload ι) : Decidable (u.WriteFails env) :=
  inferInstanceAs (Decidable (∀ bs ∈ env.write.bytes u.r.f.fBuff, bs.length ≠ u.r.f.fBuffOffset))

/-- The `write` of `dio_write` completes the file. -/
def Completes (env : UploadEnv) (u : Upload ι) : Prop :=
  ¬ u.WriteFails env ∧ u.r.f.written.fSize ≤ u.r.f.written.fOffset ∧
    u.r.f.written.fTotalSize ≤ u.r.f.written.fTotalOffset

instance (env : UploadEnv) (u : Upload ι) : Decidable (u.Completes env) :=
  inferInstanceAs (Decidable (_ ∧ _ ∧ _))

/-- The condition on a step: a `write` that fails is one of a file that `dio_write_error_cleanup` removes,
and the `rename` does not fail. -/
structure CleansUp (env : UploadEnv) (u : Upload ι) : Prop where
  write : u.r.phase = .dio → u.WriteFails env → ∀ fd ∈ u.descriptor env,
    0 < fd ∧ u.r.f.fRwoffset < u.r.f.fSize ∧ entry u.r.fMapName = entry u.r.fBlockMapName
  rename : u.r.phase = .dio → u.Completes env → u.descriptor env ≠ none → env.rename = true

instance (env : UploadEnv) (u : Upload ι) : Decidable (u.CleansUp entry env) :=
  decidable_of_iff (_ ∧ _) ⟨fun h => ⟨h.1, h.2⟩, fun h => ⟨h.write, h.rename⟩⟩

/-! ### `dio_write` of a file that this upload has made -/

section File

variable {entry} {r : Reception ι} {env : DioEnv} {disk : Disk ι Byte} {fd : ℕ}

/-- The file is open, and of all files it alone may differ from `disk`. -/
def held (entry : List Byte → ι) (disk : Disk ι Byte) (fd pos : ℕ) (bs : List Byte)
    (r : Reception ι) : Reception ι :=
  { r with fd := some fd, pos := pos, disk := update disk (entry r.fBlockMapName) (some bs) }

/-- Nothing is written yet, or the file is open. -/
def Made (entry : List Byte → ι) (disk : Disk ι Byte) (r : Reception ι) : Prop :=
  r.fd = none ∧ r.f.fOffset = 0 ∧ r.disk = disk ∨
    ∃ fd bs, r.fd = some fd ∧ r.disk = update disk (entry r.fBlockMapName) (some bs)

lemma Made.openFile (h : Made entry disk r) (hfd : fd ∈ r.fd.or env.openFile) :
    ∃ pos bs, r.openFile entry env = (held entry disk fd pos bs r, true) := by
  rcases h with ⟨hnone, hoffset, hdisk⟩ | ⟨fd', bs, hsome, hdisk⟩
  · rw [hnone, none_or] at hfd
    refine ⟨0, (disk (entry r.fBlockMapName)).getD [], ?_⟩
    simp only [Reception.openFile, hnone, mem_def.1 hfd, hoffset, le_refl, if_true, held, hdisk,
      Disk.create]
  · rw [hsome, some_or, mem_def, some.injEq] at hfd
    subst hfd
    refine ⟨r.pos, bs, ?_⟩
    simp only [Reception.openFile, hsome, held]
    rw [← hsome, ← hdisk]

lemma Made.dioWrite_error (h : Made entry disk r) (hfd : fd ∈ r.fd.or env.openFile)
    (hwrite : ∀ bs ∈ env.write.bytes r.f.fBuff, bs.length ≠ r.f.fBuffOffset) :
    ∃ pos bs, r.dioWrite entry env = (held entry disk fd pos bs r).dioWriteError entry := by
  obtain ⟨pos, bs, hopen⟩ := h.openFile hfd
  rw [Reception.dioWrite, hopen]
  simp only [Reception.dioWriteOpen, held]
  cases hbytes : env.write.bytes r.f.fBuff with
  | none => exact ⟨pos, bs, rfl⟩
  | some ws =>
    simp only [hwrite ws hbytes, ne_eq, not_false_eq_true, if_true]
    exact ⟨pos + ws.length, _, by simp only [Disk.write, update_idem]; rfl⟩

lemma Made.dioWrite_ok (h : Made entry disk r) (hfd : fd ∈ r.fd.or env.openFile)
    (hwrite : ¬ ∀ bs ∈ env.write.bytes r.f.fBuff, bs.length ≠ r.f.fBuffOffset) :
    ∃ pos bs, r.dioWrite entry env = if r.f.written.fOffset < r.f.written.fSize then
        { held entry disk fd pos bs r with f := r.f.written.buffReset, phase := .fread }
      else ({ held entry disk fd pos bs r with f := r.f.written }.closeFile).opFunc entry true := by
  obtain ⟨pos, bs, hopen⟩ := h.openFile hfd
  rw [Reception.dioWrite, hopen]
  push Not at hwrite
  obtain ⟨ws, hbytes, hlen⟩ := hwrite
  simp only [Reception.dioWriteOpen, held]
  rw [mem_def.1 hbytes]
  simp only [hlen, ne_eq, not_true_eq_false, if_false]
  exact ⟨pos + r.f.fBuffOffset, _, by simp only [Disk.write, update_idem]; rfl⟩

lemma calls_dioWriteError : (r.dioWriteError entry).calls = r.calls ++
      [(false, (r.dioWriteErrorCleanup entry).disk (entry (r.dioWriteErrorCleanup entry).fBlockMapName))] := by
  unfold Reception.dioWriteError Reception.opFunc Reception.dioWriteErrorCleanup
  split_ifs <;> rfl

lemma disk_dioWriteError_held {pos : ℕ} {bs : List Byte} :
    ((held entry disk fd pos bs r).dioWriteError entry).disk =
      if 0 < fd ∧ r.f.fRwoffset < r.f.fSize then
        Disk.unlink (entry r.fMapName) (update disk (entry r.fBlockMapName) (some bs))
      else update disk (entry r.fBlockMapName) (some bs) := by
  by_cases hfd : 0 < fd
  · by_cases hrw : r.f.fRwoffset < r.f.fSize
    · simp [Reception.dioWriteError, Reception.dioWriteErrorCleanup, Reception.opFunc, held, hfd, hrw,
        Reception.fileUnlink, Reception.closeFile]
    · simp [Reception.dioWriteError, Reception.dioWriteErrorCleanup, Reception.opFunc, held, hfd, hrw,
        Reception.closeFile]
  · simp [Reception.dioWriteError, Reception.dioWriteErrorCleanup, Reception.opFunc, held, hfd]

end File

/-! ### The steps of an upload -/

section Steps

variable {entry} {buffSize : ℕ} {mountPath fMapName finalName : List Byte} {disk : Disk ι Byte}
  {u : Upload ι} {env : UploadEnv} {fd : ℕ}

structure Uploading (entry : List Byte → ι) (disk : Disk ι Byte) (mountPath fMapName : List Byte)
    (u : Upload ι) : Prop where
  working : u.r.phase = .fread ∨ u.r.phase = .dio
  mapName_eq : u.r.fMapName = fMapName
  blockMapName_eq : u.r.fBlockMapName = blockMapName mountPath fMapName
  made : Made entry disk u.r
  binlog_eq : u.binlog = []
  reply_eq : u.reply = none

/-- No thread works on the file any more. -/
def Over (u : Upload ι) : Prop := u.r.phase = .done ∨ u.r.phase = .closed

lemma uploading_start {size totalSize : ℤ} {input : List ReadEv} :
    Uploading entry disk mountPath fMapName (start size totalSize mountPath fMapName disk input) where
  working := .inl rfl
  mapName_eq := rfl
  blockMapName_eq := rfl
  made := .inl ⟨rfl, rfl, rfl⟩
  binlog_eq := rfl
  reply_eq := rfl

lemma step_of_call {ok : Bool} {file : Option (List Byte)} {r : Reception ι}
    (hr : u.r.step entry buffSize env.toDioEnv = r) (hcalls : r.calls = u.r.calls ++ [(ok, file)]) :
    u.step entry buffSize mountPath finalName env =
      { u with r := r }.fileUploadDoneCallback entry mountPath finalName env ok := by
  rw [step, hr, hcalls, List.drop_left]

lemma step_of_no_call {r : Reception ι} (hr : u.r.step entry buffSize env.toDioEnv = r)
    (hcalls : r.calls = u.r.calls) :
    u.step entry buffSize mountPath finalName env = { u with r := r } := by
  rw [step, hr, hcalls, List.drop_length]

lemma step_of_over (h : u.Over) : u.step entry buffSize mountPath finalName env = u := by
  have hr : u.r.step entry buffSize env.toDioEnv = u.r := by
    rcases h with hphase | hphase
    · rw [Reception.step, hphase]
    · rw [Reception.step, hphase]
  exact step_of_no_call hr rfl

omit [DecidableEq ι] in
lemma not_failed_of_reply (h : u.reply = none) : ¬ u.Failed := by
  rintro (hreply | hreply)
  · rw [h] at hreply
    cases hreply
  · rw [h] at hreply
    cases hreply

lemma fOffset_freadRound (buffSize : ℕ) (f : FileCtx) (input : List ReadEv) :
    (freadRound buffSize f input).2.1.fOffset = f.fOffset := by
  rw [freadRound]
  split_ifs
  · rfl
  · rcases readSock (some (buffSize - f.fBuffOffset)) input with ⟨bs | _ | _ | _, input'⟩
    · by_cases hall : bs.length = buffSize - f.fBuffOffset
      · simp only [hall, if_true, FileCtx.received]
      · simp only [hall, if_false, FileCtx.received]
    · rfl
    · rfl
    · rfl

section

variable (h : Uploading entry disk mountPath fMapName u)
include h

lemma Uploading.fread (hphase : u.r.phase = .fread)
    (buffSize : ℕ) (finalName : List Byte) (env : UploadEnv) :
    (Uploading entry disk mountPath fMapName (u.step entry buffSize mountPath finalName env) ∨
      (u.step entry buffSize mountPath finalName env).Over) ∧
    ¬ (u.step entry buffSize mountPath finalName env).Failed := by
  have hr : u.r.step entry buffSize env.toDioEnv =
      u.r.afterRound (freadRound buffSize u.r.f u.r.input) := by
    rw [Reception.step, hphase]
  have hoffset := fOffset_freadRound buffSize u.r.f u.r.input
  generalize freadRound buffSize u.r.f u.r.input = round at hr hoffset
  obtain ⟨e, f, input⟩ := round
  have hmade (phase : Phase) : Made entry disk { u.r with f := f, input := input, phase := phase } := by
    rcases h.made with ⟨hfd, hzero, hdisk⟩ | hopen
    · exact .inl ⟨hfd, hoffset.trans hzero, hdisk⟩
    · exact .inr hopen
  cases e with
  | more =>
    rw [step_of_no_call hr rfl]
    exact ⟨.inl { h with working := .inl rfl, made := hmade _ }, not_failed_of_reply h.reply_eq⟩
  | complete =>
    rw [step_of_no_call hr rfl]
    exact ⟨.inl { h with working := .inr rfl, made := hmade _ }, not_failed_of_reply h.reply_eq⟩
  | again =>
    rw [step_of_no_call hr rfl]
    exact ⟨.inl { h with working := .inl rfl, made := hmade _ }, not_failed_of_reply h.reply_eq⟩
  | eof =>
    rw [step_of_no_call hr rfl]
    exact ⟨.inr (.inr rfl), not_failed_of_reply h.reply_eq⟩

lemma Uploading.openFails (hphase : u.r.phase = .dio)
    (hfd : u.descriptor env = none) (buffSize : ℕ) (finalName : List Byte) :
    (u.step entry buffSize mountPath finalName env).Over ∧
      (u.step entry buffSize mountPath finalName env).r.disk = disk ∧
      (u.step entry buffSize mountPath finalName env).binlog = [] := by
  obtain ⟨hnone, hopen⟩ := or_eq_none_iff.1 hfd
  rcases h.made with ⟨-, -, hdisk⟩ | ⟨fd, -, hsome, -⟩
  · have hcleanup : u.r.dioWriteErrorCleanup entry = u.r := by
      rw [Reception.dioWriteErrorCleanup, hnone]
      rfl
    have hr : u.r.step entry buffSize env.toDioEnv = u.r.dioWriteError entry := by
      rw [Reception.step, hphase]
      simp only [Reception.dioWrite, Reception.openFile, hnone, hopen]
    rw [step_of_call hr calls_dioWriteError, Reception.dioWriteError, hcleanup]
    exact ⟨.inl rfl, hdisk, h.binlog_eq⟩
  · rw [hnone] at hsome
    cases hsome

lemma Uploading.writeFails (hphase : u.r.phase = .dio)
    (hfd : fd ∈ u.descriptor env) (hwrite : u.WriteFails env) (buffSize : ℕ) (finalName : List Byte) :
    (u.step entry buffSize mountPath finalName env).Over ∧
      (u.step entry buffSize mountPath finalName env).Failed ∧
      (u.step entry buffSize mountPath finalName env).binlog = [] ∧
      ∃ bs, (u.step entry buffSize mountPath finalName env).r.disk =
        if 0 < fd ∧ u.r.f.fRwoffset < u.r.f.fSize then
          Disk.unlink (entry u.r.fMapName) (update disk (entry u.r.fBlockMapName) (some bs))
        else update disk (entry u.r.fBlockMapName) (some bs) := by
  obtain ⟨pos, bs, hdio⟩ := h.made.dioWrite_error hfd hwrite
  have hr : u.r.step entry buffSize env.toDioEnv =
      (held entry disk fd pos bs u.r).dioWriteError entry := by
    rw [Reception.step, hphase]
    exact hdio
  rw [step_of_call hr calls_dioWriteError]
  exact ⟨.inl rfl, .inl rfl, h.binlog_eq, bs, disk_dioWriteError_held⟩

end

lemma fileUploadDoneCallback_true (mountPath finalName : List Byte) (env : UploadEnv)
    {u : Upload ι} (hsize : u.r.f.fSize ≤ u.r.f.fOffset) :
    (u.fileUploadDoneCallback entry mountPath finalName env true).r.phase = u.r.phase ∧
      if u.r.f.fTotalSize ≤ u.r.f.fTotalOffset ∧ env.rename = false then
        (u.fileUploadDoneCallback entry mountPath finalName env true).Failed ∧
          (u.fileUploadDoneCallback entry mountPath finalName env true).r.disk = u.r.disk
      else ¬ (u.fileUploadDoneCallback entry mountPath finalName env true).Failed := by
  by_cases htotal : u.r.f.fTotalSize ≤ u.r.f.fTotalOffset
  · cases hrename : env.rename
    · simp [fileUploadDoneCallback, Failed, htotal, hrename]
    · cases hbinlog : env.binlogWrite <;>
        simp [fileUploadDoneCallback, Failed, htotal, hrename, hbinlog]
  · simp [fileUploadDoneCallback, Failed, htotal, hsize]

lemma Uploading.writes (h : Uploading entry disk mountPath fMapName u) (hphase : u.r.phase = .dio)
    (hfd : fd ∈ u.descriptor env) (hwrite : ¬ u.WriteFails env) (buffSize : ℕ)
    (finalName : List Byte) :
    u.r.f.written.fOffset < u.r.f.written.fSize ∧
      Uploading entry disk mountPath fMapName (u.step entry buffSize mountPath finalName env) ∨
    u.r.f.written.fSize ≤ u.r.f.written.fOffset ∧
      (u.step entry buffSize mountPath finalName env).Over ∧
      if u.r.f.written.fTotalSize ≤ u.r.f.written.fTotalOffset ∧ env.rename = false then
        (u.step entry buffSize mountPath finalName env).Failed ∧
          ∃ bs, (u.step entry buffSize mountPath finalName env).r.disk =
            update disk (entry u.r.fBlockMapName) (some bs)
      else ¬ (u.step entry buffSize mountPath finalName env).Failed := by
  obtain ⟨pos, bs, hdio⟩ := h.made.dioWrite_ok hfd hwrite
  have hr : u.r.step entry buffSize env.toDioEnv = u.r.dioWrite entry env.toDioEnv := by
    rw [Reception.step, hphase]
  rw [hdio] at hr
  by_cases hlt : u.r.f.written.fOffset < u.r.f.written.fSize
  · rw [if_pos hlt] at hr
    rw [step_of_no_call hr rfl]
    exact .inl ⟨hlt, { h with working := .inl rfl, made := .inr ⟨fd, bs, rfl, rfl⟩ }⟩
  · right
    rw [if_neg hlt] at hr
    have hstep := @step_of_call _ _ entry buffSize mountPath finalName u env _ _ _ hr rfl
    rw [hstep]
    have hsize := not_lt.1 hlt
    generalize hw : Reception.opFunc entry true _ = w at hr hstep ⊢
    have hf : w.f = u.r.f.written := by rw [← hw]; rfl
    have hdisk : w.disk = update disk (entry u.r.fBlockMapName) (some bs) := by
      rw [← hw]
      rfl
    have hphase' : w.phase = .done := by rw [← hw]; rfl
    rw [← hf] at hsize ⊢
    obtain ⟨hdone, hreply⟩ := @fileUploadDoneCallback_true _ _ entry mountPath finalName env
      { u with r := w } hsize
    refine ⟨hsize, .inl (hdone.trans hphase'), ?_⟩
    split_ifs at hreply ⊢
    · exact ⟨hreply.1, bs, hreply.2.trans hdisk⟩
    · exact hreply

lemma removed_iff {e e' : ι} {bs : List Byte} {P : Prop} [Decidable P] :
    (if P then Disk.unlink e' (update disk e (some bs)) else update disk e (some bs)) e =
      none ↔ P ∧ e' = e := by
  by_cases hP : P
  · rw [if_pos hP, and_iff_right hP, Disk.unlink]
    by_cases he : e' = e
    · subst he
      simp
    · rw [update_of_ne (Ne.symm he), update_self]
      simp [he]
  · simp [hP]

/-- If the upload has failed, it leaves nothing behind. -/
def FailsClean (entry : List Byte → ι) (mountPath fMapName finalName : List Byte) (u : Upload ι) :
    Prop :=
  u.Failed → u.LeavesNothing entry mountPath fMapName finalName

section Iff

variable (h : Uploading entry disk mountPath fMapName u)
  (hblock : disk (entry (blockMapName mountPath fMapName)) = none)
  (hfinal : disk (entry (blockMapName mountPath finalName)) = none)
include h

lemma Uploading.step_iff_fread (hphase : u.r.phase = .fread) :
    FailsClean entry mountPath fMapName finalName (u.step entry buffSize mountPath finalName env) ↔
      u.CleansUp entry env := by
  obtain ⟨-, hok⟩ := h.fread hphase buffSize finalName env
  have hdio : u.r.phase ≠ .dio := by
    rw [hphase]
    decide
  exact iff_of_true (fun hfailed => absurd hfailed hok)
    ⟨fun hphase' => absurd hphase' hdio, fun hphase' => absurd hphase' hdio⟩

include hblock hfinal in
lemma Uploading.step_iff_openFails (hphase : u.r.phase = .dio) (hfd : u.descriptor env = none) :
    FailsClean entry mountPath fMapName finalName (u.step entry buffSize mountPath finalName env) ↔
      u.CleansUp entry env := by
  obtain ⟨-, hdisk, hbinlog⟩ := h.openFails hphase hfd buffSize finalName
  refine iff_of_true (fun _ => ⟨by rw [hdisk, hblock], by rw [hdisk, hfinal], hbinlog⟩) ⟨?_, ?_⟩
  · intro _ _ fd hfd'
    rw [hfd] at hfd'
    cases hfd'
  · intro _ _ hne
    exact absurd hfd hne

include hfinal in
lemma Uploading.step_iff_writeFails (hphase : u.r.phase = .dio) (hfd : u.descriptor env = some fd)
    (hwrite : u.WriteFails env) :
    FailsClean entry mountPath fMapName finalName (u.step entry buffSize mountPath finalName env) ↔
      u.CleansUp entry env := by
  obtain ⟨-, hfailed, hbinlog, bs, hdisk⟩ := h.writeFails hphase hfd hwrite buffSize finalName
  have hgone := @removed_iff _ _ disk (entry u.r.fBlockMapName) (entry u.r.fMapName) bs
    (0 < fd ∧ u.r.f.fRwoffset < u.r.f.fSize) _
  rw [← hdisk, h.blockMapName_eq, and_assoc] at hgone
  constructor
  · intro hnothing
    refine ⟨fun _ _ fd' hfd' => ?_, fun _ hcompletes => absurd hwrite hcompletes.1⟩
    rw [hfd, mem_def, some.injEq] at hfd'
    subst hfd'
    rw [h.blockMapName_eq]
    exact hgone.1 (hnothing hfailed).block
  · intro hclean _
    have hremoved := hclean.write hphase hwrite fd hfd
    rw [h.blockMapName_eq] at hremoved
    refine ⟨hgone.2 hremoved, ?_, hbinlog⟩
    rw [hdisk, if_pos ⟨hremoved.1, hremoved.2.1⟩, h.blockMapName_eq, hremoved.2.2, Disk.unlink,
      update_idem, update_apply]
    split_ifs
    · rfl
    · exact hfinal

lemma Uploading.step_iff_writes (hphase : u.r.phase = .dio) (hfd : u.descriptor env = some fd)
    (hwrite : ¬ u.WriteFails env) :
    FailsClean entry mountPath fMapName finalName (u.step entry buffSize mountPath finalName env) ↔
      u.CleansUp entry env := by
  rcases h.writes hphase hfd hwrite buffSize finalName with ⟨hlt, hnext⟩ | ⟨hsize, -, hreply⟩
  · refine iff_of_true (fun hfailed => absurd hfailed (not_failed_of_reply hnext.reply_eq))
      ⟨fun _ hfails => absurd hfails hwrite, fun _ hcompletes => ?_⟩
    exact absurd hcompletes.2.1 (not_le.2 hlt)
  · split_ifs at hreply with hrename
    · -- the file stays under its first name
      obtain ⟨hfailed, bs, hdisk⟩ := hreply
      refine iff_of_false (fun hnothing => ?_) fun hclean => ?_
      · have hblock := (hnothing hfailed).block
        rw [hdisk, h.blockMapName_eq, update_self] at hblock
        cases hblock
      · have htrue := hclean.rename hphase ⟨hwrite, hsize, hrename.1⟩ (by rw [hfd]; simp)
        rw [hrename.2] at htrue
        cases htrue
    · refine iff_of_true (fun hfailed => absurd hfailed hreply)
        ⟨fun _ hfails => absurd hfails hwrite, fun _ hcompletes _ => ?_⟩
      simpa [hcompletes.2.2] using hrename

include hblock hfinal in
/-- **One step.**  An upload that fails with this step leaves nothing behind exactly if the step cleans
up. -/
lemma Uploading.step_iff :
    FailsClean entry mountPath fMapName finalName (u.step entry buffSize mountPath finalName env) ↔
      u.CleansUp entry env := by
  rcases h.working with hphase | hphase
  · exact h.step_iff_fread hphase
  · cases hfd : u.descriptor env with
    | none => exact h.step_iff_openFails hblock hfinal hphase hfd
    | some fd =>
      by_cases hwrite : u.WriteFails env
      · exact h.step_iff_writeFails hfinal hphase hfd hwrite
      · exact h.step_iff_writes hphase hfd hwrite

end Iff

lemma Uploading.step (h : Uploading entry disk mountPath fMapName u) (buffSize : ℕ)
    (finalName : List Byte) (env : UploadEnv) :
    Uploading entry disk mountPath fMapName (u.step entry buffSize mountPath finalName env) ∨
      (u.step entry buffSize mountPath finalName env).Over := by
  rcases h.working with hphase | hphase
  · exact (h.fread hphase buffSize finalName env).1
  · cases hfd : u.descriptor env with
    | none => exact .inr (h.openFails hphase hfd buffSize finalName).1
    | some fd =>
      by_cases hwrite : u.WriteFails env
      · exact .inr (h.writeFails hphase hfd hwrite buffSize finalName).1
      · rcases h.writes hphase hfd hwrite buffSize finalName with ⟨-, hnext⟩ | ⟨-, hover, -⟩
        · exact .inl hnext
        · exact .inr hover

omit [DecidableEq ι] in
lemma cleansUp_of_over (h : u.Over) : u.CleansUp entry env := by
  have hphase : u.r.phase ≠ .dio := by
    rcases h with h | h <;> rw [h] <;> decide
  exact ⟨fun hdio => absurd hdio hphase, fun hdio => absurd hdio hphase⟩

end Steps

/-- **A failed upload leaves nothing behind** exactly if every step cleans up: where a `write` fails, the
descriptor is positive, this turn has not read the whole file, and `f_map_name` leads from the directory
of the server to the file itself; and the `rename` does not fail. -/
theorem failed_upload_leaves_nothing_iff (buffSize : ℕ) (size totalSize : ℤ)
    (mountPath fMapName finalName : List Byte) (disk : Disk ι Byte) (input : List ReadEv)
    (envs : List UploadEnv) (hblock : disk (entry (blockMapName mountPath fMapName)) = none)
    (hfinal : disk (entry (blockMapName mountPath finalName)) = none) :
    Along (step entry buffSize mountPath finalName)
        (fun _ _ u' => u'.Failed → u'.LeavesNothing entry mountPath fMapName finalName)
        (start size totalSize mountPath fMapName disk input) envs ↔
      Along (step entry buffSize mountPath finalName) (fun u env _ => u.CleansUp entry env)
        (start size totalSize mountPath fMapName disk input) envs := by
  refine Along.iff_of_inv' (I := fun u => Uploading entry disk mountPath fMapName u ∨
    u.Over ∧ (u.Failed → u.LeavesNothing entry mountPath fMapName finalName))
    (.inl uploading_start) ?_ ?_
  · rintro u env (h | ⟨hover, hnothing⟩)
    · exact h.step_iff hblock hfinal
    · rw [step_of_over hover]
      exact iff_of_true hnothing (cleansUp_of_over hover)
  · rintro u env (h | ⟨hover, hnothing⟩) hR
    · rcases h.step buffSize finalName env with hnext | hover
      · exact .inl hnext
      · exact .inr ⟨hover, hR⟩
    · rw [step_of_over hover]
      exact .inr ⟨hover, hnothing⟩

/-- The file at a path, for a process in the directory `cwd`. -/
def resolve (cwd path : List Byte) : List Byte :=
  if path.head? = some 47 then path else cwd ++ 47 :: path

/-- A file of three bytes that comes in two turns; the `write` of the second one fails. -/
def secondWriteFails : List UploadEnv :=
  let ok : UploadEnv := { DioEnv.ok 5 with rename := true, binlogWrite := true }
  [ok, ok, ok, { ok with write := .error }]

/-- The server is in the directory of the mount point. -/
theorem failed_upload_leaves_nothing_mount :
    Along (step (resolve [47, 109]) fileBuffSize [47, 109] [98])
      (fun _ _ u' => u'.Failed → u'.LeavesNothing (resolve [47, 109]) [47, 109] [97] [98])
      (start 3 3 [47, 109] [97] (fun _ => none) [.data [1, 2], .data [3]]) secondWriteFails :=
  (failed_upload_leaves_nothing_iff (resolve [47, 109]) fileBuffSize 3 3 [47, 109] [97] [98]
    (fun _ => none) [.data [1, 2], .data [3]] secondWriteFails rfl rfl).2 (by decide +kernel)

/-- The server is in the directory to which a daemon changes: the part of the file stays. -/
theorem failed_upload_leaves_file : ¬ Along (step (resolve [47]) fileBuffSize [47, 109] [98])
      (fun _ _ u' => u'.Failed → u'.LeavesNothing (resolve [47]) [47, 109] [97] [98])
      (start 3 3 [47, 109] [97] (fun _ => none) [.data [1, 2], .data [3]]) secondWriteFails := by
  decide +kernel

end Upload

end Lfs.Server
