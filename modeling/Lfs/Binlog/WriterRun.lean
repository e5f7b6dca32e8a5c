/-
Runs of the writer of a binlog.

A run is a sequence of `binlog_write`, `binlog_flush` and `binlog_lock_flush` calls on one
context, with any outcome of every system call.  A flush whose `write` is short, or whose
`fsync` fails after the `write`, keeps the whole cache and leaves its bytes in the file, so
a later flush writes them again; and `binlog_lock_flush` returns `LFS_OK` whatever happened.
-/
import Lfs.Binlog.Ctx
import Lfs.Lib.Run

namespace Lfs.Binlog

open Lfs.Lib List Option BinlogCtx

/-- A call on the context, with the outcomes of the system calls of its flush. -/
inductive WriterOp where
  | write (line : CString) (io : FlushIo)
  | flush (io : FlushIo)
  | lockFlush (io : FlushIo)

/-- The context, `none` once a line was written past the end of the cache, the lines
written so far, and what the flush of the last call returned, if there was one. -/
structure WriterRun where
  ctx : Option BinlogCtx
  lines : List CString
  ret : Option ℤ

def linesText (lines : List CString) : List Byte := (lines.map CString.bytes).flatten

lemma linesText_concat (lines : List CString) (line : CString) :
    linesText (lines ++ [line]) = linesText lines ++ line.bytes := by
  simp [linesText]

/-- The flush has nothing to write, writes everything, or writes nothing. -/
def FlushClean (io : FlushIo) (c : BinlogCtx) : Prop :=
  c.wcacheBuff = [] ∨ c.Complete io ∨ c.Untouched io

instance {io : FlushIo} {c : BinlogCtx} : Decidable (FlushClean io c) :=
  inferInstanceAs (Decidable (_ ∨ _ ∨ _))

namespace WriterRun

def init : WriterRun := ⟨some .fresh, [], none⟩

def step (s : WriterRun) : WriterOp → WriterRun
  | .write line io =>
    let r := s.ctx.bind fun c => c.binlogWriteLocked io line
    ⟨r.map Prod.snd, s.lines ++ [line], r.bind Prod.fst⟩
  | .flush io =>
    let r := s.ctx.map fun c => c.binlogFlush io
    ⟨r.map Prod.snd, s.lines, r.map Prod.fst⟩
  | .lockFlush io =>
    let r := s.ctx.map fun c => c.binlogLockFlush io
    ⟨r.map Prod.snd, s.lines, r.map Prod.fst⟩

/-- If the last call made a flush that returned `LFS_OK`, the files hold the lines. -/
def ExactlyOnce (s : WriterRun) : Prop :=
  ∃ c, s.ctx = some c ∧ (s.ret = some lfsOk → c.binlogText = linesText s.lines)

instance (s : WriterRun) : Decidable (ExactlyOnce s) :=
  match s with
  | ⟨none, _, _⟩ => isFalse (by simp [ExactlyOnce])
  | ⟨some c, lines, ret⟩ =>
    decidable_of_iff (ret = some lfsOk → c.binlogText = linesText lines) (by simp [ExactlyOnce])

/-- The condition on a call: the line fits into the cache, and the flush, if there is
one, is clean; a flush by `binlog_lock_flush` also has to complete. -/
def Clean (s : WriterRun) : WriterOp → Prop
  | .write line io => ∀ c ∈ s.ctx,
      c.wcacheBuff.length + line.bytes.length + 1 ≤ binlogCacheBufferSize ∧
      (binlogCacheBufferSize < c.wcacheBuff.length + line.bytes.length + 256 →
        FlushClean io { c with wcacheBuff := c.wcacheBuff ++ line.bytes })
  | .flush io => ∀ c ∈ s.ctx, FlushClean io c
  | .lockFlush io => ∀ c ∈ s.ctx, c.wcacheBuff = [] ∨ c.Complete io

instance (s : WriterRun) : (op : WriterOp) → Decidable (Clean s op)
  | .write _ _ => inferInstanceAs (Decidable (∀ c ∈ s.ctx, _ ∧ (_ → _)))
  | .flush _ => inferInstanceAs (Decidable (∀ c ∈ s.ctx, _))
  | .lockFlush _ => inferInstanceAs (Decidable (∀ c ∈ s.ctx, _ ∨ _))

end WriterRun

/-! ### One flush -/

section

variable {io : FlushIo} {c : BinlogCtx} {text : List Byte}

/-- A clean flush keeps the invariant of the writer, and leaves the text in the files if
it returns `LFS_OK`. -/
lemma BinlogCtx.Writes.binlogFlush (h : c.Writes text) (hio : FlushClean io c) :
    (c.binlogFlush io).2.Writes text ∧
      ((c.binlogFlush io).1 = lfsOk → (c.binlogFlush io).2.binlogText = text) := by
  by_cases hnil : c.wcacheBuff = []
  · rw [binlogFlush_of_nil hnil]
    exact ⟨h, fun _ => by simpa [hnil] using h.text_eq⟩
  by_cases hdone : c.Complete io
  · have hf := binlogFlush_of_complete hnil hdone
    have hw := h.flushed hdone.1 hf
    exact ⟨hw, fun _ => by simpa [hf.cache] using hw.text_eq⟩
  · -- nothing has been written: the context is the one before
    have hun : c.Untouched io := (hio.resolve_left hnil).resolve_left hdone
    obtain ⟨k, hk, hzero⟩ := binlogFlush_of_not_complete hnil hdone
    rw [hk, hzero.2 hun, take_zero, appendFd_nil]
    exact ⟨h, fun hret => absurd (show lfsError = lfsOk from hret) (by decide)⟩

/-- After a flush that is not clean, one whose system calls all succeed returns `LFS_OK`
and leaves more than the text in the files. -/
lemma BinlogCtx.Writes.binlogFlush_not_clean (h : c.Writes text) (hio : ¬ FlushClean io c) :
    ((c.binlogFlush io).2.binlogFlush .ok).1 = lfsOk ∧
      ((c.binlogFlush io).2.binlogFlush .ok).2.binlogText ≠ text := by
  simp only [FlushClean, not_or] at hio
  obtain ⟨hnil, hdone, hun⟩ := hio
  obtain ⟨k, hk, hzero⟩ := binlogFlush_of_not_complete hnil hdone
  have hpos : k ≠ 0 := fun hk0 => hun (hzero.1 hk0)
  have hfd : c.binlogFd ≠ none := fun hnone => hun (Or.inl hnone)
  have hcurr := h.fd_eq hfd
  rw [hk]
  -- the bytes stand in the file, and the cache still holds them
  set d := c.appendFd (c.wcacheBuff.take k) with hd
  have hdfields : d.binlogFd = some d.currBinlogFileIndex ∧ d.wcacheBuff = c.wcacheBuff := by
    rw [hd, appendFd_some hcurr]
    exact ⟨hcurr, rfl⟩
  have hdw : d.Writes (c.binlogText ++ c.wcacheBuff.take k ++ c.wcacheBuff) := by
    refine ⟨?_, ?_, by rw [hd, binlogText_appendFd hcurr, appendFd_some hcurr]⟩
    · rw [hdfields.1]; rintro i hi; exact (some.inj hi).symm
    · intro i hi
      rw [hd, appendFd_some hcurr] at hi ⊢
      simpa [Function.update_of_ne (ne_of_gt hi)] using h.beyond i hi
  have hdnone : d.binlogFd ≠ none := by rw [hdfields.1]; simp
  obtain ⟨-, hret⟩ := hdw.binlogFlush (Or.inr (Or.inl (complete_ok hdnone)))
  refine ⟨(binlogFlush_ok hdfields.1).1, fun heq => ?_⟩
  rw [hret (binlogFlush_ok hdfields.1).1, ← h.text_eq] at heq
  have hlen := congrArg List.length heq
  have hcache : c.wcacheBuff.length ≠ 0 := by simpa using hnil
  simp only [length_append, length_take] at hlen
  omega

end

/-! ### Along a run -/

namespace WriterRun

/-- The files with the cache after them hold the lines written so far. -/
def Inv (s : WriterRun) : Prop := ∃ c, s.ctx = some c ∧ c.Writes (linesText s.lines)

lemma inv_init : Inv init := by
  refine ⟨_, rfl, ?_, fun i _ => rfl, rfl⟩
  rintro i hi
  exact (some.inj hi).symm

variable {s : WriterRun} {op : WriterOp} {c : BinlogCtx} {io : FlushIo}

lemma step_flush (hc : s.ctx = some c) :
    step s (.flush io) = ⟨some (c.binlogFlush io).2, s.lines, some (c.binlogFlush io).1⟩ := by
  simp [step, hc]

lemma step_lockFlush (hc : s.ctx = some c) :
    step s (.lockFlush io) = ⟨some (c.binlogFlush io).2, s.lines, some lfsOk⟩ := by
  simp [step, hc, binlogLockFlush]

lemma step_write {line : CString} (hc : s.ctx = some c)
    (hfit : c.wcacheBuff.length + line.bytes.length + 1 ≤ binlogCacheBufferSize) :
    step s (.write line io) =
      if binlogCacheBufferSize < c.wcacheBuff.length + line.bytes.length + 256 then
        step ⟨some { c with wcacheBuff := c.wcacheBuff ++ line.bytes }, s.lines ++ [line], none⟩
          (.flush io)
      else ⟨some { c with wcacheBuff := c.wcacheBuff ++ line.bytes }, s.lines ++ [line], none⟩ := by
  have happ : c.appendCache line = some { c with wcacheBuff := c.wcacheBuff ++ line.bytes } :=
    if_pos hfit
  by_cases hfull : binlogCacheBufferSize < c.wcacheBuff.length + line.bytes.length + 256
  · simp [step, hc, binlogWriteLocked, happ, hfull]
  · simp [step, hc, binlogWriteLocked, happ, hfull]

lemma Inv.append (line : CString) (hw : c.Writes (linesText s.lines)) :
    Inv ⟨some { c with wcacheBuff := c.wcacheBuff ++ line.bytes }, s.lines ++ [line], none⟩ := by
  refine ⟨_, rfl, hw.fd, hw.beyond, ?_⟩
  rw [linesText_concat, ← hw.text_eq, append_assoc]
  rfl

lemma Inv.step_flush (h : Inv s) (hio : ∀ c ∈ s.ctx, FlushClean io c) :
    Inv (step s (.flush io)) ∧ ExactlyOnce (step s (.flush io)) := by
  obtain ⟨c, hc, hw⟩ := h
  obtain ⟨hw', hret⟩ := hw.binlogFlush (hio c hc)
  rw [WriterRun.step_flush hc]
  exact ⟨⟨_, rfl, hw'⟩, _, rfl, fun hok => hret (some.inj hok)⟩

lemma Inv.step (h : Inv s) (hop : Clean s op) : Inv (step s op) ∧ ExactlyOnce (step s op) := by
  obtain ⟨c, hc, hw⟩ := h
  cases op with
  | write line io =>
    obtain ⟨hfit, hclean⟩ := hop c hc
    rw [step_write hc hfit]
    split_ifs with hfull
    · refine (Inv.append line hw).step_flush fun c' hc' => ?_
      obtain rfl := some.inj hc'
      exact hclean hfull
    · exact ⟨Inv.append line hw, _, rfl, fun hret => absurd hret (by simp)⟩
  | flush io => exact Inv.step_flush ⟨c, hc, hw⟩ hop
  | lockFlush io =>
    have hclean : FlushClean io c := (hop c hc).imp_right Or.inl
    obtain ⟨hw', -⟩ := hw.binlogFlush hclean
    rw [step_lockFlush hc]
    refine ⟨⟨_, rfl, hw'⟩, _, rfl, fun _ => ?_⟩
    -- the cache is empty after the flush
    have hcache : (c.binlogFlush io).2.wcacheBuff = [] := by
      by_cases hnil : c.wcacheBuff = []
      · rw [binlogFlush_of_nil hnil, hnil]
      · exact (binlogFlush_of_complete hnil ((hop c hc).resolve_left hnil)).cache
    simpa [hcache] using hw'.text_eq

lemma Inv.exactlyOnce_flush_ok (h : Inv s) : ExactlyOnce (WriterRun.step s (.flush .ok)) := by
  refine (h.step_flush fun c _ => ?_).2
  by_cases hfd : c.binlogFd = none
  · exact Or.inr (Or.inr (Or.inl hfd))
  · exact Or.inr (Or.inl (complete_ok hfd))

lemma Inv.not_exactlyOnce_of_not_clean {lines : List CString}
    {ret : Option ℤ} (hw : c.Writes (linesText lines)) (hio : ¬ FlushClean io c) :
    ¬ ExactlyOnce (WriterRun.step ⟨some (c.binlogFlush io).2, lines, ret⟩ (.flush .ok)) := by
  obtain ⟨hok, hne⟩ := hw.binlogFlush_not_clean hio
  rw [WriterRun.step_flush rfl]
  rintro ⟨d, hd, hsound⟩
  obtain rfl := some.inj hd
  exact hne (hsound (congrArg some hok))

/-- A call that is not clean shows at once, or at the next flush that succeeds. -/
lemma Inv.clean_of_exactlyOnce (h : Inv s) (hnow : ExactlyOnce (WriterRun.step s op))
    (hnext : ExactlyOnce (WriterRun.step (WriterRun.step s op) (.flush .ok))) : Clean s op := by
  obtain ⟨c, hc, hw⟩ := h
  cases op with
  | write line io =>
    intro c' hc'
    obtain rfl : c = c' := some.inj (hc.symm.trans hc')
    -- a line that does not fit leaves no context
    have hfit : c.wcacheBuff.length + line.bytes.length + 1 ≤ binlogCacheBufferSize := by
      by_contra hfit
      obtain ⟨d, hd, -⟩ := hnow
      have happ : c.appendCache line = none := if_neg hfit
      simp [WriterRun.step, hc, binlogWriteLocked, happ] at hd
    refine ⟨hfit, fun hfull => by_contra fun hio => ?_⟩
    obtain ⟨d, hd, hdw⟩ := Inv.append line hw
    obtain rfl := some.inj hd
    rw [step_write hc hfit, if_pos hfull, WriterRun.step_flush rfl] at hnext
    exact Inv.not_exactlyOnce_of_not_clean hdw hio hnext
  | flush io =>
    intro c' hc'
    obtain rfl : c = c' := some.inj (hc.symm.trans hc')
    rw [WriterRun.step_flush hc] at hnext
    exact by_contra fun hio => Inv.not_exactlyOnce_of_not_clean hw hio hnext
  | lockFlush io =>
    intro c' hc'
    obtain rfl : c = c' := some.inj (hc.symm.trans hc')
    rw [step_lockFlush hc] at hnow hnext
    have hclean : FlushClean io c :=
      by_contra fun hio => Inv.not_exactlyOnce_of_not_clean hw hio hnext
    by_contra hop
    simp only [not_or] at hop
    -- the flush wrote nothing, and yet it returned `LFS_OK`
    have hun : c.Untouched io := (hclean.resolve_left hop.1).resolve_left hop.2
    obtain ⟨k, hk, hzero⟩ := binlogFlush_of_not_complete hop.1 hop.2
    obtain ⟨d, hd, hsound⟩ := hnow
    obtain rfl := some.inj hd
    have htext : (c.binlogFlush io).2.binlogText = linesText s.lines := hsound rfl
    rw [hk, hzero.2 hun, take_zero, appendFd_nil, ← hw.text_eq] at htext
    exact hop.1 (append_right_eq_self.1 htext.symm)

end WriterRun

/-- **The writer writes every line once.**  In every run of calls from an empty
directory, the calls are all clean if and only if after each of them the files hold the
lines written so far, each once, whenever its flush returned `LFS_OK`, and would do so
after one more flush whose system calls succeed. -/
theorem writer_exactlyOnce_iff (ops : List WriterOp) :
    Along WriterRun.step (fun s op _ => s.Clean op) WriterRun.init ops ↔
      Along WriterRun.step (fun _ _ s' => s'.ExactlyOnce ∧ (s'.step (.flush .ok)).ExactlyOnce)
        WriterRun.init ops := by
  refine Along.iff_of_inv' WriterRun.inv_init ?_ ?_
  · intro s op hinv
    constructor
    · intro hop
      obtain ⟨hinv', hsound⟩ := hinv.step hop
      exact ⟨hsound, hinv'.exactlyOnce_flush_ok⟩
    · rintro ⟨hnow, hnext⟩
      exact hinv.clean_of_exactlyOnce hnow hnext
  · intro s op hinv hop
    exact (hinv.step hop).1

/-- A flush whose `write` transfers one byte of two, and then one that succeeds. -/
def shortWriteThenFlush : List WriterOp :=
  [.write ⟨[97, 10], by decide⟩ .ok, .flush { FlushIo.ok with write := .short 1 }, .flush .ok]

/-- The second flush of `shortWriteThenFlush` returns `LFS_OK` and leaves a torn record in
front of the line. -/
theorem shortWriteThenFlush_not_exactlyOnce :
    ¬ Along WriterRun.step (fun _ _ s' => s'.ExactlyOnce) WriterRun.init shortWriteThenFlush := by
  decide

/-! ### Whatever the system calls do -/

/-- Each of the lines stands in the text as a whole, one after the other. -/
def Contains (text : List Byte) (lines : List CString) : Prop :=
  ∃ segs : List (List Byte), segs.flatten = text ∧ (lines.map CString.bytes).Sublist segs

/-- No line is divided between the files and the cache. -/
structure BinlogCtx.Keeps (c : BinlogCtx) (lines : List CString) : Prop where
  writes : ∃ text, c.Writes text
  kept : ∃ segs cached : List (List Byte), segs.flatten = c.binlogText ∧ cached.flatten = c.wcacheBuff ∧
    (lines.map CString.bytes).Sublist (segs ++ cached)

variable {c : BinlogCtx} {lines : List CString}

lemma BinlogCtx.Keeps.contains (h : c.Keeps lines) : Contains (c.binlogText ++ c.wcacheBuff) lines := by
  obtain ⟨segs, cached, hsegs, hcached, hsub⟩ := h.kept
  exact ⟨segs ++ cached, by rw [flatten_append, hsegs, hcached], hsub⟩

lemma BinlogCtx.Keeps.binlogFlush (h : c.Keeps lines) (io : FlushIo) :
    (c.binlogFlush io).2.Keeps lines ∧
      ((c.binlogFlush io).1 = lfsOk → (c.binlogFlush io).2.wcacheBuff = []) := by
  obtain ⟨text, hw⟩ := h.writes
  obtain ⟨segs, cached, hsegs, hcached, hsub⟩ := h.kept
  by_cases hnil : c.wcacheBuff = []
  · rw [binlogFlush_of_nil hnil]
    exact ⟨h, fun _ => hnil⟩
  by_cases hdone : c.Complete io
  · have hf := binlogFlush_of_complete hnil hdone
    have hw' := hw.flushed hdone.1 hf
    have htext : (c.binlogFlush io).2.binlogText = text := by simpa [hf.cache] using hw'.text_eq
    refine ⟨⟨⟨_, hw'⟩, segs ++ cached, [], ?_, hf.cache.symm, by simpa using hsub⟩, fun _ => hf.cache⟩
    rw [flatten_append, hsegs, hcached, hw.text_eq, htext]
  · obtain ⟨k, hk, hzero⟩ := binlogFlush_of_not_complete hnil hdone
    rw [hk]
    refine ⟨?_, fun hret => absurd (show lfsError = lfsOk from hret) (by decide)⟩
    by_cases hfd : c.binlogFd = none
    · rw [hzero.2 (.inl hfd), take_zero, appendFd_nil]
      exact h
    -- the torn part stands between the lines of the files and those of the cache
    have hcurr := hw.fd_eq hfd
    refine ⟨⟨_, ?_, ?_, rfl⟩, segs ++ [c.wcacheBuff.take k], cached, ?_, ?_, hsub.trans (by simp)⟩
    · rw [appendFd_some hcurr]
      exact hw.fd
    · intro i hi
      rw [appendFd_some hcurr] at hi ⊢
      simpa [Function.update_of_ne (ne_of_gt hi)] using hw.beyond i hi
    · rw [binlogText_appendFd hcurr, flatten_append, hsegs, flatten_singleton]
    · rw [appendFd_some hcurr]
      exact hcached

lemma WriterRun.keeps_step {s : WriterRun} (h : ∀ c ∈ s.ctx, c.Keeps s.lines) (op : WriterOp) :
    ∀ c ∈ (s.step op).ctx, c.Keeps (s.step op).lines := by
  cases hs : s.ctx with
  | none => cases op <;> simp [step, hs]
  | some c =>
    have hc := h c hs
    cases op with
    | write line io =>
      by_cases hfit : c.wcacheBuff.length + line.bytes.length + 1 ≤ binlogCacheBufferSize
      · obtain ⟨⟨text, hw⟩, segs, cached, hsegs, hcached, hsub⟩ := hc
        have hnew : BinlogCtx.Keeps { c with wcacheBuff := c.wcacheBuff ++ line.bytes } (s.lines ++ [line]) :=
          ⟨⟨_, hw.fd, hw.beyond, rfl⟩, segs, cached ++ [line.bytes], hsegs, by simp [hcached],
            by simpa [← append_assoc] using hsub.append_right [line.bytes]⟩
        rw [step_write hs hfit]
        split_ifs <;> rintro _ ⟨⟩
        exacts [(hnew.binlogFlush io).1, hnew]
      · have hover : c.appendCache line = none := if_neg hfit
        simp [step, hs, binlogWriteLocked, hover]
    | flush io => simpa [step, hs] using (hc.binlogFlush io).1
    | lockFlush io => simpa [step, hs, binlogLockFlush] using (hc.binlogFlush io).1

/-- **No line is lost.**  Whatever the system calls do, the files with the cache after them contain every
line written so far, and so do the files alone after a flush that returns `LFS_OK`. -/
theorem writer_atLeastOnce (ops : List WriterOp) (hc : (run WriterRun.step .init ops).ctx = some c) :
    Contains (c.binlogText ++ c.wcacheBuff) (run WriterRun.step .init ops).lines ∧
    ∀ io, (c.binlogFlush io).1 = lfsOk →
      Contains (c.binlogFlush io).2.binlogText (run WriterRun.step .init ops).lines := by
  have hinit : ∀ c ∈ WriterRun.init.ctx, c.Keeps WriterRun.init.lines := by
    obtain ⟨_, ⟨⟩, hw⟩ := WriterRun.inv_init
    rintro _ ⟨⟩
    exact ⟨⟨_, hw⟩, [], [], rfl, rfl, .slnil⟩
  have hkeeps := Along.run_inv (I := fun s : WriterRun => ∀ c ∈ s.ctx, c.Keeps s.lines) hinit
    (fun _ op h => WriterRun.keeps_step h op) c hc
  refine ⟨hkeeps.contains, fun io hok => ?_⟩
  obtain ⟨hflushed, hcache⟩ := hkeeps.binlogFlush io
  simpa [hcache hok] using hflushed.contains

/-- After the short write, the line stands in the cache. -/
theorem writer_atLeastOnce_shortWrite :
    ∃ c, (run WriterRun.step .init (shortWriteThenFlush.take 2)).ctx = some c ∧
      Contains (c.binlogText ++ c.wcacheBuff) [⟨[97, 10], by decide⟩] :=
  ⟨_, rfl, (writer_atLeastOnce (shortWriteThenFlush.take 2) rfl).1⟩

end Lfs.Binlog
