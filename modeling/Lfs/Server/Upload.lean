/-
A file that is uploaded in several parts.

A client may send a file as several `FILE_UPLOAD` requests, each with the length of its part and
the length of the whole file: `file_upload_done_callback` acknowledges a part while `f_total_offset`
has not reached `f_total_size`, and answers with the id of the file when it has.  But the context
that counts `f_total_offset` is made anew by every request.
-/
import Lfs.Server.FramingRun

namespace Lfs.Server

open Lfs.Lib Lfs.Binlog Conn List Request

variable {b c : Conn} {r : Request} {rs : List Request} {segs : List (List Byte)} {f : FileCtx}

/-- A response of the server: its status, and the file behind the file id, if there is one. -/
structure Reply where
  status : RespStatus
  file : Option (List Byte)
deriving DecidableEq

namespace Conn

/-- The response in `wbuff`.  A file id is a body after the header, and it is the id of the file
in `fctx`. -/
def reply (c : Conn) : Reply where
  status := c.wstate
  file := if c.wbytes = headerSize then none else c.fctx.map FileCtx.file

/-- The nio thread is about to write the response. -/
def Writing (c : Conn) : Prop := c.running = true ∧ c.loop = .none ∧ c.state = .write

instance : DecidablePred Writing := fun c =>
  inferInstanceAs (Decidable (c.running = true ∧ c.loop = .none ∧ c.state = .write))

/-- The response `a` is for the request that brings the number of completed files to `i + 1`.  Three
steps after a dio thread has completed it the nio thread writes the response. -/
def Answered (c : Conn) (i : ℕ) (a : Reply) : Prop :=
  ∃ u, Reaches next c u ∧ u.stored.length = i ∧ u.next.stored.length = i + 1 ∧
    (next^[3] u).Writing ∧ (next^[3] u).reply = a

lemma Answered.of_reaches {c' : Conn} {i : ℕ} {a : Reply} (h : Reaches next c c')
    (hc' : c'.Answered i a) : c.Answered i a := by
  obtain ⟨u, hreach, hu⟩ := hc'
  exact ⟨u, h.trans hreach, hu⟩

lemma eq_of_completes {u v : Conn} {i : ℕ} (huv : Reaches next u v)
    (hu : u.next.stored.length = i + 1) (hv : v.stored.length = i) : u = v := by
  obtain ⟨n, rfl⟩ := huv
  cases n with
  | zero => rfl
  | succ n =>
    have hmono := (stored_mono (c := u.next) ⟨n, rfl⟩).length_le
    rw [Function.iterate_succ_apply] at hv
    omega

lemma Answered.unique {i : ℕ} {a a' : Reply} (h : c.Answered i a) (h' : c.Answered i a') :
    a = a' := by
  obtain ⟨u, hreach, hi, hnext, -, rfl⟩ := h
  obtain ⟨u', hreach', hi', hnext', -, rfl⟩ := h'
  rcases hreach.total hreach' with huu' | hu'u
  · rw [eq_of_completes huu' hnext hi']
  · rw [eq_of_completes hu'u hnext' hi]

/-- The connection `b` after `file_upload_done_callback` for a part that is complete. -/
def uploadDone (b : Conn) (f : FileCtx) : Conn :=
  if f.fTotalSize ≤ f.fTotalOffset then
    { b with fctx := some f, wbytes := headerSize + 256, wstate := .success }
  else { b.respHeader .success with fctx := some f.reset }

@[simp] lemma stored_uploadDone : (b.uploadDone f).stored = b.stored := by
  unfold uploadDone
  split_ifs <;> rfl

@[simp] lemma rsize_uploadDone : (b.uploadDone f).rsize = b.rsize := by
  unfold uploadDone
  split_ifs <;> rfl

lemma reply_uploadDone (segs : List (List Byte)) :
    ((b.uploadDone f).serving .write .write segs).reply =
      ⟨.success, if f.fTotalSize ≤ f.fTotalOffset then some f.file else none⟩ := by
  unfold uploadDone
  split_ifs <;> rfl

lemma next_queued_uploadDone (hf : b.fctx = some f) (hjob : f.job = .upload)
    (hdone : f.written.fSize ≤ f.written.fOffset) (segs : List (List Byte)) :
    (b.queued .read segs).next =
      ({ b with stored := b.stored ++ [f.written.file] }.uploadDone f.written).notified .write .write
        segs := by
  have hjob' : f.written.job = .upload := hjob
  rw [next_queued_write hf (.inl hjob), dioWrite]
  simp only [if_neg (not_lt.2 hdone)]
  show Conn.writeDoneCallback _ _ _ _ = _
  rw [writeDoneCallback, if_pos hjob', fileUploadDoneCallback, if_neg (by decide), uploadDone]
  by_cases htotal : f.written.fTotalSize ≤ f.written.fTotalOffset
  · rw [if_pos htotal, if_pos htotal]
    rfl
  · rw [if_neg htotal, if_pos hdone, if_neg htotal]
    rfl

end Conn

/-! ### One part -/

namespace Request

/-- `file_total_size` of a `FILE_UPLOAD` request. -/
def totalSize (r : Request) : ℤ := buff2long (r.field 136 8)

def answer (r : Request) : Reply where
  status := .success
  file := if r.totalSize ≤ r.file.length then some r.file else none

end Request

section

variable {rest : List Byte} (hr : r.WellFormed b.rsize) (hcmd : r.cmd = .fileUpload)
    (hmax : r.body.length ≤ maxPackageDataSize)
    (hsegs : segs.flatten = r.header ++ (r.body ++ (r.file ++ rest)))
    (hheader : HeaderClean r.body.length segs)
    (hexact : FileExact r.file.length (advance (headerSize + r.body.length) segs))
include hr hcmd hmax hsegs hheader hexact

/-- A part that is read as it was sent comes to the queue of the dio thread, with its last piece in the
buffer. -/
lemma part_queued :
    ∃ g, LastPiece (uploadCtx (buff2long (r.field 128 8)) (buff2long (r.field 136 8))) g r.file ∧
      Reaches next (b.idle [] segs) ({ b.received r with fctx := some g }.queued .read
        (advance (headerSize + r.body.length + r.file.length) segs)) := by
  have hlater : (advance (headerSize + r.body.length) segs).flatten = r.file ++ rest := by
    rw [flatten_advance, hsegs, ← append_assoc]
    exact drop_left' (by rw [length_append, r.length_header])
  have hannounced := hr.file
  simp only [announcedSize, hcmd] at hannounced
  have hdispatch := dispatch_upload hcmd b (advance (headerSize + r.body.length) segs)
  generalize buff2long (r.field 128 8) = size at hannounced hdispatch ⊢
  generalize buff2long (r.field 136 8) = total at hdispatch ⊢
  have hlen : r.file.length ≤ (advance (headerSize + r.body.length) segs).flatten.length := by
    rw [hlater, length_append]
    exact Nat.le_add_right _ _
  obtain ⟨m, g, hm, -, -, hlast, hreach⟩ :=
    file_reads (b := { b.received r with fctx := some (uploadCtx size total) })
      rfl (.inl rfl) rfl hannounced rfl hlen
  obtain rfl := hm.2 hexact
  rw [hlater, take_left] at hlast
  have hqueued := ((request_dispatched hr hmax hsegs hheader).trans (hdispatch ▸ hreach)).trans
    (.step (next_serving_n2dio rfl .read _))
  rw [advance_advance] at hqueued
  exact ⟨g, hlast, hqueued⟩

/-- A part that is read as it was sent is answered, and the connection waits for what comes after
it. -/
lemma part_answered : (b.idle [] segs).Answered b.stored.length r.answer ∧
    ∃ b' : Conn, Reaches next (b.idle [] segs)
        (b'.idle [] (advance (headerSize + r.body.length + r.file.length) segs)) ∧
      b'.rsize = b.rsize ∧ b'.stored.length = b.stored.length + 1 := by
  obtain ⟨g, hlast, hqueued⟩ := part_queued hr hcmd hmax hsegs hheader hexact
  have hanswer : r.answer =
      ⟨.success, if buff2long (r.field 136 8) ≤ r.file.length then some r.file else none⟩ := rfl
  generalize buff2long (r.field 128 8) = size at hlast
  generalize buff2long (r.field 136 8) = total at hlast hanswer
  have hfile : g.written.file = r.file := hlast.file
  have htotal : g.written.fTotalOffset = r.file.length := by
    rw [hlast.totalOffset]
    exact zero_add _
  have htotalSize : g.written.fTotalSize = total := hlast.totalSize
  set later := advance (headerSize + r.body.length + r.file.length) segs
  have hdone := next_queued_uploadDone (b := { b.received r with fctx := some g }) rfl hlast.job
    hlast.done later
  set e : Conn := { b.received r with fctx := some g, stored := b.stored ++ [g.written.file] }
  have hlength : (e.uploadDone g.written).stored.length = b.stored.length + 1 := by
    rw [stored_uploadDone, length_append, length_singleton]
  have hwrite : next^[3] ({ b.received r with fctx := some g }.queued .read later) =
      (e.uploadDone g.written).serving .write .write later := by
    rw [Function.iterate_succ_apply, hdone]
    rfl
  refine ⟨⟨_, hqueued, rfl, ?_, ?_, ?_⟩, ?_⟩
  · rw [hdone]
    exact hlength
  · rw [hwrite]
    exact ⟨rfl, rfl, rfl⟩
  · rw [hwrite, reply_uploadDone, hanswer, hfile, htotal, htotalSize]
  · have hfinishes : Finishes (e.uploadDone g.written)
        ((e.uploadDone g.written).serving .write .write later) [] later := serving_write
    obtain ⟨b', hreach', hrsize, -, hstored⟩ := hfinishes
    refine ⟨b', hqueued.trans (Reaches.trans ⟨3, hwrite⟩ hreach'), ?_, ?_⟩
    · exact hrsize.trans rsize_uploadDone
    · rw [hstored, append_nil, hlength]

end

/-! ### All parts -/

/-- A `FILE_UPLOAD` request with a part of a file of `total` bytes. -/
structure Request.PartOf (rsize total : ℕ) (r : Request) : Prop where
  wellFormed : r.WellFormed rsize
  cmd : r.cmd = .fileUpload
  body : r.body.length ≤ maxPackageDataSize
  total : r.totalSize = total

section Parts

variable {rsize total : ℕ}

lemma served_eq_self (hrs : ∀ r ∈ rs, r.PartOf rsize total) : served rs = rs := by
  induction rs with
  | nil => rfl
  | cons r rs ih =>
    have hr := hrs r mem_cons_self
    have haccepted : ¬ r.Accepted := fun h => absurd (hr.cmd.symm.trans h.1) (by decide)
    rw [served, if_neg (not_lt.2 hr.body), if_neg haccepted,
      ih fun r' hr' => hrs r' (mem_cons_of_mem r hr')]

/-- Every part is dispatched and its bytes are stored, if and only if the segments are clean. -/
lemma outcome_parts_iff (hrs : ∀ r ∈ rs, r.PartOf rsize total) (hrsize : rsize < 2 ^ 31)
    (hsegs : segs.flatten = stream rs) :
    Outcome (connNew rsize (delivered segs)) (rs.map Request.entry) (rs.map Request.file) ↔
      Clean rs segs := by
  have hserved := served_eq_self hrs
  have hstored : storedOf rs = rs.map file := by
    rw [storedOf, hserved]
    clear hsegs hserved
    induction rs with
    | nil => rfl
    | cons r rs ih =>
      have hfile : r.HasFile := .inl (hrs r mem_cons_self).cmd
      rw [flatMap_cons, ih fun r' hr' => hrs r' (mem_cons_of_mem r hr'), stores,
        if_pos hfile, map_cons, singleton_append]
  have hiff := outcome_iff_clean (b := connNew rsize []) (fun r hr => (hrs r hr).wellFormed) hrsize
    hsegs
  rw [hstored, dispatchedOf, hserved] at hiff
  exact hiff

/-- **Answers to the parts.**  The part with the index `i` is answered as if it were the only one. -/
lemma parts_answered (hrs : ∀ r ∈ rs, r.PartOf b.rsize total) (hsegs : segs.flatten = stream rs)
    (hclean : Clean rs segs) {i : ℕ} (hi : rs[i]? = some r) :
    (b.idle [] segs).Answered (b.stored.length + i) r.answer := by
  induction rs generalizing b segs i with
  | nil => simp at hi
  | cons r' rs ih =>
    have hr' := hrs r' mem_cons_self
    rw [stream_cons] at hsegs
    obtain ⟨hheader, hfile, hrest⟩ := hclean
    obtain ⟨hanswered, b', hreach, hrsize, hstored⟩ :=
      part_answered hr'.wellFormed hr'.cmd hr'.body hsegs hheader hfile
    cases i with
    | zero =>
      obtain rfl : r' = r := by simpa using hi
      exact hanswered
    | succ i =>
      have hsegs' : (advance (headerSize + r'.body.length + r'.file.length) segs).flatten =
          stream rs := by
        rw [flatten_advance, hsegs, ← append_assoc, ← append_assoc]
        exact drop_left' (by rw [length_append, length_append, r'.length_header])
      have hanswered' := ih (b := b') (fun r hr => hrsize ▸ hrs r (mem_cons_of_mem r' hr))
        hsegs' hrest (by simpa using hi)
      rw [hstored, add_assoc b.stored.length, add_comm 1 i] at hanswered'
      exact hanswered'.of_reaches hreach

end Parts

/-- A file is uploaded as it should be: each part is received, the parts before the last one are
acknowledged, and the last one is answered with the id of a file that holds all the parts. -/
structure Uploaded (c : Conn) (parts : List Request) (last : Request) : Prop where
  received :
    Outcome c ((parts ++ [last]).map Request.entry) ((parts ++ [last]).map Request.file)
  acknowledged : ∀ i < parts.length, c.Answered i ⟨.success, none⟩
  complete :
    c.Answered parts.length ⟨.success, some ((parts ++ [last]).flatMap Request.file)⟩

lemma answer_eq_none_iff {rsize total : ℕ} (hr : r.PartOf rsize total) :
    r.answer = ⟨.success, none⟩ ↔ r.file.length < total := by
  rw [answer, hr.total, Reply.mk.injEq, and_iff_right rfl, ite_eq_right_iff]
  simp

lemma answer_eq_some_iff {rsize total : ℕ} {file : List Byte} (hr : r.PartOf rsize total) :
    r.answer = ⟨.success, some file⟩ ↔ total ≤ r.file.length ∧ r.file = file := by
  rw [answer, hr.total, Reply.mk.injEq, and_iff_right rfl]
  by_cases h : total ≤ r.file.length
  · rw [if_pos (Nat.cast_le.2 h), Option.some.injEq, and_iff_right h]
  · rw [if_neg (Nat.cast_le.not.2 h)]
    exact iff_of_false (by simp) fun hle => h hle.1

/-- **Uploads in several parts.**  A file is uploaded as it should be if and only if its segments are
clean and either it is sent in one part, or it is not empty and all of it is in the last part. -/
theorem multipart_upload_iff {rsize : ℕ} {parts : List Request} {last : Request}
    (hparts : ∀ r ∈ parts ++ [last], r.PartOf rsize ((parts ++ [last]).flatMap Request.file).length)
    (hrsize : rsize < 2 ^ 31) (hsegs : segs.flatten = stream (parts ++ [last])) :
    Uploaded (connNew rsize (delivered segs)) parts last ↔ Clean (parts ++ [last]) segs ∧
        (parts = [] ∨ last.file ≠ [] ∧ ∀ r ∈ parts, r.file = []) := by
  have hreceived := outcome_parts_iff hparts hrsize hsegs
  have hlength : ((parts ++ [last]).flatMap file).length =
      (parts.flatMap file).length + last.file.length := by
    rw [flatMap_append, flatMap_singleton, length_append]
  have hanswered (hclean : Clean (parts ++ [last]) segs) {i : ℕ} {r : Request}
      (hi : (parts ++ [last])[i]? = some r) :
      (connNew rsize (delivered segs)).Answered i r.answer := by
    have h : (connNew rsize (delivered segs)).Answered (0 + i) r.answer :=
      parts_answered (b := connNew rsize []) hparts hsegs hclean hi
    rwa [zero_add] at h
  have hlastIndex : (parts ++ [last])[parts.length]? = some last := by simp
  have hlast := hparts last (by simp)
  constructor
  · rintro ⟨hout, hack, hcomplete⟩
    have hclean := hreceived.1 hout
    obtain ⟨hle, -⟩ := (answer_eq_some_iff hlast).1 ((hanswered hclean hlastIndex).unique hcomplete)
    have hempty : parts.flatMap file = [] := length_eq_zero_iff.1 (by omega)
    refine ⟨hclean, or_iff_not_imp_left.2 fun hne => ⟨?_, ?_⟩⟩
    · -- the first part is shorter than the file
      obtain ⟨r, rs, rfl⟩ := exists_cons_of_ne_nil hne
      have hfirst := (hanswered hclean (i := 0) (r := r) rfl).unique (hack 0 (Nat.succ_pos _))
      have hlt := (answer_eq_none_iff (hparts r (by simp))).1 hfirst
      intro hnil
      rw [hlength, hempty, hnil] at hlt
      exact absurd hlt (by simp)
    · exact fun r hr => flatMap_eq_nil_iff.1 hempty r hr
  · rintro ⟨hclean, hcond⟩
    have hfile : parts.flatMap file = [] := by
      rcases hcond with rfl | ⟨-, hempty⟩
      · rfl
      · exact flatMap_eq_nil_iff.2 hempty
    refine ⟨hreceived.2 hclean, fun i hi => ?_, ?_⟩
    · rcases hcond with rfl | ⟨hne, hempty⟩
      · exact absurd hi (Nat.not_lt_zero i)
      · have hpos := length_pos_iff.2 hne
        have hlt : parts[i].file.length < ((parts ++ [last]).flatMap file).length := by
          rw [hempty _ (getElem_mem hi), hlength, length_nil]
          omega
        have hindex : (parts ++ [last])[i]? = some parts[i] := by
          rw [getElem?_append_left hi, getElem?_eq_getElem hi]
        rw [← (answer_eq_none_iff (hparts parts[i] (mem_of_getElem? hindex))).2 hlt]
        exact hanswered hclean hindex
    · have hwhole : last.file = (parts ++ [last]).flatMap file := by
        rw [flatMap_append, flatMap_singleton, hfile, nil_append]
      rw [← (answer_eq_some_iff hlast).2 ⟨(congrArg List.length hwhole).ge, hwhole⟩]
      exact hanswered hclean hlastIndex

instance {rsize total : ℕ} : Decidable (r.PartOf rsize total) :=
  decidable_of_iff
    (r.WellFormed rsize ∧ r.cmd = .fileUpload ∧ r.body.length ≤ maxPackageDataSize ∧
      r.totalSize = total)
    ⟨fun ⟨h1, h2, h3, h4⟩ => ⟨h1, h2, h3, h4⟩, fun h => ⟨h.1, h.2, h.3, h.4⟩⟩

/-- A part of a file of `total` bytes, both lengths below 256. -/
def partRequest (total : Byte) (file : List Byte) : Request where
  cmd := .fileUpload
  state := 0
  padding := replicate 6 0
  padding_length := length_zeroPadding
  body := replicate 135 0 ++ UInt8.ofNat file.length :: replicate 7 0 ++ [total]
  file := file

/-- A file of two bytes after a part that is empty. -/
theorem multipart_upload_emptyPart :
    Uploaded (connNew 1024 (delivered (whole [partRequest 2 [], partRequest 2 [0x61, 0x62]])))
      [partRequest 2 []] (partRequest 2 [0x61, 0x62]) :=
  (multipart_upload_iff (by decide +kernel) (by decide) (by decide +kernel)).2
    ⟨by decide +kernel, by decide +kernel⟩

/-- A file of two bytes in two parts of one byte: both parts are acknowledged, and no file id is
sent. -/
theorem twoParts_not_uploaded :
    (∀ r ∈ [partRequest 2 [0x61], partRequest 2 [0x62]], r.PartOf 1024 2) ∧
    Clean [partRequest 2 [0x61], partRequest 2 [0x62]]
      (whole [partRequest 2 [0x61], partRequest 2 [0x62]]) ∧
    ¬ Uploaded (connNew 1024 (delivered (whole [partRequest 2 [0x61], partRequest 2 [0x62]])))
      [partRequest 2 [0x61]] (partRequest 2 [0x62]) := by
  refine ⟨by decide +kernel, by decide +kernel, ?_⟩
  rintro ⟨-, -, hcomplete⟩
  -- the dio thread completes the second part in the step after the 41st
  have hanswered : (connNew 1024 (delivered
      (whole [partRequest 2 [0x61], partRequest 2 [0x62]]))).Answered 1 ⟨.success, none⟩ :=
    ⟨next^[41] _, ⟨41, rfl⟩, by decide +kernel, by decide +kernel, by decide +kernel,
      by decide +kernel⟩
  exact absurd (hanswered.unique hcomplete) (by simp)

end Lfs.Server
