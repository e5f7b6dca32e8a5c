/-
A request to a dataserver, and what the server does with it.

A request is well formed if it fits into the read buffer and, for the two commands that bring a
file, if the size in the body is the number of bytes that follow it.  The other four commands bring
no file.
-/
import Lfs.Server.Serving

namespace Lfs.Server

open Lfs.Lib Lfs.Binlog List

structure Request where
  cmd : Cmd
  /-- `header_s.state`. -/
  state : Byte
  /-- The end of `protocol_header`. -/
  padding : List Byte
  padding_length : padding.length = 6
  body : List Byte
  file : List Byte
deriving DecidableEq

lemma length_zeroPadding : (List.replicate 6 (0 : Byte)).length = 6 := rfl

namespace Request

variable {r : Request} {rsize : ℕ}

/-- The `protocol_header` of a request. -/
def header (r : Request) : List Byte :=
  toLittleEndian 8 r.body.length ++ r.cmd.toByte :: r.state :: r.padding

def bytes (r : Request) : List Byte := r.header ++ (r.body ++ r.file)

/-- `n` bytes at an offset of the body; after its end the read buffer is zero. -/
def field (offset n : ℕ) (r : Request) : List Byte :=
  (r.body.drop offset ++ List.replicate n 0).take n

/-- The command announces a file that follows the body. -/
def HasFile (r : Request) : Prop := r.cmd = .fileUpload ∨ r.cmd = .asyncCopyFile

instance : DecidablePred HasFile := fun r =>
  inferInstanceAs (Decidable (r.cmd = .fileUpload ∨ r.cmd = .asyncCopyFile))

/-- The length of the file id in an `ASYNC_COPY_FILE` request. -/
def fIdLength (r : Request) : ℕ := (Int.bmod (buff2long (r.field 8 8)) (2 ^ 32)).toNat

/-- The number of file bytes that a request announces. -/
def announcedSize (r : Request) : ℤ :=
  match r.cmd with
  | .fileUpload => buff2long (r.field 128 8)
  | .asyncCopyFile => buff2long (r.field (16 + r.fIdLength) 8)
  | _ => 0

/-- A well-formed request for a server with a read buffer of `rsize` bytes. -/
structure WellFormed (rsize : ℕ) (r : Request) : Prop where
  fits : headerSize + r.body.length ≤ rsize
  file : r.announcedSize = r.file.length
  fileId : r.cmd = .asyncCopyFile → (splitBlockIndexByFileId (cstr (r.field 16 r.fIdLength))).isSome

instance : Decidable (r.WellFormed rsize) :=
  decidable_of_iff
    (headerSize + r.body.length ≤ rsize ∧ r.announcedSize = r.file.length ∧
      (r.cmd = .asyncCopyFile → (splitBlockIndexByFileId (cstr (r.field 16 r.fIdLength))).isSome))
    ⟨fun ⟨h1, h2, h3⟩ => ⟨h1, h2, h3⟩, fun h => ⟨h.1, h.2, h.3⟩⟩

/-- A download that the server begins to send. -/
def Accepted (r : Request) : Prop :=
  r.cmd = .fileDownload ∧ 0 ≤ buff2long (r.field 0 8) ∧ 0 < buff2long (r.field 8 8) ∧
    ¬ (buff2long (r.field 0 8) ≠ 0 ∧ buff2long (r.field 0 8) ≤ buff2long (r.field 8 8))

instance : DecidablePred Accepted := fun r =>
  inferInstanceAs (Decidable (_ ∧ _ ∧ _ ∧ ¬ (_ ∧ buff2long (r.field 0 8) ≤ _)))

lemma length_header (r : Request) : r.header.length = headerSize := by
  simp [header, length_toLittleEndian, r.padding_length, headerSize]

lemma announced_header (h : r.body.length < 2 ^ 31) (x : List Byte) :
    Conn.announced (r.header ++ x) = r.body.length := by
  have h8 : 8 ≤ (toLittleEndian 8 r.body.length).length := (length_toLittleEndian _ _).ge
  rw [Conn.announced, header, append_assoc, append_assoc,
    take_append_of_le_length h8, take_of_length_le (length_toLittleEndian _ _).le,
    littleEndian_toLittleEndian, Nat.mod_eq_of_lt (by omega)]

lemma getD_header (x : List Byte) : (r.header ++ x).getD 8 0 = r.cmd.toByte := by
  have h8 := length_toLittleEndian 8 r.body.length
  rw [header, append_assoc, getD_eq_getElem?_getD, getElem?_append_right h8.le, h8]
  rfl

lemma WellFormed.file_length (h : r.WellFormed rsize) (hfile : ¬ r.HasFile) :
    r.file.length = 0 := by
  have hannounced := h.file
  cases hcmd : r.cmd with
  | fileUpload => exact absurd (.inl hcmd) hfile
  | asyncCopyFile => exact absurd (.inr hcmd) hfile
  | fileDownload | fullSyncGetMasterBinlogMete | fullSyncCopyMasterBinlog |
    fullSyncCopyMasterData =>
    rw [announcedSize, hcmd] at hannounced
    have hzero : (r.file.length : ℤ) = 0 := hannounced.symm
    exact_mod_cast hzero

lemma Accepted.not_hasFile (h : r.Accepted) : ¬ r.HasFile := by
  rw [HasFile, h.1]
  decide

/-- What the server makes of a request. -/
def entry (r : Request) : Byte × List Byte := (r.cmd.toByte, r.body)

/-- The files that the server stores for a request if it takes `file` for the file. -/
def stores (r : Request) (file : List Byte) : List (List Byte) := if r.HasFile then [file] else []

end Request

namespace Conn

variable {b c : Conn} {r : Request} {buf rest : List Byte} {segs : List (List Byte)} {env : StepEnv}

/-! ### Reading a request -/

lemma next_parsing : (b.parsing buf segs).next =
    (b.parsing buf segs).parseProtocolCmd (.ok .nio) := next_of_running rfl rfl rfl

lemma next_parsing_short (hheader : headerSize ≤ buf.length)
    (hlt : buf.length < headerSize + announced buf) :
    (b.parsing buf segs).next = b.reading true .none .waiting buf segs := by
  have hrbytes : (b.parsing buf segs).rbytes = buf.length := rfl
  have hlen : (b.parsing buf segs).bodyLen = announced buf := bodyLen_reading
  rw [next_parsing, parseProtocolCmd, if_neg (by omega), if_neg (by omega)]
  rfl

lemma parsing_waits (hheader : headerSize ≤ buf.length)
    (hlt : buf.length < headerSize + announced buf) :
    Reaches next (b.parsing buf segs) (b.idle buf segs) :=
  .head (next_parsing_short hheader hlt) (.step next_waiting)

/-- No byte that belongs to the body of `n` bytes is read as one of the header, unless more of the
body is to come. -/
def HeaderClean (n : ℕ) (segs : List (List Byte)) : Prop :=
  HeaderExact segs ∨ ahead headerSize segs < n

instance {n : ℕ} : Decidable (HeaderClean n segs) := inferInstanceAs (Decidable (_ ∨ _))

lemma headerSize_le (hsegs : segs.flatten = r.header ++ rest) :
    headerSize ≤ segs.flatten.length := by
  rw [hsegs, length_append, r.length_header]
  exact Nat.le_add_right _ _

section

variable (hr : r.WellFormed b.rsize) (hmax : r.body.length ≤ maxPackageDataSize)
    (hsegs : segs.flatten = r.header ++ (r.body ++ rest))
include hr hmax hsegs

lemma body_rest {k : ℕ} {later : List (List Byte)}
    (hk : k < r.body.length) (hflatten : later.flatten = segs.flatten.drop (headerSize + k)) :
    Reaches next (b.idle (segs.flatten.take (headerSize + k)) later)
      (b.parsing (r.header ++ r.body) (advance (r.body.length - k) later)) := by
  have hheader := r.length_header
  have hlen : segs.flatten.length = headerSize + r.body.length + rest.length := by
    rw [hsegs, length_append, length_append, hheader, add_assoc]
  have hthere : segs.flatten.take (headerSize + k) = r.header ++ r.body.take k := by
    rw [hsegs, ← hheader, take_length_add_append, take_append_of_le_length hk.le]
  have hannounced : announced (segs.flatten.take (headerSize + k)) = r.body.length := by
    rw [hthere]
    exact Request.announced_header (lt_of_le_of_lt hmax (by decide)) _
  have hlength : (segs.flatten.take (headerSize + k)).length = headerSize + k := by
    rw [length_take]
    omega
  have hmissing : BodyMissing b (segs.flatten.take (headerSize + k)) (r.body.length - k) := by
    refine ⟨?_, ?_, by omega, by omega, by omega⟩
    · rw [hannounced]
      exact hmax
    · rw [hannounced]
      exact hr.fits
  have hwhole : segs.flatten.take (headerSize + k) ++ later.flatten.take (r.body.length - k) =
      r.header ++ r.body := by
    rw [hflatten, ← take_add, show headerSize + k + (r.body.length - k) =
      headerSize + r.body.length by omega, hsegs, ← hheader, take_length_add_append,
      take_left]
  have hlater : r.body.length - k ≤ later.flatten.length := by
    rw [hflatten, length_drop]
    omega
  have hread := body_read hmissing hlater
  rwa [hwhole] at hread

lemma request_parsed (hclean : HeaderClean r.body.length segs) : Reaches next (b.idle [] segs)
      (b.parsing (r.header ++ r.body) (advance (headerSize + r.body.length) segs)) := by
  have hheader := r.length_header
  have hlen : headerSize ≤ segs.flatten.length := headerSize_le hsegs
  obtain ⟨hexact, hover⟩ := header_read (b := b) hlen
  by_cases h : HeaderExact segs
  · have hthere : segs.flatten.take headerSize = r.header := by
      rw [hsegs]
      exact take_left' hheader
    have hparsing := hexact h
    rcases eq_zero_or_pos r.body.length with hzero | hpos
    · rw [hthere] at hparsing
      rw [hzero, length_eq_zero_iff.1 hzero, append_nil]
      exact hparsing
    · have hrest := body_rest hr hmax hsegs hpos (flatten_advance headerSize segs)
      rw [Nat.sub_zero, advance_advance] at hrest
      refine hparsing.trans ((parsing_waits ?_ ?_).trans hrest)
      · rw [hthere, hheader]
      · rw [hthere, hheader, ← append_nil r.header,
          Request.announced_header (lt_of_le_of_lt hmax (by decide))]
        omega
  · -- the end of the header has taken a part of the body along
    have hk : ahead headerSize segs < r.body.length := hclean.resolve_left h
    obtain ⟨later, hlater, hreach⟩ := hover h
    have hflatten : later.flatten = segs.flatten.drop (headerSize + ahead headerSize segs) := by
      rw [← flatten_advance, hlater]
      rfl
    have hrest := body_rest hr hmax hsegs hk hflatten
    rw [← advance_nil_cons (by omega), ← hlater, advance_advance,
      show headerSize + ahead headerSize segs + (r.body.length - ahead headerSize segs) =
        headerSize + r.body.length by omega] at hrest
    exact hreach.trans hrest

end

/-- A header of which the last segment reaches the end of the body. -/
lemma request_overread (hbody : r.body.length < 2 ^ 31) (hsegs : segs.flatten = r.header ++ rest)
    (h : ¬ HeaderClean r.body.length segs) :
    ∃ c, Reaches next (b.idle [] segs) c ∧ c.Overread ∧ c.dispatched = b.dispatched := by
  obtain ⟨hsplit, hall⟩ := not_or.1 h
  have hpos : 0 < ahead headerSize segs := pos_of_ne_zero fun hzero => hsplit (.inr hzero)
  have hheader := r.length_header
  have hlen : headerSize ≤ segs.flatten.length := headerSize_le hsegs
  have hinside := add_ahead_le hlen
  obtain ⟨later, -, hreach⟩ := (header_read (b := b) hlen).2 hsplit
  have hlength : (segs.flatten.take (headerSize + ahead headerSize segs)).length =
      headerSize + ahead headerSize segs := by
    rw [length_take]
    omega
  have hrbytes : (b.idle (segs.flatten.take (headerSize + ahead headerSize segs)) later).rbytes =
      headerSize + ahead headerSize segs := hlength
  have hbodyLen : (b.idle (segs.flatten.take (headerSize + ahead headerSize segs)) later).bodyLen =
      r.body.length := by
    rw [idle, bodyLen_reading, hsegs, ← hheader, take_length_add_append]
    exact Request.announced_header hbody _
  refine ⟨_, hreach, ⟨rfl, rfl, rfl, ?_, ?_, le_rfl, ?_, .inl ⟨rfl, .inl rfl⟩⟩, rfl⟩
  · omega
  · omega
  · rw [hbodyLen]
    exact hbody

/-- A connection with a body that is too large is closed when more of it comes. -/
lemma idle_oversize (hheader : headerSize ≤ buf.length) (hmax : maxPackageDataSize < announced buf)
    (hbody : announced buf < 2 ^ 31) (segs : List (List Byte)) :
    ∃ u, Settles next (b.idle buf segs) u ∧ u.dispatched = b.dispatched ∧ u.stored = b.stored := by
  induction segs with
  | nil => exact ⟨b.idle buf [], ⟨.refl _ _, next_idle_nil⟩, rfl, rfl⟩
  | cons s segs ih =>
    rcases eq_or_ne s [] with rfl | hs
    · obtain ⟨u, hu, hframe⟩ := ih
      exact ⟨u, (settles_iff_of_reaches idle_skip).2 hu, hframe⟩
    · have hlen : (b.reading true .none .read buf (s :: segs)).bodyLen = announced buf :=
        bodyLen_reading
      have hread : (b.reading true .none .read buf (s :: segs)).next = _ := next_read
      rw [networkRead_of_overflow hheader (by rw [bodyLenInt_eq (by omega)]; omega)] at hread
      have hdead : Dead (Conn.connClose (networkReadEnd .softError
          ((b.reading true .none .read buf (s :: segs)).respHeader .errorPackagesizeOverflow))) :=
        ⟨rfl, rfl, rfl, rfl⟩
      exact ⟨_, ⟨.head (next_idle hs) (.head hread (.step rfl)), hdead.next⟩, rfl, rfl⟩

lemma request_oversize (hmax : maxPackageDataSize < r.body.length) (hbody : r.body.length < 2 ^ 31)
    (hsegs : segs.flatten = r.header ++ rest) :
    ∃ u, Settles next (b.idle [] segs) u ∧ u.dispatched = b.dispatched ∧ u.stored = b.stored := by
  have hheader := r.length_header
  have hlen : headerSize ≤ segs.flatten.length := headerSize_le hsegs
  have hannounced (k : ℕ) : announced (segs.flatten.take (headerSize + k)) = r.body.length := by
    rw [hsegs, ← hheader, take_length_add_append]
    exact Request.announced_header hbody _
  have hlength (k : ℕ) : headerSize ≤ (segs.flatten.take (headerSize + k)).length := by
    rw [length_take]
    omega
  -- however the header ends, it is kept and the connection waits
  have hwaits : ∃ k later,
      Reaches next (b.idle [] segs) (b.idle (segs.flatten.take (headerSize + k)) later) := by
    obtain ⟨hexact, hover⟩ := header_read (b := b) hlen
    by_cases h : HeaderExact segs
    · have hzero : announced (segs.flatten.take headerSize) = r.body.length := hannounced 0
      refine ⟨0, advance headerSize segs, (hexact h).trans (parsing_waits (hlength 0) ?_)⟩
      rw [hzero, length_take]
      omega
    · obtain ⟨later, -, hreach⟩ := hover h
      exact ⟨ahead headerSize segs, later, hreach⟩
  obtain ⟨k, later, hreach⟩ := hwaits
  obtain ⟨u, hu, hframe⟩ := idle_oversize (b := b) (hlength k)
    (by rw [hannounced]; exact hmax) (by rw [hannounced]; exact hbody) later
  exact ⟨u, (settles_iff_of_reaches hreach).2 hu, hframe⟩

/-- The connection `b` with the header and the body of `r` received. -/
def received (b : Conn) (r : Request) : Conn :=
  { b with
    rbuff := r.header ++ r.body
    rcurr := headerSize
    rbytes := r.body.length
    allocCount := 0
    wbytes := 0
    wused := 0
    dispatched := b.dispatched ++ [r.entry] }

/-- The connection `b` at the handler of `r`. -/
def handling (b : Conn) (r : Request) (segs : List (List Byte)) : Conn :=
  (b.received r).serving .parseCmd .read segs

lemma next_parsing_whole (hbody : r.body.length < 2 ^ 31) :
    (b.parsing (r.header ++ r.body) segs).next = (b.handling r segs).dispatchCmd (.ok .nio) := by
  have hheader := r.length_header
  have hrbytes : (b.parsing (r.header ++ r.body) segs).rbytes = headerSize + r.body.length := by
    rw [← hheader, ← length_append]
    rfl
  have hlen : (b.parsing (r.header ++ r.body) segs).bodyLen = r.body.length :=
    bodyLen_reading.trans (Request.announced_header hbody _)
  have hcmd : (b.parsing (r.header ++ r.body) segs).cmd = r.cmd.toByte := Request.getD_header _
  have hbytes : (b.parsing (r.header ++ r.body) segs).bytesAt headerSize r.body.length = r.body := by
    show (((r.header ++ r.body).drop headerSize ++ _).take r.body.length) = r.body
    rw [drop_left' hheader, take_left]
  rw [next_parsing, parseProtocolCmd, if_neg (by omega), if_pos (by omega), hlen, hcmd, hbytes,
    hrbytes, Nat.add_sub_cancel_left]
  rfl

lemma field_handling (offset n : ℕ) : (b.handling r segs).field offset n = r.field offset n := by
  show ((r.header ++ r.body).drop (headerSize + offset) ++ _).take n = _
  rw [← drop_drop, drop_left' r.length_header]
  rfl

lemma dispatchCmd_handling : (b.handling r segs).dispatchCmd env =
      if ((b.handling r segs).handleCmd env r.cmd).2 = .success then
        ((b.handling r segs).handleCmd env r.cmd).1
      else
        ((b.handling r segs).handleCmd env r.cmd).1.handleProtocolError
          ((b.handling r segs).handleCmd env r.cmd).2 := by
  have hcmd : (b.handling r segs).cmd = r.cmd.toByte := Request.getD_header _
  rw [dispatchCmd, hcmd, Cmd.ofByte_toByte]

lemma dispatchCmd_error {fctx : Option FileCtx} {status : RespStatus}
    (h : (b.handling r segs).handleCmd env r.cmd = ({ b.handling r segs with fctx := fctx }, status))
    (hstatus : status ≠ .success) :
    Finishes (b.received r) ((b.handling r segs).dispatchCmd env) [] segs := by
  rw [dispatchCmd_handling, h, if_neg hstatus]
  exact serving_write (b := { (b.received r).respHeader status with fctx := fctx })

lemma dispatchCmd_success (h : (b.handling r segs).handleCmd env r.cmd = (c, .success)) :
    (b.handling r segs).dispatchCmd env = c := by
  rw [dispatchCmd_handling, h, if_pos rfl]

lemma dispatchCmd_sendFile (size offset : ℤ) (h : (b.handling r segs).handleCmd env r.cmd =
      ((b.handling r segs).sendFile size offset, .success)) :
    Finishes (b.received r) ((b.handling r segs).dispatchCmd env) [] segs := by
  rw [dispatchCmd_success h]
  exact serving_mwrite_fsend (b := (b.received r).sendFile size offset) rfl

lemma dispatch_download (hcmd : r.cmd = .fileDownload) (hrejected : ¬ r.Accepted) :
    Finishes (b.received r) ((b.handling r segs).dispatchCmd (.ok .nio)) [] segs := by
  have hhandle : (b.handling r segs).handleCmd (.ok .nio) r.cmd =
      (b.handling r segs).handleCmdFiledownload (.ok .nio) := by rw [hcmd]; rfl
  rw [handleCmdFiledownload] at hhandle
  simp only [field_handling] at hhandle
  split_ifs at hhandle with hnew hoffset hsize hrange
  · exact absurd hnew (by decide)
  · exact dispatchCmd_error hhandle (by decide)
  · exact dispatchCmd_error hhandle (by decide)
  · exact dispatchCmd_error hhandle (by decide)
  · exact absurd ⟨hcmd, not_lt.1 hoffset, not_le.1 hsize, hrange⟩ hrejected

lemma dispatch_copymasterbinlog (hcmd : r.cmd = .fullSyncCopyMasterBinlog) :
    Finishes (b.received r) ((b.handling r segs).dispatchCmd (.ok .nio)) [] segs := by
  have hhandle : (b.handling r segs).handleCmd (.ok .nio) r.cmd =
      (b.handling r segs).handleCmdCopymasterbinlog (.ok .nio) := by rw [hcmd]; rfl
  rw [handleCmdCopymasterbinlog] at hhandle
  split_ifs at hhandle with htype hnew
  · exact dispatchCmd_error hhandle (by decide)
  · exact absurd hnew (by decide)
  · exact dispatchCmd_sendFile _ _ hhandle

lemma dispatch_noFile (hfile : ¬ r.HasFile) (hrejected : ¬ r.Accepted) :
    Finishes (b.received r) ((b.handling r segs).dispatchCmd (.ok .nio)) [] segs := by
  cases hcmd : r.cmd with
  | fileUpload => exact absurd (.inl hcmd) hfile
  | asyncCopyFile => exact absurd (.inr hcmd) hfile
  | fileDownload => exact dispatch_download hcmd hrejected
  | fullSyncGetMasterBinlogMete =>
    have hhandle := congrArg ((b.handling r segs).handleCmd (.ok .nio)) hcmd
    rw [dispatchCmd_success hhandle]
    exact serving_write (b := { b.received r with wbytes := headerSize + 8, wstate := .success })
  | fullSyncCopyMasterBinlog => exact dispatch_copymasterbinlog hcmd
  | fullSyncCopyMasterData =>
    have hhandle := congrArg ((b.handling r segs).handleCmd (.ok .nio)) hcmd
    exact dispatchCmd_sendFile _ 0 hhandle

/-- An accepted download is the last thing that happens to its connection. -/
lemma dispatch_accepted (h : r.Accepted) (b : Conn) (segs : List (List Byte)) :
    ∃ u, Settles next ((b.handling r segs).dispatchCmd (.ok .nio)) u ∧
      u.dispatched = (b.received r).dispatched ∧ u.stored = b.stored := by
  obtain ⟨hcmd, hoffset, hsize, hrange⟩ := h
  have hhandle : (b.handling r segs).handleCmd (.ok .nio) r.cmd =
      (b.handling r segs).handleCmdFiledownload (.ok .nio) := by rw [hcmd]; rfl
  rw [handleCmdFiledownload] at hhandle
  simp only [field_handling] at hhandle
  rw [if_neg (by decide), if_neg (not_lt.2 hoffset), if_neg (not_le.2 hsize), if_neg hrange]
    at hhandle
  -- the download starts after the acknowledgement
  have hack := next_serving_mwrite
    { (b.received r).handleProtocolAck .mwrite .n2dio with
      fctx := some
        { FileCtx.fileCtxNew with fSize := buff2long (r.field 8 8), job := .download } } .read segs
  obtain ⟨u, hu, hdispatched, hstored⟩ := download_settles
    (b := Conn.connWriteReset
      { (b.received r).handleProtocolAck .mwrite .n2dio with
        fctx := some
          { FileCtx.fileCtxNew with fSize := buff2long (r.field 8 8), job := .download } })
    rfl rfl rfl rfl .read segs
  rw [dispatchCmd_success hhandle]
  exact ⟨u, (settles_iff_of_reaches (.step hack)).2 hu, hdispatched, hstored⟩

/-- The file context of a `FILE_UPLOAD` request before the first byte of its file. -/
def uploadCtx (size total : ℤ) : FileCtx :=
  { FileCtx.fileCtxNew with fSize := size, fTotalSize := total, job := .upload }

lemma dispatch_upload (hcmd : r.cmd = .fileUpload) (b : Conn) (segs : List (List Byte)) :
    (b.handling r segs).dispatchCmd (.ok .nio) =
      { b.received r with
        fctx := some (uploadCtx (buff2long (r.field 128 8)) (buff2long (r.field 136 8)))
      }.fileAt true segs := by
  have hhandle : (b.handling r segs).handleCmd (.ok .nio) r.cmd =
      (b.handling r segs).handleCmdFileupload (.ok .nio) := by rw [hcmd]; rfl
  rw [handleCmdFileupload] at hhandle
  simp only [field_handling] at hhandle
  rw [if_neg (by decide), if_neg (by decide)] at hhandle
  rw [dispatchCmd_success hhandle]
  generalize buff2long (r.field 128 8) = size
  generalize buff2long (r.field 136 8) = total
  rfl

/-- The connection `b` at the first byte of the file of `r`. -/
lemma dispatch_file {rsize : ℕ} (hr : r.WellFormed rsize) (hfile : r.HasFile) (b : Conn)
    (segs : List (List Byte)) :
    ∃ f : FileCtx, (f.job = .upload ∨ f.job = .asyncCopy) ∧ f.buffReset = f ∧
      f.fSize = r.file.length ∧ f.fOffset = 0 ∧ f.file = [] ∧
      (b.handling r segs).dispatchCmd (.ok .nio) =
        { b.received r with fctx := some f }.fileAt true segs := by
  have hannounced := hr.file
  rcases hfile with hcmd | hcmd
  · simp only [Request.announcedSize, hcmd] at hannounced
    have hdispatch := dispatch_upload hcmd b segs
    generalize buff2long (r.field 128 8) = size at hannounced hdispatch
    generalize buff2long (r.field 136 8) = total at hdispatch
    exact ⟨uploadCtx size total, .inl rfl, rfl, hannounced, rfl, rfl, hdispatch⟩
  · have hhandle : (b.handling r segs).handleCmd (.ok .nio) r.cmd =
        (b.handling r segs).handleCmdAsynccopyfile (.ok .nio) := by rw [hcmd]; rfl
    have hfields : (b.handling r segs).asyncCopyFields =
        (cstr (r.field 16 r.fIdLength), buff2long (r.field (16 + r.fIdLength) 8)) := by
      unfold asyncCopyFields
      simp only [field_handling]
      rfl
    have hsplit := hr.fileId hcmd
    rw [handleCmdAsynccopyfile, hfields] at hhandle
    dsimp only at hhandle
    rw [if_neg (by decide), if_neg (by simpa [Option.isSome_iff_ne_none] using hsplit)] at hhandle
    rw [Request.announcedSize, hcmd] at hannounced
    generalize buff2long (r.field (16 + r.fIdLength) 8) = size at hhandle hannounced
    exact ⟨_, .inr rfl, rfl, hannounced, rfl, rfl, dispatchCmd_success hhandle⟩

/-- **Serving a request.**  A request that is not an accepted download is finished.  Its file is
what it announces if and only if a segment ends with the file or the buffer is full there. -/
lemma request_served (hr : r.WellFormed b.rsize) (hrejected : ¬ r.Accepted)
    (hlen : r.file.length ≤ segs.flatten.length) :
    ∃ m, (m = r.file.length ↔ FileExact r.file.length segs) ∧
      (r.HasFile → m ≤ segs.flatten.length) ∧
      Finishes (b.received r) ((b.handling r segs).dispatchCmd (.ok .nio))
        (r.stores (segs.flatten.take m)) (advance m segs) := by
  by_cases hfile : r.HasFile
  · obtain ⟨f, hjob, hreset, hsize, hoffset, hempty, hdispatch⟩ :=
      dispatch_file hr hfile b segs
    obtain ⟨m, hm, -, hmlen, hfinishes⟩ :=
      (file_reads (b := { b.received r with fctx := some f }) rfl hjob hreset hsize hoffset
        hlen).ends hjob
    rw [hempty, nil_append] at hfinishes
    refine ⟨m, hm, fun _ => hmlen, ?_⟩
    rw [hdispatch, Request.stores, if_pos hfile]
    exact hfinishes
  · have hnone : r.file.length = 0 := hr.file_length hfile
    refine ⟨0, iff_of_true hnone.symm (hnone ▸ fileExact_zero), fun h => absurd h hfile, ?_⟩
    rw [Request.stores, if_neg hfile, advance_zero]
    exact dispatch_noFile hfile hrejected

end Conn

end Lfs.Server
