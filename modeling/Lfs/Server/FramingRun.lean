/-
Whether a dataserver serves the same requests however the kernel cuts their stream.

A header of which the last segment reaches the end of the body is never dispatched, and a file
that does not end with its segment, or where the buffer of the file is full, is stored with bytes
of the next request.  All other streams of well-formed requests are served as they were sent.
-/
import Lfs.Server.Request

namespace Lfs.Server

open Lfs.Lib Conn List

variable {b c : Conn} {r : Request} {rs : List Request} {segs : List (List Byte)}

def stream (rs : List Request) : List Byte := rs.flatMap Request.bytes

/-- Every header, body and file is delivered in a segment of its own. -/
def whole (rs : List Request) : List (List Byte) := rs.flatMap fun r => [r.header, r.body, r.file]

/-- The requests that a server dispatches if it reads them as they were sent: it closes the
connection on a body that is too large, and it loses the connection after a download. -/
def served : List Request → List Request
  | [] => []
  | r :: rs =>
    if maxPackageDataSize < r.body.length then []
    else if r.Accepted then [r]
    else r :: served rs

/-- No header is read past its body, and no file past its end. -/
def Clean : List Request → List (List Byte) → Prop
  | [], _ => True
  | r :: rs, segs =>
    HeaderClean r.body.length segs ∧
    FileExact r.file.length (advance (headerSize + r.body.length) segs) ∧
    Clean rs (advance (headerSize + r.body.length + r.file.length) segs)

instance : (rs : List Request) → (segs : List (List Byte)) → Decidable (Clean rs segs)
  | [], _ => .isTrue trivial
  | _ :: rs, _ => @instDecidableAnd _ _ _ (@instDecidableAnd _ _ _ (instDecidableClean rs _))

/-- What has been dispatched and stored when the connection comes to rest. -/
def Outcome (c : Conn) (dispatched : List (Byte × List Byte)) (stored : List (List Byte)) : Prop :=
  ∃ u, Settles next c u ∧ u.dispatched = dispatched ∧ u.stored = stored

section Outcome

variable {dispatched : List (Byte × List Byte)} {stored : List (List Byte)}

lemma outcome_iff_of_reaches {c' : Conn} (h : Reaches next c c') :
    Outcome c dispatched stored ↔ Outcome c' dispatched stored :=
  exists_congr fun _ => and_congr_left' (settles_iff_of_reaches h)

lemma Outcome.dispatched_eq_of_overread (hc : c.Overread) (h : Outcome c dispatched stored) :
    dispatched = c.dispatched := by
  obtain ⟨u, hu, rfl, -⟩ := h
  exact hc.dispatched_eq hu.1

lemma Outcome.stored_mono (h : Outcome c dispatched stored) : c.stored <+: stored := by
  obtain ⟨u, hu, -, rfl⟩ := h
  exact Conn.stored_mono hu.1

lemma Outcome.unique {dispatched' : List (Byte × List Byte)} {stored' : List (List Byte)}
    (h : Outcome c dispatched stored) (h' : Outcome c dispatched' stored') :
    dispatched = dispatched' ∧ stored = stored' := by
  obtain ⟨u, hu, rfl, rfl⟩ := h
  obtain ⟨u', hu', rfl, rfl⟩ := h'
  rw [hu.unique hu']
  exact ⟨rfl, rfl⟩

end Outcome

/-- What the requests of a stream make a server dispatch. -/
def dispatchedOf (rs : List Request) : List (Byte × List Byte) := (served rs).map Request.entry

/-- What the requests of a stream make a server store. -/
def storedOf (rs : List Request) : List (List Byte) :=
  (served rs).flatMap fun r => r.stores r.file

lemma stream_cons (r : Request) (rs : List Request) :
    stream (r :: rs) = r.header ++ (r.body ++ (r.file ++ stream rs)) := by
  simp [stream, Request.bytes]

lemma outcome_nil (h : segs.flatten = []) : Outcome (b.idle [] segs) b.dispatched b.stored := by
  induction segs with
  | nil => exact ⟨b.idle [] [], ⟨.refl _ _, next_idle_nil⟩, rfl, rfl⟩
  | cons s segs ih =>
    obtain ⟨rfl, hsegs⟩ := append_eq_nil_iff.1 h
    exact (outcome_iff_of_reaches idle_skip).2 (ih hsegs)

/-- A file that is read past its end is not stored as it was sent. -/
lemma not_outcome_of_file_ne {m : ℕ} {dispatched : List (Byte × List Byte)}
    {stored later : List (List Byte)} (hfile : r.HasFile) (hlen : m ≤ segs.flatten.length)
    (hne : m ≠ r.file.length)
    (hfinishes : Finishes (b.received r) c (r.stores (segs.flatten.take m)) later) :
    ¬ Outcome c dispatched (b.stored ++ (r.stores r.file ++ stored)) := by
  obtain ⟨b', hreach, -, -, hstored⟩ := hfinishes
  intro h
  have hbefore : b'.stored <+: _ := ((outcome_iff_of_reaches hreach).1 h).stored_mono
  rw [hstored, Request.stores, Request.stores, if_pos hfile, if_pos hfile] at hbefore
  have hfirst : [segs.flatten.take m] <+: [r.file] ++ stored :=
    (prefix_append_right_inj b.stored).1 hbefore
  rw [singleton_append, cons_prefix_cons] at hfirst
  have hlength := congrArg List.length hfirst.1
  rw [length_take] at hlength
  omega

lemma request_dispatched {rest : List Byte} (hr : r.WellFormed b.rsize)
    (hmax : r.body.length ≤ maxPackageDataSize) (hsegs : segs.flatten = r.header ++ (r.body ++ rest))
    (hclean : HeaderClean r.body.length segs) :
    Reaches next (b.idle [] segs)
      ((b.handling r (advance (headerSize + r.body.length) segs)).dispatchCmd (.ok .nio)) := by
  have hbody : r.body.length < 2 ^ 31 := lt_of_le_of_lt hmax (by decide)
  exact (request_parsed hr hmax hsegs hclean).trans (.step (next_parsing_whole hbody))

/-- A request is served, and what comes after it is read from its first byte on, if and only if the
file ends where it should. -/
lemma outcome_request_iff {rest : List Byte} {dispatched : List (Byte × List Byte)}
    {stored : List (List Byte)} {P : Prop} (hr : r.WellFormed b.rsize) (hrejected : ¬ r.Accepted)
    (hsegs : segs.flatten = r.file ++ rest)
    (hnext : ∀ b' : Conn, b'.rsize = b.rsize → b'.dispatched = b.dispatched ++ [r.entry] →
      b'.stored = b.stored ++ r.stores r.file →
      (Outcome (b'.idle [] (advance r.file.length segs)) dispatched
        (b.stored ++ (r.stores r.file ++ stored)) ↔ P)) :
    Outcome ((b.handling r segs).dispatchCmd (.ok .nio)) dispatched
      (b.stored ++ (r.stores r.file ++ stored)) ↔ FileExact r.file.length segs ∧ P := by
  have hlen : r.file.length ≤ segs.flatten.length := by
    rw [hsegs, length_append]
    exact Nat.le_add_right _ _
  obtain ⟨m, hm, hmlen, hfinishes⟩ := request_served hr hrejected hlen
  by_cases hexact : FileExact r.file.length segs
  · obtain rfl := hm.2 hexact
    have htake : segs.flatten.take r.file.length = r.file := by rw [hsegs, take_left]
    obtain ⟨b', hreach, hrsize, hdispatched, hstored⟩ := hfinishes
    rw [htake] at hstored
    rw [and_iff_right hexact, outcome_iff_of_reaches hreach]
    exact hnext b' hrsize hdispatched hstored
  · have hne : m ≠ r.file.length := fun heq => hexact (hm.1 heq)
    have hfile : r.HasFile := by
      by_contra hnone
      rw [hr.file_length hnone] at hexact
      exact hexact fileExact_zero
    exact iff_of_false (not_outcome_of_file_ne hfile (hmlen hfile) hne hfinishes)
      fun h => hexact h.1

lemma outcome_accepted (hr : r.WellFormed b.rsize) (haccepted : r.Accepted)
    (segs : List (List Byte)) :
    Outcome ((b.handling r segs).dispatchCmd (.ok .nio)) (b.dispatched ++ [r.entry])
      (b.stored ++ r.stores r.file) ∧ FileExact r.file.length segs := by
  obtain ⟨u, hu, hdispatched, hstored⟩ := dispatch_accepted haccepted b segs
  have hfile : ¬ r.HasFile := haccepted.not_hasFile
  rw [Request.stores, if_neg hfile, hr.file_length hfile, append_nil]
  exact ⟨⟨u, hu, hdispatched, hstored⟩, fileExact_zero⟩

/-- **Streams of requests.**  A connection dispatches and stores what was sent if and only if the
segments are clean. -/
lemma outcome_iff_clean (hrs : ∀ r ∈ rs, r.WellFormed b.rsize) (hrsize : b.rsize < 2 ^ 31)
    (hsegs : segs.flatten = stream rs) :
    Outcome (b.idle [] segs) (b.dispatched ++ dispatchedOf rs) (b.stored ++ storedOf rs) ↔
      Clean (served rs) segs := by
  induction rs generalizing b segs with
  | nil =>
    simp only [dispatchedOf, storedOf, served, map_nil, flatMap_nil, append_nil]
    exact iff_of_true (outcome_nil hsegs) trivial
  | cons r rs ih =>
    have hr := hrs r mem_cons_self
    have hfits := hr.fits
    have hbody : r.body.length < 2 ^ 31 := by omega
    rw [stream_cons] at hsegs
    rcases lt_or_ge maxPackageDataSize r.body.length with hlarge | hmax
    · obtain ⟨u, hu, hdispatched, hstored⟩ := request_oversize (b := b) hlarge hbody hsegs
      simp only [dispatchedOf, storedOf, served, if_pos hlarge, map_nil, flatMap_nil, append_nil]
      exact iff_of_true ⟨u, hu, hdispatched, hstored⟩ trivial
    have hserved : served (r :: rs) = r :: if r.Accepted then [] else served rs := by
      rw [served, if_neg (not_lt.2 hmax)]
      split_ifs <;> rfl
    by_cases hclean : HeaderClean r.body.length segs
    · have hlater : (advance (headerSize + r.body.length) segs).flatten = r.file ++ stream rs := by
        rw [flatten_advance, hsegs, ← append_assoc]
        exact drop_left' (by rw [length_append, r.length_header])
      rw [outcome_iff_of_reaches (request_dispatched hr hmax hsegs hclean), dispatchedOf, storedOf,
        hserved, map_cons, flatMap_cons, Clean, and_iff_right hclean]
      by_cases haccepted : r.Accepted
      · obtain ⟨houtcome, hfile⟩ := outcome_accepted hr haccepted
          (advance (headerSize + r.body.length) segs)
        rw [if_pos haccepted, map_nil, flatMap_nil, append_nil]
        exact iff_of_true houtcome ⟨hfile, trivial⟩
      · rw [if_neg haccepted]
        refine outcome_request_iff hr haccepted hlater fun b' hrsize hdispatched hstored => ?_
        have hrs' : ∀ r' ∈ rs, r'.WellFormed b'.rsize := by
          intro r' hr'
          rw [hrsize]
          exact hrs r' (mem_cons_of_mem r hr')
        have hlater' : (advance r.file.length
            (advance (headerSize + r.body.length) segs)).flatten = stream rs := by
          rw [flatten_advance, hlater, drop_left]
        have hrest := ih hrs' (by omega) hlater'
        rw [advance_advance] at hrest ⊢
        rw [hdispatched, hstored, append_assoc, append_assoc] at hrest
        exact hrest
    · -- the header was read past the body
      obtain ⟨c, hreach, hover, hc⟩ := request_overread (b := b) hbody hsegs hclean
      refine iff_of_false (fun h => ?_) ?_
      · have hdispatched := ((outcome_iff_of_reaches hreach).1 h).dispatched_eq_of_overread hover
        rw [hc, dispatchedOf, hserved] at hdispatched
        exact absurd hdispatched (by simp)
      · rw [hserved, Clean]
        exact fun h => hclean h.1

/-! ### Delivery in whole pieces -/

lemma clean_nil_cons : Clean rs ([] :: segs) ↔ Clean rs segs := by
  cases rs with
  | nil => exact Iff.rfl
  | cons r rs =>
    have hpos : 0 < headerSize := by decide
    rw [Clean, Clean, HeaderClean, HeaderClean, headerExact_nil_cons, ahead_nil_cons hpos,
      advance_nil_cons (by omega), advance_nil_cons (by omega)]

lemma advance_length_iff {P : List (List Byte) → Prop} (hP : ∀ segs, P ([] :: segs) ↔ P segs)
    (s : List Byte) (segs : List (List Byte)) :
    P (advance s.length ([] :: s :: segs)) ↔ P segs := by
  rcases eq_or_ne s [] with rfl | hs
  · rw [length_nil, advance_zero, hP, hP]
  · rw [advance_nil_cons (length_pos_iff.2 hs), advance_of_le le_rfl, drop_length, hP]

lemma clean_advance_nil_cons {l : ℕ} :
    Clean rs (advance l ([] :: segs)) ↔ Clean rs (advance l segs) := by
  rcases eq_zero_or_pos l with rfl | hpos
  · rw [advance_zero, advance_zero, clean_nil_cons]
  · rw [advance_nil_cons hpos]

lemma clean_cons_whole :
    Clean (r :: rs) (r.header :: r.body :: r.file :: segs) ↔ Clean rs segs := by
  have hheader := r.length_header
  have hexact : HeaderExact (r.header :: r.body :: r.file :: segs) := by
    left
    rw [ahead_of_le (by rw [hheader]; decide), hheader]
    decide
  have hstart : advance (headerSize + r.body.length) (r.header :: r.body :: r.file :: segs) =
      advance r.body.length ([] :: r.body :: r.file :: segs) := by
    rw [← advance_advance, ← hheader, advance_of_le le_rfl, drop_length]
  have hfile : FileExact r.file.length (r.file :: segs) := by
    left
    rw [ahead_of_le le_rfl, Nat.sub_self]
  have hfileIff := advance_length_iff (P := FileExact r.file.length)
    (fun _ => fileExact_nil_cons) r.body (r.file :: segs)
  have hrestIff := advance_length_iff (P := fun segs => Clean rs (advance r.file.length segs))
    (fun _ => clean_advance_nil_cons) r.body (r.file :: segs)
  rw [Clean, HeaderClean, and_iff_right (.inl hexact),
    ← advance_advance (headerSize + r.body.length), hstart, hfileIff, and_iff_right hfile, hrestIff,
    advance_of_le le_rfl, drop_length, clean_nil_cons]

lemma clean_whole (rs : List Request) : Clean (served rs) (whole rs) := by
  induction rs with
  | nil => exact trivial
  | cons r rs ih =>
    have hwhole : whole (r :: rs) = r.header :: r.body :: r.file :: whole rs := rfl
    rw [served, hwhole]
    split_ifs
    · exact trivial
    · exact clean_cons_whole.2 trivial
    · exact clean_cons_whole.2 ih

lemma flatten_whole (rs : List Request) : (whole rs).flatten = stream rs := by
  induction rs with
  | nil => rfl
  | cons r rs ih =>
    have hwhole : whole (r :: rs) = r.header :: r.body :: r.file :: whole rs := rfl
    rw [hwhole, flatten_cons, flatten_cons, flatten_cons, ih, stream_cons]

/-- **Framing and fragmentation.**  The requests of a stream that arrives in the segments `segs` are
dispatched and their files stored as if each header, body and file were delivered whole, if and only
if the segments are clean. -/
theorem framing_whole_iff {rsize : ℕ} (hrs : ∀ r ∈ rs, r.WellFormed rsize) (hrsize : rsize < 2 ^ 31)
    (hsegs : segs.flatten = stream rs) :
    (∃ dispatched stored, Outcome (connNew rsize (delivered segs)) dispatched stored ∧
      Outcome (connNew rsize (delivered (whole rs))) dispatched stored) ↔
      Clean (served rs) segs := by
  have hiff (segs : List (List Byte)) (hsegs : segs.flatten = stream rs) :
      Outcome (connNew rsize (delivered segs)) (dispatchedOf rs) (storedOf rs) ↔
        Clean (served rs) segs := outcome_iff_clean (b := connNew rsize []) hrs hrsize hsegs
  have hwhole : Outcome (connNew rsize (delivered (whole rs))) (dispatchedOf rs) (storedOf rs) :=
    (hiff (whole rs) (flatten_whole rs)).2 (clean_whole rs)
  constructor
  · rintro ⟨dispatched, stored, hsegs', hwhole'⟩
    obtain ⟨rfl, rfl⟩ := hwhole'.unique hwhole
    exact (hiff segs hsegs).1 hsegs'
  · intro hclean
    exact ⟨dispatchedOf rs, storedOf rs, (hiff segs hsegs).2 hclean, hwhole⟩

def uploadRequest : Request where
  cmd := .fileUpload
  state := 0
  padding := replicate 6 0
  padding_length := length_zeroPadding
  body := replicate 135 0 ++ 2 :: replicate 7 0 ++ [2]
  file := [0x61, 0x62]

/-- A request for the state of the binlog, which has no body. -/
def meteRequest : Request where
  cmd := .fullSyncGetMasterBinlogMete
  state := 0
  padding := replicate 6 0
  padding_length := length_zeroPadding
  body := []
  file := []

/-- Segments that end inside headers, a body and a file: 5 bytes of a header, 11 more with 20 bytes of
the body, the other 124 bytes, the two bytes of the file, and a header in two parts. -/
def cutUpload : List (List Byte) :=
  let bytes := stream [uploadRequest, meteRequest]
  [bytes.take 5, (bytes.drop 5).take 31, (bytes.drop 36).take 124, (bytes.drop 160).take 1,
    (bytes.drop 161).take 1, (bytes.drop 162).take 3, bytes.drop 165]

theorem framing_whole_cutUpload :
    ∃ dispatched stored, Outcome (connNew 1024 (delivered cutUpload)) dispatched stored ∧
      Outcome (connNew 1024 (delivered (whole [uploadRequest, meteRequest]))) dispatched stored :=
  (framing_whole_iff (by decide +kernel) (by decide) (by decide +kernel)).2 (by decide +kernel)

/-- Two requests without a body, the second one in a segment with the end of the first header: none
is ever dispatched. -/
theorem cutHeader_not_whole : (∀ r ∈ [meteRequest, meteRequest], r.WellFormed 1024) ∧
    [meteRequest.header.take 10, meteRequest.header.drop 10 ++ meteRequest.header].flatten =
      stream [meteRequest, meteRequest] ∧
    ¬ ∃ dispatched stored,
      Outcome (connNew 1024 (delivered
        [meteRequest.header.take 10, meteRequest.header.drop 10 ++ meteRequest.header]))
        dispatched stored ∧
      Outcome (connNew 1024 (delivered (whole [meteRequest, meteRequest]))) dispatched stored := by
  refine ⟨by decide +kernel, by decide +kernel, ?_⟩
  rintro ⟨dispatched, stored, hcut, hwhole⟩
  -- both connections have come to rest after 40 steps
  have hcut' : Outcome (connNew 1024 (delivered
      [meteRequest.header.take 10, meteRequest.header.drop 10 ++ meteRequest.header])) [] [] :=
    ⟨next^[40] _, ⟨⟨40, rfl⟩, by decide +kernel⟩, by decide +kernel, by decide +kernel⟩
  have hwhole' : Outcome (connNew 1024 (delivered (whole [meteRequest, meteRequest])))
      [meteRequest.entry, meteRequest.entry] [] :=
    ⟨next^[40] _, ⟨⟨40, rfl⟩, by decide +kernel⟩, by decide +kernel, by decide +kernel⟩
  have hnone := (hcut.unique hcut').1
  have htwo := (hwhole.unique hwhole').1
  exact absurd (hnone.symm.trans htwo) (by simp)

end Lfs.Server
