/-
The buffers of a snapshot: the one of 96 bytes in which `__snapshot_flush` makes a line of eleven columns,
and the one into which `__snapshot_data_load` reads it.

The loader splits a line in place, into pointers of which it keeps eleven from line to line.  It accepts
a line of eleven columns and also one of three, for which only the first three pointers are set.
-/
import Lfs.Base.InPlace
import Lfs.Tracker.SnapshotLoad

namespace Lfs.Tracker

open Lfs.Lib List Option DatasevrBlock

/-! ### The line buffer of the flush -/

def lfsVolumeNameLenSize : ℕ := 16

/-- The size of `buff` in `__snapshot_flush`. -/
def flushBuffSize : ℕ := lfsVolumeNameLenSize + ipAddressSize + 64

/-- The size of `sline` in `__snapshot_data_load`. -/
def slineSize : ℕ := 256

def dottedAddress (o₁ o₂ o₃ o₄ : UInt8) : List Byte :=
  intercalate [46] [decimal o₁.toNat, decimal o₂.toNat, decimal o₃.toNat, decimal o₄.toNat]

lemma length_dottedAddress (o₁ o₂ o₃ o₄ : UInt8) :
    (dottedAddress o₁ o₂ o₃ o₄).length < ipAddressSize := by
  have hoctet (o : UInt8) : (decimal o.toNat).length ≤ 3 :=
    length_decimal_le (by decide) (o.toNat_lt.trans (by decide))
  have h₁ := hoctet o₁
  have h₂ := hoctet o₂
  have h₃ := hoctet o₃
  have h₄ := hoctet o₄
  simp only [dottedAddress, intercalate_cons_cons, intercalate_singleton,
    length_append, length_singleton, ipAddressSize]
  omega

/-- A block that `handle_cmd_register` can store. -/
structure Registrable (b : DatasevrBlock) : Prop where
  mapInfo : b.mapInfo.length < lfsDataserverMapInfoSize
  noNul : (0 : Byte) ∉ b.mapInfo
  ipAddr : ∃ o₁ o₂ o₃ o₄, b.ipAddr = dottedAddress o₁ o₂ o₃ o₄
  ints : ∀ z ∈ [b.type, b.port, b.weight, b.heartBeatInterval], -2 ^ 31 ≤ z ∧ z < 2 ^ 31
  longs : ∀ z ∈ [b.regTime, b.startedTime, b.lastSyncSequence], -2 ^ 63 ≤ z ∧ z < 2 ^ 63

lemma Registrable.sized {b : DatasevrBlock} (h : Registrable b) : Sized b := by
  refine ⟨h.mapInfo, ?_, h.ints, h.longs⟩
  obtain ⟨o₁, o₂, o₃, o₄, hip⟩ := h.ipAddr
  rw [hip]
  exact length_dottedAddress o₁ o₂ o₃ o₄

lemma Registrable.register {b : DatasevrBlock} (h : Registrable b) (req : DatasevrRegBodyReq) :
    Registrable (b.register req) := by
  refine ⟨h.mapInfo, h.noNul, h.ipAddr, ?_, h.longs⟩
  intro z hz
  simp only [DatasevrBlock.register, mem_cons, not_mem_nil, or_false] at hz
  rcases hz with rfl | rfl | rfl | rfl
  · exact h.ints _ (by simp)
  · exact h.ints _ (by simp)
  · exact ⟨Int32.le_toInt _, Int32.toInt_lt _⟩
  · exact ⟨Int32.le_toInt _, Int32.toInt_lt _⟩

lemma registrable_ofRegister {req : DatasevrRegBodyReq}
    (hmap : req.mapInfo.length < lfsDataserverMapInfoSize) (hnul : (0 : Byte) ∉ req.mapInfo)
    (hip : ∃ o₁ o₂ o₃ o₄, req.dsIpaddr = dottedAddress o₁ o₂ o₃ o₄) (vid bid : UInt32) :
    Registrable (.ofRegister vid bid req) := by
  refine ⟨hmap, hnul, hip, ?_, ?_⟩
  · intro z hz
    simp only [ofRegister, blockNew, mem_cons, not_mem_nil, or_false] at hz
    rcases hz with rfl | rfl | rfl | rfl
    · decide
    all_goals exact ⟨Int32.le_toInt _, Int32.toInt_lt _⟩
  · intro z hz
    simp only [ofRegister, blockNew, mem_cons, not_mem_nil, or_false] at hz
    rcases hz with rfl | rfl | rfl
    · exact ⟨Int64.le_toInt _, Int64.toInt_lt _⟩
    · exact ⟨Int64.le_toInt _, Int64.toInt_lt _⟩
    · decide

lemma Registrable.syncreport {b : DatasevrBlock} (h : Registrable b) (time : ℤ) (sequence : Int64) :
    Registrable (b.syncreport time sequence.toInt) := by
  refine ⟨h.mapInfo, h.noNul, h.ipAddr, h.ints, ?_⟩
  intro z hz
  simp only [DatasevrBlock.syncreport, mem_cons, not_mem_nil, or_false] at hz
  rcases hz with rfl | rfl | rfl
  · exact h.longs _ (by simp)
  · exact h.longs _ (by simp)
  · exact ⟨Int64.le_toInt _, Int64.toInt_lt _⟩

/-- **The line of a block.**  It fits with its NUL into the buffer of the flush and into the one of the
loader exactly if its columns have at most 84 bytes. -/
theorem snapshotLine_fits_iff {b : DatasevrBlock} (h : Registrable b) :
    ((snapshotLine b).length + 1 ≤ flushBuffSize ∧ (snapshotLine b).length + 1 ≤ slineSize) ↔
      ((snapshotColumns b).map List.length).sum ≤ 84 := by
  have hload : (snapshotLine b).length + 1 ≤ slineSize := h.sized.length_snapshotLine
  rw [and_iff_left hload, length_snapshotLine, flushBuffSize, lfsVolumeNameLenSize, ipAddressSize]
  omega

/-- A server of the volume `name` that registers and then reports a sequence. -/
def reportedBlock (vid bid : UInt32) (name : List Byte) (time : ℤ) (sequence : Int64) :
    DatasevrBlock :=
  let req : DatasevrRegBodyReq :=
    ⟨name, dottedAddress 192 168 100 100, 9988, 1, 30, 1700000000, 1700000000⟩
  ((ofRegister vid bid req).register req).syncreport time sequence.toInt

lemma registrable_reportedBlock {name : List Byte} (hlen : name.length < lfsDataserverMapInfoSize)
    (hnul : (0 : Byte) ∉ name) (vid bid : UInt32) (time : ℤ) (sequence : Int64) :
    Registrable (reportedBlock vid bid name time sequence) :=
  ((registrable_ofRegister hlen hnul ⟨192, 168, 100, 100, rfl⟩ vid bid).register _).syncreport ..

/-- The line of such a server has a number of bytes that is known but for its ids, its name and the
sequence. -/
lemma sum_reportedBlock (vid bid : UInt32) (name : List Byte) (time : ℤ) (sequence : Int64) :
    ((snapshotColumns (reportedBlock vid bid name time sequence)).map List.length).sum =
      (decimal vid.toNat).length + (decimal bid.toNat).length + name.length +
        (decimalInt sequence.toInt).length + 43 := by
  have hint {z : ℤ} {n k : ℕ} (hz : z = n) (hn : (decimal n).length = k) :
      (decimalInt z).length = k := by
    rw [hz]
    exact hn
  have hip : (dottedAddress 192 168 100 100).length = 15 := by
    simp [dottedAddress, decimal, intercalate_cons_cons]
  have htype : (decimalInt 0).length = 1 := hint (n := 0) rfl (by simp [decimal])
  have hport : (decimalInt (9988 : Int32).toInt).length = 4 :=
    hint (n := 9988) (by decide) (by simp [decimal])
  have hweight : (decimalInt (1 : Int32).toInt).length = 1 :=
    hint (n := 1) (by decide) (by simp [decimal])
  have hinterval : (decimalInt (30 : Int32).toInt).length = 2 :=
    hint (n := 30) (by decide) (by simp [decimal])
  have htime : (decimalInt (1700000000 : Int64).toInt).length = 10 :=
    hint (n := 1700000000) (by decide) (by simp [decimal])
  simp only [reportedBlock, DatasevrBlock.syncreport, DatasevrBlock.register, ofRegister,
    blockNew, snapshotColumns, map_cons, map_nil, sum_cons, sum_nil, hip, htype,
    hport, hweight, hinterval, htime]
  omega

/-- A volume with a short name. -/
theorem snapshotLine_fits_short : Registrable (reportedBlock 1 2 [118] 0 7) ∧
      (snapshotLine (reportedBlock 1 2 [118] 0 7)).length + 1 ≤ flushBuffSize ∧
      (snapshotLine (reportedBlock 1 2 [118] 0 7)).length + 1 ≤ slineSize := by
  have hreg : Registrable (reportedBlock 1 2 [118] 0 7) :=
    registrable_reportedBlock (by decide) (by decide) ..
  refine ⟨hreg, (snapshotLine_fits_iff hreg).2 ?_⟩
  rw [sum_reportedBlock, show (7 : Int64).toInt = (7 : ℕ) from by decide]
  simp [decimalInt, decimal]

/-- With a name of 32 bytes the line is too long, whatever the ids are. -/
theorem snapshotLine_overflows : ∃ (name : List Byte) (sequence : Int64), ∀ vid bid time,
      Registrable (reportedBlock vid bid name time sequence) ∧
        ¬ (snapshotLine (reportedBlock vid bid name time sequence)).length + 1 ≤ flushBuffSize := by
  refine ⟨replicate 32 97, 1700000000, fun vid bid time => ⟨?_, ?_⟩⟩
  · exact registrable_reportedBlock (by decide) (by decide) ..
  · have hvid : 0 < (decimal vid.toNat).length := length_pos_iff.2 (decimal_ne_nil _)
    have hbid : 0 < (decimal bid.toNat).length := length_pos_iff.2 (decimal_ne_nil _)
    have hsequence : (decimalInt (1700000000 : Int64).toInt).length = 10 := by
      rw [show (1700000000 : Int64).toInt = (1700000000 : ℕ) from by decide]
      simp [decimalInt, decimal]
    rw [length_snapshotLine, sum_reportedBlock, hsequence, length_replicate, flushBuffSize,
      lfsVolumeNameLenSize, ipAddressSize]
    omega

/-! ### The pointers of the loader -/

/-- A pointer of `fields`: the line for which it was set, and its offset in `sline`. -/
structure FieldPtr where
  line : ℕ
  offset : ℕ
deriving DecidableEq

/-- The pointer that is read while the loader is at a line, `none` if it was never set. -/
structure FieldRead where
  line : ℕ
  ptr : Option FieldPtr
deriving DecidableEq

/-- The variables of `__snapshot_data_load`, the pointers it has read, and the blocks it has inserted,
each with its line. -/
structure LoadState where
  sline : List Byte
  fields : List (Option FieldPtr)
  reads : List FieldRead
  inserted : List (ℕ × DatasevrBlock)

/-- The line buffer after some fields have been trimmed, the pointers that were read, and the strings
that were found there. -/
structure TrimmedFields where
  sline : List Byte
  reads : List (Option FieldPtr)
  values : List (List Byte)

/-- The fields are read and trimmed one after the other.  It ends at a pointer that was never set. -/
def trimFields : List (Option FieldPtr) → List Byte → TrimmedFields
  | [], sline => ⟨sline, [], []⟩
  | none :: _, sline => ⟨sline, [none], []⟩
  | some p :: fields, sline =>
    let r := trimFields fields (trimAt sline p.offset)
    ⟨r.sline, some p :: r.reads, strAt sline p.offset :: r.values⟩

/-- A block is made of the fields and inserted.  This returns also whether the loop goes on: it does not
after a pointer that was never set. -/
def loadBlock (n : ℕ) (s : LoadState) : LoadState × Bool :=
  let t := trimFields s.fields s.sline
  let s := { s with sline := t.sline, reads := s.reads ++ t.reads.map (⟨n, ·⟩) }
  match blockOfFields t.values with
  | none => (s, false)
  | some blk => ({ s with inserted := s.inserted ++ [(n, blk)] }, true)

/-- The body of the loop of `__snapshot_data_load` for the line `n`.  `alloc` says for which lines
`block_new` gets its memory; where it does not, the address in `fields[3]` is logged. -/
def loadLine (alloc : ℕ → Bool) (n : ℕ) (line : List Byte) (s : LoadState) : LoadState × Bool :=
  let sline := memcpyAt s.sline 0 (line ++ [0])
  if sline.head? = some 0 then ({ s with sline := sline }, true)
  else
    let r := splitStrAt batDataSeperator volumeBlockBinlogDatafileds 0 sline
    let fields := r.2.map (fun p => some ⟨n, p⟩) ++ s.fields.drop r.2.length
    let s := { s with sline := r.1, fields := fields }
    if r.2.length ≠ volumeBlockBinlogDatafileds ∧ r.2.length ≠ volumeBlockBinlogDatafileds - 8 then
      (s, false)
    else if alloc n = false then ({ s with reads := s.reads ++ [⟨n, (fields[3]?).join⟩] }, false)
    else loadBlock n s

/-- The loop of `__snapshot_data_load`, from the line `n` on. -/
def loadFields (alloc : ℕ → Bool) : ℕ → List (List Byte) → LoadState → LoadState
  | _, [], s => s
  | n, line :: lines, s =>
    let r := loadLine alloc n line s
    if r.2 = true then loadFields alloc (n + 1) lines r.1 else r.1

/-- `__snapshot_data_load` on a file, with what happened to be in `sline` before. -/
def snapshotFieldsLoad (alloc : ℕ → Bool) (sline : List Byte) (file : List Byte) : LoadState :=
  loadFields alloc 0 (fgetsLines slineSize file)
    ⟨sline, replicate volumeBlockBinlogDatafileds none, [], []⟩

def lineColumns (line : List Byte) : List (List Byte) :=
  splitStr batDataSeperator volumeBlockBinlogDatafileds (cstr line)

/-- The pointers that are read are those of the line, and each block is made of the columns of its
line. -/
structure OwnLine (lines : List (List Byte)) (s : LoadState) : Prop where
  reads : ∀ r ∈ s.reads, ∃ p, r.ptr = some p ∧ p.line = r.line
  inserted : ∀ i ∈ s.inserted, ∃ line, lines[i.1]? = some line ∧
    blockOfFields (lineColumns line) = some i.2

/-- The loader goes on after the line `n`: it is empty, or it has eleven columns and there is memory for
its block. -/
def Passed (alloc : ℕ → Bool) (n : ℕ) (line : List Byte) : Prop :=
  cstr line = [] ∨ (lineColumns line).length = volumeBlockBinlogDatafileds ∧ alloc n = true

/-- The loader comes to no line of three columns, from the line `n` on. -/
def NoShortLine (alloc : ℕ → Bool) (n : ℕ) (lines : List (List Byte)) : Prop :=
  ∀ i line, lines[i]? = some line → (∀ j < i, ∀ l, lines[j]? = some l → Passed alloc (n + j) l) →
    (lineColumns line).length ≠ volumeBlockBinlogDatafileds - 8

/-! ### One line -/

/-- The pointers to the columns of the line `n`. -/
def linePtrs (n : ℕ) (line : List Byte) : List (Option FieldPtr) :=
  (offsets 0 (lineColumns line)).map fun p => some ⟨n, p⟩

variable {alloc : ℕ → Bool} {n : ℕ} {line : List Byte} {lines : List (List Byte)} {s : LoadState}

@[simp] lemma length_linePtrs : (linePtrs n line).length = (lineColumns line).length := by
  rw [linePtrs, length_map, length_offsets]

lemma of_mem_linePtrs {ptr : Option FieldPtr} (h : ptr ∈ linePtrs n line) :
    ∃ p : FieldPtr, ptr = some p ∧ p.line = n := by
  obtain ⟨p, -, rfl⟩ := mem_map.1 h
  exact ⟨⟨n, p⟩, rfl, rfl⟩

lemma length_lineColumns_of_empty (h : cstr line = []) : (lineColumns line).length = 1 := by
  rw [lineColumns, h]
  rfl

lemma exists_fgets (sline line : List Byte) :
    ∃ post, memcpyAt sline 0 (line ++ [0]) = cstr line ++ 0 :: post := by
  rw [memcpyAt, take_zero, nil_append, append_assoc, singleton_append]
  exact exists_cstr_append ..

lemma loadLine_of_ne (alloc : ℕ → Bool) (n : ℕ) (s : LoadState) (h : cstr line ≠ []) :
    ∃ post, loadLine alloc n line s =
    if (lineColumns line).length ≠ volumeBlockBinlogDatafileds ∧
        (lineColumns line).length ≠ volumeBlockBinlogDatafileds - 8 then
      ({ s with
        sline := strings (lineColumns line) ++ post
        fields := linePtrs n line ++ s.fields.drop (lineColumns line).length }, false)
    else if alloc n = false then
      ({ s with
        sline := strings (lineColumns line) ++ post
        fields := linePtrs n line ++ s.fields.drop (lineColumns line).length
        reads := s.reads ++
          [⟨n, ((linePtrs n line ++ s.fields.drop (lineColumns line).length)[3]?).join⟩] }, false)
    else
      loadBlock n { s with
        sline := strings (lineColumns line) ++ post
        fields := linePtrs n line ++ s.fields.drop (lineColumns line).length } := by
  obtain ⟨post, hsline⟩ := exists_fgets s.sline line
  have hhead : ¬ (cstr line ++ 0 :: post).head? = some 0 := by
    cases hcstr : cstr line with
    | nil => exact absurd hcstr h
    | cons b t =>
      have hb : b ∈ cstr line := hcstr ▸ mem_cons_self
      rw [cons_append, head?_cons, some_inj]
      exact ne_of_mem_of_not_mem hb (zero_notMem_cstr line)
  have hsplit := splitStrAt_append (c := batDataSeperator) (n := volumeBlockBinlogDatafileds) [] post
    (by decide) (zero_notMem_cstr line)
  rw [nil_append, nil_append, length_nil, ← lineColumns] at hsplit
  refine ⟨post, ?_⟩
  rw [loadLine, hsline]
  simp only [hhead, if_false, hsplit, length_offsets, linePtrs]

lemma loadLine_of_empty (alloc : ℕ → Bool) (n : ℕ) (s : LoadState) (h : cstr line = []) :
    ∃ sline, loadLine alloc n line s = ({ s with sline := sline }, true) := by
  obtain ⟨post, hsline⟩ := exists_fgets s.sline line
  refine ⟨0 :: post, ?_⟩
  rw [loadLine, hsline, h]
  exact if_pos rfl

lemma trimFields_offsets {cols : List (List Byte)} (hcols : ∀ col ∈ cols, (0 : Byte) ∉ col)
    (pre post : List Byte) :
    (trimFields ((offsets pre.length cols).map fun p => some ⟨n, p⟩)
        (pre ++ strings cols ++ post)).reads =
      (offsets pre.length cols).map (fun p => some ⟨n, p⟩) ∧
    (trimFields ((offsets pre.length cols).map fun p => some ⟨n, p⟩)
        (pre ++ strings cols ++ post)).values = cols := by
  induction cols generalizing pre with
  | nil => exact ⟨rfl, rfl⟩
  | cons col cols ih =>
    obtain ⟨hcol, hcols⟩ := forall_mem_cons.1 hcols
    have hbuf : pre ++ strings (col :: cols) ++ post = pre ++ col ++ 0 :: (strings cols ++ post) := by
      simp
    obtain ⟨junk, htrim, hlen⟩ := trimAt_append pre (strings cols ++ post) hcol
    -- the trimmed column belongs to what is before the next one
    have hpre : pre ++ trim col ++ 0 :: (junk ++ (strings cols ++ post)) =
        (pre ++ trim col ++ 0 :: junk) ++ strings cols ++ post := by simp
    have hoffset : pre.length + col.length + 1 = (pre ++ trim col ++ 0 :: junk).length := by
      simp only [length_append, length_cons]
      omega
    rw [hbuf, offsets, map_cons, trimFields, htrim, hpre, hoffset]
    obtain ⟨hreads, hvalues⟩ := ih hcols (pre ++ trim col ++ 0 :: junk)
    refine ⟨?_, ?_⟩
    · dsimp only
      rw [hreads]
    · dsimp only
      rw [hvalues, strAt_append hcol]

lemma exists_blockOfFields {cols : List (List Byte)} (h : cols.length = volumeBlockBinlogDatafileds) :
    ∃ blk, blockOfFields cols = some blk :=
  match cols, h with
  | [_, _, _, _, _, _, _, _, _, _, _], _ => ⟨_, rfl⟩

/-- The pointers are those of earlier lines. -/
structure Ready (n : ℕ) (s : LoadState) : Prop where
  length : s.fields.length = volumeBlockBinlogDatafileds
  earlier : ∀ p, some p ∈ s.fields → p.line < n

lemma Ready.fields_eq (hs : Ready n s) (h : (lineColumns line).length = volumeBlockBinlogDatafileds) :
    linePtrs n line ++ s.fields.drop (lineColumns line).length = linePtrs n line := by
  rw [drop_of_length_le (hs.length.trans h.symm).le, append_nil]

lemma cstr_ne_nil_of_length (h : (lineColumns line).length ≠ 1) : cstr line ≠ [] := fun hnil =>
  h (length_lineColumns_of_empty hnil)

/-- **A line of eleven columns.**  Its block is made of its columns. -/
lemma loadLine_of_eleven (alloc : ℕ → Bool) (hs : Ready n s)
    (h : (lineColumns line).length = volumeBlockBinlogDatafileds) (halloc : alloc n = true) :
    ∃ sline blk, blockOfFields (lineColumns line) = some blk ∧ loadLine alloc n line s =
        (⟨sline, linePtrs n line, s.reads ++ (linePtrs n line).map (⟨n, ·⟩),
          s.inserted ++ [(n, blk)]⟩, true) := by
  have hne : cstr line ≠ [] := cstr_ne_nil_of_length (by rw [h]; decide)
  obtain ⟨post, hline⟩ := loadLine_of_ne alloc n s hne
  rw [if_neg (by simp [h]), if_neg (by simp [halloc]), hs.fields_eq h] at hline
  have hcols : ∀ col ∈ lineColumns line, (0 : Byte) ∉ col := fun col hcol hmem =>
    zero_notMem_cstr line (mem_of_mem_splitStr hcol hmem)
  obtain ⟨hreads, hvalues⟩ := trimFields_offsets (n := n) hcols [] post
  rw [nil_append, length_nil] at hreads hvalues
  obtain ⟨blk, hblk⟩ := exists_blockOfFields h
  refine ⟨(trimFields (linePtrs n line) (strings (lineColumns line) ++ post)).sline, blk, hblk, ?_⟩
  rw [hline, loadBlock]
  simp only [linePtrs, hreads, hvalues, hblk]

lemma loadLine_of_no_memory (hs : Ready n s)
    (h : (lineColumns line).length = volumeBlockBinlogDatafileds) (halloc : alloc n = false) :
    ∃ sline p, loadLine alloc n line s =
      (⟨sline, linePtrs n line, s.reads ++ [⟨n, some ⟨n, p⟩⟩], s.inserted⟩, false) := by
  have hne : cstr line ≠ [] := cstr_ne_nil_of_length (by rw [h]; decide)
  obtain ⟨post, hline⟩ := loadLine_of_ne alloc n s hne
  rw [if_neg (by simp [h]), if_pos halloc, hs.fields_eq h] at hline
  have hlt : 3 < (linePtrs n line).length := by
    rw [length_linePtrs, h]
    decide
  obtain ⟨p, hp⟩ : ∃ p, (linePtrs n line)[3]? = some (some ⟨n, p⟩) := by
    rw [getElem?_eq_getElem hlt]
    obtain ⟨⟨m, p⟩, hptr, rfl⟩ := of_mem_linePtrs (getElem_mem hlt)
    exact ⟨p, by rw [hptr]⟩
  exact ⟨_, p, by rw [hline, hp]; rfl⟩

lemma loadBlock_reads (n : ℕ) (s : LoadState) :
    (loadBlock n s).1.reads = s.reads ++ (trimFields s.fields s.sline).reads.map (⟨n, ·⟩) := by
  rw [loadBlock]
  cases blockOfFields (trimFields s.fields s.sline).values with
  | none | some blk => rfl

lemma mem_reads_trimFields {a : List (Option FieldPtr)} (hset : ∀ ptr ∈ a, ptr.isSome = true)
    (ptr : Option FieldPtr) (b : List (Option FieldPtr)) (sline : List Byte) :
    ptr ∈ (trimFields (a ++ ptr :: b) sline).reads := by
  induction a generalizing sline with
  | nil =>
    cases ptr with
    | none => exact mem_singleton_self _
    | some p => exact mem_cons_self
  | cons q a ih =>
    obtain ⟨hq, ha⟩ := forall_mem_cons.1 hset
    obtain ⟨q, rfl⟩ := isSome_iff_exists.1 hq
    exact mem_cons_of_mem _ (ih ha _)

/-- **A line of three columns.**  A pointer is read that was not set for it. -/
lemma loadLine_of_three (alloc : ℕ → Bool) (hs : Ready n s)
    (h : (lineColumns line).length = volumeBlockBinlogDatafileds - 8) :
    ∃ r ∈ (loadLine alloc n line s).1.reads, ∀ p, r.ptr = some p → p.line ≠ r.line := by
  have hne : cstr line ≠ [] := cstr_ne_nil_of_length (by rw [h]; decide)
  obtain ⟨post, hline⟩ := loadLine_of_ne alloc n s hne
  rw [if_neg (by simp [h])] at hline
  -- the fourth pointer is one of an earlier line or was never set
  obtain ⟨ptr, b, hdrop⟩ : ∃ ptr b, s.fields.drop (lineColumns line).length = ptr :: b := by
    refine exists_cons_of_ne_nil (ne_nil_of_length_pos ?_)
    rw [length_drop, hs.length, h]
    decide
  have hmem : ptr ∈ s.fields := drop_subset _ _ (hdrop ▸ mem_cons_self)
  have hstale : ∀ p, ptr = some p → p.line ≠ n := fun p hp => (hs.earlier p (hp ▸ hmem)).ne
  rw [hdrop] at hline
  split_ifs at hline with halloc
  · have hget : (linePtrs n line ++ ptr :: b)[3]? = some ptr := by
      have hlen : (linePtrs n line).length = 3 := by
        rw [length_linePtrs, h]
        rfl
      rw [← hlen, getElem?_append_right le_rfl, Nat.sub_self, getElem?_cons_zero]
    refine ⟨⟨n, ptr⟩, ?_, hstale⟩
    rw [hline, hget]
    exact mem_append_right _ (mem_singleton_self _)
  · refine ⟨⟨n, ptr⟩, ?_, hstale⟩
    rw [hline, loadBlock_reads]
    refine mem_append_right _ (mem_map_of_mem ?_)
    refine mem_reads_trimFields (fun q hq => ?_) ptr b _
    obtain ⟨p, rfl, -⟩ := of_mem_linePtrs hq
    rfl

lemma loadLine_of_other (alloc : ℕ → Bool) (n : ℕ) (s : LoadState) (h : cstr line ≠ [])
    (h₁ : (lineColumns line).length ≠ volumeBlockBinlogDatafileds)
    (h₂ : (lineColumns line).length ≠ volumeBlockBinlogDatafileds - 8) :
    ∃ sline fields, loadLine alloc n line s =
      ({ s with sline := sline, fields := fields }, false) := by
  obtain ⟨post, hline⟩ := loadLine_of_ne alloc n s h
  rw [if_pos ⟨h₁, h₂⟩] at hline
  exact ⟨_, _, hline⟩

lemma reads_subset_loadLine : s.reads ⊆ (loadLine alloc n line s).1.reads := by
  by_cases h : cstr line = []
  · obtain ⟨sline, hline⟩ := loadLine_of_empty alloc n s h
    rw [hline]
    exact List.Subset.refl _
  · obtain ⟨post, hline⟩ := loadLine_of_ne alloc n s h
    rw [hline]
    split_ifs
    · exact List.Subset.refl _
    · exact subset_append_left ..
    · rw [loadBlock_reads]
      exact subset_append_left ..

/-! ### The whole file -/

lemma reads_subset_loadFields : s.reads ⊆ (loadFields alloc n lines s).reads := by
  induction lines generalizing n s with
  | nil => exact List.Subset.refl _
  | cons line lines ih =>
    rw [loadFields]
    split_ifs
    · exact List.Subset.trans reads_subset_loadLine ih
    · exact reads_subset_loadLine

lemma noShortLine_cons : NoShortLine alloc n (line :: lines) ↔
    (lineColumns line).length ≠ volumeBlockBinlogDatafileds - 8 ∧
      (Passed alloc n line → NoShortLine alloc (n + 1) lines) := by
  constructor
  · intro h
    refine ⟨h 0 line rfl (by simp), fun hpassed i l hl hbefore => h (i + 1) l hl ?_⟩
    intro j hj l' hl'
    cases j with
    | zero =>
      obtain rfl : line = l' := some.inj hl'
      exact hpassed
    | succ j =>
      rw [← add_assoc, add_right_comm]
      exact hbefore j (by omega) l' hl'
  · rintro ⟨hline, hrest⟩ i l hl hbefore
    cases i with
    | zero =>
      obtain rfl : line = l := some.inj hl
      exact hline
    | succ i =>
      refine hrest (hbefore 0 (by omega) line rfl) i l hl fun j hj l' hl' => ?_
      have hpassed := hbefore (j + 1) (by omega) l' hl'
      rwa [← add_assoc, add_right_comm] at hpassed

lemma ready_linePtrs (h : (lineColumns line).length = volumeBlockBinlogDatafileds)
    (sline : List Byte) (reads : List FieldRead) (inserted : List (ℕ × DatasevrBlock)) :
    Ready (n + 1) ⟨sline, linePtrs n line, reads, inserted⟩ := by
  refine ⟨length_linePtrs.trans h, fun p hp => ?_⟩
  obtain ⟨q, hq, hline⟩ := of_mem_linePtrs hp
  obtain rfl := some.inj hq
  exact hline.trans_lt n.lt_succ_self

lemma Ready.of_skipped (hs : Ready n s) (sline : List Byte) :
    Ready (n + 1) { s with sline := sline } :=
  ⟨hs.length, fun p hp => (hs.earlier p hp).trans n.lt_succ_self⟩

lemma OwnLine.append {ls : List (List Byte)} {sline : List Byte} {fields : List (Option FieldPtr)}
    {reads : List FieldRead} {inserted : List (ℕ × DatasevrBlock)} (h : OwnLine ls s)
    (hreads : ∀ r ∈ reads, ∃ p, r.ptr = some p ∧ p.line = r.line)
    (hinserted : ∀ i ∈ inserted, ∃ line, ls[i.1]? = some line ∧
      blockOfFields (lineColumns line) = some i.2) :
    OwnLine ls ⟨sline, fields, s.reads ++ reads, s.inserted ++ inserted⟩ :=
  ⟨fun r hr => (mem_append.1 hr).elim (h.reads r) (hreads r),
    fun i hi => (mem_append.1 hi).elim (h.inserted i) (hinserted i)⟩

lemma OwnLine.loadFields (before : List (List Byte)) (h : OwnLine (before ++ lines) s)
    (hs : Ready before.length s) (hshort : NoShortLine alloc before.length lines) :
    OwnLine (before ++ lines) (loadFields alloc before.length lines s) := by
  induction lines generalizing before s with
  | nil => exact h
  | cons line lines ih =>
    obtain ⟨hline, hrest⟩ := noShortLine_cons.1 hshort
    have happend : before ++ line :: lines = (before ++ [line]) ++ lines := by simp
    have hlen : (before ++ [line]).length = before.length + 1 := by simp
    have hget : (before ++ line :: lines)[before.length]? = some line := by
      rw [getElem?_append_right le_rfl, Nat.sub_self, getElem?_cons_zero]
    have hown {ptr : Option FieldPtr} (hptr : ptr ∈ linePtrs before.length line) :
        ∃ p, ptr = some p ∧ p.line = before.length := of_mem_linePtrs hptr
    rw [Tracker.loadFields]
    by_cases hempty : cstr line = []
    · obtain ⟨sline, hload⟩ := loadLine_of_empty alloc before.length s hempty
      rw [hload, if_pos rfl, happend, ← hlen]
      rw [happend] at h
      refine ih (before ++ [line]) ⟨h.reads, h.inserted⟩ ?_ ?_
      · rw [hlen]
        exact hs.of_skipped sline
      · rw [hlen]
        exact hrest (.inl hempty)
    by_cases heleven : (lineColumns line).length = volumeBlockBinlogDatafileds
    · cases halloc : alloc before.length with
      | true =>
        obtain ⟨sline, blk, hblk, hload⟩ := loadLine_of_eleven alloc hs heleven halloc
        rw [hload, if_pos rfl, happend, ← hlen]
        refine ih (before ++ [line]) ?_ ?_ ?_
        · rw [← happend]
          refine h.append ?_ ?_
          · intro r hr
            obtain ⟨ptr, hptr, rfl⟩ := mem_map.1 hr
            exact hown hptr
          · intro i hi
            obtain rfl := mem_singleton.1 hi
            exact ⟨line, hget, hblk⟩
        · rw [hlen]
          exact ready_linePtrs heleven ..
        · rw [hlen]
          exact hrest (.inr ⟨heleven, halloc⟩)
      | false =>
        obtain ⟨sline, p, hload⟩ := loadLine_of_no_memory hs heleven halloc
        rw [hload, if_neg (by simp)]
        rw [← append_nil s.inserted]
        refine h.append ?_ (by simp)
        intro r hr
        obtain rfl := mem_singleton.1 hr
        exact ⟨_, rfl, rfl⟩
    · obtain ⟨sline, fields, hload⟩ :=
        loadLine_of_other alloc before.length s hempty heleven hline
      rw [hload, if_neg (by simp)]
      exact ⟨h.reads, h.inserted⟩

/-- A line of three columns to which the loader comes makes it read another pointer. -/
lemma exists_stale (hs : Ready n s) (hshort : ¬ NoShortLine alloc n lines) :
    ∃ r ∈ (loadFields alloc n lines s).reads, ∀ p, r.ptr = some p → p.line ≠ r.line := by
  induction lines generalizing n s with
  | nil =>
    refine absurd ?_ hshort
    intro i line hline
    simp at hline
  | cons line lines ih =>
    rw [noShortLine_cons, not_and_or, not_not, Classical.not_imp] at hshort
    rw [loadFields]
    rcases hshort with hthree | ⟨hpassed, hrest⟩
    · obtain ⟨r, hr, hstale⟩ := loadLine_of_three alloc hs hthree
      refine ⟨r, ?_, hstale⟩
      split_ifs
      · exact reads_subset_loadFields hr
      · exact hr
    · rcases hpassed with hempty | ⟨heleven, halloc⟩
      · obtain ⟨sline, hload⟩ := loadLine_of_empty alloc n s hempty
        rw [hload, if_pos rfl]
        exact ih (hs.of_skipped sline) hrest
      · obtain ⟨sline, blk, -, hload⟩ := loadLine_of_eleven alloc hs heleven halloc
        rw [hload, if_pos rfl]
        exact ih (ready_linePtrs heleven ..) hrest

lemma ready_init (sline : List Byte) :
    Ready 0 ⟨sline, replicate volumeBlockBinlogDatafileds none, [], []⟩ :=
  ⟨length_replicate, fun p hp => by simpa using eq_of_mem_replicate hp⟩

/-- **Loading from the line's own fields.**  Each block is made of the columns of one line, and no
pointer is read that was set for another line or never, exactly if the loader comes to no line of three
columns. -/
theorem ownLine_iff (alloc : ℕ → Bool) (sline file : List Byte) :
    OwnLine (fgetsLines slineSize file) (snapshotFieldsLoad alloc sline file) ↔
      NoShortLine alloc 0 (fgetsLines slineSize file) := by
  constructor
  · intro h
    by_contra hshort
    obtain ⟨r, hr, hstale⟩ := exists_stale (ready_init sline) hshort
    obtain ⟨p, hp, hline⟩ := h.reads r hr
    exact hstale p hp hline
  · intro hshort
    exact OwnLine.loadFields [] ⟨by simp, by simp⟩ (ready_init sline) hshort

/-- Two lines, of which the second one has three columns: its block gets the address and the numbers that
the pointers of the first line happen to find. -/
theorem ownLine_shortLine :
    ∃ file : List Byte, ⟨1, some ⟨0, 6⟩⟩ ∈ (snapshotFieldsLoad (fun _ => true) [] file).reads ∧
      (snapshotFieldsLoad (fun _ => true) [] file).inserted.length = 2 ∧
      ¬ OwnLine (fgetsLines slineSize file) (snapshotFieldsLoad (fun _ => true) [] file) := by
  -- `1|2|v|1.1.1.1|0|80|1|5|0|0|0` and `3|4|w`
  let file : List Byte :=
    [49, 124, 50, 124, 118, 124, 49, 46, 49, 46, 49, 46, 49, 124, 48, 124, 56, 48, 124, 49, 124, 53, 124,
      48, 124, 48, 124, 48, 10, 51, 124, 52, 124, 119, 10]
  have hmem : ⟨1, some ⟨0, 6⟩⟩ ∈ (snapshotFieldsLoad (fun _ => true) [] file).reads := by decide
  refine ⟨file, hmem, by decide, fun h => ?_⟩
  obtain ⟨p, hp, hline⟩ := h.reads _ hmem
  obtain rfl := some.inj hp
  exact absurd hline (by decide)

/-! ### The loader on lines of bytes -/

/-- The loop inserts the blocks that `loadLines` inserts. -/
lemma exists_loadLines_eq (hs : Ready n s) (hshort : NoShortLine (fun _ => true) n lines) :
    ∃ new, (loadFields (fun _ => true) n lines s).inserted = s.inserted ++ new ∧ ∀ c,
      loadLines lines c = (new.map Prod.snd).foldlM (fun c blk => c.datasevrblockInsert blk) c := by
  induction lines generalizing n s with
  | nil => exact ⟨[], by simp [loadFields], fun c => rfl⟩
  | cons line lines ih =>
    obtain ⟨hline, hrest⟩ := noShortLine_cons.1 hshort
    rw [loadFields]
    by_cases hempty : cstr line = []
    · obtain ⟨sline, hload⟩ := loadLine_of_empty (fun _ => true) n s hempty
      rw [hload, if_pos rfl]
      obtain ⟨new, hnew, hfold⟩ := ih (hs.of_skipped sline) (hrest (.inl hempty))
      refine ⟨new, hnew, fun c => ?_⟩
      rw [loadLines, if_pos hempty, hfold]
    by_cases heleven : (lineColumns line).length = volumeBlockBinlogDatafileds
    · obtain ⟨sline, blk, hblk, hload⟩ := loadLine_of_eleven (fun _ => true) hs heleven rfl
      rw [hload, if_pos rfl]
      obtain ⟨new, hnew, hfold⟩ := ih (ready_linePtrs heleven ..) (hrest (.inr ⟨heleven, rfl⟩))
      refine ⟨(n, blk) :: new, ?_, fun c => ?_⟩
      · rw [hnew, append_assoc, singleton_append]
      · rw [loadLines, if_neg hempty, ← lineColumns]
        dsimp only
        rw [if_neg (fun h => h.1 heleven), hblk, map_cons, foldlM_cons]
        cases hins : c.datasevrblockInsert blk with
        | none => simp [hins]
        | some c' => simp [hins, hfold]
    · obtain ⟨sline, fields, hload⟩ :=
        loadLine_of_other (fun _ => true) n s hempty heleven hline
      rw [hload, if_neg (by simp)]
      refine ⟨[], by simp, fun c => ?_⟩
      rw [loadLines, if_neg hempty, ← lineColumns]
      exact if_pos ⟨heleven, hline⟩

/-- **The two loaders.**  On a file without lines of three columns the table is the one that
`snapshotDataLoad` makes. -/
lemma snapshotDataLoad_eq_foldlM (sline : List Byte) {file : List Byte}
    (hshort : NoShortLine (fun _ => true) 0 (fgetsLines slineSize file)) :
    snapshotDataLoad file =
      ((snapshotFieldsLoad (fun _ => true) sline file).inserted.map Prod.snd).foldlM
        (fun c blk => c.datasevrblockInsert blk) DatasevrCluster.clusterInit := by
  obtain ⟨new, hnew, hfold⟩ := exists_loadLines_eq (ready_init sline) hshort
  rw [snapshotFieldsLoad, hnew, nil_append, ← hfold]
  rfl

end Lfs.Tracker
