/-
File ids (`file_metedata_pack` in `ds_file.c`, `LFS_SPLIT_BLOCK_INDEX_BY_FILE_ID` in `lfs_define.h`).

An upload writes its file on one of the mounts, and the id of the file, which goes into the binlog and
to the other servers, names this mount by its index.  The index is written with `%02X` and read with
`atoi`, so that it comes back exactly if it has one decimal digit.  The map name always comes back.
-/
import Lfs.Base.Text
import Lfs.Binlog.Record

namespace Lfs.Binlog

open Lfs.Lib List Option

/-! ### The functions -/

/-- `%s/B%02X/%s`: a file id without the group. -/
def volumeFileId (volumeName : List Byte) (mntBlockIndex : ℕ) (mapName : List Byte) : List Byte :=
  volumeName ++ fileIdSeperator :: ((66 :: hex02 mntBlockIndex) ++ fileIdSeperator :: mapName)

/-- The `f_id` of `file_metedata_pack`, after the name of the file has been made. -/
def fileMetedataPack (groupName volumeName : List Byte) (mntBlockIndex : ℕ) (mapName : List Byte) :
    List Byte :=
  snprintfStr lfsFileIdSize
    (groupName ++ fileIdSeperator :: volumeFileId volumeName mntBlockIndex mapName)

/-- `__blockmapname_pack`: the file that the upload writes.  It is `none` if there is no such mount. -/
def blockmapnamePack (mounts : Mounts) (mntBlockIndex : ℕ) (mapName : List Byte) :
    Option (List Byte) :=
  mounts[mntBlockIndex]?.map fun mountPath => mountPath ++ fileIdSeperator :: mapName

/-- `LFS_SPLIT_BLOCK_INDEX_BY_FILE_ID` with `atoi(pblock_index)` after it. -/
def fileIdParts (fId : List Byte) : Option (ℤ × List Byte) :=
  (splitBlockIndexByFileId fId).map fun parts => (atoi parts.1, parts.2)

/-- `handle_cmd_asynccopyfile`: the file that is written for the file id.  It is `none` where the
macro returns, and where the index is not one of a mount. -/
def asynccopyfileName (mounts : Mounts) (fId : List Byte) : Option (List Byte) :=
  (fileIdParts fId).bind fun (nblockIndex, mapName) =>
    if 0 ≤ nblockIndex then blockmapnamePack mounts nblockIndex.toNat mapName else none

/-! ### The parts of a file id -/

variable {mounts : Mounts} {groupName volumeName mapName : List Byte} {i : ℕ}

/-- The group and the volume have no separator in their names, the index is an `int`, the id fits
`LFS_FILE_ID_SIZE`, and what follows the group fits `LFS_FILE_NAME_SIZE`. -/
structure FitsFileId (groupName volumeName : List Byte) (i : ℕ) (mapName : List Byte) : Prop where
  group : fileIdSeperator ∉ groupName
  volume : fileIdSeperator ∉ volumeName
  index_lt : i < 2 ^ 31
  id_lt : (groupName ++ fileIdSeperator :: volumeFileId volumeName i mapName).length < lfsFileIdSize
  vmn_lt : (volumeFileId volumeName i mapName).length < lfsFileNameSize

instance (groupName volumeName : List Byte) (i : ℕ) (mapName : List Byte) :
    Decidable (FitsFileId groupName volumeName i mapName) :=
  decidable_of_iff (fileIdSeperator ∉ groupName ∧ fileIdSeperator ∉ volumeName ∧ i < 2 ^ 31 ∧
      (groupName ++ fileIdSeperator :: volumeFileId volumeName i mapName).length < lfsFileIdSize ∧
      (volumeFileId volumeName i mapName).length < lfsFileNameSize)
    ⟨fun ⟨h1, h2, h3, h4, h5⟩ => ⟨h1, h2, h3, h4, h5⟩, fun h => ⟨h.1, h.2, h.3, h.4, h.5⟩⟩

lemma snprintfStr_of_lt {n : ℕ} {s : List Byte} (h : s.length < n) : snprintfStr n s = s :=
  take_of_length_le (by omega)

lemma fileIdSeperator_notMem_hex02 (n : ℕ) : fileIdSeperator ∉ hex02 n := by
  have hdigit : ∀ d < 16, hexDigit d ≠ fileIdSeperator := by decide
  intro hmem
  rcases mem_append.1 hmem with hpad | hmem
  · exact absurd (eq_of_mem_replicate hpad) (by decide)
  · obtain ⟨d, hd, heq⟩ := List.mem_map.1 hmem
    exact hdigit d (Nat.digits_lt_base (by decide) (mem_reverse.1 hd)) heq

/-- **The macro** finds the index as it was printed, and the map name. -/
lemma FitsFileId.split_eq (h : FitsFileId groupName volumeName i mapName) :
    splitBlockIndexByFileId (fileMetedataPack groupName volumeName i mapName) =
      some (hex02 i, mapName) := by
  have hblock : fileIdSeperator ∉ 66 :: hex02 i := by
    refine fun hmem => (mem_cons.1 hmem).elim (fun heq => ?_) (fileIdSeperator_notMem_hex02 i)
    exact absurd heq (by decide)
  -- each buffer holds what is left of the id
  have hmn : ((66 :: hex02 i) ++ fileIdSeperator :: mapName).length < lfsFileNameSize := by
    refine lt_of_le_of_lt ?_ h.vmn_lt
    simp only [volumeFileId, length_append, length_cons]
    omega
  rw [fileMetedataPack, snprintfStr_of_lt h.id_lt, splitBlockIndexByFileId]
  simp only [snprintfStr_of_lt h.id_lt, cut_append h.group, bind_eq_bind, bind_some,
    snprintfStr_of_lt h.vmn_lt]
  simp only [volumeFileId, cut_append h.volume, bind_some, snprintfStr_of_lt hmn, cut_append hblock]
  simp

lemma FitsFileId.fileIdParts_eq (h : FitsFileId groupName volumeName i mapName) :
    fileIdParts (fileMetedataPack groupName volumeName i mapName) =
      some (atoi (hex02 i), mapName) := by
  rw [fileIdParts, h.split_eq, map_some]

/-- What `__binlog_record_parse` makes of the file id of a record. -/
lemma fileIdParts_of_binlogRecordParse {text : List Byte} {record : BinlogRecord}
    (h : binlogRecordParse mounts text = .ok record) :
    fileIdParts record.fId = some (record.mntBlockIndex, record.fMapName) ∧
      asynccopyfileName mounts record.fId = some record.fBlockMapName := by
  rw [binlogRecordParse] at h
  split at h
  · next sequence op idCol _ =>
    split_ifs at h
    dsimp only at h
    cases hsplit : splitBlockIndexByFileId (idCol.take (idCol.length - 1)) with
    | none => simp [hsplit] at h
    | some parts =>
      obtain ⟨pblockIndex, mapName⟩ := parts
      simp only [hsplit] at h
      cases hmount : (if 0 ≤ atoi pblockIndex then mounts[(atoi pblockIndex).toNat]? else none) with
      | none => simp [hmount] at h
      | some mountPath =>
        simp only [hmount] at h
        split_ifs at h
        obtain rfl := Except.ok.inj h
        obtain ⟨hpos, hmount⟩ := ite_none_right_eq_some.1 hmount
        have hparts : fileIdParts (idCol.take (idCol.length - 1)) =
            some (atoi pblockIndex, mapName) := by rw [fileIdParts, hsplit, map_some]
        refine ⟨hparts, ?_⟩
        rw [asynccopyfileName, hparts, bind_some]
        simp [hpos, blockmapnamePack, hmount]
  · cases h

/-! ### The record of an upload -/

/-- The line that `file_upload_done_callback` writes to the binlog. -/
def uploadLine (createTimestamp : ℤ) (fId : List Byte) : List Byte :=
  snprintfStr binlogRecordSize (decimalInt createTimestamp ++
    batDataSeperator :: 67 :: batDataSeperator :: (fId ++ [newline]))

/-- The upload of a file on the mount `i`, the line of which fits `BINLOG_RECORD_SIZE`.  The path of
the file fits `LFS_FILE_BLOCK_MAP_NAME_SIZE` on every mount. -/
structure FitsRecord (mounts : Mounts) (createTimestamp : ℤ) (groupName volumeName : List Byte)
    (i : ℕ) (mapName : List Byte) : Prop where
  id : FitsFileId groupName volumeName i mapName
  newline : newline ∉ fileMetedataPack groupName volumeName i mapName
  nul : (0 : Byte) ∉ fileMetedataPack groupName volumeName i mapName
  line_lt : (decimalInt createTimestamp).length +
    (fileMetedataPack groupName volumeName i mapName).length + 4 < binlogRecordSize
  mount_lt : i < mounts.length
  name_lt : ∀ mountPath ∈ mounts,
    (mountPath ++ fileIdSeperator :: mapName).length < lfsFileBlockMapNameSize

section RecordLine

variable {createTimestamp : ℤ}

lemma notMem_decimalInt {b : Byte} (hb : ¬ (b = 45 ∨ isDigit b = true)) : b ∉ decimalInt createTimestamp :=
  fun hmem => hb (mem_decimalInt hmem)

variable (h : FitsRecord mounts createTimestamp groupName volumeName i mapName)
include h

lemma FitsRecord.uploadLine_eq :
    uploadLine createTimestamp (fileMetedataPack groupName volumeName i mapName) =
      decimalInt createTimestamp ++ batDataSeperator :: 67 :: batDataSeperator ::
        (fileMetedataPack groupName volumeName i mapName ++ [Lfs.newline]) := by
  have hlen := h.line_lt
  refine snprintfStr_of_lt ?_
  simp only [length_append, length_cons, length_nil]
  omega

lemma FitsRecord.nul_notMem_uploadLine :
    (0 : Byte) ∉ uploadLine createTimestamp (fileMetedataPack groupName volumeName i mapName) := by
  rw [h.uploadLine_eq]
  simp [notMem_decimalInt (b := 0) (by decide), h.nul, batDataSeperator, Lfs.newline]

lemma FitsRecord.splitStr_uploadLine : splitStr batDataSeperator binlogRecordColumn
        (uploadLine createTimestamp (fileMetedataPack groupName volumeName i mapName)) =
      [decimalInt createTimestamp, [67], fileMetedataPack groupName volumeName i mapName ++ [Lfs.newline]] := by
  have hop : batDataSeperator ∉ ([67] : List Byte) := by decide
  have hcut := cut_append (b := fileMetedataPack groupName volumeName i mapName ++ [Lfs.newline]) hop
  rw [h.uploadLine_eq, binlogRecordColumn, splitStr, cut_append (notMem_decimalInt (by decide))]
  simp only [splitStr]
  rw [show (67 : Byte) :: batDataSeperator ::
      (fileMetedataPack groupName volumeName i mapName ++ [Lfs.newline]) =
    [67] ++ batDataSeperator :: (fileMetedataPack groupName volumeName i mapName ++ [Lfs.newline]) from rfl,
    hcut]

lemma FitsRecord.binlogRecordParse_eq :
    ∃ mountPath, mounts[(atoi (hex02 i)).toNat]? = some mountPath ∧ binlogRecordParse mounts
          (uploadLine createTimestamp (fileMetedataPack groupName volumeName i mapName)) =
        .ok
          { opType := 67
            fMapName := mapName
            fBlockMapName := mountPath ++ fileIdSeperator :: mapName
            fId := fileMetedataPack groupName volumeName i mapName
            sequence := atol (decimalInt createTimestamp)
            mntBlockIndex := atoi (hex02 i) } := by
  have hcols := h.splitStr_uploadLine
  have hnul := h.nul_notMem_uploadLine
  have hsplit := h.id.split_eq
  have hlen := h.line_lt
  set fId := fileMetedataPack groupName volumeName i mapName
  -- the index that is read back is one of a mount
  obtain ⟨hpos, hle⟩ := atoi_hex02_le h.id.index_lt
  have hmount : (atoi (hex02 i)).toNat < mounts.length := by
    have hlt := h.mount_lt
    omega
  have hname := h.name_lt _ (getElem_mem hmount)
  have hbounds : ¬ ((fId ++ [Lfs.newline]).length = 0 ∨
      lfsFileIdSize - 1 < (fId ++ [Lfs.newline]).length - 1) := by
    simp only [length_append, length_singleton, lfsFileIdSize, binlogRecordSize] at hlen ⊢
    omega
  have hid : (fId ++ [Lfs.newline]).take ((fId ++ [Lfs.newline]).length - 1) = fId := by simp
  rw [binlogRecordParse, cstr_of_notMem hnul, hcols]
  dsimp only
  rw [if_neg hbounds, hid, hsplit]
  dsimp only
  rw [if_pos hpos, getElem?_eq_getElem hmount]
  dsimp only
  rw [if_neg (Nat.not_le.2 hname)]
  exact ⟨_, rfl, rfl⟩

end RecordLine

/-- The record of an upload is well formed, and is read back from its line. -/
lemma FitsRecord.exists_recordLine {createTimestamp : ℤ}
    (h : FitsRecord mounts createTimestamp groupName volumeName i mapName)
    (hlong : -2 ^ 63 ≤ createTimestamp ∧ createTimestamp < 2 ^ 63) :
    ∃ l : RecordLine mounts,
      l.text = uploadLine createTimestamp (fileMetedataPack groupName volumeName i mapName) ∧
      l.record.sequence = createTimestamp ∧ l.record.opType = 67 ∧
      l.record.fId = fileMetedataPack groupName volumeName i mapName ∧ l.record.fMapName = mapName ∧
      (i ≤ 9 → blockmapnamePack mounts i mapName = some l.record.fBlockMapName) := by
  have hline := h.uploadLine_eq
  have hlen := h.line_lt
  have hnl := h.newline
  obtain ⟨mountPath, hmount, hparse⟩ := h.binlogRecordParse_eq
  have hsequence : atol (decimalInt createTimestamp) = createTimestamp := by
    simpa using atol_decimalInt hlong.1 hlong.2 (t := []) (by simp)
  refine ⟨⟨_, ?_, h.nul_notMem_uploadLine, ?_, _, hparse⟩, rfl, hsequence, rfl, rfl, rfl, fun hi => ?_⟩
  · refine ⟨decimalInt createTimestamp ++ batDataSeperator :: 67 :: batDataSeperator ::
      fileMetedataPack groupName volumeName i mapName, ?_, ?_⟩
    · have hsep : Lfs.newline ≠ batDataSeperator := by decide
      have hop : Lfs.newline ≠ 67 := by decide
      simp [notMem_decimalInt (b := Lfs.newline) (by decide), hnl, hsep, hop]
    · rw [hline]
      simp
  · rw [hline]
    simp only [length_append, length_cons, length_nil]
    omega
  · rw [(atoi_hex02_eq_iff h.id.index_lt).2 hi, Int.toNat_natCast] at hmount
    rw [blockmapnamePack, hmount, map_some]

/-! ### The round trip -/

/-- Replication of the file of an upload opens the file that the upload wrote: the receiver of the
file, and the sender, which has the file id from a record of the binlog. -/
structure OpensUploaded (mounts : Mounts) (fId : List Byte) (i : ℕ) (mapName : List Byte) : Prop where
  received : asynccopyfileName mounts fId = blockmapnamePack mounts i mapName
  sent : ∀ text record, binlogRecordParse mounts text = .ok record → record.fId = fId →
    blockmapnamePack mounts i mapName = some record.fBlockMapName

lemma opensUploaded_of_parts {fId : List Byte} (h : fileIdParts fId = some ((i : ℤ), mapName)) :
    OpensUploaded mounts fId i mapName := by
  have hname : asynccopyfileName mounts fId = blockmapnamePack mounts i mapName := by
    rw [asynccopyfileName, h, bind_some]
    simp
  refine ⟨hname, ?_⟩
  rintro text record hparse rfl
  rw [← hname]
  exact (fileIdParts_of_binlogRecordParse hparse).2

/-- **The round trip of a file id.**  The index of the mount and the map name are read back exactly if
the index is at most 9, and then replication opens the file that the upload wrote. -/
theorem fileId_roundTrip_iff (h : FitsFileId groupName volumeName i mapName) :
    (fileIdParts (fileMetedataPack groupName volumeName i mapName) = some ((i : ℤ), mapName) ↔
      i ≤ 9) ∧
    (i ≤ 9 → ∀ mounts,
      OpensUploaded mounts (fileMetedataPack groupName volumeName i mapName) i mapName) := by
  have hiff : fileIdParts (fileMetedataPack groupName volumeName i mapName) =
      some ((i : ℤ), mapName) ↔ i ≤ 9 := by
    rw [h.fileIdParts_eq, ← atoi_hex02_eq_iff h.index_lt]
    simp
  exact ⟨hiff, fun hi mounts => opensUploaded_of_parts (hiff.2 hi)⟩

/-- The file `a` on the tenth mount. -/
theorem fileId_roundTrip_nine : FitsFileId [103] [118] 9 [97] ∧
    fileIdParts (fileMetedataPack [103] [118] 9 [97]) = some (9, [97]) :=
  have hfits : FitsFileId [103] [118] 9 [97] := by decide
  ⟨hfits, (fileId_roundTrip_iff hfits).1.2 le_rfl⟩

/-- The mounts `/0` to `/:`. -/
def elevenMounts : Mounts := (List.range 11).map fun i => [fileIdSeperator, UInt8.ofNat (48 + i)]

/-- The file `a` on the eleventh mount has the id `g/v/B0A/a`, which is read as the file `a` on the
first mount. -/
theorem fileId_ten_not_roundTrip : FitsFileId [103] [118] 10 [97] ∧
    fileMetedataPack [103] [118] 10 [97] = [103, 47, 118, 47, 66, 48, 65, 47, 97] ∧
    fileIdParts (fileMetedataPack [103] [118] 10 [97]) = some (0, [97]) ∧
    ¬ OpensUploaded elevenMounts (fileMetedataPack [103] [118] 10 [97]) 10 [97] := by
  refine ⟨by decide, by decide, by decide, fun hopens => ?_⟩
  exact absurd hopens.received (by decide)

end Lfs.Binlog
