/-
The record of an upload, from the name of the file to the reader of the binlog.

`file_metedata_pack` makes the name from the metadata of the file, and the file id from its mount, its
directory and this name; `file_upload_done_callback` writes the id into a line of the binlog.  These texts
fit into their buffers and hold no byte at which `__binlog_record_parse` would stop.
-/
import Lfs.Binlog.FileId
import Lfs.Common.FileName

namespace Lfs.Binlog

open Lfs.Common List

def mapnamePack (mpPre mpSuf : ℕ) (f : FileidName) : List Byte :=
  hex02 mpPre ++ fileIdSeperator :: (hex02 mpSuf ++ fileIdSeperator :: fileidnamePack f)

/-- There is neither a NUL nor a newline in the string. -/
def Plain (s : List Byte) : Prop := ∀ b ∈ s, b ≠ 0 ∧ b ≠ newline

instance (s : List Byte) : Decidable (Plain s) := List.decidableBAll _ s

lemma plain_hex02 {n : ℕ} (hn : n < 256) : Plain (hex02 n) ∧ (hex02 n).length = 2 := by
  have hall : ∀ n < 256, Plain (hex02 n) ∧ (hex02 n).length = 2 := by decide +kernel
  exact hall n hn

lemma plain_encodeThree (b0 b1 b2 : Byte) : Plain (encodeThree b0 b1 b2) := by
  have hall : ∀ value < 64, valueToChar value ≠ 0 ∧ valueToChar value ≠ newline := by decide +kernel
  simp only [encodeThree, Plain, forall_mem_cons]
  exact ⟨hall _ (Nat.mod_lt _ (by decide)), hall _ (Nat.mod_lt _ (by decide)),
    hall _ (Nat.mod_lt _ (by decide)), hall _ (Nat.mod_lt _ (by decide)), by simp⟩

lemma plain_base64Encode (src : List Byte) :
    Plain (base64Encode src) ∧ (base64Encode src).length = 4 * ((src.length + 2) / 3) := by
  have htake (b0 b1 b2 : Byte) (k : ℕ) : Plain ((encodeThree b0 b1 b2).take k) :=
    fun b hb => plain_encodeThree b0 b1 b2 b (mem_of_mem_take hb)
  fun_induction base64Encode src with
  | case1 b0 b1 b2 src ih =>
    refine ⟨forall_mem_append.2 ⟨plain_encodeThree b0 b1 b2, ih.1⟩, ?_⟩
    simp only [length_append, ih.2, encodeThree, length_cons, length_nil]
    omega
  | case2 b0 b1 =>
    exact ⟨forall_mem_append.2 ⟨htake b0 b1 0 3, (by decide : Plain _)⟩, by simp [encodeThree]⟩
  | case3 b0 =>
    exact ⟨forall_mem_append.2 ⟨htake b0 0 0 2, (by decide : Plain _)⟩, by simp [encodeThree]⟩
  | case4 => exact ⟨by decide, rfl⟩

variable {mounts : Mounts} {groupName volumeName : List Byte} {i mpPre mpSuf : ℕ} {f : FileidName}

lemma plain_mapnamePack (hpre : mpPre < 256) (hsuf : mpSuf < 256) :
    Plain (mapnamePack mpPre mpSuf f) ∧ (mapnamePack mpPre mpSuf f).length = 66 := by
  obtain ⟨hplain, hlen⟩ := plain_base64Encode f.bytes
  have hbytes : f.bytes.length = 44 := by
    simp [FileidName.bytes, length_int2buff, length_long2buff]
  constructor
  · simp only [mapnamePack, Plain, forall_mem_append, forall_mem_cons]
    exact ⟨(plain_hex02 hpre).1, by decide, (plain_hex02 hsuf).1, by decide, hplain⟩
  · simp [mapnamePack, fileidnamePack, hlen, hbytes, (plain_hex02 hpre).2, (plain_hex02 hsuf).2]

/-- The names of the group and of the volume are as the configuration has them, the index of the mount has
two digits, and the paths of the mounts leave room for the map name. -/
structure UploadConf (mounts : Mounts) (groupName volumeName : List Byte) (i : ℕ) : Prop where
  group : groupName.length < 16 ∧ Plain groupName ∧ fileIdSeperator ∉ groupName
  volume : volumeName.length < 16 ∧ Plain volumeName ∧ fileIdSeperator ∉ volumeName
  mount : i < 256 ∧ i < mounts.length
  paths : ∀ mountPath ∈ mounts, mountPath.length < 189

lemma UploadConf.fitsRecord (h : UploadConf mounts groupName volumeName i) {mapName : List Byte}
    (hmap : Plain mapName ∧ mapName.length = 66) {z : ℤ} (hz : -2 ^ 63 ≤ z ∧ z < 2 ^ 63) :
    FitsRecord mounts z groupName volumeName i mapName := by
  obtain ⟨hgroup, hgroupPlain, hgroupSep⟩ := h.group
  obtain ⟨hvolume, hvolumePlain, hvolumeSep⟩ := h.volume
  obtain ⟨hhex, hhexlen⟩ := plain_hex02 h.mount.1
  have hvmn : (volumeFileId volumeName i mapName).length = volumeName.length + 71 := by
    simp [volumeFileId, hmap.2, hhexlen]
  have hid : FitsFileId groupName volumeName i mapName := by
    refine ⟨hgroupSep, hvolumeSep, h.mount.1.trans (by decide), ?_, ?_⟩
    · simp only [length_append, length_cons, hvmn, lfsFileIdSize]
      omega
    · rw [hvmn, lfsFileNameSize]
      omega
  have hpack : fileMetedataPack groupName volumeName i mapName =
      groupName ++ fileIdSeperator :: volumeFileId volumeName i mapName := snprintfStr_of_lt hid.id_lt
  have hplain : Plain (fileMetedataPack groupName volumeName i mapName) := by
    simp only [hpack, volumeFileId, Plain, forall_mem_append, forall_mem_cons]
    exact ⟨hgroupPlain, by decide, hvolumePlain, by decide, ⟨by decide, hhex⟩, by decide, hmap.1⟩
  refine ⟨hid, fun hmem => (hplain _ hmem).2 rfl, fun hmem => (hplain _ hmem).1 rfl, ?_, h.mount.2,
    fun mountPath hmem => ?_⟩
  · have hsequence : (decimalInt z).length ≤ 20 := length_decimalInt_le (by decide) (by omega) (by omega)
    simp only [hpack, length_append, length_cons, hvmn, binlogRecordSize]
    omega
  · have hpath := h.paths mountPath hmem
    simp only [length_append, length_cons, hmap.2, lfsFileBlockMapNameSize]
    omega

/-- **Every upload leaves a record that the reader takes.**  Whatever the metadata of the file are, the
line of the upload is read back with its time as the sequence, the operation `C`, the file id and the map
name, and with the path of the file if its mount is one of the first ten. -/
theorem upload_record_roundTrip (h : UploadConf mounts groupName volumeName i) (hpre : mpPre < 256)
    (hsuf : mpSuf < 256) (f : FileidName) :
    ∃ l : RecordLine mounts,
      l.text = uploadLine f.createTimestamp.toInt
        (fileMetedataPack groupName volumeName i (mapnamePack mpPre mpSuf f)) ∧
      l.record.sequence = f.createTimestamp.toInt ∧ l.record.opType = 67 ∧
      l.record.fId = fileMetedataPack groupName volumeName i (mapnamePack mpPre mpSuf f) ∧
      l.record.fMapName = mapnamePack mpPre mpSuf f ∧
      (i ≤ 9 → blockmapnamePack mounts i (mapnamePack mpPre mpSuf f) = some l.record.fBlockMapName) := by
  have hlong := And.intro f.createTimestamp.le_toInt f.createTimestamp.toInt_lt
  exact (h.fitsRecord (plain_mapnamePack hpre hsuf) hlong).exists_recordLine hlong

/-- A file of five bytes in the second directory of the mount `/`. -/
theorem upload_record_roundTrip_fiveBytes :
    ∃ l : RecordLine [[47]], l.record.sequence = 1700000000 ∧
      l.record.fMapName = mapnamePack 0 1 ⟨1, 2, 1700000000, 1700000000, 0, 5, 7⟩ := by
  have hconf : UploadConf [[47]] [103] [118] 0 := ⟨by decide, by decide, by decide, by decide⟩
  obtain ⟨l, -, hsequence, -, -, hname, -⟩ := upload_record_roundTrip hconf (by decide : 0 < 256)
    (by decide : 1 < 256) ⟨1, 2, 1700000000, 1700000000, 0, 5, 7⟩
  exact ⟨l, hsequence, hname⟩

end Lfs.Binlog
