/-
How the dataserver reads the name of a file (`file_metedata_unpack` in `ds_file.c`).

The name is decoded to a buffer of zeros, and the fields are read from it one after the other, behind the
machine id.  All of them are as they were when the name was made, and of the checksum the low 32 bits are
(`fileMetedata_roundTrip`).
-/
import Lfs.Common.FileName

namespace Lfs.Server

open Lfs.Common List

def lfsMachineIdBuffSize : ℕ := 8

/-- `base64_decode` to a buffer of `size` zeros: the buffer, or `none` if it is written outside of it.
The byte behind the result is set to zero, or the first one if characters are left over. -/
def base64DecodeInto (size : ℕ) (src : List Byte) : Option (List Byte) :=
  let s := src.foldl DecodeState.step ⟨0, 0, 0, []⟩
  let dest := s.dest ++ replicate (size - s.dest.length) 0
  if size < s.dest.length then none
  else if s.cycle ≠ 0 then some (dest.set 0 0)
  else if s.dest.length < s.dummies ∨ size ≤ s.dest.length - s.dummies then none
  else some (dest.set (s.dest.length - s.dummies) 0)

/-- `file_metedata`, as `file_metedata_unpack` fills it. -/
structure FileMetedata where
  fCreateTimestamp : ℤ
  fModifyTimestamp : ℤ
  fOffset : ℤ
  fSize : ℤ
  fCrc32 : ℤ
deriving DecidableEq

def fileMetedataUnpack (fileB64name : List Byte) : Option FileMetedata :=
  (base64DecodeInto lfsFileIdSize fileB64name).map fun fileidBuff =>
    let p := fileidBuff.drop lfsMachineIdBuffSize
    let p1 := p.drop lfsFileMetedataBuffSize
    let p2 := p1.drop lfsFileMetedataBuffSize
    let p3 := p2.drop lfsFileMetedataBuffSize
    let p4 := p3.drop lfsFileMetedataBuffSize
    ⟨buff2long p, buff2long p1, buff2long p2, buff2long p3, buff2int p4⟩

lemma base64DecodeInto_base64Encode {size : ℕ} {src : List Byte} (h : src.length + 2 < size) :
    base64DecodeInto size (base64Encode src) = some (src ++ replicate (size - src.length) 0) := by
  obtain ⟨hcycle, hdummies, hdest⟩ := DecodeState.foldl_base64Encode src ⟨0, 0, 0, []⟩ rfl rfl
  rw [base64DecodeInto]
  generalize (base64Encode src).foldl DecodeState.step ⟨0, 0, 0, []⟩ = s at hcycle hdummies hdest
  rw [nil_append] at hdest
  have hlen : s.dest.length = src.length + s.dummies := by
    rw [hdest, length_append, length_replicate]
  have hend : s.dest.length - s.dummies = src.length := by omega
  have hzeros : s.dest ++ replicate (size - s.dest.length) 0 =
      src ++ replicate (size - src.length) 0 := by
    have hsplit : size - src.length = s.dummies + (size - s.dest.length) := by omega
    rw [hsplit, replicate_add, ← append_assoc, ← hdest]
  have hroom : ¬ size < s.dest.length := by omega
  have hin : ¬ (s.dest.length < s.dummies ∨ size ≤ src.length) := by omega
  simp only [hroom, hcycle, hend, hin, hzeros, if_false, ne_eq, not_true]
  -- the byte behind the result is a zero already
  rw [List.set_append, if_neg (lt_irrefl _), Nat.sub_self]
  congr 2
  obtain ⟨n, hn⟩ : ∃ n, size - src.length = n + 1 := ⟨size - src.length - 1, by omega⟩
  rw [hn, replicate_succ, set_cons_zero]

lemma buff2int_int2buff (n : ℤ) (t : List Byte) : buff2int (int2buff n ++ t) % 2 ^ 32 = n % 2 ^ 32 := by
  have hpos : 0 ≤ n % 2 ^ 32 := Int.emod_nonneg n (by omega)
  rw [buff2int_emod, take_left' (length_int2buff n), int2buff, bigEndian_toBigEndian]
  omega

/-- **The round trip.**  For every server, thread, timestamps, offset, size and checksum, the dataserver
reads from the name of the file what it has been made of, and the checksum modulo `2 ^ 32`. -/
theorem fileMetedata_roundTrip (f : FileidName) :
    ∃ fmete, fileMetedataUnpack (fileidnamePack f) = some fmete ∧
      fmete.fCreateTimestamp = f.createTimestamp.toInt ∧
      fmete.fModifyTimestamp = f.modifyTimestamp.toInt ∧ fmete.fOffset = f.offset.toInt ∧
      fmete.fSize = f.totalSize.toInt ∧ fmete.fCrc32 % 2 ^ 32 = f.crc32.toNat % 2 ^ 32 := by
  have hlen : f.bytes.length + 2 < lfsFileIdSize := by
    simp [FileidName.bytes, length_int2buff, length_long2buff, lfsFileIdSize]
  have hmachine : (int2buff f.sid.toNat ++ int2buff f.tid.toNat).length = lfsMachineIdBuffSize :=
    length_machineId f
  rw [fileMetedataUnpack, fileidnamePack, base64DecodeInto_base64Encode hlen, f.bytes_append,
    Option.map_some]
  simp only [drop_left' hmachine, drop_long2buff]
  refine ⟨_, rfl, ?_⟩
  simp only [buff2long_field, true_and]
  exact buff2int_int2buff _ _

end Lfs.Server
