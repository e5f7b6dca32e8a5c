/-
The names of the files (`__fileidname_pack` in `ds_file.c`) and how the client library reads them
(`file_metedata_unpack` in `client_common.c`).

The name of a file is the base64 text of 44 bytes: the machine id, the two timestamps, the offset, the
size and the checksum.  The client skips neither the machine id nor the second timestamp, and so takes
each field for another one.
-/
import Lfs.Common.Base64

namespace Lfs.Common

open List

/-! ### The server -/

structure FileidName where
  /-- `ctxs.sid`. -/
  sid : UInt32
  tid : UInt32
  createTimestamp : Int64
  modifyTimestamp : Int64
  offset : Int64
  totalSize : Int64
  crc32 : UInt64
deriving DecidableEq

/-- The bytes that `__fileidname_pack` writes to `f_name_buff`.  `LFS_MACHINE_ID_BUFF_SIZE` is 8. -/
def FileidName.bytes (f : FileidName) : List Byte :=
  int2buff f.sid.toNat ++ (int2buff f.tid.toNat ++ (long2buff f.createTimestamp.toInt ++
    (long2buff f.modifyTimestamp.toInt ++ (long2buff f.offset.toInt ++
      (long2buff f.totalSize.toInt ++ int2buff f.crc32.toNat)))))

def fileidnamePack (f : FileidName) : List Byte := base64Encode f.bytes

/-! ### The client -/

structure FileMetedata where
  fTimestamp : ℤ
  fOffset : ℤ
  fSize : ℤ
  fCrc32 : ℤ
deriving DecidableEq

/-- `LFS_FILE_METEDATA_TIME_BUFF_SIZE`, and the same for the offset and the size. -/
def lfsFileMetedataBuffSize : ℕ := 8

/-- `file_metedata_unpack` of the client library.  `base64decode` is `Base64decode`, and
`file_binname` is filled with zeros. -/
def fileMetedataUnpack (base64decode : List Byte → List Byte) (fileB64name : List Byte) :
    FileMetedata :=
  let bin := base64decode fileB64name
  let p := bin ++ List.replicate (256 - bin.length) 0
  let p1 := p.drop lfsFileMetedataBuffSize
  let p2 := p1.drop lfsFileMetedataBuffSize
  let p3 := p2.drop lfsFileMetedataBuffSize
  ⟨buff2long p, buff2long p1, buff2long p2, buff2int p3⟩

/-- The client reads the create timestamp, the offset, the size and the checksum. -/
def Decodes (base64decode : List Byte → List Byte) (f : FileidName) : Prop :=
  let fmete := fileMetedataUnpack base64decode (fileidnamePack f)
  fmete.fTimestamp = f.createTimestamp.toInt ∧ fmete.fOffset = f.offset.toInt ∧
    fmete.fSize = f.totalSize.toInt ∧ fmete.fCrc32 % 2 ^ 32 = f.crc32.toNat % 2 ^ 32

instance (base64decode : List Byte → List Byte) (f : FileidName) :
    Decidable (Decodes base64decode f) :=
  inferInstanceAs (Decidable (_ ∧ _ ∧ _ ∧ _))

/-! ### What the client reads -/

/-- The machine id as an `int64_t`. -/
def FileidName.machineId (f : FileidName) : ℤ :=
  Int.bmod (f.sid.toNat * 2 ^ 32 + f.tid.toNat) (2 ^ 64)

lemma int2buff_append (a b : UInt32) :
    int2buff a.toNat ++ int2buff b.toNat = toBigEndian 8 (a.toNat * 2 ^ 32 + b.toNat) := by
  have ha := a.toNat_lt
  have hb := b.toNat_lt
  have hhigh : (a.toNat * 2 ^ 32 + b.toNat) / 256 ^ 4 = a.toNat := by omega
  have hmod (n : UInt32) : (((n.toNat : ℕ) : ℤ) % 2 ^ 32).toNat = n.toNat := by
    have hn := n.toNat_lt
    omega
  rw [int2buff, int2buff, hmod, hmod, toBigEndian_add 4 4, hhigh]
  exact congrArg (toBigEndian 4 a.toNat ++ ·) (toBigEndian_add_mul 4 a.toNat b.toNat).symm

lemma buff2long_machineId (f : FileidName) (t : List Byte) :
    buff2long (int2buff f.sid.toNat ++ (int2buff f.tid.toNat ++ t)) = f.machineId := by
  have hbytes : ((bigEndian ((int2buff f.sid.toNat ++ (int2buff f.tid.toNat ++ t)).take 8) : ℕ) : ℤ)
      = f.sid.toNat * 2 ^ 32 + f.tid.toNat := by
    have hs := f.sid.toNat_lt
    have ht := f.tid.toNat_lt
    have hlt : f.sid.toNat * 2 ^ 32 + f.tid.toNat < 256 ^ 8 := by omega
    rw [← append_assoc, int2buff_append, take_left' (length_toBigEndian ..),
      bigEndian_toBigEndian, Nat.mod_eq_of_lt hlt]
    push_cast
    rfl
  exact congrArg (fun z => Int.bmod z (2 ^ 64)) hbytes

lemma buff2int_emod (buff : List Byte) :
    buff2int buff % 2 ^ 32 = ((bigEndian (buff.take 4) : ℕ) : ℤ) % 2 ^ 32 :=
  Int.bmod_emod

lemma buff2int_long2buff (n : ℤ) (t : List Byte) :
    buff2int (long2buff n ++ t) % 2 ^ 32 = n / 2 ^ 32 % 2 ^ 32 := by
  have hpos : 0 ≤ n % 2 ^ 64 := Int.emod_nonneg n (by omega)
  rw [buff2int_emod, long2buff, toBigEndian_add 4 4, append_assoc,
    take_left' (length_toBigEndian ..), bigEndian_toBigEndian]
  omega

lemma length_machineId (f : FileidName) :
    (int2buff f.sid.toNat ++ int2buff f.tid.toNat).length = lfsFileMetedataBuffSize := by
  rw [length_append, length_int2buff, length_int2buff, lfsFileMetedataBuffSize]

lemma drop_long2buff (n : ℤ) (t : List Byte) : (long2buff n ++ t).drop lfsFileMetedataBuffSize = t :=
  drop_left' (length_long2buff n)

lemma buff2long_field (n : Int64) (t : List Byte) : buff2long (long2buff n.toInt ++ t) = n.toInt :=
  buff2long_long2buff_append n.le_toInt n.toInt_lt t

lemma FileidName.bytes_append (f : FileidName) (t : List Byte) : f.bytes ++ t =
    int2buff f.sid.toNat ++ int2buff f.tid.toNat ++ (long2buff f.createTimestamp.toInt ++
      (long2buff f.modifyTimestamp.toInt ++ (long2buff f.offset.toInt ++
        (long2buff f.totalSize.toInt ++ (int2buff f.crc32.toNat ++ t))))) := by
  simp only [FileidName.bytes, append_assoc]

/-- **What the client reads.**  The machine id, the create timestamp, the modify timestamp and the high
part of the offset. -/
lemma fileMetedataUnpack_fileidnamePack {base64decode : List Byte → List Byte}
    (hdecode : ∀ src, base64decode (base64Encode src) = src) (f : FileidName) :
    let fmete := fileMetedataUnpack base64decode (fileidnamePack f)
    fmete.fTimestamp = f.machineId ∧ fmete.fOffset = f.createTimestamp.toInt ∧
      fmete.fSize = f.modifyTimestamp.toInt ∧
      fmete.fCrc32 % 2 ^ 32 = f.offset.toInt / 2 ^ 32 % 2 ^ 32 := by
  simp only [fileMetedataUnpack, fileidnamePack, hdecode, f.bytes_append]
  rw [drop_left' (length_machineId f), drop_long2buff, drop_long2buff, append_assoc]
  exact ⟨buff2long_machineId f _, buff2long_field _ _, buff2long_field _ _, buff2int_long2buff _ _⟩

/-- **The client library.**  With a `Base64decode` that inverts the encoding of the server, the client
reads the create timestamp, the offset, the size and the checksum of a file name exactly if they
happen to be what stands in their places: the create timestamp is the machine id, the offset is the
create timestamp, the size is the modify timestamp, and the checksum is the high part of the
offset. -/
theorem client_decodes_iff {base64decode : List Byte → List Byte}
    (hdecode : ∀ src, base64decode (base64Encode src) = src) (f : FileidName) :
    Decodes base64decode f ↔ f.createTimestamp.toInt = f.machineId ∧ f.offset = f.createTimestamp ∧
        f.totalSize = f.modifyTimestamp ∧
        f.crc32.toNat % 2 ^ 32 = f.offset.toInt / 2 ^ 32 % 2 ^ 32 := by
  obtain ⟨htimestamp, hoffset, hsize, hcrc⟩ := fileMetedataUnpack_fileidnamePack hdecode f
  rw [Decodes]
  simp only [htimestamp, hoffset, hsize, hcrc, Int64.toInt_inj]
  rw [eq_comm (a := f.machineId), eq_comm (a := f.createTimestamp), eq_comm (a := f.modifyTimestamp),
    eq_comm (b := ((f.crc32.toNat : ℕ) : ℤ) % 2 ^ 32)]

def zeroName : FileidName := ⟨0, 0, 0, 0, 0, 0, 0⟩

/-- The decoder of the server inverts the encoding.  A name whose create
timestamp and offset are the machine id, `2 ^ 32 + 5`, is read as it is. -/
theorem client_decodes_five : Decodes base64Decode ⟨1, 5, 4294967301, 7, 4294967301, 7, 1⟩ :=
  (client_decodes_iff base64Decode_base64Encode _).2 (by decide +kernel)

/-- The file was created at the time 1.  The client reads the time 0. -/
theorem createTimestamp_not_decoded : (∀ src, base64Decode (base64Encode src) = src) ∧
      ¬ Decodes base64Decode { zeroName with createTimestamp := 1 } :=
  ⟨base64Decode_base64Encode, by decide +kernel⟩

end Lfs.Common
