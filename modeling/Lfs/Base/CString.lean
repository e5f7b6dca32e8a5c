/-
The C strings of the servers and the library functions that read them.

A string is the list of its bytes without the terminating NUL.  `atol` and `atoi` are
the functions of the C library (a value out of the range of `long` is cut off at its
ends, `int` keeps the low 32 bits), `splitStr`, `buff2int` and `buff2long` are the ones of
`shared_func.c`.
-/
import Lfs.Lib.Lines
import Mathlib.Data.Int.Notation
import Mathlib.Data.Nat.Digits.Defs

namespace Lfs

open Lfs.Lib List

/-- A byte of a buffer or of a file. -/
abbrev Byte := UInt8

/-- The byte `'\n'`. -/
def newline : Byte := 10

/-- The byte `'|'`, `BAT_DATA_SEPERATOR_SPLITSYMBOL`. -/
def batDataSeperator : Byte := 124

/-- The byte `'/'`, `LFS_FILE_ID_SEPERATOR`. -/
def fileIdSeperator : Byte := 47

def lfsFileIdSize : ℕ := 256

/-- A string: bytes among which there is no NUL. -/
structure CString where
  bytes : List Byte
  noNul : (0 : Byte) ∉ bytes
deriving DecidableEq

/-- The string that starts at the front of a buffer. -/
def cstr (buff : List Byte) : List Byte := buff.takeWhile (· ≠ 0)

lemma cstr_append {s t : List Byte} (hs : (0 : Byte) ∉ s) (ht : ∀ b ∈ t.head?, b = 0) :
    cstr (s ++ t) = s := by
  rw [cstr, takeWhile_append_of_pos fun b hb => decide_eq_true (ne_of_mem_of_not_mem hb hs)]
  cases t with
  | nil => simp
  | cons b t => simp [ht b rfl]

lemma cstr_of_notMem {s : List Byte} (hs : (0 : Byte) ∉ s) : cstr s = s := by
  have hcstr : cstr (s ++ []) = s := cstr_append hs (by simp)
  rwa [append_nil] at hcstr

lemma cstr_append_of_mem {l : List Byte} (h : (0 : Byte) ∈ l) (r : List Byte) :
    cstr (l ++ r) = cstr l := by
  induction l with
  | nil => simp at h
  | cons b l ih =>
    by_cases hb : b = 0
    · simp [cstr, hb]
    · have hl : (0 : Byte) ∈ l := (mem_cons.1 h).resolve_left (Ne.symm hb)
      have hcons (t : List Byte) : cstr (b :: t) = b :: cstr t :=
        takeWhile_cons_of_pos (decide_eq_true hb)
      rw [cons_append, hcons, hcons, ih hl]

/-- `snprintf(buff, n, "%s", s)`: at most `n - 1` bytes of the string. -/
def snprintfStr (n : ℕ) (s : List Byte) : List Byte := s.take (n - 1)

def isSpace (b : Byte) : Bool := b = 32 || (9 ≤ b && b ≤ 13)

def isDigit (b : Byte) : Bool := 48 ≤ b && b ≤ 57

/-- The value of the digits at the front of a string, read after `acc`. -/
def digitsVal : ℕ → List Byte → ℕ
  | acc, [] => acc
  | acc, b :: s => if isDigit b then digitsVal (acc * 10 + (b.toNat - 48)) s else acc

/-- A value as `strtol` returns it. -/
def clampLong (n : ℤ) : ℤ := max (-(2 ^ 63)) (min n (2 ^ 63 - 1))

def atol (s : List Byte) : ℤ :=
  match s.dropWhile isSpace with
  | 45 :: t => clampLong (-(digitsVal 0 t : ℤ))
  | 43 :: t => clampLong (digitsVal 0 t)
  | t => clampLong (digitsVal 0 t)

def atoi (s : List Byte) : ℤ := (atol s).bmod (2 ^ 32)

/-- `sprintf(buff, "%d", n)` of a number that is not negative. -/
def decimal (n : ℕ) : List Byte :=
  if n = 0 then [48] else (Nat.digits 10 n).reverse.map fun d => UInt8.ofNat (48 + d)

/-- `sprintf(buff, "%ld", n)`. -/
def decimalInt : ℤ → List Byte
  | .ofNat n => decimal n
  | .negSucc n => 45 :: decimal (n + 1)

/-- A hexadecimal digit, `0` to `9` and `A` to `F`. -/
def hexDigit (d : ℕ) : Byte := UInt8.ofNat (if d < 10 then 48 + d else 55 + d)

/-- `sprintf(buff, "%02X", n)`. -/
def hex02 (n : ℕ) : List Byte :=
  let digits := (Nat.digits 16 n).reverse.map hexDigit
  List.replicate (2 - digits.length) 48 ++ digits

/-- `trim`: blanks, tabs and line ends at both ends are dropped. -/
def trim (s : List Byte) : List Byte :=
  let blank := fun b : Byte => b = 32 || b = 10 || b = 13 || b = 9
  ((s.dropWhile blank).reverse.dropWhile blank).reverse

/-- The pieces in which `fgets` with a buffer of `n` bytes takes a file: each ends after a
newline or after `n - 1` bytes.  The first argument is the piece that has been begun. -/
def fgetsAux (n : ℕ) : List Byte → List Byte → List (List Byte)
  | acc, [] => if acc = [] then [] else [acc]
  | acc, b :: t =>
    if b = newline ∨ acc.length + 2 = n then (acc ++ [b]) :: fgetsAux n [] t
    else fgetsAux n (acc ++ [b]) t

/-- The results of `fgets` with a buffer of `n` bytes on a file. -/
def fgetsLines (n : ℕ) (file : List Byte) : List (List Byte) := fgetsAux n [] file

/-- `splitStr`: the columns of a line, at most `nMaxCols` of them.  The last one is the
rest of the line. -/
def splitStr (seperator : Byte) : ℕ → List Byte → List (List Byte)
  | 0, _ => []
  | 1, src => [src]
  | n + 2, src =>
    match cut seperator src with
    | none => [src]
    | some (col, rest) => col :: splitStr seperator (n + 1) rest

/-- The bytes of a number, the first one the most significant. -/
def bigEndian (buff : List Byte) : ℕ := buff.foldl (fun n b => n * 256 + b.toNat) 0

/-- The `k` bytes of a number, the first one the most significant. -/
def toBigEndian : ℕ → ℕ → List Byte
  | 0, _ => []
  | k + 1, n => UInt8.ofNat (n / 256 ^ k) :: toBigEndian k n

lemma length_toBigEndian (k n : ℕ) : (toBigEndian k n).length = k := by
  induction k with
  | zero => rfl
  | succ k ih => rw [toBigEndian, length_cons, ih]

lemma bigEndian_toBigEndian (k n : ℕ) : bigEndian (toBigEndian k n) = n % 256 ^ k := by
  -- with the bytes that have been read before
  have hacc (acc : ℕ) : (toBigEndian k n).foldl (fun n b => n * 256 + b.toNat) acc =
      acc * 256 ^ k + n % 256 ^ k := by
    induction k generalizing acc with
    | zero => simp [toBigEndian, Nat.mod_one]
    | succ k ih =>
      have hbyte : (UInt8.ofNat (n / 256 ^ k)).toNat = n / 256 ^ k % 256 := UInt8.toNat_ofNat'
      rw [toBigEndian, foldl_cons, ih, hbyte, pow_succ, Nat.mod_mul, add_mul, mul_assoc,
        mul_comm 256, mul_comm (n / 256 ^ k % 256), add_assoc,
        add_comm (256 ^ k * _)]
  rw [bigEndian, hacc, zero_mul, zero_add]

lemma toBigEndian_add (j k n : ℕ) :
    toBigEndian (j + k) n = toBigEndian j (n / 256 ^ k) ++ toBigEndian k n := by
  induction j with
  | zero => rw [zero_add, toBigEndian, nil_append]
  | succ j ih =>
    rw [Nat.succ_add, toBigEndian, ih, toBigEndian, cons_append, Nat.div_div_eq_div_mul,
      ← pow_add, add_comm k]

lemma toBigEndian_add_mul (k m n : ℕ) : toBigEndian k (m * 256 ^ k + n) = toBigEndian k n := by
  induction k generalizing m with
  | zero => rfl
  | succ k ih =>
    have hsplit : m * 256 ^ (k + 1) + n = m * 256 * 256 ^ k + n := by
      rw [pow_succ', mul_assoc]
    have hbyte : UInt8.ofNat ((m * 256 * 256 ^ k + n) / 256 ^ k) = UInt8.ofNat (n / 256 ^ k) := by
      rw [← UInt8.toNat_inj, UInt8.toNat_ofNat', UInt8.toNat_ofNat', add_comm,
        Nat.add_mul_div_right _ _ (by positivity)]
      exact Nat.add_mul_mod_self_right ..
    rw [toBigEndian, toBigEndian, hsplit, hbyte, ih]

/-- The bytes of a number, the first one the least significant. -/
def littleEndian : List Byte → ℕ
  | [] => 0
  | b :: buff => b.toNat + 256 * littleEndian buff

/-- The `k` bytes of a number, the first one the least significant. -/
def toLittleEndian : ℕ → ℕ → List Byte
  | 0, _ => []
  | k + 1, n => UInt8.ofNat n :: toLittleEndian k (n / 256)

lemma length_toLittleEndian (k n : ℕ) : (toLittleEndian k n).length = k := by
  induction k generalizing n with
  | zero => rfl
  | succ k ih => rw [toLittleEndian, length_cons, ih]

lemma littleEndian_toLittleEndian (k n : ℕ) : littleEndian (toLittleEndian k n) = n % 256 ^ k := by
  induction k generalizing n with
  | zero => simp [toLittleEndian, littleEndian, Nat.mod_one]
  | succ k ih =>
    have hbyte : (UInt8.ofNat n).toNat = n % 256 := UInt8.toNat_ofNat'
    rw [toLittleEndian, littleEndian, ih, hbyte, pow_succ', Nat.mod_mul]

def buff2int (buff : List Byte) : ℤ := Int.bmod (bigEndian (buff.take 4)) (2 ^ 32)

def buff2long (buff : List Byte) : ℤ := Int.bmod (bigEndian (buff.take 8)) (2 ^ 64)

lemma buff2long_congr {a b : List Byte} (h : a.take 8 = b.take 8) : buff2long a = buff2long b := by
  unfold buff2long
  rw [h]

lemma buff2long_snoc {c : List Byte} (hc : c.length = 7) :
    buff2long (c ++ [1]) = buff2long (c ++ [0]) + 1 := by
  have hbytes (b : Byte) :
      ((bigEndian ((c ++ [b]).take 8) : ℕ) : ℤ) = bigEndian c * 256 + b.toNat := by
    rw [take_of_length_le (by simp [hc]), bigEndian, foldl_append]
    simp [bigEndian]
  set z : ℤ := bigEndian c * 256 with hz
  have h0 : buff2long (c ++ [0]) = z.bmod (2 ^ 64) :=
    congrArg (fun z => Int.bmod z (2 ^ 64)) ((hbytes 0).trans (by simp))
  have h1 : buff2long (c ++ [1]) = (z + 1).bmod (2 ^ 64) :=
    congrArg (fun z => Int.bmod z (2 ^ 64)) ((hbytes 1).trans (by simp))
  have hle : -(2 ^ 63 : ℤ) ≤ z.bmod (2 ^ 64) := Int.le_bmod (by decide)
  have hlt : z.bmod (2 ^ 64) < 2 ^ 63 := Int.bmod_lt (by decide)
  have hmod : z.bmod (2 ^ 64) % (2 ^ 64 : ℕ) = z % (2 ^ 64 : ℕ) := Int.bmod_emod
  -- the value is even, so it is not the largest one
  have hbmod : (z.bmod (2 ^ 64) + 1).bmod (2 ^ 64) = z.bmod (2 ^ 64) + 1 :=
    Int.bmod_eq_of_le_mul_two (by omega) (by omega)
  rw [h0, h1, ← hbmod, Int.bmod_add_bmod]

def long2buff (n : ℤ) : List Byte := toBigEndian 8 (n % 2 ^ 64).toNat

lemma length_long2buff (n : ℤ) : (long2buff n).length = 8 := length_toBigEndian ..

def int2buff (n : ℤ) : List Byte := toBigEndian 4 (n % 2 ^ 32).toNat

lemma length_int2buff (n : ℤ) : (int2buff n).length = 4 := length_toBigEndian ..

lemma buff2long_long2buff_append {n : ℤ} (hlo : -2 ^ 63 ≤ n) (hhi : n < 2 ^ 63) (t : List Byte) :
    buff2long (long2buff n ++ t) = n := by
  have hpos : 0 ≤ n % 2 ^ 64 := Int.emod_nonneg n (by omega)
  have hlt : (n % 2 ^ 64).toNat < 256 ^ 8 := by omega
  have hbytes : ((bigEndian ((long2buff n ++ t).take 8) : ℕ) : ℤ) = n % (2 ^ 64 : ℕ) := by
    rw [take_left' (length_long2buff n), long2buff, bigEndian_toBigEndian,
      Nat.mod_eq_of_lt hlt, Int.toNat_of_nonneg hpos]
    simp
  calc buff2long (long2buff n ++ t) = (n % (2 ^ 64 : ℕ)).bmod (2 ^ 64) :=
        congrArg (fun z => Int.bmod z (2 ^ 64)) hbytes
    _ = n.bmod (2 ^ 64) := Int.emod_bmod n (2 ^ 64)
    _ = n := Int.bmod_eq_of_le_mul_two (by omega) (by omega)

end Lfs
