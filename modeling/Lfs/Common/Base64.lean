/-
Base64 (`base64.c`), in the context that the dataserver initialises: no line breaks, `-` and `_` for
the last two values and `.` for padding.

The encoder goes through the bytes in threes and replaces what the padding of the last three gives;
the decoder goes through the characters and puts out three bytes after every fourth.  The decoder
gives back what was encoded (`base64Decode_base64Encode`).
-/
import Lfs.Base.CString

namespace Lfs.Common

open List

/-! ### The tables -/

/-- `pad_ch`, the character `.`. -/
def padCh : Byte := 46

/-- `valueToChar`: the characters `A`..`Z`, `a`..`z`, `0`..`9`, `-` and `_`. -/
def valueToChar (value : ℕ) : Byte :=
  if value < 26 then UInt8.ofNat (65 + value)
  else if value < 52 then UInt8.ofNat (97 + (value - 26))
  else if value < 62 then UInt8.ofNat (48 + (value - 52))
  else if value = 62 then 45
  else 95

/-- The entries of `charToValue`. -/
inductive CharValue where
  /-- `BASE64_IGNORE`. -/
  | ignore
  /-- `BASE64_PAD`. -/
  | pad
  | value (value : ℕ)
deriving DecidableEq

def charToValue (ch : Byte) : CharValue :=
  if ch = padCh then .pad
  else match (List.range 64).find? fun i => valueToChar i = ch with
    | some i => .value i
    | none => .ignore

/-! ### Encoding -/

def encodeThree (b0 b1 b2 : Byte) : List Byte :=
  let combined := b0.toNat * 2 ^ 16 + b1.toNat * 2 ^ 8 + b2.toNat
  [valueToChar (combined / 2 ^ 18 % 64), valueToChar (combined / 2 ^ 12 % 64),
    valueToChar (combined / 2 ^ 6 % 64), valueToChar (combined % 64)]

/-- `base64_encode_ex` with `bPad`. -/
def base64Encode : List Byte → List Byte
  | b0 :: b1 :: b2 :: src => encodeThree b0 b1 b2 ++ base64Encode src
  | [b0, b1] => (encodeThree b0 b1 0).take 3 ++ [padCh]
  | [b0] => (encodeThree b0 0 0).take 2 ++ [padCh, padCh]
  | [] => []

/-! ### Decoding -/

/-- The variables of `base64_decode`. -/
structure DecodeState where
  cycle : ℕ
  combined : ℕ
  dummies : ℕ
  dest : List Byte

namespace DecodeState

/-- The value of a character is taken in. -/
def put (value : ℕ) (s : DecodeState) : DecodeState :=
  match s.cycle with
  | 0 => { s with cycle := 1, combined := value }
  | 1 => { s with cycle := 2, combined := s.combined * 64 + value }
  | 2 => { s with cycle := 3, combined := s.combined * 64 + value }
  | _ =>
    let combined := s.combined * 64 + value
    { s with
      cycle := 0
      combined := combined
      dest := s.dest ++ [UInt8.ofNat (combined / 2 ^ 16), UInt8.ofNat (combined / 2 ^ 8),
        UInt8.ofNat combined] }

def dummy (s : DecodeState) : DecodeState := { s with dummies := s.dummies + 1 }

def step (s : DecodeState) (ch : Byte) : DecodeState :=
  match charToValue ch with
  | .ignore => s
  | .pad => s.dummy.put 0
  | .value value => s.put value

end DecodeState

/-- `base64_decode`: the bytes of `dest` up to `dest_len`. -/
def base64Decode (src : List Byte) : List Byte :=
  let s := src.foldl DecodeState.step ⟨0, 0, 0, []⟩
  if s.cycle ≠ 0 then [] else s.dest.take (s.dest.length - s.dummies)

/-! ### The round trip -/

lemma charToValue_valueToChar {value : ℕ} (h : value < 64) :
    charToValue (valueToChar value) = .value value := by
  have hall : ∀ value < 64, charToValue (valueToChar value) = .value value := by
    decide +kernel
  exact hall value h

lemma charToValue_padCh : charToValue padCh = .pad := rfl

namespace DecodeState

variable {combined dummies : ℕ} {dest : List Byte}

lemma step_valueToChar {value : ℕ} (h : value < 64) (s : DecodeState) :
    s.step (valueToChar value) = s.put value := by
  rw [step, charToValue_valueToChar h]

lemma step_padCh (s : DecodeState) : s.step padCh = s.dummy.put 0 := by
  rw [step, charToValue_padCh]

lemma dummy_put (value : ℕ) (s : DecodeState) : (s.put value).dummy = s.dummy.put value := by
  obtain ⟨cycle, combined, dummies, dest⟩ := s
  match cycle with
  | 0 | 1 | 2 | _ + 3 => rfl

lemma put_four (c0 c1 c2 c3 : ℕ) (s : DecodeState) (hs : s.cycle = 0) :
    (((s.put c0).put c1).put c2).put c3 =
      { s with
        combined := ((c0 * 64 + c1) * 64 + c2) * 64 + c3
        dest := s.dest ++ [UInt8.ofNat ((((c0 * 64 + c1) * 64 + c2) * 64 + c3) / 2 ^ 16),
          UInt8.ofNat ((((c0 * 64 + c1) * 64 + c2) * 64 + c3) / 2 ^ 8),
          UInt8.ofNat (((c0 * 64 + c1) * 64 + c2) * 64 + c3)] } := by
  obtain ⟨cycle, combined, dummies, dest⟩ := s
  obtain rfl : cycle = 0 := hs
  rfl

lemma combine_parts {n : ℕ} (h : n < 2 ^ 24) :
    ((n / 2 ^ 18 % 64 * 64 + n / 2 ^ 12 % 64) * 64 + n / 2 ^ 6 % 64) * 64 + n % 64 = n := by
  omega

lemma bytes_combined (b0 b1 b2 : Byte) :
    [UInt8.ofNat ((b0.toNat * 2 ^ 16 + b1.toNat * 2 ^ 8 + b2.toNat) / 2 ^ 16),
      UInt8.ofNat ((b0.toNat * 2 ^ 16 + b1.toNat * 2 ^ 8 + b2.toNat) / 2 ^ 8),
      UInt8.ofNat (b0.toNat * 2 ^ 16 + b1.toNat * 2 ^ 8 + b2.toNat)] = [b0, b1, b2] := by
  have h1 := b1.toNat_lt
  have h2 := b2.toNat_lt
  have h0 := b0.toNat_lt
  have hb0 : UInt8.ofNat ((b0.toNat * 2 ^ 16 + b1.toNat * 2 ^ 8 + b2.toNat) / 2 ^ 16) = b0 := by
    rw [← UInt8.toNat_inj, UInt8.toNat_ofNat']
    omega
  have hb1 : UInt8.ofNat ((b0.toNat * 2 ^ 16 + b1.toNat * 2 ^ 8 + b2.toNat) / 2 ^ 8) = b1 := by
    rw [← UInt8.toNat_inj, UInt8.toNat_ofNat']
    omega
  have hb2 : UInt8.ofNat (b0.toNat * 2 ^ 16 + b1.toNat * 2 ^ 8 + b2.toNat) = b2 := by
    rw [← UInt8.toNat_inj, UInt8.toNat_ofNat']
    omega
  rw [hb0, hb1, hb2]

/-- **Four values** give the three bytes from which they were made. -/
lemma put_encodeThree (b0 b1 b2 : Byte) {n : ℕ}
    (hn : n = b0.toNat * 2 ^ 16 + b1.toNat * 2 ^ 8 + b2.toNat) (s : DecodeState)
    (hs : s.cycle = 0) :
    (((s.put (n / 2 ^ 18 % 64)).put (n / 2 ^ 12 % 64)).put (n / 2 ^ 6 % 64)).put (n % 64) =
      { s with combined := n, dest := s.dest ++ [b0, b1, b2] } := by
  have hlt : n < 2 ^ 24 := by
    have h0 := b0.toNat_lt
    have h1 := b1.toNat_lt
    have h2 := b2.toNat_lt
    omega
  rw [put_four _ _ _ _ s hs, combine_parts hlt]
  subst hn
  rw [bytes_combined]

lemma foldl_valueToChar {values : List ℕ} (h : ∀ value ∈ values, value < 64) (s : DecodeState) :
    (values.map valueToChar).foldl step s = values.foldl (fun s value => s.put value) s := by
  induction values generalizing s with
  | nil => rfl
  | cons value values ih =>
    rw [map_cons, foldl_cons, foldl_cons, step_valueToChar (h value mem_cons_self)]
    exact ih (fun v hv => h v (mem_cons_of_mem value hv)) _

/-- The values of the four characters for three bytes. -/
def fourValues (n : ℕ) : List ℕ := [n / 2 ^ 18 % 64, n / 2 ^ 12 % 64, n / 2 ^ 6 % 64, n % 64]

lemma fourValues_lt {n value : ℕ} (h : value ∈ fourValues n) : value < 64 := by
  simp only [fourValues, mem_cons, not_mem_nil, or_false] at h
  omega

lemma encodeThree_eq (b0 b1 b2 : Byte) : encodeThree b0 b1 b2 =
      (fourValues (b0.toNat * 2 ^ 16 + b1.toNat * 2 ^ 8 + b2.toNat)).map valueToChar := rfl

lemma foldl_encodeThree (b0 b1 b2 : Byte) (s : DecodeState) (hs : s.cycle = 0) :
    (encodeThree b0 b1 b2).foldl step s =
      { s with
        combined := b0.toNat * 2 ^ 16 + b1.toNat * 2 ^ 8 + b2.toNat
        dest := s.dest ++ [b0, b1, b2] } := by
  rw [encodeThree_eq, foldl_valueToChar fun _ => fourValues_lt]
  exact put_encodeThree b0 b1 b2 rfl s hs

lemma foldl_encodeThree_take (b0 b1 b2 : Byte) (k : ℕ) (s : DecodeState) :
    ((encodeThree b0 b1 b2).take k).foldl step s =
      ((fourValues (b0.toNat * 2 ^ 16 + b1.toNat * 2 ^ 8 + b2.toNat)).take k).foldl
        (fun s value => s.put value) s := by
  rw [encodeThree_eq, ← map_take]
  exact foldl_valueToChar (fun _ h => fourValues_lt (mem_of_mem_take h)) s

lemma foldl_pad_one (b0 b1 : Byte) (s : DecodeState) :
    ((encodeThree b0 b1 0).take 3 ++ [padCh]).foldl step s =
      ((encodeThree b0 b1 0).foldl step s).dummy := by
  have hzero : (b0.toNat * 2 ^ 16 + b1.toNat * 2 ^ 8 + (0 : Byte).toNat) % 64 = 0 := by
    rw [UInt8.toNat_zero]
    omega
  rw [foldl_append, foldl_encodeThree_take, encodeThree_eq, foldl_valueToChar fun _ => fourValues_lt]
  simp only [fourValues, take_succ_cons, take_zero, foldl_cons, foldl_nil,
    step_padCh, dummy_put, hzero]

lemma foldl_pad_two (b0 : Byte) (s : DecodeState) :
    ((encodeThree b0 0 0).take 2 ++ [padCh, padCh]).foldl step s =
      ((encodeThree b0 0 0).foldl step s).dummy.dummy := by
  have hzero : (b0.toNat * 2 ^ 16 + (0 : Byte).toNat * 2 ^ 8 + (0 : Byte).toNat) / 2 ^ 6 % 64 = 0 ∧
      (b0.toNat * 2 ^ 16 + (0 : Byte).toNat * 2 ^ 8 + (0 : Byte).toNat) % 64 = 0 := by
    rw [UInt8.toNat_zero]
    omega
  rw [foldl_append, foldl_encodeThree_take, encodeThree_eq, foldl_valueToChar fun _ => fourValues_lt]
  simp only [fourValues, take_succ_cons, take_zero, foldl_cons, foldl_nil,
    step_padCh, dummy_put, hzero]

/-- What is encoded comes back after what has been put out before, and is followed by a zero for each
padding character. -/
lemma foldl_base64Encode (src : List Byte) (s : DecodeState) (hs : s.cycle = 0)
    (hdummies : s.dummies = 0) :
    ((base64Encode src).foldl step s).cycle = 0 ∧ ((base64Encode src).foldl step s).dummies ≤ 2 ∧
      ((base64Encode src).foldl step s).dest = s.dest ++ (src ++
        List.replicate ((base64Encode src).foldl step s).dummies 0) := by
  induction src using base64Encode.induct generalizing s with
  | case1 b0 b1 b2 src ih =>
    rw [base64Encode, foldl_append, foldl_encodeThree b0 b1 b2 s hs]
    have hrest := ih { s with
      combined := b0.toNat * 2 ^ 16 + b1.toNat * 2 ^ 8 + b2.toNat
      dest := s.dest ++ [b0, b1, b2] } hs hdummies
    rwa [append_assoc] at hrest
  | case2 b0 b1 =>
    rw [base64Encode, foldl_pad_one, foldl_encodeThree b0 b1 0 s hs]
    refine ⟨hs, ?_, ?_⟩
    · simp [dummy, hdummies]
    · simp [dummy, hdummies]
  | case3 b0 =>
    rw [base64Encode, foldl_pad_two, foldl_encodeThree b0 0 0 s hs]
    refine ⟨hs, ?_, ?_⟩
    · simp [dummy, hdummies]
    · simp [dummy, hdummies, replicate_succ]
  | case4 =>
    rw [base64Encode, foldl_nil, hdummies]
    refine ⟨hs, Nat.zero_le 2, ?_⟩
    simp

end DecodeState

/-- **The round trip.**  The decoder gives back what was encoded. -/
theorem base64Decode_base64Encode (src : List Byte) : base64Decode (base64Encode src) = src := by
  obtain ⟨hcycle, -, hdest⟩ := DecodeState.foldl_base64Encode src ⟨0, 0, 0, []⟩ rfl rfl
  rw [base64Decode]
  simp only [hcycle, hdest]
  simp

end Lfs.Common
