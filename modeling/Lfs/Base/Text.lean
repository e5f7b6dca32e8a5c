/-
Numbers and lines that are written as text and read back.

`atol` reads what `%ld` has written, `splitStr` finds the columns that were written with the
separator between them, and `fgets` returns the lines of a file one by one.
-/
import Lfs.Base.CString
import Mathlib.Data.Nat.Digits.Lemmas
import Mathlib.Algebra.Order.Group.Int

namespace Lfs

open Lfs.Lib List

variable {n d : ℕ} {z : ℤ} {b : Byte} {s t : List Byte}

/-! ### Numbers -/

lemma toNat_digit (hd : d < 10) : (UInt8.ofNat (48 + d)).toNat = 48 + d :=
  UInt8.toNat_ofNat_of_lt' (Nat.lt_of_lt_of_le (Nat.add_lt_add_left hd 48) (by decide))

lemma isDigit_iff : isDigit b = true ↔ 48 ≤ b.toNat ∧ b.toNat ≤ 57 := by
  simp [isDigit, UInt8.le_iff_toNat_le]

lemma isDigit_digit (hd : d < 10) : isDigit (UInt8.ofNat (48 + d)) = true := by
  rw [isDigit_iff, toNat_digit hd]
  omega

lemma digitsVal_map {ds : List ℕ} (hds : ∀ d ∈ ds, d < 10) {acc : ℕ}
    (ht : ∀ b ∈ t.head?, isDigit b = false) :
    digitsVal acc (ds.map (fun d => UInt8.ofNat (48 + d)) ++ t) =
      ds.foldl (fun n d => n * 10 + d) acc := by
  induction ds generalizing acc with
  | nil =>
    cases t with
    | nil => rfl
    | cons b t => simp [digitsVal, ht b rfl]
  | cons d ds ih =>
    have hd := hds d mem_cons_self
    rw [map_cons, cons_append, digitsVal, if_pos (isDigit_digit hd), toNat_digit hd,
      Nat.add_sub_cancel_left, foldl_cons]
    exact ih fun e he => hds e (mem_cons_of_mem d he)

lemma decimal_eq (n : ℕ) : ∃ ds : List ℕ, ds ≠ [] ∧ (∀ d ∈ ds, d < 10) ∧
    decimal n = ds.map (fun d => UInt8.ofNat (48 + d)) ∧ ds.foldl (fun n d => n * 10 + d) 0 = n := by
  rw [decimal]
  split_ifs with hn
  · subst hn
    exact ⟨[0], by simp, by simp, rfl, rfl⟩
  · refine ⟨(Nat.digits 10 n).reverse, ?_, ?_, rfl, ?_⟩
    · simpa using Nat.digits_ne_nil_iff_ne_zero.2 hn
    · intro d hd
      exact Nat.digits_lt_base (by decide) (mem_reverse.1 hd)
    · rw [foldl_reverse]
      have hof := Nat.ofDigits_digits 10 n
      rw [Nat.ofDigits_eq_foldr] at hof
      simpa [add_comm, mul_comm] using hof

lemma digitsVal_decimal (ht : ∀ b ∈ t.head?, isDigit b = false) : digitsVal 0 (decimal n ++ t) = n := by
  obtain ⟨ds, -, hds, heq, hval⟩ := decimal_eq n
  rw [heq, digitsVal_map hds ht, hval]

lemma isDigit_of_mem_decimal (hb : b ∈ decimal n) : isDigit b = true := by
  obtain ⟨ds, -, hds, heq, -⟩ := decimal_eq n
  rw [heq] at hb
  obtain ⟨d, hd, rfl⟩ := mem_map.1 hb
  exact isDigit_digit (hds d hd)

lemma separator_notMem_decimal (n : ℕ) : batDataSeperator ∉ decimal n := fun h =>
  absurd (isDigit_of_mem_decimal h) (by decide)

lemma mem_decimalInt (hb : b ∈ decimalInt z) : b = 45 ∨ isDigit b = true := by
  cases z with
  | ofNat n => exact .inr (isDigit_of_mem_decimal hb)
  | negSucc n => exact (mem_cons.1 hb).imp_right isDigit_of_mem_decimal

lemma separator_notMem_decimalInt (n : ℤ) : batDataSeperator ∉ decimalInt n := fun h =>
  (mem_decimalInt h).elim (fun heq => absurd heq (by decide)) fun hd => absurd hd (by decide)

lemma decimal_ne_nil (n : ℕ) : decimal n ≠ [] := by
  obtain ⟨ds, hne, -, heq, -⟩ := decimal_eq n
  rw [heq]
  simpa using hne

lemma decimal_injective : Function.Injective decimal := by
  intro m n h
  have hm : digitsVal 0 (decimal m ++ []) = m := digitsVal_decimal (by simp)
  rw [h, digitsVal_decimal (by simp)] at hm
  exact hm.symm

lemma length_decimal_le {n k : ℕ} (hk : 0 < k) (hn : n < 10 ^ k) : (decimal n).length ≤ k := by
  rw [decimal]
  split_ifs with hzero
  · exact hk
  · rw [length_map, length_reverse]
    exact (Nat.digits_length_le_iff (by decide) n).2 hn

lemma length_decimalInt_le {k : ℕ} (hk : 0 < k) (hlo : -10 ^ k < z) (hhi : z < 10 ^ k) :
    (decimalInt z).length ≤ k + 1 := by
  cases z with
  | ofNat n =>
    have hn : (n : ℤ) < 10 ^ k := hhi
    exact (length_decimal_le hk (by exact_mod_cast hn)).trans (Nat.le_succ k)
  | negSucc n =>
    have hn : ((n + 1 : ℕ) : ℤ) < 10 ^ k := by
      have hneg : Int.negSucc n = -((n + 1 : ℕ) : ℤ) := rfl
      rw [hneg] at hlo
      exact neg_lt_neg_iff.1 hlo
    rw [decimalInt, length_cons]
    exact Nat.succ_le_succ (length_decimal_le hk (by exact_mod_cast hn))

/-- What `strtol` makes of a string that starts neither with a space nor with a sign. -/
lemma atol_of_head (hspace : isSpace b = false) (hminus : b ≠ 45)
    (hplus : b ≠ 43) : atol (b :: s) = clampLong (digitsVal 0 (b :: s)) := by
  rw [atol, dropWhile_cons_of_neg (by simp [hspace])]
  split
  · next heq => exact absurd (List.cons.inj heq).1 hminus
  · next heq => exact absurd (List.cons.inj heq).1 hplus
  · rfl

lemma atol_of_isDigit (hb : isDigit b = true) : atol (b :: s) = clampLong (digitsVal 0 (b :: s)) := by
  rw [isDigit_iff] at hb
  have hspace : isSpace b = false := by
    simp only [isSpace, UInt8.le_iff_toNat_le, Bool.or_eq_false_iff, Bool.and_eq_false_iff,
      decide_eq_false_iff_not, ← UInt8.toNat_inj]
    exact ⟨by simp; omega, .inr (by simp; omega)⟩
  refine atol_of_head hspace ?_ ?_ <;>
  · rintro rfl
    exact absurd hb (by decide)

lemma clampLong_of_mem (hlo : -2 ^ 63 ≤ z) (hhi : z < 2 ^ 63) : clampLong z = z := by
  rw [clampLong, min_eq_left (by omega), max_eq_right (by omega)]

lemma atol_decimal (hn : n < 2 ^ 63)
    (ht : ∀ b ∈ t.head?, isDigit b = false) : atol (decimal n ++ t) = n := by
  have hdigits : digitsVal 0 (decimal n ++ t) = n := digitsVal_decimal ht
  obtain ⟨b, s, hbs⟩ := exists_cons_of_ne_nil (decimal_ne_nil n)
  have hb : isDigit b = true := isDigit_of_mem_decimal (hbs ▸ mem_cons_self)
  rw [hbs, cons_append] at hdigits ⊢
  rw [atol_of_isDigit hb, hdigits, clampLong_of_mem (by omega) (by exact_mod_cast hn)]

lemma atol_decimalInt (hlo : -2 ^ 63 ≤ z) (hhi : z < 2 ^ 63)
    (ht : ∀ b ∈ t.head?, isDigit b = false) : atol (decimalInt z ++ t) = z := by
  cases z with
  | ofNat n =>
    have hn : (n : ℤ) < 2 ^ 63 := hhi
    exact atol_decimal (by omega) ht
  | negSucc n =>
    have hval : digitsVal 0 (decimal (n + 1) ++ t) = n + 1 := digitsVal_decimal ht
    have hatol : atol (45 :: (decimal (n + 1) ++ t)) =
        clampLong (-(digitsVal 0 (decimal (n + 1) ++ t) : ℤ)) := rfl
    have hneg : Int.negSucc n = -((n + 1 : ℕ) : ℤ) := rfl
    rw [decimalInt, cons_append, hatol, hval]
    rw [hneg] at hlo ⊢
    exact clampLong_of_mem hlo (by omega)

lemma atoi_decimalInt (hlo : -2 ^ 31 ≤ z) (hhi : z < 2 ^ 31)
    (ht : ∀ b ∈ t.head?, isDigit b = false) : atoi (decimalInt z ++ t) = z := by
  rw [atoi, atol_decimalInt (by omega) (by omega) ht]
  exact Int.bmod_eq_of_le_mul_two (by omega) (by omega)

lemma bmod_emod_two_pow (z : ℤ) : z.bmod (2 ^ 32) % 2 ^ 32 = z % 2 ^ 32 := by
  have hemod := Int.bmod_emod (x := z) (m := 2 ^ 32)
  simpa using hemod

lemma ofInt_atoi_decimal (n : UInt32) (ht : ∀ b ∈ t.head?, isDigit b = false) :
    UInt32.ofInt (atoi (decimal n.toNat ++ t)) = n := by
  have hn := n.toNat_lt
  rw [atoi, atol_decimal (by omega) ht, UInt32.ofInt, bmod_emod_two_pow,
    Int.emod_eq_of_lt (by omega) (by omega), Int.toNat_natCast, UInt32.ofNat_toNat]

/-! ### Hexadecimal numbers -/

lemma isDigit_hexDigit (hd : d < 16) : isDigit (hexDigit d) = true ↔ d < 10 := by
  revert d
  decide

lemma toNat_hexDigit (hd : d < 10) : (hexDigit d).toNat - 48 = d := by
  revert d
  decide

lemma le_foldl_hex (ds : List ℕ) (b : ℕ) : b ≤ ds.foldl (fun n d => n * 16 + d) b := by
  induction ds generalizing b with
  | nil => exact le_rfl
  | cons d ds ih =>
    have hstep : b ≤ b * 16 + d := by omega
    exact hstep.trans (ih _)

lemma digitsVal_hex_lt {ds : List ℕ} (hds : ∀ d ∈ ds, d < 16) {a b : ℕ} (hab : a < b) :
    digitsVal a (ds.map hexDigit) < ds.foldl (fun n d => n * 16 + d) b := by
  induction ds generalizing a b with
  | nil => exact hab
  | cons d ds ih =>
    have hd := hds d mem_cons_self
    rw [map_cons, digitsVal, foldl_cons]
    split_ifs with hdec
    · rw [toNat_hexDigit ((isDigit_hexDigit hd).1 hdec)]
      exact ih (fun e he => hds e (mem_cons_of_mem d he)) (by omega)
    · have hle := le_foldl_hex ds (b * 16 + d)
      omega

lemma hex02_eq (hn : 16 ≤ n) : ∃ d e ds, 0 < d ∧ (∀ x ∈ d :: e :: ds, x < 16) ∧
    hex02 n = (d :: e :: ds).map hexDigit ∧ ds.foldl (fun n d => n * 16 + d) (d * 16 + e) = n := by
  have hlen : 2 ≤ (Nat.digits 16 n).length := (Nat.lt_digits_length_iff (by decide) n).2 (by simpa)
  have hhex : hex02 n = (Nat.digits 16 n).reverse.map hexDigit := by
    simp [hex02, Nat.sub_eq_zero_of_le hlen]
  have hval : (Nat.digits 16 n).reverse.foldl (fun n d => n * 16 + d) 0 = n := by
    have hof := Nat.ofDigits_digits 16 n
    rw [Nat.ofDigits_eq_foldr] at hof
    rw [foldl_reverse]
    simpa [add_comm, mul_comm] using hof
  have hmem (x : ℕ) (hx : x ∈ (Nat.digits 16 n).reverse) : x < 16 :=
    Nat.digits_lt_base (by decide) (mem_reverse.1 hx)
  have hhead : (Nat.digits 16 n).reverse.head? ≠ some 0 := by
    rw [head?_reverse, getLast?_eq_some_getLast (ne_nil_of_length_pos (by omega))]
    exact fun h => Nat.getLast_digit_ne_zero 16 (by omega) (Option.some.inj h)
  rw [← length_reverse] at hlen
  rw [hhex]
  match (Nat.digits 16 n).reverse, hlen, hval, hmem, hhead with
  | d :: e :: ds, _, hval, hmem, hhead =>
    refine ⟨d, e, ds, pos_of_ne_zero fun hd => hhead (congrArg some hd), hmem, rfl, ?_⟩
    simpa using hval

/-- `atoi` makes less of the digits of a number that has two or more of them. -/
lemma atoi_hex02_of_le (hge : 16 ≤ n) (hn : n < 2 ^ 31) : 0 ≤ atoi (hex02 n) ∧ atoi (hex02 n) < n := by
  obtain ⟨d, e, ds, hd, hmem, hhex, hval⟩ := hex02_eq hge
  obtain ⟨hd16, he16, hds⟩ : d < 16 ∧ e < 16 ∧ ∀ x ∈ ds, x < 16 := by simpa using hmem
  have hlt : digitsVal 0 (hex02 n) < n := by
    rw [hhex, map_cons, map_cons, digitsVal]
    split_ifs with hdec
    · rw [toNat_hexDigit ((isDigit_hexDigit hd16).1 hdec), digitsVal]
      split_ifs with hdec'
      · rw [toNat_hexDigit ((isDigit_hexDigit he16).1 hdec')]
        exact (digitsVal_hex_lt hds (by omega)).trans_eq hval
      · omega
    · omega
  have hsign : ∀ d < 16, isSpace (hexDigit d) = false ∧ hexDigit d ≠ 45 ∧ hexDigit d ≠ 43 := by
    decide
  obtain ⟨hspace, hminus, hplus⟩ := hsign d hd16
  have hatol : atol (hex02 n) = digitsVal 0 (hex02 n) := by
    rw [hhex, map_cons, atol_of_head hspace hminus hplus, ← map_cons, ← hhex]
    exact clampLong_of_mem (by omega) (by omega)
  have hatoi : atoi (hex02 n) = digitsVal 0 (hex02 n) := by
    rw [atoi, hatol]
    exact Int.bmod_eq_of_le_mul_two (by omega) (by omega)
  rw [hatoi]
  omega

lemma atoi_hex02_eq_iff (hn : n < 2 ^ 31) : atoi (hex02 n) = n ↔ n ≤ 9 := by
  rcases lt_or_ge n 16 with hlt | hge
  · clear hn
    revert n
    decide +kernel
  · refine iff_of_false ?_ (by omega)
    have hatoi := atoi_hex02_of_le hge hn
    omega

lemma atoi_hex02_le (hn : n < 2 ^ 31) : 0 ≤ atoi (hex02 n) ∧ atoi (hex02 n) ≤ n := by
  rcases lt_or_ge n 16 with hlt | hge
  · clear hn
    revert n
    decide +kernel
  · have hatoi := atoi_hex02_of_le hge hn
    omega

/-! ### Columns -/

lemma splitStr_intercalate {sep : Byte} {cols : List (List Byte)} {col : List Byte}
    (hcols : ∀ a ∈ cols, sep ∉ a) :
    splitStr sep (cols.length + 1) (intercalate [sep] (cols ++ [col])) = cols ++ [col] := by
  induction cols with
  | nil => simp [splitStr]
  | cons a cols ih =>
    obtain ⟨ha, hcols⟩ := forall_mem_cons.1 hcols
    have hne : cols ++ [col] ≠ [] := by simp
    have hcons : intercalate [sep] (a :: (cols ++ [col])) =
        a ++ sep :: intercalate [sep] (cols ++ [col]) := by
      rw [intercalate_cons_of_ne_nil hne, append_assoc, singleton_append]
    rw [cons_append, hcons, length_cons, splitStr]
    simp only [cut_append ha]
    exact congrArg (a :: ·) (ih hcols)

lemma mem_intercalate {sep c : Byte} {cols : List (List Byte)}
    (hc : c ∈ intercalate [sep] cols) : c = sep ∨ ∃ a ∈ cols, c ∈ a := by
  induction cols with
  | nil => simp at hc
  | cons a cols ih =>
    cases cols with
    | nil => exact .inr ⟨a, mem_cons_self, by simpa using hc⟩
    | cons d cols =>
      rw [intercalate_cons_cons, mem_append, mem_append, mem_singleton] at hc
      rcases hc with (hc | rfl) | hc
      · exact .inr ⟨a, mem_cons_self, hc⟩
      · exact .inl rfl
      · rcases ih hc with rfl | ⟨e, he, hce⟩
        · exact .inl rfl
        · exact .inr ⟨e, mem_cons_of_mem a he, hce⟩

lemma length_intercalate_le (sep : Byte) (cols : List (List Byte)) :
    (intercalate [sep] cols).length ≤ (cols.map fun a => a.length + 1).sum := by
  induction cols with
  | nil => simp
  | cons a cols ih =>
    cases cols with
    | nil => simp
    | cons d cols =>
      rw [intercalate_cons_cons, length_append, length_append, map_cons, sum_cons, length_singleton]
      exact Nat.add_le_add_left ih _

lemma length_splitStr_le (sep : Byte) (n : ℕ) (src : List Byte) :
    (splitStr sep n src).length ≤ src.count sep + 1 := by
  induction n generalizing src with
  | zero => simp [splitStr]
  | succ n ih =>
    cases n with
    | zero => simp [splitStr]
    | succ n =>
      rw [splitStr]
      cases hcut : cut sep src with
      | none => simp
      | some parts =>
        obtain ⟨col, rest⟩ := parts
        obtain ⟨-, rfl⟩ := cut_eq_some.1 hcut
        have hrest := ih rest
        simp only [length_cons, count_append, count_cons_self]
        omega

/-- The bytes that `trim` drops. -/
def isBlank (b : Byte) : Bool := b = 32 || b = 10 || b = 13 || b = 9

lemma trim_eq (s : List Byte) :
    trim s = ((s.dropWhile isBlank).reverse.dropWhile isBlank).reverse := rfl

lemma trim_of_head_last (hhead : ∀ b ∈ s.head?, isBlank b = false)
    (hlast : ∀ b ∈ s.getLast?, isBlank b = false) : trim s = s := by
  have hdrop {t : List Byte} (ht : ∀ b ∈ t.head?, isBlank b = false) : t.dropWhile isBlank = t := by
    cases t with
    | nil => rfl
    | cons b t => exact dropWhile_cons_of_neg (by simp [ht b rfl])
  rw [trim_eq, hdrop hhead, hdrop (by simpa using hlast), reverse_reverse]

lemma trim_append_newline (hhead : ∀ b ∈ s.head?, isBlank b = false)
    (hlast : ∀ b ∈ s.getLast?, isBlank b = false) : trim (s ++ [newline]) = s := by
  have htrim := trim_of_head_last hhead hlast
  cases s with
  | nil => rfl
  | cons b s =>
    have hb : ¬ isBlank b = true := by simp [hhead b rfl]
    rw [trim_eq, dropWhile_cons_of_neg hb] at htrim
    rw [trim_eq, cons_append, dropWhile_cons_of_neg hb, ← cons_append,
      reverse_append, reverse_singleton, singleton_append,
      dropWhile_cons_of_pos rfl, htrim]

lemma isBlank_of_isDigit (hb : isDigit b = true) : isBlank b = false := by
  rw [isDigit_iff] at hb
  simp only [isBlank, Bool.or_eq_false_iff, decide_eq_false_iff_not, ← UInt8.toNat_inj]
  refine ⟨⟨⟨?_, ?_⟩, ?_⟩, ?_⟩ <;> simp <;> omega

lemma isBlank_of_mem_decimal (hb : b ∈ decimal n) : isBlank b = false :=
  isBlank_of_isDigit (isDigit_of_mem_decimal hb)

lemma isBlank_of_mem_decimalInt (hb : b ∈ decimalInt z) : isBlank b = false := by
  cases z with
  | ofNat n => exact isBlank_of_mem_decimal hb
  | negSucc n =>
    rcases mem_cons.1 hb with rfl | hb
    · decide
    · exact isBlank_of_mem_decimal hb

lemma trim_decimal (n : ℕ) : trim (decimal n) = decimal n :=
  trim_of_head_last (fun _ hb => isBlank_of_mem_decimal (mem_of_head? hb))
    fun _ hb => isBlank_of_mem_decimal (mem_of_getLast? hb)

lemma trim_decimalInt (z : ℤ) : trim (decimalInt z) = decimalInt z :=
  trim_of_head_last (fun _ hb => isBlank_of_mem_decimalInt (mem_of_head? hb))
    fun _ hb => isBlank_of_mem_decimalInt (mem_of_getLast? hb)

/-! ### Lines -/

lemma fgetsAux_append {acc a t : List Byte} (ha : newline ∉ a) (hlen : acc.length + a.length + 1 < n) :
    fgetsAux n acc (a ++ newline :: t) = (acc ++ a ++ [newline]) :: fgetsAux n [] t := by
  induction a generalizing acc with
  | nil => simp [fgetsAux]
  | cons b a ih =>
    simp only [mem_cons, not_or] at ha
    simp only [length_cons] at hlen
    have hb : ¬ (b = newline ∨ acc.length + 2 = n) := by
      rintro (rfl | h)
      · exact ha.1 rfl
      · omega
    rw [cons_append, fgetsAux, if_neg hb, ih ha.2 (by simp; omega)]
    simp

lemma fgetsAux_cons {acc t : List Byte} (h : acc ++ t ≠ []) :
    ∃ a t', t = a ++ t' ∧ acc ++ a ≠ [] ∧ fgetsAux n acc t = (acc ++ a) :: fgetsLines n t' := by
  induction t generalizing acc with
  | nil =>
    rw [append_nil] at h
    exact ⟨[], [], rfl, by simpa using h, by simp [fgetsAux, fgetsLines, h]⟩
  | cons b t ih =>
    rw [fgetsAux]
    split_ifs
    · exact ⟨[b], t, rfl, by simp, rfl⟩
    · obtain ⟨a, t', rfl, hne, heq⟩ := @ih (acc ++ [b]) (by simp)
      exact ⟨b :: a, t', rfl, by simp, by rw [heq, append_assoc, singleton_append]⟩

lemma fgetsLines_cons (n : ℕ) (h : t ≠ []) :
    ∃ p t', t = p ++ t' ∧ p ≠ [] ∧ fgetsLines n t = p :: fgetsLines n t' :=
  @fgetsAux_cons n [] t h

lemma fgetsLines_flatten {ls : List (List Byte)}
    (hls : ∀ l ∈ ls, IsLine newline l ∧ l.length < n) : fgetsLines n ls.flatten = ls := by
  induction ls with
  | nil => rfl
  | cons l ls ih =>
    obtain ⟨⟨⟨a, ha, rfl⟩, hlen⟩, htail⟩ := forall_mem_cons.1 hls
    rw [length_append, length_singleton] at hlen
    rw [fgetsLines, flatten_cons, append_assoc, singleton_append,
      fgetsAux_append ha (by simpa using hlen), nil_append]
    exact congrArg ((a ++ [newline]) :: ·) (ih htail)

end Lfs
