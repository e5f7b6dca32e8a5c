/-
Strings in a buffer, and the functions of `shared_func.c` that change them in place.

A pointer into a buffer is its offset, and the string at an offset goes up to the next NUL.  `trim`,
`splitStr` and `strtok_r` write into the buffer they read: they put NULs at the ends of what they
find, and `trim_left` moves a string to the front of its place.  The lemmas say what the buffer
`pre ++ s ++ 0 :: post` is after a call at the offset of `s`.
-/
import Lfs.Base.Text
import Mathlib.Data.List.DropRight

namespace Lfs

open Lfs.Lib List Option

/-- The string at the offset `p`. -/
def strAt (buf : List Byte) (p : ℕ) : List Byte := cstr (buf.drop p)

/-- `strchr(p, c)` for a byte other than NUL. -/
def strchr (buf : List Byte) (p : ℕ) (c : Byte) : Option ℕ :=
  (cut c (strAt buf p)).map fun parts => p + parts.1.length

/-- `memcpy(p, src, src.length)`. -/
def memcpyAt (buf : List Byte) (p : ℕ) (src : List Byte) : List Byte :=
  buf.take p ++ src ++ buf.drop (p + src.length)

/-- `trim_right`: the string ends behind its last byte that is not blank. -/
def trimRight (buf : List Byte) (p : ℕ) : List Byte :=
  let s := strAt buf p
  let kept := (s.rdropWhile isBlank).length
  if kept = s.length then buf else buf.set (p + kept) 0

/-- `trim_left`: the string without its blanks is moved to the front, with its NUL. -/
def trimLeft (buf : List Byte) (p : ℕ) : List Byte :=
  let s := strAt buf p
  let kept := s.dropWhile isBlank
  if kept.length = s.length then buf else memcpyAt buf p (kept ++ [0])

/-- `trim`. -/
def trimAt (buf : List Byte) (p : ℕ) : List Byte := trimLeft (trimRight buf p) p

/-- `splitStr` from the offset `p` on: the buffer after the call, and the offsets of the columns. -/
def splitStrAt (seperator : Byte) : ℕ → ℕ → List Byte → List Byte × List ℕ
  | 0, _, buf => (buf, [])
  | 1, p, buf => (buf, [p])
  | n + 2, p, buf =>
    match strchr buf p seperator with
    | none => (buf, [p])
    | some q =>
      let r := splitStrAt seperator (n + 1) (q + 1) (buf.set q 0)
      (r.1, p :: r.2)

/-- The buffer, the token and `save_ptr` after a call of `strtok_r`. -/
structure Strtok where
  buf : List Byte
  token : Option ℕ
  savePtr : ℕ

/-- `strtok_r` with one delimiter; `s` is `NULL` if the string is to be continued at `savePtr`. -/
def strtokR (buf : List Byte) (s : Option ℕ) (delim : Byte) (savePtr : ℕ) : Strtok :=
  let p := s.getD savePtr
  let token := p + ((strAt buf p).takeWhile (· = delim)).length
  if strAt buf token = [] then ⟨buf, none, token⟩
  else
    match strchr buf token delim with
    | none => ⟨buf, some token, token + (strAt buf token).length⟩
    | some q => ⟨buf.set q 0, some token, q + 1⟩

/-! ### A string in its buffer -/

variable {pre s t post : List Byte} {c : Byte} {n savePtr : ℕ} {arg : Option ℕ}

lemma strAt_append (hs : (0 : Byte) ∉ s) : strAt (pre ++ s ++ 0 :: post) pre.length = s := by
  rw [strAt, append_assoc, drop_left]
  exact cstr_append hs (by simp)

lemma zero_notMem_cstr (l : List Byte) : (0 : Byte) ∉ cstr l := fun h => by
  simpa using mem_takeWhile_imp h

lemma exists_cstr_append (l rest : List Byte) : ∃ post, l ++ 0 :: rest = cstr l ++ 0 :: post := by
  induction l with
  | nil => exact ⟨rest, rfl⟩
  | cons b l ih =>
    by_cases hb : b = 0
    · subst hb
      exact ⟨l ++ 0 :: rest, rfl⟩
    · obtain ⟨post, hpost⟩ := ih
      have hcstr : cstr (b :: l) = b :: cstr l := takeWhile_cons_of_pos (decide_eq_true hb)
      exact ⟨post, by rw [hcstr, cons_append, hpost, cons_append]⟩

lemma strchr_append (hs : (0 : Byte) ∉ s) : strchr (pre ++ s ++ 0 :: post) pre.length c =
      (cut c s).map fun parts => pre.length + parts.1.length := by
  rw [strchr, strAt_append hs]

lemma set_append (b d : Byte) : (pre ++ b :: post).set pre.length d = pre ++ d :: post := by
  rw [set_append_right _ _ le_rfl, Nat.sub_self, set_cons_zero]

lemma memcpyAt_append (h : s.length = t.length) :
    memcpyAt (pre ++ s ++ post) pre.length t = pre ++ t ++ post := by
  have hdrop : (pre ++ s ++ post).drop (pre.length + t.length) = post := by
    rw [← h, ← length_append, drop_left]
  rw [memcpyAt, hdrop, append_assoc pre s, take_left]

/-! ### Trimming -/

lemma trim_eq_dropWhile (s : List Byte) : trim s = (s.rdropWhile isBlank).dropWhile isBlank := by
  show (s.dropWhile isBlank).rdropWhile isBlank = _
  induction s using List.reverseRecOn with
  | nil => rfl
  | append_singleton s b ih =>
    by_cases hb : isBlank b = true
    · rw [rdropWhile_concat_pos _ _ _ hb, ← ih, dropWhile_append]
      split_ifs with hnil
      · rw [List.isEmpty_iff.1 hnil, dropWhile_cons_of_pos hb, dropWhile_nil]
      · rw [rdropWhile_concat_pos _ _ _ hb]
    · rw [rdropWhile_concat_neg _ _ _ hb, dropWhile_append]
      split_ifs with hnil
      · rw [dropWhile_cons_of_neg hb, ← nil_append [b], rdropWhile_concat_neg _ _ _ hb]
      · rw [rdropWhile_concat_neg _ _ _ hb]

lemma trimRight_append (pre post : List Byte) (hs : (0 : Byte) ∉ s) :
    ∃ junk, trimRight (pre ++ s ++ 0 :: post) pre.length =
        pre ++ s.rdropWhile isBlank ++ 0 :: (junk ++ post) ∧
      (s.rdropWhile isBlank).length + junk.length = s.length := by
  obtain ⟨d, hd⟩ := rdropWhile_prefix isBlank s
  set kept := s.rdropWhile isBlank with hkept
  have hlen : kept.length + d.length = s.length := by rw [← hd, length_append]
  rw [trimRight, strAt_append hs, ← hkept]
  split_ifs with hall
  · -- nothing is dropped
    obtain rfl : d = [] := eq_nil_of_length_eq_zero (by omega)
    rw [append_nil] at hd
    exact ⟨[], by rw [← hd, nil_append], hlen⟩
  · cases d with
    | nil => exact absurd hlen hall
    | cons b d =>
      refine ⟨d ++ [0], ?_, by simpa [add_assoc] using hlen⟩
      have hbuf : pre ++ s ++ 0 :: post = pre ++ kept ++ b :: (d ++ 0 :: post) := by
        rw [← hd]
        simp only [append_assoc, cons_append]
      rw [hbuf, ← length_append, set_append]
      simp only [append_assoc, singleton_append]

lemma trimLeft_append (pre post : List Byte) (hs : (0 : Byte) ∉ s) :
    ∃ junk, trimLeft (pre ++ s ++ 0 :: post) pre.length =
        pre ++ s.dropWhile isBlank ++ 0 :: (junk ++ post) ∧
      (s.dropWhile isBlank).length + junk.length = s.length := by
  have hle : (s.dropWhile isBlank).length ≤ s.length := (dropWhile_suffix _).length_le
  set kept := s.dropWhile isBlank with hkept
  rw [trimLeft, strAt_append hs, ← hkept]
  split_ifs with hall
  · have heq : kept = s := (dropWhile_suffix _).eq_of_length hall
    exact ⟨[], by rw [heq, nil_append], by simpa using hall⟩
  · -- the bytes over which the string is copied
    have hsplit : s.take (kept.length + 1) ++ s.drop (kept.length + 1) = s := take_append_drop ..
    have htake : (s.take (kept.length + 1)).length = (kept ++ [0]).length := by
      rw [length_take, length_append, length_singleton]
      omega
    have hbuf : pre ++ s ++ 0 :: post =
        pre ++ s.take (kept.length + 1) ++ (s.drop (kept.length + 1) ++ 0 :: post) := by
      conv_lhs => rw [← hsplit]
      simp only [append_assoc]
    refine ⟨s.drop (kept.length + 1) ++ [0], ?_, ?_⟩
    · rw [hbuf, memcpyAt_append htake]
      simp only [append_assoc, singleton_append]
    · rw [length_append, length_drop, length_singleton]
      omega

lemma trimAt_append (pre post : List Byte) (hs : (0 : Byte) ∉ s) :
    ∃ junk, trimAt (pre ++ s ++ 0 :: post) pre.length = pre ++ trim s ++ 0 :: (junk ++ post) ∧
      (trim s).length + junk.length = s.length := by
  obtain ⟨junk, hright, hlen⟩ := trimRight_append pre post hs
  have hkept : (0 : Byte) ∉ s.rdropWhile isBlank := fun hmem =>
    hs (( rdropWhile_prefix isBlank s).subset hmem)
  obtain ⟨junk', hleft, hlen'⟩ := trimLeft_append pre (junk ++ post) hkept
  refine ⟨junk' ++ junk, ?_, ?_⟩
  · rw [trimAt, hright, hleft, trim_eq_dropWhile, append_assoc junk']
  · rw [trim_eq_dropWhile, length_append]
    omega

lemma notMem_trim (hs : c ∉ s) : c ∉ trim s := by
  rw [trim_eq_dropWhile]
  exact fun hmem => hs (( rdropWhile_prefix isBlank s).subset
    ((dropWhile_suffix _).subset hmem))

/-! ### Columns -/

/-- Strings one behind the other, each with its NUL. -/
def strings (cols : List (List Byte)) : List Byte := cols.flatMap (· ++ [0])

/-- The offsets of strings that stand one behind the other from `p` on. -/
def offsets : ℕ → List (List Byte) → List ℕ
  | _, [] => []
  | p, col :: cols => p :: offsets (p + col.length + 1) cols

@[simp] lemma strings_nil : strings [] = [] := rfl

@[simp] lemma strings_cons (col : List Byte) (cols : List (List Byte)) :
    strings (col :: cols) = col ++ 0 :: strings cols := by
  simp [strings]

@[simp] lemma length_offsets (p : ℕ) (cols : List (List Byte)) :
    (offsets p cols).length = cols.length := by
  induction cols generalizing p with
  | nil => rfl
  | cons col cols ih => rw [offsets, length_cons, ih, length_cons]

lemma mem_of_mem_splitStr {sep c : Byte} {n : ℕ} {src col : List Byte}
    (hcol : col ∈ splitStr sep n src) (hc : c ∈ col) : c ∈ src := by
  induction n generalizing src with
  | zero => simp [splitStr] at hcol
  | succ n ih =>
    cases n with
    | zero =>
      rw [splitStr, mem_singleton] at hcol
      exact hcol ▸ hc
    | succ n =>
      rw [splitStr] at hcol
      cases hcut : cut sep src with
      | none =>
        rw [hcut] at hcol
        exact mem_singleton.1 hcol ▸ hc
      | some parts =>
        obtain ⟨a, rest⟩ := parts
        obtain ⟨-, rfl⟩ := cut_eq_some.1 hcut
        rw [hcut] at hcol
        rcases mem_cons.1 hcol with rfl | hrest
        · exact mem_append_left _ hc
        · exact mem_append_right _ (mem_cons_of_mem _ (ih hrest))

lemma splitStrAt_append (pre post : List Byte) (hn : n ≠ 0) (hs : (0 : Byte) ∉ s) :
    splitStrAt c n pre.length (pre ++ s ++ 0 :: post) =
      (pre ++ strings (splitStr c n s) ++ post, offsets pre.length (splitStr c n s)) := by
  induction n generalizing pre s with
  | zero => exact absurd rfl hn
  | succ n ih =>
    cases n with
    | zero => simp [splitStrAt, splitStr, offsets]
    | succ n =>
      rw [splitStrAt, splitStr, strchr_append hs]
      cases hcut : cut c s with
      | none => simp [offsets]
      | some parts =>
        obtain ⟨col, rest⟩ := parts
        obtain ⟨-, rfl⟩ := cut_eq_some.1 hcut
        have hrest : (0 : Byte) ∉ rest := fun hmem => hs (by simp [hmem])
        have hset : (pre ++ (col ++ c :: rest) ++ 0 :: post).set (pre.length + col.length) 0 =
            (pre ++ col ++ [0]) ++ rest ++ 0 :: post := by
          have hbuf : pre ++ (col ++ c :: rest) ++ 0 :: post =
              (pre ++ col) ++ c :: (rest ++ 0 :: post) := by simp
          rw [hbuf, ← length_append, set_append]
          simp
        have hlen : pre.length + col.length + 1 = (pre ++ col ++ [0]).length := by
          simp [add_assoc]
        simp only [map_some, hset, hlen, ih _ (Nat.succ_ne_zero n) hrest, offsets]
        simp

/-! ### Tokens -/

lemma strtokR_of_head {buf tok rest : List Byte} {p savePtr : ℕ}
    (harg : arg.getD savePtr = p) (hstr : strAt buf p = tok ++ rest) (hne : tok ≠ [])
    (hc : c ∉ tok) :
    strtokR buf arg c savePtr = (strchr buf p c).elim ⟨buf, some p, p + (strAt buf p).length⟩
      fun q => ⟨buf.set q 0, some p, q + 1⟩ := by
  obtain ⟨b, tok, rfl⟩ := exists_cons_of_ne_nil hne
  have hb : ¬ b = c := fun h => hc (h ▸ mem_cons_self)
  have hspan : (strAt buf p).takeWhile (· = c) = [] := by
    rw [hstr, cons_append, takeWhile_cons_of_neg (by simpa using hb)]
  have hstart : ¬ strAt buf p = [] := by
    rw [hstr]
    simp
  rw [strtokR, harg]
  simp only [hspan, length_nil, add_zero, hstart, if_false]
  cases strchr buf p c with
  | none | some q => rfl

lemma strtokR_of_delim (harg : arg.getD savePtr = pre.length)
    (hne : s ≠ []) (hs : (0 : Byte) ∉ s) (hc : c ∉ s) (hc0 : c ≠ 0) :
    strtokR (pre ++ s ++ c :: post) arg c savePtr =
      ⟨pre ++ s ++ 0 :: post, some pre.length, pre.length + s.length + 1⟩ := by
  have hstr : strAt (pre ++ s ++ c :: post) pre.length = s ++ c :: cstr post := by
    have hkeep : cstr (s ++ c :: post) = s ++ cstr (c :: post) :=
      takeWhile_append_of_pos fun b hb => decide_eq_true (ne_of_mem_of_not_mem hb hs)
    rw [strAt, append_assoc, drop_left, hkeep]
    exact congrArg (s ++ ·) (takeWhile_cons_of_pos (decide_eq_true hc0))
  have hchr : strchr (pre ++ s ++ c :: post) pre.length c = some (pre.length + s.length) := by
    rw [strchr, hstr, cut_append hc]
    rfl
  rw [strtokR_of_head harg hstr hne hc, hchr, elim_some, ← length_append, set_append]

lemma strtokR_of_nul (harg : arg.getD savePtr = pre.length)
    (hne : s ≠ []) (hs : (0 : Byte) ∉ s) (hc : c ∉ s) :
    strtokR (pre ++ s ++ 0 :: post) arg c savePtr =
      ⟨pre ++ s ++ 0 :: post, some pre.length, pre.length + s.length⟩ := by
  have hstr : strAt (pre ++ s ++ 0 :: post) pre.length = s := strAt_append hs
  have hchr : strchr (pre ++ s ++ 0 :: post) pre.length c = none := by
    rw [strchr, hstr, cut_eq_none.2 hc]
    rfl
  rw [strtokR_of_head harg (hstr.trans (append_nil s).symm) hne hc, hchr, elim_none, hstr]

lemma strtokR_of_end (harg : arg.getD savePtr = pre.length) :
    strtokR (pre ++ 0 :: post) arg c savePtr = ⟨pre ++ 0 :: post, none, pre.length⟩ := by
  have hstr : strAt (pre ++ 0 :: post) pre.length = [] := by
    rw [strAt, drop_left]
    rfl
  rw [strtokR, harg]
  simp only [hstr, takeWhile_nil, length_nil, add_zero, if_true]

end Lfs
