/-
The list of trackers in the configuration of a dataserver (`trackerclient_info_init` in
`tracker_client.c`).

The list has the form `ip:port|ip:port|...`.  It is taken apart in place by two nested loops with
`strtok_r`, which share the array `p` of 32 tokens and its index `in`; the index is even at an address
and odd at a port.  An entry takes two slots, and both loops write also the `NULL` with which they
end, so that a list of `n` entries writes the slot `2 * n`.
-/
import Lfs.Base.InPlace

namespace Lfs.Server

open Lfs.Lib List

/-! ### The two loops -/

/-- `IP_ADDRESS_SIZE`, the size of `ip_addr`. -/
def trackerIpSize : ℕ := 16

structure TrackerInfo where
  index : ℕ
  port : ℤ
  ipAddr : List Byte
deriving DecidableEq

/-- `tracker_info` after `memset`. -/
def TrackerInfo.zero : TrackerInfo := ⟨0, 0, replicate trackerIpSize 0⟩

/-- The number of slots of `p`. -/
def tokenSlots : ℕ := 32

/-- The byte `':'`, the delimiter of the inner loop. -/
def innerDelim : Byte := 58

/-- What goes wrong: a write outside of `p`, `trackers` or `ip_addr`, or a loop that does not end. -/
inductive InfoFault where
  | outOfBounds
  | outOfFuel
deriving DecidableEq

/-- The variables of `trackerclient_info_init`.  A token is its offset in the list, and `buff` is `none`
for `NULL`. -/
structure InfoState where
  list : List Byte
  buff : Option ℕ
  p : List (Option ℕ)
  inSlot : ℕ
  index : ℕ
  outerPtr : ℕ
  innerPtr : ℕ
  trackers : List TrackerInfo
deriving DecidableEq

namespace InfoState

/-- `p[in] = token`. -/
def setToken (token : Option ℕ) (s : InfoState) : Except InfoFault InfoState :=
  if s.inSlot < s.p.length then .ok { s with p := s.p.set s.inSlot token } else .error .outOfBounds

/-- A write to `trackers[index]`. -/
def modifyTracker (f : TrackerInfo → TrackerInfo) (s : InfoState) : Except InfoFault InfoState :=
  if s.index < s.trackers.length then .ok { s with trackers := s.trackers.modify s.index f }
  else .error .outOfBounds

/-- The token at `t` is the address or the port of the tracker. -/
def storeToken (t : ℕ) (s : InfoState) : Except InfoFault InfoState :=
  let token := strAt s.list t
  if s.inSlot % 2 = 0 then
    if token.length ≤ trackerIpSize then
      s.modifyTracker fun info => { info with ipAddr := memcpyAt info.ipAddr 0 token }
    else .error .outOfBounds
  else s.modifyTracker fun info => { info with port := atoi token }

/-- The inner loop, over the parts of an entry. -/
def innerLoop : ℕ → InfoState → Except InfoFault InfoState
  | 0, _ => .error .outOfFuel
  | fuel + 1, s => do
    let r := strtokR s.list s.buff innerDelim s.innerPtr
    let s ← setToken r.token { s with list := r.buf, innerPtr := r.savePtr }
    match r.token with
    | none => .ok s
    | some t =>
      let s ← s.storeToken t
      innerLoop fuel { s with inSlot := s.inSlot + 1, buff := none }

/-- The outer loop, over the entries. -/
def outerLoop : ℕ → InfoState → Except InfoFault InfoState
  | 0, _ => .error .outOfFuel
  | fuel + 1, s => do
    let r := strtokR s.list s.buff batDataSeperator s.outerPtr
    let s ← setToken r.token { s with list := r.buf, outerPtr := r.savePtr }
    match r.token with
    | none => .ok s
    | some t =>
      let s ← innerLoop s.list.length { s with buff := some t }
      let s ← s.modifyTracker fun info => { info with index := s.index }
      outerLoop fuel { s with index := s.index + 1, buff := none }

end InfoState

def getSplitStrCount (str : List Byte) (seperator : Byte) : ℕ := 1 + (cstr str).count seperator

/-- `trackerclient_info_init`, with the tokens that happen to be in `p` before.  It returns
`tracker_count` and `trackers`. -/
def trackerclientInfoInit (p : List (Option ℕ)) (list : List Byte) :
    Except InfoFault (ℕ × List TrackerInfo) := do
  let trackerCount := getSplitStrCount list batDataSeperator
  let s ← InfoState.outerLoop list.length
    { list := list, buff := some 0, p := p, inSlot := 0, index := 0, outerPtr := 0, innerPtr := 0
      trackers := replicate trackerCount .zero }
  .ok (trackerCount, s.trackers)

/-! ### The entries of a list -/

/-- An entry `ip:port`, with the text of its port. -/
structure TrackerEntry where
  ip : List Byte
  digits : List Byte
  port : ℤ
  ip_ne : ip ≠ []
  ip_length : ip.length < trackerIpSize
  digits_ne : digits ≠ []
  bytes : ∀ b ∈ ip ++ digits, b ≠ 0 ∧ b ≠ innerDelim ∧ b ≠ batDataSeperator
  port_eq : atoi digits = port

namespace TrackerEntry

def text (e : TrackerEntry) : List Byte := e.ip ++ innerDelim :: e.digits

/-- The tracker of the entry `i`. -/
def info (e : TrackerEntry) (i : ℕ) : TrackerInfo :=
  ⟨i, e.port, e.ip ++ replicate (trackerIpSize - e.ip.length) 0⟩

end TrackerEntry

def trackerText (es : List TrackerEntry) : List Byte :=
  intercalate [batDataSeperator] (es.map TrackerEntry.text)

def trackerInfos (es : List TrackerEntry) : List TrackerInfo :=
  es.zipIdx.map fun ei => ei.1.info ei.2

namespace InfoState

/-- What the variables are in a run of the loops, less the arguments of `strtok_r`. -/
structure Vars (list : List Byte) (slot i : ℕ) (infos : List TrackerInfo) (s : InfoState) : Prop where
  list_eq : s.list = list
  slots : s.p.length = tokenSlots
  inSlot : s.inSlot = slot
  index : s.index = i
  trackers : s.trackers = infos

variable {list list' : List Byte} {slot i fuel t savePtr : ℕ} {infos : List TrackerInfo} {s : InfoState}

/-- What a token is stored as. -/
def stored (slot : ℕ) (token : List Byte) (info : TrackerInfo) : TrackerInfo :=
  if slot % 2 = 0 then { info with ipAddr := memcpyAt info.ipAddr 0 token }
  else { info with port := atoi token }

lemma Vars.innerLoop_token (fuel : ℕ) (h : Vars list slot i infos s) (hslot : slot < tokenSlots)
    (hi : i < infos.length)
    (htok : strtokR list s.buff innerDelim s.innerPtr = ⟨list', some t, savePtr⟩)
    (hlen : slot % 2 = 0 → (strAt list' t).length ≤ trackerIpSize) :
    ∃ s', innerLoop (fuel + 1) s = innerLoop fuel s' ∧
      Vars list' (slot + 1) i (infos.modify i (stored slot (strAt list' t))) s' ∧
      s'.buff = none ∧ s'.innerPtr = savePtr ∧ s'.outerPtr = s.outerPtr := by
  obtain ⟨rfl, hslots, rfl, rfl, rfl⟩ := h
  refine ⟨{ s with
    list := list', innerPtr := savePtr, buff := none
    p := s.p.set s.inSlot (some t), inSlot := s.inSlot + 1
    trackers := s.trackers.modify s.index (stored s.inSlot (strAt list' t)) }, ?_, ?_, rfl, rfl, rfl⟩
  · have hset : s.inSlot < s.p.length := hslots ▸ hslot
    rw [innerLoop, htok]
    simp only [setToken, hset, if_true, bind, Except.bind, storeToken, modifyTracker, hi]
    by_cases heven : s.inSlot % 2 = 0
    · have hstored : stored s.inSlot (strAt list' t) = fun info =>
          { info with ipAddr := memcpyAt info.ipAddr 0 (strAt list' t) } :=
        funext fun _ => if_pos heven
      simp only [heven, if_true, hlen heven, hstored]
    · have hstored : stored s.inSlot (strAt list' t) = fun info =>
          { info with port := atoi (strAt list' t) } := funext fun _ => if_neg heven
      simp only [heven, if_false, hstored]
  · exact ⟨rfl, (length_set ..).trans hslots, rfl, rfl, rfl⟩

lemma Vars.innerLoop_end (fuel : ℕ) (h : Vars list slot i infos s)
    (htok : strtokR list s.buff innerDelim s.innerPtr = ⟨list', none, savePtr⟩) :
    (slot < tokenSlots → ∃ s', innerLoop (fuel + 1) s = .ok s' ∧ Vars list' slot i infos s' ∧
      s'.outerPtr = s.outerPtr) ∧
    (tokenSlots ≤ slot → innerLoop (fuel + 1) s = .error .outOfBounds) := by
  obtain ⟨rfl, hslots, rfl, rfl, rfl⟩ := h
  rw [innerLoop, htok]
  constructor
  · intro hslot
    have hset : s.inSlot < s.p.length := hslots ▸ hslot
    refine ⟨{ s with list := list', innerPtr := savePtr, p := s.p.set s.inSlot none }, ?_, ?_, rfl⟩
    · simp only [setToken, hset, if_true, bind, Except.bind]
    · exact ⟨rfl, (length_set ..).trans hslots, rfl, rfl, rfl⟩
  · intro hslot
    have hset : ¬ s.inSlot < s.p.length := Nat.not_lt.2 (hslots ▸ hslot)
    simp only [setToken, hset, if_false, bind, Except.bind]

/-- The buffer of an entry that is not the last one, or of the last one, after the call of the outer
loop. -/
lemma Vars.outerLoop_token (fuel : ℕ) (h : Vars list slot i infos s) (hslot : slot < tokenSlots)
    (htok : strtokR list s.buff batDataSeperator s.outerPtr = ⟨list', some t, savePtr⟩) :
    ∃ s', outerLoop (fuel + 1) s =
        (innerLoop list'.length s').bind (fun s => (s.modifyTracker fun info =>
          { info with index := s.index }).bind fun s =>
            outerLoop fuel { s with index := s.index + 1, buff := none }) ∧
      Vars list' slot i infos s' ∧ s'.buff = some t ∧ s'.outerPtr = savePtr := by
  obtain ⟨rfl, hslots, rfl, rfl, rfl⟩ := h
  have hset : s.inSlot < s.p.length := hslots ▸ hslot
  refine ⟨{ s with
    list := list', outerPtr := savePtr, buff := some t, p := s.p.set s.inSlot (some t) }, ?_, ?_, rfl,
    rfl⟩
  · rw [outerLoop, htok]
    simp only [setToken, hset, if_true, bind, Except.bind]
  · exact ⟨rfl, (length_set ..).trans hslots, rfl, rfl, rfl⟩

lemma Vars.outerLoop_end (fuel : ℕ) (h : Vars list slot i infos s) (hslot : slot < tokenSlots)
    (htok : strtokR list s.buff batDataSeperator s.outerPtr = ⟨list', none, savePtr⟩) :
    ∃ s', outerLoop (fuel + 1) s = .ok s' ∧ s'.trackers = infos := by
  obtain ⟨rfl, hslots, rfl, rfl, rfl⟩ := h
  have hset : s.inSlot < s.p.length := hslots ▸ hslot
  refine ⟨{ s with list := list', outerPtr := savePtr, p := s.p.set s.inSlot none }, ?_, rfl⟩
  rw [outerLoop, htok]
  simp only [setToken, hset, if_true, bind, Except.bind]

end InfoState

namespace TrackerEntry

variable (e : TrackerEntry)

lemma zero_notMem_ip : (0 : Byte) ∉ e.ip := fun h => (e.bytes 0 (mem_append_left _ h)).1 rfl

lemma zero_notMem_digits : (0 : Byte) ∉ e.digits := fun h =>
  (e.bytes 0 (mem_append_right _ h)).1 rfl

lemma innerDelim_notMem_ip : innerDelim ∉ e.ip := fun h => (e.bytes _ (mem_append_left _ h)).2.1 rfl

lemma innerDelim_notMem_digits : innerDelim ∉ e.digits := fun h =>
  (e.bytes _ (mem_append_right _ h)).2.1 rfl

lemma text_ne_nil : e.text ≠ [] := by simp [text]

lemma zero_notMem_text : (0 : Byte) ∉ e.text := by
  simp only [text, mem_append, mem_cons, not_or]
  exact ⟨e.zero_notMem_ip, by decide, e.zero_notMem_digits⟩

lemma separator_notMem_text : batDataSeperator ∉ e.text := by
  simp only [text, mem_append, mem_cons, not_or]
  exact ⟨fun h => (e.bytes _ (mem_append_left _ h)).2.2 rfl, by decide,
    fun h => (e.bytes _ (mem_append_right _ h)).2.2 rfl⟩

end TrackerEntry

lemma modify_append_cons {α : Type} (f : α → α) (l : List α) (a : α) (r : List α) :
    (l ++ a :: r).modify l.length f = l ++ f a :: r := by
  rw [modify_eq_take_drop, take_left, drop_left]
  rfl

variable {pre rest post : List Byte} {i fuel savePtr : ℕ} {arg : Option ℕ} {infos zs : List TrackerInfo}
  {s : InfoState} {es : List TrackerEntry}

lemma InfoState.Vars.modifyTracker_index (fuel : ℕ) {list : List Byte} {slot : ℕ} {info : TrackerInfo}
    (h : s.Vars list slot i (infos ++ info :: zs)) (hlen : infos.length = i) :
    ∃ s', (s.modifyTracker fun info => { info with index := s.index }).bind
        (fun s => outerLoop fuel { s with index := s.index + 1, buff := none }) = outerLoop fuel s' ∧
      s'.Vars list slot (i + 1) (infos ++ { info with index := i } :: zs) ∧
      s'.buff = none ∧ s'.outerPtr = s.outerPtr := by
  obtain ⟨rfl, hslots, rfl, rfl, htrackers⟩ := h
  have hlt : s.index < s.trackers.length := by
    rw [htrackers, length_append, length_cons]
    omega
  refine ⟨{ s with
    trackers := s.trackers.modify s.index fun info => { info with index := s.index }
    index := s.index + 1, buff := none }, ?_, ⟨rfl, hslots, rfl, rfl, ?_⟩, rfl, rfl⟩
  · rw [modifyTracker, if_pos hlt]
    rfl
  · dsimp only
    rw [htrackers]
    conv_lhs => rw [← hlen]
    rw [modify_append_cons, hlen]

/-- **An entry.**  The inner loop stores its address and its port.  It takes the slots up to
`2 * i + 2`. -/
lemma TrackerEntry.innerLoop_eq (e : TrackerEntry) (fuel : ℕ)
    (h : s.Vars (pre ++ e.text ++ 0 :: rest) (2 * i) i (infos ++ .zero :: zs))
    (hbuff : s.buff = some pre.length) (hlen : infos.length = i) (hslot : 2 * i + 1 < tokenSlots) :
    (2 * i + 2 < tokenSlots → ∃ s', InfoState.innerLoop (fuel + 3) s = .ok s' ∧
      s'.Vars (pre ++ e.ip ++ 0 :: (e.digits ++ 0 :: rest)) (2 * i + 2) i
        (infos ++ { e.info i with index := 0 } :: zs) ∧
      s'.outerPtr = s.outerPtr) ∧
    (tokenSlots ≤ 2 * i + 2 → InfoState.innerLoop (fuel + 3) s = .error .outOfBounds) := by
  have hi : i < (infos ++ TrackerInfo.zero :: zs).length := by
    rw [length_append, length_cons]
    omega
  -- the address
  have hlist : pre ++ e.text ++ 0 :: rest = pre ++ e.ip ++ innerDelim :: (e.digits ++ 0 :: rest) := by
    simp [TrackerEntry.text]
  have hip : strAt (pre ++ e.ip ++ 0 :: (e.digits ++ 0 :: rest)) pre.length = e.ip :=
    strAt_append e.zero_notMem_ip
  rw [hlist] at h
  obtain ⟨s₁, hs₁, h₁, hbuff₁, hptr₁, hout₁⟩ := h.innerLoop_token (fuel + 2) (by omega) hi
    (strtokR_of_delim (by rw [hbuff]; rfl) e.ip_ne e.zero_notMem_ip e.innerDelim_notMem_ip (by decide))
    (fun _ => by rw [hip]; exact e.ip_length.le)
  -- the port
  have hpre : pre ++ e.ip ++ 0 :: (e.digits ++ 0 :: rest) =
      (pre ++ e.ip ++ [0]) ++ e.digits ++ 0 :: rest := by simp
  have hdigits : strAt ((pre ++ e.ip ++ [0]) ++ e.digits ++ 0 :: rest) (pre ++ e.ip ++ [0]).length =
      e.digits := strAt_append e.zero_notMem_digits
  have hodd : (2 * i + 1) % 2 = 1 := by omega
  rw [hip, hpre] at h₁
  obtain ⟨s₂, hs₂, h₂, hbuff₂, hptr₂, hout₂⟩ := h₁.innerLoop_token (fuel + 1) hslot
    (by rwa [length_modify])
    (strtokR_of_nul (by rw [hbuff₁, hptr₁]; simp [add_assoc]) e.digits_ne e.zero_notMem_digits
      e.innerDelim_notMem_digits)
    (fun heven => by omega)
  -- the end
  have hinfo : ((infos ++ TrackerInfo.zero :: zs).modify i (InfoState.stored (2 * i) e.ip)).modify i
      (InfoState.stored (2 * i + 1) e.digits) = infos ++ { e.info i with index := 0 } :: zs := by
    rw [← hlen, modify_append_cons, modify_append_cons]
    simp [InfoState.stored, TrackerInfo.zero, TrackerEntry.info, memcpyAt, e.port_eq, Nat.add_mod]
  rw [hdigits, hinfo] at h₂
  obtain ⟨hok, herr⟩ := h₂.innerLoop_end fuel
    (strtokR_of_end (by rw [hbuff₂, hptr₂]; exact (length_append ..).symm))
  rw [hs₁, hs₂]
  refine ⟨fun hlt => ?_, herr⟩
  obtain ⟨s₃, hs₃, h₃, hout₃⟩ := hok hlt
  refine ⟨s₃, hs₃, ?_, by rw [hout₃, hout₂, hout₁]⟩
  rw [hpre]
  exact h₃

/-! ### The whole list -/

lemma trackerText_cons_cons (e e' : TrackerEntry) (es : List TrackerEntry) :
    trackerText (e :: e' :: es) = e.text ++ batDataSeperator :: trackerText (e' :: es) := by
  simp [trackerText, intercalate_cons_cons]

/-- The call of the outer loop at an entry.  Behind the entry there is a NUL, which for the last entry
is the one of the list. -/
lemma strtokR_entry (post : List Byte) (e : TrackerEntry) (es : List TrackerEntry)
    (harg : arg.getD savePtr = pre.length) :
    ∃ gap rest, strtokR (pre ++ (trackerText (e :: es) ++ 0 :: post)) arg batDataSeperator savePtr =
        ⟨pre ++ e.text ++ 0 :: rest, some pre.length, pre.length + e.text.length + gap.length⟩ ∧
      0 :: rest = gap ++ (trackerText es ++ 0 :: post) := by
  cases es with
  | nil =>
    have hlist : pre ++ (trackerText [e] ++ 0 :: post) = pre ++ e.text ++ 0 :: post := by
      simp [trackerText]
    refine ⟨[], post, ?_, rfl⟩
    rw [hlist, strtokR_of_nul harg e.text_ne_nil e.zero_notMem_text e.separator_notMem_text]
    rfl
  | cons e' es =>
    have hlist : pre ++ (trackerText (e :: e' :: es) ++ 0 :: post) =
        pre ++ e.text ++ batDataSeperator :: (trackerText (e' :: es) ++ 0 :: post) := by
      rw [trackerText_cons_cons]
      simp
    refine ⟨[0], trackerText (e' :: es) ++ 0 :: post, ?_, rfl⟩
    rw [hlist, strtokR_of_delim harg e.text_ne_nil e.zero_notMem_text e.separator_notMem_text
      (by decide)]
    rfl

/-- The most entries for which the slots of `p` suffice. -/
def maxEntries : ℕ := 15

/-- **The outer loop.**  It stores the entries one after the other, up to the one whose slots are not
there. -/
lemma outerLoop_entries (h : s.Vars (pre ++ (trackerText es ++ 0 :: post)) (2 * i) i
      (infos ++ replicate es.length .zero))
    (hptr : s.buff.getD s.outerPtr = pre.length) (hlen : infos.length = i) (hi : i ≤ maxEntries)
    (hfuel : es.length < fuel) :
    (i + es.length ≤ maxEntries → ∃ s', InfoState.outerLoop fuel s = .ok s' ∧
      s'.trackers = infos ++ (es.zipIdx i).map fun ei => ei.1.info ei.2) ∧
    (maxEntries < i + es.length → InfoState.outerLoop fuel s = .error .outOfBounds) := by
  have hslots : tokenSlots = 32 := rfl
  have hmax : maxEntries = 15 := rfl
  induction es generalizing pre infos i fuel s with
  | nil =>
    obtain ⟨fuel, rfl⟩ := Nat.exists_eq_succ_of_ne_zero (by omega : fuel ≠ 0)
    constructor
    · intro _
      obtain ⟨s', hs', htrackers⟩ := h.outerLoop_end fuel (by omega) (strtokR_of_end hptr)
      exact ⟨s', hs', htrackers⟩
    · intro hlt
      rw [length_nil] at hlt
      omega
  | cons e es ih =>
    obtain ⟨fuel, rfl⟩ := Nat.exists_eq_succ_of_ne_zero (by omega : fuel ≠ 0)
    obtain ⟨gap, rest, htok, hrest⟩ := strtokR_entry post e es hptr
    obtain ⟨s₁, hs₁, h₁, hbuff₁, hout₁⟩ := h.outerLoop_token fuel (by omega) htok
    rw [length_cons, replicate_succ] at h₁
    -- there are three tokens in the entry
    obtain ⟨k, hk⟩ : ∃ k, (pre ++ e.text ++ 0 :: rest).length = k + 3 := by
      have hip := length_pos_iff.2 e.ip_ne
      have hdigits := length_pos_iff.2 e.digits_ne
      refine ⟨(pre ++ e.text ++ 0 :: rest).length - 3, (Nat.sub_add_cancel ?_).symm⟩
      simp only [length_append, TrackerEntry.text, length_cons]
      omega
    obtain ⟨hok, herr⟩ := e.innerLoop_eq k h₁ hbuff₁ hlen (by omega)
    rw [hs₁, hk]
    by_cases hlast : i = maxEntries
    · -- the slot of the last `NULL` is not there
      rw [herr (by omega)]
      constructor
      · intro hle
        rw [length_cons] at hle
        omega
      · exact fun _ => rfl
    · obtain ⟨s₂, hs₂, h₂, hout₂⟩ := hok (by omega)
      obtain ⟨s₃, hs₃, h₃, hbuff₃, hout₃⟩ := h₂.modifyTracker_index fuel hlen
      have hlist : pre ++ e.ip ++ 0 :: (e.digits ++ 0 :: rest) =
          (pre ++ e.ip ++ 0 :: e.digits ++ gap) ++ (trackerText es ++ 0 :: post) := by
        rw [hrest]
        simp
      have hinfos : infos ++ e.info i :: replicate es.length TrackerInfo.zero =
          infos ++ [e.info i] ++ replicate es.length TrackerInfo.zero := by simp
      have hptr₃ : s₃.buff.getD s₃.outerPtr = (pre ++ e.ip ++ 0 :: e.digits ++ gap).length := by
        rw [hbuff₃, Option.getD_none, hout₃, hout₂, hout₁]
        simp only [TrackerEntry.text, length_append, length_cons]
        omega
      have hfuel₃ : es.length < fuel := by
        rw [length_cons] at hfuel
        omega
      rw [hlist] at h₃
      obtain ⟨hok₃, herr₃⟩ := ih (i := i + 1) (hinfos ▸ h₃) hptr₃ (by simp [hlen]) (by omega) hfuel₃
      have hrun : (InfoState.innerLoop (k + 3) s₁).bind (fun s => (s.modifyTracker fun info =>
          { info with index := s.index }).bind fun s =>
            InfoState.outerLoop fuel { s with index := s.index + 1, buff := none }) =
          InfoState.outerLoop fuel s₃ := by
        rw [hs₂]
        exact hs₃
      rw [hrun, length_cons, ← add_assoc, add_right_comm]
      refine ⟨fun hle => ?_, herr₃⟩
      obtain ⟨s', hs', htrackers⟩ := hok₃ hle
      exact ⟨s', hs', by rw [htrackers, zipIdx_cons, map_cons, append_assoc]; rfl⟩

lemma zero_notMem_trackerText (es : List TrackerEntry) : (0 : Byte) ∉ trackerText es := by
  intro hmem
  rcases mem_intercalate hmem with heq | ⟨a, ha, hmem⟩
  · exact absurd heq (by decide)
  · obtain ⟨e, -, rfl⟩ := mem_map.1 ha
    exact e.zero_notMem_text hmem

lemma getSplitStrCount_trackerText (hne : es ≠ []) (post : List Byte) :
    getSplitStrCount (trackerText es ++ 0 :: post) batDataSeperator = es.length := by
  rw [getSplitStrCount, cstr_append (zero_notMem_trackerText es) (by simp)]
  induction es with
  | nil => exact absurd rfl hne
  | cons e es ih =>
    have he : e.text.count batDataSeperator = 0 := count_eq_zero.2 e.separator_notMem_text
    cases es with
    | nil => simp [trackerText, he]
    | cons e' es =>
      rw [trackerText_cons_cons, count_append, count_cons_self, he, length_cons, ← ih (by simp)]
      omega

lemma length_le_trackerText (es : List TrackerEntry) : es.length ≤ (trackerText es).length := by
  induction es with
  | nil => exact Nat.zero_le _
  | cons e es ih =>
    have he := length_pos_iff.2 e.text_ne_nil
    cases es with
    | nil =>
      rw [trackerText, map_singleton, intercalate_singleton]
      exact he
    | cons e' es =>
      rw [trackerText_cons_cons, length_append, length_cons]
      exact (Nat.succ_le_succ ih).trans (Nat.le_add_left ..)

lemma trackerclientInfoInit_entries (hne : es ≠ []) {p : List (Option ℕ)} (hp : p.length = tokenSlots)
    (post : List Byte) :
    (es.length ≤ maxEntries → trackerclientInfoInit p (trackerText es ++ 0 :: post) =
      .ok (es.length, trackerInfos es)) ∧
    (maxEntries < es.length → trackerclientInfoInit p (trackerText es ++ 0 :: post) =
      .error .outOfBounds) := by
  have hcount := getSplitStrCount_trackerText hne post
  have hfuel : es.length < (trackerText es ++ 0 :: post).length := by
    have hle := length_le_trackerText es
    rw [length_append, length_cons]
    omega
  let s₀ : InfoState :=
    { list := trackerText es ++ 0 :: post, buff := some 0, p := p, inSlot := 0, index := 0
      outerPtr := 0, innerPtr := 0, trackers := replicate es.length .zero }
  have hvars : s₀.Vars ([] ++ (trackerText es ++ 0 :: post)) (2 * 0) 0
      ([] ++ replicate es.length .zero) := ⟨rfl, hp, rfl, rfl, rfl⟩
  obtain ⟨hok, herr⟩ := outerLoop_entries hvars rfl rfl (by decide) hfuel
  rw [zero_add] at hok herr
  rw [trackerclientInfoInit, hcount]
  constructor
  · intro hle
    obtain ⟨s', hs', htrackers⟩ := hok hle
    rw [hs']
    exact congrArg (fun infos => Except.ok (es.length, infos)) htrackers
  · intro hlt
    rw [herr hlt]
    rfl

/-- **The list of trackers.**  The trackers are the entries of the list, and nothing is written outside
of the arrays, exactly if there are at most 15 entries. -/
theorem trackerList_iff (hne : es ≠ []) {p : List (Option ℕ)} (hp : p.length = tokenSlots)
    (post : List Byte) :
    trackerclientInfoInit p (trackerText es ++ 0 :: post) = .ok (es.length, trackerInfos es) ↔
      es.length ≤ maxEntries := by
  obtain ⟨hok, herr⟩ := trackerclientInfoInit_entries hne hp post
  refine ⟨fun h => ?_, hok⟩
  by_contra hlt
  rw [herr (Nat.lt_of_not_le hlt)] at h
  cases h

/-- The entry `1:5`. -/
def shortEntry : TrackerEntry where
  ip := [49]
  digits := [53]
  port := 5
  ip_ne := by simp
  ip_length := by decide
  digits_ne := by simp
  bytes := by simp [innerDelim, batDataSeperator]
  port_eq := by decide

/-- The list `1:5|1:5|2:5`. -/
theorem trackerList_three : ∃ e : TrackerEntry, e.text = [50, 58, 53] ∧
    trackerclientInfoInit (replicate tokenSlots none) (trackerText [shortEntry, shortEntry, e] ++ 0 :: []) =
      .ok (3, trackerInfos [shortEntry, shortEntry, e]) :=
  ⟨{ shortEntry with ip := [50], ip_ne := by simp, ip_length := by decide,
                     bytes := by simp [innerDelim, batDataSeperator, shortEntry] },
    rfl, (trackerList_iff (by simp) rfl []).2 (by decide)⟩

/-- A list of 16 entries writes behind `p`. -/
theorem trackerList_sixteen : trackerclientInfoInit (replicate tokenSlots none)
      (trackerText (replicate 16 shortEntry) ++ [0]) = .error .outOfBounds := by
  decide

end Lfs.Server
