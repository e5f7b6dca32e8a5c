/-
The bounds of the replies to a heartbeat on the side of the dataserver (`__check_volumeblocks_change` and
`__local_volume_blocks_manager` in `tracker_client.c`).

The body of a reply is received into `resp_buff`, which has room for `LFS_MAX_BLOCKS_EACH_VOLUME`
records, before its length is compared with anything.  A body that is shorter than a record makes an
assertion fail, and a peer that is not known is added to `volume_blocks` without a look at their number
or at the length of its address.
-/
import Lfs.Server.PeerView

namespace Lfs.Server

open Lfs.Lib Lfs.Tracker List

/-- `sizeof(resp_buff)`. -/
def sizeofRespBuff : ℕ := sizeofBrief * lfsMaxBlocksEachVolume

/-- `__check_volumeblocks_change` for a reply with the status of success and with this body, which has
`resp_bytes` bytes. -/
def checkVolumeblocksChange (s : Except PeerFault (List BlockBrief)) (body : List Byte) :
    Except PeerFault (List BlockBrief) :=
  s.bind fun t =>
    if body.length = 0 then .ok t
    -- `client_recvdata_nomalloc`
    else if sizeofRespBuff < body.length then .error .received
    else if lfsMaxBlocksEachVolume < body.length / sizeofBrief then .ok t
    else localVolumeBlocksManager (volumeBlocks body) t

/-- The addresses in the records end within their field. -/
def AddressesFit (body : List Byte) : Prop :=
  ∀ r ∈ volumeBlocks body, r.dsIpaddr.length < ipAddressSize

instance : DecidablePred AddressesFit := fun body =>
  inferInstanceAs (Decidable (∀ r ∈ volumeBlocks body, _))

/-- The body is empty, or has whole records and room in `resp_buff`. -/
def BodyFits (body : List Byte) : Prop :=
  body.length ≤ sizeofRespBuff ∧ (body.length = 0 ∨ sizeofBrief ≤ body.length)

instance : DecidablePred BodyFits := fun _ => inferInstanceAs (Decidable (_ ∧ (_ ∨ _)))

/-- The addresses of the peers that the replies name. -/
def namedPeers (bodies : List (List Byte)) : Finset (List Byte) :=
  ((bodies.flatMap volumeBlocks).map BlockBrief.dsIpaddr).toFinset

variable {t t' : List BlockBrief} {body : List Byte} {bodies : List (List Byte)}

lemma length_volumeBlocks (body : List Byte) :
    (volumeBlocks body).length = body.length / sizeofBrief := by
  rw [volumeBlocks, length_map, length_range]

lemma volumeBlocks_eq_nil_iff : volumeBlocks body = [] ↔ body.length < sizeofBrief := by
  rw [← length_eq_zero_iff, length_volumeBlocks, Nat.div_eq_zero_iff]
  exact or_iff_right (by decide)

/-- **One reply** passes exactly if its body fits and there is room for the peers that it names and for
their addresses. -/
lemma checkVolumeblocksChange_eq_ok_iff (ht : t.length ≤ lfsMaxBlocksEachVolume) :
    checkVolumeblocksChange (.ok t) body = .ok t' ↔
      BodyFits body ∧ t' = (volumeBlocks body).foldl withRecord t ∧
        t'.length ≤ lfsMaxBlocksEachVolume ∧ ∀ r ∈ volumeBlocks body, AddressFits t r := by
  have hcheck : checkVolumeblocksChange (.ok t) body = if body.length = 0 then .ok t
      else if sizeofRespBuff < body.length then .error .received
      else if lfsMaxBlocksEachVolume < body.length / sizeofBrief then .ok t
      else localVolumeBlocksManager (volumeBlocks body) t := rfl
  rw [hcheck]
  by_cases hnil : body.length = 0
  · -- nothing is received
    have hrecords : volumeBlocks body = [] := by
      rw [volumeBlocks_eq_nil_iff, hnil]
      decide
    rw [if_pos hnil, hrecords, foldl_nil, Except.ok.injEq]
    constructor
    · rintro rfl
      exact ⟨⟨by omega, .inl hnil⟩, rfl, ht, by simp⟩
    · rintro ⟨-, rfl, -⟩
      rfl
  rw [if_neg hnil]
  by_cases hlong : sizeofRespBuff < body.length
  · rw [if_pos hlong]
    exact iff_of_false (by simp) fun h => absurd h.1.1 (not_le.2 hlong)
  · have hcount : ¬ lfsMaxBlocksEachVolume < body.length / sizeofBrief := by
      rw [not_lt, ← Nat.mul_div_cancel_left lfsMaxBlocksEachVolume (by decide : 0 < sizeofBrief)]
      exact Nat.div_le_div_right (not_lt.1 hlong)
    rw [if_neg hlong, if_neg hcount, localVolumeBlocksManager]
    by_cases hempty : volumeBlocks body = []
    · rw [if_pos hempty]
      refine iff_of_false (by simp) fun h => ?_
      rcases h.1.2 with h | h
      · exact hnil h
      · exact absurd h (not_le.2 (volumeBlocks_eq_nil_iff.1 hempty))
    · have hfits : BodyFits body :=
        ⟨not_lt.1 hlong, .inr (not_lt.1 fun hshort => hempty (volumeBlocks_eq_nil_iff.2 hshort))⟩
      rw [if_neg hempty, managerRounds_eq_ok_iff ht, and_iff_right hfits]

lemma run_checkVolumeblocksChange_error (fault : PeerFault) (bodies : List (List Byte)) :
    run checkVolumeblocksChange (.error fault) bodies = .error fault := by
  refine Along.run_inv (I := fun s => s = Except.error fault) rfl ?_
  rintro _ body rfl
  rfl

/-- **All replies** pass exactly if their bodies fit and there is room for all peers and addresses. -/
lemma run_checkVolumeblocksChange_eq_ok_iff (ht : t.length ≤ lfsMaxBlocksEachVolume) :
    run checkVolumeblocksChange (.ok t) bodies = .ok t' ↔
      (∀ body ∈ bodies, BodyFits body) ∧ t' = (bodies.flatMap volumeBlocks).foldl withRecord t ∧
        t'.length ≤ lfsMaxBlocksEachVolume ∧ ∀ r ∈ bodies.flatMap volumeBlocks, AddressFits t r := by
  induction bodies generalizing t with
  | nil =>
    rw [run_nil, flatMap_nil, foldl_nil, Except.ok.injEq]
    constructor
    · rintro rfl
      exact ⟨by simp, rfl, ht, by simp⟩
    · rintro ⟨-, rfl, -⟩
      rfl
  | cons body bodies ih =>
    rw [run_cons, flatMap_cons, foldl_append, forall_mem_cons, forall_mem_append]
    cases hcheck : checkVolumeblocksChange (.ok t) body with
    | ok t₁ =>
      obtain ⟨hbody, rfl, hlen, hfits⟩ := (checkVolumeblocksChange_eq_ok_iff ht).1 hcheck
      have hrest : (∀ r ∈ bodies.flatMap volumeBlocks,
          AddressFits ((volumeBlocks body).foldl withRecord t) r) ↔
          ∀ r ∈ bodies.flatMap volumeBlocks, AddressFits t r :=
        forall₂_congr fun _ _ => addressFits_withRecords_iff hfits
      rw [ih hlen, hrest, and_iff_right hbody, and_iff_right hfits]
    | error fault =>
      rw [run_checkVolumeblocksChange_error]
      refine iff_of_false (by simp) ?_
      rintro ⟨⟨hbody, -⟩, rfl, hlen, hfits, -⟩
      have hok := (checkVolumeblocksChange_eq_ok_iff ht).2
        ⟨hbody, rfl, (length_le_withRecords _ _).trans hlen, hfits⟩
      rw [hok] at hcheck
      exact absurd hcheck (by simp)

/-- **The replies stay within the tables.**  No receive asks for more bytes than `resp_buff` has, the
assertion does not fail, no entry is written past the end of `volume_blocks` and no address is copied
that does not end within its field, exactly if each body is empty or has at least one record and at most
as many bytes as `resp_buff`, the addresses in it end within their fields, and all replies together name
at most `LFS_MAX_BLOCKS_EACH_VOLUME` peers. -/
theorem replies_within_iff (bodies : List (List Byte)) :
    (∀ fault, run checkVolumeblocksChange (.ok []) bodies ≠ .error fault) ↔
      (∀ body ∈ bodies, BodyFits body) ∧ (∀ body ∈ bodies, AddressesFit body) ∧
        (namedPeers bodies).card ≤ lfsMaxBlocksEachVolume := by
  have hok : (∀ fault, run checkVolumeblocksChange (.ok []) bodies ≠ .error fault) ↔
      ∃ t, run checkVolumeblocksChange (.ok []) bodies = .ok t := by
    cases run checkVolumeblocksChange (.ok []) bodies <;> simp
  have hlength : ((bodies.flatMap volumeBlocks).foldl withRecord []).length = (namedPeers bodies).card := by
    have hnodup : (([] : List BlockBrief).map BlockBrief.dsIpaddr).Nodup := nodup_nil
    rw [withRecord, length_foldl takeOver_dsIpaddr hnodup, nil_append]
    rfl
  have hfit : (∀ r ∈ bodies.flatMap volumeBlocks, AddressFits [] r) ↔
      ∀ body ∈ bodies, AddressesFit body := by
    simp only [AddressFits, map_nil, not_mem_nil, false_or, forall_mem_flatMap]
    rfl
  have hempty : ([] : List BlockBrief).length ≤ lfsMaxBlocksEachVolume := Nat.zero_le _
  simp only [hok, run_checkVolumeblocksChange_eq_ok_iff hempty, hfit]
  constructor
  · rintro ⟨t, hbodies, rfl, hlen, haddresses⟩
    exact ⟨hbodies, haddresses, hlength ▸ hlen⟩
  · rintro ⟨hbodies, haddresses, hcard⟩
    exact ⟨_, hbodies, rfl, hlength ▸ hcard, haddresses⟩

/-- The body that names the peers with addresses of one letter. -/
def bodyNaming (ips : List Byte) : List Byte :=
  ips.flatMap fun ip => List.replicate 8 0 ++ ip :: List.replicate 31 0

/-- Four records are received past the end of `resp_buff`, a body of one byte makes the assertion fail,
and the fourth peer is entered past the end of `volume_blocks`. -/
theorem replies_not_within :
    run checkVolumeblocksChange (.ok []) [bodyNaming [49, 50, 51, 52]] = .error .received ∧
    run checkVolumeblocksChange (.ok []) [[0]] = .error .asserted ∧
    run checkVolumeblocksChange (.ok []) [bodyNaming [49, 50], bodyNaming [51, 52]] =
      .error .overrun := by
  decide +kernel

end Lfs.Server
