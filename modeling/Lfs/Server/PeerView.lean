/-
What a dataserver knows of its peers (`__local_volume_blocks_manager` in `tracker_client.c`).

The function goes through the blocks of a reply: one that is not in `volume_blocks` is added, and of one
that is there the sequence is taken over.  The state is taken over only if the peer comes on-line, and
the port never.  Here one reporter goes through its replies without another one in between; it
does the steps of `Peers.step` (`managerRounds_lone`).
-/
import Lfs.Lib.Keyed
import Lfs.Lib.Reach
import Lfs.Server.Peers

namespace Lfs.Server

open Lfs.Lib Lfs.Tracker List BlockBrief

inductive PeerFault where
  /-- More bytes are received than `resp_buff` has. -/
  | received
  /-- `assert(bbirs_count != 0)` fails. -/
  | asserted
  /-- An entry is written past the end of `volume_blocks`. -/
  | overrun
  /-- An address is copied that does not end within its field. -/
  | spilled
deriving DecidableEq

/-- What is taken over from `ites` for a peer that has been found. -/
def takeOver (ites pf : BlockBrief) : BlockBrief :=
  { pf with
    lastSyncSequence := ites.lastSyncSequence
    state := if pf.state ≠ ites.state ∧ Idle pf.state ∧ Live ites.state then ites.state else pf.state }

/-- A round of the loop of `__local_volume_blocks_manager`.  Whether the thread for the peer can be
started makes no difference for the table. -/
def managerRound (volumeBlocks : List BlockBrief) (ites : BlockBrief) :
    Except PeerFault (List BlockBrief) :=
  match localVolumeBlocksFind ites.dsIpaddr volumeBlocks with
  | some i => .ok (volumeBlocks.modify i (takeOver ites))
  | none =>
    match localVolumeBlocksAdd ites volumeBlocks with
    | some (_, volumeBlocks) =>
      if ites.dsIpaddr.length < ipAddressSize then .ok volumeBlocks else .error .spilled
    | none => .error .overrun

def localVolumeBlocksManager (bbirs volumeBlocks : List BlockBrief) :
    Except PeerFault (List BlockBrief) :=
  if bbirs = [] then .error .asserted else bbirs.foldlM managerRound volumeBlocks

/-! ### The table after a reply -/

/-- The table with a further record, if there is room. -/
def withRecord : List BlockBrief → BlockBrief → List BlockBrief :=
  upsertWith dsIpaddr takeOver

lemma takeOver_dsIpaddr (r e : BlockBrief) : (takeOver r e).dsIpaddr = e.dsIpaddr := rfl

lemma takeOver_self (r : BlockBrief) : takeOver r r = r := by
  simp [takeOver]

lemma takeOver_takeOver (r e : BlockBrief) : takeOver r (takeOver r e) = takeOver r e := by
  simp only [takeOver]
  split_ifs with h h' <;> simp_all

lemma takeOver_eq_iff {r e : BlockBrief} (hip : e.dsIpaddr = r.dsIpaddr) : takeOver r e = r ↔
      e.dsPort = r.dsPort ∧ (e.state = r.state ∨ Idle e.state ∧ Live r.state) := by
  obtain ⟨state, ip, port, seq⟩ := r
  obtain ⟨state', ip', port', seq'⟩ := e
  obtain rfl : ip' = ip := hip
  simp only [takeOver, mk.injEq, true_and, and_true]
  rw [and_comm]
  refine and_congr_right fun _ => ?_
  by_cases heq : state' = state
  · simp [heq]
  · simp [heq]

variable {t t' : List BlockBrief} {r : BlockBrief} {rs : List BlockBrief}

lemma nodup_withRecords (ht : (t.map dsIpaddr).Nodup) (rs : List BlockBrief) :
    ((rs.foldl withRecord t).map dsIpaddr).Nodup :=
  nodup_keys_foldl takeOver_dsIpaddr ht rs

lemma length_le_withRecord (t : List BlockBrief) (r : BlockBrief) :
    t.length ≤ (withRecord t r).length := by
  rw [withRecord, upsertWith]
  cases t.findIdx? fun e => decide (e.dsIpaddr = r.dsIpaddr) <;> simp

lemma length_le_withRecords (t rs : List BlockBrief) : t.length ≤ (rs.foldl withRecord t).length := by
  induction rs generalizing t with
  | nil => exact le_rfl
  | cons r rs ih => exact (length_le_withRecord t r).trans (ih _)

/-- The address of the record ends within its field, or is not copied, as the peer is in the table. -/
def AddressFits (t : List BlockBrief) (r : BlockBrief) : Prop :=
  r.dsIpaddr ∈ t.map dsIpaddr ∨ r.dsIpaddr.length < ipAddressSize

lemma addressFits_withRecord_iff {r' : BlockBrief} (hr : AddressFits t r) :
    AddressFits (withRecord t r) r' ↔ AddressFits t r' := by
  have hkeys : r'.dsIpaddr ∈ (withRecord t r).map dsIpaddr ↔
      r'.dsIpaddr = r.dsIpaddr ∨ r'.dsIpaddr ∈ t.map dsIpaddr := by
    rw [← mem_toFinset, withRecord, toFinset_keys_upsertWith (takeOver_dsIpaddr r),
      Finset.mem_insert, mem_toFinset]
  rw [AddressFits, hkeys, or_assoc]
  refine or_iff_right_of_imp fun hip => ?_
  rw [hip]
  exact hr

lemma addressFits_withRecords_iff {r' : BlockBrief} (hrs : ∀ r ∈ rs, AddressFits t r) :
    AddressFits (rs.foldl withRecord t) r' ↔ AddressFits t r' := by
  induction rs generalizing t with
  | nil => exact Iff.rfl
  | cons r rs ih =>
    have hr : AddressFits t r := hrs r mem_cons_self
    have hrest : ∀ r' ∈ rs, AddressFits (withRecord t r) r' :=
      fun r' hr' => (addressFits_withRecord_iff hr).2 (hrs r' (mem_cons_of_mem _ hr'))
    exact (ih hrest).trans (addressFits_withRecord_iff hr)

lemma managerRound_eq_ok_iff (ht : t.length ≤ lfsMaxBlocksEachVolume) : managerRound t r = .ok t' ↔
      t' = withRecord t r ∧ t'.length ≤ lfsMaxBlocksEachVolume ∧ AddressFits t r := by
  have hfind : localVolumeBlocksFind r.dsIpaddr t =
      t.findIdx? fun e => decide (e.dsIpaddr = r.dsIpaddr) :=
    congrArg t.findIdx? (funext fun e => beq_eq_decide e.dsIpaddr r.dsIpaddr)
  rw [managerRound, withRecord, upsertWith, hfind]
  cases hidx : t.findIdx? fun e => decide (e.dsIpaddr = r.dsIpaddr) with
  | some i =>
    obtain ⟨hi, hip, -⟩ := findIdx?_eq_some_iff_getElem.1 hidx
    have hfits : AddressFits t r := .inl (mem_map.2 ⟨_, getElem_mem hi, of_decide_eq_true hip⟩)
    simp only [Except.ok.injEq]
    constructor
    · rintro rfl
      exact ⟨rfl, by simpa using ht, hfits⟩
    · rintro ⟨rfl, -⟩
      rfl
  | none =>
    have hnew : r.dsIpaddr ∉ t.map dsIpaddr := by
      simpa using findIdx?_eq_none_iff.1 hidx
    rw [AddressFits, or_iff_right hnew, localVolumeBlocksAdd]
    by_cases hroom : t.length < lfsMaxBlocksEachVolume
    · by_cases hr : r.dsIpaddr.length < ipAddressSize
      · simp only [if_pos hroom, if_pos hr, Except.ok.injEq]
        constructor
        · rintro rfl
          exact ⟨rfl, by simpa using hroom, hr⟩
        · rintro ⟨rfl, -⟩
          rfl
      · simp [hroom, hr]
    · have hfull : ¬ t.length + 1 ≤ lfsMaxBlocksEachVolume := hroom
      simp only [if_neg hroom, reduceCtorEq, false_iff]
      rintro ⟨rfl, hle, -⟩
      exact hfull (by simpa using hle)

/-- **All rounds** end with the table of all records, if there is room for them and for the addresses. -/
lemma managerRounds_eq_ok_iff (ht : t.length ≤ lfsMaxBlocksEachVolume) :
    rs.foldlM managerRound t = .ok t' ↔
      t' = rs.foldl withRecord t ∧ t'.length ≤ lfsMaxBlocksEachVolume ∧ ∀ r ∈ rs, AddressFits t r := by
  induction rs generalizing t with
  | nil =>
    rw [foldlM_nil, foldl_nil]
    constructor
    · rintro ⟨⟩
      exact ⟨rfl, ht, by simp⟩
    · rintro ⟨rfl, -⟩
      rfl
  | cons r rs ih =>
    rw [foldlM_cons, foldl_cons, forall_mem_cons]
    cases hround : managerRound t r with
    | ok t₁ =>
      obtain ⟨rfl, hroom, hr⟩ := (managerRound_eq_ok_iff ht).1 hround
      have hrest : (∀ r' ∈ rs, AddressFits (withRecord t r) r') ↔ ∀ r' ∈ rs, AddressFits t r' :=
        forall₂_congr fun _ _ => addressFits_withRecord_iff hr
      rw [← hrest, and_iff_right hr]
      exact ih hroom
    | error fault =>
      refine iff_of_false (by simp [bind, Except.bind]) ?_
      rintro ⟨rfl, hle, hr, -⟩
      -- the table only grows
      have hround' := (managerRound_eq_ok_iff ht).2 ⟨rfl, (length_le_withRecords _ rs).trans hle, hr⟩
      rw [hround] at hround'
      exact absurd hround' (by simp)

/-! ### A reporter alone -/

namespace Peers

variable {bindAddr : List Byte} {created : Bool} {todo : List BlockBrief} {m m' : Manager}

/-- The only reporter gets from the table `t` and the place `m` to `t'` and `m'`. -/
def LoneReaches (bindAddr : List Byte) (created : Bool) (t : List BlockBrief) (m : Manager)
    (t' : List BlockBrief) (m' : Manager) : Prop :=
  ∀ started, ∃ started',
    Reaches (step bindAddr · (0, created)) ⟨some t, started, [m]⟩ ⟨some t', started', [m']⟩

lemma LoneReaches.refl : LoneReaches bindAddr created t m t m := fun started => ⟨started, .refl _ _⟩

lemma LoneReaches.trans {t₁ : List BlockBrief} {m₁ : Manager}
    (h : LoneReaches bindAddr created t m t₁ m₁) (h' : LoneReaches bindAddr created t₁ m₁ t' m') :
    LoneReaches bindAddr created t m t' m' := by
  intro started
  obtain ⟨started₁, h⟩ := h started
  obtain ⟨started', h'⟩ := h' started₁
  exact ⟨started', h.trans h'⟩

lemma LoneReaches.step {pc : ManagerPc} {pc' : Option ManagerPc} {began : Option (List Byte)}
    (h : managerStep bindAddr created r t pc = some (t', pc', began)) :
    LoneReaches bindAddr created t ⟨r :: todo, pc⟩ t' (Manager.next r todo pc') :=
  fun started => ⟨began.toList ++ started, .step (by simp [Peers.step, h])⟩

/-- A round is done in a few steps of the reporter. -/
lemma managerRound_lone (h : managerRound t r = .ok t') :
    LoneReaches bindAddr created t ⟨r :: todo, .find⟩ t' ⟨todo, .find⟩ := by
  rw [managerRound] at h
  cases hfind : localVolumeBlocksFind r.dsIpaddr t with
  | some i =>
    have hi : i < t.length := (findIdx?_eq_some_iff_getElem.1 hfind).1
    have hset : t' = t.set i (takeOver r t[i]) := by
      simpa [hfind, modify_eq_set_getElem?, hi] using h.symm
    have hfound : managerStep bindAddr created r t .find = some (t, some (.compare i), none) := by
      simp only [managerStep, hfind]
    refine .trans (.step hfound) ?_
    by_cases hlive : t[i].state ≠ r.state ∧ Idle t[i].state ∧ Live r.state
    · -- the state is written, and a thread is started
      have hcompare : managerStep bindAddr created r t (.compare i) =
          some (t.set i { t[i] with lastSyncSequence := r.lastSyncSequence }, some (.write i), none) := by
        simp [managerStep, hi, hlive]
      have hwrite : managerStep bindAddr created r
          (t.set i { t[i] with lastSyncSequence := r.lastSyncSequence }) (.write i) =
          some (t', some (.start i false), none) := by
        simp [managerStep, hi, hset, takeOver, hlive]
      have hstart : managerStep bindAddr created r t' (.start i false) =
          some (t', none, asyncThreadStart bindAddr created (takeOver r t[i])) := by
        simp [managerStep, hi, hset]
      exact (LoneReaches.step hcompare).trans ((LoneReaches.step hwrite).trans (.step hstart))
    · have hcompare : managerStep bindAddr created r t (.compare i) = some (t', none, none) := by
        simp [managerStep, hi, hset, takeOver, hlive]
      exact .step hcompare
  | none =>
    by_cases hroom : t.length < lfsMaxBlocksEachVolume
    · simp only [hfind, localVolumeBlocksAdd, if_pos hroom] at h
      split_ifs at h
      obtain rfl := Except.ok.inj h
      have hfound : managerStep bindAddr created r t .find = some (t, some .add, none) := by
        simp only [managerStep, hfind]
      have hadd : managerStep bindAddr created r t .add =
          some (t ++ [r], some (.start t.length true), none) := by
        simp [managerStep, localVolumeBlocksAdd, hroom]
      have hstart : managerStep bindAddr created r (t ++ [r]) (.start t.length true) =
          some (t ++ [r], none, asyncThreadStart bindAddr created r) := by
        simp [managerStep]
      exact (LoneReaches.step hfound).trans ((LoneReaches.step hadd).trans (.step hstart))
    · simp [hfind, localVolumeBlocksAdd, hroom] at h

/-- A reporter that is alone goes through a reply as `__local_volume_blocks_manager` does. -/
lemma managerRounds_lone (h : rs.foldlM managerRound t = .ok t') :
    LoneReaches bindAddr created t ⟨rs, .find⟩ t' ⟨[], .find⟩ := by
  induction rs generalizing t with
  | nil =>
    obtain rfl := Except.ok.inj h
    exact .refl
  | cons r rs ih =>
    rw [foldlM_cons] at h
    cases hround : managerRound t r with
    | error fault => simp [hround, bind, Except.bind] at h
    | ok t₁ =>
      rw [hround] at h
      exact (managerRound_lone hround).trans (ih h)

end Peers

/-! ### The entries after a reply -/

/-- The local entry of a peer, which `__local_volume_blocks_find` returns. -/
def localEntry (ipaddr : List Byte) (t : List BlockBrief) : Option BlockBrief :=
  entry dsIpaddr ipaddr t

structure PeerReply where
  records : List BlockBrief
  /-- A reply without records is not passed on. -/
  ne_nil : records ≠ []
  /-- The addresses are strings of their field. -/
  fits : ∀ r ∈ records, r.dsIpaddr.length < ipAddressSize

/-- `__local_volume_blocks_manager` for a further reply. -/
def PeerReply.process (s : Except PeerFault (List BlockBrief)) (reply : PeerReply) :
    Except PeerFault (List BlockBrief) :=
  s.bind (localVolumeBlocksManager reply.records)

/-- The local entry of every peer of the reply is as the reply says. -/
def PeerReply.Follows (reply : PeerReply) : Except PeerFault (List BlockBrief) → Prop
  | .ok t => ∀ r ∈ reply.records, localEntry r.dsIpaddr t = some r
  | .error _ => False

/-- The reply has one record for each peer, and the port of a peer in it is that of its entry, and so
is the state, unless the peer comes on-line. -/
def PeerReply.Taken (reply : PeerReply) : Except PeerFault (List BlockBrief) → Prop
  | .ok t =>
    (∀ r ∈ reply.records, ∀ r' ∈ reply.records, r'.dsIpaddr = r.dsIpaddr → r' = r) ∧
      ∀ r ∈ reply.records, ∀ e ∈ t, e.dsIpaddr = r.dsIpaddr →
        e.dsPort = r.dsPort ∧ (e.state = r.state ∨ Idle e.state ∧ Live r.state)
  | .error _ => False

instance (reply : PeerReply) : DecidablePred reply.Follows
  | .ok t => inferInstanceAs (Decidable (∀ r ∈ reply.records, localEntry r.dsIpaddr t = some r))
  | .error _ => isFalse id

instance (reply : PeerReply) : DecidablePred reply.Taken
  | .ok _ => inferInstanceAs (Decidable ((∀ r ∈ reply.records, ∀ r' ∈ reply.records, _) ∧ _))
  | .error _ => isFalse id

lemma localEntry_withRecords (heq : ∀ r' ∈ rs, r'.dsIpaddr = r.dsIpaddr → r' = r) (hr : r ∈ rs)
    (t : List BlockBrief) :
    localEntry r.dsIpaddr (rs.foldl withRecord t) =
      some ((localEntry r.dsIpaddr t).elim r (takeOver r)) :=
  entry_foldl_of_forall_eq takeOver_dsIpaddr (takeOver_self r) (takeOver_takeOver r) hr heq t

lemma follows_iff_taken (ht : (t.map dsIpaddr).Nodup) (reply : PeerReply) :
    reply.Follows (.ok (reply.records.foldl withRecord t)) ↔ reply.Taken (.ok t) := by
  constructor
  · intro h
    have heq : ∀ r ∈ reply.records, ∀ r' ∈ reply.records, r'.dsIpaddr = r.dsIpaddr → r' = r := by
      intro r hr r' hr' hip
      have hfound := h r' hr'
      rw [hip, h r hr] at hfound
      exact (Option.some.inj hfound).symm
    refine ⟨heq, fun r hr e he hip => ?_⟩
    have hentry : localEntry r.dsIpaddr t = some e := (entry_eq_some_iff ht hip).2 he
    have hfound := h r hr
    rw [localEntry_withRecords (heq r hr) hr, hentry] at hfound
    exact (takeOver_eq_iff hip).1 (Option.some.inj hfound)
  · rintro ⟨heq, htaken⟩ r hr
    rw [localEntry_withRecords (heq r hr) hr]
    cases hentry : localEntry r.dsIpaddr t with
    | none => rfl
    | some e =>
      have hip : e.dsIpaddr = r.dsIpaddr := key_of_entry hentry
      have he : e ∈ t := (entry_eq_some_iff ht hip).1 hentry
      exact congrArg some ((takeOver_eq_iff hip).2 (htaken r hr e he hip))

lemma process_eq (ht : t.length ≤ lfsMaxBlocksEachVolume) (reply : PeerReply)
    (hroom : (reply.records.foldl withRecord t).length ≤ lfsMaxBlocksEachVolume) :
    PeerReply.process (.ok t) reply = .ok (reply.records.foldl withRecord t) := by
  show localVolumeBlocksManager reply.records t = _
  rw [localVolumeBlocksManager, if_neg reply.ne_nil, managerRounds_eq_ok_iff ht]
  exact ⟨rfl, hroom, fun r hr => .inr (reply.fits r hr)⟩

/-! ### Along the replies -/

/-- The table has one entry for each of its peers, which are among `ips`. -/
structure PeersAmong (ips : Finset (List Byte)) (t : List BlockBrief) : Prop where
  nodup : (t.map dsIpaddr).Nodup
  subset : (t.map dsIpaddr).toFinset ⊆ ips

lemma PeersAmong.length_le {ips : Finset (List Byte)} (h : PeersAmong ips t) :
    t.length ≤ ips.card := by
  have hcard := Finset.card_le_card h.subset
  rwa [toFinset_card_of_nodup h.nodup, length_map] at hcard

lemma PeersAmong.withRecords {ips : Finset (List Byte)} (h : PeersAmong ips t)
    (hrs : (rs.map dsIpaddr).toFinset ⊆ ips) : PeersAmong ips (rs.foldl withRecord t) where
  nodup := nodup_withRecords h.nodup rs
  subset := by
    rw [withRecord, toFinset_keys_foldl takeOver_dsIpaddr, map_append, toFinset_append]
    exact Finset.union_subset h.subset hrs

/-- **The view of the peers.**  For replies that name at most `LFS_MAX_BLOCKS_EACH_VOLUME` peers, the
local entries are after each of them as it says exactly if each of them can be taken over: it has one
record for each peer, with the port of its entry, and with its state or one with which the peer comes
on-line. -/
theorem peers_follow_iff (replies : List PeerReply)
    (hpeers : ((replies.flatMap PeerReply.records).map dsIpaddr).toFinset.card ≤
      lfsMaxBlocksEachVolume) :
    Along PeerReply.process (fun _ reply s => reply.Follows s) (.ok []) replies ↔
      Along PeerReply.process (fun s reply _ => reply.Taken s) (.ok []) replies := by
  set ips := ((replies.flatMap PeerReply.records).map dsIpaddr).toFinset with hips
  have hamong : ∀ reply ∈ replies, (reply.records.map dsIpaddr).toFinset ⊆ ips := by
    intro reply hreply ip hip
    rw [hips, mem_toFinset]
    refine map_subset _ ?_ (mem_toFinset.1 hip)
    exact fun r hr => mem_flatMap.2 ⟨reply, hreply, hr⟩
  have hprocess {t : List BlockBrief} {reply : PeerReply} (ht : PeersAmong ips t)
      (hreply : (reply.records.map dsIpaddr).toFinset ⊆ ips) :
      PeerReply.process (.ok t) reply = .ok (reply.records.foldl withRecord t) :=
    process_eq (ht.length_le.trans hpeers) reply ((ht.withRecords hreply).length_le.trans hpeers)
  refine Along.iff_of_inv (I := fun s => ∃ t, s = .ok t ∧ PeersAmong ips t)
    ⟨[], rfl, nodup_nil, by simp⟩ (Along.of_forall_mem hamong) ?_ ?_
  · rintro _ reply ⟨t, rfl, ht⟩ hreply
    rw [hprocess ht hreply]
    exact follows_iff_taken ht.nodup reply
  · rintro _ reply ⟨t, rfl, ht⟩ hreply -
    exact ⟨_, hprocess ht hreply, ht.withRecords hreply⟩

/-- The reply that lists the peers with these states. -/
def peersAt (states : List DatasevrState) (hne : states ≠ []) : PeerReply where
  records := states.zipIdx.map fun p => ⟨p.1.toInt, [UInt8.ofNat p.2], 80, 0⟩
  ne_nil := by simpa using hne
  fits := by
    intro r hr
    obtain ⟨p, -, rfl⟩ := mem_map.1 hr
    exact (by decide : 1 < ipAddressSize)

/-- Two peers come on-line, one after the other. -/
theorem peers_follow_active : Along PeerReply.process (fun _ reply s => reply.Follows s) (.ok [])
      [peersAt [.init, .active] (by decide), peersAt [.active, .active] (by decide)] :=
  (peers_follow_iff _ (by decide)).2 (by decide)

/-- A peer goes off-line, and another one is deleted.  Both stay active for the replication. -/
theorem peers_offLine_not_follow :
    run PeerReply.process (.ok []) [peersAt [.active, .active] (by decide),
        peersAt [.offLine, .deleted] (by decide)] =
      .ok (peersAt [.active, .active] (by decide)).records ∧
    ¬ Along PeerReply.process (fun _ reply s => reply.Follows s) (.ok [])
      [peersAt [.active, .active] (by decide), peersAt [.offLine, .deleted] (by decide)] := by
  decide

end Lfs.Server
