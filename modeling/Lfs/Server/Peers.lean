/-
The peers of a dataserver (`__local_volume_blocks_manager` in `tracker_client.c`,
`async_thread_start` in `ds_sync.c`).

A reporter thread goes through the blocks that a tracker names in its reply to a heartbeat.  A block
that is not in `volume_blocks` is added, and a thread is started that replicates to it; a thread is
also started when the state of a known block changes to on-line.  The table is searched and the state
is compared without the lock, so a reporter may act on what another one has changed.
-/
import Lfs.Lib.Run
import Lfs.Tracker.Heartbeat

namespace Lfs.Server

open Lfs.Lib Lfs.Tracker List Option BlockBrief DatasevrState

/-! ### The table of the peers -/

def lfsMaxBlocksEachVolume : ℕ := 3

/-- The state is `on_line` or `active`. -/
def Live (state : ℤ) : Prop :=
  state = onLine.toInt ∨ state = active.toInt

/-- The state is one from which a peer can come on-line. -/
def Idle (state : ℤ) : Prop :=
  state = init.toInt ∨ state = waitSync.toInt ∨ state = syncing.toInt ∨ state = offLine.toInt

instance : DecidablePred Live := fun _ => inferInstanceAs (Decidable (_ ∨ _))

instance : DecidablePred Idle := fun _ => inferInstanceAs (Decidable (_ ∨ _ ∨ _ ∨ _))

def localVolumeBlocksFind (ipaddr : List Byte) (volumeBlocks : List BlockBrief) : Option ℕ :=
  volumeBlocks.findIdx? fun b => b.dsIpaddr == ipaddr

/-- `__local_volume_blocks_add`: the index of the new entry; `none` if it is written past the end of
`volume_blocks`. -/
def localVolumeBlocksAdd (bbirs : BlockBrief) (volumeBlocks : List BlockBrief) :
    Option (ℕ × List BlockBrief) :=
  if volumeBlocks.length < lfsMaxBlocksEachVolume then
    some (volumeBlocks.length, volumeBlocks ++ [bbirs])
  else none

/-- `async_thread_start`: the peer for which a thread is started; `created` is whether
`pthread_create` and what it needs succeed. -/
def asyncThreadStart (bindAddr : List Byte) (created : Bool) (bbrief : BlockBrief) :
    Option (List Byte) :=
  if ¬ Live bbrief.state then none
  else if bbrief.dsIpaddr = bindAddr then none
  else if created then some bbrief.dsIpaddr else none

/-! ### The reporters -/

/-- Where a reporter is in a round of the loop of `__local_volume_blocks_manager`. -/
inductive ManagerPc where
  /-- Before `__local_volume_blocks_find`. -/
  | find
  /-- Before `__local_volume_blocks_add`. -/
  | add
  /-- The block `i` has been found, and its state is to be compared. -/
  | compare (i : ℕ)
  /-- Before `pf->state` is written. -/
  | write (i : ℕ)
  /-- Before `async_thread_start` for the block `i`, which the reporter has added or found. -/
  | start (i : ℕ) (added : Bool)
deriving DecidableEq

/-- A reporter, with the blocks of the replies that it has not been through yet.  The first one is
`ites`. -/
structure Manager where
  todo : List BlockBrief
  pc : ManagerPc
deriving DecidableEq

/-- `volume_blocks` up to `blocks_count`, or `none` once it has been overrun, the peers for which
threads have been started, and the reporters. -/
structure Peers where
  volumeBlocks : Option (List BlockBrief)
  started : List (List Byte)
  managers : List Manager

namespace Peers

/-- At the start of the process, with the replies that the reporters will get. -/
def start (replies : List (List BlockBrief)) : Peers :=
  ⟨some [], [], replies.map fun todo => ⟨todo, .find⟩⟩

section Step

variable (bindAddr : List Byte) (created : Bool)

/-- A step of a reporter at the block `ites`: the table, the place where the reporter is then, or
`none` if it goes to the next block, and the peer for which a thread has been started. -/
def managerStep (ites : BlockBrief) (volumeBlocks : List BlockBrief) :
    ManagerPc → Option (List BlockBrief × Option ManagerPc × Option (List Byte))
  | .find =>
    match localVolumeBlocksFind ites.dsIpaddr volumeBlocks with
    | some i => some (volumeBlocks, some (.compare i), none)
    | none => some (volumeBlocks, some .add, none)
  | .add =>
    (localVolumeBlocksAdd ites volumeBlocks).map fun p => (p.2, some (.start p.1 true), none)
  | .compare i =>
    volumeBlocks[i]?.map fun pf =>
      let volumeBlocks := volumeBlocks.set i { pf with lastSyncSequence := ites.lastSyncSequence }
      if pf.state ≠ ites.state ∧ Idle pf.state ∧ Live ites.state then
        (volumeBlocks, some (.write i), none)
      else (volumeBlocks, none, none)
  | .write i =>
    volumeBlocks[i]?.map fun pf =>
      (volumeBlocks.set i { pf with state := ites.state }, some (.start i false), none)
  | .start i _ =>
    volumeBlocks[i]?.map fun bbrief =>
      (volumeBlocks, none, asyncThreadStart bindAddr created bbrief)

def Manager.next (ites : BlockBrief) (todo : List BlockBrief) : Option ManagerPc → Manager
  | some pc => ⟨ites :: todo, pc⟩
  | none => ⟨todo, .find⟩

end Step

/-- A step of the reporter `a.1`. -/
def step (bindAddr : List Byte) (r : Peers) (a : ℕ × Bool) : Peers :=
  match r.volumeBlocks, r.managers[a.1]? with
  | some volumeBlocks, some ⟨ites :: todo, pc⟩ =>
    match managerStep bindAddr a.2 ites volumeBlocks pc with
    | some (volumeBlocks, pc, began) =>
      { volumeBlocks := some volumeBlocks
        started := began.toList ++ r.started
        managers := r.managers.set a.1 (Manager.next ites todo pc) }
    | none => { r with volumeBlocks := none }
  | _, _ => r

/-- Each peer has one entry, and at most one thread has been started for it. -/
def OnePeer (r : Peers) : Prop :=
  r.volumeBlocks.elim False fun t => (t.map dsIpaddr).Nodup ∧ r.started.Nodup

instance : DecidablePred OnePeer
  | ⟨none, _, _⟩ => isFalse id
  | ⟨some t, started, _⟩ =>
    inferInstanceAs (Decidable ((t.map dsIpaddr).Nodup ∧ started.Nodup))

/-- What a reporter has read of the table still holds when it acts: a block that it adds is still not
there, and there is room for it; a state that it changes is still one that is not on-line; and a
block that it has added still has the state with which it was added. -/
def Holds (ites : BlockBrief) (t : List BlockBrief) : ManagerPc → Prop
  | .add => t.length < lfsMaxBlocksEachVolume ∧ ∀ b ∈ t, b.dsIpaddr ≠ ites.dsIpaddr
  | .write i => ∀ pf ∈ t[i]?, ¬ Live pf.state
  | .start i true => ∀ pi ∈ t[i]?, pi.state = ites.state
  | _ => True

instance (ites : BlockBrief) (t : List BlockBrief) : (pc : ManagerPc) → Decidable (Holds ites t pc)
  | .find => isTrue trivial
  | .add => inferInstanceAs (Decidable (_ < _ ∧ ∀ b ∈ t, _))
  | .compare _ => isTrue trivial
  | .write i => inferInstanceAs (Decidable (∀ pf ∈ t[i]?, _))
  | .start i true => inferInstanceAs (Decidable (∀ pi ∈ t[i]?, _))
  | .start _ false => isTrue trivial

/-- What the reporter of a step has read still holds. -/
def StillHolds (r : Peers) (a : ℕ × Bool) : Prop :=
  ∀ t ∈ r.volumeBlocks, ∀ m ∈ r.managers[a.1]?, ∀ ites ∈ m.todo.head?, Holds ites t m.pc

instance (r : Peers) (a : ℕ × Bool) : Decidable (r.StillHolds a) :=
  inferInstanceAs (Decidable (∀ t ∈ r.volumeBlocks, ∀ m ∈ r.managers[a.1]?, ∀ ites ∈ m.todo.head?, _))

end Peers

/-! ### What the reporters are about to do -/

/-- Changing one value of a list changes one of those that `f` gives. -/
lemma filterMap_set_perm {α β : Type} (f : α → Option β) {l : List α} {n : ℕ} {a : α}
    (ha : l[n]? = some a) :
    ∃ rest, (l.filterMap f).Perm ((f a).toList ++ rest) ∧
      ∀ b, ((l.set n b).filterMap f).Perm ((f b).toList ++ rest) := by
  obtain ⟨hn, rfl⟩ := List.getElem?_eq_some_iff.1 ha
  have hsplit (b : α) (l' : List α) (hl' : l' = l.take n ++ b :: l.drop (n + 1)) :
      (l'.filterMap f).Perm ((f b).toList ++
        ((l.take n).filterMap f ++ (l.drop (n + 1)).filterMap f)) := by
    rw [hl', filterMap_append]
    cases hb : f b with
    | none => rw [filterMap_cons_none hb, toList_none, nil_append]
    | some x =>
      rw [filterMap_cons_some hb, toList_some]
      exact perm_middle
  refine ⟨_, hsplit l[n] l ?_, fun b => hsplit b _ ?_⟩
  · rw [getElem_cons_drop, take_append_drop]
  · rw [set_eq_take_append_cons_drop, if_pos hn]

lemma map_set_of_eq {α β : Type} (π : α → β) {l : List α} {i : ℕ} {a b : α} (ha : l[i]? = some a)
    (hb : π b = π a) : (l.set i b).map π = l.map π := by
  obtain ⟨hi, rfl⟩ := List.getElem?_eq_some_iff.1 ha
  have hi' : i < (l.map π).length := by rwa [length_map]
  rw [map_set, hb, ← getElem_map π (h := hi'), set_getElem_self]

lemma mem_set_or_eq {α : Type} {l : List α} {i : ℕ} {a b : α} (ha : l[i]? = some a) (hb : b ∈ l)
    (a' : α) : b ∈ l.set i a' ∨ b = a := by
  obtain ⟨j, hj⟩ := mem_iff_getElem?.1 hb
  by_cases hij : i = j
  · subst hij
    exact .inr (some.inj (hj.symm.trans ha))
  · refine .inl (mem_of_getElem? (i := j) ?_)
    rwa [getElem?_set_ne hij]

namespace Manager

/-- The peer for which the reporter will start a thread. -/
def arms : Manager → Option (List Byte)
  | ⟨ites :: _, .start _ true⟩ => if Live ites.state then some ites.dsIpaddr else none
  | ⟨ites :: _, .start _ false⟩ => some ites.dsIpaddr
  | _ => none

/-- The reporter has a pointer to the entry of its block, and a state that it writes is on-line. -/
def Here (ips : List (List Byte)) : Manager → Prop
  | ⟨ites :: _, .compare i⟩ => ips[i]? = some ites.dsIpaddr
  | ⟨ites :: _, .write i⟩ => ips[i]? = some ites.dsIpaddr ∧ Live ites.state
  | ⟨ites :: _, .start i _⟩ => ips[i]? = some ites.dsIpaddr
  | _ => True

lemma Here.append {ips : List (List Byte)} {m : Manager} (h : m.Here ips) (l : List (List Byte)) :
    m.Here (ips ++ l) := by
  have hget {i : ℕ} {ip : List Byte} (hi : ips[i]? = some ip) : (ips ++ l)[i]? = some ip := by
    rw [getElem?_append_left (List.getElem?_eq_some_iff.1 hi).1]
    exact hi
  obtain ⟨todo, pc⟩ := m
  cases todo with
  | nil => trivial
  | cons ites todo =>
    cases pc with
    | find | add => trivial
    | compare i => exact hget h
    | write i => exact ⟨hget h.1, h.2⟩
    | start i added => exact hget h

end Manager

namespace Peers

variable {r : Peers} {t : List BlockBrief}

/-- Each peer has one entry; there is one thread for a peer, started or about to be, and only for a
peer that is on-line. -/
structure Inv (t : List BlockBrief) (r : Peers) : Prop where
  unique : (t.map dsIpaddr).Nodup
  here : ∀ m ∈ r.managers, m.Here (t.map dsIpaddr)
  nodup : (r.started ++ r.managers.filterMap Manager.arms).Nodup
  live : ∀ ip ∈ r.started ++ r.managers.filterMap Manager.arms,
    ∃ b ∈ t, b.dsIpaddr = ip ∧ Live b.state

lemma inv_start (replies : List (List BlockBrief)) : (start replies).Inv [] := by
  have hnone : (start replies).managers.filterMap Manager.arms = [] := by
    rw [filterMap_eq_nil_iff]
    intro m hm
    obtain ⟨todo, -, rfl⟩ := mem_map.1 hm
    cases todo <;> rfl
  refine ⟨nodup_nil, fun m hm => ?_, ?_, ?_⟩
  · obtain ⟨todo, -, rfl⟩ := mem_map.1 hm
    cases todo <;> trivial
  · rw [hnone]
    exact nodup_nil
  · rw [hnone]
    nofun

/-- **One step of a reporter**, by what it does to the threads: none is about to be started by this
reporter any more, or the same one as before, or one that is new. -/
lemma Inv.of_move {t t' : List BlockBrief} {n : ℕ} {m m' : Manager}
    {began : Option (List Byte)} (h : r.Inv t) (hm : r.managers[n]? = some m)
    (hunique : (t'.map dsIpaddr).Nodup)
    (hhere : ∀ m ∈ r.managers, m.Here (t'.map dsIpaddr))
    (hhere' : m'.Here (t'.map dsIpaddr))
    (hlive : ∀ ip ∈ r.started ++ r.managers.filterMap Manager.arms,
      ∃ b ∈ t', b.dsIpaddr = ip ∧ Live b.state)
    (hthread : began.toList ++ m'.arms.toList = [] ∨
      ∃ ip, began.toList ++ m'.arms.toList = [ip] ∧ (m.arms = some ip ∨
        ip ∉ r.started ++ r.managers.filterMap Manager.arms ∧
          ∃ b ∈ t', b.dsIpaddr = ip ∧ Live b.state)) :
    Inv t' ⟨some t', began.toList ++ r.started, r.managers.set n m'⟩ := by
  obtain ⟨rest, hold, hset⟩ := filterMap_set_perm Manager.arms hm
  -- the threads before the step and after it, apart from those of the other reporters
  have hbefore : (r.started ++ r.managers.filterMap Manager.arms).Perm
      (m.arms.toList ++ (r.started ++ rest)) :=
    (hold.append_left _).trans (perm_append_comm_assoc ..)
  have hafter : (began.toList ++ r.started ++ (r.managers.set n m').filterMap Manager.arms).Perm
      ((began.toList ++ m'.arms.toList) ++ (r.started ++ rest)) := by
    rw [append_assoc, append_assoc]
    exact (((hset m').append_left _).trans (perm_append_comm_assoc ..)).append_left _
  have hnodup := hbefore.nodup_iff.1 h.nodup
  have hrest := (nodup_append.1 hnodup).2.1
  have hmem {ip : List Byte} (hip : ip ∈ r.started ++ rest) :
      ip ∈ r.started ++ r.managers.filterMap Manager.arms :=
    hbefore.mem_iff.2 (mem_append_right _ hip)
  refine ⟨hunique, fun w hw => ?_, hafter.nodup_iff.2 ?_, fun ip hip => ?_⟩
  · rcases mem_or_eq_of_mem_set hw with hw | rfl
    · exact hhere w hw
    · exact hhere'
  · rcases hthread with hnil | ⟨ip, hone, harms | ⟨hnew, -⟩⟩
    · rwa [hnil]
    · rwa [hone, ← toList_some, ← harms]
    · rw [hone]
      exact nodup_cons.2 ⟨fun hip => hnew (hmem hip), hrest⟩
  · rcases mem_append.1 (hafter.mem_iff.1 hip) with hip | hip
    · rcases hthread with hnil | ⟨ip', hone, hor⟩
      · rw [hnil] at hip
        exact absurd hip (by simp)
      · rw [hone, mem_singleton] at hip
        subst hip
        rcases hor with harms | ⟨-, hb⟩
        · refine hlive ip (hbefore.mem_iff.2 (mem_append_left _ ?_))
          rw [harms]
          exact mem_singleton_self ip
        · exact hb
    · exact hlive ip (hmem hip)

lemma Inv.eq_of_dsIpaddr (h : r.Inv t) {b b' : BlockBrief}
    (hb : b ∈ t) (hb' : b' ∈ t) (hip : b.dsIpaddr = b'.dsIpaddr) : b = b' :=
  inj_on_of_nodup_map h.unique hb hb' hip

section ManagerStep

variable {n i : ℕ} {ites : BlockBrief} {todo : List BlockBrief}
  {pc : ManagerPc} {bindAddr : List Byte} {created : Bool}

/-- The reporter `n`, at `pc` with the peer `ites`, can take its step, and the invariant holds after it. -/
def StepKeeps (r : Peers) (t : List BlockBrief) (n : ℕ) (ites : BlockBrief) (todo : List BlockBrief)
    (bindAddr : List Byte) (created : Bool) (pc : ManagerPc) : Prop :=
  ∃ t' pc' began, Peers.managerStep bindAddr created ites t pc = some (t', pc', began) ∧
    Inv t' ⟨some t', began.toList ++ r.started, r.managers.set n (Manager.next ites todo pc')⟩

lemma arms_next_none : (Manager.next ites todo none).arms = none := by
  rw [Manager.next]
  cases todo <;> rfl

lemma here_next_none (ips : List (List Byte)) : (Manager.next ites todo none).Here ips := by
  rw [Manager.next]
  cases todo <;> trivial

lemma exists_entry (hi : (t.map dsIpaddr)[i]? = some ites.dsIpaddr) :
    ∃ b, t[i]? = some b ∧ b.dsIpaddr = ites.dsIpaddr := by
  rw [getElem?_map, map_eq_some_iff] at hi
  exact hi

lemma Inv.find (h : r.Inv t) (hm : r.managers[n]? = some ⟨ites :: todo, .find⟩) :
    StepKeeps r t n ites todo bindAddr created .find := by
  cases hfind : localVolumeBlocksFind ites.dsIpaddr t with
  | none =>
    refine ⟨t, some .add, none, by rw [Peers.managerStep, hfind], ?_⟩
    exact h.of_move hm h.unique h.here trivial h.live (.inl rfl)
  | some i =>
    refine ⟨t, some (.compare i), none, by rw [Peers.managerStep, hfind], ?_⟩
    refine h.of_move hm h.unique h.here ?_ h.live (.inl rfl)
    obtain ⟨hi, hip, -⟩ := findIdx?_eq_some_iff_getElem.1 hfind
    have hget : (t.map dsIpaddr)[i]? = some t[i].dsIpaddr := by
      rw [getElem?_map, getElem?_eq_getElem hi, map_some]
    rw [beq_iff_eq.1 hip] at hget
    exact hget

lemma Inv.add (h : r.Inv t) (hm : r.managers[n]? = some ⟨ites :: todo, .add⟩)
    (hholds : Holds ites t .add) : StepKeeps r t n ites todo bindAddr created .add := by
  obtain ⟨hroom, hnew⟩ := hholds
  have hmap : (t ++ [ites]).map dsIpaddr =
      t.map dsIpaddr ++ [ites.dsIpaddr] := by rw [map_append, map_singleton]
  have hnot : ites.dsIpaddr ∉ t.map dsIpaddr := by
    intro hmem
    obtain ⟨b, hb, hip⟩ := mem_map.1 hmem
    exact hnew b hb hip
  refine ⟨t ++ [ites], some (.start t.length true), none, ?_, h.of_move hm ?_ ?_ ?_ ?_ ?_⟩
  · rw [Peers.managerStep, localVolumeBlocksAdd, if_pos hroom]
    rfl
  · rw [hmap, ← concat_eq_append, nodup_concat]
    exact ⟨hnot, h.unique⟩
  · intro m hm
    rw [hmap]
    exact (h.here m hm).append _
  · rw [hmap]
    have hlast := getElem?_concat_length (l := t.map dsIpaddr) (a := ites.dsIpaddr)
    rwa [length_map] at hlast
  · intro ip hip
    obtain ⟨b, hb, hbip⟩ := h.live ip hip
    exact ⟨b, mem_append_left _ hb, hbip⟩
  · -- there is no thread for a peer that is not in the table
    by_cases hlive : Live ites.state
    · refine .inr ⟨ites.dsIpaddr, ?_, .inr ⟨fun hip => ?_, ites, by simp, rfl, hlive⟩⟩
      · simp [Manager.next, Manager.arms, hlive]
      · obtain ⟨b, hb, hbip, -⟩ := h.live _ hip
        exact hnew b hb hbip
    · exact .inl (by simp [Manager.next, Manager.arms, hlive])

lemma Inv.compare (h : r.Inv t) (hm : r.managers[n]? = some ⟨ites :: todo, .compare i⟩) :
    StepKeeps r t n ites todo bindAddr created (.compare i) := by
  have hhere := h.here _ (mem_of_getElem? hm)
  obtain ⟨pf, hpf, hip⟩ := exists_entry hhere
  set pf' : BlockBrief := { pf with lastSyncSequence := ites.lastSyncSequence } with hpf'
  have hmap : (t.set i pf').map dsIpaddr = t.map dsIpaddr :=
    map_set_of_eq _ hpf rfl
  have hlive (ip : List Byte) (hmem : ip ∈ r.started ++ r.managers.filterMap Manager.arms) :
      ∃ b ∈ t.set i pf', b.dsIpaddr = ip ∧ Live b.state := by
    obtain ⟨b, hb, hbip, hblive⟩ := h.live ip hmem
    rcases mem_set_or_eq hpf hb pf' with hb | rfl
    · exact ⟨b, hb, hbip, hblive⟩
    · exact ⟨pf', mem_set (List.getElem?_eq_some_iff.1 hpf).1 _, hbip, hblive⟩
  by_cases htransition : pf.state ≠ ites.state ∧ Idle pf.state ∧ Live ites.state
  · refine ⟨t.set i pf', some (.write i), none, ?_, ?_⟩
    · rw [Peers.managerStep, hpf, map_some, if_pos htransition]
    · refine h.of_move hm (hmap ▸ h.unique) (hmap ▸ h.here) ?_ hlive (.inl rfl)
      rw [hmap]
      exact ⟨hhere, htransition.2.2⟩
  · refine ⟨t.set i pf', none, none, ?_, ?_⟩
    · rw [Peers.managerStep, hpf, map_some, if_neg htransition]
    · refine h.of_move hm (hmap ▸ h.unique) (hmap ▸ h.here) (here_next_none _) hlive (.inl ?_)
      rw [arms_next_none]
      rfl

lemma Inv.write (h : r.Inv t) (hm : r.managers[n]? = some ⟨ites :: todo, .write i⟩)
    (hholds : Holds ites t (.write i)) : StepKeeps r t n ites todo bindAddr created (.write i) := by
  obtain ⟨hhere, hiteslive⟩ := h.here _ (mem_of_getElem? hm)
  obtain ⟨pf, hpf, hip⟩ := exists_entry hhere
  have hidle : ¬ Live pf.state := hholds pf hpf
  set pf' : BlockBrief := { pf with state := ites.state } with hpf'
  have hmap : (t.set i pf').map dsIpaddr = t.map dsIpaddr :=
    map_set_of_eq _ hpf rfl
  refine ⟨t.set i pf', some (.start i false), none, ?_,
    h.of_move hm (hmap ▸ h.unique) (hmap ▸ h.here) ?_ (fun ip hmem => ?_) (.inr ?_)⟩
  · rw [Peers.managerStep, hpf]
    rfl
  · rw [hmap]
    exact hhere
  · -- the peers with a thread were on-line before, so theirs is another entry
    obtain ⟨b, hb, hbip, hblive⟩ := h.live ip hmem
    rcases mem_set_or_eq hpf hb pf' with hb | rfl
    · exact ⟨b, hb, hbip, hblive⟩
    · exact absurd hblive hidle
  · refine ⟨ites.dsIpaddr, rfl, .inr ⟨fun hmem => ?_, pf', ?_, hip, hiteslive⟩⟩
    · obtain ⟨b, hb, hbip, hblive⟩ := h.live _ hmem
      obtain rfl := h.eq_of_dsIpaddr hb (mem_of_getElem? hpf) (hbip.trans hip.symm)
      exact hidle hblive
    · exact mem_set (List.getElem?_eq_some_iff.1 hpf).1 _

lemma Inv.start {added : Bool} (h : r.Inv t)
    (hm : r.managers[n]? = some ⟨ites :: todo, .start i added⟩)
    (hholds : Holds ites t (.start i added)) :
    StepKeeps r t n ites todo bindAddr created (.start i added) := by
  have hhere := h.here _ (mem_of_getElem? hm)
  obtain ⟨bbrief, hbbrief, hip⟩ := exists_entry hhere
  refine ⟨t, none, asyncThreadStart bindAddr created bbrief, ?_,
    h.of_move hm h.unique h.here (here_next_none _) h.live ?_⟩
  · rw [Peers.managerStep, hbbrief]
    rfl
  · rw [arms_next_none, toList_none, append_nil, asyncThreadStart]
    split_ifs with hlive
    · exact .inl rfl
    · -- a thread is started: the reporter was about to do so
      refine .inr ⟨bbrief.dsIpaddr, rfl, .inl ?_⟩
      rw [hip]
      cases added with
      | false => rfl
      | true =>
        have hstate : bbrief.state = ites.state := hholds bbrief hbbrief
        rw [hstate] at hlive
        exact if_pos hlive
    · exact .inl rfl
    · exact .inl rfl

lemma Inv.managerStep (h : r.Inv t) (hm : r.managers[n]? = some ⟨ites :: todo, pc⟩)
    (hholds : Holds ites t pc) (bindAddr : List Byte) (created : Bool) :
    StepKeeps r t n ites todo bindAddr created pc := by
  cases pc with
  | find => exact h.find hm
  | add => exact h.add hm hholds
  | compare i => exact h.compare hm
  | write i => exact h.write hm hholds
  | start i added => exact h.start hm hholds

end ManagerStep

lemma Inv.step (h : r.Inv t) (ht : r.volumeBlocks = some t)
    (bindAddr : List Byte) {a : ℕ × Bool} (hholds : r.StillHolds a) :
    ∃ t', (Peers.step bindAddr r a).volumeBlocks = some t' ∧ (Peers.step bindAddr r a).Inv t' := by
  obtain ⟨n, created⟩ := a
  cases hm : r.managers[n]? with
  | none => exact ⟨t, by simp only [Peers.step, ht, hm], by simpa only [Peers.step, ht, hm] using h⟩
  | some m =>
    obtain ⟨todo, pc⟩ := m
    cases todo with
    | nil =>
      exact ⟨t, by simp only [Peers.step, ht, hm], by simpa only [Peers.step, ht, hm] using h⟩
    | cons ites todo =>
      obtain ⟨t', pc', began, hstep, hinv⟩ :=
        h.managerStep hm (hholds t ht _ hm ites rfl) bindAddr created
      refine ⟨t', ?_, ?_⟩
      · simp only [Peers.step, ht, hm, hstep]
      · simpa only [Peers.step, ht, hm, hstep] using hinv

lemma Inv.onePeer (h : r.Inv t) (ht : r.volumeBlocks = some t) : r.OnePeer := by
  rw [OnePeer, ht]
  exact ⟨h.unique, (nodup_append.1 h.nodup).1⟩

/-- **One thread for each peer.**  In any interleaving of the reporters in which what a reporter has
read still holds when it acts, each peer has one entry at any time, and at most one thread is ever
started for it. -/
theorem one_thread_for_each_peer (bindAddr : List Byte) (replies : List (List BlockBrief))
    {acts : List (ℕ × Bool)}
    (h : Along (step bindAddr) (fun r a _ => r.StillHolds a) (start replies) acts) :
    Along (step bindAddr) (fun _ _ r' => r'.OnePeer) (start replies) acts := by
  refine h.of_inv (I := fun r => ∃ t, r.volumeBlocks = some t ∧ r.Inv t)
    ⟨[], rfl, inv_start replies⟩ ?_
  rintro r a ⟨t, ht, hinv⟩ hholds
  obtain ⟨t', ht', hinv'⟩ := hinv.step ht bindAddr hholds
  exact ⟨⟨t', ht', hinv'⟩, hinv'.onePeer ht'⟩

/-- A peer in the state `state`. -/
def peer (state : DatasevrState) : BlockBrief := ⟨state.toInt, [1], 80, 0⟩

/-- One reporter after the other is told that the peer is on-line. -/
theorem oneAfterTheOther_onePeer :
    Along (step [2]) (fun _ _ r' => r'.OnePeer) (start [[peer .active], [peer .active]])
      [(0, true), (0, true), (0, true), (1, true), (1, true)] :=
  one_thread_for_each_peer [2] [[peer .active], [peer .active]] (by decide +kernel)

/-- Two reporters look for the peer before one of them has added it. -/
theorem addedTwice_not_onePeer :
    ¬ Along (step [2]) (fun _ _ r' => r'.OnePeer) (start [[peer .active], [peer .active]])
      [(0, true), (1, true), (0, true), (1, true)] := by
  decide +kernel

end Peers

end Lfs.Server
