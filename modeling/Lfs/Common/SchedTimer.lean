/-
The timers (`sched_timer.c`).

`sched_timer` allocates a timer with its deadline and adds it to the list of timers, which is sorted by
the deadlines and searched backwards.  Each worker thread peeks at the first timer and, if its deadline
has passed, removes it, calls its callback and frees it.  Adding, and peeking with removing, are done
under `timer_lock`; the callbacks, which may call `sched_timer`, and the freeing are not, and the steps
of the threads are taken in any order.
-/
import Lfs.Lib.Ring
import Lfs.Lib.Run
import Mathlib.Tactic.Linarith

namespace Lfs.Common

open Lfs.Lib List Option Function

/-! ### The timers and the steps of the threads -/

def timerMaxArg : ℕ := 8

/-- `struct timer` without its links.  `call` is the number of the call of `sched_timer` that made it,
and `seq` the number of timers that were added before it. -/
structure Timer (κ : Type) where
  deadline : ℤ
  callback : Option κ
  argc : ℕ
  argv : List ℕ
  call : ℕ
  seq : ℕ

/-- A call of `sched_timer` at the time `now`, with its arguments up to the first `NULL`. -/
structure TimerCall (κ : Type) where
  now : ℤ
  usec : ℤ
  callback : Option κ
  args : List ℕ

/-- A callback that was called, with the number of the call of `sched_timer`. -/
structure Fired (κ : Type) where
  call : ℕ
  callback : κ
  argc : ℕ
  argv : List ℕ
  time : ℤ

/-- The list of timers, the allocated timers, and the timers in the hands of the threads: `made` are not
yet added, `removed` are not yet called, and `running` are not yet freed.  A pointer is a number, and
`NULL` is 0. -/
structure Sched (κ : Type) where
  links : Links ℕ
  timers : ℕ → Option (Timer κ)
  made : List ℕ
  removed : List ℕ
  running : List ℕ
  inserts : ℕ
  clock : ℤ
  calls : List (TimerCall κ)
  fired : List (Fired κ)

namespace Sched

variable {κ : Type}

/-- The state after `sched_timer_init`. -/
def init (clock : ℤ) : Sched κ :=
  ⟨.empty, fun _ => none, [], [], [], 0, clock, [], []⟩

/-- The arguments of `sched_timer` that are stored: those before the first `NULL`. -/
def givenArgs (varargs : List ℕ) : List ℕ := varargs.takeWhile (· ≠ 0)

/-- The timer that `sched_timer` makes. -/
def newTimer (s : Sched κ) (now usec : ℤ) (callback : Option κ) (args : List ℕ) : Timer κ where
  deadline := now + usec
  callback := callback
  argc := args.length
  argv := args ++ replicate (timerMaxArg - args.length) 0
  call := s.calls.length
  seq := 0

/-- `sched_timer` up to `timer_add`, at the time `now`.  `malloc` returns `a`, which is not in use, and
there are not more than `TIMER_MAX_ARG` arguments: with more the assertion ends the process. -/
def schedTimer (a : ℕ) (now usec : ℤ) (callback : Option κ) (varargs : List ℕ) (s : Sched κ) :
    Sched κ :=
  let args := givenArgs varargs
  if s.clock ≤ now ∧ (s.timers a).isNone ∧ args.length ≤ timerMaxArg then
    { s with
      clock := now
      timers := update s.timers a (some (s.newTimer now usec callback args))
      made := a :: s.made
      calls := s.calls ++ [⟨now, usec, callback, args⟩] }
  else s

/-- `timer_add` by the thread that has made the timer `a`. -/
def timerAdd (a : ℕ) (s : Sched κ) : Sched κ :=
  match s.timers a with
  | none => s
  | some t =>
    if a ∈ s.made then
      let find := s.links.findBack
        (fun b => (s.timers b).any fun tmp => decide (tmp.deadline ≤ t.deadline))
        s.inserts (s.links.prev none)
      { s with
        links := s.links.insert a find
        timers := update s.timers a (some { t with seq := s.inserts })
        made := s.made.erase a
        inserts := s.inserts + 1 }
    else s

/-- A worker in `sched_yielded` under the lock: `__timer_peek` and, if the timer is due at the time
`now`, `__timer_remove`. -/
def yielded (now : ℤ) (s : Sched κ) : Sched κ :=
  if s.clock ≤ now then
    match s.links.next none with
    | none => { s with clock := now }
    | some a =>
      match s.timers a with
      | none => { s with clock := now }
      | some t =>
        if now < t.deadline then { s with clock := now }
        else { s with clock := now, links := s.links.remove a, removed := a :: s.removed }
  else s

/-- The worker that has removed the timer `a` calls its callback, unless that is `NULL`. -/
def invoke (a : ℕ) (now : ℤ) (s : Sched κ) : Sched κ :=
  match s.timers a with
  | none => s
  | some t =>
    if s.clock ≤ now ∧ a ∈ s.removed then
      { s with
        clock := now
        removed := s.removed.erase a
        running := a :: s.running
        fired := s.fired ++ (t.callback.map fun cb => ⟨t.call, cb, t.argc, t.argv, now⟩).toList }
    else s

/-- `timer_free` after the callback. -/
def timerFree (a : ℕ) (s : Sched κ) : Sched κ :=
  if a ∈ s.running then
    { s with timers := update s.timers a none, running := s.running.erase a }
  else s

end Sched

inductive SchedAct (κ : Type) where
  | call (a : ℕ) (now usec : ℤ) (callback : Option κ) (varargs : List ℕ)
  | add (a : ℕ)
  | yield (now : ℤ)
  | invoke (a : ℕ) (now : ℤ)
  | free (a : ℕ)

namespace Sched

variable {κ : Type}

/-- The step.  One that no thread can take changes nothing. -/
def step (s : Sched κ) : SchedAct κ → Sched κ
  | .call a now usec callback varargs => s.schedTimer a now usec callback varargs
  | .add a => s.timerAdd a
  | .yield now => s.yielded now
  | .invoke a now => s.invoke a now
  | .free a => s.timerFree a

/-- The list of timers, from its head on. -/
def pending (s : Sched κ) : List ℕ := s.links.toList s.inserts (s.links.next none)

/-- The timer `a` has an earlier deadline than `b`, or the same one and was added before it. -/
def Before (timers : ℕ → Option (Timer κ)) (a b : ℕ) : Prop :=
  ∀ t ∈ timers a, ∀ u ∈ timers b,
    t.deadline < u.deadline ∨ t.deadline = u.deadline ∧ t.seq < u.seq

/-- A callback is called as a call of `sched_timer` asked for. -/
def AsGiven (calls : List (TimerCall κ)) (f : Fired κ) : Prop :=
  ∃ c, calls[f.call]? = some c ∧ c.callback = some f.callback ∧ f.argc = c.args.length ∧
    f.argv = c.args ++ replicate (timerMaxArg - c.args.length) 0

/-- The timers that a step takes from the list, or that a worker gets, are due, and none of the list has
an earlier deadline. -/
def RemovesDue (s : Sched κ) (_ : SchedAct κ) (s' : Sched κ) : Prop :=
  ∀ a, a ∈ s.pending ∧ a ∉ s'.pending ∨ a ∈ s'.removed ∧ a ∉ s.removed →
    a ∈ s.pending ∧ ∀ t ∈ s.timers a,
      t.deadline ≤ s'.clock ∧ ∀ b ∈ s.pending, ∀ u ∈ s.timers b, t.deadline ≤ u.deadline

/-! ### What a step can do -/

variable {s : Sched κ} {a : ℕ} {now usec : ℤ} {callback : Option κ} {varargs : List ℕ}

lemma schedTimer_cases : s.schedTimer a now usec callback varargs = s ∨
    (s.clock ≤ now ∧ s.timers a = none ∧ s.schedTimer a now usec callback varargs =
      { s with
        clock := now
        timers := update s.timers a
          (some (s.newTimer now usec callback (givenArgs varargs)))
        made := a :: s.made
        calls := s.calls ++ [⟨now, usec, callback, givenArgs varargs⟩] }) := by
  rw [schedTimer]
  split_ifs with h
  · exact .inr ⟨h.1, isNone_iff_eq_none.1 h.2.1, rfl⟩
  · exact .inl rfl

/-- Where `timer_add` puts a timer with the deadline `d`. -/
def addPosition (s : Sched κ) (d : ℤ) : Option ℕ :=
  s.links.findBack (fun b => (s.timers b).any fun tmp => decide (tmp.deadline ≤ d)) s.inserts
    (s.links.prev none)

lemma timerAdd_cases : s.timerAdd a = s ∨ ∃ t, s.timers a = some t ∧ a ∈ s.made ∧ s.timerAdd a =
    { s with
      links := s.links.insert a (s.addPosition t.deadline)
      timers := update s.timers a (some { t with seq := s.inserts })
      made := s.made.erase a
      inserts := s.inserts + 1 } := by
  rw [timerAdd]
  cases ht : s.timers a with
  | none => exact .inl rfl
  | some t =>
    dsimp only
    split_ifs with hmade
    · exact .inr ⟨t, rfl, hmade, rfl⟩
    · exact .inl rfl

lemma yielded_cases (s : Sched κ) (now : ℤ) :
    s.yielded now = s ∨ s.clock ≤ now ∧ (s.yielded now = { s with clock := now } ∨
      ∃ b t, s.links.next none = some b ∧ s.timers b = some t ∧ t.deadline ≤ now ∧ s.yielded now =
        { s with clock := now, links := s.links.remove b, removed := b :: s.removed }) := by
  rw [yielded]
  split_ifs with hclock
  · refine .inr ⟨hclock, ?_⟩
    cases hnext : s.links.next none with
    | none => exact .inl rfl
    | some b =>
      dsimp only
      cases ht : s.timers b with
      | none => exact .inl rfl
      | some t =>
        dsimp only
        split_ifs with hdue
        · exact .inl rfl
        · exact .inr ⟨b, t, rfl, ht, not_lt.1 hdue, rfl⟩
  · exact .inl rfl

lemma invoke_cases (s : Sched κ) (a : ℕ) (now : ℤ) :
    s.invoke a now = s ∨ ∃ t, s.timers a = some t ∧ s.clock ≤ now ∧ a ∈ s.removed ∧ s.invoke a now =
      { s with
        clock := now
        removed := s.removed.erase a
        running := a :: s.running
        fired := s.fired ++
          (t.callback.map fun cb => ⟨t.call, cb, t.argc, t.argv, now⟩).toList } := by
  rw [invoke]
  cases ht : s.timers a with
  | none => exact .inl rfl
  | some t =>
    dsimp only
    split_ifs with h
    · exact .inr ⟨t, rfl, h.1, h.2, rfl⟩
    · exact .inl rfl

lemma timerFree_cases : s.timerFree a = s ∨ (a ∈ s.running ∧ s.timerFree a =
    { s with timers := update s.timers a none, running := s.running.erase a }) := by
  rw [timerFree]
  split_ifs with h
  · exact .inr ⟨h, rfl⟩
  · exact .inl rfl

/-! ### The list of timers -/

lemma mem_update_some {α : Type*} {f : ℕ → Option α} {a b : ℕ} {x y : α} :
    y ∈ update f a (some x) b ↔ b = a ∧ y = x ∨ b ≠ a ∧ y ∈ f b := by
  rcases eq_or_ne b a with rfl | hb
  · simp [eq_comm]
  · simp [hb]

lemma mem_update_none {α : Type*} {f : ℕ → Option α} {a b : ℕ} {y : α} :
    y ∈ update f a none b ↔ b ≠ a ∧ y ∈ f b := by
  rcases eq_or_ne b a with rfl | hb
  · simp
  · simp [hb]

section Order

variable {timers timers' : ℕ → Option (Timer κ)} {L P S : List ℕ}

lemma pairwise_congr (h : L.Pairwise (Before timers)) (htimers : ∀ b ∈ L, timers' b = timers b) :
    L.Pairwise (Before timers') := by
  refine h.imp_of_mem fun {a b} ha hb hab => ?_
  rw [Before, htimers a ha, htimers b hb]
  exact hab

/-- If the last one of some sorted timers is not later than `d`, none of them is. -/
lemma deadline_le_of_getLast? {d : ℤ} (h : P.Pairwise (Before timers))
    (hlast : ∀ c ∈ P.getLast?, ∃ v ∈ timers c, v.deadline ≤ d) :
    ∀ b ∈ P, ∀ u ∈ timers b, u.deadline ≤ d := by
  intro b hb u hu
  rcases eq_nil_or_concat P with rfl | ⟨Q, c, rfl⟩
  · simp at hb
  rw [concat_eq_append] at h hlast hb
  obtain ⟨v, hv, hle⟩ := hlast c (by simp)
  rcases mem_append.1 hb with hbQ | hbc
  · rcases (pairwise_append.1 h).2.2 b hbQ c (by simp) u hu v hv with hlt | ⟨heq, -⟩
    · exact hlt.le.trans hle
    · exact heq.le.trans hle
  · obtain rfl := mem_singleton.1 hbc
    obtain rfl : u = v := some.inj (hu.symm.trans hv)
    exact hle

/-- A timer that was added last stands between the timers that are not later and those that are. -/
lemma pairwise_insert {t : Timer κ} (h : (P ++ S).Pairwise (Before timers)) (ha : a ∉ P ++ S)
    (hseq : ∀ b ∈ P, ∀ u ∈ timers b, u.seq < t.seq)
    (hbefore : ∀ b ∈ P, ∀ u ∈ timers b, u.deadline ≤ t.deadline)
    (hafter : ∀ b ∈ S, ∀ u ∈ timers b, t.deadline < u.deadline) :
    (P ++ a :: S).Pairwise (Before (update timers a (some t))) := by
  have hother : ∀ b ∈ P ++ S, update timers a (some t) b = timers b := fun b hb =>
    update_of_ne (ne_of_mem_of_not_mem hb ha) ..
  have hold := pairwise_append.1 (pairwise_congr h hother)
  refine pairwise_append.2 ⟨hold.1, pairwise_cons.2 ⟨fun b hb => ?_, hold.2.1⟩, fun b hb c hc => ?_⟩
  · rw [Before, update_self, hother b (mem_append_right P hb)]
    rintro t' ht' u hu
    obtain rfl := some.inj ht'
    exact .inl (hafter b hb u hu)
  · rcases mem_cons.1 hc with rfl | hcS
    · rw [Before, update_self, hother b (mem_append_left S hb)]
      rintro u hu t' ht'
      obtain rfl := some.inj ht'
      rcases (hbefore b hb u hu).lt_or_eq with hlt | heq
      · exact .inl hlt
      · exact .inr ⟨heq, hseq b hb u hu⟩
    · exact hold.2.2 b hb c hcS

end Order

/-- The timers that are allocated, if the list of timers is `L`. -/
def owned (s : Sched κ) (L : List ℕ) : List ℕ := L ++ (s.made ++ (s.removed ++ s.running))

/-- The list of timers is `L`: it is sorted, and every timer is in one place. -/
structure Shape (s : Sched κ) (L : List ℕ) : Prop where
  ring : s.links.Ring L
  length : L.length ≤ s.inserts
  nodup : (s.owned L).Nodup
  live : ∀ a, (s.timers a).isSome ↔ a ∈ s.owned L
  sorted : L.Pairwise (Before s.timers)
  seq : ∀ a ∈ L, ∀ t ∈ s.timers a, t.seq < s.inserts

namespace Shape

variable {L : List ℕ} {s' : Sched κ}

lemma pending_eq (h : s.Shape L) : s.pending = L := h.ring.toList_eq h.length

lemma notMem_of_none (h : s.Shape L) (ha : s.timers a = none) : a ∉ s.owned L := by
  rw [← h.live, ha]
  exact Bool.false_ne_true

lemma init (clock : ℤ) : (Sched.init clock : Sched κ).Shape [] :=
  ⟨.empty, le_rfl, nodup_nil, fun a => by simp [Sched.init, owned], .nil, by simp⟩

lemma of_perm {L' : List ℕ} (h : s.Shape L) (hperm : (s'.owned L').Perm (s.owned L))
    (htimers : ∀ b, (s'.timers b).isSome = (s.timers b).isSome) (hring : s'.links.Ring L')
    (hlength : L'.length ≤ s'.inserts) (hsorted : L'.Pairwise (Before s'.timers))
    (hseq : ∀ a ∈ L', ∀ t ∈ s'.timers a, t.seq < s'.inserts) : s'.Shape L' :=
  ⟨hring, hlength, hperm.nodup_iff.2 h.nodup,
    fun b => by rw [htimers b, hperm.mem_iff]; exact h.live b, hsorted, hseq⟩

lemma schedTimer (h : s.Shape L) : (s.schedTimer a now usec callback varargs).Shape L := by
  obtain heq | ⟨-, hnone, heq⟩ := s.schedTimer_cases
  · rw [heq]
    exact h
  rw [heq]
  have ha := h.notMem_of_none hnone
  have hne : ∀ b ∈ L, b ≠ a := fun b hb hba => ha (hba ▸ mem_append_left _ hb)
  have hperm : (L ++ (a :: s.made ++ (s.removed ++ s.running))).Perm (a :: s.owned L) :=
    perm_middle
  refine ⟨h.ring, h.length, hperm.nodup_iff.2 (nodup_cons.2 ⟨ha, h.nodup⟩), fun b => ?_,
    pairwise_congr h.sorted fun b hb => update_of_ne (hne b hb) .., fun b hb t ht => ?_⟩
  · rw [show (b ∈ (owned _ L : List ℕ)) ↔ b ∈ a :: s.owned L from hperm.mem_iff, mem_cons,
      ← h.live b]
    by_cases hb : b = a
    · simp [hb]
    · simp [hb, update_of_ne]
  · dsimp only at ht
    rw [update_of_ne (hne b hb)] at ht
    exact h.seq b hb t ht

/-- **Adding a timer.**  It comes behind the timers that are not later. -/
lemma timerAdd (h : s.Shape L) : ∃ L', (s.timerAdd a).Shape L' ∧ L ⊆ L' := by
  obtain heq | ⟨t, ht, hmade, heq⟩ := s.timerAdd_cases (a := a)
  · rw [heq]
    exact ⟨L, h, List.Subset.refl L⟩
  rw [heq]
  obtain ⟨P, S, rfl, hfind, hlast, hlater⟩ := h.ring.exists_findBack h.length
    (p := fun b => (s.timers b).any fun tmp => decide (tmp.deadline ≤ t.deadline))
  have ha : a ∉ P ++ S := fun hmem =>
    (nodup_append.1 h.nodup).2.2 a hmem a (mem_append_left _ hmade) rfl
  have hbefore : ∀ b ∈ P, ∀ u ∈ s.timers b, u.deadline ≤ t.deadline := by
    refine deadline_le_of_getLast? (pairwise_append.1 h.sorted).1 fun c hc => ?_
    obtain ⟨v, hv, hle⟩ := (Option.any_eq_true ..).1 (hlast c hc)
    exact ⟨v, hv, of_decide_eq_true hle⟩
  have hafter : ∀ b ∈ S, ∀ u ∈ s.timers b, t.deadline < u.deadline := by
    intro b hb u hu
    have hno := hlater b hb
    rw [show s.timers b = some u from hu, any_some, decide_eq_false_iff_not, not_le] at hno
    exact hno
  refine ⟨P ++ a :: S, h.of_perm ?_ ?_ ?_ ?_ ?_ ?_, by simp⟩
  · have herase : (a :: s.made.erase a).Perm s.made := (perm_cons_erase hmade).symm
    have hmove : (P ++ a :: S).Perm (a :: (P ++ S)) := perm_middle
    exact (hmove.append_right _).trans (perm_middle.symm.trans
      ((herase.append_right _).append_left _))
  · intro b
    by_cases hb : b = a
    · simp [hb, ht]
    · exact congrArg Option.isSome (update_of_ne hb ..)
  · rw [addPosition, hfind]
    exact h.ring.insert ha
  · have hlen := h.length
    rw [length_append] at hlen
    rw [length_append, length_cons]
    exact Nat.succ_le_succ hlen
  · exact pairwise_insert h.sorted ha (fun b hb => h.seq b (mem_append_left S hb)) hbefore hafter
  · intro b hb u hu
    rcases mem_update_some.1 hu with ⟨-, rfl⟩ | ⟨hba, hu⟩
    · exact s.inserts.lt_succ_self
    · have hmem : b ∈ P ++ S :=
        (mem_cons.1 ((perm_middle.mem_iff).1 hb)).resolve_left hba
      exact (h.seq b hmem u hu).trans s.inserts.lt_succ_self

/-- **Removing a timer.**  It is the first one of the list. -/
lemma yielded (h : s.Shape L) (now : ℤ) : ∃ L', (s.yielded now).Shape L' ∧ (L' = L ∨ ∃ b, L = b :: L') := by
  obtain heq | ⟨-, heq | ⟨b, t, hnext, ht, -, heq⟩⟩ := s.yielded_cases now
  · rw [heq]
    exact ⟨L, h, .inl rfl⟩
  · rw [heq]
    exact ⟨L, ⟨h.ring, h.length, h.nodup, h.live, h.sorted, h.seq⟩, .inl rfl⟩
  rw [heq]
  rw [h.ring.next_head] at hnext
  obtain ⟨S, rfl⟩ : ∃ S, L = b :: S := by
    cases L with
    | nil => simp at hnext
    | cons c S => exact ⟨S, by rw [some.inj hnext]⟩
  refine ⟨S, h.of_perm ?_ (fun _ => rfl) (Links.Ring.remove (P := []) h.ring) ?_
    (pairwise_cons.1 h.sorted).2 fun c hc => h.seq c (mem_cons_of_mem b hc), .inr ⟨b, rfl⟩⟩
  · have hmove : (s.made ++ (b :: s.removed ++ s.running)).Perm
        (b :: (s.made ++ (s.removed ++ s.running))) := perm_middle
    exact (hmove.append_left S).trans perm_middle
  · exact (Nat.le_succ _).trans h.length

lemma invoke (h : s.Shape L) : (s.invoke a now).Shape L := by
  obtain heq | ⟨t, -, -, hremoved, heq⟩ := s.invoke_cases a now
  · rw [heq]
    exact h
  rw [heq]
  refine h.of_perm ?_ (fun _ => rfl) h.ring h.length h.sorted h.seq
  have herase : (a :: s.removed.erase a).Perm s.removed := (perm_cons_erase hremoved).symm
  have hmove : (s.removed.erase a ++ a :: s.running).Perm (s.removed ++ s.running) :=
    perm_middle.trans (herase.append_right s.running)
  exact (hmove.append_left s.made).append_left L

lemma timerFree (h : s.Shape L) : (s.timerFree a).Shape L := by
  obtain heq | ⟨hrunning, heq⟩ := s.timerFree_cases (a := a)
  · rw [heq]
    exact h
  rw [heq]
  have hperm : (s.owned L).Perm (a :: (L ++ (s.made ++ (s.removed ++ s.running.erase a)))) := by
    have hassoc (X : List ℕ) : L ++ (s.made ++ (s.removed ++ X)) = L ++ s.made ++ s.removed ++ X := by
      simp
    rw [owned, hassoc, hassoc]
    exact ((perm_cons_erase hrunning).append_left _).trans perm_middle
  obtain ⟨ha, hnodup⟩ := nodup_cons.1 (hperm.nodup_iff.1 h.nodup)
  have hne : ∀ b ∈ L, b ≠ a := fun b hb hba => ha (hba ▸ mem_append_left _ hb)
  refine ⟨h.ring, h.length, hnodup, fun b => ?_,
    pairwise_congr h.sorted fun b hb => update_of_ne (hne b hb) .., fun b hb t ht => ?_⟩
  · by_cases hb : b = a
    · rw [hb]
      simp only [update_self, isSome_none, Bool.false_eq_true, false_iff]
      exact ha
    · have hlive := h.live b
      rw [hperm.mem_iff, mem_cons, or_iff_right hb] at hlive
      simp only [update_of_ne hb]
      exact hlive
  · dsimp only at ht
    rw [update_of_ne (hne b hb)] at ht
    exact h.seq b hb t ht

end Shape

/-! ### The callbacks -/

/-- The timer `t` is the one that a call of `sched_timer` made. -/
def MadeBy (calls : List (TimerCall κ)) (t : Timer κ) : Prop :=
  ∃ c, calls[t.call]? = some c ∧ t.deadline = c.now + c.usec ∧ t.callback = c.callback ∧
    t.argc = c.args.length ∧ t.argv = c.args ++ replicate (timerMaxArg - c.args.length) 0

/-- Each timer comes from a call of its own, and its callback is called once. -/
structure Callbacks (s : Sched κ) : Prop where
  madeBy : ∀ a, ∀ t ∈ s.timers a, MadeBy s.calls t
  injective : ∀ a b, ∀ t ∈ s.timers a, ∀ u ∈ s.timers b, t.call = u.call → a = b
  asGiven : ∀ f ∈ s.fired, AsGiven s.calls f
  nodup : (s.fired.map Fired.call).Nodup
  notFired : ∀ a ∉ s.running, ∀ t ∈ s.timers a, t.call ∉ s.fired.map Fired.call

namespace Callbacks

lemma madeBy_append {calls : List (TimerCall κ)} {t : Timer κ} (h : MadeBy calls t)
    (c : TimerCall κ) : MadeBy (calls ++ [c]) t := by
  obtain ⟨d, hd, hrest⟩ := h
  exact ⟨d, getElem?_append_left (List.getElem?_eq_some_iff.1 hd).1 ▸ hd, hrest⟩

lemma asGiven_append {calls : List (TimerCall κ)} {f : Fired κ} (h : AsGiven calls f)
    (c : TimerCall κ) : AsGiven (calls ++ [c]) f := by
  obtain ⟨d, hd, hrest⟩ := h
  exact ⟨d, getElem?_append_left (List.getElem?_eq_some_iff.1 hd).1 ▸ hd, hrest⟩

lemma call_lt (h : s.Callbacks) {b : ℕ} {t : Timer κ} (ht : t ∈ s.timers b) :
    t.call < s.calls.length := by
  obtain ⟨c, hc, -⟩ := h.madeBy b t ht
  exact (List.getElem?_eq_some_iff.1 hc).1

lemma fired_lt (h : s.Callbacks) {f : Fired κ} (hf : f ∈ s.fired) : f.call < s.calls.length := by
  obtain ⟨c, hc, -⟩ := h.asGiven f hf
  exact (List.getElem?_eq_some_iff.1 hc).1

lemma init (clock : ℤ) : (Sched.init clock : Sched κ).Callbacks :=
  ⟨by simp [Sched.init], by simp [Sched.init], by simp [Sched.init], by simp [Sched.init],
    by simp [Sched.init]⟩

lemma schedTimer (h : s.Callbacks) : (s.schedTimer a now usec callback varargs).Callbacks := by
  obtain heq | ⟨-, hnone, heq⟩ := s.schedTimer_cases
  · rw [heq]
    exact h
  rw [heq]
  refine ⟨fun b t ht => ?_, fun b c t ht u hu hcall => ?_, fun f hf => asGiven_append (h.asGiven f hf) _,
    h.nodup, fun b hb t ht => ?_⟩
  · rcases mem_update_some.1 ht with ⟨-, rfl⟩ | ⟨-, ht⟩
    · exact ⟨_, getElem?_concat_length, rfl, rfl, rfl, rfl⟩
    · exact madeBy_append (h.madeBy b t ht) _
  · rcases mem_update_some.1 ht with ⟨hb, rfl⟩ | ⟨-, ht⟩ <;> rcases mem_update_some.1 hu with ⟨hc, rfl⟩ | ⟨-, hu⟩
    · rw [hb, hc]
    · exact absurd hcall.symm (h.call_lt hu).ne
    · exact absurd hcall (h.call_lt ht).ne
    · exact h.injective b c t ht u hu hcall
  · rcases mem_update_some.1 ht with ⟨-, rfl⟩ | ⟨-, ht⟩
    · intro hmem
      obtain ⟨f, hf, hcall⟩ := mem_map.1 hmem
      exact (h.fired_lt hf).ne hcall
    · exact h.notFired b hb t ht

lemma of_timers {s' : Sched κ} (h : s.Callbacks) (hcalls : s'.calls = s.calls)
    (hfired : s'.fired = s.fired)
    (htimers : ∀ b, ∀ t ∈ s'.timers b, (b ∉ s'.running → b ∉ s.running) ∧
      ∃ u ∈ s.timers b, ∃ n, t = { u with seq := n }) : s'.Callbacks := by
  refine ⟨fun b t ht => ?_, fun b c t ht t' ht' hcall => ?_, ?_, ?_, fun b hb t ht => ?_⟩
  · obtain ⟨-, u, hu, n, rfl⟩ := htimers b t ht
    rw [hcalls]
    exact h.madeBy b u hu
  · obtain ⟨-, u, hu, n, rfl⟩ := htimers b t ht
    obtain ⟨-, u', hu', n', rfl⟩ := htimers c t' ht'
    exact h.injective b c u hu u' hu' hcall
  · rw [hcalls, hfired]
    exact h.asGiven
  · rw [hfired]
    exact h.nodup
  · obtain ⟨hrunning, u, hu, n, rfl⟩ := htimers b t ht
    rw [hfired]
    exact h.notFired b (hrunning hb) u hu

lemma timerAdd (h : s.Callbacks) : (s.timerAdd a).Callbacks := by
  obtain heq | ⟨t, ht, -, heq⟩ := s.timerAdd_cases (a := a)
  · rw [heq]
    exact h
  rw [heq]
  refine h.of_timers rfl rfl fun b u hu => ⟨id, ?_⟩
  rcases mem_update_some.1 hu with ⟨rfl, rfl⟩ | ⟨-, hu⟩
  · exact ⟨t, ht, s.inserts, rfl⟩
  · exact ⟨u, hu, u.seq, rfl⟩

lemma yielded (h : s.Callbacks) : (s.yielded now).Callbacks := by
  have hsame {s' : Sched κ} (hcalls : s'.calls = s.calls) (hfired : s'.fired = s.fired)
      (htimers : s'.timers = s.timers) (hrunning : s'.running = s.running) : s'.Callbacks :=
    h.of_timers hcalls hfired fun b t ht =>
      ⟨fun hb => hrunning ▸ hb, t, htimers ▸ ht, t.seq, rfl⟩
  obtain heq | ⟨-, heq | ⟨b, t, -, -, -, heq⟩⟩ := s.yielded_cases now
  · rw [heq]
    exact h
  · rw [heq]
    exact hsame rfl rfl rfl rfl
  · rw [heq]
    exact hsame rfl rfl rfl rfl

lemma timerFree (h : s.Callbacks) : (s.timerFree a).Callbacks := by
  obtain heq | ⟨hrunning, heq⟩ := s.timerFree_cases (a := a)
  · rw [heq]
    exact h
  rw [heq]
  refine h.of_timers rfl rfl fun b t ht => ?_
  obtain ⟨hb, ht⟩ := mem_update_none.1 ht
  exact ⟨fun hmem hmem' => hmem ((mem_erase_of_ne hb).2 hmem'), t, ht, t.seq, rfl⟩

/-- **Calling a callback.**  It has not been called before. -/
lemma invoke {L : List ℕ} (h : s.Callbacks) (hshape : s.Shape L) : (s.invoke a now).Callbacks := by
  obtain heq | ⟨t, ht, -, hremoved, heq⟩ := s.invoke_cases a now
  · rw [heq]
    exact h
  rw [heq]
  have ha : a ∉ s.running := fun hmem =>
    (nodup_append.1 (nodup_append.1 (nodup_append.1 hshape.nodup).2.1).2.1).2.2 a hremoved
      a hmem rfl
  have hnot := h.notFired a ha t ht
  obtain ⟨c, hc, -, hcallback, hargc, hargv⟩ := h.madeBy a t ht
  have hnew {f : Fired κ} (hf : f ∈ (t.callback.map fun cb =>
      (⟨t.call, cb, t.argc, t.argv, now⟩ : Fired κ)).toList) :
      f.call = t.call ∧ AsGiven s.calls f := by
    obtain ⟨cb, hcb, rfl⟩ := map_eq_some_iff.1 (mem_toList.1 hf)
    exact ⟨rfl, c, hc, hcallback.symm.trans hcb, hargc, hargv⟩
  refine ⟨h.madeBy, h.injective, fun f hf => ?_, ?_, fun b hb u hu hmem => ?_⟩
  · rcases mem_append.1 hf with hf | hf
    · exact h.asGiven f hf
    · exact (hnew hf).2
  · rw [map_append, nodup_append]
    refine ⟨h.nodup, ?_, fun x hx y hy hxy => ?_⟩
    · cases t.callback with
      | none => exact nodup_nil
      | some cb => exact nodup_singleton _
    · obtain ⟨f, hf, rfl⟩ := mem_map.1 hy
      exact hnot ((hnew hf).1 ▸ hxy ▸ hx)
  · obtain ⟨hba, hb⟩ := not_or.1 (mem_cons.not.1 hb)
    rw [map_append, mem_append] at hmem
    rcases hmem with hmem | hmem
    · exact h.notFired b hb u hu hmem
    · obtain ⟨f, hf, hcall⟩ := mem_map.1 hmem
      exact hba (h.injective b a u hu t ht (hcall.symm.trans (hnew hf).1))

end Callbacks

/-! ### Runs -/

structure Inv (s : Sched κ) : Prop where
  shape : ∃ L, s.Shape L
  callbacks : s.Callbacks

namespace Inv

lemma init (clock : ℤ) : (Sched.init clock : Sched κ).Inv := ⟨⟨[], .init clock⟩, .init clock⟩

lemma pending (h : s.Inv) : s.Shape s.pending := by
  obtain ⟨L, hL⟩ := h.shape
  rw [hL.pending_eq]
  exact hL

lemma step (h : s.Inv) (act : SchedAct κ) : (s.step act).Inv := by
  have hshape := h.pending
  cases act with
  | call a now usec callback varargs => exact ⟨⟨_, hshape.schedTimer⟩, h.callbacks.schedTimer⟩
  | add a => exact ⟨hshape.timerAdd.imp fun _ => And.left, h.callbacks.timerAdd⟩
  | yield now => exact ⟨(hshape.yielded now).imp fun _ => And.left, h.callbacks.yielded⟩
  | invoke a now => exact ⟨⟨_, hshape.invoke⟩, h.callbacks.invoke hshape⟩
  | free a => exact ⟨⟨_, hshape.timerFree⟩, h.callbacks.timerFree⟩

lemma removesDue_yielded (h : s.Inv) (now : ℤ) : s.RemovesDue (.yield now) (s.yielded now) := by
  have hshape := h.pending
  obtain heq | ⟨-, heq | ⟨b, t, hnext, ht, hdue, heq⟩⟩ := s.yielded_cases now
  · rw [heq]
    exact fun a ha => ha.elim (fun h => absurd h.1 h.2) fun h => absurd h.1 h.2
  · rw [heq]
    exact fun a ha => ha.elim (fun h => absurd h.1 h.2) fun h => absurd h.1 h.2
  rw [hshape.ring.next_head] at hnext
  have hsorted := hshape.sorted
  obtain ⟨L', hL', hhead⟩ := hshape.yielded now
  rw [← hL'.pending_eq] at hhead
  rintro a ha
  obtain rfl : a = b := by
    rcases ha with ⟨ha, hnot⟩ | ⟨ha, hnot⟩
    · obtain hsame | ⟨c, hc⟩ := hhead
      · exact absurd (hsame ▸ ha) hnot
      · rw [hc] at ha hnext
        exact ((mem_cons.1 ha).resolve_right hnot).trans (some.inj hnext)
    · rw [heq] at ha
      exact (mem_cons.1 ha).resolve_right hnot
  rw [heq]
  cases hL : s.pending with
  | nil => simp [hL] at hnext
  | cons c S =>
    rw [hL] at hnext hsorted
    obtain rfl : c = a := some.inj hnext
    refine ⟨mem_cons_self, fun t' ht' => ?_⟩
    obtain rfl : t = t' := some.inj (ht.symm.trans ht')
    refine ⟨hdue, fun d hd u hu => ?_⟩
    rcases mem_cons.1 hd with rfl | hd
    · obtain rfl : t = u := some.inj (ht.symm.trans hu)
      exact le_rfl
    · rcases (pairwise_cons.1 hsorted).1 d hd t ht u hu with hlt | ⟨heq, -⟩
      · exact hlt.le
      · exact heq.le

end Inv

@[simp] lemma removed_schedTimer :
    (s.schedTimer a now usec callback varargs).removed = s.removed := by
  obtain heq | ⟨-, -, heq⟩ := s.schedTimer_cases
  · rw [heq]
  · rw [heq]

@[simp] lemma removed_timerAdd : (s.timerAdd a).removed = s.removed := by
  obtain heq | ⟨t, -, -, heq⟩ := s.timerAdd_cases (a := a)
  · rw [heq]
  · rw [heq]

@[simp] lemma removed_timerFree : (s.timerFree a).removed = s.removed := by
  obtain heq | ⟨-, heq⟩ := s.timerFree_cases (a := a)
  · rw [heq]
  · rw [heq]

lemma removed_invoke_subset : (s.invoke a now).removed ⊆ s.removed := by
  obtain heq | ⟨t, -, -, -, heq⟩ := s.invoke_cases a now
  · rw [heq]
    exact List.Subset.refl _
  · rw [heq]
    exact erase_subset

lemma Inv.removesDue (h : s.Inv) (act : SchedAct κ) : s.RemovesDue act (s.step act) := by
  have hsub {s' : Sched κ} (hremoved : s'.removed ⊆ s.removed) (hpending : s.pending ⊆ s'.pending) :
      s.RemovesDue act s' :=
    fun a ha => ha.elim (fun h => absurd (hpending h.1) h.2) fun h => absurd (hremoved h.1) h.2
  have hshape := h.pending
  have hsame {s' : Sched κ} (h : s'.Shape s.pending) : s.pending ⊆ s'.pending :=
    h.pending_eq ▸ List.Subset.refl _
  cases act with
  | call a now usec callback varargs =>
    exact hsub (by simp [Sched.step]) (hsame hshape.schedTimer)
  | add a =>
    obtain ⟨L', hL', hle⟩ := hshape.timerAdd (a := a)
    exact hsub (by simp [Sched.step]) (hL'.pending_eq ▸ hle)
  | yield now => exact h.removesDue_yielded now
  | invoke a now => exact hsub removed_invoke_subset (hsame hshape.invoke)
  | free a => exact hsub (by simp [Sched.step]) (hsame hshape.timerFree)

/-- **Timers fire once and in order.**  After any steps of the threads the list of timers is a ring of
allocated timers that is sorted by the deadlines, with equal deadlines in the order of insertion.  A
step removes only timers that are due and before which no timer of the list has its deadline.  For each
call of `sched_timer` the callback has been called at most once, and with the arguments of the call. -/
theorem timers_once_in_order {κ : Type} (clock : ℤ) (acts : List (SchedAct κ)) :
    let s := run step (init clock) acts
    s.links.Ring s.pending ∧ (∀ a ∈ s.pending, (s.timers a).isSome) ∧
      s.pending.Pairwise (Before s.timers) ∧
      Along step RemovesDue (init clock) acts ∧
      (s.fired.map Fired.call).Nodup ∧ ∀ f ∈ s.fired, AsGiven s.calls f := by
  intro s
  have hinv : s.Inv := Along.run_inv (.init clock) fun s act hs => hs.step act
  have hshape := hinv.pending
  refine ⟨hshape.ring, fun a ha => (hshape.live a).2 (mem_append_left _ ha), hshape.sorted, ?_,
    hinv.callbacks.nodup, hinv.callbacks.asGiven⟩
  exact Along.of_inv (I := Inv) (R := fun _ _ _ => True) (Inv.init clock)
    (Along.of_forall fun _ _ _ => trivial) fun s act hs _ => ⟨hs.step act, hs.removesDue act⟩

end Sched

end Lfs.Common
