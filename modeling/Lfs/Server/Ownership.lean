/-
Every open connection is in one place.

An open connection that no thread works on is registered with the event base of its nio
thread, or it is in the queue of a dio thread, or it is in the queue `cq` of its nio thread;
otherwise nothing will ever happen to it again.  Three steps lose a connection: `dio_read` on
a file that has been sent to its end, as every download that succeeds is, and the two places
where the failure of `event_add` is ignored.
-/
import Lfs.Server.Machine
import Lfs.Lib.Run

namespace Lfs.Server

open Lfs.Lib List Option

namespace Conn

variable {c c' : Conn} {env : StepEnv} {f : FileCtx}

/-- A connection that is not closed and that no thread is working on is in exactly one of the
three places. -/
def OnePlace (c : Conn) : Prop :=
  c.running = false → c.closed = false → c.registered.toNat + c.dioq + c.cq = 1

instance : DecidablePred OnePlace := fun c =>
  inferInstanceAs (Decidable (_ → _ → c.registered.toNat + c.dioq + c.cq = 1))

/-- The nio thread that goes back to waiting can register the event for reading again. -/
def Reregisters (env : StepEnv) (c : Conn) : Prop :=
  env.actor = .nio → c.running = true → c.loop = .none → c.state = .waiting →
    c.eventFlags ≠ .read → env.eventDel = true → env.eventAdd = true

/-- The nio thread can register the event of a connection that comes back from a dio thread. -/
def Returns (env : StepEnv) (c : Conn) : Prop :=
  env.actor = .cq → c.cq ≠ 0 → env.eventAdd = true

/-- A dio thread that is to read a file finds a part of it that has not been sent. -/
def HasUnsent (env : StepEnv) (c : Conn) : Prop :=
  env.actor = .dio → c.dioq ≠ 0 → ∀ f ∈ c.fctx, f.job = .download → f.fOffset < f.fSize

/-- The step does not lose the connection. -/
def Kept (env : StepEnv) (c : Conn) : Prop :=
  c.Reregisters env ∧ c.Returns env ∧ c.HasUnsent env

/-! ### Steps that move a connection -/

/-- A connection that its nio thread is running. -/
def Held (c : Conn) : Prop := c.places = (true, true, 0, 0, false)

/-- A connection that its nio thread is about to close. -/
def Closing (c : Conn) : Prop :=
  ∃ registered, c.places = (true, registered, 0, 0, false) ∧ c.state = .closed ∧ c.loop = .none

/-- The places in which connections are found as long as none is lost. -/
inductive Place (c : Conn) : Prop
  | held (h : c.Held)
  | closing (h : c.Closing)
  | idle (h : c.places = (false, true, 0, 0, false))
  | inDioq (h : c.places = (false, false, 1, 0, false))
  | inCq (h : c.places = (false, false, 0, 1, false))
  | closed (h : c.places = (false, false, 0, 0, true))

/-- A connection that is in no place. -/
def Lost (c : Conn) : Prop := c.places = (false, false, 0, 0, false)

lemma onePlace_of_places {r q : Bool} {d n : ℕ} {cl : Bool} (h : c.places = (r, q, d, n, cl)) :
    c.OnePlace ↔ (r = false → cl = false → q.toNat + d + n = 1) := by
  simp only [places, Prod.mk.injEq] at h
  obtain ⟨rfl, rfl, rfl, rfl, rfl⟩ := h
  rfl

lemma Place.onePlace (h : c.Place) : c.OnePlace := by
  cases h with
  | held h => exact (onePlace_of_places h).2 (by simp)
  | closing h =>
    obtain ⟨registered, h, -⟩ := h
    exact (onePlace_of_places h).2 (by simp)
  | idle h | inDioq h | inCq h | closed h => exact (onePlace_of_places h).2 (by simp)

lemma Lost.not_onePlace (h : c.Lost) : ¬ c.OnePlace := by
  rw [onePlace_of_places h]
  simp

lemma places_updateConnEvent (c : Conn) (flags : EvFlags) (env : StepEnv) :
    (c.updateConnEvent flags env).1.places =
      (c.running, (c.updateConnEvent flags env).1.registered, c.dioq, c.cq, c.closed) := by
  unfold updateConnEvent
  split_ifs <;> rfl

@[simp] lemma updateConnEvent_loop (flags : EvFlags) :
    (c.updateConnEvent flags env).1.loop = c.loop := by
  unfold updateConnEvent
  split_ifs <;> rfl

/-- An event is lost between its deletion and an `event_add` that fails. -/
lemma registered_updateConnEvent_iff {flags : EvFlags} (hreg : c.registered = true) :
    (c.updateConnEvent flags env).1.registered = true ↔
      (c.eventFlags ≠ flags → env.eventDel = true → env.eventAdd = true) := by
  unfold updateConnEvent
  split_ifs with hflags hdel
  · simp [hflags, hreg]
  · simp [hflags, hdel]
  · simp [hdel, hreg]

lemma registered_of_updateConnEvent {flags : EvFlags} (hreg : c.registered = true)
    (hok : (c.updateConnEvent flags env).2 = true) :
    (c.updateConnEvent flags env).1.registered = true := by
  rw [registered_updateConnEvent_iff hreg]
  intro hflags hdel
  rwa [updateConnEvent, if_neg hflags, if_pos hdel] at hok

lemma Held.updateConnEvent (h : c.Held) (flags : EvFlags) (env : StepEnv) :
    ((c.updateConnEvent flags env).2 = true → (c.updateConnEvent flags env).1.Held) ∧
      ∃ registered, (c.updateConnEvent flags env).1.places = (true, registered, 0, 0, false) := by
  have hplaces := places_updateConnEvent c flags env
  simp only [Held, places, Prod.mk.injEq] at h
  obtain ⟨hrun, hreg, hdio, hcq, hclosed⟩ := h
  rw [hrun, hdio, hcq, hclosed] at hplaces
  refine ⟨fun hok => ?_, _, hplaces⟩
  rw [Held, hplaces, registered_of_updateConnEvent hreg hok]

lemma Held.leave (h : c.Held) : { c with running := false }.Place := by
  simp only [Held, places, Prod.mk.injEq] at h
  obtain ⟨-, hreg, hdio, hcq, hclosed⟩ := h
  exact .idle (by simp [places, hreg, hdio, hcq, hclosed])

lemma Held.close (h : ∃ registered, c.places = (true, registered, 0, 0, false))
    (hstate : c.state = .closed) (hloop : c.loop = .none) : c.Place := by
  obtain ⟨registered, h⟩ := h
  exact .closing ⟨registered, h, hstate, hloop⟩

lemma Held.exists (h : c.Held) : ∃ registered, c.places = (true, registered, 0, 0, false) :=
  ⟨true, h⟩

lemma Held.networkFreadAgain (h : c.Held) : (c.networkFreadAgain env).Place := by
  obtain ⟨hok, hreg⟩ := h.updateConnEvent .read env
  unfold Conn.networkFreadAgain
  rcases hu : c.updateConnEvent .read env with ⟨c', ok⟩
  rw [hu] at hok hreg
  cases ok with
  | true => exact Held.leave (c := { c' with loop := .none }) (hok rfl)
  | false => exact Held.close hreg rfl rfl

lemma Held.networkFread (h : c.Held) : (c.networkFread env).Place :=
  networkFread_rule (fun _ _ => .held h) (fun _ _ => .held h) (fun _ => Held.close h.exists rfl rfl)
    fun _ => Held.networkFreadAgain h

lemma Held.afterWrite {next : Conn → Conn} (hnext : ∀ c : Conn, c.Held → (next c).Held)
    (h : c.Held) (hloop : c.loop = .none) (e : WriteEnd) :
    (afterWrite next (c.networkWriteEnd env e)).Place := by
  cases e with
  | done => exact .held (hnext c h)
  | error => exact Held.close h.exists rfl hloop
  | again =>
    obtain ⟨hok, hreg⟩ := h.updateConnEvent .write env
    have hloop' : (c.updateConnEvent .write env).1.loop = .none := by
      rw [updateConnEvent_loop, hloop]
    unfold networkWriteEnd
    rcases hu : c.updateConnEvent .write env with ⟨c', ok⟩
    rw [hu] at hok hreg hloop'
    cases ok with
    | true => exact Held.leave (hok rfl)
    | false => exact Held.close hreg rfl hloop'

lemma Held.waiting (h : c.Held) :
    ((c.eventFlags ≠ .read → env.eventDel = true → env.eventAdd = true) →
      { (c.updateConnEvent .read env).1 with state := .read, running := false }.Place) ∧
    (¬ (c.eventFlags ≠ .read → env.eventDel = true → env.eventAdd = true) →
      { (c.updateConnEvent .read env).1 with state := .read, running := false }.Lost) := by
  have hplaces := places_updateConnEvent c .read env
  simp only [Held, places, Prod.mk.injEq] at h hplaces
  obtain ⟨-, hreg, hdio, hcq, hclosed⟩ := h
  rw [← registered_updateConnEvent_iff hreg]
  refine ⟨fun hr => .idle ?_, fun hr => ?_⟩
  · simp [places, hr, hplaces, hdio, hcq, hclosed]
  · simp [Lost, places, hr, hplaces, hdio, hcq, hclosed]

lemma Held.dioThreadPoolDispatch (h : c.Held) (hloop : c.loop = .none) :
    (match c.dioThreadPoolDispatch env with
      | (c, true) => { c with running := false }
      | (c, false) => { c with state := .closed } : Conn).Place := by
  unfold Conn.dioThreadPoolDispatch
  by_cases hdel : env.eventDel = true
  · rw [if_pos hdel]
    simp only [Held, places, Prod.mk.injEq] at h
    exact .inDioq (by simp [places, h])
  · rw [if_neg hdel]
    exact Held.close h.exists rfl hloop

/-- A round of the `switch` keeps the connection, unless it cannot register the event again. -/
lemma Held.stateMachine (h : c.Held) (hloop : c.loop = .none)
    (hwait : c.state = .waiting → c.eventFlags ≠ .read → env.eventDel = true →
      env.eventAdd = true) :
    (c.stateMachine env).Place := by
  unfold Conn.stateMachine
  cases hstate : c.state with
  | waiting => exact h.waiting.1 (hwait hstate)
  | read => exact .held (by rw [Held, places_of_frame frame_networkRead, h])
  | fread => exact .held h
  | parseCmd => exact .held (by rw [Held, places_of_frame frame_parseProtocolCmd, h])
  | write =>
    have hnext (c : Conn) (h : c.Held) : { c.connReset with state := .waiting }.Held := h
    apply Held.afterWrite hnext
    · exact h
    · exact hloop
  | fwrite =>
    cases c.fctx with
    | none => exact .held h
    | some f =>
      have hnext (c : Conn) (h : c.Held) : { c.connReset with state := .n2dio }.Held := h
      apply Held.afterWrite hnext
      · exact h
      · exact hloop
  | fsend =>
    dsimp only
    split_ifs
    · exact .held h
    · exact Held.close h.exists rfl hloop
  | mwrite =>
    have hnext (c : Conn) (h : c.Held) : { c.connWriteReset with state := c.nextto }.Held := h
    apply Held.afterWrite hnext
    · exact h
    · exact hloop
  | n2dio =>
    cases c.fctx with
    | none => exact .held h
    | some f => exact h.dioThreadPoolDispatch hloop
  | closed =>
    simp only [Held, places, Prod.mk.injEq] at h
    exact .closed (by simp [places, connClose, h])

lemma Held.nioRunning (h : c.Held)
    (hwait : c.loop = .none → c.state = .waiting → c.eventFlags ≠ .read → env.eventDel = true →
      env.eventAdd = true) :
    (c.nioRunning env).Place := by
  unfold Conn.nioRunning
  cases hloop : c.loop with
  | none => exact h.stateMachine hloop (hwait hloop)
  | header => exact .held (by rw [Held, networkReadHeader, places_of_frame (frame_networkReadTook _ _), h])
  | body => exact .held (by rw [Held, places_of_frame frame_networkReadBody, h])
  | fread => exact h.networkFread

lemma Lost.dioNotifyNio (h : c.Lost) (state : ConnState) (flags : EvFlags) :
    (c.dioNotifyNio state flags).Place := by
  simp only [Lost, places, Prod.mk.injEq] at h
  exact .inCq (by simp [places, Conn.dioNotifyNio, h])

/-- Every branch of `file_upload_done_callback` after the end of a part hands the connection
back. -/
lemma Lost.fileUploadDoneCallback {done : Bool} (h : c.Lost)
    (hdone : done = true → f.fSize ≤ f.fOffset) : (c.fileUploadDoneCallback env done f).Place := by
  unfold Conn.fileUploadDoneCallback
  by_cases hd : done = false
  · rw [if_pos hd]
    exact Lost.dioNotifyNio (by exact h) _ _
  rw [if_neg hd]
  by_cases htotal : f.fTotalSize ≤ f.fTotalOffset
  · rw [if_pos htotal]
    split_ifs
    · exact Lost.dioNotifyNio (by exact h) _ _
    · exact Lost.dioNotifyNio (by exact h) _ _
    · exact Lost.dioNotifyNio (by exact h) _ _
  · rw [if_neg htotal, if_pos (hdone (by simpa using hd))]
    exact Lost.dioNotifyNio (by exact h) _ _

lemma Lost.asyncfileDoneCallback (h : c.Lost) (done : Bool) :
    (c.asyncfileDoneCallback env done).Place := by
  unfold Conn.asyncfileDoneCallback
  split_ifs
  · exact Lost.dioNotifyNio (by exact h) _ _
  · exact Lost.dioNotifyNio (by exact h) _ _
  · exact Lost.dioNotifyNio (by exact h) _ _

lemma Lost.writeDoneCallback {done : Bool} (h : c.Lost)
    (hdone : done = true → f.fSize ≤ f.fOffset) : (c.writeDoneCallback env done f).Place := by
  unfold Conn.writeDoneCallback
  split_ifs
  · exact h.fileUploadDoneCallback hdone
  · exact h.asyncfileDoneCallback done

lemma Lost.dioWrite (h : c.Lost) (f : FileCtx) : (c.dioWrite env f).Place := by
  unfold Conn.dioWrite
  split_ifs with hio hmore
  · exact Lost.dioNotifyNio (by exact h) _ _
  · exact Lost.writeDoneCallback h fun _ => not_lt.1 hmore
  · exact Lost.writeDoneCallback h (by simp)

lemma Lost.dioRead (h : c.Lost) (hunsent : f.fOffset < f.fSize) : (c.dioRead env f).Place := by
  rw [Conn.dioRead, if_neg (not_le.2 hunsent)]
  split_ifs
  · exact Lost.dioNotifyNio (by exact h) _ _
  · exact Lost.dioNotifyNio (by exact h) _ _

/-! ### One step -/

lemma Place.held_of_running (h : c.Place) (hrun : c.running = true) (hstate : c.state ≠ .closed) :
    c.Held := by
  cases h with
  | held h => exact h
  | closing h => exact absurd h.choose_spec.2.1 hstate
  | idle h | inDioq h | inCq h | closed h =>
    have hidle : c.running = false := congrArg Prod.fst h
    exact absurd hrun (by simp [hidle])

lemma Place.places_of_dioq (h : c.Place) (hdioq : c.dioq ≠ 0) :
    c.places = (false, false, 1, 0, false) := by
  cases h with
  | inDioq h => exact h
  | closing h => exact absurd (congrArg (fun p => p.2.2.1) h.choose_spec.1) hdioq
  | held h | idle h | inCq h | closed h => exact absurd (congrArg (fun p => p.2.2.1) h) hdioq

lemma Place.places_of_cq (h : c.Place) (hcq : c.cq ≠ 0) :
    c.places = (false, false, 0, 1, false) := by
  cases h with
  | inCq h => exact h
  | closing h => exact absurd (congrArg (fun p => p.2.2.2.1) h.choose_spec.1) hcq
  | held h | idle h | inDioq h | closed h => exact absurd (congrArg (fun p => p.2.2.2.1) h) hcq


lemma nioIdle_of_not_registered (h : c.registered = false) : c.nioIdle env = c := if_pos h

lemma place_nioIdle (h : c.places = (false, true, 0, 0, false)) : (c.nioIdle env).Place := by
  have hreg : c.registered = true := congrArg (fun p => p.2.1) h
  have hfire : { c with running := true }.Place := by
    simp only [places, Prod.mk.injEq] at h
    exact .held (by simp [Held, places, h])
  have hstay (input : List ReadEv) : { c with input := input }.Place := .idle h
  rw [nioIdle, if_neg (by simp [hreg])]
  split
  · cases env.writable with
    | true => exact hfire
    | false =>
      simp only [places, Prod.mk.injEq] at h
      exact .idle (by simp [places, h])
  · exact .idle h
  · exact hstay _
  · exact hstay _
  · exact hfire

lemma Place.nio (h : c.Place) (hrereg : c.Reregisters env) (hactor : env.actor = .nio) :
    (if c.running then c.nioRunning env else c.nioIdle env).Place := by
  have hunregistered {d n : ℕ} {cl : Bool} (hp : c.places = (false, false, d, n, cl)) :
      (if c.running then c.nioRunning env else c.nioIdle env) = c := by
    simp only [places, Prod.mk.injEq] at hp
    rw [if_neg (by simp [hp]), nioIdle_of_not_registered hp.2.1]
  cases h with
  | held h =>
    have hrun : c.running = true := congrArg Prod.fst h
    rw [if_pos hrun]
    exact h.nioRunning (hrereg hactor hrun)
  | closing h =>
    obtain ⟨registered, hplaces, hstate, hloop⟩ := h
    simp only [places, Prod.mk.injEq] at hplaces
    obtain ⟨hrun, -, hdio, hcq, -⟩ := hplaces
    have hclose : c.nioRunning env = c.connClose := by
      simp [Conn.nioRunning, hloop, Conn.stateMachine, hstate]
    rw [if_pos hrun, hclose]
    exact .closed (by simp [places, connClose, hdio, hcq])
  | idle h =>
    have hrun : ¬ c.running = true := by simp [show c.running = false from congrArg Prod.fst h]
    rw [if_neg hrun]
    exact place_nioIdle h
  | inDioq h => rw [hunregistered h]; exact .inDioq h
  | inCq h => rw [hunregistered h]; exact .inCq h
  | closed h => rw [hunregistered h]; exact .closed h

lemma dioThread_of_dioq_eq_zero (h : c.dioq = 0) : c.dioThread env = c := by
  unfold dioThread
  cases c.fctx with
  | none => rfl
  | some f => exact if_pos h

lemma lost_of_popped (h : c.places = (false, false, 1, 0, false)) : c.dioqPop.Lost := by
  simp only [places, Prod.mk.injEq] at h
  simp [Lost, dioqPop, places, h]

lemma place_dioThread (h : c.places = (false, false, 1, 0, false))
    (hunsent : ∀ f ∈ c.fctx, f.job = .download → f.fOffset < f.fSize) :
    (c.dioThread env).Place := by
  have hdioq : c.dioq ≠ 0 := by
    simp only [places, Prod.mk.injEq] at h
    simp [h]
  have hpopped := lost_of_popped h
  unfold dioThread
  cases hf : c.fctx with
  | none => exact .inDioq h
  | some f =>
    rw [hf] at hunsent
    dsimp only
    rw [if_neg hdioq]
    cases hjob : f.job with
    | none => exact .inDioq h
    | download => exact hpopped.dioRead (hunsent f rfl hjob)
    | upload | asyncCopy => exact hpopped.dioWrite f

lemma Place.dio (h : c.Place) (hunsent : c.HasUnsent env) (hactor : env.actor = .dio) :
    (c.dioThread env).Place := by
  by_cases hdioq : c.dioq = 0
  · rw [dioThread_of_dioq_eq_zero hdioq]
    exact h
  · exact place_dioThread (h.places_of_dioq hdioq) (hunsent hactor hdioq)

lemma Place.cq (h : c.Place) (hreturn : c.Returns env) (hactor : env.actor = .cq) :
    (if c.cq = 0 then c else c.addConnEvent env).Place := by
  by_cases hcq : c.cq = 0
  · rw [if_pos hcq]
    exact h
  · have hplaces := h.places_of_cq hcq
    simp only [places, Prod.mk.injEq] at hplaces
    rw [if_neg hcq]
    exact .idle (by simp [places, addConnEvent, hplaces, hreturn hactor hcq])

lemma Place.step (h : c.Place) (hkept : c.Kept env) : (c.step env).Place := by
  obtain ⟨hrereg, hreturn, hunsent⟩ := hkept
  unfold Conn.step
  cases hactor : env.actor with
  | nio => exact h.nio hrereg hactor
  | dio => exact h.dio hunsent hactor
  | cq => exact h.cq hreturn hactor

lemma Place.lost (h : c.Place) (hkept : ¬ c.Kept env) : (c.step env).Lost := by
  have hcases : ¬ c.Reregisters env ∨ ¬ c.Returns env ∨ ¬ c.HasUnsent env := by
    simpa only [Kept, not_and_or] using hkept
  unfold Conn.step
  rcases hcases with hrereg | hreturn | hunsent
  · -- the nio thread has deleted the event and cannot add it again
    simp only [Reregisters, Classical.not_imp] at hrereg
    obtain ⟨hactor, hrun, hloop, hstate, hadd⟩ := hrereg
    have hheld := h.held_of_running hrun (by simp [hstate])
    have hwait := (Held.waiting hheld).2 (by simpa only [Classical.not_imp] using hadd)
    simpa [hactor, hrun, Conn.nioRunning, hloop, Conn.stateMachine, hstate] using hwait
  · -- the nio thread has taken the connection from `cq` and cannot add the event
    simp only [Returns, Classical.not_imp] at hreturn
    obtain ⟨hactor, hcq, hadd⟩ := hreturn
    have hplaces := h.places_of_cq hcq
    simp only [places, Prod.mk.injEq] at hplaces
    simp [hactor, Lost, places, addConnEvent, hplaces, hadd]
  · -- the dio thread has taken the connection from its queue and has nothing to read
    simp only [HasUnsent, Classical.not_imp, not_forall, not_lt] at hunsent
    obtain ⟨hactor, hdioq, f, hf, hjob, hsent⟩ := hunsent
    have hpopped := lost_of_popped (h.places_of_dioq hdioq)
    have hdio : c.dioThread env = c.dioqPop := by
      simp [dioThread, mem_def.1 hf, hdioq, hjob, dioRead_of_sent hsent]
    simpa [hactor, hdio] using hpopped

lemma Place.kept_iff (h : c.Place) : c.Kept env ↔ (c.step env).OnePlace := by
  constructor
  · intro hkept
    exact (h.step hkept).onePlace
  · intro hone
    by_contra hkept
    exact (h.lost hkept).not_onePlace hone

end Conn

/-! ### The connections of a dataserver -/

/-- What happens in a dataserver: a client is accepted, or a thread acts on a connection. -/
inductive ServerOp where
  | accept (input : List ReadEv)
  | act (i : ℕ) (env : StepEnv)
deriving DecidableEq

/-- One operation on the connections; `rsize` is `nio_read_buffer_size`. -/
def serverStep (rsize : ℕ) (conns : List Conn) : ServerOp → List Conn
  | .accept input => conns ++ [.connNew rsize input]
  | .act i env => conns.modify i (·.step env)

/-- The operation does not lose the connection that it acts on. -/
def KeptBy (conns : List Conn) : ServerOp → Prop
  | .accept _ => True
  | .act i env => ∀ c ∈ conns[i]?, c.Kept env

lemma forall_mem_modify_iff {α : Type*} {P : α → Prop} {l : List α} (h : ∀ a ∈ l, P a) (i : ℕ)
    (f : α → α) : (∀ a ∈ l.modify i f, P a) ↔ ∀ a ∈ l[i]?, P (f a) := by
  simp only [mem_iff_getElem?, getElem?_modify, mem_def, Option.map_eq_map]
  constructor
  · intro hall a ha
    exact hall _ ⟨i, by simp [ha]⟩
  · rintro hchanged b ⟨j, hj⟩
    by_cases hij : i = j
    · subst hij
      simp only [if_true, map_eq_some_iff] at hj
      obtain ⟨a, ha, rfl⟩ := hj
      exact hchanged a ha
    · exact h b (mem_of_getElem? (by simpa [hij] using hj))

lemma place_connNew (rsize : ℕ) (input : List ReadEv) : (Conn.connNew rsize input).Place := .idle rfl

lemma keptBy_iff {conns : List Conn} (rsize : ℕ) (op : ServerOp) (h : ∀ c ∈ conns, c.Place) :
    KeptBy conns op ↔ ∀ c ∈ serverStep rsize conns op, c.OnePlace := by
  cases op with
  | accept input =>
    refine iff_of_true trivial fun c hc => ?_
    rcases mem_append.1 hc with hc | hc
    · exact (h c hc).onePlace
    · rw [mem_singleton.1 hc]
      exact (place_connNew rsize input).onePlace
  | act i env =>
    rw [serverStep, forall_mem_modify_iff fun c hc => (h c hc).onePlace]
    exact forall₂_congr fun c hc => (h c (mem_of_getElem? hc)).kept_iff

lemma place_serverStep {conns : List Conn} (rsize : ℕ) (op : ServerOp)
    (h : ∀ c ∈ conns, c.Place) (hkept : KeptBy conns op) :
    ∀ c ∈ serverStep rsize conns op, c.Place := by
  cases op with
  | accept input =>
    intro c hc
    rcases mem_append.1 hc with hc | hc
    · exact h c hc
    · rw [mem_singleton.1 hc]
      exact place_connNew rsize input
  | act i env =>
    rw [serverStep, forall_mem_modify_iff h]
    exact fun c hc => (h c (mem_of_getElem? hc)).step (hkept c hc)

/-- **No connection is lost.**  Along every run of a dataserver, every open connection that no
thread is working on is in exactly one place after every step, if and only if no step loses the
connection that it acts on. -/
theorem connections_onePlace_iff (rsize : ℕ) (ops : List ServerOp) :
    Along (serverStep rsize) (fun conns op _ => KeptBy conns op) [] ops ↔
      Along (serverStep rsize) (fun _ _ conns => ∀ c ∈ conns, c.OnePlace) [] ops :=
  Along.iff_of_inv' (I := fun conns => ∀ c ∈ conns, c.Place) (by simp)
    (fun _ op h => keptBy_iff rsize op h) fun _ op h => place_serverStep rsize op h

/-- A request to download the first byte of a file: the header, and a body in which the offset,
the index of the block and the name are zero. -/
def downloadRequest : List Byte :=
  [24, 1, 0, 0, 0, 0, 0, 0, 0x13, 0, 0, 0, 0, 0, 0, 0] ++ replicate 15 0 ++ [1] ++ replicate 264 0

/-- A client sends the request, the acknowledgement and the byte are sent, and the dio thread
finds nothing left to read. -/
def downloadServed : List ServerOp :=
  .accept [.data downloadRequest] ::
    (replicate 11 .nio ++ [.dio, .cq, .nio, .nio, .nio, .dio] : List Actor).map
      fun actor => .act 0 (.ok actor)

/-- A download that succeeds loses its connection: the file has been sent, the socket is open,
and the connection is in no place. -/
theorem downloadServed_lost : (run (serverStep 1024) [] downloadServed).map (·.places) =
        [(false, false, 0, 0, false)] ∧
      ¬ Along (serverStep 1024) (fun _ _ conns => ∀ c ∈ conns, c.OnePlace) [] downloadServed := by
  decide +kernel

end Lfs.Server
