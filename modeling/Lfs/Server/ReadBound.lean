/-
How much the functions that read a request ask for.

`__network_read_header` asks for a whole header each time, however many bytes are there already, and
goes on reading until it has exactly a header or nothing is there.  `__network_read_body` asks for what
is missing of the body; it looks at the size of the read buffer only when the buffer is full.  So the buffer
is overrun by a long body, and by a header that does not end where a `read` does.
-/
import Lfs.Server.Framing
import Lfs.Server.Sound

namespace Lfs.Server

open Lfs.Lib Option

/-- The bytes that a call of `read` has returned. -/
def ReadRes.taken : ReadRes → List Byte
  | bytes bs => bs
  | _ => []

namespace Conn

/-- The `read` that the step makes in `__network_read_header` or `__network_read_body`, if it makes one:
how much it asks for, and how much room there is. -/
def socketRead (c : Conn) (env : StepEnv) : Option (Option ℕ × ℕ) :=
  if env.actor = .nio ∧ c.running = true then
    match c.loop with
    | .header => some (some headerSize, c.rsize - c.rbytes)
    | .body =>
      if c.rbytes < c.rsize then some (c.bodyAvail, c.rsize - c.rbytes)
      else if c.allocCount = 2 then none
      else if env.realloc then some (c.bodyAvail, c.rsize * 2 - c.rbytes)
      else none
    | _ => none
  else none

/-- The `read` of the step, if it makes one, asks for some bytes and not for more than there is room. -/
def ReadWithin (c : Conn) (env : StepEnv) : Prop :=
  ∀ r ∈ c.socketRead env, ∃ n, r.1 = some n ∧ 0 < n ∧ n ≤ r.2

/-- What the next `read` returns of a header ends it, or leaves room for a whole header behind it. -/
def HeaderFits (c : Conn) : Prop :=
  c.loop = .header → c.rbytes + (readSock (some headerSize) c.input).1.taken.length = headerSize ∨
      c.rbytes + (readSock (some headerSize) c.input).1.taken.length < headerSize ∧
        c.rbytes + (readSock (some headerSize) c.input).1.taken.length + headerSize ≤ c.rsize

/-- The read buffer can hold the header and a body of the length that the header announces. -/
def BodyFits (c : Conn) : Prop := c.loop = .body → headerSize + c.bodyLen ≤ c.rsize

instance (c : Conn) : Decidable c.HeaderFits := inferInstanceAs (Decidable (_ → _))

instance (c : Conn) : Decidable c.BodyFits := inferInstanceAs (Decidable (_ → _))

variable {c c' : Conn} {env : StepEnv} {n : ℕ}

lemma length_taken_le (n : ℕ) (input : List ReadEv) : (readSock (some n) input).1.taken.length ≤ n := by
  unfold readSock
  split_ifs
  · exact Nat.zero_le n
  · induction input with
    | nil => exact Nat.zero_le n
    | cons ev input ih =>
      cases ev with
      | data bytes =>
        cases bytes with
        | nil => exact ih
        | cons b bytes => exact List.length_take_le ..
      | again | eof | error => exact Nat.zero_le n

/-! ### The invariant -/

/-- The read buffer while requests are collected: a whole header fits behind the part of one that is there,
and where a body is read, or is going to be, something of it is missing. -/
structure Reading (c : Conn) : Prop where
  sound : c.Sound
  size : headerSize ≤ c.rsize ∧ c.rsize < 2 ^ 31
  le : c.rbytes ≤ c.rsize
  rbuff : c.Collecting → c.rcurr + c.rbytes ≤ c.rbuff.length
  room : c.Collecting → c.rbytes < headerSize → c.rbytes + headerSize ≤ c.rsize
  header : c.loop = .header → c.rbytes < headerSize
  body : c.loop = .body → headerSize ≤ c.rbytes ∧ c.rbytes < headerSize + c.bodyLen
  waits : c.loop = .none → c.state = .waiting ∨ c.state = .read → c.rbytes < headerSize + c.bodyLen

namespace Reading

lemma of_away (h : c.Reading) (hsound : c'.Sound) (haway : ¬ c'.Collecting) (hsize : c'.rsize = c.rsize)
    (hle : c'.rbytes ≤ c.rsize) : c'.Reading := by
  refine ⟨hsound, hsize ▸ h.size, hsize ▸ hle, fun hc => absurd hc haway, fun hc => absurd hc haway,
    fun hl => absurd (.inl hl) haway, fun hl => absurd (.inr (.inl hl)) haway, fun hl hs => ?_⟩
  exact absurd (.inr (.inr ⟨hl, hs.imp_right .inl⟩)) haway

lemma of_closed (h : c.Reading) (hsound : c'.Sound) (hloop : c'.loop = .none) (hstate : c'.state = .closed)
    (hsize : c'.rsize = c.rsize) (hle : c'.rbytes ≤ c.rsize) : c'.Reading :=
  h.of_away hsound (not_collecting (.inl hloop) (by rw [hstate]; decide)) hsize hle

/-- The read buffer is as it was, and one of the loops or states in which a request is collected is
entered. -/
lemma of_reader (h : c.Reading) (hsound : c'.Sound) (hcollecting : c.Collecting)
    (hreader : c'.reader = c.reader) (hheader : c'.loop = .header → c.rbytes < headerSize)
    (hbody : c'.loop = .body → headerSize ≤ c.rbytes ∧ c.rbytes < headerSize + c.bodyLen)
    (hwaits : c'.loop = .none → c'.state = .waiting ∨ c'.state = .read →
      c.rbytes < headerSize + c.bodyLen) : c'.Reading := by
  simp only [reader, Prod.mk.injEq] at hreader
  obtain ⟨hrbuff, hrcurr, hrbytes, hsize, -⟩ := hreader
  have hlen : c'.bodyLen = c.bodyLen := by rw [bodyLen_eq, bodyLen_eq, hrbuff]
  refine ⟨hsound, hsize ▸ h.size, ?_, fun _ => ?_, fun _ => ?_, ?_, ?_, ?_⟩
  · rw [hrbytes, hsize]
    exact h.le
  · rw [hrcurr, hrbytes, hrbuff]
    exact h.rbuff hcollecting
  · rw [hrbytes, hsize]
    exact h.room hcollecting
  · rwa [hrbytes]
  · rwa [hrbytes, hlen]
  · rwa [hrbytes, hlen]

lemma continues (h : c.Reading) (hsound : c'.Sound) (hstep : Continues c c') : c'.Reading := by
  have hpos : 0 < headerSize := by decide
  cases hstep with
  | away haway hsize hle => exact h.of_away hsound haway hsize (hle.trans h.le)
  | reset hreader hloop hstate =>
    simp only [reader, Prod.mk.injEq] at hreader
    obtain ⟨-, hrcurr, hrbytes, hsize, -⟩ := hreader
    have hroom := h.size.1
    refine ⟨hsound, hsize ▸ h.size, by omega, fun _ => by omega, fun _ _ => by omega, fun _ => by omega,
      fun hbody => ?_, fun _ _ => by omega⟩
    exact absurd (hloop.symm.trans hbody) (by decide)
  | same hcollecting hreader hloop hstate =>
    refine h.of_reader hsound hcollecting hreader (fun hl => h.header (hloop.symm.trans hl))
      (fun hl => h.body (hloop.symm.trans hl)) fun hl hs => ?_
    exact h.waits (hloop.symm.trans hl) ((hstate.resolve_right fun hne => hne hl) ▸ hs)
  | reads hloop hstate hreader hstate' hloop' =>
    have hwaits := h.waits hloop hstate
    have hcollecting : c.Collecting := .inr (.inr ⟨hloop, hstate.imp_right .inl⟩)
    refine h.of_reader hsound hcollecting hreader (fun hl => ?_) (fun hl => ⟨?_, hwaits⟩) fun _ _ => hwaits
    · rcases hloop' with hl' | ⟨-, hshort⟩ | ⟨hl', -⟩
      · exact absurd (hl'.symm.trans hl) (by decide)
      · exact hshort
      · exact absurd (hl'.symm.trans hl) (by decide)
    · rcases hloop' with hl' | ⟨hl', -⟩ | ⟨-, hheader⟩
      · exact absurd (hl'.symm.trans hl) (by decide)
      · exact absurd (hl'.symm.trans hl) (by decide)
      · exact hheader

/-- The end of a round in one of the two loops. -/
lemma took (h : c.Reading) {total : ℤ} {r : ReadRes × List ReadEv}
    (hsound : (c.networkReadTook total r).Sound) (hloop : c.loop = .header ∨ c.loop = .body)
    (hle : c.rbytes + r.1.taken.length ≤ c.rsize)
    (hend : ((c.rbytes + r.1.taken.length : ℕ) : ℤ) = total → headerSize ≤ c.rbytes + r.1.taken.length)
    (hheader : c.loop = .header → ((c.rbytes + r.1.taken.length : ℕ) : ℤ) ≠ total →
      c.rbytes + r.1.taken.length < headerSize ∧ c.rbytes + r.1.taken.length + headerSize ≤ c.rsize)
    (hbody : c.loop = .body → ((c.rbytes + r.1.taken.length : ℕ) : ℤ) ≠ total →
      c.rbytes + r.1.taken.length < headerSize + c.bodyLen) :
    (c.networkReadTook total r).Reading := by
  have hcollecting : c.Collecting := hloop.imp_right .inl
  have hmissing : c.rbytes < headerSize + c.bodyLen := by
    rcases hloop with hloop | hloop
    · exact Nat.lt_add_right _ (h.header hloop)
    · exact (h.body hloop).2
  have hrbuff := h.rbuff hcollecting
  rcases r with ⟨bs | _ | _ | _, input⟩
  · have hlength : c.rcurr + (c.rbytes + bs.length) ≤ (c.store bs).rbuff.length := by
      simp only [Conn.store, List.length_append, List.length_take]
      omega
    simp only [networkReadTook, ReadRes.taken] at hsound hle hend hheader hbody ⊢
    split_ifs at hsound ⊢ with htotal
    · exact ⟨hsound, h.size, hle, fun _ => hlength, fun _ hlt => absurd (hend htotal) (not_le.2 hlt),
        by simp [networkReadEnd], by simp [networkReadEnd], by simp [networkReadEnd]⟩
    · refine ⟨hsound, h.size, hle, fun _ => hlength, fun _ hlt => ?_, fun hl => (hheader hl htotal).1,
        fun hl => ?_, fun hl => ?_⟩
      · rcases hloop with hloop | hloop
        · exact (hheader hloop htotal).2
        · exact absurd hlt (not_lt.2 (Nat.le_add_right_of_le (h.body hloop).1))
      · obtain ⟨hheader, -⟩ := h.body hl
        refine ⟨Nat.le_add_right_of_le hheader, ?_⟩
        have hlen := bodyLen_store (Nat.le_add_left_of_le hheader) hrbuff bs
        exact lt_of_lt_of_eq (hbody hl htotal) (congrArg _ hlen.symm)
      · rcases hloop with hloop | hloop <;> exact absurd (hloop.symm.trans hl) (by decide)
  · exact h.of_reader hsound hcollecting rfl (by simp [networkReadTook, networkReadEnd])
      (by simp [networkReadTook, networkReadEnd]) fun _ _ => hmissing
  · exact h.of_closed hsound rfl rfl rfl h.le
  · exact h.of_closed hsound rfl rfl rfl h.le

lemma parseProtocolCmd (h : c.Reading) (hsound : (c.parseProtocolCmd env).Sound) (hloop : c.loop = .none)
    (hstate : c.state = .parseCmd) : (c.parseProtocolCmd env).Reading := by
  have hcollecting : c.Collecting := .inr (.inr ⟨hloop, .inr (.inr hstate)⟩)
  have hwaits (hsound : { c with state := .waiting }.Sound) (hlt : c.rbytes < headerSize + c.bodyLen) :
      { c with state := .waiting }.Reading :=
    h.of_reader hsound hcollecting rfl (by simp [hloop]) (by simp [hloop]) fun _ _ => hlt
  unfold Conn.parseProtocolCmd at hsound ⊢
  split_ifs at hsound ⊢ with hshort hwhole
  · exact hwaits hsound (by omega)
  · set d : Conn := { c with
      rbytes := c.rbytes - headerSize
      rcurr := headerSize
      dispatched := c.dispatched ++ [(c.cmd, c.bytesAt headerSize c.bodyLen)] } with hd
    have hrbuff := h.rbuff hcollecting
    have hle : d.rbytes ≤ c.rsize := (Nat.sub_le _ _).trans h.le
    rcases dispatchCmd_cases d env with ⟨-, heq⟩ | ⟨-, hanswers⟩
    · -- the command is not known, and what is left is parsed again
      rw [heq] at hsound ⊢
      refine ⟨hsound, h.size, hle, fun _ => ?_, fun _ _ => ?_, by simp [d, hloop], by simp [d, hloop],
        by simp [d, hstate]⟩
      · show headerSize + (c.rbytes - headerSize) ≤ c.rbuff.length
        omega
      · show c.rbytes - headerSize + headerSize ≤ c.rsize
        have hrbytes := h.le
        omega
    · obtain ⟨_, _, _, _, _, hdispatch⟩ := @dispatchCmd_eq d env
      refine h.of_away hsound (not_collecting (.inl (by rw [hdispatch]; exact hloop)) ?_)
        (by rw [hdispatch]) (by rw [hdispatch]; exact hle)
      rcases hanswers with hstate | hstate | ⟨hstate, -⟩ <;> rw [hstate] <;> decide
  · exact hwaits hsound (by omega)

end Reading

lemma step_running (hactor : env.actor = .nio) (hrunning : c.running = true) :
    c.step env = c.nioRunning env := by
  unfold step
  rw [hactor]
  exact if_pos hrunning

/-- One step from a state of the invariant stays inside `rbuff`. -/
lemma Reading.step (h : c.Reading) (hfits : c.HeaderFits ∧ c.BodyFits) :
    c.ReadWithin env ∧ (c.step env).Reading := by
  have hsound := h.sound.step env
  by_cases hrun : env.actor = .nio ∧ c.running = true
  · obtain ⟨hactor, hrunning⟩ := hrun
    have hstep : c.step env = c.nioRunning env := step_running hactor hrunning
    have hsocket (hloop : c.loop = .none ∨ c.loop = .fread) : c.ReadWithin env := fun r hr => by
      rw [socketRead, if_pos ⟨hactor, hrunning⟩] at hr
      rcases hloop with hloop | hloop <;> rw [hloop] at hr <;> exact absurd hr (some_ne_none r).symm
    cases hloop : c.loop with
    | none =>
      refine ⟨hsocket (.inl hloop), ?_⟩
      by_cases hstate : c.state = .parseCmd
      · rw [hstep, nioRunning, hloop] at hsound ⊢
        simp only [stateMachine, hstate] at hsound ⊢
        exact h.parseProtocolCmd hsound hloop hstate
      · exact h.continues hsound (h.sound.continues_step fun _ _ => .inr ⟨hloop, hstate⟩)
    | fread =>
      exact ⟨hsocket (.inr hloop), h.continues hsound (h.sound.continues_step fun _ _ => .inl hloop)⟩
    | header =>
      have hlt := h.header hloop
      have hroom := h.room (.inl hloop) hlt
      have htaken := length_taken_le headerSize c.input
      have hnext := hfits.1 hloop
      refine ⟨fun r hr => ?_, ?_⟩
      · rw [socketRead, if_pos ⟨hactor, hrunning⟩, hloop] at hr
        obtain rfl := some.inj hr
        exact ⟨headerSize, rfl, by decide, Nat.le_sub_of_add_le' hroom⟩
      · rw [hstep, nioRunning, hloop] at hsound ⊢
        refine h.took hsound (.inl hloop) (by omega) (fun htotal => by omega)
          (fun _ hne => hnext.resolve_left fun heq => hne (congrArg _ heq)) fun hl => ?_
        exact absurd (hloop.symm.trans hl) (by decide)
    | body =>
      have hlen := hfits.2 hloop
      obtain ⟨hheader, hlt⟩ := h.body hloop
      have hsize := h.size.2
      have hint := bodyLenInt_eq (c := c) (by omega)
      have havail := bodyAvail_eq (c := c) (by omega) hheader hlt.le
      have hfree : c.rbytes < c.rsize := hlt.trans_le hlen
      have htaken := length_taken_le (headerSize + c.bodyLen - c.rbytes) c.input
      refine ⟨fun r hr => ?_, ?_⟩
      · simp only [socketRead, hactor, hrunning, hloop, hfree, and_self, if_true, mem_some] at hr
        subst hr
        exact ⟨_, by rw [havail], Nat.sub_pos_of_lt hlt, Nat.sub_le_sub_right hlen _⟩
      · rw [hstep, nioRunning, hloop] at hsound ⊢
        simp only [networkReadBody, if_pos hfree, networkReadBodyRead, havail] at hsound ⊢
        refine h.took hsound (.inr hloop) (by omega) (fun _ => by omega) (fun hl => ?_) fun _ hne => by omega
        exact absurd (hloop.symm.trans hl) (by decide)
  · refine ⟨fun r hr => ?_, h.continues hsound
      (h.sound.continues_step fun hactor hrunning => absurd ⟨hactor, hrunning⟩ hrun)⟩
    rw [socketRead, if_neg hrun] at hr
    exact absurd hr (some_ne_none r).symm

lemma reading_connNew {rsize : ℕ} (input : List ReadEv) (hheader : headerSize ≤ rsize)
    (hrsize : rsize < 2 ^ 31) : (connNew rsize input).Reading :=
  ⟨sound_connNew rsize input, ⟨hheader, hrsize⟩, Nat.zero_le _, fun _ => Nat.zero_le _,
    fun _ _ => (zero_add _).trans_le hheader, by simp [connNew], by simp [connNew],
    fun _ _ => Nat.add_pos_left (by decide) _⟩

/-- **Reads inside the buffer.**  Where what each `read` returns of a header either ends it or leaves room for
a whole header behind it, and the buffer can hold each header with the body that it announces, every `read`
asks for some bytes and for no more than there is room, whatever the fragments of the bodies are and however
the steps of the threads interleave. -/
theorem read_bound (rsize : ℕ) (input : List ReadEv) (envs : List StepEnv) (hheader : headerSize ≤ rsize)
    (hrsize : rsize < 2 ^ 31)
    (hfits : Along step (fun c _ _ => c.HeaderFits ∧ c.BodyFits) (connNew rsize input) envs) :
    Along step (fun c env c' => c.ReadWithin env ∧ c'.rbytes ≤ c'.rsize) (connNew rsize input) envs := by
  refine hfits.of_inv (I := Reading) (reading_connNew input hheader hrsize) fun c env h hfits => ?_
  obtain ⟨hwithin, hreading⟩ : c.ReadWithin env ∧ (c.step env).Reading := h.step hfits
  exact ⟨hreading, hwithin, hreading.le⟩

/-- A header in two pieces, of 10 and of 6 bytes, and a body of three bytes in two pieces. -/
theorem read_bound_pieces : Along step (fun c env c' => c.ReadWithin env ∧ c'.rbytes ≤ c'.rsize)
      (connNew 1024 [.data (3 :: List.replicate 9 0), .again, .data (List.replicate 6 0), .data [1],
        .data [2, 3]])
      (List.replicate 16 (.ok .nio)) :=
  read_bound 1024 _ _ (by decide) (by decide) (by decide +kernel)

/-- A header that announces a body of 8192 bytes, which is allowed, and the first 1100 of them: with a
buffer of 1024 bytes, `__network_read_body` asks for all of them. -/
theorem read_bound_overrun : headerSize ≤ 1024 ∧
    ¬ Along step (fun c env c' => c.ReadWithin env ∧ c'.rbytes ≤ c'.rsize)
      (connNew 1024 [.data (0 :: 32 :: List.replicate 14 0), .data (List.replicate 1100 0)])
      (List.replicate 9 (.ok .nio)) := by
  refine ⟨by decide, ?_⟩
  intro h
  have hle := h.mono (S := fun _ _ c' => c'.rbytes ≤ c'.rsize) fun _ _ _ h => h.2
  revert hle
  decide +kernel

end Conn

end Lfs.Server
