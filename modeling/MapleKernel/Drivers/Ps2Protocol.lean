/-
  File:      Drivers/Ps2Protocol.lean
  Subject:   THE WRITE PROTOCOL OF THE PS/2 CONTROLLER over any sequence of the driver's operations.

  A byte may be written to port 0x60 or 0x64 only after a status read that had the input buffer
  empty, and each byte needs a status read of its own. Most operations get there with
  `wait_till_ready_for_more_input` before each byte. Three do not: the two `fake_ps2_..._byte`
  write the second byte at once, and `ps2_set_controller_output_port` waits for a response first.

  * `WriteProtocol` -- the protocol, on the accesses to the ports;
  * `Operates` -- a program adds accesses that keep the protocol, and nothing follows a wait that
    failed; closed under the constructs the operations are made of;
  * `DriverOperation` -- the operations, `DriverOperation.call_spec` what one of them does;
  * `writeProtocol_iff` -- a run of operations keeps the protocol exactly when, at each operation
    of the three, the input buffer is seen empty before the second byte, or that byte is not sent.
-/
import MapleKernel.Lib.Run
import MapleKernel.Drivers.Ps2Commands

namespace MapleKernel.Drivers

open Program Runs

/-! ## 1. The other operations -/

def writeNextByteToControllerOutputPort : UInt8 := 0xD1
def writeNextByteToFirstPs2OutputBuffer : UInt8 := 0xD2
def writeNextByteToSecondPs2OutputBuffer : UInt8 := 0xD3

/-- The wait before the data is the one for a response. -/
def ps2SetControllerOutputPort (outputPort : UInt8) : Controller Ps2Error := do
  let err ← sendCommandNoneResponse writeNextByteToControllerOutputPort
  if err ≠ .none then return err
  let err ← waitTillReadyForResponse
  if err ≠ .none then return err
  outb .data outputPort
  return .none

/-- The two functions that follow; there is no wait before the data. -/
def fakePs2Byte (command byte : UInt8) : Controller Ps2Error := do
  let err ← sendCommandNoneResponse command
  if err ≠ .none then return err
  outb .data byte
  return .none

def fakePs2KeyboardByte (byte : UInt8) : Controller Ps2Error :=
  fakePs2Byte writeNextByteToFirstPs2OutputBuffer byte

def fakePs2MouseByte (byte : UInt8) : Controller Ps2Error :=
  fakePs2Byte writeNextByteToSecondPs2OutputBuffer byte

/-! ## 2. The protocol -/

/-- A status with the input buffer empty was read, and nothing was written since. -/
def Preceded (l : List PortEvent) : Prop :=
  ∃ l₁ status l₂, l = l₁ ++ PortEvent.status status :: l₂ ∧
    isPs2ControllerReadyForMoreInput status = true ∧ ∀ w, .write w ∉ l₂

/-- **The write protocol**: every write is preceded, since the one before it, by such a read. -/
def WriteProtocol (log : List PortEvent) : Prop :=
  ∀ l₁ w l₂, log = l₁ ++ PortEvent.write w :: l₂ → Preceded l₁

theorem Preceded.append_left {l : List PortEvent} (h : Preceded l) (l' : List PortEvent) :
    Preceded (l' ++ l) := by
  obtain ⟨l₁, status, l₂, rfl, hready, hno⟩ := h
  exact ⟨l' ++ l₁, status, l₂, (List.append_assoc _ _ _).symm, hready, hno⟩

theorem writeProtocol_append {l l' : List PortEvent} (h : WriteProtocol l)
    (h' : WriteProtocol l') : WriteProtocol (l ++ l') := by
  intro l₁ w l₂ heq
  rcases List.append_eq_append_iff.mp heq with ⟨m, hm, hm'⟩ | ⟨m, hm, hm'⟩
  · -- the write is in the second part
    rw [hm]
    exact (h' m w l₂ hm').append_left l
  · -- the write is in the first part, or the first of the second
    cases m with
    | nil =>
        rw [List.append_nil] at hm
        have hp := h' [] w l₂ hm'.symm
        rw [← hm, ← List.append_nil l]
        exact hp.append_left l
    | cons x m =>
        rw [List.cons_append] at hm'
        obtain ⟨rfl, -⟩ := List.cons.inj hm'
        exact h l₁ w m hm

theorem writeProtocol_of_no_write {l : List PortEvent} (h : ∀ w, .write w ∉ l) :
    WriteProtocol l := by
  intro l₁ w l₂ h
  obtain rfl := h
  exact absurd (List.mem_append_right _ (List.mem_cons_self ..)) (h w)

theorem writeProtocol_concat {l : List PortEvent} {w : PortWrite} (h : WriteProtocol l)
    (hp : Preceded l) : WriteProtocol (l ++ [PortEvent.write w]) := by
  intro l₁ w' l₂ heq
  rcases List.append_eq_append_iff.mp heq with ⟨m, hm, hm'⟩ | ⟨m, hm, hm'⟩
  · cases m with
    | nil =>
        rw [hm, List.append_nil]
        exact hp
    | cons x m =>
        rw [List.cons_append] at hm'
        obtain ⟨-, hnil⟩ := List.cons.inj hm'
        exact absurd hnil.symm (by simp)
  · cases m with
    | nil =>
        rw [List.append_nil] at hm
        exact hm ▸ hp
    | cons x m =>
        rw [List.cons_append] at hm'
        obtain ⟨rfl, -⟩ := List.cons.inj hm'
        exact h l₁ w' m hm

/-- The errors that a wait returns. -/
def Ps2Error.IsWait (err : Ps2Error) : Prop :=
  err = .waitMaxIttIn ∨ err = .waitMaxIttOut ∨ err = .statusParity ∨ err = .statusTimeout

instance : DecidablePred Ps2Error.IsWait := fun err =>
  inferInstanceAs (Decidable (err = .waitMaxIttIn ∨ err = .waitMaxIttOut ∨ err = .statusParity ∨
    err = .statusTimeout))

theorem not_isWait_none : ¬ Ps2Error.none.IsWait := by decide

/-- The accesses `l` end with the reads of the wait that failed with `err`. -/
def EndsInFailedWait (err : Ps2Error) (l : List PortEvent) : Prop :=
  ∃ l₁ seen, l = l₁ ++ seen.map PortEvent.status ∧ FailedWait err seen

/-- If a wait made the operation return the error, nothing follows that wait. -/
def Quiet (ret : Option Ps2Error) (l : List PortEvent) : Prop :=
  ∀ err, ret = some err → err.IsWait → EndsInFailedWait err l

theorem Quiet.append_left {ret : Option Ps2Error} {l : List PortEvent} (h : Quiet ret l)
    (l' : List PortEvent) : Quiet ret (l' ++ l) := by
  intro err hret hwait
  obtain ⟨l₁, seen, rfl, hf⟩ := h err hret hwait
  exact ⟨l' ++ l₁, seen, (List.append_assoc _ _ _).symm, hf⟩

theorem quiet_of_not_isWait {err : Ps2Error} (h : ¬ err.IsWait) (l : List PortEvent) :
    Quiet (some err) l := by
  intro err' heq hwait
  cases heq
  exact absurd hwait h

/-- Of the statuses seen by a wait that succeeds the last one is ready. -/
theorem preceded_seenFrom {answers : Nat → UInt8} {n k : Nat}
    (h : isPs2ControllerReadyForMoreInput (answers (n + k)) = true) :
    Preceded ((seenFrom answers n (k + 1)).map PortEvent.status) := by
  rw [seenFrom_succ, List.map_append]
  exact ⟨_, _, [], rfl, h, fun w => List.not_mem_nil⟩

theorem no_write_status (seen : List UInt8) (w : PortWrite) :
    .write w ∉ seen.map PortEvent.status := by
  intro h
  obtain ⟨s, -, hs⟩ := List.mem_map.mp h
  cases hs

/-! ## 3. Programs that keep the protocol -/

/-- **The accesses of the program keep the protocol by themselves**, also if it halts, and an error
`errOf r` of a wait is returned at once. -/
def Operates {α : Type} (errOf : α → Option Ps2Error) (p : Controller α) : Prop :=
  ∀ e io, wp p e io
    (fun r io' => ∃ l, io'.log = io.log ++ l ∧ WriteProtocol l ∧ Quiet (errOf r) l)
    (fun _ io' => ∃ l, io'.log = io.log ++ l ∧ WriteProtocol l)

section Operates

variable {α β : Type} {errOf : α → Option Ps2Error}

theorem operates_pure {a : α} (h : ∀ err, errOf a = some err → ¬ err.IsWait) :
    Operates errOf (pure a) := by
  intro e io
  refine ⟨[], (List.append_nil _).symm, writeProtocol_of_no_write fun w => List.not_mem_nil, ?_⟩
  exact fun err hret hwait => absurd hwait (h err hret)

/-- A return of an error that is not one of a wait. -/
theorem operates_return {a : α} {err : Ps2Error} (ha : errOf a = some err) (h : ¬ err.IsWait) :
    Operates errOf (pure a) := by
  refine operates_pure fun err' h' => ?_
  rw [ha] at h'
  cases h'
  exact h

/-- The early exit returns the error it was given. -/
theorem exits_with {x : Ps2Error → α} (h : ∀ b, errOf (x b) = some b) (b err : Ps2Error)
    (hret : errOf (x b) = some err) : err = b ∨ ¬ err.IsWait := by
  rw [h] at hret
  exact .inl (Option.some.inj hret).symm

theorem operates_halt {h : Ps2Halt} : Operates errOf (Prog.halt h : Controller α) :=
  fun _ _ => ⟨[], (List.append_nil _).symm, writeProtocol_of_no_write fun _ => List.not_mem_nil⟩

theorem operates_bind {p : Controller β} {errOf' : β → Option Ps2Error} (hp : Operates errOf' p)
    {f : β → Controller α} (hf : ∀ b, Operates errOf (f b)) : Operates errOf (p >>= f) := by
  intro e io
  rw [wp_bind]
  refine wp_mono (hp e io) ?_ fun _ _ h => h
  intro b io₁ h
  obtain ⟨l, hl, hpl, -⟩ := h
  refine wp_mono (hf b e io₁) ?_ ?_
  · intro a io₂ h
    obtain ⟨l', hl', hpl', hq⟩ := h
    exact ⟨l ++ l', by rw [hl', hl, List.append_assoc], writeProtocol_append hpl hpl',
      hq.append_left l⟩
  · intro h io₂ h'
    obtain ⟨l', hl', hpl'⟩ := h'
    exact ⟨l ++ l', by rw [hl', hl, List.append_assoc], writeProtocol_append hpl hpl'⟩

theorem operates_ite {c : Prop} [Decidable c] {p q : Controller α} (hp : c → Operates errOf p)
    (hq : ¬ c → Operates errOf q) : Operates errOf (if c then p else q) := by
  split
  · next h => exact hp h
  · next h => exact hq h

/-- **The early exit**: the error of `p` is returned, or no error of a wait is. -/
theorem operates_check {p : Controller Ps2Error} (hp : Operates some p) {x : Ps2Error → α}
    {q : Controller α} (hx : ∀ b err, errOf (x b) = some err → err = b ∨ ¬ err.IsWait)
    (hq : Operates errOf q) :
    Operates errOf (do let err ← p; if err ≠ .none then return x err else q) := by
  intro e io
  rw [wp_bind]
  refine wp_mono (hp e io) ?_ fun _ _ h => h
  intro b io₁ h
  obtain ⟨l, hl, hpl, hquiet⟩ := h
  rw [wp_ite]
  split
  · refine ⟨l, hl, hpl, fun err hret hwait => ?_⟩
    obtain rfl := (hx b err hret).resolve_right (not_not.mpr hwait)
    exact hquiet _ rfl hwait
  · refine wp_mono (hq e io₁) ?_ ?_
    · intro a io₂ h
      obtain ⟨l', hl', hpl', hq⟩ := h
      exact ⟨l ++ l', by rw [hl', hl, List.append_assoc], writeProtocol_append hpl hpl',
        hq.append_left l⟩
    · intro h io₂ h'
      obtain ⟨l', hl', hpl'⟩ := h'
      exact ⟨l ++ l', by rw [hl', hl, List.append_assoc], writeProtocol_append hpl hpl'⟩

theorem operates_waitTillReadyForResponse : Operates some waitTillReadyForResponse := by
  intro e io
  rcases waitTillReadyForResponse_cases e io with ⟨k, -, hwait⟩ | ⟨⟨-, hf⟩, hwait⟩
  · rw [wp_of_ok hwait]
    exact ⟨_, rfl, writeProtocol_of_no_write (no_write_status _), quiet_of_not_isWait (by decide) _⟩
  · rw [wp_of_ok hwait]
    refine ⟨_, rfl, writeProtocol_of_no_write (no_write_status _), fun err' heq _ => ?_⟩
    cases heq
    exact ⟨[], _, (List.nil_append _).symm, hf⟩

theorem operates_ps2RecieveRawResponse : Operates (fun _ => none) ps2RecieveRawResponse := by
  intro e io
  rw [wp_ps2RecieveRawResponse]
  refine ⟨[.response (e.answers io.reads)], rfl, writeProtocol_of_no_write ?_, ?_⟩
  · intro w hw
    cases List.mem_singleton.mp hw
  · intro err hret
    cases hret

/-- **A byte after its wait.** `write` may note for which device the byte is. -/
theorem operates_send {x : Ps2Error → α} {write : Controller Unit} {q : Controller α}
    {w : PortWrite} (hwrite : ∀ e io, ∃ io', write e io = (.ok (), io') ∧
      io'.log = io.log ++ [PortEvent.write w])
    (hx : ∀ b err, errOf (x b) = some err → err = b ∨ ¬ err.IsWait) (hq : Operates errOf q) :
    Operates errOf (do
      let err ← waitTillReadyForMoreInput
      if err ≠ .none then return x err else do
        write
        q) := by
  intro e io
  rw [wp_bind]
  rcases waitTillReadyForMoreInput_cases e io with ⟨k, hk, hwait⟩ | ⟨-, err, n, herr, hf, hwait⟩
  · rw [wp_of_ok hwait, if_neg (by simp), wp_bind]
    obtain ⟨io₁, hrun, hlog⟩ := hwrite e (io.afterStatus e.answers (k + 1))
    rw [wp_of_ok hrun]
    have hl : io₁.log = io.log ++
        ((seenFrom e.answers io.reads (k + 1)).map PortEvent.status ++ [PortEvent.write w]) := by
      rw [hlog, ← List.append_assoc]
      rfl
    have hpl : WriteProtocol
        ((seenFrom e.answers io.reads (k + 1)).map PortEvent.status ++ [PortEvent.write w]) :=
      writeProtocol_concat (writeProtocol_of_no_write (no_write_status _))
        (preceded_seenFrom hk.first.ready)
    refine wp_mono (hq e io₁) ?_ ?_
    · intro a io₂ h
      obtain ⟨l', hl', hpl', hq⟩ := h
      exact ⟨_, by rw [hl', hl, List.append_assoc], writeProtocol_append hpl hpl',
        hq.append_left _⟩
    · intro h io₂ h'
      obtain ⟨l', hl', hpl'⟩ := h'
      exact ⟨_, by rw [hl', hl, List.append_assoc], writeProtocol_append hpl hpl'⟩
  · rw [wp_of_ok hwait, if_pos herr]
    refine ⟨_, rfl, writeProtocol_of_no_write (no_write_status _), fun err' hret hwait' => ?_⟩
    obtain rfl := (hx err err' hret).resolve_right (not_not.mpr hwait')
    exact ⟨[], _, (List.nil_append _).symm, hf⟩

theorem operates_assert {c : Bool} {h : Ps2Halt} :
    Operates (fun _ => none) (Prog.assert c h : Controller Unit) := by
  cases c with
  | true => exact operates_pure fun err hret => by cases hret
  | false => exact operates_halt

/-- The error is what an operation is asked for. -/
theorem operates_map {p : Controller α} (hp : Operates errOf p) :
    Operates id (do let r ← p; return errOf r) := by
  intro e io
  rw [wp_bind]
  exact wp_mono (hp e io) (fun _ _ h => h) fun _ _ h => h

end Operates

/-! ## 4. The operations -/

theorem operates_sendCommandByte (command : UInt8) : Operates some (sendCommandByte command) :=
  operates_send (x := id) (fun _ _ => ⟨_, rfl, rfl⟩) (exits_with fun _ => rfl)
    (operates_return rfl not_isWait_none)

theorem operates_sendCommandResponse {ret : UInt8 → CommandResponse} (command : UInt8)
    (hret : ∀ raw err, (ret raw).err = some err → ¬ err.IsWait) :
    Operates CommandResponse.err (sendCommandResponse ret command) := by
  refine operates_check (operates_sendCommandByte command)
    (exits_with fun _ => rfl) ?_
  refine operates_check operates_waitTillReadyForResponse
    (exits_with fun _ => rfl) ?_
  exact operates_bind operates_ps2RecieveRawResponse fun raw => operates_pure (hret raw)

theorem not_isWait_ps2VerifyConfigurationByteResponse (raw : UInt8) :
    ¬ (ps2VerifyConfigurationByteResponse raw).IsWait := by
  unfold ps2VerifyConfigurationByteResponse
  dsimp only
  split
  · decide
  · split <;> decide

theorem not_isWait_ps2VerifyTestPortResponse (raw : UInt8) :
    ¬ (ps2VerifyTestPortResponse raw).IsWait := by
  unfold ps2VerifyTestPortResponse
  split <;> decide

theorem not_isWait_ps2VerifyTestControllerResponse (raw : UInt8) :
    ¬ (ps2VerifyTestControllerResponse raw).IsWait := by
  unfold ps2VerifyTestControllerResponse
  split <;> decide

theorem not_isWait_ps2VerifyControllerOutputPortResponse (raw : UInt8) :
    ¬ (ps2VerifyControllerOutputPortResponse raw).IsWait := by
  unfold ps2VerifyControllerOutputPortResponse
  split <;> decide

theorem operates_call (f : VerifiedFunction) (command : UInt8) :
    Operates CommandResponse.err (f.call command) := by
  rw [f.call_eq]
  refine operates_sendCommandResponse command fun raw err h => ?_
  cases f with
  | unknown => cases h
  | configurationByte => cases h; exact not_isWait_ps2VerifyConfigurationByteResponse raw
  | testPort => cases h; exact not_isWait_ps2VerifyTestPortResponse raw
  | testController => cases h; exact not_isWait_ps2VerifyTestControllerResponse raw
  | testControllerOutputPort =>
      cases h; exact not_isWait_ps2VerifyControllerOutputPortResponse raw

/-- The error of a generic return. -/
def TypelessReturn.someErr (r : TypelessReturn) : Option Ps2Error := some r.err

theorem operates_recieveGenericVerifiedResponse (responseType : ResponseType) :
    Operates TypelessReturn.someErr (recieveGenericVerifiedResponse responseType) := by
  refine operates_bind operates_assert fun _ => operates_bind operates_assert fun _ => ?_
  refine operates_bind operates_ps2RecieveRawResponse fun raw => ?_
  cases responseType with
  | notACommand => exact operates_halt
  | none => exact operates_halt
  | unknown => exact operates_return rfl not_isWait_none
  | controllerConfigurationByte =>
      exact operates_return rfl (not_isWait_ps2VerifyConfigurationByteResponse raw)
  | testPort =>
      exact operates_return rfl (not_isWait_ps2VerifyTestPortResponse raw)
  | testController =>
      exact operates_return rfl (not_isWait_ps2VerifyTestControllerResponse raw)
  | controllerOutputPort =>
      exact operates_return rfl (not_isWait_ps2VerifyControllerOutputPortResponse raw)

theorem operates_sendCommandAndRecieveResponse (command : UInt8) :
    Operates TypelessReturn.someErr (sendCommandAndRecieveResponse command) := by
  refine operates_bind operates_assert fun _ => ?_
  refine operates_check (operates_sendCommandByte command)
    (exits_with fun _ => rfl) ?_
  refine operates_ite (fun _ => operates_return rfl not_isWait_none) fun _ => ?_
  refine operates_check operates_waitTillReadyForResponse
    (exits_with fun _ => rfl) ?_
  exact operates_recieveGenericVerifiedResponse _

theorem operates_ps2SetConfigurationByte (config : ConfigurationByte) :
    Operates some (ps2SetConfigurationByte config) := by
  refine operates_check (x := id) (operates_sendCommandByte _)
    (exits_with fun _ => rfl) ?_
  exact operates_send (x := id) (fun _ _ => ⟨_, rfl, rfl⟩)
    (exits_with fun _ => rfl) (operates_return rfl not_isWait_none)

theorem operates_sendCommandToFirstPs2Port (data : UInt8) :
    Operates some (sendCommandToFirstPs2Port data) :=
  operates_send (x := id) (fun _ _ => ⟨_, rfl, rfl⟩) (exits_with fun _ => rfl)
    (operates_return rfl not_isWait_none)

theorem operates_sendCommandToSecondPs2Port (data : UInt8) :
    Operates some (sendCommandToSecondPs2Port data) := by
  refine operates_send (x := id) (fun _ _ => ⟨_, rfl, rfl⟩)
    (exits_with fun _ => rfl) ?_
  exact operates_send (x := id) (fun _ _ => ⟨_, rfl, rfl⟩)
    (exits_with fun _ => rfl) (operates_return rfl not_isWait_none)

theorem operates_sendCommandOrDataToPs2Port (portNumber data : UInt8) :
    Operates some (sendCommandOrDataToPs2Port portNumber data) :=
  operates_ite (fun _ => operates_sendCommandToFirstPs2Port data) fun _ =>
    operates_ite (fun _ => operates_sendCommandToSecondPs2Port data) fun _ =>
      operates_return rfl (by decide)

/-- The error of an identification. -/
def DeviceTypeVerified.someErr (d : DeviceTypeVerified) : Option Ps2Error := some d.err

theorem not_isWait_len3Device (rep3 : UInt8) : ¬ (len3Device rep3).err.IsWait := by
  unfold len3Device
  split <;> simp [Ps2Error.IsWait]

theorem not_isWait_len4Device (rep4 : UInt8) : ¬ (len4Device rep4).err.IsWait := by
  unfold len4Device
  split <;> simp [Ps2Error.IsWait]

/-- A wait for the third reply that fails is no error of the identification. -/
theorem operates_resetPortAndGetDeviceType (portNumber : UInt8) :
    Operates DeviceTypeVerified.someErr (resetPortAndGetDeviceType portNumber) := by
  have hwait : ∀ {q : Controller DeviceTypeVerified}, Operates DeviceTypeVerified.someErr q →
      Operates DeviceTypeVerified.someErr (do
        let err ← waitTillReadyForResponse
        if err ≠ .none then return .failed err else q) := fun hq =>
    operates_check operates_waitTillReadyForResponse
      (exits_with fun _ => rfl) hq
  refine operates_check (operates_sendCommandOrDataToPs2Port _ _)
    (exits_with fun _ => rfl) (hwait ?_)
  refine operates_bind operates_ps2RecieveRawResponse fun rep1 => ?_
  refine operates_ite (fun _ => operates_return rfl (by decide)) fun _ => hwait ?_
  refine operates_bind operates_ps2RecieveRawResponse fun rep2 => ?_
  refine operates_ite (fun _ => operates_return rfl (by decide)) fun _ => ?_
  refine operates_check operates_waitTillReadyForResponse
    (fun _ _ h => .inr (Option.some.inj h ▸ not_isWait_none)) ?_
  refine operates_bind operates_ps2RecieveRawResponse fun rep3 => ?_
  refine operates_ite
    (fun _ => operates_return rfl (not_isWait_len3Device rep3))
    fun _ => hwait ?_
  exact operates_bind operates_ps2RecieveRawResponse fun rep4 =>
    operates_return rfl (not_isWait_len4Device rep4)

/-! ## 5. The three operations without their wait -/

/-- After a write only the statuses read since count. -/
theorem preceded_after_write {l : List PortEvent} {w : PortWrite} {seen : List UInt8} :
    Preceded (l ++ PortEvent.write w :: seen.map PortEvent.status) ↔
      ∃ s ∈ seen, isPs2ControllerReadyForMoreInput s = true := by
  constructor
  · intro h
    obtain ⟨l₁, status, l₂, heq, hready, hno⟩ := h
    rcases List.append_eq_append_iff.mp heq with ⟨m, -, hm⟩ | ⟨m, -, hm⟩
    · cases m with
      | nil => cases hm
      | cons x m =>
          obtain ⟨-, hseen⟩ := List.cons.inj hm
          have hmem : .status status ∈ seen.map PortEvent.status := by
            rw [hseen]
            exact List.mem_append_right _ (List.mem_cons_self ..)
          obtain ⟨s, hs, hstatus⟩ := List.mem_map.mp hmem
          cases hstatus
          exact ⟨status, hs, hready⟩
    · cases m with
      | nil => cases hm
      | cons x m =>
          obtain ⟨-, hl₂⟩ := List.cons.inj hm
          refine absurd ?_ (hno w)
          rw [hl₂]
          exact List.mem_append_right _ (List.mem_cons_self ..)
  · intro h
    obtain ⟨s, hs, hready⟩ := h
    obtain ⟨t, t', rfl⟩ := List.append_of_mem hs
    refine ⟨l ++ PortEvent.write w :: t.map PortEvent.status, s, t'.map PortEvent.status, ?_,
      hready, no_write_status t'⟩
    simp only [List.map_append, List.map_cons, List.append_assoc, List.cons_append]

/-- What an operation leaves if the condition `c` decides on the protocol. -/
def Leaves (c : Prop) (io : Ps2Io) (ret : Option Ps2Error) (io' : Ps2Io) : Prop :=
  ∃ l, io'.log = io.log ++ l ∧ Quiet ret l ∧ (c → WriteProtocol l) ∧
    (¬ c → ∀ log, ¬ WriteProtocol (log ++ l))

theorem leaves_status {c : Prop} {io : Ps2Io} {answers : Nat → UInt8} {n : Nat} {err : Ps2Error}
    (hc : c) (hf : FailedWait err (seenFrom answers io.reads n)) :
    Leaves c io (some err) (io.afterStatus answers n) := by
  refine ⟨_, rfl, fun err' heq _ => ?_, fun _ => writeProtocol_of_no_write (no_write_status _),
    fun hn => absurd hc hn⟩
  cases heq
  exact ⟨[], _, (List.nil_append _).symm, hf⟩

theorem log_afterCommand (io : Ps2Io) (answers : Nat → UInt8) (k : Nat) (command : UInt8) :
    (io.afterCommand answers k command).log = io.log ++
      ((seenFrom answers io.reads (k + 1)).map PortEvent.status ++
        [PortEvent.write ⟨.command, command⟩]) := by
  simp only [Ps2Io.afterCommand, Ps2Io.afterStatus, Ps2Io.afterWrite, List.append_assoc]

theorem writeProtocol_command {answers : Nat → UInt8} {n k : Nat} (hk : TakesInput answers n k)
    (w : PortWrite) :
    WriteProtocol ((seenFrom answers n (k + 1)).map PortEvent.status ++ [PortEvent.write w]) :=
  writeProtocol_concat (writeProtocol_of_no_write (no_write_status _))
    (preceded_seenFrom hk.first.ready)

/-- **The data of a fake byte always breaks the protocol**: it is sent when the command was. -/
theorem fakePs2Byte_leaves (command byte : UInt8) (e : Ps2Env) (io : Ps2Io) :
    ∃ err io', fakePs2Byte command byte e io = (.ok err, io') ∧
      Leaves (∀ k, ¬ TakesInput e.answers io.reads k) io (some err) io' := by
  rcases sendCommandByte_cases command e io with ⟨k, hk, hsend⟩ | ⟨hnone, err, n, herr, hf, hsend⟩
  · refine ⟨.none, (io.afterCommand e.answers k command).afterWrite .data byte, ?_,
      (seenFrom e.answers io.reads (k + 1)).map PortEvent.status ++
        PortEvent.write ⟨.command, command⟩ :: [].map PortEvent.status ++
        [PortEvent.write ⟨.data, byte⟩], ?_, quiet_of_not_isWait not_isWait_none _,
      fun h => absurd hk (h k), fun _ log hlog => ?_⟩
    · rw [fakePs2Byte, sendCommandNoneResponse, bind_of_ok hsend]
      rfl
    · show (io.afterCommand e.answers k command).log ++ _ = _
      rw [log_afterCommand, List.append_assoc]
      rfl
    · rw [← List.append_assoc] at hlog
      have hp := hlog _ _ [] rfl
      rw [← List.append_assoc, preceded_after_write] at hp
      obtain ⟨s, hs, -⟩ := hp
      exact absurd hs List.not_mem_nil
  · refine ⟨err, _, ?_, leaves_status hnone hf⟩
    rw [fakePs2Byte, sendCommandNoneResponse, bind_of_ok hsend, if_pos herr]
    rfl

/-- The input buffer is seen empty while `ps2_set_controller_output_port` waits for a response
that comes. -/
def SeenEmpty (answers : Nat → UInt8) (n : Nat) : Prop :=
  ∀ k j, TakesInput answers n k →
    FirstReady isPs2ControllerReadyForResponse answers (n + k + 1) j →
    ∃ i ≤ j, isPs2ControllerReadyForMoreInput (answers (n + k + 1 + i)) = true

theorem seenEmpty_iff {answers : Nat → UInt8} {n k j : Nat} (hk : TakesInput answers n k)
    (hj : FirstReady isPs2ControllerReadyForResponse answers (n + k + 1) j) :
    SeenEmpty answers n ↔ ∃ s ∈ seenFrom answers (n + k + 1) (j + 1),
      isPs2ControllerReadyForMoreInput s = true := by
  constructor
  · intro h
    obtain ⟨i, hi, hready⟩ := h k j hk hj
    exact ⟨_, mem_seenFrom.mpr ⟨i, Nat.lt_succ_of_le hi, rfl⟩, hready⟩
  · intro h k' j' hk' hj'
    obtain ⟨s, hs, hready⟩ := h
    obtain rfl := hk'.first.unique hk.first
    obtain rfl := hj'.unique hj
    obtain ⟨i, hi, rfl⟩ := mem_seenFrom.mp hs
    exact ⟨i, Nat.le_of_lt_succ hi, hready⟩

/-- Where a response comes, the second byte is sent, and the status reads before it decide. -/
theorem ps2SetControllerOutputPort_response {outputPort : UInt8} {e : Ps2Env} {io : Ps2Io}
    {k j : Nat} (hk : TakesInput e.answers io.reads k)
    (hj : FirstReady isPs2ControllerReadyForResponse e.answers (io.reads + k + 1) j)
    (hsend : sendCommandByte writeNextByteToControllerOutputPort e io =
      (.ok .none, io.afterCommand e.answers k writeNextByteToControllerOutputPort))
    (hwait : waitTillReadyForResponse e
        (io.afterCommand e.answers k writeNextByteToControllerOutputPort) =
      (.ok .none, (io.afterCommand e.answers k writeNextByteToControllerOutputPort).afterStatus
        e.answers (j + 1))) :
    ∃ err io', ps2SetControllerOutputPort outputPort e io = (.ok err, io') ∧
      Leaves (SeenEmpty e.answers io.reads) io (some err) io' := by
  have hpl := writeProtocol_command hk ⟨.command, writeNextByteToControllerOutputPort⟩
  have hiff := seenEmpty_iff hk hj
  refine ⟨.none, ((io.afterCommand e.answers k writeNextByteToControllerOutputPort).afterStatus
      e.answers (j + 1)).afterWrite .data outputPort, ?_,
      (seenFrom e.answers io.reads (k + 1)).map PortEvent.status ++
      .write ⟨.command, writeNextByteToControllerOutputPort⟩ ::
        (seenFrom e.answers (io.reads + k + 1) (j + 1)).map PortEvent.status ++
          [PortEvent.write ⟨.data, outputPort⟩], ?_, quiet_of_not_isWait not_isWait_none _,
    fun h => ?_, fun h log hlog => ?_⟩
  · rw [ps2SetControllerOutputPort, sendCommandNoneResponse, bind_of_ok hsend,
      if_neg (by simp), bind_of_ok hwait]
    rfl
  · show ((io.afterCommand e.answers k _).log ++ _) ++ _ = _
    rw [log_afterCommand, Ps2Io.reads_afterCommand]
    simp only [List.append_assoc, List.cons_append, List.nil_append]
  · rw [hiff, ← preceded_after_write] at h
    refine writeProtocol_concat ?_ h
    rw [List.append_cons]
    exact writeProtocol_append hpl (writeProtocol_of_no_write (no_write_status _))
  · rw [← List.append_assoc] at hlog
    have hp := hlog _ _ [] rfl
    rw [← List.append_assoc, preceded_after_write, ← hiff] at hp
    exact h hp

/-- Where none comes, the second byte is not sent. -/
theorem ps2SetControllerOutputPort_noResponse {outputPort : UInt8} {e : Ps2Env} {io : Ps2Io}
    {k : Nat} (hk : TakesInput e.answers io.reads k)
    (hnone : ∀ j, ¬ FirstReady isPs2ControllerReadyForResponse e.answers (io.reads + k + 1) j)
    (hf : FailedWait .waitMaxIttOut (seenFrom e.answers (io.reads + k + 1) maxPs2WaitLoop))
    (hsend : sendCommandByte writeNextByteToControllerOutputPort e io =
      (.ok .none, io.afterCommand e.answers k writeNextByteToControllerOutputPort))
    (hwait : waitTillReadyForResponse e
        (io.afterCommand e.answers k writeNextByteToControllerOutputPort) =
      (.ok .waitMaxIttOut, (io.afterCommand e.answers k
        writeNextByteToControllerOutputPort).afterStatus e.answers maxPs2WaitLoop)) :
    ∃ err io', ps2SetControllerOutputPort outputPort e io = (.ok err, io') ∧
      Leaves (SeenEmpty e.answers io.reads) io (some err) io' := by
  have hpl := writeProtocol_command hk ⟨.command, writeNextByteToControllerOutputPort⟩
  have hc : SeenEmpty e.answers io.reads := by
    intro k' j hk' hj
    rw [hk'.first.unique hk.first] at hj
    exact absurd hj (hnone j)
  refine ⟨.waitMaxIttOut, (io.afterCommand e.answers k
      writeNextByteToControllerOutputPort).afterStatus e.answers maxPs2WaitLoop, ?_,
      (seenFrom e.answers io.reads (k + 1)).map PortEvent.status ++
      [PortEvent.write ⟨.command, writeNextByteToControllerOutputPort⟩] ++
        (seenFrom e.answers (io.reads + k + 1) maxPs2WaitLoop).map PortEvent.status, ?_,
    fun err heq _ => ?_, fun _ => ?_, fun h => absurd hc h⟩
  · rw [ps2SetControllerOutputPort, sendCommandNoneResponse, bind_of_ok hsend,
      if_neg (by simp), bind_of_ok hwait]
    rfl
  · show (io.afterCommand e.answers k _).log ++ _ = _
    rw [log_afterCommand, List.append_assoc]
    rfl
  · cases heq
    exact ⟨_, _, rfl, hf⟩
  · exact writeProtocol_append hpl (writeProtocol_of_no_write (no_write_status _))

/-- **The data of the output port keeps the protocol exactly when the wait for a response has seen
the input buffer empty.** -/
theorem ps2SetControllerOutputPort_leaves (outputPort : UInt8) (e : Ps2Env) (io : Ps2Io) :
    ∃ err io', ps2SetControllerOutputPort outputPort e io = (.ok err, io') ∧
      Leaves (SeenEmpty e.answers io.reads) io (some err) io' := by
  rcases sendCommandByte_cases writeNextByteToControllerOutputPort e io with
    ⟨k, hk, hsend⟩ | ⟨hnone, err, n, herr, hf, hsend⟩
  · rcases waitTillReadyForResponse_cases e
        (io.afterCommand e.answers k writeNextByteToControllerOutputPort) with
      ⟨j, hj, hwait⟩ | ⟨⟨hnone, hf⟩, hwait⟩
    · exact ps2SetControllerOutputPort_response hk hj hsend hwait
    · exact ps2SetControllerOutputPort_noResponse hk hnone hf hsend hwait
  · refine ⟨err, _, ?_, leaves_status (fun k j hk => absurd hk (hnone k)) hf⟩
    rw [ps2SetControllerOutputPort, sendCommandNoneResponse, bind_of_ok hsend, if_pos herr]
    rfl

/-! ## 6. Runs of operations -/

/-- The driver's operations with their arguments. -/
inductive DriverOperation where
  | noneResponse (command : UInt8)
  | verifiedResponse (f : VerifiedFunction) (command : UInt8)
  | andRecieveResponse (command : UInt8)
  | setConfigurationByte (config : ConfigurationByte)
  | setControllerOutputPort (outputPort : UInt8)
  | fakeKeyboardByte (byte : UInt8)
  | fakeMouseByte (byte : UInt8)
  | toFirstPort (data : UInt8)
  | toSecondPort (data : UInt8)
  | commandOrDataToPort (portNumber data : UInt8)
  | resetPort (portNumber : UInt8)

/-- The call, asked for its error; `none` is an error that was never assigned. -/
def DriverOperation.call : DriverOperation → Controller (Option Ps2Error)
  | .noneResponse command => do return some (← sendCommandNoneResponse command)
  | .verifiedResponse f command => do return (← f.call command).err
  | .andRecieveResponse command => do return (← sendCommandAndRecieveResponse command).someErr
  | .setConfigurationByte config => do return some (← ps2SetConfigurationByte config)
  | .setControllerOutputPort outputPort => do return some (← ps2SetControllerOutputPort outputPort)
  | .fakeKeyboardByte byte => do return some (← fakePs2KeyboardByte byte)
  | .fakeMouseByte byte => do return some (← fakePs2MouseByte byte)
  | .toFirstPort data => do return some (← sendCommandToFirstPs2Port data)
  | .toSecondPort data => do return some (← sendCommandToSecondPs2Port data)
  | .commandOrDataToPort portNumber data => do
      return some (← sendCommandOrDataToPs2Port portNumber data)
  | .resetPort portNumber => do return (← resetPortAndGetDeviceType portNumber).someErr

/-- The condition on the answers from the `n`-th on under which the operation keeps the protocol:
for a fake byte that the controller does not take its command, so that no byte is sent. -/
def DriverOperation.Ok : DriverOperation → (Nat → UInt8) → Nat → Prop
  | .setControllerOutputPort _, answers, n => SeenEmpty answers n
  | .fakeKeyboardByte _, answers, n => ∀ k, ¬ TakesInput answers n k
  | .fakeMouseByte _, answers, n => ∀ k, ¬ TakesInput answers n k
  | _, _, _ => True

theorem wp_of_leaves {p : Controller Ps2Error} {c : Prop} {e : Ps2Env} {io : Ps2Io}
    {E : Ps2Halt → Ps2Io → Prop}
    (h : ∃ err io', p e io = (.ok err, io') ∧ Leaves c io (some err) io') :
    wp (do return some (← p)) e io (Leaves c io) E := by
  obtain ⟨err, io', hrun, hleaves⟩ := h
  rw [wp_bind, wp_of_ok hrun]
  exact hleaves

theorem wp_of_operates {p : Controller (Option Ps2Error)} (h : Operates id p) (e : Ps2Env)
    (io : Ps2Io) :
    wp p e io (Leaves True io) (fun _ io' => Leaves True io none io') := by
  refine wp_mono (h e io) ?_ ?_
  · intro ret io' h
    obtain ⟨l, hl, hpl, hq⟩ := h
    exact ⟨l, hl, hq, fun _ => hpl, fun hn => absurd trivial hn⟩
  · intro _ io' h
    obtain ⟨l, hl, hpl⟩ := h
    have hq : Quiet none l := by
      intro err h
      cases h
    exact ⟨l, hl, hq, fun _ => hpl, fun hn => absurd trivial hn⟩

/-- **One operation**: its accesses keep the protocol exactly under its condition, and an error of a
wait is returned at once. -/
theorem DriverOperation.call_spec (op : DriverOperation) (e : Ps2Env) (io : Ps2Io) :
    wp op.call e io (Leaves (op.Ok e.answers io.reads) io)
      (fun _ io' => Leaves (op.Ok e.answers io.reads) io none io') := by
  cases op with
  | noneResponse command =>
      exact wp_of_operates (operates_map (operates_sendCommandByte command)) e io
  | verifiedResponse f command => exact wp_of_operates (operates_map (operates_call f command)) e io
  | andRecieveResponse command =>
      exact wp_of_operates (operates_map (operates_sendCommandAndRecieveResponse command)) e io
  | setConfigurationByte config =>
      exact wp_of_operates (operates_map (operates_ps2SetConfigurationByte config)) e io
  | setControllerOutputPort outputPort =>
      exact wp_of_leaves (ps2SetControllerOutputPort_leaves outputPort e io)
  | fakeKeyboardByte byte => exact wp_of_leaves (fakePs2Byte_leaves _ byte e io)
  | fakeMouseByte byte => exact wp_of_leaves (fakePs2Byte_leaves _ byte e io)
  | toFirstPort data =>
      exact wp_of_operates (operates_map (operates_sendCommandToFirstPs2Port data)) e io
  | toSecondPort data =>
      exact wp_of_operates (operates_map (operates_sendCommandToSecondPs2Port data)) e io
  | commandOrDataToPort portNumber data =>
      exact wp_of_operates (operates_map (operates_sendCommandOrDataToPs2Port portNumber data)) e io
  | resetPort portNumber =>
      exact wp_of_operates (operates_map (operates_resetPortAndGetDeviceType portNumber)) e io

/-- The driver between two operations; after a failed assertion there is none. -/
structure DriverRun where
  io : Ps2Io
  halted : Bool

/-- Nothing was read or written yet. -/
def DriverRun.start : DriverRun := ⟨⟨0, [], [], [], []⟩, false⟩

def DriverRun.step (e : Ps2Env) (s : DriverRun) (op : DriverOperation) : DriverRun :=
  if s.halted then s else
    match op.call e s.io with
    | (.ok _, io') => ⟨io', false⟩
    | (.error _, io') => ⟨io', true⟩

/-- The protocol over all accesses since the start. -/
def DriverRun.KeepsProtocol (s : DriverRun) : Prop := WriteProtocol s.io.log

/-- If the operation returns an error, nothing was written after the wait that failed. -/
def DriverRun.ErrorsQuiet (e : Ps2Env) (s : DriverRun) (op : DriverOperation) : Prop :=
  s.halted = false → ∀ ret io', op.call e s.io = (.ok ret, io') →
    ∃ l, io'.log = s.io.log ++ l ∧ Quiet ret l

/-- The condition of the operation in the state it is called in. -/
def DriverRun.OperationOk (e : Ps2Env) (s : DriverRun) (op : DriverOperation) : Prop :=
  s.halted = false → op.Ok e.answers s.io.reads

theorem errorsQuiet (e : Ps2Env) (s : DriverRun) (op : DriverOperation) : s.ErrorsQuiet e op := by
  intro _ ret io' hcall
  obtain ⟨l, hl, hq, -⟩ := (wp_of_ok hcall).mp (op.call_spec e s.io)
  exact ⟨l, hl, hq⟩

theorem Leaves.keeps_iff {c : Prop} {io io' : Ps2Io} {ret : Option Ps2Error}
    (h : Leaves c io ret io') (h0 : WriteProtocol io.log) : WriteProtocol io'.log ↔ c := by
  obtain ⟨l, hl, -, hkeeps, hbreaks⟩ := h
  rw [hl]
  constructor
  · intro hp
    by_contra hc
    exact hbreaks hc io.log hp
  · exact fun hc => writeProtocol_append h0 (hkeeps hc)

/-- The step lemma. -/
theorem keepsProtocol_step_iff (e : Ps2Env) (s : DriverRun) (op : DriverOperation)
    (h : s.KeepsProtocol) : (s.step e op).KeepsProtocol ↔ s.OperationOk e op := by
  by_cases hs : s.halted = true
  · have hstep : s.step e op = s := if_pos hs
    rw [hstep]
    exact iff_of_true h fun hrun => absurd (hs.symm.trans hrun) (by decide)
  · have hrun : s.halted = false := by simpa using hs
    have hok : s.OperationOk e op ↔ op.Ok e.answers s.io.reads :=
      ⟨fun hok => hok hrun, fun hok _ => hok⟩
    rw [hok, DriverRun.KeepsProtocol, DriverRun.step, if_neg hs]
    have hspec := op.call_spec e s.io
    rcases hcall : op.call e s.io with ⟨_ | ret, io'⟩
    · rw [wp_of_error hcall] at hspec
      exact hspec.keeps_iff h
    · rw [wp_of_ok hcall] at hspec
      exact hspec.keeps_iff h

/-- **A run of the driver keeps the write protocol, and its errors are quiet, exactly when every
operation meets its condition.** -/
theorem writeProtocol_iff (e : Ps2Env) (ops : List DriverOperation) :
    (Along (DriverRun.step e) DriverRun.KeepsProtocol .start ops ∧
      Guarded (DriverRun.step e) (DriverRun.ErrorsQuiet e) .start ops) ↔
    Guarded (DriverRun.step e) (DriverRun.OperationOk e) .start ops := by
  have hstart : DriverRun.start.KeepsProtocol := writeProtocol_of_no_write fun w => List.not_mem_nil
  rw [and_iff_left (guarded_of_forall (errorsQuiet e) _ _)]
  exact along_iff_guarded (keepsProtocol_step_iff e) hstart

/-- A controller that takes the command with its first status: the driver writes the byte without
another look. -/
theorem not_writeProtocol_fakeKeyboardByte :
    ¬ Along (DriverRun.step (answeringEnv 0)) DriverRun.KeepsProtocol .start
      [.fakeKeyboardByte 0x1E] := by
  intro h
  have htakes : TakesInput (answeringEnv 0).answers 0 0 :=
    ⟨⟨by decide, fun i hi => absurd hi (Nat.not_lt_zero i), by decide⟩, by decide, by decide⟩
  have hok := (keepsProtocol_step_iff (answeringEnv 0) .start (.fakeKeyboardByte 0x1E) h.1).mp h.2
  exact hok rfl 0 htakes

end MapleKernel.Drivers
