/-
  File:      Drivers/Ps2Commands.lean
  Subject:   THE COMMANDS OF THE PS/2 CONTROLLER (`ps2_controller.c`) with any command byte: the
             `send_command_..._response` functions and what their result says.

  Five functions send a command, wait for the response and check it. Four assign `err` last, from
  the check; `send_command_unknown_response` assigns `response` and returns.

  * `commandToResponseType` -- the table of the response types;
  * `sendCommandByte_cases`, `sendCommandResponse_cases` -- the exits of a command, with the
    accesses to the ports on the way;
  * `Verified` -- what a caller reads from a result;
  * `reallyVerified_iff` -- a call returns such a result exactly when no response comes, or the
    function and the response are not those of the two slips.
-/
import MapleKernel.Drivers.Ps2ControllerSpec

namespace MapleKernel.Drivers

open Program

/-! ## 1. Commands as bytes -/

/-- `send_command_to_ps2_controller`. -/
def sendCommandByte (command : UInt8) : Controller Ps2Error := do
  let err ← waitTillReadyForMoreInput
  if err ≠ .none then return err
  outb .command command
  return .none

def sendCommandNoneResponse (command : UInt8) : Controller Ps2Error := sendCommandByte command

/-- `enum PS2_ResponseType`. -/
inductive ResponseType where
  | notACommand | none | unknown | controllerConfigurationByte | testPort | testController
  | controllerOutputPort
  deriving DecidableEq, Repr

/-- `command_to_response_type`; a later initializer replaces an earlier one. -/
def commandToResponseType (command : UInt8) : ResponseType :=
  let c := command.toNat
  if c = 0x20 then .controllerConfigurationByte
  else if 0x21 ≤ c ∧ c ≤ 0x3F then .unknown
  else if 0x60 ≤ c ∧ c ≤ 0x7F then .none
  else if c = 0xA7 ∨ c = 0xA8 then .none
  else if c = 0xA9 ∨ c = 0xAB then .testPort
  else if c = 0xAA then .testController
  else if c = 0xAC then .unknown
  else if c = 0xAD ∨ c = 0xAE then .none
  else if c = 0xC0 then .unknown
  else if c = 0xC1 ∨ c = 0xC2 then .none
  else if c = 0xD0 then .controllerOutputPort
  else if 0xD1 ≤ c ∧ c ≤ 0xD4 then .none
  else if 0xF0 ≤ c then .none
  else .notACommand

/-! ## 2. Commands with a response -/

/-- The structures `ps2_verified_response_...`; `none` is a field that was never assigned. -/
structure CommandResponse where
  err : Option Ps2Error
  response : Option UInt8
  deriving DecidableEq, Repr

def CommandResponse.failed (err : Ps2Error) : CommandResponse := ⟨some err, none⟩

/-- The pattern of the functions; `ret` is made of the byte that was read. -/
def sendCommandResponse (ret : UInt8 → CommandResponse) (command : UInt8) :
    Controller CommandResponse := do
  let err ← sendCommandByte command
  if err ≠ .none then return .failed err
  let err ← waitTillReadyForResponse
  if err ≠ .none then return .failed err
  let rawResponse ← ps2RecieveRawResponse
  return ret rawResponse

/-- `err` is not assigned after the read. -/
def sendCommandUnknownResponse (command : UInt8) : Controller CommandResponse := do
  let err ← sendCommandByte command
  if err ≠ .none then return .failed err
  let err ← waitTillReadyForResponse
  if err ≠ .none then return .failed err
  let rawResponse ← ps2RecieveRawResponse
  return ⟨none, some rawResponse⟩

theorem sendCommandUnknownResponse_eq :
    sendCommandUnknownResponse = sendCommandResponse fun rawResponse => ⟨none, some rawResponse⟩ :=
  rfl

def sendCommandConfigurationByteResponse (command : UInt8) : Controller CommandResponse :=
  sendCommandResponse
    (fun rawResponse => ⟨some (ps2VerifyConfigurationByteResponse rawResponse), some rawResponse⟩)
    command

def sendCommandTestPortResponse (command : UInt8) : Controller CommandResponse :=
  sendCommandResponse
    (fun rawResponse => ⟨some (ps2VerifyTestPortResponse rawResponse), some rawResponse⟩) command

def sendCommandTestControllerResponse (command : UInt8) : Controller CommandResponse :=
  sendCommandResponse
    (fun rawResponse => ⟨some (ps2VerifyTestControllerResponse rawResponse), some rawResponse⟩)
    command

/-- The bit `A20_gate` must be clear. -/
def ps2VerifyControllerOutputPortResponse (raw : UInt8) : Ps2Error :=
  if !raw.toNat.testBit 1 then .none else .warnA20LineNotSet

def sendCommandTestControllerOutputPortResponse (command : UInt8) : Controller CommandResponse :=
  sendCommandResponse
    (fun rawResponse => ⟨some (ps2VerifyControllerOutputPortResponse rawResponse), some rawResponse⟩)
    command

/-! ## 3. The generic function -/

/-- `___ps2_typeless_return`. -/
structure TypelessReturn where
  type : ResponseType
  value : Option UInt8
  err : Ps2Error
  deriving DecidableEq, Repr

/-- `recieve_generic_verified_response`. -/
def recieveGenericVerifiedResponse (responseType : ResponseType) : Controller TypelessReturn := do
  Prog.assert (responseType ≠ .notACommand) .invalidCommand
  Prog.assert (responseType ≠ .none) .invalidCommand
  let rawResponse ← ps2RecieveRawResponse
  match responseType with
  | .testPort => return ⟨.testPort, some rawResponse, ps2VerifyTestPortResponse rawResponse⟩
  | .testController =>
      return ⟨.testController, some rawResponse, ps2VerifyTestControllerResponse rawResponse⟩
  | .controllerConfigurationByte =>
      return ⟨.controllerConfigurationByte, some rawResponse,
        ps2VerifyConfigurationByteResponse rawResponse⟩
  | .controllerOutputPort =>
      return ⟨.controllerOutputPort, some rawResponse,
        ps2VerifyControllerOutputPortResponse rawResponse⟩
  | .unknown => return ⟨.unknown, some rawResponse, .none⟩
  | _ => Prog.halt .invalidCommand

/-- `send_command_and_recieve_response`. -/
def sendCommandAndRecieveResponse (command : UInt8) : Controller TypelessReturn := do
  let responseType := commandToResponseType command
  Prog.assert (responseType ≠ .notACommand) .invalidCommand
  let err ← sendCommandByte command
  if err ≠ .none then return ⟨responseType, none, err⟩
  if responseType = .none then return ⟨responseType, none, .none⟩
  let err ← waitTillReadyForResponse
  if err ≠ .none then return ⟨responseType, none, err⟩
  recieveGenericVerifiedResponse responseType

/-! ## 4. The exits of a command -/

/-- The state after a write. -/
def Ps2Io.afterWrite (io : Ps2Io) (port : Ps2IoPort) (byte : UInt8) : Ps2Io :=
  { io with writes := io.writes ++ [⟨port, byte⟩], log := io.log ++ [.write ⟨port, byte⟩] }

/-- The state after a read of the data port. -/
def Ps2Io.afterResponse (io : Ps2Io) (answers : Nat → UInt8) : Ps2Io :=
  { io with
    reads := io.reads + 1
    responses := io.responses ++ [answers io.reads]
    log := io.log ++ [.response (answers io.reads)] }

/-- The state after a command byte that the controller takes at its `k`-th status. -/
def Ps2Io.afterCommand (io : Ps2Io) (answers : Nat → UInt8) (k : Nat) (command : UInt8) : Ps2Io :=
  (io.afterStatus answers (k + 1)).afterWrite .command command

@[simp] theorem Ps2Io.reads_afterCommand (io : Ps2Io) (answers : Nat → UInt8) (k : Nat)
    (command : UInt8) : (io.afterCommand answers k command).reads = io.reads + k + 1 := rfl

section Exits

variable {e : Ps2Env} {io : Ps2Io}

/-- **A command byte is written exactly when the controller takes it.** -/
theorem sendCommandByte_cases (command : UInt8) (e : Ps2Env) (io : Ps2Io) :
    (∃ k, TakesInput e.answers io.reads k ∧ sendCommandByte command e io =
      (.ok .none, io.afterCommand e.answers k command)) ∨
    ((∀ k, ¬ TakesInput e.answers io.reads k) ∧ ∃ err n, err ≠ .none ∧
      FailedWait err (seenFrom e.answers io.reads n) ∧
      sendCommandByte command e io = (.ok err, io.afterStatus e.answers n)) := by
  rcases waitTillReadyForMoreInput_cases e io with ⟨k, hk, hwait⟩ | ⟨hnone, err, n, herr, hf, hwait⟩
  · refine .inl ⟨k, hk, ?_⟩
    rw [sendCommandByte, bind_of_ok hwait]
    rfl
  · refine .inr ⟨hnone, err, n, herr, hf, ?_⟩
    rw [sendCommandByte, bind_of_ok hwait, if_pos herr]
    rfl

/-- The exits of a command with a response. -/
inductive ResponseExit (e : Ps2Env) (io : Ps2Io) (command : UInt8) (ret : UInt8 → CommandResponse) :
    CommandResponse → Ps2Io → Prop where
  | notTaken {err : Ps2Error} {n : Nat} (hnone : ∀ k, ¬ TakesInput e.answers io.reads k)
      (herr : err ≠ .none) :
      ResponseExit e io command ret (.failed err) (io.afterStatus e.answers n)
  | noResponse {k : Nat} (hk : TakesInput e.answers io.reads k)
      (hnone : ∀ j, ¬ FirstReady isPs2ControllerReadyForResponse e.answers (io.reads + k + 1) j) :
      ResponseExit e io command ret (.failed .waitMaxIttOut)
        ((io.afterCommand e.answers k command).afterStatus e.answers maxPs2WaitLoop)
  | response {k j : Nat} (hk : TakesInput e.answers io.reads k)
      (hj : FirstReady isPs2ControllerReadyForResponse e.answers (io.reads + k + 1) j) :
      ResponseExit e io command ret (ret (e.answers (io.reads + k + 1 + (j + 1))))
        (((io.afterCommand e.answers k command).afterStatus e.answers (j + 1)).afterResponse
          e.answers)

/-- **A command with a response returns at one of its three exits.** -/
theorem sendCommandResponse_exit (ret : UInt8 → CommandResponse) (command : UInt8) (e : Ps2Env)
    (io : Ps2Io) : ∃ r io', sendCommandResponse ret command e io = (.ok r, io') ∧
      ResponseExit e io command ret r io' := by
  rcases sendCommandByte_cases command e io with ⟨k, hk, hsend⟩ | ⟨hnone, err, n, herr, -, hsend⟩
  · rcases waitTillReadyForResponse_cases e (io.afterCommand e.answers k command) with
      ⟨j, hj, hwait⟩ | ⟨⟨hnone, -⟩, hwait⟩
    · refine ⟨_, _, ?_, .response hk hj⟩
      have hread : ps2RecieveRawResponse e
          ((io.afterCommand e.answers k command).afterStatus e.answers (j + 1)) =
          (.ok (e.answers (io.reads + k + 1 + (j + 1))),
            ((io.afterCommand e.answers k command).afterStatus e.answers (j + 1)).afterResponse
              e.answers) := rfl
      rw [sendCommandResponse, bind_of_ok hsend, if_neg (by simp), bind_of_ok hwait,
        if_neg (by simp), bind_of_ok hread]
      rfl
    · refine ⟨_, _, ?_, .noResponse hk hnone⟩
      rw [sendCommandResponse, bind_of_ok hsend, if_neg (by simp), bind_of_ok hwait]
      rfl
  · refine ⟨_, _, ?_, .notTaken (n := n) hnone herr⟩
    rw [sendCommandResponse, bind_of_ok hsend, if_pos herr]
    rfl

end Exits

/-! ## 5. What a result says -/

/-- The functions that check a response. -/
inductive VerifiedFunction where
  | unknown | configurationByte | testPort | testController | testControllerOutputPort
  deriving DecidableEq, Repr

namespace VerifiedFunction

def call : VerifiedFunction → UInt8 → Controller CommandResponse
  | .unknown => sendCommandUnknownResponse
  | .configurationByte => sendCommandConfigurationByteResponse
  | .testPort => sendCommandTestPortResponse
  | .testController => sendCommandTestControllerResponse
  | .testControllerOutputPort => sendCommandTestControllerOutputPortResponse

/-- The check of the response type. -/
def Passes : VerifiedFunction → UInt8 → Prop
  | .unknown, _ => True
  | .configurationByte, raw =>
      let bits := ConfigurationByte.ofRaw raw
      bits.zero1 = false ∧ bits.zero2 = false ∧ bits.systemFlagPassedPostOne = true
  | .testPort, raw => ps2VerifyTestPortResponse raw = .none
  | .testController, raw => ps2VerifyTestControllerResponse raw = .none
  | .testControllerOutputPort, raw => ps2VerifyControllerOutputPortResponse raw = .none

/-- What the function makes of the byte. -/
def ret : VerifiedFunction → UInt8 → CommandResponse
  | .unknown, raw => ⟨none, some raw⟩
  | .configurationByte, raw => ⟨some (ps2VerifyConfigurationByteResponse raw), some raw⟩
  | .testPort, raw => ⟨some (ps2VerifyTestPortResponse raw), some raw⟩
  | .testController, raw => ⟨some (ps2VerifyTestControllerResponse raw), some raw⟩
  | .testControllerOutputPort, raw => ⟨some (ps2VerifyControllerOutputPortResponse raw), some raw⟩

theorem call_eq (f : VerifiedFunction) (command : UInt8) :
    f.call command = sendCommandResponse f.ret command := by
  cases f with
  | unknown => exact congrFun sendCommandUnknownResponse_eq command
  | _ => rfl

end VerifiedFunction

/-- The accesses `l` end with the response `v` to `command`, which had arrived. -/
def Answered (command v : UInt8) (l : List PortEvent) : Prop :=
  ∃ l₁ l₂ status,
    l = l₁ ++ PortEvent.write ⟨.command, command⟩ :: (l₂ ++ [PortEvent.status status]) ++
      [PortEvent.response v] ∧
    isPs2ControllerReadyForResponse status = true

/-- **What a caller reads from a result** `r` of a call with the accesses `l`. -/
structure Verified (f : VerifiedFunction) (command : UInt8) (r : CommandResponse)
    (l : List PortEvent) : Prop where
  assigned : r.err ≠ none
  err_none_iff : r.err = some .none ↔ ∃ v, Answered command v l ∧ f.Passes v
  response : r.err = some .none → ∃ v, Answered command v l ∧ r.response = some v

/-- The call returns, and its result is verified. -/
def ReallyVerified (f : VerifiedFunction) (command : UInt8) (e : Ps2Env) (io : Ps2Io) : Prop :=
  ∃ r l io', f.call command e io = (.ok r, io') ∧ io'.log = io.log ++ l ∧ Verified f command r l

/-- The function looks at every bit of the response that its check is about. -/
def VerifiedFunction.Checks : VerifiedFunction → UInt8 → Prop
  | .unknown, _ => False
  | .configurationByte, raw =>
      let bits := ConfigurationByte.ofRaw raw
      ¬ (bits.zero1 = false ∧ bits.zero2 = true ∧ bits.systemFlagPassedPostOne = true)
  | _, _ => True

/-- The response that comes, if one comes, is one that the function checks. -/
def ResponseChecked (f : VerifiedFunction) (answers : Nat → UInt8) (n : Nat) : Prop :=
  ∀ k j, TakesInput answers n k →
    FirstReady isPs2ControllerReadyForResponse answers (n + k + 1) j →
    f.Checks (answers (n + k + 1 + (j + 1)))

theorem verified_failed {f : VerifiedFunction} {command : UInt8} {err : Ps2Error}
    {l : List PortEvent} (herr : err ≠ .none) (hnone : ∀ v, ¬ Answered command v l) :
    Verified f command (.failed err) l := by
  have hne : (CommandResponse.failed err).err ≠ some .none := fun h => herr (Option.some.inj h)
  refine ⟨nofun, ⟨fun h => absurd h hne, ?_⟩, fun h => absurd h hne⟩
  intro h
  obtain ⟨v, hv, -⟩ := h
  exact absurd hv (hnone v)

theorem answered_of_ready (command v : UInt8) {status : UInt8} (l₁ l₂ : List PortEvent)
    (h : isPs2ControllerReadyForResponse status = true) :
    Answered command v
      (l₁ ++ PortEvent.write ⟨.command, command⟩ :: (l₂ ++ [PortEvent.status status]) ++
        [PortEvent.response v]) :=
  ⟨l₁, l₂, status, rfl, h⟩

theorem Answered.getLast {command v : UInt8} {l : List PortEvent} {x : PortEvent}
    (h : Answered command v (l ++ [x])) : x = PortEvent.response v := by
  obtain ⟨l₁, l₂, status, hl, -⟩ := h
  exact List.singleton_inj.mp (List.append_inj' hl rfl).2

theorem not_answered_status {command v : UInt8} {l : List PortEvent} {seen : List UInt8}
    (hseen : seen ≠ []) : ¬ Answered command v (l ++ seen.map PortEvent.status) := by
  intro h
  rw [← List.dropLast_append_getLast hseen, List.map_append, ← List.append_assoc] at h
  cases h.getLast

/-- Before the first write no response is an answer. -/
theorem not_answered_of_no_write {command v : UInt8} {seen : List UInt8} :
    ¬ Answered command v (seen.map PortEvent.status) := by
  cases seen with
  | nil =>
      intro h
      obtain ⟨l₁, l₂, status, hl, -⟩ := h
      simp at hl
  | cons s seen =>
      intro h
      exact not_answered_status (l := []) (List.cons_ne_nil s seen) h

/-- **The check of the function is the check of the type, but for the two slips.** -/
theorem verified_ret_iff {f : VerifiedFunction} {command v : UInt8} {l : List PortEvent}
    (h : Answered command v l) (huniq : ∀ v', Answered command v' l → v' = v) :
    Verified f command (f.ret v) l ↔ f.Checks v := by
  have hpasses : (∃ v', Answered command v' l ∧ f.Passes v') ↔ f.Passes v := by
    constructor
    · intro h
      obtain ⟨v', hv', hp⟩ := h
      exact huniq v' hv' ▸ hp
    · exact fun hp => ⟨v, h, hp⟩
  have hresponse : ∃ v', Answered command v' l ∧ (f.ret v).response = some v' :=
    ⟨v, h, by cases f <;> rfl⟩
  have hverified : Verified f command (f.ret v) l ↔
      (f.ret v).err ≠ none ∧ ((f.ret v).err = some .none ↔ f.Passes v) :=
    ⟨fun hv => ⟨hv.assigned, hv.err_none_iff.trans hpasses⟩,
      fun hv => ⟨hv.1, hv.2.trans hpasses.symm, fun _ => hresponse⟩⟩
  rw [hverified]
  cases f with
  | unknown => exact iff_of_false (fun hv => hv.1 rfl) id
  | configurationByte =>
      simp only [VerifiedFunction.ret, VerifiedFunction.Passes, VerifiedFunction.Checks,
        ps2VerifyConfigurationByteResponse]
      cases (ConfigurationByte.ofRaw v).zero1 <;> cases (ConfigurationByte.ofRaw v).zero2 <;>
        cases (ConfigurationByte.ofRaw v).systemFlagPassedPostOne <;> simp
  | _ => exact iff_of_true ⟨Option.some_ne_none _, Option.some_inj⟩ trivial

section Result

variable {f : VerifiedFunction} {command : UInt8} {e : Ps2Env} {io io' : Ps2Io}

/-- The result and the accesses of a call are determined. -/
theorem reallyVerified_iff_of_call {r : CommandResponse} {l : List PortEvent}
    (hcall : sendCommandResponse f.ret command e io = (.ok r, io')) (hl : io'.log = io.log ++ l) :
    ReallyVerified f command e io ↔ Verified f command r l := by
  rw [← f.call_eq] at hcall
  constructor
  · intro h
    obtain ⟨r₁, l₁, io₁, hcall₁, hl₁, hv⟩ := h
    rw [hcall] at hcall₁
    cases hcall₁
    rwa [List.append_cancel_left (hl.symm.trans hl₁)]
  · exact fun hv => ⟨r, l, io', hcall, hl, hv⟩

/-- Without a response the result is an error, and verified. -/
theorem reallyVerified_of_no_response (h : ∀ k j, TakesInput e.answers io.reads k →
    ¬ FirstReady isPs2ControllerReadyForResponse e.answers (io.reads + k + 1) j) :
    ReallyVerified f command e io := by
  obtain ⟨r, io', hcall, hexit⟩ := sendCommandResponse_exit f.ret command e io
  cases hexit with
  | @notTaken err n hnone herr =>
      rw [reallyVerified_iff_of_call hcall
        (l := (seenFrom e.answers io.reads n).map PortEvent.status) rfl]
      exact verified_failed herr fun v => not_answered_of_no_write
  | @noResponse k hk hnone =>
      have hlog : ((io.afterCommand e.answers k command).afterStatus e.answers maxPs2WaitLoop).log =
          io.log ++ ((seenFrom e.answers io.reads (k + 1)).map PortEvent.status ++
            [PortEvent.write ⟨.command, command⟩] ++
            (seenFrom e.answers (io.reads + k + 1) maxPs2WaitLoop).map PortEvent.status) := by
        simp only [Ps2Io.afterStatus, Ps2Io.afterCommand, Ps2Io.afterWrite, List.append_assoc,
          Nat.add_assoc]
      have hseen : seenFrom e.answers (io.reads + k + 1) maxPs2WaitLoop ≠ [] := by
        rw [← List.length_pos_iff_ne_nil, length_seenFrom]
        decide
      rw [reallyVerified_iff_of_call hcall hlog]
      exact verified_failed (by decide) fun v => not_answered_status hseen
  | response hk hj => exact absurd hj (h _ _ hk)

/-- With a response the byte decides. -/
theorem reallyVerified_iff_checks {k j : Nat} (hk : TakesInput e.answers io.reads k)
    (hj : FirstReady isPs2ControllerReadyForResponse e.answers (io.reads + k + 1) j) :
    ReallyVerified f command e io ↔ f.Checks (e.answers (io.reads + k + 1 + (j + 1))) := by
  obtain ⟨r, io', hcall, hexit⟩ := sendCommandResponse_exit f.ret command e io
  cases hexit with
  | notTaken hnone herr => exact absurd hk (hnone k)
  | @noResponse k' hk' hnone =>
      rw [hk.first.unique hk'.first] at hj
      exact absurd hj (hnone j)
  | @response k' j' hk' hj' =>
      obtain rfl := hk.first.unique hk'.first
      obtain rfl := hj.unique hj'
      have hlog : (((io.afterCommand e.answers k command).afterStatus e.answers
          (j + 1)).afterResponse e.answers).log =
          io.log ++ ((seenFrom e.answers io.reads (k + 1)).map PortEvent.status ++
            PortEvent.write ⟨.command, command⟩ ::
              ((seenFrom e.answers (io.reads + k + 1) j).map PortEvent.status ++
                [PortEvent.status (e.answers (io.reads + k + 1 + j))]) ++
            [PortEvent.response (e.answers (io.reads + k + 1 + (j + 1)))]) := by
        simp only [Ps2Io.afterResponse, Ps2Io.afterStatus, Ps2Io.afterCommand, Ps2Io.afterWrite,
          seenFrom_succ _ _ j, List.map_append, List.map_cons, List.map_nil, List.append_assoc,
          List.cons_append, List.nil_append, Nat.add_assoc]
      rw [reallyVerified_iff_of_call hcall hlog]
      have hanswered := answered_of_ready command (e.answers (io.reads + k + 1 + (j + 1)))
        ((seenFrom e.answers io.reads (k + 1)).map PortEvent.status)
        ((seenFrom e.answers (io.reads + k + 1) j).map PortEvent.status) hj.ready
      exact verified_ret_iff hanswered fun v' hv' => PortEvent.response.inj hv'.getLast.symm

end Result

/-- **A result is verified exactly when the response, if one comes, is checked.** -/
theorem reallyVerified_iff (f : VerifiedFunction) (command : UInt8) (e : Ps2Env) (io : Ps2Io) :
    ReallyVerified f command e io ↔ ResponseChecked f e.answers io.reads := by
  by_cases h : ∃ k j, TakesInput e.answers io.reads k ∧
      FirstReady isPs2ControllerReadyForResponse e.answers (io.reads + k + 1) j
  · obtain ⟨k, j, hk, hj⟩ := h
    rw [reallyVerified_iff_checks hk hj]
    constructor
    · intro hchecks k' j' hk' hj'
      obtain rfl := hk'.first.unique hk.first
      obtain rfl := hj'.unique hj
      exact hchecks
    · exact fun hchecked => hchecked k j hk hj
  · have hnone : ∀ k j, TakesInput e.answers io.reads k →
        ¬ FirstReady isPs2ControllerReadyForResponse e.answers (io.reads + k + 1) j :=
      fun k j hk hj => h ⟨k, j, hk, hj⟩
    exact iff_of_true (reallyVerified_of_no_response hnone)
      fun k j hk hj => absurd hj (hnone k j hk)

/-- A controller that takes the command at once and answers it with `response`. -/
def answeringEnv (response : UInt8) : Ps2Env where
  answers n := [0, 1, response].getD n 0
  qemu := false
  debug := false
  unassigned := .other 0

/-- A configuration byte with the POST bit and the bit `zero2` passes as verified, and the error
of a response of unknown type was never assigned. -/
theorem not_reallyVerified :
    ¬ ReallyVerified .configurationByte 0x20 (answeringEnv 0x84) ⟨0, [], [], [], []⟩ ∧
      ¬ ReallyVerified .unknown 0xC0 (answeringEnv 0x84) ⟨0, [], [], [], []⟩ := by
  have hk : TakesInput (answeringEnv 0x84).answers 0 0 :=
    ⟨⟨by decide, fun i hi => absurd hi (Nat.not_lt_zero i), by decide⟩, by decide, by decide⟩
  have hj : FirstReady isPs2ControllerReadyForResponse (answeringEnv 0x84).answers (0 + 0 + 1) 0 :=
    ⟨by decide, fun i hi => absurd hi (Nat.not_lt_zero i), by decide⟩
  rw [reallyVerified_iff_checks hk hj, reallyVerified_iff_checks hk hj]
  refine ⟨?_, id⟩
  show ¬ ¬ (_ ∧ _ ∧ _)
  decide

end MapleKernel.Drivers
