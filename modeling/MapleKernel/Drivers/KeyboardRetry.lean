/-
  File:      Drivers/KeyboardRetry.lean
  Subject:   KEYBOARD COMMANDS WITH THEIR RETRIES (`ps2_keyboard.c`): `send_data_to_ps2_keyboard`
             and the change of the scan code set, whatever the controller and the keyboard answer.

  One turn of the loop is an exchange: the byte is sent, a reply is awaited and read. Sending may
  fail, so may the wait; the keyboard may ask for the byte again.

  * `exchange` -- one turn, `Exchanges` several in a row;
  * `Exchange.Shows` -- what one exchange sends, reads and does to the ports;
  * `sendDataLoop_attempts` -- the loop makes a bounded retry of exchanges, and its result is that
    of the first exchange that is not a resend;
  * `Transmission`, `ScanCodeSetChange` -- what the two functions promise, `keyboard_commands_retry`
    that they do.
-/
import MapleKernel.Lib.Retry
import MapleKernel.Drivers.Ps2Commands
import MapleKernel.Drivers.Ps2Keyboard

namespace MapleKernel.Drivers

open Program Retry

/-! ## 1. One exchange -/

/-- What becomes of a byte for the keyboard. -/
inductive Exchange where
  | notSent
  | noReply
  | reply (response : UInt8)
  deriving DecidableEq, Repr

/-- The body of the loop of `send_data_to_ps2_keyboard`, up to the comparison of the response. -/
def exchange (port data : UInt8) : Controller Exchange := do
  let cErr ← sendCommandOrDataToPs2Port port data
  if cErr ≠ .none then return .notSent
  let cErr ← waitTillReadyForResponse
  if cErr ≠ .none then return .noReply
  let response ← ps2RecieveRawResponse
  return .reply response

namespace Exchange

/-- The keyboard asks for the byte again. -/
def Again (o : Exchange) : Prop := o = .reply krbResend

instance : DecidablePred Again := fun o => inferInstanceAs (Decidable (o = .reply krbResend))

/-- What the loop returns after an exchange that is not repeated. -/
def result : Exchange → KeyboardVerifiedResponse
  | .notSent => ⟨.couldNotSendCommand, none⟩
  | .noReply => ⟨.couldNotRecieveResponse, none⟩
  | .reply response =>
      if response = krbCommandAcknowledged then ⟨.none, some response⟩
      else ⟨.nonAckResponse, some response⟩

/-- The bytes that went out, each with the port that it was for. -/
def transmitted (port data : UInt8) : Exchange → List (UInt8 × UInt8)
  | .notSent => []
  | _ => [(port, data)]

/-- The bytes that were read. -/
def replies : Exchange → List UInt8
  | .reply response => [response]
  | _ => []

/-- The accesses from the byte on, with those of the wait for the reply. -/
def accesses (data : UInt8) (wait : List PortEvent) : Exchange → List PortEvent
  | .notSent => []
  | .noReply => .write ⟨.data, data⟩ :: wait
  | .reply response => .write ⟨.data, data⟩ :: (wait ++ [.response response])

end Exchange

/-- Exchanges of the same byte, one after the other. -/
inductive Exchanges (e : Ps2Env) (port data : UInt8) : Ps2Io → List Exchange → Ps2Io → Prop where
  | nil (io : Ps2Io) : Exchanges e port data io [] io
  | cons {io io₁ io₂ : Ps2Io} {o : Exchange} {os : List Exchange}
      (h : exchange port data e io = (.ok o, io₁)) (hs : Exchanges e port data io₁ os io₂) :
      Exchanges e port data io (o :: os) io₂

/-! ## 2. What an exchange shows -/

/-- Neither a byte for a device nor the read of one. -/
def PortEvent.Idle : PortEvent → Prop
  | .status _ => True
  | .write w => w.port = .command
  | .response _ => False

/-- Nothing but idle accesses between the two states. -/
structure Ps2Io.Idle (io io' : Ps2Io) : Prop where
  sent : io'.sent = io.sent
  responses : io'.responses = io.responses
  log : ∃ l, io'.log = io.log ++ l ∧ ∀ x ∈ l, x.Idle

instance : IsPreorder Ps2Io Ps2Io.Idle where
  refl _ := ⟨rfl, rfl, [], (List.append_nil _).symm, fun _ hx => absurd hx List.not_mem_nil⟩
  trans := by
    intro io₁ io₂ io₃ h h'
    obtain ⟨l, hl, hidle⟩ := h.log
    obtain ⟨l', hl', hidle'⟩ := h'.log
    refine ⟨h'.sent.trans h.sent, h'.responses.trans h.responses, l ++ l',
      by rw [hl', hl, List.append_assoc], fun x hx => ?_⟩
    exact (List.mem_append.mp hx).elim (hidle x) (hidle' x)

theorem idle_afterStatus (io : Ps2Io) (answers : Nat → UInt8) (n : Nat) :
    io.Idle (io.afterStatus answers n) := by
  refine ⟨rfl, rfl, _, rfl, fun x hx => ?_⟩
  obtain ⟨s, -, rfl⟩ := List.mem_map.mp hx
  trivial

theorem idle_command (io : Ps2Io) (byte : UInt8) :
    io.Idle { io with
      writes := io.writes ++ [⟨.command, byte⟩], log := io.log ++ [.write ⟨.command, byte⟩] } :=
  ⟨rfl, rfl, _, rfl, fun _ hx => List.mem_singleton.mp hx ▸ rfl⟩

/-- The state after a byte for the device on a port. -/
def Ps2Io.afterDevice (io : Ps2Io) (port data : UInt8) : Ps2Io :=
  { io with
    writes := io.writes ++ [⟨.data, data⟩]
    sent := io.sent ++ [(port, data)]
    log := io.log ++ [.write ⟨.data, data⟩] }

/-- **An exchange shows what becomes of the byte**: at most one byte goes out, the replies are the
    bytes read, and all other accesses are idle. -/
structure Exchange.Shows (o : Exchange) (port data : UInt8) (io io' : Ps2Io) : Prop where
  sent : io'.sent = io.sent ++ o.transmitted port data
  responses : io'.responses = io.responses ++ o.replies
  log : ∃ l wait, io'.log = io.log ++ (l ++ o.accesses data wait) ∧ (∀ x ∈ l, x.Idle) ∧
    ∀ x ∈ wait, x.Idle

/-- A byte for a device, after the wait for input. -/
def sendAfterWait (port data : UInt8) : Controller Ps2Error := do
  let err ← waitTillReadyForMoreInput
  if err ≠ .none then return err
  outbDevice port data
  return .none

section Shows

variable {e : Ps2Env} {io : Ps2Io}

theorem sendAfterWait_cases (port data : UInt8) (e : Ps2Env) (io : Ps2Io) :
    (∃ io₁, io.Idle io₁ ∧
      sendAfterWait port data e io = (.ok .none, io₁.afterDevice port data)) ∨
    (∃ err io₁, err ≠ .none ∧ io.Idle io₁ ∧ sendAfterWait port data e io = (.ok err, io₁)) := by
  rcases waitTillReadyForMoreInput_cases e io with ⟨k, -, hwait⟩ | ⟨-, err, n, herr, -, hwait⟩
  · refine .inl ⟨_, idle_afterStatus io e.answers (k + 1), ?_⟩
    rw [sendAfterWait, bind_of_ok hwait]
    rfl
  · refine .inr ⟨err, _, herr, idle_afterStatus io e.answers n, ?_⟩
    rw [sendAfterWait, bind_of_ok hwait, if_pos herr]
    rfl

/-- **A byte for a port goes out, or sending fails**, after idle accesses. -/
theorem sendCommandOrDataToPs2Port_cases (port data : UInt8) (e : Ps2Env) (io : Ps2Io) :
    (∃ io₁, io.Idle io₁ ∧
      sendCommandOrDataToPs2Port port data e io = (.ok .none, io₁.afterDevice port data)) ∨
    (∃ err io₁, err ≠ .none ∧ io.Idle io₁ ∧
      sendCommandOrDataToPs2Port port data e io = (.ok err, io₁)) := by
  unfold sendCommandOrDataToPs2Port
  by_cases h1 : port = 1
  · rw [if_pos h1, h1]
    exact sendAfterWait_cases 1 data e io
  rw [if_neg h1]
  by_cases h2 : port = 2
  · rw [if_pos h2, h2]
    rcases waitTillReadyForMoreInput_cases e io with ⟨k, -, hwait⟩ | ⟨-, err, n, herr, -, hwait⟩
    · -- the first byte tells the controller which port is meant
      have hidle := trans_of Ps2Io.Idle (idle_afterStatus io e.answers (k + 1))
        (idle_command _ CommandByte.writeNextByteToSecondPs2InputBuffer.value)
      rw [sendCommandToSecondPs2Port, bind_of_ok hwait, if_neg (by simp)]
      rcases sendAfterWait_cases 2 data e _ with ⟨io₁, hio₁, hsend⟩ | ⟨err, io₁, herr, hio₁, hsend⟩
      · exact .inl ⟨io₁, trans_of Ps2Io.Idle hidle hio₁, hsend⟩
      · exact .inr ⟨err, io₁, herr, trans_of Ps2Io.Idle hidle hio₁, hsend⟩
    · refine .inr ⟨err, _, herr, idle_afterStatus io e.answers n, ?_⟩
      rw [sendCommandToSecondPs2Port, bind_of_ok hwait, if_pos herr]
      rfl
  · rw [if_neg h2]
    exact .inr ⟨.invalidPortNumber, io, by decide, refl_of Ps2Io.Idle io, rfl⟩

theorem shows_notSent {port data : UInt8} {io₁ : Ps2Io} (h : io.Idle io₁) :
    Exchange.notSent.Shows port data io io₁ := by
  obtain ⟨l, hl, hidle⟩ := h.log
  refine ⟨?_, ?_, l, [], ?_, hidle, fun _ hx => absurd hx List.not_mem_nil⟩
  · rw [h.sent]
    exact (List.append_nil _).symm
  · rw [h.responses]
    exact (List.append_nil _).symm
  · rw [hl]
    exact congrArg _ (List.append_nil _).symm

theorem shows_noReply {port data : UInt8} {io₁ io₂ : Ps2Io} (h : io.Idle io₁)
    (hwait : (io₁.afterDevice port data).Idle io₂) :
    Exchange.noReply.Shows port data io io₂ := by
  obtain ⟨l, hl, hidle⟩ := h.log
  obtain ⟨wait, hw, hwidle⟩ := hwait.log
  refine ⟨?_, ?_, l, wait, ?_, hidle, hwidle⟩
  · rw [hwait.sent, ← h.sent]
    rfl
  · rw [hwait.responses, ← h.responses]
    exact (List.append_nil _).symm
  · rw [hw, Ps2Io.afterDevice, hl]
    simp only [Exchange.accesses, List.append_assoc, List.singleton_append]

theorem shows_reply {port data : UInt8} {io₁ io₂ : Ps2Io} (h : io.Idle io₁)
    (hwait : (io₁.afterDevice port data).Idle io₂) (answers : Nat → UInt8) :
    (Exchange.reply (answers io₂.reads)).Shows port data io (io₂.afterResponse answers) := by
  obtain ⟨l, hl, hidle⟩ := h.log
  obtain ⟨wait, hw, hwidle⟩ := hwait.log
  refine ⟨?_, ?_, l, wait, ?_, hidle, hwidle⟩
  · show io₂.sent = _
    rw [hwait.sent, ← h.sent]
    rfl
  · rw [Ps2Io.afterResponse, hwait.responses, ← h.responses]
    rfl
  · rw [Ps2Io.afterResponse, hw, Ps2Io.afterDevice, hl]
    simp only [Exchange.accesses, List.append_assoc, List.cons_append, List.nil_append]

/-- **Every exchange returns, and shows what it did.** -/
theorem exchange_shows (port data : UInt8) (e : Ps2Env) (io : Ps2Io) :
    ∃ o io', exchange port data e io = (.ok o, io') ∧ o.Shows port data io io' := by
  rcases sendCommandOrDataToPs2Port_cases port data e io with
    ⟨io₁, hidle, hsend⟩ | ⟨err, io₁, herr, hidle, hsend⟩
  · rcases waitTillReadyForResponse_cases e (io₁.afterDevice port data) with
      ⟨k, -, hwait⟩ | ⟨-, hwait⟩
    · refine ⟨_, _, ?_, shows_reply hidle (idle_afterStatus _ e.answers (k + 1)) e.answers⟩
      rw [exchange, bind_of_ok hsend, if_neg (by simp), bind_of_ok hwait, if_neg (by simp)]
      rfl
    · refine ⟨_, _, ?_, shows_noReply hidle (idle_afterStatus _ e.answers maxPs2WaitLoop)⟩
      rw [exchange, bind_of_ok hsend, if_neg (by simp), bind_of_ok hwait, if_pos (by decide)]
      rfl
  · refine ⟨_, _, ?_, shows_notSent hidle⟩
    rw [exchange, bind_of_ok hsend, if_pos herr]
    rfl

theorem Exchange.shows_of_ok {port data : UInt8} {o : Exchange} {io' : Ps2Io}
    (h : exchange port data e io = (.ok o, io')) : o.Shows port data io io' := by
  obtain ⟨o₁, io₁, h₁, hshows⟩ := exchange_shows port data e io
  rw [h] at h₁
  cases h₁
  exact hshows

end Shows

/-! ## 3. The loop -/

/-- What the loop returns after the exchanges `os`: the first that is no resend decides. -/
def resultOf (os : List Exchange) : KeyboardVerifiedResponse :=
  match os.find? fun o => ¬ o.Again with
  | some o => o.result
  | none => ⟨.resendTooMuch, none⟩

theorem resultOf_cons {o : Exchange} {os : List Exchange} (h : o.Again) :
    resultOf (o :: os) = resultOf os := by
  rw [resultOf, List.find?_cons_of_neg (by simpa using h)]
  rfl

theorem resultOf_singleton {o : Exchange} (h : ¬ o.Again) : resultOf [o] = o.result := by
  rw [resultOf, List.find?_cons_of_pos (by simpa using h)]

section Turns

variable {e : Ps2Env} {w : World} {data : UInt8} {o : Exchange} {io' : Ps2Io}

theorem controller_of_ok {α : Type} {p : Controller α} {w : World} {a : α} {io' : Ps2Io}
    (h : p e w.io = (.ok a, io')) : controller p e w = (.ok a, { w with io := io' }) := by
  rw [controller, Prog.on, h]

/-- **One turn of the loop is an exchange**: a resend leads to the next turn, everything else ends
    the loop. -/
theorem sendDataLoop_succ (n : Nat)
    (h : exchange w.kps.activePort data e w.io = (.ok o, io')) :
    sendDataLoop data (n + 1) e w =
      if o.Again then sendDataLoop data n e { w with io := io' }
      else (.ok o.result, { w with io := io' }) := by
  obtain ⟨err, io₁, hsend, -⟩ :=
    (@total_sendCommandOrDataToPs2Port (fun _ => True) w.kps.activePort data trivial).exists_ok
      e w.io
  have hturn : sendCommandOrDataToPs2Keyboard data e w = (.ok err, { w with io := io₁ }) :=
    controller_of_ok hsend
  rw [exchange, bind_of_ok hsend] at h
  rw [sendDataLoop, bind_of_ok hturn]
  by_cases herr : err = .none
  · rw [if_neg (not_not.mpr herr)] at h ⊢
    obtain ⟨err₂, io₂, hwait, -⟩ :=
      (total_waitTillReadyForResponse (C := fun _ => True)).exists_ok e io₁
    rw [bind_of_ok hwait] at h
    rw [bind_of_ok (controller_of_ok hwait)]
    by_cases herr₂ : err₂ = .none
    · rw [if_neg (not_not.mpr herr₂)] at h ⊢
      cases h
      rw [bind_of_ok (@controller_of_ok _ _ _ _ _ (io₂.afterResponse e.answers) rfl)]
      by_cases hagain : e.answers io₂.reads = krbResend
      · have ho : (Exchange.reply (e.answers io₂.reads)).Again := congrArg _ hagain
        rw [if_pos hagain, if_pos ho]
        rfl
      · have ho : ¬ (Exchange.reply (e.answers io₂.reads)).Again :=
          fun h => hagain (Exchange.reply.inj h)
        rw [if_neg hagain, if_neg ho, Exchange.result]
        split <;> rfl
    · rw [if_pos herr₂] at h ⊢
      cases h
      rfl
  · rw [if_pos herr] at h ⊢
    cases h
    rfl

/-- **The loop is a bounded retry of exchanges**, and changes nothing else. -/
theorem sendDataLoop_attempts (data : UInt8) (n : Nat) (e : Ps2Env) (w : World) :
    ∃ os io', sendDataLoop data n e w = (.ok (resultOf os), { w with io := io' }) ∧
      Exchanges e w.kps.activePort data w.io os io' ∧ Attempts Exchange.Again n os := by
  induction n generalizing w with
  | zero => exact ⟨[], w.io, rfl, .nil _, .spent⟩
  | succ n ih =>
      obtain ⟨o, io₁, hex, -⟩ := exchange_shows w.kps.activePort data e w.io
      rw [sendDataLoop_succ n hex]
      by_cases hagain : o.Again
      · obtain ⟨os, io', hloop, hs, hatt⟩ := ih { w with io := io₁ }
        refine ⟨o :: os, io', ?_, .cons hex hs, .another hagain hatt⟩
        rw [if_pos hagain, hloop, resultOf_cons hagain]
      · refine ⟨[o], io₁, ?_, .cons hex (.nil _), .ends hagain⟩
        rw [if_neg hagain, resultOf_singleton hagain]

end Turns

/-! ## 4. The exchanges of one call -/

/-- Nothing but resends, then the acknowledgement. -/
def Acknowledged (os : List Exchange) : Prop :=
  ∃ k, os = List.replicate k (.reply krbResend) ++ [.reply krbCommandAcknowledged]

section Calls

variable {e : Ps2Env} {port data : UInt8} {io io' : Ps2Io} {os : List Exchange}

theorem Exchanges.sent (h : Exchanges e port data io os io') :
    io'.sent = io.sent ++ os.flatMap (Exchange.transmitted port data) := by
  induction h with
  | nil io => exact (List.append_nil _).symm
  | cons hex _ ih => rw [ih, (Exchange.shows_of_ok hex).sent, List.append_assoc, List.flatMap_cons]

theorem Exchanges.responses (h : Exchanges e port data io os io') :
    io'.responses = io.responses ++ os.flatMap Exchange.replies := by
  induction h with
  | nil io => exact (List.append_nil _).symm
  | cons hex _ ih =>
      rw [ih, (Exchange.shows_of_ok hex).responses, List.append_assoc, List.flatMap_cons]

/-- Each exchange whose byte is sent adds that byte. -/
theorem flatMap_transmitted (port data : UInt8) (os : List Exchange) :
    ∃ t ≤ os.length, os.flatMap (Exchange.transmitted port data) = List.replicate t (port, data) ∧
      (.notSent ∉ os → t = os.length) := by
  induction os with
  | nil => exact ⟨0, Nat.le_refl 0, rfl, fun _ => rfl⟩
  | cons o os ih =>
      obtain ⟨t, ht, heq, hall⟩ := ih
      rw [List.flatMap_cons, heq]
      by_cases ho : o = .notSent
      · refine ⟨t, Nat.le_succ_of_le ht, by rw [ho]; rfl, fun hn => ?_⟩
        exact absurd (ho ▸ List.mem_cons_self) hn
      · refine ⟨t + 1, Nat.succ_le_succ ht, ?_, fun hn => ?_⟩
        · cases o with
          | notSent => exact absurd rfl ho
          | noReply => rfl
          | reply => rfl
        · rw [hall fun hmem => hn (List.mem_cons_of_mem _ hmem), List.length_cons]

/-- An exchange reads one byte at most. -/
theorem length_replies_le (os : List Exchange) :
    (os.flatMap Exchange.replies).length ≤ os.length := by
  induction os with
  | nil => exact Nat.le_refl 0
  | cons o os ih =>
      have ho : o.replies.length ≤ 1 := by
        cases o with
        | notSent => exact Nat.zero_le 1
        | noReply => exact Nat.zero_le 1
        | reply => exact Nat.le_refl 1
      rw [List.flatMap_cons, List.length_append, List.length_cons]
      omega

theorem find?_replies_of_again (h : ∀ o ∈ os, o.Again) :
    (os.flatMap Exchange.replies).find? (· ≠ krbResend) = none := by
  rw [List.find?_eq_none]
  intro b hb
  obtain ⟨o, ho, hbo⟩ := List.mem_flatMap.mp hb
  rw [h o ho, Exchange.replies, List.mem_singleton] at hbo
  simp [hbo]

theorem find?_of_again (h : ∀ o ∈ os, o.Again) :
    os.find? (fun o => ¬ o.Again) = none := by
  rw [List.find?_eq_none]
  intro o ho
  simpa using h o ho

theorem resultOf_last {m : List Exchange} {o : Exchange} (hm : ∀ o ∈ m, o.Again)
    (ho : ¬ o.Again) : resultOf (m ++ [o]) = o.result := by
  have hfind : (m ++ [o]).find? (fun o => ¬ o.Again) = some o := by
    rw [List.find?_append, find?_of_again hm, List.find?_cons_of_pos (by simpa using ho)]
    rfl
  rw [resultOf, hfind]

theorem resultOf_of_again (h : ∀ o ∈ os, o.Again) : resultOf os = ⟨.resendTooMuch, none⟩ := by
  rw [resultOf, find?_of_again h]

theorem Exchange.result_err_iff (o : Exchange) :
    o.result.err = .none ↔ o = .reply krbCommandAcknowledged := by
  cases o with
  | notSent => exact iff_of_false (by simp [result]) (by simp)
  | noReply => exact iff_of_false (by simp [result]) (by simp)
  | reply response =>
      rw [result, Exchange.reply.injEq]
      by_cases h : response = krbCommandAcknowledged
      · rw [if_pos h]
        exact iff_of_true rfl h
      · rw [if_neg h]
        exact iff_of_false (by simp) h

/-- **The result is good exactly when the exchanges end with the acknowledgement.** -/
theorem resultOf_err_iff {n : Nat} (h : Attempts Exchange.Again n os) :
    (resultOf os).err = .none ↔ Acknowledged os := by
  rcases h.cases_last with ⟨m, o, rfl, hm, ho⟩ | ⟨-, hall⟩
  · rw [resultOf_last hm ho, o.result_err_iff]
    constructor
    · intro hack
      exact ⟨m.length, by rw [← List.eq_replicate_iff.mpr ⟨rfl, hm⟩, hack]⟩
    · intro hack
      obtain ⟨k, hk⟩ := hack
      exact List.singleton_inj.mp (List.append_inj' hk rfl).2
  · rw [resultOf_of_again hall]
    refine iff_of_false (by simp) fun hack => ?_
    obtain ⟨k, rfl⟩ := hack
    have hlast := hall _ (List.mem_append_right _ (List.mem_singleton.mpr rfl))
    exact absurd (Exchange.reply.inj hlast) (by decide)

/-- The exchanges end with the acknowledgement exactly when all bytes are sent and all replies
    come, and the first reply that is no resend acknowledges. -/
theorem acknowledged_iff {n : Nat} (h : Attempts Exchange.Again n os) :
    Acknowledged os ↔ (.notSent ∉ os ∧ .noReply ∉ os) ∧
      (os.flatMap Exchange.replies).find? (· ≠ krbResend) = some krbCommandAcknowledged := by
  rw [← resultOf_err_iff h]
  rcases h.cases_last with ⟨m, o, rfl, hm, ho⟩ | ⟨-, hall⟩
  · rw [resultOf_last hm ho, o.result_err_iff, List.flatMap_append, List.find?_append,
      find?_replies_of_again hm, Option.none_or, List.flatMap_singleton]
    have hnot : ∀ x, (∀ r, x ≠ .reply r) → (x ∈ m ++ [o] ↔ x = o) := by
      intro x hx
      rw [List.mem_append, List.mem_singleton, or_iff_right fun hmem => hx _ (hm x hmem)]
    rw [hnot .notSent (by simp), hnot .noReply (by simp)]
    cases o with
    | notSent => simp
    | noReply => simp
    | reply response =>
        have hne : response ≠ krbResend := fun h => ho (congrArg _ h)
        rw [Exchange.replies, List.find?_cons_of_pos (by simpa using hne)]
        simp
  · rw [resultOf_of_again hall, find?_replies_of_again hall]
    simp

end Calls

/-! ## 5. What the two functions promise -/

/-- **The promise of `send_data_to_ps2_keyboard`**, over the exchanges `os` that it made: it changes
    nothing but the traffic, sends the byte one to three times (unless sending fails), again only
    after a resend, and returns no error exactly when nothing fails and the first reply that is no
    resend, among three, acknowledges. -/
structure Transmission (e : Ps2Env) (data : UInt8) (w : World) (r : KeyboardVerifiedResponse)
    (os : List Exchange) (w' : World) : Prop where
  exchanges : Exchanges e w.kps.activePort data w.io os w'.io
  frame : w' = { w with io := w'.io }
  sent : ∃ t ≤ maxResponseRepeat,
    sentBetween w w' = List.replicate t (w.kps.activePort, data) ∧ (.notSent ∉ os → 1 ≤ t)
  resent : ∀ os₁ o os₂, os = os₁ ++ o :: os₂ → os₁ ≠ [] → ∃ m, os₁ = m ++ [.reply krbResend]
  replies : ∃ replies, w'.io.responses = w.io.responses ++ replies ∧
    (r.err = .none ↔ (.notSent ∉ os ∧ .noReply ∉ os) ∧
      (replies.take maxResponseRepeat).find? (· ≠ krbResend) = some krbCommandAcknowledged)

/-- **The promise of `set_scan_code_set`**: with no error both bytes were acknowledged and `kps`
    has the new set; with an error `kps` is as before, and the number of the set was sent only after
    the command had been acknowledged. -/
structure ScanCodeSetChange (e : Ps2Env) (scanCodeSet : UInt8) (w : World) (err : KeyboardError)
    (w' : World) : Prop where
  changed : err = .none → ∃ os₁ io₁ os₂,
    Exchanges e w.kps.activePort KeyboardCommandByte.getSetScanCodeSet.value w.io os₁ io₁ ∧
    Acknowledged os₁ ∧
    Exchanges e w.kps.activePort scanCodeSet io₁ os₂ w'.io ∧ Acknowledged os₂ ∧
    w'.kps = { w.kps with activeScancodeSet := scanCodeSet }
  failed : err ≠ .none → w'.kps = w.kps ∧
    ((w.kps.activePort, scanCodeSet) ∈ sentBetween w w' → ∃ os₁ io₁ os₂,
      Exchanges e w.kps.activePort KeyboardCommandByte.getSetScanCodeSet.value w.io os₁ io₁ ∧
      Acknowledged os₁ ∧ Exchanges e w.kps.activePort scanCodeSet io₁ os₂ w'.io)

section Promises

variable {e : Ps2Env} {w w' : World} {data : UInt8} {os : List Exchange}

/-- A bounded retry of exchanges is what is promised. -/
theorem transmission_of_attempts (hs : Exchanges e w.kps.activePort data w.io os w'.io)
    (hframe : w' = { w with io := w'.io })
    (hatt : Attempts Exchange.Again maxResponseRepeat os) :
    Transmission e data w (resultOf os) os w' := by
  obtain ⟨t, ht, heq, hall⟩ := flatMap_transmitted w.kps.activePort data os
  have hlen : os.length ≤ maxResponseRepeat := hatt.length_le
  have hpos : 1 ≤ os.length := List.length_pos_iff_ne_nil.mpr hatt.ne_nil
  refine ⟨hs, hframe, ⟨t, ht.trans hlen, ?_, fun hn => ?_⟩, ?_, _, hs.responses, ?_⟩
  · rw [sentBetween_of_append hs.sent, heq]
  · rw [hall hn]
    exact hpos
  · intro os₁ o os₂ h hne
    obtain ⟨m, b, hm, hb⟩ := (h ▸ hatt).follows hne
    exact ⟨m, by rw [hm, hb]⟩
  · have hshort : (os.flatMap Exchange.replies).length ≤ maxResponseRepeat :=
      (length_replies_le os).trans hlen
    rw [List.take_of_length_le hshort, resultOf_err_iff hatt, acknowledged_iff hatt]

/-- **`send_data_to_ps2_keyboard` always returns, as promised.** -/
theorem sendDataToPs2Keyboard_transmission (data : UInt8) (e : Ps2Env) (w : World) :
    ∃ os w', sendDataToPs2Keyboard data e w = (.ok (resultOf os), w') ∧
      Transmission e data w (resultOf os) os w' ∧
      ((resultOf os).err = .none ↔ Acknowledged os) := by
  obtain ⟨os, io', hloop, hs, hatt⟩ := sendDataLoop_attempts data maxResponseRepeat e w
  exact ⟨os, _, hloop, transmission_of_attempts hs rfl hatt, resultOf_err_iff hatt⟩

/-- A byte that differs from `data` is not sent by a transmission of `data`. -/
theorem Transmission.not_sent {r : KeyboardVerifiedResponse} {b : UInt8}
    (h : Transmission e data w r os w') (hb : b ≠ data) :
    (w.kps.activePort, b) ∉ sentBetween w w' := by
  obtain ⟨t, -, heq, -⟩ := h.sent
  rw [heq]
  intro hmem
  exact hb (Prod.ext_iff.mp (List.eq_of_mem_replicate hmem)).2

/-- The check of the command byte always passes. -/
theorem sendCommandToPs2Keyboard_eq (command : KeyboardCommandByte) :
    sendCommandToPs2Keyboard command = sendDataToPs2Keyboard command.value := by
  cases command <;> rfl

/-- **A command with data** ends with the command byte's error, or goes on to the data once the
    command byte was acknowledged. -/
theorem sendCommandAndData_cases (command : KeyboardCommandByte) (data : UInt8) (e : Ps2Env)
    (w : World) :
    (∃ os w₁, Transmission e command.value w (resultOf os) os w₁ ∧ (resultOf os).err ≠ .none ∧
      sendCommandAndData command data e w = (.ok (resultOf os).err, w₁)) ∨
    (∃ os₁ w₁ os₂ w₂, Transmission e command.value w (resultOf os₁) os₁ w₁ ∧ Acknowledged os₁ ∧
      Transmission e data w₁ (resultOf os₂) os₂ w₂ ∧
      ((resultOf os₂).err = .none ↔ Acknowledged os₂) ∧
      sendCommandAndData command data e w = (.ok (resultOf os₂).err, w₂)) := by
  obtain ⟨os₁, w₁, hrun₁, ht₁, hack₁⟩ := sendDataToPs2Keyboard_transmission command.value e w
  rw [sendCommandAndData, sendCommandToPs2Keyboard_eq, bind_of_ok hrun₁]
  by_cases herr₁ : (resultOf os₁).err = .none
  · obtain ⟨os₂, w₂, hrun₂, ht₂, hack₂⟩ := sendDataToPs2Keyboard_transmission data e w₁
    refine .inr ⟨os₁, w₁, os₂, w₂, ht₁, hack₁.mp herr₁, ht₂, hack₂, ?_⟩
    rw [if_neg (not_not.mpr herr₁), bind_of_ok hrun₂]
    rfl
  · refine .inl ⟨os₁, w₁, ht₁, herr₁, ?_⟩
    rw [if_pos herr₁]
    rfl

theorem setScanCodeSet_of_valid {scanCodeSet : UInt8} (h1 : 1 ≤ scanCodeSet)
    (h3 : scanCodeSet ≤ 3) :
    setScanCodeSet scanCodeSet = (do
      let err ← sendCommandAndData .getSetScanCodeSet scanCodeSet
      if err ≠ .none then return err
      Prog.modify fun w => { w with kps := { w.kps with activeScancodeSet := scanCodeSet } }
      return .none) := by
  have hvalid : ¬ (scanCodeSet = 0 ∨ 3 < scanCodeSet) := by
    rintro (rfl | hlt)
    · exact absurd h1 (by decide)
    · exact absurd h3 (UInt8.not_le.mpr hlt)
  rw [setScanCodeSet, if_neg hvalid]

/-- **`set_scan_code_set` always returns, as promised.** -/
theorem setScanCodeSet_change {scanCodeSet : UInt8} (h1 : 1 ≤ scanCodeSet) (h3 : scanCodeSet ≤ 3)
    (e : Ps2Env) (w : World) :
    ∃ err w', setScanCodeSet scanCodeSet e w = (.ok err, w') ∧
      ScanCodeSetChange e scanCodeSet w err w' := by
  have hne : scanCodeSet ≠ KeyboardCommandByte.getSetScanCodeSet.value := by
    rintro rfl
    exact absurd h3 (by decide)
  rw [setScanCodeSet_of_valid h1 h3]
  rcases sendCommandAndData_cases .getSetScanCodeSet scanCodeSet e w with
    ⟨os₁, w₁, ht₁, herr, hrun⟩ | ⟨os₁, w₁, os₂, w₂, ht₁, hack₁, ht₂, hack₂, hrun⟩
  · rw [bind_of_ok hrun, if_pos herr]
    refine ⟨_, _, rfl, fun hn => absurd hn herr, fun _ => ⟨by rw [ht₁.frame], fun hsent => ?_⟩⟩
    exact absurd hsent (ht₁.not_sent hne)
  · have hkps₁ : w₁.kps = w.kps := by rw [ht₁.frame]
    have hkps₂ : w₂.kps = w.kps := by rw [ht₂.frame, hkps₁]
    have hs₂ := ht₂.exchanges
    rw [hkps₁] at hs₂
    rw [bind_of_ok hrun]
    by_cases herr₂ : (resultOf os₂).err = .none
    · rw [if_neg (not_not.mpr herr₂)]
      refine ⟨_, _, rfl, fun _ => ?_, fun hn => absurd rfl hn⟩
      exact ⟨os₁, w₁.io, os₂, ht₁.exchanges, hack₁, hs₂, hack₂.mp herr₂, by rw [← hkps₂]⟩
    · rw [if_pos herr₂]
      refine ⟨_, _, rfl, fun hn => absurd hn herr₂, fun _ => ⟨hkps₂, fun _ => ?_⟩⟩
      exact ⟨os₁, w₁.io, os₂, ht₁.exchanges, hack₁, hs₂⟩

/-- **Keyboard commands with their retries**: both functions return as promised, whatever the
    controller's statuses and the keyboard's replies are. -/
theorem keyboardCommands_retry (e : Ps2Env) (w : World) :
    (∀ data, ∃ r os w', sendDataToPs2Keyboard data e w = (.ok r, w') ∧
      Transmission e data w r os w') ∧
    ∀ scanCodeSet, 1 ≤ scanCodeSet → scanCodeSet ≤ 3 →
      ∃ err w', setScanCodeSet scanCodeSet e w = (.ok err, w') ∧
        ScanCodeSetChange e scanCodeSet w err w' := by
  constructor
  · intro data
    obtain ⟨os, w', hrun, ht, -⟩ := sendDataToPs2Keyboard_transmission data e w
    exact ⟨_, os, w', hrun, ht⟩
  · exact fun _ h1 h3 => setScanCodeSet_change h1 h3 e w

end Promises

/-- A controller and a keyboard that answer the reads with `l`. -/
def scriptedEnv (l : List UInt8) : Ps2Env where
  answers n := l.getD n 0
  qemu := false
  debug := false
  unassigned := .other 0

/-- The start, with the keyboard on `port`. -/
def World.withKeyboard (port : UInt8) : World :=
  (setSingleKeyboardPort port (scriptedEnv []) .start).2

/-- A keyboard that asks for the command byte again, then acknowledges it and the number. -/
theorem keyboardCommands_retry_resend :
    ((setScanCodeSet 1 (scriptedEnv [0, 1, 0xFE, 0, 1, 0xFA, 0, 1, 0xFA]) (.withKeyboard 1)).1 =
      .ok .none) ∧
    ∃ err w', setScanCodeSet 1 (scriptedEnv [0, 1, 0xFE, 0, 1, 0xFA, 0, 1, 0xFA])
        (.withKeyboard 1) = (.ok err, w') ∧
      ScanCodeSetChange (scriptedEnv [0, 1, 0xFE, 0, 1, 0xFA, 0, 1, 0xFA]) 1 (.withKeyboard 1)
        err w' :=
  ⟨by decide +kernel, (keyboardCommands_retry _ _).2 1 (by decide) (by decide)⟩

end MapleKernel.Drivers
