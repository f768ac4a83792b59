/-
  File:      Drivers/Ps2ControllerSpec.lean
  Subject:   WHAT THE PS/2 CONTROLLER CODE GUARANTEES, whatever the controller answers.

  * `Sending C P p` -- `p` always returns, with a result in `P`, and sends the devices only what
    meets `C`;
  * `resetPortAndGetDeviceType_agrees` -- the super type that is set while a device is identified
    is the one its type has;
  * `InitializeDeviceState.Consistent` -- what the consumers of the setup's result rely on;
  * `setupPs2Controller_consistent` -- the setup always returns, its result is consistent, and the
    devices are sent nothing but the reset byte;
  * `waitTillReadyForMoreInput_cases`, `waitTillReadyForResponse_cases` -- which answers let a wait
    succeed.
-/
import MapleKernel.Lib.Program
import MapleKernel.Drivers.Ps2Controller

namespace MapleKernel.Drivers

open Program

/-! ## 1. What the functions send -/

/-- What is sent to the devices between the two states meets `C`. -/
def Ps2Io.Sends (C : UInt8 × UInt8 → Prop) (io io' : Ps2Io) : Prop :=
  ∃ l, io'.sent = io.sent ++ l ∧ ∀ x ∈ l, C x

section Sends

variable {C : UInt8 × UInt8 → Prop}

theorem Ps2Io.Sends.of_sent_eq {io io' : Ps2Io} (h : io'.sent = io.sent) : io.Sends C io' :=
  ⟨[], by simp [h], by simp⟩

instance : IsPreorder Ps2Io (Ps2Io.Sends C) where
  refl _ := .of_sent_eq rfl
  trans := by
    intro io₁ io₂ io₃ h h'
    obtain ⟨l, hl, hC⟩ := h
    obtain ⟨l', hl', hC'⟩ := h'
    refine ⟨l ++ l', by rw [hl', hl, List.append_assoc], fun x hx => ?_⟩
    rcases List.mem_append.mp hx with hx | hx
    · exact hC x hx
    · exact hC' x hx

/-- The program always returns, with a result in `P`, and sends only what meets `C`. -/
abbrev Sending (C : UInt8 × UInt8 → Prop) {α : Type} (P : α → Prop) (p : Controller α) : Prop :=
  Keeps (Ps2Io.Sends C) P p

/-- The programs that may return anything. -/
abbrev Total (C : UInt8 × UInt8 → Prop) {α : Type} (p : Controller α) : Prop :=
  Sending C (fun _ => True) p

theorem total_readPs2Status : Total C readPs2Status :=
  fun _ _ => ⟨trivial, .of_sent_eq rfl⟩

theorem total_ps2RecieveRawResponse : Total C ps2RecieveRawResponse :=
  fun _ _ => ⟨trivial, .of_sent_eq rfl⟩

theorem total_outb {port : Ps2IoPort} {byte : UInt8} : Total C (outb port byte) :=
  fun _ _ => ⟨trivial, .of_sent_eq rfl⟩

theorem total_outbDevice {portNumber data : UInt8} (h : C (portNumber, data)) :
    Total C (outbDevice portNumber data) :=
  keeps_bind total_outb fun _ _ _ _ => ⟨trivial, [_], rfl, by simpa using h⟩

theorem total_waitLoop {ready : UInt8 → Bool} (n : Nat) : Total C (waitLoop ready n) := by
  induction n with
  | zero => exact keeps_pure trivial
  | succ n ih =>
      exact keeps_bind total_readPs2Status fun _ _ =>
        keeps_ite (fun _ => keeps_pure trivial) (fun _ => ih)

theorem total_waitTillReadyForMoreInput : Total C waitTillReadyForMoreInput := by
  refine keeps_bind (total_waitLoop _) fun status _ => ?_
  cases status with
  | none => exact keeps_pure trivial
  | some status =>
      refine keeps_ite (fun _ => keeps_pure trivial) fun _ => ?_
      exact keeps_ite (fun _ => keeps_pure trivial) fun _ => keeps_pure trivial

theorem total_waitTillReadyForResponse : Total C waitTillReadyForResponse := by
  refine keeps_bind (total_waitLoop _) fun status _ => ?_
  cases status <;> exact keeps_pure trivial

theorem total_sendCommandToPs2Controller {command : CommandByte} :
    Total C (sendCommandToPs2Controller command) :=
  keeps_check total_waitTillReadyForMoreInput (fun _ _ => trivial) fun _ =>
    keeps_bind total_outb fun _ _ => keeps_pure trivial

theorem total_sendCommandVerifiedResponse {verify : UInt8 → Ps2Error} {command : CommandByte} :
    Total C (sendCommandVerifiedResponse verify command) := by
  refine keeps_check total_sendCommandToPs2Controller (fun _ _ => trivial) fun _ => ?_
  refine keeps_check total_waitTillReadyForResponse (fun _ _ => trivial) fun _ => ?_
  exact keeps_bind total_ps2RecieveRawResponse fun _ _ => keeps_pure trivial

theorem total_ps2SetConfigurationByte {config : ConfigurationByte} :
    Total C (ps2SetConfigurationByte config) := by
  refine keeps_check total_sendCommandToPs2Controller (fun _ _ => trivial) fun _ => ?_
  refine keeps_check total_waitTillReadyForMoreInput (fun _ _ => trivial) fun _ => ?_
  exact keeps_bind total_outb fun _ _ => keeps_pure trivial

theorem total_sendCommandToFirstPs2Port {data : UInt8} (h : C (1, data)) :
    Total C (sendCommandToFirstPs2Port data) := by
  refine keeps_check total_waitTillReadyForMoreInput (fun _ _ => trivial) fun _ => ?_
  exact keeps_bind (total_outbDevice h) fun _ _ => keeps_pure trivial

theorem total_sendCommandToSecondPs2Port {data : UInt8} (h : C (2, data)) :
    Total C (sendCommandToSecondPs2Port data) := by
  refine keeps_check total_waitTillReadyForMoreInput (fun _ _ => trivial) fun _ => ?_
  refine keeps_bind total_outb fun _ _ => ?_
  refine keeps_check total_waitTillReadyForMoreInput (fun _ _ => trivial) fun _ => ?_
  exact keeps_bind (total_outbDevice h) fun _ _ => keeps_pure trivial

theorem total_sendCommandOrDataToPs2Port {portNumber data : UInt8} (h : C (portNumber, data)) :
    Total C (sendCommandOrDataToPs2Port portNumber data) := by
  refine keeps_ite (fun h1 => ?_) fun _ => keeps_ite (fun h2 => ?_) fun _ => keeps_pure trivial
  · exact total_sendCommandToFirstPs2Port (h1 ▸ h)
  · exact total_sendCommandToSecondPs2Port (h2 ▸ h)

end Sends

/-! ## 2. The result of the setup -/

/-- A keyboard or a mouse. -/
def DeviceSuperType.Known (s : DeviceSuperType) : Prop := s = .keyboard ∨ s = .mouse

/-- An identified device has a type, and the two ways to classify it agree. -/
def DeviceTypeVerified.Agrees (d : DeviceTypeVerified) : Prop :=
  d.err = .none → ∃ t, d.type = some t ∧ d.mouseOrKeyboard = some (getDeviceSuperType t) ∧
    (getDeviceSuperType t).Known

/-- **What the consumers of the result rely on.** -/
def InitializeDeviceState.Consistent (r : InitializeDeviceState) : Prop :=
  match r.ps2StateErr with
  | .none => ∃ t₁ t₂, r.portOneDeviceType = some t₁ ∧ r.portTwoDeviceType = some t₂ ∧
      (getDeviceSuperType t₁).Known ∧ (getDeviceSuperType t₂).Known ∧
      getDeviceSuperType t₁ ≠ getDeviceSuperType t₂
  | .twoKeyboard => ∃ t₁ t₂, r.portOneDeviceType = some t₁ ∧ r.portTwoDeviceType = some t₂ ∧
      getDeviceSuperType t₁ = .keyboard ∧ getDeviceSuperType t₂ = .keyboard
  | .twoMouse => ∃ t₁ t₂, r.portOneDeviceType = some t₁ ∧ r.portTwoDeviceType = some t₂ ∧
      getDeviceSuperType t₁ = .mouse ∧ getDeviceSuperType t₂ = .mouse
  | .noSecondPort => ∃ t₁, r.portOneDeviceType = some t₁ ∧ (getDeviceSuperType t₁).Known
  | _ => True

theorem agrees_failed {err : Ps2Error} (h : err ≠ .none) :
    (DeviceTypeVerified.failed err).Agrees := fun h' => absurd h' h

theorem agrees_ancientAtKeyboard :
    DeviceTypeVerified.Agrees ⟨.none, some .ancientAtKeyboard, some .keyboard⟩ :=
  fun _ => ⟨_, rfl, rfl, Or.inl rfl⟩

theorem agrees_len3Device (rep3 : UInt8) : (len3Device rep3).Agrees := by
  unfold len3Device
  split
  · exact fun _ => ⟨_, rfl, rfl, Or.inr rfl⟩
  · exact fun _ => ⟨_, rfl, rfl, Or.inr rfl⟩
  · exact fun _ => ⟨_, rfl, rfl, Or.inr rfl⟩
  · exact nofun

theorem agrees_len4Device (rep4 : UInt8) : (len4Device rep4).Agrees := by
  unfold len4Device
  split
  case h_12 => exact nofun
  all_goals exact fun _ => ⟨_, rfl, rfl, Or.inl rfl⟩

/-- Only resets are sent. -/
def OnlyResets (x : UInt8 × UInt8) : Prop := x.2 = ps2CbResetDevice

/-- **On every path of the identification the two classifications agree.** -/
theorem resetPortAndGetDeviceType_agrees (portNumber : UInt8) :
    Sending OnlyResets DeviceTypeVerified.Agrees (resetPortAndGetDeviceType portNumber) := by
  refine keeps_check (total_sendCommandOrDataToPs2Port rfl) (fun _ => agrees_failed) fun _ => ?_
  refine keeps_check total_waitTillReadyForResponse (fun _ => agrees_failed) fun _ => ?_
  refine keeps_check total_ps2RecieveRawResponse (fun _ _ => agrees_failed nofun) fun _ => ?_
  refine keeps_check total_waitTillReadyForResponse (fun _ => agrees_failed) fun _ => ?_
  refine keeps_check total_ps2RecieveRawResponse (fun _ _ => agrees_failed nofun) fun _ => ?_
  refine keeps_check total_waitTillReadyForResponse (fun _ _ => agrees_ancientAtKeyboard)
    fun _ => ?_
  refine keeps_check total_ps2RecieveRawResponse (fun rep3 _ => agrees_len3Device rep3)
    fun _ => ?_
  refine keeps_check total_waitTillReadyForResponse (fun _ => agrees_failed) fun _ => ?_
  exact keeps_bind total_ps2RecieveRawResponse fun rep4 _ => keeps_pure (agrees_len4Device rep4)

theorem total_setupConfiguration : Total OnlyResets setupConfiguration := by
  refine keeps_bind total_sendCommandVerifiedResponse fun vrCb _ => ?_
  refine keeps_bind keeps_ask fun e _ => ?_
  refine keeps_ite (fun _ => keeps_pure trivial) fun _ => ?_
  exact keeps_check total_ps2SetConfigurationByte (fun _ _ => trivial) fun _ => keeps_pure trivial

theorem total_setupSecondPort : Total OnlyResets setupSecondPort := by
  refine keeps_check total_sendCommandToPs2Controller (fun _ _ => trivial) fun _ => ?_
  refine keeps_check total_sendCommandVerifiedResponse (fun _ _ => trivial) fun vrCb => ?_
  refine keeps_check total_sendCommandToPs2Controller (fun _ _ => trivial) fun _ => ?_
  refine keeps_ite (fun _ => ?_) fun _ => keeps_pure trivial
  refine keeps_check total_sendCommandVerifiedResponse (fun _ _ => trivial) fun _ => ?_
  exact keeps_check total_ps2SetConfigurationByte (fun _ _ => trivial) fun _ => keeps_pure trivial

theorem total_setupEnableDevices : Total OnlyResets setupEnableDevices := by
  refine keeps_check total_sendCommandToPs2Controller (fun _ _ => trivial) fun _ => ?_
  refine keeps_check total_sendCommandToPs2Controller (fun _ _ => trivial) fun _ => ?_
  refine keeps_check total_sendCommandVerifiedResponse (fun _ _ => trivial) fun _ => ?_
  exact keeps_check total_ps2SetConfigurationByte (fun _ _ => trivial) fun _ => keeps_pure trivial

theorem consistent_couldNotInit (err : Ps2Error) :
    (InitializeDeviceState.couldNotInit err).Consistent := trivial

theorem setupInterfaceTests_consistent :
    Sending OnlyResets (fun r => ∀ s, r = some s → s.Consistent) setupInterfaceTests := by
  have hexit : ∀ r : InitializeDeviceState, r.Consistent → ∀ s, some r = some s → s.Consistent :=
    fun _ hr _ h => Option.some.inj h ▸ hr
  have hinit : ∀ err s, some (InitializeDeviceState.couldNotInit err) = some s → s.Consistent :=
    fun err => hexit _ (consistent_couldNotInit err)
  have hgo : ∀ s : InitializeDeviceState, none = some s → s.Consistent := by
    intro s h
    cases h
  refine keeps_check total_sendCommandVerifiedResponse (fun test _ => hinit test.err) fun _ => ?_
  refine keeps_ite (fun _ => keeps_pure (hexit _ trivial)) fun _ => ?_
  refine keeps_check total_sendCommandVerifiedResponse (fun test _ => hinit test.err) fun _ => ?_
  exact keeps_ite (fun _ => keeps_pure (hexit _ trivial)) fun _ => keeps_pure hgo

/-- The count of the two super types, read back from the types. -/
theorem consistent_counted {t₁ t₂ : DeviceType} (h₁ : (getDeviceSuperType t₁).Known)
    (h₂ : (getDeviceSuperType t₂).Known) :
    InitializeDeviceState.Consistent
      ⟨if [some (getDeviceSuperType t₁), some (getDeviceSuperType t₂)].count (some .keyboard) = 2
        then .twoKeyboard
        else if [some (getDeviceSuperType t₁), some (getDeviceSuperType t₂)].count (some .mouse) = 2
        then .twoMouse else .none, some .none, some t₁, some t₂⟩ := by
  rcases h₁ with h₁ | h₁ <;> rcases h₂ with h₂ | h₂ <;> rw [h₁, h₂] <;>
    exact ⟨t₁, t₂, rfl, rfl, by simp [DeviceSuperType.Known, h₁, h₂]⟩

theorem setupDevices_consistent (secondPortSupported : Bool) :
    Sending OnlyResets InitializeDeviceState.Consistent (setupDevices secondPortSupported) := by
  refine keeps_bind (resetPortAndGetDeviceType_agrees 1) fun device1 h1 => ?_
  refine keeps_ite (fun _ => keeps_pure trivial) fun herr1 => ?_
  obtain ⟨t₁, ht₁, hs₁, hk₁⟩ := h1 (not_not.mp herr1)
  have hknown : ∀ {d : DeviceTypeVerified} {t : DeviceType},
      d.mouseOrKeyboard = some (getDeviceSuperType t) → (getDeviceSuperType t).Known →
      ¬ (d.mouseOrKeyboard ≠ some .keyboard ∧ d.mouseOrKeyboard ≠ some .mouse) := by
    intro d t hs hk hne
    rcases hk with hk | hk
    · exact hne.1 (hs.trans (congrArg some hk))
    · exact hne.2 (hs.trans (congrArg some hk))
  refine keeps_ite (fun himp => absurd himp (hknown hs₁ hk₁)) fun _ => ?_
  refine keeps_ite (fun _ => keeps_pure ⟨t₁, ht₁, hk₁⟩) fun _ => ?_
  refine keeps_bind (resetPortAndGetDeviceType_agrees 2) fun device2 h2 => ?_
  refine keeps_ite (fun _ => keeps_pure trivial) fun herr2 => ?_
  obtain ⟨t₂, ht₂, hs₂, hk₂⟩ := h2 (not_not.mp herr2)
  refine keeps_ite (fun himp => absurd himp (hknown hs₂ hk₂)) fun _ => keeps_pure ?_
  rw [ht₁, ht₂, hs₁, hs₂]
  exact consistent_counted hk₁ hk₂

/-- **The setup always returns, with a consistent result, and resets are all it sends.** -/
theorem setupPs2Controller_consistent :
    Sending OnlyResets InitializeDeviceState.Consistent setupPs2Controller := by
  refine keeps_check total_sendCommandToPs2Controller
    (fun err _ => consistent_couldNotInit err) fun _ => ?_
  refine keeps_check total_sendCommandToPs2Controller
    (fun err _ => consistent_couldNotInit err) fun _ => ?_
  refine keeps_bind total_ps2RecieveRawResponse fun _ _ => ?_
  refine keeps_bind total_setupConfiguration fun exit5 _ => ?_
  cases exit5 with
  | some err => exact keeps_pure (consistent_couldNotInit err)
  | none =>
  refine keeps_check total_sendCommandVerifiedResponse
    (fun test _ => consistent_couldNotInit test.err) fun _ => ?_
  refine keeps_ite (fun _ => keeps_pure trivial) fun _ => ?_
  refine keeps_bind total_setupSecondPort fun second _ => ?_
  cases second with
  | error err => exact keeps_pure (consistent_couldNotInit err)
  | ok secondPortSupported =>
  refine keeps_bind setupInterfaceTests_consistent fun exit8 h8 => ?_
  cases exit8 with
  | some ret => exact keeps_pure (h8 ret rfl)
  | none =>
  refine keeps_bind total_setupEnableDevices fun exit9 _ => ?_
  cases exit9 with
  | some err => exact keeps_pure (consistent_couldNotInit err)
  | none => exact setupDevices_consistent secondPortSupported

/-! ## 3. The waits, exactly -/

/-- Of the answers from the `n`-th on, the one `k` later is the first ready one, and the loop of
    a wait gets there. -/
structure FirstReady (ready : UInt8 → Bool) (answers : Nat → UInt8) (n k : Nat) : Prop where
  lt : k < maxPs2WaitLoop
  before : ∀ i < k, ready (answers (n + i)) = false
  ready : ready (answers (n + k)) = true

theorem FirstReady.unique {ready : UInt8 → Bool} {answers : Nat → UInt8} {n k k' : Nat}
    (h : FirstReady ready answers n k) (h' : FirstReady ready answers n k') : k = k' := by
  rcases lt_trichotomy k k' with hlt | heq | hgt
  · exact absurd h.ready (by simp [h'.before k hlt])
  · exact heq
  · exact absurd h'.ready (by simp [h.before k' hgt])

/-- The controller takes a byte: its input buffer empties, with no error flag up. -/
structure TakesInput (answers : Nat → UInt8) (n k : Nat) : Prop where
  first : FirstReady isPs2ControllerReadyForMoreInput answers n k
  parity : ps2VerifyStatusParity (answers (n + k)) = true
  timeout : ps2VerifyStatusTimeout (answers (n + k)) = true

/-- The status values that a wait has seen when it fails with `err`. -/
def FailedWait (err : Ps2Error) (seen : List UInt8) : Prop :=
  match err with
  | .waitMaxIttIn =>
      seen.length = maxPs2WaitLoop ∧ ∀ s ∈ seen, isPs2ControllerReadyForMoreInput s = false
  | .waitMaxIttOut =>
      seen.length = maxPs2WaitLoop ∧ ∀ s ∈ seen, isPs2ControllerReadyForResponse s = false
  | .statusParity => ∃ init s, seen = init ++ [s] ∧
      (∀ t ∈ init, isPs2ControllerReadyForMoreInput t = false) ∧
      isPs2ControllerReadyForMoreInput s = true ∧ ps2VerifyStatusParity s = false
  | .statusTimeout => ∃ init s, seen = init ++ [s] ∧
      (∀ t ∈ init, isPs2ControllerReadyForMoreInput t = false) ∧
      isPs2ControllerReadyForMoreInput s = true ∧ ps2VerifyStatusTimeout s = false
  | _ => False

/-- The next `n` answers. -/
def seenFrom (answers : Nat → UInt8) (n k : Nat) : List UInt8 :=
  (List.range k).map fun i => answers (n + i)

@[simp] theorem length_seenFrom (answers : Nat → UInt8) (n k : Nat) :
    (seenFrom answers n k).length = k := by
  rw [seenFrom, List.length_map, List.length_range]

theorem mem_seenFrom {answers : Nat → UInt8} {n k : Nat} {s : UInt8} :
    s ∈ seenFrom answers n k ↔ ∃ i < k, answers (n + i) = s := by
  simp only [seenFrom, List.mem_map, List.mem_range]

theorem seenFrom_succ (answers : Nat → UInt8) (n k : Nat) :
    seenFrom answers n (k + 1) = seenFrom answers n k ++ [answers (n + k)] := by
  rw [seenFrom, List.range_succ, List.map_append]
  rfl

/-- The state after `n` more reads of the status. -/
def Ps2Io.afterStatus (io : Ps2Io) (answers : Nat → UInt8) (n : Nat) : Ps2Io :=
  { io with
    reads := io.reads + n
    log := io.log ++ (seenFrom answers io.reads n).map .status }

@[simp] theorem Ps2Io.reads_afterStatus (io : Ps2Io) (answers : Nat → UInt8) (n : Nat) :
    (io.afterStatus answers n).reads = io.reads + n := rfl

@[simp] theorem Ps2Io.sent_afterStatus (io : Ps2Io) (answers : Nat → UInt8) (n : Nat) :
    (io.afterStatus answers n).sent = io.sent := rfl

theorem Ps2Io.afterStatus_zero (io : Ps2Io) (answers : Nat → UInt8) :
    io.afterStatus answers 0 = io := by
  rw [Ps2Io.afterStatus, seenFrom, List.range_zero, List.map_nil, List.map_nil, List.append_nil]
  rfl

/-- One read, then `n`. -/
theorem Ps2Io.afterStatus_succ (io : Ps2Io) (answers : Nat → UInt8) (n : Nat) :
    io.afterStatus answers (n + 1) = (io.afterStatus answers 1).afterStatus answers n := by
  simp only [Ps2Io.afterStatus, seenFrom, List.range_succ_eq_map, List.map_cons, List.map_map,
    List.append_assoc, List.range_zero, List.map_nil, List.cons_append, List.nil_append,
    Nat.add_assoc, Nat.add_comm 1]
  congr 1

section Waits

variable {e : Ps2Env} {io : Ps2Io} {ready : UInt8 → Bool}

theorem waitLoop_succ (m : Nat) :
    waitLoop ready (m + 1) e io =
      if ready (e.answers io.reads) then
        (.ok (some (e.answers io.reads)), io.afterStatus e.answers 1)
      else waitLoop ready m e (io.afterStatus e.answers 1) := by
  have hread : readPs2Status e io = (.ok (e.answers io.reads), io.afterStatus e.answers 1) := rfl
  rw [waitLoop, bind_of_ok hread]
  split
  · rfl
  · rfl

theorem waitLoop_of_ready {m k : Nat} (hk : k < m)
    (hbefore : ∀ i < k, ready (e.answers (io.reads + i)) = false)
    (hready : ready (e.answers (io.reads + k)) = true) :
    waitLoop ready m e io =
      (.ok (some (e.answers (io.reads + k))), io.afterStatus e.answers (k + 1)) := by
  induction m generalizing io k with
  | zero => exact absurd hk (Nat.not_lt_zero k)
  | succ m ih =>
      rw [waitLoop_succ]
      cases k with
      | zero =>
          rw [Nat.add_zero] at hready
          rw [if_pos hready]
          rfl
      | succ k =>
          have h0 : ready (e.answers io.reads) = false := hbefore 0 (Nat.succ_pos k)
          rw [if_neg (by simp [h0]), ih (Nat.lt_of_succ_lt_succ hk)]
          · rw [← io.afterStatus_succ, Ps2Io.reads_afterStatus, Nat.add_assoc, Nat.add_comm 1]
          · intro i hi
            have := hbefore (i + 1) (Nat.succ_lt_succ hi)
            rwa [Nat.add_comm i, ← Nat.add_assoc] at this
          · rwa [Nat.add_comm k, ← Nat.add_assoc] at hready

theorem waitLoop_of_never {m : Nat} (h : ∀ i < m, ready (e.answers (io.reads + i)) = false) :
    waitLoop ready m e io = (.ok none, io.afterStatus e.answers m) := by
  induction m generalizing io with
  | zero => rw [io.afterStatus_zero]; rfl
  | succ m ih =>
      have h0 : ready (e.answers io.reads) = false := h 0 (Nat.succ_pos m)
      rw [waitLoop_succ, if_neg (by simp [h0]), ih]
      · rw [← io.afterStatus_succ]
      · intro i hi
        have := h (i + 1) (Nat.succ_lt_succ hi)
        rwa [Nat.add_comm i, ← Nat.add_assoc] at this

/-- The loop of a wait finds the first ready status, or there is none. -/
theorem waitLoop_cases (ready : UInt8 → Bool) (e : Ps2Env) (io : Ps2Io) :
    (∃ k, FirstReady ready e.answers io.reads k ∧
      waitLoop ready maxPs2WaitLoop e io =
        (.ok (some (e.answers (io.reads + k))), io.afterStatus e.answers (k + 1))) ∨
    (((∀ k, ¬ FirstReady ready e.answers io.reads k) ∧
        ∀ s ∈ seenFrom e.answers io.reads maxPs2WaitLoop, ready s = false) ∧
      waitLoop ready maxPs2WaitLoop e io =
        (.ok none, io.afterStatus e.answers maxPs2WaitLoop)) := by
  by_cases h : ∃ k, k < maxPs2WaitLoop ∧ ready (e.answers (io.reads + k)) = true
  · have hmin : ∀ i < Nat.find h, ready (e.answers (io.reads + i)) = false := by
      intro i hi
      have hnot := Nat.find_min h hi
      have hlt : i < maxPs2WaitLoop := hi.trans (Nat.find_spec h).1
      simpa [hlt] using hnot
    obtain ⟨hlt, hready⟩ := Nat.find_spec h
    exact Or.inl ⟨Nat.find h, ⟨hlt, hmin, hready⟩, waitLoop_of_ready hlt hmin hready⟩
  · have hnever : ∀ i < maxPs2WaitLoop, ready (e.answers (io.reads + i)) = false := by
      intro i hi
      by_contra hready
      exact h ⟨i, hi, by simpa using hready⟩
    refine Or.inr ⟨⟨fun k hk => h ⟨k, hk.lt, hk.ready⟩, fun s hs => ?_⟩, waitLoop_of_never hnever⟩
    obtain ⟨i, hi, rfl⟩ := mem_seenFrom.mp hs
    exact hnever i hi

theorem FirstReady.seen_false {n k : Nat} {answers : Nat → UInt8}
    (h : FirstReady ready answers n k) : ∀ s ∈ seenFrom answers n k, ready s = false := by
  intro s hs
  obtain ⟨i, hi, rfl⟩ := mem_seenFrom.mp hs
  exact h.before i hi

/-- **The wait before a byte is sent succeeds exactly when the controller takes it.** -/
theorem waitTillReadyForMoreInput_cases (e : Ps2Env) (io : Ps2Io) :
    (∃ k, TakesInput e.answers io.reads k ∧
      waitTillReadyForMoreInput e io = (.ok .none, io.afterStatus e.answers (k + 1))) ∨
    ((∀ k, ¬ TakesInput e.answers io.reads k) ∧ ∃ err n, err ≠ .none ∧
      FailedWait err (seenFrom e.answers io.reads n) ∧
      waitTillReadyForMoreInput e io = (.ok err, io.afterStatus e.answers n)) := by
  obtain ⟨k, hk, hloop⟩ | ⟨hnone, hloop⟩ :=
    waitLoop_cases isPs2ControllerReadyForMoreInput e io
  · by_cases hp : ps2VerifyStatusParity (e.answers (io.reads + k)) = true
    · by_cases ht : ps2VerifyStatusTimeout (e.answers (io.reads + k)) = true
      · refine Or.inl ⟨k, ⟨hk, hp, ht⟩, ?_⟩
        rw [waitTillReadyForMoreInput, bind_of_ok hloop]
        simp only [hp, ht]
        rfl
      · refine Or.inr ⟨fun k' h => ?_, .statusTimeout, k + 1, nofun,
          ⟨_, _, seenFrom_succ _ _ _, hk.seen_false, hk.ready, by simpa using ht⟩, ?_⟩
        · rw [hk.unique h.first] at ht
          exact ht h.timeout
        · rw [waitTillReadyForMoreInput, bind_of_ok hloop]
          simp only [hp, ht]
          rfl
    · refine Or.inr ⟨fun k' h => ?_, .statusParity, k + 1, nofun,
        ⟨_, _, seenFrom_succ _ _ _, hk.seen_false, hk.ready, by simpa using hp⟩, ?_⟩
      · rw [hk.unique h.first] at hp
        exact hp h.parity
      · rw [waitTillReadyForMoreInput, bind_of_ok hloop]
        simp only [hp]
        rfl
  · obtain ⟨hnone, hnever⟩ := hnone
    refine Or.inr ⟨fun k h => hnone k h.first, .waitMaxIttIn, maxPs2WaitLoop, nofun,
      ⟨length_seenFrom _ _ _, hnever⟩, ?_⟩
    rw [waitTillReadyForMoreInput, bind_of_ok hloop]
    rfl

/-- **The wait for a response succeeds exactly when one comes in time.** -/
theorem waitTillReadyForResponse_cases (e : Ps2Env) (io : Ps2Io) :
    (∃ k, FirstReady isPs2ControllerReadyForResponse e.answers io.reads k ∧
      waitTillReadyForResponse e io = (.ok .none, io.afterStatus e.answers (k + 1))) ∨
    (((∀ k, ¬ FirstReady isPs2ControllerReadyForResponse e.answers io.reads k) ∧
      FailedWait .waitMaxIttOut (seenFrom e.answers io.reads maxPs2WaitLoop)) ∧
      waitTillReadyForResponse e io = (.ok .waitMaxIttOut, io.afterStatus e.answers maxPs2WaitLoop)) := by
  rcases waitLoop_cases isPs2ControllerReadyForResponse e io with ⟨k, hk, hloop⟩ | ⟨hnone, hloop⟩
  · refine Or.inl ⟨k, hk, ?_⟩
    rw [waitTillReadyForResponse, bind_of_ok hloop]
    rfl
  · refine Or.inr ⟨⟨hnone.1, length_seenFrom _ _ _, hnone.2⟩, ?_⟩
    rw [waitTillReadyForResponse, bind_of_ok hloop]
    rfl

theorem wp_ps2RecieveRawResponse {Q : UInt8 → Ps2Io → Prop} {E : Ps2Halt → Ps2Io → Prop} :
    wp ps2RecieveRawResponse e io Q E ↔
      Q (e.answers io.reads) { io with
        reads := io.reads + 1
        responses := io.responses ++ [e.answers io.reads]
        log := io.log ++ [.response (e.answers io.reads)] } := Iff.rfl

/-- **A byte reaches the device on port two exactly when the controller takes both bytes of the
    command.** -/
theorem sendCommandToSecondPs2Port_cases (data : UInt8) (e : Ps2Env) (io : Ps2Io) :
    (∃ k₁ k₂ io', TakesInput e.answers io.reads k₁ ∧ TakesInput e.answers (io.reads + k₁ + 1) k₂ ∧
      sendCommandToSecondPs2Port data e io = (.ok .none, io') ∧
      io'.reads = io.reads + k₁ + 1 + k₂ + 1 ∧ io'.sent = io.sent ++ [(2, data)]) ∨
    ((∀ k₁ k₂, TakesInput e.answers io.reads k₁ →
        ¬ TakesInput e.answers (io.reads + k₁ + 1) k₂) ∧
      ∃ err io', sendCommandToSecondPs2Port data e io = (.ok err, io') ∧ io'.sent = io.sent) := by
  rcases waitTillReadyForMoreInput_cases e io with ⟨k₁, hk₁, hwait₁⟩ | ⟨hnone, err, n, herr, -, hwait₁⟩
  · -- the first byte is out; the second wait starts one read later
    obtain ⟨io₁, hout, hreads, hsent⟩ : ∃ io₁,
        outb .command CommandByte.writeNextByteToSecondPs2InputBuffer.value e
          (io.afterStatus e.answers (k₁ + 1)) = (.ok (), io₁) ∧
        io₁.reads = io.reads + k₁ + 1 ∧ io₁.sent = io.sent := ⟨_, rfl, rfl, rfl⟩
    have hfirst : sendCommandToSecondPs2Port data e io =
        (waitTillReadyForMoreInput >>= fun err =>
          if err ≠ .none then pure err
          else outbDevice 2 data >>= fun _ => pure .none) e io₁ := by
      rw [sendCommandToSecondPs2Port, bind_of_ok hwait₁, if_neg (by simp), bind_of_ok hout]
    obtain ⟨k₂, hk₂, hwait₂⟩ | ⟨hnone, err, n, herr, -, hwait₂⟩ :=
      waitTillReadyForMoreInput_cases e io₁
    · rw [hreads] at hk₂
      obtain ⟨io₂, hdevice, hreads₂, hsent₂⟩ : ∃ io₂,
          outbDevice 2 data e (io₁.afterStatus e.answers (k₂ + 1)) = (.ok (), io₂) ∧
          io₂.reads = io₁.reads + k₂ + 1 ∧ io₂.sent = io₁.sent ++ [(2, data)] :=
        ⟨_, rfl, rfl, rfl⟩
      refine Or.inl ⟨k₁, k₂, io₂, hk₁, hk₂, ?_, hreads ▸ hreads₂, hsent ▸ hsent₂⟩
      rw [hfirst, bind_of_ok hwait₂, if_neg (by simp), bind_of_ok hdevice]
      rfl
    · refine Or.inr ⟨fun k₁' k₂ h₁ h₂ => ?_, err, io₁.afterStatus e.answers n, ?_, hsent⟩
      · rw [← hk₁.first.unique h₁.first, ← hreads] at h₂
        exact hnone k₂ h₂
      · rw [hfirst, bind_of_ok hwait₂, if_pos herr]
        rfl
  · refine Or.inr ⟨fun k₁ _ h₁ => absurd h₁ (hnone k₁), err, io.afterStatus e.answers n, ?_, rfl⟩
    rw [sendCommandToSecondPs2Port, bind_of_ok hwait₁, if_pos herr]
    rfl

end Waits

end MapleKernel.Drivers
