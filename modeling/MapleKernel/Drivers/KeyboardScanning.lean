/-
  File:      Drivers/KeyboardScanning.lean
  Subject:   THE KEYBOARD WHILE IT IS SET UP (`ps2_keyboard.c`): which bytes `setup_keyboard` reads
             from a keyboard whose user may press keys at any moment.

  The keyboard is a device with a buffer: it acknowledges every command byte, and puts the
  scancodes of the keys behind the acknowledgements while it scans. `disable_keyboard` is meant to
  stop the scanning, but `disable_scanning` sends the byte that starts it.

  * `KeyboardDevice` -- the device, `BusEvent` what happens between it and the driver;
  * `Turns` -- the driver sends a byte and reads once before it sends the next one;
  * `setupCommands_talks` -- the commands between `disable_keyboard` and `enable_keyboard` do so;
  * `repliesOnly_iff` -- all bytes read are replies to the command just sent exactly when no
    scancode is in the buffer, and no key is pressed, before a command byte whose reply is read.
-/
import MapleKernel.Lib.Run
import MapleKernel.Drivers.KeyboardMask

namespace MapleKernel.Drivers

open Program Runs Retry

/-! ## 1. The device -/

/-- A byte in the output buffer. -/
inductive BufferByte where
  | acknowledge
  | scancode (code : UInt8)
  deriving DecidableEq, Repr

def BufferByte.value : BufferByte → UInt8
  | .acknowledge => krbCommandAcknowledged
  | .scancode code => code

/-- The keyboard and the output buffer of the controller, first byte first. -/
structure KeyboardDevice where
  scanning : Bool
  buffer : List BufferByte
  deriving DecidableEq, Repr

/-- A key that the user presses or releases, or an access of the driver to a port. -/
inductive BusEvent where
  | key (code : UInt8)
  | access (a : PortEvent)
  deriving DecidableEq, Repr

def kcbEnableScanning : UInt8 := 0xF4
def kcbDisableScanning : UInt8 := 0xF5

namespace KeyboardDevice

/-- A byte arrives from the driver. Both scanning commands have no data. -/
def receive (k : KeyboardDevice) (data : UInt8) : KeyboardDevice where
  scanning :=
    if data = kcbEnableScanning then true
    else if data = kcbDisableScanning then false
    else k.scanning
  buffer := k.buffer ++ [.acknowledge]

def step (k : KeyboardDevice) : BusEvent → KeyboardDevice
  | .key code => if k.scanning then { k with buffer := k.buffer ++ [.scancode code] } else k
  | .access (.write ⟨.data, data⟩) => k.receive data
  | .access (.write ⟨.command, _⟩) => k
  | .access (.status _) => k
  | .access (.response _) => { k with buffer := k.buffer.tail }

/-- What the driver reads is what the device has: a status that announces a byte does so rightly,
    and the byte is the first of the buffer. -/
def Answers (k : KeyboardDevice) : BusEvent → Prop
  | .access (.status s) => isPs2ControllerReadyForResponse s = true → k.buffer ≠ []
  | .access (.response v) => k.buffer.head?.map BufferByte.value = some v
  | _ => True

instance (k : KeyboardDevice) : DecidablePred k.Answers := by
  intro ev
  unfold Answers
  split <;> infer_instance

/-- The byte read next is the acknowledgement of the byte sent last: each byte is acknowledged
    once, in order. -/
def NextReplies (k : KeyboardDevice) : Prop :=
  k.buffer.head? = some .acknowledge ∧ .acknowledge ∉ k.buffer.tail

end KeyboardDevice

/-- The accesses of the driver. -/
def accesses (evs : List BusEvent) : List PortEvent :=
  evs.filterMap fun
    | .key _ => none
    | .access a => some a

/-- The driver went from `io` to `io'` while `evs` happened to the keyboard `k`. -/
structure KeyboardDevice.Meets (k : KeyboardDevice) (evs : List BusEvent) (io io' : Ps2Io) :
    Prop where
  log : io'.log = io.log ++ accesses evs
  answers : Guarded KeyboardDevice.step KeyboardDevice.Answers k evs

/-- A read takes the reply. -/
def KeyboardDevice.ReadsReply (k : KeyboardDevice) : BusEvent → Prop
  | .access (.response _) => k.NextReplies
  | _ => True

instance (k : KeyboardDevice) : DecidablePred k.ReadsReply := by
  intro ev
  unfold KeyboardDevice.ReadsReply KeyboardDevice.NextReplies
  split <;> infer_instance

/-- **Every byte that is read is a reply to the byte just sent**, and no scancode. -/
def KeyboardDevice.RepliesOnly (k : KeyboardDevice) (evs : List BusEvent) : Prop :=
  Guarded KeyboardDevice.step KeyboardDevice.ReadsReply k evs

instance (k : KeyboardDevice) (evs : List BusEvent) : Decidable (k.RepliesOnly evs) :=
  inferInstanceAs (Decidable (Guarded KeyboardDevice.step KeyboardDevice.ReadsReply k evs))

/-- Before a command byte whose reply is read the buffer was empty at first, and no key is
    pressed. -/
def KeyboardDevice.NoKeyBefore (k : KeyboardDevice) (evs : List BusEvent) : Prop :=
  ∀ l₁ data l₂ v l₃,
    evs = l₁ ++ .access (.write ⟨.data, data⟩) :: (l₂ ++ .access (.response v) :: l₃) →
    k.buffer = [] ∧ ∀ code, .key code ∉ l₁

/-! ## 2. Turns -/

/-- Neither a byte for the keyboard nor the read of one. -/
def BusEvent.Passive : BusEvent → Prop
  | .key _ => True
  | .access a => a.Idle

/-- **The driver sends and reads in turns**; the flag says that a reply is to come. -/
inductive Turns : Bool → List BusEvent → Bool → Prop where
  | nil (p : Bool) : Turns p [] p
  | passive {p p' : Bool} {ev : BusEvent} {evs : List BusEvent} (h : ev.Passive)
      (hs : Turns p evs p') : Turns p (ev :: evs) p'
  | send {p' : Bool} {evs : List BusEvent} (data : UInt8) (hs : Turns true evs p') :
      Turns false (.access (.write ⟨.data, data⟩) :: evs) p'
  | read {p' : Bool} {evs : List BusEvent} (v : UInt8) (hs : Turns false evs p') :
      Turns true (.access (.response v) :: evs) p'

section Turns

variable {p p' p'' : Bool} {evs evs' : List BusEvent}

theorem Turns.append (h : Turns p evs p') (h' : Turns p' evs' p'') : Turns p (evs ++ evs') p'' := by
  induction h with
  | nil => exact h'
  | passive hev _ ih => exact .passive hev (ih h')
  | send data _ ih => exact .send data (ih h')
  | read v _ ih => exact .read v (ih h')

/-- What happens in turns does so up to any point. -/
theorem Turns.split (h : Turns p (evs ++ evs') p'') : ∃ p', Turns p evs p' ∧ Turns p' evs' p'' := by
  induction evs generalizing p with
  | nil => exact ⟨p, .nil p, h⟩
  | cons ev evs ih =>
      cases h with
      | passive hev hs =>
          obtain ⟨p', h₁, h₂⟩ := ih hs
          exact ⟨p', .passive hev h₁, h₂⟩
      | send data hs =>
          obtain ⟨p', h₁, h₂⟩ := ih hs
          exact ⟨p', .send data h₁, h₂⟩
      | read v hs =>
          obtain ⟨p', h₁, h₂⟩ := ih hs
          exact ⟨p', .read v h₁, h₂⟩

theorem turns_of_passive (h : ∀ ev ∈ evs, ev.Passive) (p : Bool) : Turns p evs p := by
  induction evs with
  | nil => exact .nil p
  | cons ev evs ih =>
      obtain ⟨hev, hevs⟩ := List.forall_mem_cons.mp h
      exact .passive hev (ih hevs)

/-- A byte is sent when no reply is to come. -/
theorem Turns.send_inv {data : UInt8} (h : Turns p (.access (.write ⟨.data, data⟩) :: evs) p') :
    p = false ∧ Turns true evs p' := by
  cases h with
  | passive hev hs => cases hev
  | send data hs => exact ⟨rfl, hs⟩

/-- A byte is read when a reply is to come. -/
theorem Turns.read_inv {v : UInt8} (h : Turns p (.access (.response v) :: evs) p') :
    p = true ∧ Turns false evs p' := by
  cases h with
  | passive hev hs => exact hev.elim
  | read v hs => exact ⟨rfl, hs⟩

/-- Keys do not change the driver's turns. -/
theorem Turns.of_accesses (h : Turns p ((accesses evs).map .access) p') : Turns p evs p' := by
  induction evs generalizing p with
  | nil => exact h
  | cons ev evs ih =>
      cases ev with
      | key code => exact .passive trivial (ih h)
      | access a =>
          have h : Turns p (.access a :: (accesses evs).map .access) p' := h
          cases h with
          | passive hev hs => exact .passive hev (ih hs)
          | send data hs => exact .send data (ih hs)
          | read v hs => exact .read v (ih hs)

/-- **While a reply is to come, the byte it answers was sent, and nothing since.** -/
theorem Turns.sent (h : Turns false evs true) : ∃ l₁ data l₂,
    evs = l₁ ++ .access (.write ⟨.data, data⟩) :: l₂ ∧ Turns false l₁ false ∧
      ∀ ev ∈ l₂, ev.Passive := by
  induction evs using List.reverseRecOn with
  | nil => cases h
  | append_singleton evs ev ih =>
      obtain ⟨p, h₁, h₂⟩ := h.split
      cases h₂ with
      | passive hev hs =>
          cases hs
          obtain ⟨l₁, data, l₂, rfl, ht, hl₂⟩ := ih h₁
          refine ⟨l₁, data, l₂ ++ [ev], by rw [List.append_assoc, List.cons_append], ht, ?_⟩
          intro x hx
          rcases List.mem_append.mp hx with hx | hx
          · exact hl₂ x hx
          · exact List.mem_singleton.mp hx ▸ hev
      | send data hs => exact ⟨evs, data, [], rfl, h₁, fun _ hx => absurd hx List.not_mem_nil⟩
      | read v hs => cases hs

end Turns

/-! ## 3. The buffer -/

/-- The driver does not send the byte that stops the scanning. -/
def NeverStops (evs : List BusEvent) : Prop :=
  ∀ data, .access (.write ⟨.data, data⟩) ∈ evs → data ≠ kcbDisableScanning

section Buffer

variable {k : KeyboardDevice} {p p' : Bool} {evs : List BusEvent}

open KeyboardDevice

theorem step_idle {a : PortEvent} (h : a.Idle) : k.step (.access a) = k := by
  cases a with
  | status => rfl
  | response => exact h.elim
  | write w =>
      obtain ⟨port, byte⟩ := w
      obtain rfl : port = .command := h
      rfl

theorem step_key_of_scanning {code : UInt8} (h : k.scanning = true) :
    k.step (.key code) = { k with buffer := k.buffer ++ [.scancode code] } :=
  if_pos h

/-- What happens passively adds scancodes behind the buffer, if anything. -/
theorem step_passive_buffer {ev : BusEvent} (h : ev.Passive) :
    (k.step ev).buffer = k.buffer ∨
      ∃ code, (k.step ev).buffer = k.buffer ++ [.scancode code] := by
  cases ev with
  | access a => exact .inl (by rw [step_idle h])
  | key code =>
      by_cases hs : k.scanning = true
      · exact .inr ⟨code, by rw [step_key_of_scanning hs]⟩
      · exact .inl (congrArg KeyboardDevice.buffer (if_neg hs))

/-- The buffer holds the reply that is to come and `c` bytes more, and goes on to do so. -/
theorem Turns.le_length {c : Nat} (h : Turns p evs p') (hk : p.toNat + c ≤ k.buffer.length) :
    p'.toNat + c ≤ (run step k evs).buffer.length := by
  induction h generalizing k with
  | nil => exact hk
  | passive hev _ ih =>
      refine ih (hk.trans ?_)
      rcases step_passive_buffer (k := k) hev with heq | ⟨code, heq⟩
      · rw [heq]
      · rw [heq, List.length_append]
        exact Nat.le_add_right _ _
  | send data _ ih =>
      refine ih ?_
      show 1 + c ≤ (k.buffer ++ [_]).length
      rw [List.length_append, List.length_singleton]
      simp only [Bool.toNat_false] at hk
      omega
  | read v _ ih =>
      refine ih ?_
      show 0 + c ≤ k.buffer.tail.length
      rw [List.length_tail]
      simp only [Bool.toNat_true] at hk
      omega

/-- Without keys the buffer holds the reply that is to come, and nothing else. -/
theorem Turns.buffer_of_no_key (h : Turns p evs p') (hkey : ∀ code, .key code ∉ evs)
    (hk : k.buffer = if p then [.acknowledge] else []) :
    (run step k evs).buffer = if p' then [.acknowledge] else [] := by
  induction h generalizing k with
  | nil => exact hk
  | @passive p p' ev evs hev _ ih =>
      refine ih (fun code hmem => hkey code (List.mem_cons_of_mem _ hmem)) ?_
      cases ev with
      | key code => exact absurd List.mem_cons_self (hkey code)
      | access a => rw [step_idle hev, hk]
  | send data _ ih =>
      refine ih (fun code hmem => hkey code (List.mem_cons_of_mem _ hmem)) ?_
      show k.buffer ++ [_] = _
      rw [hk]
      rfl
  | read v _ ih =>
      refine ih (fun code hmem => hkey code (List.mem_cons_of_mem _ hmem)) ?_
      show k.buffer.tail = _
      rw [hk]
      rfl

/-- Behind the reply that is to come scancodes do no harm. -/
theorem nextReplies_of_passive (h : ∀ ev ∈ evs, ev.Passive) (hk : k.NextReplies) :
    (run step k evs).NextReplies := by
  induction evs generalizing k with
  | nil => exact hk
  | cons ev evs ih =>
      obtain ⟨hev, hevs⟩ := List.forall_mem_cons.mp h
      refine ih hevs ?_
      obtain ⟨hhead, htail⟩ := hk
      rcases step_passive_buffer (k := k) hev with heq | ⟨code, heq⟩
      · exact ⟨by rw [heq, hhead], by rw [heq]; exact htail⟩
      · obtain ⟨rest, hrest⟩ := List.head?_eq_some_iff.mp hhead
        rw [hrest] at heq htail
        refine ⟨by rw [heq]; rfl, ?_⟩
        rw [heq]
        intro hmem
        rcases List.mem_append.mp hmem with hmem | hmem
        · exact htail hmem
        · cases List.mem_singleton.mp hmem

/-- **With a byte in front of the reply that is to come, the next byte read is not the reply.** -/
theorem not_repliesOnly_of_tail (h : Turns true evs p') (hk : .acknowledge ∈ k.buffer.tail)
    {v : UInt8} (hv : .access (.response v) ∈ evs) : ¬ k.RepliesOnly evs := by
  induction evs generalizing k with
  | nil => exact absurd hv List.not_mem_nil
  | cons ev evs ih =>
      intro hreplies
      cases h with
      | passive hev hs =>
          refine ih hs ?_ ?_ hreplies.2
          · rcases step_passive_buffer (k := k) hev with heq | ⟨code, heq⟩
            · rw [heq]
              exact hk
            · rw [heq, List.tail_append_of_ne_nil fun hnil => by rw [hnil] at hk; cases hk]
              exact List.mem_append_left _ hk
          · refine (List.mem_cons.mp hv).resolve_left fun heq => ?_
            rw [← heq] at hev
            exact hev
      | read w hs => exact hreplies.1.2 hk

/-- The keyboard scans on while it is not told to stop. -/
theorem run_scanning (h : NeverStops evs) (hk : k.scanning = true) :
    (run step k evs).scanning = true := by
  induction evs generalizing k with
  | nil => exact hk
  | cons ev evs ih =>
      refine ih (fun data hmem => h data (List.mem_cons_of_mem _ hmem)) ?_
      rcases ev with code | (s | v | ⟨port, data⟩)
      · rw [step_key_of_scanning hk]
        exact hk
      · exact hk
      · exact hk
      · cases port with
        | command => exact hk
        | data =>
            show (if _ then _ else if _ then _ else k.scanning) = true
            rw [if_neg (h data List.mem_cons_self), hk, ite_self]

/-- A key pressed in time, or a byte that is there already, is still there when a byte is sent. -/
theorem buffer_ne_nil (ht : Turns false evs false) (hscan : k.scanning = true)
    (hstop : NeverStops evs) (h : k.buffer ≠ [] ∨ ∃ code, .key code ∈ evs) :
    (run step k evs).buffer ≠ [] := by
  rw [← List.length_pos_iff_ne_nil]
  rcases h with hbuffer | ⟨code, hkey⟩
  · have hk : false.toNat + 1 ≤ k.buffer.length := List.length_pos_iff_ne_nil.mpr hbuffer
    exact ht.le_length hk
  · obtain ⟨a, b, rfl⟩ := List.append_of_mem hkey
    obtain ⟨q, hta, htb⟩ := ht.split
    have hq : q.toNat + 0 ≤ (run step k a).buffer.length := hta.le_length (Nat.zero_le _)
    have hscan₁ : (run step k a).scanning = true :=
      run_scanning (fun data hmem => hstop data (List.mem_append_left _ hmem)) hscan
    rw [run_append, run_cons, step_key_of_scanning hscan₁]
    cases htb with
    | passive _ hs =>
        refine hs.le_length (c := 1) ?_
        rw [List.length_append, List.length_singleton]
        exact Nat.succ_le_succ hq

/-- **A driver that takes turns with a keyboard that scans** reads nothing but replies exactly when
    no scancode is in time to come before one. -/
theorem repliesOnly_iff_noKeyBefore (ht : Turns false evs p') (hscan : k.scanning = true)
    (hstop : NeverStops evs) : k.RepliesOnly evs ↔ k.NoKeyBefore evs := by
  constructor
  · intro h l₁ data l₂ v l₃ heq
    rw [heq] at h ht
    obtain ⟨q, ht₁, ht₂⟩ := ht.split
    obtain ⟨rfl, ht₃⟩ := ht₂.send_inv
    have hempty : (run step k l₁).buffer = [] := by
      by_contra hne
      refine not_repliesOnly_of_tail ht₃ ?_ (List.mem_append_right _ List.mem_cons_self)
        (guarded_append.mp h).2.2
      show BufferByte.acknowledge ∈ ((run step k l₁).buffer ++ [BufferByte.acknowledge]).tail
      rw [List.tail_append_of_ne_nil hne]
      exact List.mem_append_right _ (List.mem_singleton.mpr rfl)
    have hstop₁ : NeverStops l₁ := fun d hmem => hstop d (heq ▸ List.mem_append_left _ hmem)
    by_contra hnot
    refine buffer_ne_nil ht₁ hscan hstop₁ ?_ hempty
    by_cases hbuffer : k.buffer = []
    · right
      by_contra hkey
      exact hnot ⟨hbuffer, fun code hmem => hkey ⟨code, hmem⟩⟩
    · exact .inl hbuffer
  · intro h
    refine guarded_iff_forall.mpr fun l₁ ev l₂ heq => ?_
    rcases ev with code | (s | v | wr)
    · trivial
    · trivial
    rotate_left 1
    · trivial
    rw [heq] at ht
    obtain ⟨q, ht₁, ht₂⟩ := ht.split
    obtain ⟨rfl, -⟩ := ht₂.read_inv
    obtain ⟨m, data, n, rfl, htm, hn⟩ := ht₁.sent
    obtain ⟨hbuffer, hkey⟩ := h m data n v l₂ (by rw [heq, List.append_assoc, List.cons_append])
    have hm : (run step k m).buffer = [] := htm.buffer_of_no_key hkey hbuffer
    rw [run_append, run_cons]
    refine nextReplies_of_passive hn ?_
    show ((run step k m).buffer ++ [_]).head? = _ ∧ _ ∉ ((run step k m).buffer ++ [_]).tail
    rw [hm]
    exact ⟨rfl, List.not_mem_nil⟩

end Buffer

/-! ## 4. The driver takes turns -/

/-- The driver went from `io` to `io'` in turns, with bytes in `C`; the flag says that a reply is
    still to come. -/
def Talks (C : UInt8 → Prop) (p : Bool) (io io' : Ps2Io) : Prop :=
  ∃ l, io'.log = io.log ++ l ∧ Turns false (l.map .access) p ∧
    ∀ data, .write ⟨.data, data⟩ ∈ l → C data

section Talks

variable {C C' : UInt8 → Prop} {p : Bool} {io io₁ io' : Ps2Io} {e : Ps2Env}

theorem talks_of_log_eq (h : io'.log = io.log) : Talks C false io io' :=
  ⟨[], by rw [h, List.append_nil], .nil false, fun _ hmem => absurd hmem List.not_mem_nil⟩

theorem Talks.trans (h : Talks C false io io₁) (h' : Talks C p io₁ io') : Talks C p io io' := by
  obtain ⟨l, hl, ht, hC⟩ := h
  obtain ⟨l', hl', ht', hC'⟩ := h'
  refine ⟨l ++ l', by rw [hl', hl, List.append_assoc], ?_, fun data hmem => ?_⟩
  · rw [List.map_append]
    exact ht.append ht'
  · exact (List.mem_append.mp hmem).elim (hC data) (hC' data)

theorem Talks.imp (h : Talks C p io io') (hC : ∀ data, C data → C' data) : Talks C' p io io' := by
  obtain ⟨l, hl, ht, hl'⟩ := h
  exact ⟨l, hl, ht, fun data hmem => hC data (hl' data hmem)⟩

theorem turns_of_idle {l : List PortEvent} (h : ∀ x ∈ l, x.Idle) (p : Bool) :
    Turns p (l.map .access) p := by
  refine turns_of_passive (fun ev hev => ?_) p
  obtain ⟨x, hx, rfl⟩ := List.mem_map.mp hev
  exact h x hx

theorem not_mem_of_idle {l : List PortEvent} (h : ∀ x ∈ l, x.Idle) (data : UInt8) :
    .write ⟨.data, data⟩ ∉ l := by
  intro hmem
  cases h _ hmem

/-- **An exchange is one turn**; without a reply it stops in the middle. -/
theorem Exchange.Shows.talks {o : Exchange} {port data : UInt8} (h : o.Shows port data io io') :
    Talks (· = data) (decide (o = .noReply)) io io' := by
  obtain ⟨l, wait, hlog, hl, hwait⟩ := h.log
  refine ⟨_, hlog, ?_, fun d hmem => ?_⟩
  · rw [List.map_append]
    refine (turns_of_idle hl false).append ?_
    cases o with
    | notSent => exact .nil false
    | noReply => exact .send data (turns_of_idle hwait true)
    | reply response =>
        refine .send data ?_
        rw [List.map_append]
        exact (turns_of_idle hwait true).append (.read response (.nil false))
  · rcases List.mem_append.mp hmem with hmem | hmem
    · exact absurd hmem (not_mem_of_idle hl d)
    · cases o with
      | notSent => exact absurd hmem List.not_mem_nil
      | noReply =>
          rcases List.mem_cons.mp hmem with heq | hmem
          · cases heq
            rfl
          · exact absurd hmem (not_mem_of_idle hwait d)
      | reply response =>
          rcases List.mem_cons.mp hmem with heq | hmem
          · cases heq
            rfl
          rcases List.mem_append.mp hmem with hmem | hmem
          · exact absurd hmem (not_mem_of_idle hwait d)
          · cases List.mem_singleton.mp hmem

theorem exchanges_talks {port data : UInt8} {n : Nat} {os : List Exchange}
    (hs : Exchanges e port data io os io') (hatt : Attempts Exchange.Again n os) :
    Talks (· = data) (decide (.noReply ∈ os)) io io' := by
  induction hs generalizing n with
  | nil => exact talks_of_log_eq rfl
  | @cons io io₁ io₂ o os hex hs ih =>
      have hturn := (Exchange.shows_of_ok hex).talks
      cases hatt with
      | ends h =>
          cases hs
          rw [decide_eq_decide.mpr (List.mem_singleton.trans eq_comm)]
          exact hturn
      | another h hatt =>
          have ho : o ≠ .noReply := by
            rw [h]
            exact nofun
          rw [decide_eq_false ho] at hturn
          rw [decide_eq_decide.mpr (List.mem_cons.trans (or_iff_right (Ne.symm ho)))]
          exact hturn.trans (ih hatt)

end Talks

/-- The program returns; it talks to the keyboard in turns, with bytes in `C`, and no reply is left
    to come where its result is good. -/
def Talking (C : UInt8 → Prop) {α : Type} (good : α → Prop) (p : Kernel α) : Prop :=
  ∀ e w, wp p e w (fun a w' => ∃ b, Talks C b w.io w'.io ∧ (good a → b = false)) fun _ _ => False

section Talking

variable {C : UInt8 → Prop} {α β : Type} {good : α → Prop}

theorem talking_pure {a : α} : Talking C good (pure a) :=
  fun _ _ => ⟨false, talks_of_log_eq rfl, fun _ => rfl⟩

theorem talking_bind {p : Kernel β} {f : β → Kernel α} (hp : Talking C (fun _ => True) p)
    (hf : ∀ b, Talking C good (f b)) : Talking C good (p >>= f) := by
  intro e w
  rw [wp_bind]
  refine wp_mono (hp e w) ?_ fun _ _ h => h
  intro b w₁ h
  obtain ⟨flag, h₁, hflag⟩ := h
  obtain rfl := hflag trivial
  refine wp_mono (hf b e w₁) ?_ fun _ _ h => h
  intro a w₂ h
  obtain ⟨flag, h₂, hflag⟩ := h
  exact ⟨flag, h₁.trans h₂, hflag⟩

/-- The early exit: a result that ends the program is not a good one. -/
theorem talking_check {p : Kernel β} {c : β → Prop} [DecidablePred c] {x : β → α}
    {q : β → Kernel α} (hp : Talking C (fun b => ¬ c b) p) (hx : ∀ b, c b → ¬ good (x b))
    (hq : ∀ b, Talking C good (q b)) :
    Talking C good (do let b ← p; if c b then return x b else q b) := by
  intro e w
  rw [wp_bind]
  refine wp_mono (hp e w) ?_ fun _ _ h => h
  intro b w₁ h
  obtain ⟨flag, h₁, hflag⟩ := h
  rw [wp_ite]
  split
  · next hc => exact ⟨flag, h₁, fun hgood => absurd hgood (hx b hc)⟩
  · next hc =>
      obtain rfl := hflag hc
      refine wp_mono (hq b e w₁) ?_ fun _ _ h => h
      intro a w₂ h
      obtain ⟨flag, h₂, hflag⟩ := h
      exact ⟨flag, h₁.trans h₂, hflag⟩

theorem talking_modify {f : World → World} {good : Unit → Prop} (h : ∀ w, (f w).io = w.io) :
    Talking C good (Prog.modify f) :=
  fun _ w => ⟨false, talks_of_log_eq (congrArg Ps2Io.log (h w)), fun _ => rfl⟩

/-- What follows the last byte and does not touch the ports. -/
theorem talking_then {p : Kernel β} {f : World → World} {good : β → Prop}
    (hp : Talking C good p) (h : ∀ w, (f w).io = w.io) :
    Talking C (fun _ => False) (do let _ ← p; Prog.modify f) := by
  intro e w
  rw [wp_bind]
  refine wp_mono (hp e w) ?_ fun _ _ h => h
  intro b w₁ h₁
  obtain ⟨flag, ⟨l, hl, ht, hC⟩, -⟩ := h₁
  exact ⟨flag, ⟨l, (congrArg Ps2Io.log (h w₁)).trans hl, ht, hC⟩, False.elim⟩

theorem talking_sendDataToPs2Keyboard {data : UInt8} (hC : C data) :
    Talking C (fun r : KeyboardVerifiedResponse => ¬ r.err ≠ .none)
      (sendDataToPs2Keyboard data) := by
  intro e w
  obtain ⟨os, io', hloop, hs, hatt⟩ := sendDataLoop_attempts data maxResponseRepeat e w
  refine (wp_of_ok hloop).mpr ⟨decide (.noReply ∈ os), ?_, fun hgood => ?_⟩
  · refine (exchanges_talks hs hatt).imp fun d hd => ?_
    rw [hd]
    exact hC
  · have hack := (resultOf_err_iff hatt).mp (not_not.mp hgood)
    exact decide_eq_false ((acknowledged_iff hatt).mp hack).1.2

theorem talking_sendCommandAndData {command : KeyboardCommandByte} {data : UInt8}
    (hcommand : C command.value) (hdata : C data) :
    Talking C (fun err : KeyboardError => ¬ err ≠ .none) (sendCommandAndData command data) := by
  refine talking_check ?_ (fun b hb => not_not.mpr hb) fun _ => ?_
  · rw [sendCommandToPs2Keyboard_eq]
    exact talking_sendDataToPs2Keyboard hcommand
  · intro e w
    rw [wp_bind]
    exact talking_sendDataToPs2Keyboard hdata e w

theorem talking_setScanCodeSet (h1 : C KeyboardCommandByte.getSetScanCodeSet.value) (h2 : C 1) :
    Talking C (fun err : KeyboardError => ¬ err ≠ .none) (setScanCodeSet 1) := by
  rw [setScanCodeSet_of_valid (by decide) (by decide)]
  refine talking_check (talking_sendCommandAndData h1 h2) (fun b hb => not_not.mpr hb) fun _ => ?_
  exact talking_bind (talking_modify fun _ => rfl) fun _ => talking_pure

theorem talking_setupKeyboardExtra (h1 : C KeyboardCommandByte.setLEDs.value)
    (h2 : C (LedState.raw ⟨false, false, false⟩)) :
    Talking C (fun _ => False) setupKeyboardExtra := by
  have hkeys : Talking C (fun _ => True) setupKeys := fun e w =>
    (wp_of_ok (setupKeys_eq e w)).mpr ⟨false, talks_of_log_eq rfl, fun _ => rfl⟩
  refine talking_bind hkeys fun _ => ?_
  refine talking_bind (talking_modify fun _ => rfl) fun _ => ?_
  exact talking_then (talking_sendCommandAndData h1 h2) fun _ => rfl

end Talking

/-! ## 5. The commands of the setup -/

/-- The part of `setup_keyboard` between `disable_keyboard` and `enable_keyboard`. -/
def setupCommands : Kernel KeyboardError := do
  let err ← setScanCodeSet 1
  if err ≠ .none then return err
  setupKeyboardExtra
  return .none

theorem setupKeyboard_eq :
    setupKeyboard = (do
      let w ← Prog.get
      Prog.assert w.kps.initialized .commandMustTargetKeyboard
      disableKeyboard
      let err ← setupCommands
      if err ≠ .none then return err
      enableKeyboard
      return .none) := by
  have hcommands : ∀ g : KeyboardError → Kernel KeyboardError,
      (∀ err, err ≠ .none → g err = pure err) →
      (setupCommands >>= g) = (do
        let err ← setScanCodeSet 1
        if err ≠ .none then return err
        setupKeyboardExtra
        g .none) := by
    intro g hg
    rw [setupCommands, bind_check]
    congr 1
    funext err
    split
    · next h => exact hg err h
    · rw [bind_bind]
      rfl
  rw [hcommands _ fun err herr => if_pos herr]
  rfl

section Setup

variable {e : Ps2Env} {w w₁ w₂ : World} {k : KeyboardDevice} {evs₀ evs : List BusEvent}

theorem mem_accesses {a : PortEvent} : a ∈ accesses evs ↔ .access a ∈ evs := by
  rw [accesses, List.mem_filterMap]
  constructor
  · intro h
    obtain ⟨ev, hev, heq⟩ := h
    cases ev with
    | key code => cases heq
    | access b =>
        cases heq
        exact hev
  · exact fun h => ⟨_, h, rfl⟩

/-- What the driver says in turns, it says in turns on the bus. -/
theorem Talks.turns {C : UInt8 → Prop} {p : Bool} {io io' : Ps2Io} (h : Talks C p io io')
    (hlog : io'.log = io.log ++ accesses evs) :
    Turns false evs p ∧ ∀ data, .access (.write ⟨.data, data⟩) ∈ evs → C data := by
  obtain ⟨l, hl, ht, hC⟩ := h
  rw [List.append_cancel_left (hl.symm.trans hlog)] at ht hC
  exact ⟨ht.of_accesses, fun data hmem => hC data (mem_accesses.mpr hmem)⟩

/-- The bytes of the commands between `disable_keyboard` and `enable_keyboard`. -/
def setupBytes : List UInt8 :=
  [KeyboardCommandByte.getSetScanCodeSet.value, 1, KeyboardCommandByte.setLEDs.value, 0]

theorem setupCommands_talks (e : Ps2Env) (w : World) :
    ∃ err w', setupCommands e w = (.ok err, w') ∧ ∃ p, Talks (· ∈ setupBytes) p w.io w'.io := by
  have htalking : Talking (· ∈ setupBytes) (fun _ => False) setupCommands := by
    have hset := @talking_setScanCodeSet (· ∈ setupBytes) (by decide) (by decide)
    refine talking_check hset (fun _ _ => id) fun _ => ?_
    intro e w
    rw [wp_bind]
    exact talking_setupKeyboardExtra (by decide) (by decide) e w
  obtain ⟨err, w', hrun, p, htalks, -⟩ := exists_ok_of_wp (htalking e w)
  exact ⟨err, w', hrun, p, htalks⟩

/-- What happens on the bus during these commands. -/
theorem setupCommands_turns {err : KeyboardError} (hsetup : setupCommands e w₁ = (.ok err, w₂))
    (hmeets : k.Meets evs w₁.io w₂.io) :
    ∃ p, Turns false evs p ∧
      ∀ data, .access (.write ⟨.data, data⟩) ∈ evs → data ∈ setupBytes := by
  obtain ⟨err', w', hrun, p, htalks⟩ := setupCommands_talks e w₁
  rw [hsetup] at hrun
  cases hrun
  exact ⟨p, htalks.turns hmeets.log⟩

/-- **`disable_keyboard` sends nothing but the byte that starts the scanning.** -/
theorem disableKeyboard_talks (h : disableKeyboard e w = (.ok (), w₁)) :
    ∃ p, Talks (· = kcbEnableScanning) p w.io w₁.io := by
  have hsend : Talking (· = kcbEnableScanning)
      (fun r : KeyboardVerifiedResponse => ¬ r.err ≠ .none)
      (sendDataToPs2Keyboard KeyboardCommandByte.enableScanning.value) :=
    talking_sendDataToPs2Keyboard rfl
  obtain ⟨r, w', hrun, p, htalks, -⟩ := exists_ok_of_wp (hsend e (w.keyboardDisabled w.io))
  have hscan : enableScanning e (w.keyboardDisabled w.io) = (.ok r.err, w') := by
    rw [enableScanning, sendCommandToPs2Keyboard_eq, bind_of_ok hrun]
    rfl
  rw [disableKeyboard_of_scanning hscan] at h
  cases h
  exact ⟨p, htalks⟩

/-- **After an acknowledged `disable_keyboard` the keyboard scans.** -/
theorem scanning_of_disableKeyboard (h : disableKeyboard e w = (.ok (), w₁))
    (hlog : w₁.io.log = w.io.log ++ accesses evs₀)
    (hack : (accesses evs₀).getLast? = some (.response krbCommandAcknowledged)) :
    (run KeyboardDevice.step k evs₀).scanning = true := by
  obtain ⟨p, htalks⟩ := disableKeyboard_talks h
  obtain ⟨ht, hbytes⟩ := htalks.turns hlog
  obtain ⟨l₁, l₂, rfl⟩ := List.append_of_mem (mem_accesses.mp (List.mem_of_getLast? hack))
  obtain ⟨q, ht₁, ht₂⟩ := ht.split
  obtain ⟨rfl, -⟩ := ht₂.read_inv
  obtain ⟨m, data, n, rfl, -, -⟩ := ht₁.sent
  have hdata : data = kcbEnableScanning :=
    hbytes data (List.mem_append_left _ (List.mem_append_right _ List.mem_cons_self))
  rw [List.append_assoc, run_append, List.cons_append, run_cons]
  refine run_scanning (fun d hmem => ?_) (if_pos hdata)
  have hd : d = kcbEnableScanning :=
    hbytes d (by
      rw [List.append_assoc]
      exact List.mem_append_right _ (List.mem_cons_of_mem _ hmem))
  rw [hd]
  decide

/-- **The setup reads nothing but replies exactly when no scancode comes before one.** For every
    state of the keyboard, every stream of answers that fits it and every schedule of keys, after a
    `disable_keyboard` that read an acknowledgement: each byte read by the commands before
    `enable_keyboard` is the reply to the byte just sent, if and only if, before each byte whose
    reply is read, no key is pressed and none was waiting in the buffer. -/
theorem repliesOnly_iff {err : KeyboardError} (hdisable : disableKeyboard e w = (.ok (), w₁))
    (hmeets₀ : k.Meets evs₀ w.io w₁.io)
    (hack : (accesses evs₀).getLast? = some (.response krbCommandAcknowledged))
    (hsetup : setupCommands e w₁ = (.ok err, w₂))
    (hmeets : (run KeyboardDevice.step k evs₀).Meets evs w₁.io w₂.io) :
    (run KeyboardDevice.step k evs₀).RepliesOnly evs ↔
      (run KeyboardDevice.step k evs₀).NoKeyBefore evs := by
  obtain ⟨p, ht, hbytes⟩ := setupCommands_turns hsetup hmeets
  refine repliesOnly_iff_noKeyBefore ht
    (scanning_of_disableKeyboard hdisable hmeets₀.log hack) fun data hmem => ?_
  rintro rfl
  exact absurd (hbytes _ hmem) (by decide)

end Setup

/-! ## 6. Two schedules -/

/-- A byte that is sent at once and acknowledged at once. -/
def acknowledgedTurn (data : UInt8) : List BusEvent :=
  [.access (.status 0), .access (.write ⟨.data, data⟩), .access (.status 1),
    .access (.response krbCommandAcknowledged)]

/-- The user presses a key when the setup is over. -/
def lateKey : List BusEvent :=
  acknowledgedTurn 0xF0 ++ acknowledgedTurn 1 ++ acknowledgedTurn 0xED ++ acknowledgedTurn 0 ++
    [.key 0x1E]

/-- The user presses a key between `disable_keyboard` and the first command. -/
def earlyKey : List BusEvent :=
  [.key 0x1E, .access (.status 1), .access (.write ⟨.data, 0xF0⟩), .access (.status 1),
    .access (.response 0x1E)]

/-- The answers to the driver in a schedule. -/
def scheduleEnv (evs : List BusEvent) : Ps2Env :=
  scriptedEnv <| (accesses evs).filterMap fun
    | .status s => some s
    | .response v => some v
    | .write _ => none

theorem repliesOnly_iff_lateKey :
    (run KeyboardDevice.step ⟨true, []⟩ (acknowledgedTurn 0xF4)).NoKeyBefore lateKey := by
  have hdisable : (disableKeyboard (scheduleEnv (acknowledgedTurn 0xF4 ++ lateKey))
      (.withKeyboard 1)).1 = .ok () := by decide +kernel
  have hsetup : (setupCommands (scheduleEnv (acknowledgedTurn 0xF4 ++ lateKey))
      (disableKeyboard (scheduleEnv (acknowledgedTurn 0xF4 ++ lateKey))
        (.withKeyboard 1)).2).1 = .ok .none := by decide +kernel
  exact (repliesOnly_iff (run_eq_of_fst hdisable) ⟨by decide +kernel, by decide +kernel⟩ rfl
    (run_eq_of_fst hsetup) ⟨by decide +kernel, by decide +kernel⟩).mp (by decide +kernel)

/-- **The scancode of a key pressed in between is read as the reply** to the first command, and the
    setup ends there. -/
theorem setupCommands_reads_scancode :
    ¬ ∀ (e : Ps2Env) (w w₁ w₂ : World) (k : KeyboardDevice) (evs₀ evs : List BusEvent)
      (err : KeyboardError), disableKeyboard e w = (.ok (), w₁) → k.Meets evs₀ w.io w₁.io →
      (accesses evs₀).getLast? = some (.response krbCommandAcknowledged) →
      setupCommands e w₁ = (.ok err, w₂) →
      (run KeyboardDevice.step k evs₀).Meets evs w₁.io w₂.io →
      (run KeyboardDevice.step k evs₀).RepliesOnly evs := by
  intro h
  have hdisable : (disableKeyboard (scheduleEnv (acknowledgedTurn 0xF4 ++ earlyKey))
      (.withKeyboard 1)).1 = .ok () := by decide +kernel
  have hsetup : (setupCommands (scheduleEnv (acknowledgedTurn 0xF4 ++ earlyKey))
      (disableKeyboard (scheduleEnv (acknowledgedTurn 0xF4 ++ earlyKey))
        (.withKeyboard 1)).2).1 = .ok .nonAckResponse := by decide +kernel
  have hreplies := h _ _ _ _ ⟨true, []⟩ (acknowledgedTurn 0xF4) earlyKey _
    (run_eq_of_fst hdisable) ⟨by decide +kernel, by decide +kernel⟩ rfl (run_eq_of_fst hsetup)
    ⟨by decide +kernel, by decide +kernel⟩
  revert hreplies
  decide +kernel

end MapleKernel.Drivers
