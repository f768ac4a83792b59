/-
  File:      Cpu/IpiMailbox.lean
  Subject:   THE IPI MAILBOX (`apic.cpp`) AS A HISTORY OF SENDS AND CONSUMED VECTORS.

  One slot for each pair of receiver and sender. `send_ipi` stores its vector in the slot,
  `wait_till_interrupt` halts, wakes up and looks at one sender after the other; a slot with its
  vector is set to `NO_INTERRUPT` and the wait returns. Here every access made under the lock is
  one atomic step, and the accesses of all cores interleave freely.

  * `MailEvent`, `MailState.history` -- ghost data: the sends and the consumed vectors in order;
  * `MailOk` -- the invariant: the array is the last writes of the history over the zeroes it
    starts with (`memAfter`);
  * `available_iff` -- what "available to a later wait" comes to: some slot of the receiver holds
    the vector;
  * `mailbox_history` -- a wait returns only on a send that nothing consumed or overwrote, and a
    send stays available until it is consumed or its sender sends again, as long as the sender's
    LAPIC id is one of the numbers that a wait looks at.
-/
import MapleKernel.Lib.LastWrite
import MapleKernel.Cpu.IpiLock

namespace MapleKernel.Cpu

open Runs LastWrite

variable {P : Platform}

/-! ## 1. The machine with atomic accesses -/

/-- What happened to a slot: a send recorded `v` in it, or a wait for `v` consumed it. -/
inductive MailEvent where
  | sent (receiver sender : Fin maxCoreCount) (v : UInt8)
  | consumed (receiver sender : Fin maxCoreCount) (v : UInt8)
  deriving DecidableEq

/-- The slot an event is about, and what the event leaves there. -/
def MailEvent.write : MailEvent → (Fin maxCoreCount × Fin maxCoreCount) × UInt8
  | .sent r s v => ((r, s), v)
  | .consumed r s _ => ((r, s), noInterrupt)

inductive WaitPc (P : Platform) where
  | idle
  | hlt (interruptVector : UInt8)
  | look (interruptVector : UInt8) (senderId : P.Sender)
  | aborted
  deriving DecidableEq

structure MailState (P : Platform) where
  lastInterruptReceived : Mailbox
  pc : P.Core → WaitPc P
  history : List MailEvent

def MailState.boot (P : Platform) : MailState P :=
  { lastInterruptReceived := .boot, pc := fun _ => .idle, history := [] }

inductive MailOp (P : Platform) where
  | sendIpi (c : P.Core) (coreId : Fin maxCoreCount) (intVector : UInt8)
  | waitTillInterrupt (c : P.Core) (interruptVector : UInt8)
  | wake (c : P.Core)
  | look (c : P.Core)

/-- The head of the loop over the senders. -/
def nextLook (P : Platform) (w : UInt8) (senderId : Nat) : WaitPc P :=
  if h : senderId < P.runtimeCoreCount then .look w ⟨senderId, h⟩ else .hlt w

def MailState.goto (s : MailState P) (c : P.Core) (p : WaitPc P) : MailState P :=
  { s with pc := Function.update s.pc c p }

@[simp] theorem MailState.goto_pc_self (s : MailState P) (c : P.Core) (p : WaitPc P) :
    (s.goto c p).pc c = p := Function.update_self _ _ _

/-- The effect of an event on array and history. -/
def MailState.record (s : MailState P) : MailEvent → MailState P
  | .sent r k v =>
      { s with lastInterruptReceived := s.lastInterruptReceived.store r k v,
               history := s.history ++ [.sent r k v] }
  | .consumed r k v =>
      { s with lastInterruptReceived := s.lastInterruptReceived.store r k noInterrupt,
               history := s.history ++ [.consumed r k v] }

/-- `send_ipi`, up to its store. -/
def mailSend (s : MailState P) (c : P.Core) (coreId : Fin maxCoreCount) (v : UInt8) :
    MailState P :=
  if s.pc c = .idle then s.record (.sent coreId (P.slot c) v) else s

/-- The entry of `wait_till_interrupt`, up to the first `hlt`. -/
def mailWait (s : MailState P) (c : P.Core) (w : UInt8) : MailState P :=
  if s.pc c = .idle then
    if w = noInterrupt then s.goto c .aborted else s.goto c (.hlt w)
  else s

def mailWake (s : MailState P) (c : P.Core) : MailState P :=
  match s.pc c with
  | .hlt w => s.goto c (nextLook P w 0)
  | _ => s

/-- One look at one sender's slot. -/
def mailLook (s : MailState P) (c : P.Core) : MailState P :=
  match s.pc c with
  | .look w k =>
      if s.lastInterruptReceived (P.slot c) (P.senderSlot k) = w then
        (s.record (.consumed (P.slot c) (P.senderSlot k) w)).goto c .idle
      else s.goto c (nextLook P w (k + 1))
  | _ => s

def mailStep (s : MailState P) : MailOp P → MailState P
  | .sendIpi c coreId v => mailSend s c coreId v
  | .waitTillInterrupt c w => mailWait s c w
  | .wake c => mailWake s c
  | .look c => mailLook s c

/-! ## 2. The array is the history's last writes -/

/-- `wait_till_interrupt` asserts that its vector is not `NO_INTERRUPT`. -/
def WaitPc.vectorOk : WaitPc P → Prop
  | .hlt w | .look w _ => w ≠ noInterrupt
  | _ => True

structure MailOk (s : MailState P) : Prop where
  slots : ∀ r k, s.lastInterruptReceived r k
    = memAfter (fun _ => 0) (s.history.map MailEvent.write) (r, k)
  pcs : ∀ c, (s.pc c).vectorOk

theorem mailOk_boot : MailOk (MailState.boot P) where
  slots _ _ := rfl
  pcs _ := trivial

theorem store_apply (m : Mailbox) (r k r' k' : Fin maxCoreCount) (v : UInt8) :
    m.store r k v r' k' = if (r', k') = (r, k) then v else m r' k' := by
  unfold Mailbox.store
  by_cases hr : r' = r
  · subst hr
    rw [Function.update_self, Function.update_apply]
    simp
  · rw [Function.update_of_ne hr, if_neg (fun h => hr (Prod.mk.inj h).1)]

theorem MailOk.record {s : MailState P} (h : MailOk s) (e : MailEvent) : MailOk (s.record e) where
  slots r k := by
    have hwrite : (s.record e).lastInterruptReceived r k
        = if (r, k) = e.write.1 then e.write.2 else s.lastInterruptReceived r k := by
      cases e <;> exact store_apply _ _ _ _ _ _
    have hhist : (s.record e).history = s.history ++ [e] := by cases e <;> rfl
    rw [hwrite, hhist, List.map_append, List.map_singleton, memAfter_concat,
      Function.update_apply, h.slots]
  pcs c := by cases e <;> exact h.pcs c

theorem MailOk.goto {s : MailState P} (h : MailOk s) {c : P.Core} {p : WaitPc P}
    (hp : p.vectorOk) : MailOk (s.goto c p) where
  slots := h.slots
  pcs d := by
    show (Function.update s.pc c p d).vectorOk
    by_cases hdc : d = c
    · subst hdc
      rw [Function.update_self]
      exact hp
    · rw [Function.update_of_ne hdc]
      exact h.pcs d

theorem vectorOk_nextLook {w : UInt8} (hw : w ≠ noInterrupt) (k : Nat) :
    (nextLook P w k).vectorOk := by
  unfold nextLook
  split <;> exact hw

theorem mailOk_step (s : MailState P) (op : MailOp P) (h : MailOk s) : MailOk (mailStep s op) := by
  cases op with
  | sendIpi c coreId v =>
      show MailOk (mailSend s c coreId v)
      unfold mailSend
      split
      · exact h.record _
      · exact h
  | waitTillInterrupt c w =>
      show MailOk (mailWait s c w)
      unfold mailWait
      split
      · split
        · exact h.goto trivial
        · exact h.goto ‹_›
      · exact h
  | wake c =>
      show MailOk (mailWake s c)
      unfold mailWake
      have hw := h.pcs c
      cases hpc : s.pc c with
      | hlt w =>
          rw [hpc] at hw
          exact h.goto (vectorOk_nextLook hw 0)
      | idle | look | aborted => exact h
  | look c =>
      show MailOk (mailLook s c)
      unfold mailLook
      have hw := h.pcs c
      cases hpc : s.pc c with
      | look w k =>
          rw [hpc] at hw
          dsimp only
          split
          · exact (h.record _).goto trivial
          · exact h.goto (vectorOk_nextLook hw _)
      | idle | hlt | aborted => exact h

theorem mailOk_run (l : List (MailOp P)) : MailOk (run mailStep (MailState.boot P) l) :=
  run_inv mailOk_step mailOk_boot l

/-! ## 3. What a wait that runs alone does -/

section Look

variable {s : MailState P} {c : P.Core} {k : P.Sender} {w : UInt8}

theorem mailLook_match (hpc : s.pc c = .look w k)
    (hw : s.lastInterruptReceived (P.slot c) (P.senderSlot k) = w) :
    mailLook s c = (s.record (.consumed (P.slot c) (P.senderSlot k) w)).goto c .idle := by
  unfold mailLook
  rw [hpc]
  exact if_pos hw

theorem mailLook_miss (hpc : s.pc c = .look w k)
    (hw : s.lastInterruptReceived (P.slot c) (P.senderSlot k) ≠ w) :
    mailLook s c = s.goto c (nextLook P w (k + 1)) := by
  unfold mailLook
  rw [hpc]
  exact if_neg hw

theorem look_returns (hpc : s.pc c = .look w k)
    (hw : s.lastInterruptReceived (P.slot c) (P.senderSlot k) = w) :
    (run mailStep s (List.replicate 1 (.look c))).pc c = .idle ∧
      (run mailStep s (List.replicate 1 (.look c))).history
        = s.history ++ [.consumed (P.slot c) (P.senderSlot k) w] := by
  show (mailLook s c).pc c = _ ∧ (mailLook s c).history = _
  rw [mailLook_match hpc hw, MailState.goto_pc_self]
  exact ⟨rfl, rfl⟩

theorem nextLook_ne_idle (w : UInt8) (k : Nat) : nextLook P w k ≠ .idle := by
  unfold nextLook
  split <;> exact nofun

/-- A look returns only on its own vector. -/
theorem match_of_returns (hpc : s.pc c = .look w k) (hret : (mailLook s c).pc c = .idle) :
    s.lastInterruptReceived (P.slot c) (P.senderSlot k) = w := by
  by_contra hne
  rw [mailLook_miss hpc hne, MailState.goto_pc_self] at hret
  exact nextLook_ne_idle w (k + 1) hret

end Look

/-- Core `c` calls `wait_till_interrupt(v)`, wakes up and looks `m` times; nobody else moves. -/
def soloWait (c : P.Core) (v : UInt8) (m : Nat) : List (MailOp P) :=
  .waitTillInterrupt c v :: .wake c :: List.replicate m (.look c)

/-- A wait for `v` on `c` would return now, consuming a slot with `v`. -/
def Available (s : MailState P) (c : P.Core) (v : UInt8) : Prop :=
  ∃ (m : Nat) (k : P.Sender), (run mailStep s (soloWait c v m)).pc c = .idle ∧
    (run mailStep s (soloWait c v m)).history
      = s.history ++ [.consumed (P.slot c) (P.senderSlot k) v]

/-- The looks from sender `k` on reach a slot with the vector, `d` senders further at most. -/
theorem looks_find (d : Nat) (s : MailState P) (c : P.Core) (k j : P.Sender)
    (w : UInt8)
    (hj : j.val = k.val + d) (hpc : s.pc c = .look w k)
    (hw : s.lastInterruptReceived (P.slot c) (P.senderSlot j) = w) :
    ∃ (m : Nat) (i : P.Sender), (run mailStep s (List.replicate m (.look c))).pc c = .idle ∧
      (run mailStep s (List.replicate m (.look c))).history
        = s.history ++ [.consumed (P.slot c) (P.senderSlot i) w] := by
  induction d generalizing s k with
  | zero =>
      have hjk : j = k := Fin.ext hj
      subst hjk
      exact ⟨1, j, look_returns hpc hw⟩
  | succ d ih =>
      by_cases hk : s.lastInterruptReceived (P.slot c) (P.senderSlot k) = w
      · exact ⟨1, k, look_returns hpc hk⟩
      · -- a miss: the loop goes on to the next sender with array and history unchanged
        have hlt : k.val + 1 < P.runtimeCoreCount := by omega
        have hnext : mailLook s c = s.goto c (.look w ⟨k + 1, hlt⟩) := by
          rw [mailLook_miss hpc hk, nextLook, dif_pos hlt]
        obtain ⟨m, i, hidle, hhist⟩ := ih (s.goto c (.look w ⟨k + 1, hlt⟩)) ⟨k + 1, hlt⟩
          (by rw [hj]; simp only; omega) (MailState.goto_pc_self _ _ _) hw
        refine ⟨m + 1, i, ?_, ?_⟩
        · rw [List.replicate_succ, run_cons]
          show (run mailStep (mailLook s c) _).pc c = _
          rw [hnext]
          exact hidle
        · rw [List.replicate_succ, run_cons]
          show (run mailStep (mailLook s c) _).history = _
          rw [hnext]
          exact hhist

/-- Without the vector in any slot the wait is still in its loop, however often it looks. -/
theorem looks_miss (m : Nat) (s : MailState P) (c : P.Core) (w : UInt8)
    (hpc : s.pc c = .hlt w ∨ ∃ k, s.pc c = .look w k)
    (hw : ∀ k, s.lastInterruptReceived (P.slot c) (P.senderSlot k) ≠ w) :
    (run mailStep s (List.replicate m (.look c))).pc c ≠ .idle := by
  induction m generalizing s with
  | zero =>
      rcases hpc with hpc | ⟨k, hpc⟩ <;>
        · show s.pc c ≠ .idle
          rw [hpc]
          exact nofun
  | succ m ih =>
      rw [List.replicate_succ, run_cons]
      show (run mailStep (mailLook s c) _).pc c ≠ _
      rcases hpc with hpc | ⟨k, hpc⟩
      · have hstay : mailLook s c = s := by
          unfold mailLook
          rw [hpc]
        rw [hstay]
        exact ih s (.inl hpc) hw
      · rw [mailLook_miss hpc (hw k)]
        refine ih _ ?_ hw
        rw [MailState.goto_pc_self]
        unfold nextLook
        split
        · exact .inr ⟨_, rfl⟩
        · exact .inl rfl

/-- The state in which a lone wait starts to look. -/
theorem run_soloWait {s : MailState P} {c : P.Core} {v : UInt8} (hidle : s.pc c = .idle)
    (hv : v ≠ noInterrupt) (m : Nat) :
    run mailStep s (soloWait c v m)
      = run mailStep (s.goto c (.look v ⟨0, P.pos⟩)) (List.replicate m (.look c)) := by
  have hwait : mailStep s (.waitTillInterrupt c v) = s.goto c (.hlt v) := by
    show mailWait s c v = _
    rw [mailWait, if_pos hidle, if_neg hv]
  have hwake : mailStep (s.goto c (.hlt v)) (.wake c) = s.goto c (.look v ⟨0, P.pos⟩) := by
    show mailWake (s.goto c (.hlt v)) c = _
    unfold mailWake
    rw [MailState.goto_pc_self]
    dsimp only
    rw [nextLook, dif_pos P.pos]
    simp only [MailState.goto, Function.update_idem]
  rw [soloWait, run_cons, run_cons, hwait, hwake]

/-- **Available means: some slot of the receiver holds the vector.** -/
theorem available_iff {s : MailState P} {c : P.Core} {v : UInt8} (hidle : s.pc c = .idle)
    (hv : v ≠ noInterrupt) :
    Available s c v ↔ ∃ k, s.lastInterruptReceived (P.slot c) (P.senderSlot k) = v := by
  have h0 := MailState.goto_pc_self s c (.look v ⟨0, P.pos⟩)
  constructor
  · intro h
    obtain ⟨m, k, hret, -⟩ := h
    by_contra hnone
    rw [run_soloWait hidle hv] at hret
    exact looks_miss m _ c v (.inr ⟨_, h0⟩) (fun k hk => hnone ⟨k, hk⟩) hret
  · intro h
    obtain ⟨j, hj⟩ := h
    obtain ⟨m, i, hret, hhist⟩ := looks_find j.val (s.goto c (.look v ⟨0, P.pos⟩)) c _ j v
      (Nat.zero_add _).symm h0 hj
    refine ⟨m, i, ?_, ?_⟩
    · rw [run_soloWait hidle hv]
      exact hret
    · rw [run_soloWait hidle hv]
      exact hhist

/-! ## 4. Sends and waits -/

/-- No event of `post` is about the slot of this receiver and sender. -/
def SlotQuiet (receiver sender : Fin maxCoreCount) (post : List MailEvent) : Prop :=
  ∀ e ∈ post, e.write.1 ≠ (receiver, sender)

theorem SlotQuiet.untouched {r k : Fin maxCoreCount} {post : List MailEvent}
    (h : SlotQuiet r k post) : Untouched (r, k) (post.map MailEvent.write) := by
  intro e he
  obtain ⟨e', he', rfl⟩ := List.mem_map.mp he
  exact h e' he'

/-- A slot with a vector that is neither zero nor `NO_INTERRUPT` holds its last send. -/
theorem MailOk.last_send {s : MailState P} (h : MailOk s) {r k : Fin maxCoreCount} {w : UInt8}
    (hslot : s.lastInterruptReceived r k = w) (h0 : w ≠ 0) (hw : w ≠ noInterrupt) :
    ∃ pre post, s.history = pre ++ .sent r k w :: post ∧ SlotQuiet r k post := by
  have hmem := h.slots r k
  rw [hslot] at hmem
  rcases memAfter_cases (fun _ => 0) (s.history.map MailEvent.write) (r, k) with
    ⟨hinit, -⟩ | ⟨pre, post, hsplit, hquiet⟩
  · exact absurd (hmem.trans hinit) h0
  · rw [← hmem] at hsplit
    obtain ⟨pre', rest, hhist, -, hrest⟩ := List.map_eq_append_iff.mp hsplit
    obtain ⟨e, post', hcons, he, hpost⟩ := List.map_eq_cons_iff.mp hrest
    refine ⟨pre', post', ?_, fun e' he' => hquiet e'.write (hpost ▸ List.mem_map_of_mem he')⟩
    rw [hhist, hcons]
    -- the last write left `w`, so it was a send
    cases e with
    | sent r' k' v =>
        simp only [MailEvent.write, Prod.mk.injEq] at he
        obtain ⟨⟨rfl, rfl⟩, rfl⟩ := he
        rfl
    | consumed r' k' v =>
        exact absurd (congrArg Prod.snd he).symm hw

/-- **The mailbox over every interleaving.** A wait for `w` on `c` returns only by consuming the
    slot of a sender whose latest send to `c` had the vector `w` and was not consumed; and the
    vector of a send to `c`, by a sender whose id is below `runtime_core_count`, stays available to
    a wait on `c` until a wait consumes it or the same sender sends to `c` again. -/
theorem mailbox_history (P : Platform) (l : List (MailOp P)) :
    let s := run mailStep (MailState.boot P) l
    (∀ c w k, s.pc c = .look w k → (mailStep s (.look c)).pc c = .idle → w ≠ 0 →
      ∃ pre post, s.history = pre ++ .sent (P.slot c) (P.senderSlot k) w :: post ∧
        SlotQuiet (P.slot c) (P.senderSlot k) post) ∧
    (∀ c k v pre post, s.history = pre ++ .sent (P.slot c) (P.senderSlot k) v :: post →
      SlotQuiet (P.slot c) (P.senderSlot k) post → v ≠ noInterrupt → s.pc c = .idle →
      Available s c v) := by
  intro s
  have hok : MailOk s := mailOk_run l
  refine ⟨fun c w k hpc hret h0 => ?_, fun c k v pre post hhist hquiet hv hidle => ?_⟩
  · have hw : w ≠ noInterrupt := by
      have := hok.pcs c
      rw [hpc] at this
      exact this
    exact hok.last_send (match_of_returns hpc hret) h0 hw
  · refine (available_iff hidle hv).mpr ⟨k, ?_⟩
    rw [hok.slots, hhist, List.map_append, List.map_cons]
    exact memAfter_of_last hquiet.untouched

/-- Nothing is lost and nothing is invented, read without the single slot in mind. -/
def NoneLostOrInvented (s : MailState P) : Prop :=
  (∀ c w k, s.pc c = .look w k → (mailStep s (.look c)).pc c = .idle →
    ∃ pre k' post, s.history = pre ++ .sent (P.slot c) k' w :: post ∧
      .consumed (P.slot c) k' w ∉ post) ∧
  (∀ c k v pre post, s.history = pre ++ .sent (P.slot c) (P.senderSlot k) v :: post →
    (∀ k', .consumed (P.slot c) k' v ∉ post) → v ≠ noInterrupt → s.pc c = .idle →
    Available s c v)

/-- **A second send overwrites the first**: vector 40 is gone although no wait consumed it. -/
theorem mailbox_overwritten :
    ¬ ∀ (P : Platform) (l : List (MailOp P)),
      NoneLostOrInvented (run mailStep (MailState.boot P) l) := by
  intro h
  let core1 : twoCores.Core := ⟨1, by decide⟩
  have hlost := (h twoCores [.sendIpi core1 0 40, .sendIpi core1 0 41]).2 ⟨0, by decide⟩
    (1 : Fin 2) 40 [] [.sent 0 1 41] rfl (by decide) (by decide) rfl
  obtain ⟨k, hk⟩ := (available_iff rfl (by decide)).mp hlost
  revert k
  decide

end MapleKernel.Cpu
