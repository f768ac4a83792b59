/-
  File:      Kernel/IrqToGsi.lean
  Subject:   THE MAP FROM ISA INTERRUPTS TO GLOBAL SYSTEM INTERRUPTS (`multicore_setup`): the table
             that `init_io_apic` takes its redirection entries from.

  The table has 24 slots of a byte and starts as the identity. A loop over the interrupt source
  overrides of the MADT stores the number of each at its source. Its counter is a byte, and both the
  source and the number come from the firmware: nothing holds the first against the size of the
  table, and the second is narrowed to a byte.

  * `identityBody`, `overrideBody` -- one round of each loop, from the source; `writes` is ghost
    data;
  * `buildIrqToGsi_iff` -- up to 255 overrides the loops return the table after all these writes;
  * `gsiOf` -- the number an interrupt should have;
  * `mapsIrqs_iff` -- the table says so, and no store is outside of it, exactly when there are at
    most 255 overrides, of sources inside the table, and the last one of each source has a number
    that fits in a byte.

  Whether the records fit into the array they are found in is the subject of Firmware/Madt.lean.
-/
import MapleKernel.Lib.Iterate
import MapleKernel.Lib.LastWrite

namespace MapleKernel.Kernel

open Iteration LastWrite

/-! ## 1. The loops -/

/-- `entry_io_apic_interrupt_source_override`, as far as it is read here. -/
structure InterruptSourceOverride where
  busSource : UInt8
  irqSource : UInt8
  globalSystemInterrupt : UInt32
  deriving DecidableEq, Repr

/-- `number_of_apic_io_irq`. -/
def numberOfApicIoIrq : UInt8 := 24

/-- Counter and table; what stands behind its slots belongs to others. Ghost data: `writes`, the
stores so far. -/
structure GsiState where
  i : UInt8
  irqToGsi : UInt8 → UInt8
  writes : List (UInt8 × UInt8)

/-- `irq_to_gsi[irq] = gsi`. -/
def GsiState.store (s : GsiState) (irq gsi : UInt8) : GsiState :=
  { s with
    irqToGsi := Function.update s.irqToGsi irq gsi
    writes := s.writes ++ [(irq, gsi)] }

def identityBody (s : GsiState) : GsiState ⊕ GsiState :=
  if s.i < numberOfApicIoIrq then .inl { s.store s.i s.i with i := s.i + 1 } else .inr s

/-- Index and value that an override is stored with. -/
def InterruptSourceOverride.write (ios : InterruptSourceOverride) : UInt8 × UInt8 :=
  (ios.irqSource, ios.globalSystemInterrupt.toUInt8)

/-- `isos` are the records in `io_apic_isos`, as many as it counts; the result is `none` where the
assert of the loop fails. -/
def overrideBody (isos : List InterruptSourceOverride) (s : GsiState) :
    GsiState ⊕ Option GsiState :=
  match isos[s.i.toNat]? with
  | some ios =>
      let s := s.store ios.write.1 ios.write.2
      if ios.busSource = 0 then .inl { s with i := s.i + 1 } else .inr none
  | none => .inr (some s)

/-- Both loops return `r`; `junk` stands in the table before. -/
def BuildIrqToGsi (isos : List InterruptSourceOverride) (junk : UInt8 → UInt8)
    (r : Option GsiState) : Prop :=
  ∃ s, Returns identityBody ⟨0, junk, []⟩ s ∧ Returns (overrideBody isos) { s with i := 0 } r

/-! ## 2. What they return -/

/-- The stores of the first loop from round `i` on. -/
def identityWrites (i k : Nat) : List (UInt8 × UInt8) :=
  (List.range' i k).map fun j => (.ofNat j, .ofNat j)

/-- All stores. -/
def allWrites (isos : List InterruptSourceOverride) : List (UInt8 × UInt8) :=
  identityWrites 0 numberOfApicIoIrq.toNat ++ isos.map InterruptSourceOverride.write

section Loops

variable {isos : List InterruptSourceOverride} {junk : UInt8 → UInt8}

theorem toNat_ofNat_of_lt_byte {n : Nat} (h : n < 256) : (UInt8.ofNat n).toNat = n :=
  UInt8.toNat_ofNat_of_lt' h

/-- A round of the first loop. -/
theorem identityBody_round {i : Nat} (hi : i < numberOfApicIoIrq.toNat) (t : UInt8 → UInt8)
    (w : List (UInt8 × UInt8)) :
    identityBody ⟨.ofNat i, t, w⟩ =
      .inl ⟨.ofNat (i + 1), Function.update t (.ofNat i) (.ofNat i),
        w ++ [(.ofNat i, .ofNat i)]⟩ := by
  have hmax := numberOfApicIoIrq.toNat_lt
  have hlt : UInt8.ofNat i < numberOfApicIoIrq := by
    rw [UInt8.lt_iff_toNat_lt, toNat_ofNat_of_lt_byte (by omega)]
    exact hi
  rw [identityBody, if_pos hlt, UInt8.ofNat_add]
  rfl

theorem returns_identity {i k : Nat} (h : i + k = numberOfApicIoIrq.toNat) (t : UInt8 → UInt8)
    (w : List (UInt8 × UInt8)) :
    Returns identityBody ⟨.ofNat i, t, w⟩
      ⟨numberOfApicIoIrq, memAfter t (identityWrites i k), w ++ identityWrites i k⟩ := by
  have hmax : numberOfApicIoIrq.toNat = 24 := rfl
  induction k generalizing i t w with
  | zero =>
      have hi : UInt8.ofNat i = numberOfApicIoIrq := by
        rw [show i = 24 by omega]
        rfl
      have hw : w ++ identityWrites i 0 = w := List.append_nil w
      rw [hi, hw]
      exact returns_of_inr (if_neg (UInt8.lt_irrefl _))
  | succ k ih =>
      have hwrites : identityWrites i (k + 1) =
          (.ofNat i, .ofNat i) :: identityWrites (i + 1) k := rfl
      have hrest := @ih (i + 1) (by omega) (Function.update t (.ofNat i) (.ofNat i))
        (w ++ [(.ofNat i, .ofNat i)])
      rw [returns_of_inl (identityBody_round (by omega) t w), hwrites]
      rw [List.append_assoc] at hrest
      exact hrest

/-- A round of the second loop, at the record `ios`. -/
theorem overrideBody_round (hlen : isos.length < 256) {pre rest : List InterruptSourceOverride}
    {ios : InterruptSourceOverride} (hsplit : isos = pre ++ ios :: rest) (hbus : ios.busSource = 0)
    (t : UInt8 → UInt8) (w : List (UInt8 × UInt8)) :
    overrideBody isos ⟨.ofNat pre.length, t, w⟩ =
      .inl ⟨.ofNat (pre ++ [ios]).length, Function.update t ios.write.1 ios.write.2,
        w ++ [ios.write]⟩ := by
  have hpre : pre.length < isos.length := by
    rw [hsplit, List.length_append, List.length_cons]
    omega
  have hsome : isos[(UInt8.ofNat pre.length).toNat]? = some ios := by
    rw [toNat_ofNat_of_lt_byte (by omega), hsplit,
      List.getElem?_append_right (Nat.le_refl _), Nat.sub_self]
    rfl
  rw [overrideBody, hsome]
  dsimp only
  rw [if_pos hbus, List.length_append, UInt8.ofNat_add]
  rfl

/-- The second loop, with the records `rest` before it. -/
theorem returns_overrides (hlen : isos.length < 256) (hbus : ∀ ios ∈ isos, ios.busSource = 0)
    {pre rest : List InterruptSourceOverride} (hsplit : isos = pre ++ rest) (t : UInt8 → UInt8)
    (w : List (UInt8 × UInt8)) :
    Returns (overrideBody isos) ⟨.ofNat pre.length, t, w⟩
      (some ⟨.ofNat isos.length, memAfter t (rest.map InterruptSourceOverride.write),
        w ++ rest.map InterruptSourceOverride.write⟩) := by
  induction rest generalizing pre t w with
  | nil =>
      rw [List.append_nil] at hsplit
      subst hsplit
      have hnone : isos[(UInt8.ofNat isos.length).toNat]? = none := by
        rw [toNat_ofNat_of_lt_byte hlen, List.getElem?_eq_none (Nat.le_refl _)]
      refine returns_of_inr ?_
      simp only [overrideBody, hnone, List.map_nil, List.append_nil, memAfter_nil]
  | cons ios rest ih =>
      have hzero : ios.busSource = 0 := by
        refine hbus ios ?_
        rw [hsplit]
        exact List.mem_append_right pre List.mem_cons_self
      have hrest := @ih (pre ++ [ios]) (by rw [hsplit]; simp)
        (Function.update t ios.write.1 ios.write.2) (w ++ [ios.write])
      rw [returns_of_inl (overrideBody_round hlen hsplit hzero t w), List.map_cons]
      rw [List.append_assoc] at hrest
      exact hrest

/-- **The table is the one after all stores**, where the counter can pass the records. -/
theorem buildIrqToGsi_iff (hlen : isos.length < 256) (hbus : ∀ ios ∈ isos, ios.busSource = 0)
    (r : Option GsiState) :
    BuildIrqToGsi isos junk r ↔
      r = some ⟨.ofNat isos.length, memAfter junk (allWrites isos), allWrites isos⟩ := by
  have hfirst := returns_identity (Nat.zero_add _) junk []
  have hsecond := returns_overrides hlen hbus (List.nil_append isos).symm
    (memAfter junk (identityWrites 0 numberOfApicIoIrq.toNat))
    (identityWrites 0 numberOfApicIoIrq.toNat)
  rw [← memAfter_append] at hsecond
  constructor
  · rintro ⟨s, hs, hr⟩
    rw [hs.unique hfirst] at hr
    exact hr.unique hsecond
  · rintro rfl
    exact ⟨_, hfirst, hsecond⟩

/-- From 256 records on, the counter never gets past them. -/
theorem not_buildIrqToGsi (hlen : 256 ≤ isos.length) (hbus : ∀ ios ∈ isos, ios.busSource = 0)
    (r : Option GsiState) : ¬ BuildIrqToGsi isos junk r := by
  rintro ⟨s, -, hr⟩
  refine not_terminates_of_inl (fun s => ?_) _ ⟨r, hr⟩
  have hlt : s.i.toNat < isos.length := s.i.toNat_lt.trans_le hlen
  have hsome : isos[s.i.toNat]? = some isos[s.i.toNat] := List.getElem?_eq_getElem hlt
  have hzero := hbus isos[s.i.toNat] (List.getElem_mem hlt)
  exact ⟨_, by rw [overrideBody, hsome]; exact if_pos hzero⟩

end Loops

/-! ## 3. What the table should say -/

/-- The number of an interrupt: that of the last override for it, or its own. -/
def gsiOf (isos : List InterruptSourceOverride) (irq : UInt8) : UInt32 :=
  match isos.reverse.find? fun ios => ios.irqSource = irq with
  | some ios => ios.globalSystemInterrupt
  | none => irq.toUInt32

/-- **The table gives every ISA interrupt its number**, and no store went outside of it. -/
structure MapsIrqs (isos : List InterruptSourceOverride) (s : GsiState) : Prop where
  full : ∀ irq < numberOfApicIoIrq, (s.irqToGsi irq).toUInt32 = gsiOf isos irq
  inside : ∀ w ∈ s.writes, w.1 < numberOfApicIoIrq

section Maps

variable {isos : List InterruptSourceOverride} {junk : UInt8 → UInt8}

theorem gsiOf_concat (isos : List InterruptSourceOverride) (ios : InterruptSourceOverride)
    (irq : UInt8) :
    gsiOf (isos ++ [ios]) irq =
      if ios.irqSource = irq then ios.globalSystemInterrupt else gsiOf isos irq := by
  rw [gsiOf, List.reverse_append, List.reverse_singleton, List.singleton_append, List.find?_cons]
  by_cases h : ios.irqSource = irq
  · rw [if_pos h]
    simp [h]
  · rw [if_neg h]
    simp [h, gsiOf]

theorem identityWrites_lt {w : UInt8 × UInt8} (hw : w ∈ identityWrites 0 numberOfApicIoIrq.toNat) :
    w.1 < numberOfApicIoIrq ∧ w.2 = w.1 := by
  obtain ⟨j, hj, rfl⟩ := List.mem_map.mp hw
  have hmax : numberOfApicIoIrq.toNat = 24 := rfl
  obtain ⟨-, hlt⟩ := List.mem_range'_1.mp hj
  refine ⟨?_, rfl⟩
  rw [UInt8.lt_iff_toNat_lt, toNat_ofNat_of_lt_byte (by omega)]
  omega

/-- **A slot holds the number of its interrupt**, narrowed to a byte. -/
theorem memAfter_allWrites {irq : UInt8} (hirq : irq < numberOfApicIoIrq) :
    memAfter junk (allWrites isos) irq = (gsiOf isos irq).toUInt8 := by
  induction isos using List.reverseRecOn with
  | nil =>
      have hown : (gsiOf [] irq).toUInt8 = irq := UInt8.toUInt8_toUInt32 irq
      have hmem : (irq, irq) ∈ identityWrites 0 numberOfApicIoIrq.toNat := by
        refine List.mem_map.mpr ⟨irq.toNat, List.mem_range'_1.mpr ⟨Nat.zero_le _, ?_⟩, ?_⟩
        · rw [Nat.zero_add]
          exact UInt8.lt_iff_toNat_lt.mp hirq
        · rw [UInt8.ofNat_toNat]
      rw [hown, allWrites, List.map_nil, List.append_nil]
      exact memAfter_of_agree hmem fun e he heq => (identityWrites_lt he).2.trans heq
  | append_singleton isos ios ih =>
      have hwrites : allWrites (isos ++ [ios]) = allWrites isos ++ [ios.write] := by
        simp [allWrites]
      rw [hwrites, memAfter_concat, gsiOf_concat]
      by_cases h : ios.irqSource = irq
      · rw [if_pos h, ← h]
        exact Function.update_self _ _ _
      · rw [if_neg h, ← ih]
        exact Function.update_of_ne (fun heq => h heq.symm) _ _

theorem inside_iff :
    (∀ w ∈ allWrites isos, w.1 < numberOfApicIoIrq) ↔
      ∀ ios ∈ isos, ios.irqSource < numberOfApicIoIrq := by
  constructor
  · intro h ios hios
    exact h ios.write (List.mem_append_right _ (List.mem_map_of_mem hios))
  · intro h w hw
    rcases List.mem_append.mp hw with hw | hw
    · exact (identityWrites_lt hw).1
    · obtain ⟨ios, hios, rfl⟩ := List.mem_map.mp hw
      exact h ios hios

/-- A number is kept whole exactly when it fits in a byte. -/
theorem toUInt32_toUInt8_eq_iff (x : UInt32) : x.toUInt8.toUInt32 = x ↔ x < 256 := by
  rw [← UInt32.toNat_inj, UInt8.toNat_toUInt32, UInt32.toNat_toUInt8, UInt32.lt_iff_toNat_lt]
  show x.toNat % 2 ^ 8 = x.toNat ↔ x.toNat < 256
  omega

/-- The table after all stores is right, if these are inside of it and the numbers fit in a byte. -/
theorem mapsIrqs_allWrites (hinside : ∀ ios ∈ isos, ios.irqSource < numberOfApicIoIrq)
    (hfit : ∀ irq < numberOfApicIoIrq, gsiOf isos irq < 256) :
    MapsIrqs isos ⟨.ofNat isos.length, memAfter junk (allWrites isos), allWrites isos⟩ := by
  refine ⟨fun irq hirq => ?_, inside_iff.mpr hinside⟩
  dsimp only
  rw [memAfter_allWrites hirq]
  exact (toUInt32_toUInt8_eq_iff _).mpr (hfit irq hirq)

/-- A slot of a right table, as a byte. -/
theorem MapsIrqs.slot {s : GsiState} (h : MapsIrqs isos s) {irq : UInt8}
    (hirq : irq < numberOfApicIoIrq) : s.irqToGsi irq = (gsiOf isos irq).toUInt8 := by
  rw [← h.full irq hirq, UInt8.toUInt8_toUInt32]

/-- Different numbers are different bytes. -/
theorem MapsIrqs.byte_ne {s : GsiState} (h : MapsIrqs isos s) {irq irq' : UInt8}
    (hirq : irq < numberOfApicIoIrq) (hirq' : irq' < numberOfApicIoIrq)
    (hne : gsiOf isos irq ≠ gsiOf isos irq') :
    (gsiOf isos irq).toUInt8 ≠ (gsiOf isos irq').toUInt8 := by
  intro heq
  rw [← h.slot hirq, ← h.slot hirq'] at heq
  rw [← h.full irq hirq, ← h.full irq' hirq', heq] at hne
  exact hne rfl

/-- **The table is right** exactly when a byte can count the overrides, no source is outside of the
table, and the last number of each source fits in a byte. -/
theorem mapsIrqs_iff (hbus : ∀ ios ∈ isos, ios.busSource = 0) :
    (∃ s, BuildIrqToGsi isos junk (some s) ∧ MapsIrqs isos s) ↔
      isos.length < 256 ∧ (∀ ios ∈ isos, ios.irqSource < numberOfApicIoIrq) ∧
        ∀ irq < numberOfApicIoIrq, gsiOf isos irq < 256 := by
  constructor
  · rintro ⟨s, hs, hmaps⟩
    have hlen : isos.length < 256 := by
      by_contra hlong
      exact not_buildIrqToGsi (Nat.le_of_not_lt hlong) hbus _ hs
    obtain rfl := Option.some.inj ((buildIrqToGsi_iff hlen hbus _).mp hs)
    refine ⟨hlen, inside_iff.mp hmaps.inside, fun irq hirq => ?_⟩
    have hfull := hmaps.full irq hirq
    dsimp only at hfull
    rw [memAfter_allWrites hirq] at hfull
    exact (toUInt32_toUInt8_eq_iff _).mp hfull
  · rintro ⟨hlen, hinside, hfit⟩
    exact ⟨_, (buildIrqToGsi_iff hlen hbus _).mpr rfl, mapsIrqs_allWrites hinside hfit⟩

/-- The timer at its place in QEMU, and an interrupt that is moved twice. -/
theorem mapsIrqs_iff_three :
    ∃ s, BuildIrqToGsi [⟨0, 0, 2⟩, ⟨0, 9, 300⟩, ⟨0, 9, 20⟩] (fun _ => 0xAA) (some s) ∧
      MapsIrqs [⟨0, 0, 2⟩, ⟨0, 9, 300⟩, ⟨0, 9, 20⟩] s :=
  (mapsIrqs_iff (by decide)).mpr ⟨by decide, by decide, by decide +kernel⟩

/-- The keyboard at the number 257 gets the entry 1, and a source 200 is stored 176 bytes behind the
table. -/
theorem mapsIrqs_narrowed :
    (¬ ∃ s, BuildIrqToGsi [⟨0, 1, 257⟩] (fun _ => 0xAA) (some s) ∧ MapsIrqs [⟨0, 1, 257⟩] s) ∧
      ¬ ∃ s, BuildIrqToGsi [⟨0, 200, 5⟩] (fun _ => 0xAA) (some s) ∧ MapsIrqs [⟨0, 200, 5⟩] s := by
  constructor
  · rintro ⟨s, hs, hmaps⟩
    obtain rfl := Option.some.inj ((buildIrqToGsi_iff (by decide) (by decide) _).mp hs)
    have hfull := hmaps.full 1 (by decide)
    dsimp only at hfull
    rw [memAfter_allWrites (by decide)] at hfull
    exact absurd hfull (by decide)
  · rintro ⟨s, hs, hmaps⟩
    obtain rfl := Option.some.inj ((buildIrqToGsi_iff (by decide) (by decide) _).mp hs)
    exact absurd (hmaps.inside (200, 5) (by decide)) (by decide)

end Maps

end MapleKernel.Kernel
