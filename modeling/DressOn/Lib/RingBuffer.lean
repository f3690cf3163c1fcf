import Mathlib.Data.Nat.ModEq

/-!
# Ring slots

Entry `k` of an append-only record, kept in slot `k % cap` while it is among the
last `cap` entries.
-/

namespace DressOn.RingBuffer

/-- Entry `k` is among the last `cap` of `count` entries. -/
def Live (cap count k : Nat) : Prop := k < count ∧ count ≤ k + cap

/-- How many entries are kept. -/
def kept (cap count : Nat) : Nat := min count cap

variable {cap count k l : Nat}

theorem kept_succ : kept cap (count + 1) = min (kept cap count + 1) cap := by
  unfold kept
  omega

theorem kept_le : kept cap count ≤ cap := Nat.min_le_right _ _

/-- Entries live after an append were live before it, the new one apart. -/
theorem Live.cases_succ (live : Live cap (count + 1) k) :
    k = count ∨ (Live cap count k ∧ count < k + cap) := by
  unfold Live at *
  omega

/-- The new entry is live. -/
theorem live_new (positive : 0 < cap) : Live cap (count + 1) count := by
  unfold Live
  omega

/-- Live entries have different slots. -/
theorem Live.slot_injective (liveK : Live cap count k) (liveL : Live cap count l)
    (same : k % cap = l % cap) : k = l := by
  unfold Live at *
  rcases Nat.lt_or_ge k l with before | after
  · have multiple : cap ∣ l - k := (Nat.modEq_iff_dvd' before.le).mp same
    have := Nat.eq_zero_of_dvd_of_lt multiple (by omega)
    omega
  · have multiple : cap ∣ k - l := (Nat.modEq_iff_dvd' after).mp same.symm
    have := Nat.eq_zero_of_dvd_of_lt multiple (by omega)
    omega

/-- An entry that outlives an append is not in the slot the append takes. -/
theorem Live.slot_ne (live : Live cap count k) (outlives : count < k + cap) :
    k % cap ≠ count % cap := by
  intro same
  have later : Live cap (count + 1) k := by
    unfold Live at *
    omega
  have new : Live cap (count + 1) count := live_new (by unfold Live at live; omega)
  have := later.slot_injective new same
  unfold Live at live
  omega

/-- The slots in use are the first ones. -/
theorem Live.slot_lt (live : Live cap count k) : k % cap < kept cap count := by
  have below : k % cap ≤ k := Nat.mod_le k cap
  have positive : 0 < cap := by
    unfold Live at live
    omega
  have := Nat.mod_lt k positive
  unfold Live at live
  unfold kept
  omega

/-- Each of the first slots holds one live entry. -/
theorem exists_live (inUse : k < kept cap count) :
    ∃ entry, Live cap count entry ∧ entry % cap = k := by
  unfold kept at inUse
  have positive : 0 < cap := by omega
  have split := Nat.div_add_mod (count - 1 - k) cap
  have rest := Nat.mod_lt (count - 1 - k) positive
  refine ⟨k + cap * ((count - 1 - k) / cap), ?_, ?_⟩
  · unfold Live
    omega
  · rw [Nat.add_mul_mod_self_left, Nat.mod_eq_of_lt (by omega)]

/-- Counting slots from the oldest entry's gives an entry's age. -/
theorem Live.rank_eq (live : Live cap count k) {cursor : Nat}
    (follows : cursor % cap = count % cap) :
    (k % cap + cap - (cursor + cap - kept cap count) % cap) % cap =
      k - (count - kept cap count) := by
  have positive : 0 < cap := by
    unfold Live at live
    omega
  have few : kept cap count ≤ cap := kept_le
  have some : kept cap count ≤ count := Nat.min_le_left _ _
  have first : count - kept cap count ≤ k := by
    unfold Live at live
    unfold kept
    omega
  have late : k - (count - kept cap count) < cap := by
    unfold Live at live
    unfold kept
    omega
  have oldest : (cursor + cap - kept cap count) ≡ count - kept cap count [MOD cap] := by
    apply Nat.ModEq.add_right_cancel' (kept cap count)
    rw [Nat.sub_add_cancel (by omega), Nat.sub_add_cancel some]
    exact (Nat.add_mod_right cursor cap).trans follows
  have slot := Nat.mod_lt (cursor + cap - kept cap count) positive
  have age : (k % cap + cap - (cursor + cap - kept cap count) % cap) ≡
      k - (count - kept cap count) [MOD cap] := by
    apply Nat.ModEq.add_right_cancel' (count - kept cap count)
    calc k % cap + cap - (cursor + cap - kept cap count) % cap + (count - kept cap count)
        ≡ k % cap + cap - (cursor + cap - kept cap count) % cap +
            (cursor + cap - kept cap count) % cap [MOD cap] :=
          Nat.ModEq.add_left _ (oldest.symm.trans (Nat.mod_modEq _ _).symm)
      _ = k % cap + cap := Nat.sub_add_cancel (by omega)
      _ ≡ k [MOD cap] := (Nat.add_mod_right _ _).trans (Nat.mod_mod _ _)
      _ = k - (count - kept cap count) + (count - kept cap count) := by
          rw [Nat.sub_add_cancel first]
  exact Eq.trans age (Nat.mod_eq_of_lt late)

end DressOn.RingBuffer
