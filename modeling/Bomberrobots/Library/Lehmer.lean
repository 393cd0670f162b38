import Mathlib.Data.ZMod.Units
import Mathlib.GroupTheory.OrderOfElement

/-! # Multiplicative generators

A generator that multiplies its state by a constant, modulo some number. From a state that is
prime to the modulus it never gets to zero, and it repeats itself with the order of the
multiplier.
-/

namespace Lehmer

variable {a m x : ℕ}

def next (a m x : ℕ) : ℕ := a * x % m

theorem iterate_next (n : ℕ) (hx : x < m) : (next a m)^[n] x = a ^ n * x % m := by
  induction n with
  | zero => simpa using (Nat.mod_eq_of_lt hx).symm
  | succ n ih =>
    rw [Function.iterate_succ_apply', ih, next, Nat.mul_mod_mod, ← Nat.mul_assoc, pow_succ']

theorem coprime_iterate (n : ℕ) (ha : a.Coprime m) (hx : x.Coprime m) :
    ((next a m)^[n] x).Coprime m := by
  induction n with
  | zero => exact hx
  | succ n ih =>
    rw [Function.iterate_succ_apply', next, Nat.Coprime, ← Nat.gcd_rec, Nat.gcd_comm]
    exact ha.mul_left ih

theorem iterate_pos (n : ℕ) (hm : 1 < m) (ha : a.Coprime m) (hx : x.Coprime m) :
    0 < (next a m)^[n] x := by
  refine Nat.pos_of_ne_zero fun h0 => ?_
  have hcop := coprime_iterate n ha hx
  rw [h0, Nat.coprime_zero_left] at hcop
  omega

/-- The states after two numbers of steps are equal exactly if the period divides the distance. -/
theorem iterate_eq_iff {n k : ℕ} (ha : a.Coprime m) (hx : x.Coprime m) (hlt : x < m) :
    (next a m)^[n] x = (next a m)^[k] x ↔ n ≡ k [MOD orderOf (a : ZMod m)] := by
  have hcast : ∀ j, (((next a m)^[j] x : ℕ) : ZMod m) = ((ZMod.unitOfCoprime a ha) ^ j *
      ZMod.unitOfCoprime x hx : (ZMod m)ˣ) := by
    intro j
    rw [iterate_next j hlt]
    simp
  have hbound : ∀ j, (next a m)^[j] x < m := by
    intro j
    rw [iterate_next j hlt]
    exact Nat.mod_lt _ (Nat.zero_lt_of_lt hlt)
  rw [← ZMod.coe_unitOfCoprime a ha, orderOf_units, ← pow_eq_pow_iff_modEq]
  constructor
  · intro h
    have hunits := congrArg (Nat.cast : ℕ → ZMod m) h
    rw [hcast, hcast, Units.val_inj] at hunits
    exact mul_right_cancel hunits
  · intro h
    have hmod : (((next a m)^[n] x : ℕ) : ZMod m) = (((next a m)^[k] x : ℕ) : ZMod m) := by
      rw [hcast, hcast, h]
    rw [ZMod.natCast_eq_natCast_iff'] at hmod
    rwa [Nat.mod_eq_of_lt (hbound n), Nat.mod_eq_of_lt (hbound k)] at hmod

end Lehmer
