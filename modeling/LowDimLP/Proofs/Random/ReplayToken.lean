import Mathlib.Data.Fintype.EquivFin
import LowDimLP.Random.ReplayToken
/-!
# Tokens and the seeds of their streams

Mixing loses nothing: multiplying by an odd word is undone by its inverse, and a word that is folded onto itself
by a shift can be told from the result, since a difference that survives would be its own shift
(`eq_zero_of_shiftRight_eq_self`). So the mixing permutes the words (`mix_bijective`), and at one seed every index, and
at one index every seed, has a stream seed of its own (`streamSeed_bijective`).
-/

namespace LowDimLP.ReplayToken

instance : Finite UInt64 := Finite.of_injective UInt64.toFin fun _ _ => UInt64.toFin_inj.mp

/-! ## Steps of the mixing -/

/-- A word folded onto itself by a shift. -/
def xorShift (amount x : UInt64) : UInt64 := x ^^^ (x >>> amount)

/-- Only zero is not made smaller by a shift. -/
theorem eq_zero_of_shiftRight_eq_self {amount x : UInt64} (moves : 0 < amount.toNat % 64)
    (same : x >>> amount = x) : x = 0 := by
  have value : x.toNat / 2 ^ (amount.toNat % 64) = x.toNat := by
    rw [← Nat.shiftRight_eq_div_pow, ← UInt64.toNat_shiftRight, same]
  have zero : x.toNat = 0 := by
    by_contra positive
    have smaller : x.toNat / 2 ^ (amount.toNat % 64) < x.toNat :=
      Nat.div_lt_self (Nat.pos_of_ne_zero positive) (Nat.one_lt_two_pow moves.ne')
    exact smaller.ne value
  exact UInt64.toNat_inj.mp zero

theorem xorShift_bijective {amount : UInt64} (moves : 0 < amount.toNat % 64) :
    Function.Bijective (xorShift amount) := by
  refine Finite.injective_iff_bijective.mp fun x y same => ?_
  -- Both operations are linear, so the difference of the two words is folded to zero.
  have folded : (x ^^^ y) ^^^ ((x ^^^ y) >>> amount) = 0 := by
    calc (x ^^^ y) ^^^ ((x ^^^ y) >>> amount)
        = (x ^^^ (x >>> amount)) ^^^ (y ^^^ (y >>> amount)) := by
          rw [UInt64.shiftRight_xor]
          ac_rfl
      _ = 0 := UInt64.xor_eq_zero_iff.mpr same
  have difference : x ^^^ y = 0 :=
    eq_zero_of_shiftRight_eq_self moves (UInt64.xor_eq_zero_iff.mp folded).symm
  exact UInt64.xor_eq_zero_iff.mp difference

theorem mul_bijective {factor inverse : UInt64} (unit : factor * inverse = 1) :
    Function.Bijective (· * factor) := by
  refine Function.bijective_iff_has_inverse.mpr ⟨(· * inverse), fun x => ?_, fun x => ?_⟩
  · show x * factor * inverse = x
    rw [UInt64.mul_assoc, unit, UInt64.mul_one]
  · show x * inverse * factor = x
    rw [UInt64.mul_assoc, UInt64.mul_comm inverse, unit, UInt64.mul_one]

theorem xor_bijective (mask : UInt64) : Function.Bijective (· ^^^ mask) := by
  have undone : Function.Involutive (· ^^^ mask) := fun x => by
    show x ^^^ mask ^^^ mask = x
    rw [UInt64.xor_assoc, UInt64.xor_self, UInt64.xor_zero]
  exact undone.bijective

theorem add_bijective (offset : UInt64) : Function.Bijective (· + offset) :=
  Function.bijective_iff_has_inverse.mpr
    ⟨(· - offset), fun x => UInt64.add_sub_cancel x offset, fun x => UInt64.sub_add_cancel x offset⟩

/-! ## Stream seeds -/

/-- The mixing permutes the words. -/
theorem mix_bijective : Function.Bijective mix := by
  have first : (0xbf58476d1ce4e5b9 : UInt64) * 0x96de1b173f119089 = 1 := by decide
  have second : (0x94d049bb133111eb : UInt64) * 0x319642b2d24d8ec3 = 1 := by decide
  have steps : mix = xorShift 31 ∘ (· * 0x94d049bb133111eb) ∘ xorShift 27 ∘ (· * 0xbf58476d1ce4e5b9) ∘
      xorShift 30 := rfl
  rw [steps]
  exact (xorShift_bijective (by decide)).comp <| (mul_bijective second).comp <|
    (xorShift_bijective (by decide)).comp <| (mul_bijective first).comp (xorShift_bijective (by decide))

/-- **Tokens do not collide within a family.** In each word of a token, while the other one stays, the seed of
its stream is a permutation of the words. -/
theorem streamSeed_bijective :
    (∀ seed : UInt64, Function.Bijective fun index => streamSeed ⟨seed, index⟩) ∧
      ∀ index : UInt64, Function.Bijective fun seed => streamSeed ⟨seed, index⟩ := by
  constructor
  · intro seed
    have steps : (fun index => streamSeed ⟨seed, index⟩) =
        mix ∘ (· ^^^ seed) ∘ mix ∘ (· + 0x9e3779b97f4a7c15) := by
      funext index
      exact congrArg mix (UInt64.xor_comm _ _)
    rw [steps]
    exact mix_bijective.comp <| (xor_bijective seed).comp <| mix_bijective.comp (add_bijective _)
  · intro index
    exact mix_bijective.comp (xor_bijective (mix (index + 0x9e3779b97f4a7c15)))

end LowDimLP.ReplayToken
