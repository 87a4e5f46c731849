import Flowstep.Decimal.Layout
import Mathlib

/-!
Doubles by their bits and by their parts: the bits of a finite double say the same as its sign, its mantissa and its exponent.
-/
namespace Flowstep.Decimal

open Float.Model (UnpackedFloat Format)
open Float.Model.UnpackedFloat

theorem binary_bias : ((Format.binary64.exponentBias : Nat) : Int) + Format.binary64.mantissaBitsWithoutImplicit = 1075 := by decide

theorem biased_exponent (q : Int) :
    q + ((Format.binary64.exponentBias : Nat) : Int) + Format.binary64.mantissaBitsWithoutImplicit = q + 1075 := by
  have := binary_bias
  omega

def ofComponents (spec : Format) (sign : Sign) (exponent : BitVec spec.exponentBits)
    (mantissa : BitVec spec.mantissaBitsWithoutImplicit) : UnpackedFloat :=
  let power : Int := exponent.toNat - (spec.exponentBias + spec.mantissaBitsWithoutImplicit)
  if exponent = -1#_ then if mantissa = 0#_ then .infinity sign else .notANumber
  else if exponent = 0#_ then
    if none : mantissa = 0#_ then .zero sign
    else .finite sign mantissa.toNat (power + 1)
      (Nat.pos_of_ne_zero fun zero => none (BitVec.eq_of_toNat_eq (zero.trans BitVec.toNat_zero.symm)))
  else .finite sign (1#1 ++ mantissa).toNat power (by
    have leading : 0 < 1 <<< spec.mantissaBitsWithoutImplicit := by
      rw [Nat.one_shiftLeft]
      exact Nat.two_pow_pos _
    rw [BitVec.toNat_append]
    exact Nat.lt_of_lt_of_le leading Nat.left_le_or)

theorem unpack_components (spec : Format) (sign : Sign) (exponent : BitVec spec.exponentBits)
    (mantissa : BitVec spec.mantissaBitsWithoutImplicit) :
    UnpackedFloat.unpack spec (packComponents spec sign exponent mantissa) = ofComponents spec sign exponent mantissa := by
  have apart (b : BitVec spec.numBits) : UnpackedFloat.unpack spec b =
      ofComponents spec (Sign.ofBitVec (unpackSign b)) (unpackExponent b) (unpackMantissa b) := rfl
  rw [apart, unpackMantissa_packComponents, unpackExponent_packComponents, unpackSign_packComponents, Sign.ofBitVec_toBitVec]

theorem float_lt (x y : Float) : x < y ↔ x.toModel.unpack.lt y.toModel.unpack = true := decide_eq_true_iff

variable {x : Float}

theorem finite_lt (n m : Nat) (k e : Int) (some : 0 < n) (filled : 0 < m) :
    (UnpackedFloat.finite .positive n k some).lt (.finite .positive m e filled) = true ↔ k < e ∨ k = e ∧ n < m := by
  change (Option.some ((compare k e).then (compare n m)) == Option.some Ordering.lt) = true ↔ _
  rw [beq_iff_eq, Option.some.injEq, Ordering.then_eq_lt, Int.compare_eq_lt, Int.compare_eq_eq, Nat.compare_eq_lt]

theorem exponent_bits (b : BitVec 64) : (@unpackExponent .binary64 b).toNat = b.toNat / leadingBit % 2048 := by
  simp [unpackExponent, leadingBit, Nat.shiftRight_eq_div_pow]

theorem sign_bits (b : BitVec 64) : (@unpackSign .binary64 b).toNat = b.toNat / signBit % 2 := by
  delta unpackSign
  simp [signBit, Nat.shiftRight_eq_div_pow]

variable {b : BitVec 64} {sign : Sign} {m : Nat}

theorem finite_bits {e : Int} (filled : 0 < m) (same : UnpackedFloat.unpack .binary64 b = .finite sign m e filled) :
    sign = Sign.ofBitVec (@unpackSign .binary64 b) ∧
      if b.toNat / leadingBit % 2048 = 0 then m = b.toNat % leadingBit ∧ e = -1074
      else m = b.toNat % leadingBit + leadingBit ∧ e = ((b.toNat / leadingBit % 2048 : Nat) : Int) - 1075 := by
  unfold UnpackedFloat.unpack at same
  dsimp only at same
  rw [exponent_bits] at same
  split at same
  · split at same <;> cases same
  · split at same
    · rename_i zero
      have biased : b.toNat / leadingBit % 2048 = 0 := by
        rw [← exponent_bits, zero]
        rfl
      rw [if_pos biased]
      split at same
      · cases same
      · injection same with signed mantissa exponent
        rw [biased] at exponent
        exact ⟨signed.symm, mantissa.symm, exponent.symm⟩
    · rename_i other
      have biased : b.toNat / leadingBit % 2048 ≠ 0 := fun zero =>
        other (BitVec.eq_of_toNat_eq (by rw [exponent_bits]; exact zero))
      rw [if_neg biased]
      injection same with signed mantissa exponent
      refine ⟨signed.symm, ?_, exponent.symm⟩
      rw [BitVec.toNat_append, ← Nat.shiftLeft_add_eq_or_of_lt (BitVec.isLt _)] at mantissa
      rw [← mantissa, Nat.add_comm]
      rfl

structure Regular (m : Nat) (q : Int) : Prop where
  filled : 0 < m
  short : m < 9007199254740992
  least : -1074 ≤ q
  normal : q = -1074 ∨ leadingBit ≤ m

variable {q : Int}

theorem regular_log (regular : Regular m q) : m.log2 + 1 = 53 ↔ leadingBit ≤ m := by
  have some := regular.filled
  have short := regular.short
  have below : m.log2 < 53 := (Nat.log2_lt (by omega)).mpr (by omega)
  have whole : 2 ^ 52 ≤ m ↔ 52 ≤ m.log2 := (Nat.le_log2 (by omega)).symm
  rw [leadingBit]
  omega

theorem unpack_pack (sign : Sign) (filled : 0 < m) (regular : Regular m q) (finite : q < 972) :
    UnpackedFloat.unpack .binary64 (UnpackedFloat.pack .binary64 (.finite sign m q filled)) = .finite sign m q filled := by
  have short := regular.short
  have least := regular.least
  have log := regular_log regular
  unfold UnpackedFloat.pack
  dsimp only
  rw [biased_exponent, if_neg (by omega)]
  have places : Format.binary64.mantissaBits = 53 := rfl
  rw [places]
  by_cases large : leadingBit ≤ m
  · rw [if_pos (log.mpr large)]
    rw [unpack_components, ofComponents]
    have number : (BitVec.ofNat Format.binary64.exponentBits (q + 1075).toNat).toNat = (q + 1075).toNat := by
      exact Nat.mod_eq_of_lt (by change _ < 2 ^ 11; omega)
    have full : BitVec.ofNat Format.binary64.exponentBits (q + 1075).toNat ≠ -1#_ := by
      intro same
      rw [same] at number
      have ones : (-BitVec.ofNat Format.binary64.exponentBits 1).toNat = 2047 := by decide
      omega
    have zero : BitVec.ofNat Format.binary64.exponentBits (q + 1075).toNat ≠ 0#_ := by
      intro same
      rw [same, BitVec.toNat_zero] at number
      omega
    rw [if_neg full, if_neg zero, number]
    congr 1
    · rw [BitVec.toNat_append, ← Nat.shiftLeft_add_eq_or_of_lt (BitVec.isLt _)]
      rw [leadingBit] at large
      change 1 <<< 52 + m % 2 ^ 52 = m
      omega
    · rw [binary_bias]
      omega
  · rw [if_neg (mt log.mp large)]
    have least := regular.normal.resolve_right large
    rw [unpack_components, ofComponents]
    have number : (BitVec.ofNat Format.binary64.mantissaBitsWithoutImplicit m).toNat = m := by
      refine Nat.mod_eq_of_lt ?_
      rw [leadingBit] at large
      change _ < 2 ^ 52
      omega
    have nonzero : BitVec.ofNat Format.binary64.mantissaBitsWithoutImplicit m ≠ 0#_ := by
      intro same
      rw [same, BitVec.toNat_zero] at number
      omega
    rw [if_neg (by decide), if_pos rfl, dif_neg nonzero]
    congr 1
    · rw [least]
      rfl

def ofParts (sign : Sign) (m : Nat) (q : Int) (filled : 0 < m) : Float := ⟨.pack (.finite sign m q filled)⟩

theorem of_parts_unpack (sign : Sign) (filled : 0 < m) (regular : Regular m q) (finite : q < 972) :
    (ofParts sign m q filled).toModel.unpack = .finite sign m q filled := unpack_pack sign filled regular finite

theorem neg_of_parts (filled : 0 < m) (regular : Regular m q) (finite : q < 972) :
    -ofParts .positive m q filled = ofParts .negative m q filled := by
  have unpacked := of_parts_unpack .positive filled regular finite
  change Float.ofModel (.pack (ofParts .positive m q filled).toModel.unpack.neg) = _
  rw [unpacked]
  rfl

def signPart : Sign → Nat
  | .positive => 0
  | .negative => signBit

theorem sign_part_bits (signed : sign = Sign.ofBitVec (@unpackSign .binary64 b)) :
    signPart sign = b.toNat / signBit % 2 * signBit := by
  rw [signed, ← sign_bits b]
  by_cases zero : (@unpackSign .binary64 b) = 0#1
  · rw [zero]
    rfl
  · have one : (@unpackSign .binary64 b) = 1#1 := by
      apply BitVec.eq_of_toNat_eq
      have other : (@unpackSign .binary64 b).toNat ≠ 0 := fun same => zero (BitVec.eq_of_toNat_eq same)
      change _ = 1
      omega
    rw [one]
    rfl

theorem unpack_bits (filled : 0 < m) (same : UnpackedFloat.unpack .binary64 b = .finite sign m q filled) :
    Regular m q ∧ q < 972 ∧
      b.toNat = signPart sign + ((q + 1074).toNat * leadingBit + m) := by
  obtain ⟨signed, bits⟩ := finite_bits filled same
  have top : b.toNat / leadingBit % 2048 ≠ 2047 := by
    intro full
    have ones : @unpackExponent .binary64 b = -1#_ := by
      apply BitVec.eq_of_toNat_eq
      rw [exponent_bits, full]
      decide
    unfold UnpackedFloat.unpack at same
    rw [if_pos ones] at same
    split at same <;> cases same
  have signedBit := sign_part_bits signed
  rw [leadingBit] at *
  rw [signBit] at *
  split at bits
  · obtain ⟨rfl, rfl⟩ := bits
    exact ⟨⟨filled, by omega, by decide, .inl rfl⟩, by decide, by omega⟩
  · obtain ⟨rfl, rfl⟩ := bits
    refine ⟨⟨filled, by omega, by omega, .inr (by rw [leadingBit]; omega)⟩, by omega, by omega⟩

theorem eq_of_unpack {u : UnpackedFloat} (same : x.toModel.unpack = u) : x = ⟨.pack u⟩ := same ▸ (Float.ofBits_toBits x).symm

theorem eq_of_parts (filled : 0 < m) (same : x.toModel.unpack = .finite sign m q filled) : x = ofParts sign m q filled :=
  eq_of_unpack same

theorem of_bits_parts (filled : 0 < m) (regular : Regular m q) (finite : q < 972) :
    Float.ofBits (UInt64.ofNat ((q + 1074).toNat * leadingBit + m)) = ofParts .positive m q filled := by
  have unpacked := unpack_pack .positive filled regular finite
  obtain ⟨_, _, bits⟩ := unpack_bits filled unpacked
  rw [signPart, Nat.zero_add] at bits
  have equal : (UInt64.ofNat ((q + 1074).toNat * leadingBit + m)).toBitVec =
      UnpackedFloat.pack .binary64 (.finite .positive m q filled) := by
    apply BitVec.eq_of_toNat_eq
    rw [bits]
    exact UInt64.toNat_ofNat_of_lt' (bits ▸ BitVec.isLt _)
  change Float.ofModel (.pack (UnpackedFloat.unpack .binary64 _)) = _
  rw [equal, unpacked]
  rfl

theorem parts_finite (filled : 0 < m) (same : x.toModel.unpack = .finite sign m q filled) :
    (parts x).mantissa = m ∧ (parts x).exponent = q := by
  obtain ⟨_, bits⟩ := finite_bits filled same
  have number : x.toModel.toBits.toBitVec.toNat = x.toBits.toNat := rfl
  rw [number] at bits
  unfold parts
  split at bits
  · rename_i biased
    rw [if_pos biased]
    exact ⟨bits.1.symm, bits.2.symm⟩
  · rename_i biased
    rw [if_neg biased]
    exact ⟨bits.1.symm, bits.2.symm⟩

theorem is_negative_finite (filled : 0 < m) (same : x.toModel.unpack = .finite sign m q filled) :
    isNegative x = true ↔ sign = .negative := by
  obtain ⟨regular, finite, bits⟩ := unpack_bits filled same
  have number : x.toModel.toBits.toBitVec.toNat = x.toBits.toNat := rfl
  have short := regular.short
  rw [number, leadingBit] at bits
  rw [isNegative, decide_eq_true_eq, bits, signBit]
  cases sign with
  | positive =>
    simp only [signPart, reduceCtorEq, iff_false]
    omega
  | negative => simp [signPart, signBit]

theorem positive_finite (positive : 0 < x) (finite : x.isFinite = true) :
    ∃ m q, ∃ filled : 0 < m, x.toModel.unpack = .finite .positive m q filled := by
  rw [float_lt] at positive
  change x.toModel.unpack.isFinite = true at finite
  cases same : x.toModel.unpack with
  | notANumber => rw [same] at finite; cases finite
  | infinity sign => rw [same] at finite; cases finite
  | zero sign => rw [same] at positive; cases positive
  | finite sign m q filled =>
    cases sign with
    | negative => rw [same] at positive; cases positive
    | positive => exact ⟨m, q, filled, rfl⟩

theorem below_finite {y : Float} (positive : 0 < x) (below : x < y) : x.isFinite = true := by
  rw [float_lt] at positive below
  change x.toModel.unpack.isFinite = true
  cases same : x.toModel.unpack with
  | notANumber => rw [same] at positive; cases positive
  | zero sign => rfl
  | finite sign m q filled => rfl
  | infinity sign =>
    rw [same] at positive below
    cases sign with
    | negative => cases positive
    | positive =>
      generalize y.toModel.unpack = u at below
      cases u with
      | infinity s => cases s <;> cases below
      | _ => cases below

theorem below_limit (filled : 0 < m) (same : x.toModel.unpack = .finite .positive m q filled) :
    x < 9223372036854775808 ↔ q ≤ 10 := by
  have limit : (9223372036854775808 : Float).toModel.unpack = .finite .positive 4503599627370496 11 (by decide) := by
    rfl
  have regular := (unpack_bits filled same).1
  rw [float_lt, same, limit, finite_lt]
  constructor
  · rintro (less | ⟨rfl, less⟩)
    · omega
    · have least := regular.normal.resolve_left (by decide)
      rw [leadingBit] at least
      omega
  · intro small
    exact .inl (by omega)

theorem exact_below (positive : 0 < x) (below : x < 9007199254740992) : x < 9223372036854775808 := by
  obtain ⟨m, q, filled, same⟩ := positive_finite positive (below_finite positive below)
  have limit : (9007199254740992 : Float).toModel.unpack = .finite .positive 4503599627370496 1 (by decide) := by
    rfl
  rw [float_lt, same, limit, finite_lt] at below
  exact (below_limit filled same).mpr (by omega)

end Flowstep.Decimal
