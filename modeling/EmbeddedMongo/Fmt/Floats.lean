import EmbeddedMongo.Fmt.Bytes

/-!
# Binary64

A finite binary64 is an integer number of the smallest positive one, `2 ^ -1074`, so that its
value is exact without fractions. A quotient of naturals is rounded to the nearest such value
that has at most 53 significant bits, to the even one of two as near.
-/

namespace Fmt

/-- The value of bytes, least significant first. -/
def ofLE (bytes : List UInt8) : Nat := bytes.foldr (fun byte high => byte.toNat + 2 ^ 8 * high) 0

/-- A double, as its value. -/
inductive Binary64 where
  | nan
  | infinite (negative : Bool)
  /-- `scaled * 2 ^ -1074`, or its negative. -/
  | finite (negative : Bool) (scaled : Nat)
  deriving DecidableEq, Repr

namespace Binary64

/-- The number one, in units of the smallest positive value. -/
def one : Nat := 2 ^ 1074

theorem one_pos : 0 < one := pow_pos Nat.two_pos 1074

/-- The double these bits encode. -/
def ofBits (bits : Nat) : Binary64 :=
  let negative := decide (bits / 2 ^ 63 % 2 = 1)
  let field := bits / 2 ^ 52 % 2 ^ 11
  let fraction := bits % 2 ^ 52
  if field = 2047 then (if fraction = 0 then .infinite negative else .nan)
  else if field = 0 then .finite negative fraction
  else .finite negative ((2 ^ 52 + fraction) * 2 ^ (field - 1))

/-- The nearest natural to `a / d`, the even one of two. -/
def nearest (a d : Nat) : Nat :=
  if 2 * (a % d) < d ∨ (2 * (a % d) = d ∧ a / d % 2 = 0) then a / d else a / d + 1

/-- `a / d` as a binary64. -/
def round (negative : Bool) (a d : Nat) : Binary64 :=
  let unit := 2 ^ ((a * one / d).log2 - 52)
  let scaled := nearest (a * one) (d * unit) * unit
  if scaled < 2 ^ 1024 * one then .finite negative scaled else .infinite negative

/-- The conversion from an integer, rounded to even. -/
def ofInt (n : Int) : Binary64 := round (decide (n < 0)) n.natAbs 1

/-- Equal to `0.0`, as a comparison has it: both zeros are, and a NaN is not. -/
def isZero : Binary64 → Bool
  | .finite _ scaled => scaled == 0
  | .nan | .infinite _ => false

/-- Towards zero, and to the nearest bound from outside; a NaN to zero. -/
def toInt32 : Binary64 → Int32
  | .nan => 0
  | .infinite negative => if negative = true then -2147483648 else 2147483647
  | .finite negative scaled =>
    if negative = true then .ofInt (-(min (scaled / one) (2 ^ 31) : Nat))
    else .ofInt (min (scaled / one) (2 ^ 31 - 1) : Nat)

/-- Less than one in magnitude, or not a number. -/
def Fractional : Binary64 → Prop
  | .nan => True
  | .infinite _ => False
  | .finite _ scaled => scaled < one

theorem ofInt_eq_zero_iff {n : Int} (low : -2 ^ 31 ≤ n) (high : n < 2 ^ 31) : Int32.ofInt n = 0 ↔ n = 0 := by
  rw [← Int32.toInt_inj, Int32.toInt_ofInt_of_le low high, Int32.toInt_zero]

/-- A double narrows to zero just if there is nothing of it before the point. -/
theorem toInt32_eq_zero_iff (x : Binary64) : x.toInt32 = 0 ↔ x.Fractional := by
  cases x with
  | nan => exact iff_of_true rfl trivial
  | infinite negative =>
    refine iff_of_false ?_ not_false
    cases negative <;> decide
  | finite negative scaled =>
    have hfrac : scaled / one = 0 ↔ scaled < one := Nat.div_eq_zero_iff_lt one_pos
    show _ ↔ scaled < one
    rw [← hfrac]
    simp only [toInt32]
    generalize scaled / one = whole
    cases negative with
    | true =>
      rw [if_pos rfl, ofInt_eq_zero_iff (by omega) (by omega)]
      omega
    | false =>
      rw [if_neg Bool.false_ne_true, ofInt_eq_zero_iff (by omega) (by omega)]
      omega

end Binary64

end Fmt
