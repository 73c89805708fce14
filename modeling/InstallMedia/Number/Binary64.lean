/-!
# Binary floating point of 64 bits

A value that is not negative is a significand times a power of two.  Every fraction has a nearest
such value, ties going to the even significand, unless it is too large.

## Main definitions

* `Binary64`, `Binary64.ofFraction?`: the value nearest to a fraction
* `Binary64.mul?`, `Binary64.div?`: rounded product and quotient
* `Binary64.powerOfTen?`
-/

namespace InstallMedia

/-- The value `significand * 2 ^ exponent`. -/
structure Binary64 where
  significand : Nat
  exponent : Int
  deriving DecidableEq, Repr

namespace Binary64

def zero : Binary64 := ⟨0, 0⟩

def leastExponent : Int := -1074

def largestExponent : Int := 971

/-- The numerator and the denominator of `num / den / 2 ^ e`. -/
def scaled (num den : Nat) (e : Int) : Nat × Nat :=
  if 0 ≤ e then (num, den * Nat.pow 2 e.toNat) else (num * Nat.pow 2 (-e).toNat, den)

/-- The quotient rounded to the nearest number, a tie to the even one. -/
def roundHalfEven (num den : Nat) : Nat :=
  let q := num / den
  let twice := 2 * (num % den)
  if twice < den then q else if den < twice then q + 1 else q + q % 2

/-- The exponent under which a fraction has a significand of 53 bits, if it is not below the least
exponent. -/
def exponentOf (num den : Nat) : Int :=
  -- The guess is right, or one too large.
  let guess : Int := (Nat.log2 num : Int) - Nat.log2 den - 52
  let (n, d) := scaled num den guess
  let e := if n / d < Nat.pow 2 52 then guess - 1 else guess
  max e leastExponent

/-- The value nearest to a fraction, or nothing if the fraction is too large. -/
def ofFraction? (num den : Nat) : Option Binary64 :=
  if num = 0 ∨ den = 0 then some zero
  else
    let e := exponentOf num den
    let (n, d) := scaled num den e
    let s := roundHalfEven n d
    -- Rounding up may have taken one bit more.
    let (s, e) := if s = Nat.pow 2 53 then (Nat.pow 2 52, e + 1) else (s, e)
    if largestExponent < e then none else if s = 0 then some zero else some ⟨s, e⟩

def fraction (x : Binary64) : Nat × Nat :=
  if 0 ≤ x.exponent then (x.significand * Nat.pow 2 x.exponent.toNat, 1)
  else (x.significand, Nat.pow 2 (-x.exponent).toNat)

/-- The rounded product, or nothing if it is too large. -/
def mul? (x y : Binary64) : Option Binary64 :=
  ofFraction? (x.fraction.1 * y.fraction.1) (x.fraction.2 * y.fraction.2)

/-- The rounded quotient, or nothing if it is too large. -/
def div? (x y : Binary64) : Option Binary64 :=
  ofFraction? (x.fraction.1 * y.fraction.2) (x.fraction.2 * y.fraction.1)

/-- The value nearest to a power of ten, or nothing if that is too large. -/
def powerOfTen? (n : Nat) : Option Binary64 :=
  if 308 < n then none else ofFraction? (Nat.pow 10 n) 1

def ofNat? (n : Nat) : Option Binary64 := ofFraction? n 1

end Binary64

end InstallMedia
