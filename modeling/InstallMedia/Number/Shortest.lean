import InstallMedia.Number.Binary64

/-!
# The shortest decimal text of a value

A binary value is written with the fewest decimal digits that read back as the same value, and of
the texts with so many digits the nearest one.

## Main definitions

* `Shortest.Decimal`: digits times a power of ten
* `Shortest.ofBinary64`: the shortest decimal of a value
* `Shortest.text`: that decimal, positional unless it is very large or very small
-/

namespace InstallMedia.Shortest

/-- The decimal `digits * 10 ^ exponent`. -/
structure Decimal where
  digits : Nat
  exponent : Int
  deriving DecidableEq, Repr

def Decimal.fraction (d : Decimal) : Nat × Nat :=
  if 0 ≤ d.exponent then (d.digits * Nat.pow 10 d.exponent.toNat, 1)
  else (d.digits, Nat.pow 10 (-d.exponent).toNat)

/-- Whether a decimal reads back as a value. -/
def readsBack (x : Binary64) (d : Decimal) : Bool :=
  Binary64.ofFraction? d.fraction.1 d.fraction.2 = some x

/-- The distance of a decimal from a value, over the product of the denominators. -/
def distance (x : Binary64) (d : Decimal) : Nat :=
  let a := x.fraction.1 * d.fraction.2
  let b := d.fraction.1 * x.fraction.2
  (a - b) + (b - a)

/-- The number of decimal digits before the point. -/
def wholeDigits (n : Nat) : Nat := if n = 0 then 0 else (Nat.toDigits 10 n).length

/-- The number of zeros right after the point of a fraction below one: at most `fuel` of them. -/
def leadingZeros (num den : Nat) : (fuel : Nat) → Nat
  | 0 => 0
  | fuel + 1 => if den ≤ num * 10 then 0 else leadingZeros (num * 10) den fuel + 1

/-- The place of the first digit: a value is at least one tenth of ten to this power, and below
this power. -/
def magnitude (x : Binary64) : Int :=
  let (num, den) := x.fraction
  if den ≤ num then wholeDigits (num / den) else -(leadingZeros num den 400 : Int)

/-- The two decimals next to a value whose last digit stands for `10 ^ e`. -/
def neighbours (x : Binary64) (e : Int) : List Decimal :=
  let (num, den) := x.fraction
  let (n, d) :=
    if 0 ≤ e then (num, den * Nat.pow 10 e.toNat) else (num * Nat.pow 10 (-e).toNat, den)
  [⟨n / d, e⟩, ⟨n / d + 1, e⟩]

/-- The nearer of the decimals with so many digits that read back as a value, if there is one. -/
def withDigits? (x : Binary64) (count : Nat) : Option Decimal :=
  match (neighbours x (magnitude x - count)).filter (readsBack x) with
  | [] => none
  | [d] => some d
  | d :: e :: _ => some (if distance x e < distance x d then e else d)

/-- A decimal without zeros at its end: at most `fuel` of them. -/
def withoutZeros (d : Decimal) : (fuel : Nat) → Decimal
  | 0 => d
  | fuel + 1 =>
    if d.digits % 10 = 0 ∧ d.digits ≠ 0 then withoutZeros ⟨d.digits / 10, d.exponent + 1⟩ fuel
    else d

/-- The shortest decimal that reads back as a value. -/
def ofBinary64 (x : Binary64) : Decimal :=
  -- Seventeen digits tell any two values apart.
  match (List.range 17).findSome? fun n => withDigits? x (n + 1) with
  | some d => withoutZeros d 20
  | none => ⟨0, 0⟩

def zeros (n : Nat) : String := String.ofList (List.replicate n '0')

/-- A value: positional with a point from `0.00001` to below ten to the power sixteen, else with an
exponent of at least two digits. -/
def text (x : Binary64) : String :=
  if x.significand = 0 then "0.0"
  else
    let d := ofBinary64 x
    let digits := Nat.toDigits 10 d.digits
    let point : Int := digits.length + d.exponent
    if 0 ≤ d.exponent ∧ point ≤ 16 then
      String.ofList digits ++ zeros d.exponent.toNat ++ ".0"
    else if 0 < point ∧ point ≤ 16 then
      String.ofList (digits.take point.toNat) ++ "." ++ String.ofList (digits.drop point.toNat)
    else if -5 < point ∧ point ≤ 0 then
      "0." ++ zeros (-point).toNat ++ String.ofList digits
    else
      let e := point - 1
      let exponent := Nat.toDigits 10 e.natAbs
      let mantissa := String.ofList (digits.take 1) ++
        (if digits.length = 1 then "" else "." ++ String.ofList (digits.drop 1))
      mantissa ++ "e" ++ (if e < 0 then "-" else "+") ++ zeros (2 - exponent.length) ++
        String.ofList exponent

end InstallMedia.Shortest
