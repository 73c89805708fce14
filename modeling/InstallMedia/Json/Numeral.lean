import InstallMedia.Json.Cursor

/-!
# Numbers of JSON text

A number without a fraction and an exponent is exact as long as it fits 64 bits; any other number
is a binary value.  Digits that do not fit the significand of 64 bits only move the exponent.

## Main definitions

* `Json.Numeral`
* `Json.numeral`: reads a number after its sign
-/

namespace InstallMedia.Json

/-- A number as it is read. -/
inductive Numeral where
  | unsigned (value : Nat)
  | negative (magnitude : Nat)
  | float (minus : Bool) (magnitude : Binary64)
  deriving DecidableEq, Repr

/-- A number where another kind of value is wanted. -/
def Numeral.found : Numeral → Found
  | .unsigned value => .unsigned value
  | .negative magnitude => .negative magnitude
  | .float minus magnitude => .float minus magnitude

namespace Numeral

/-- Numbers below this bound fit 64 bits. -/
def bound : Nat := Nat.pow 2 64

/-- Exponents above this bound are not told apart. -/
def largestExponent : Nat := Nat.pow 2 31 - 1

def digitValue (c : Char) : Nat := c.toNat - 0x30

/-- Whether a character stands before an exponent. -/
def isExponentMark (c : Char) : Bool := c = 'e' || c = 'E'

/-- A significand with digits after it as far as it fits, and the number of digits that do not. -/
def accumulate (significand : Nat) : List Char → Nat × Nat
  | [] => (significand, 0)
  | d :: more =>
    let longer := significand * 10 + digitValue d
    -- The first digit that does not fit ends the significand, whatever comes after it.
    if longer < bound then accumulate longer more else (significand, more.length + 1)

/-- A value times ten to a power, scaled in steps that can be represented: at most `fuel` of
them. -/
def scale (f : Binary64) (exponent : Int) : (fuel : Nat) → Option Binary64
  | 0 => some .zero
  | fuel + 1 =>
    match Binary64.powerOfTen? exponent.natAbs with
    | some power => if 0 ≤ exponent then f.mul? power else f.div? power
    | none =>
      -- No power of ten is that small, so the value is made smaller in steps.
      if f = .zero then some .zero
      else if 0 ≤ exponent then none
      else
        match Binary64.powerOfTen? 308 with
        | none => none
        | some power =>
          match f.div? power with
          | none => none
          | some f => scale f (exponent + 308) fuel

/-- The binary value of a significand and an exponent. -/
def binary (minus : Bool) (significand : Nat) (exponent : Int) : Reader Numeral :=
  match (Binary64.ofNat? significand).bind fun f => scale f exponent 8 with
  | some f => pure (.float minus f)
  | none => failHere .numberTooLarge

/-- The digits of an exponent up to the one with which it grows too large; whether there is such
a one. -/
def exponentDigits (e : Nat) : List Char → Nat × Nat × Bool
  | [] => (e, 0, false)
  | d :: more =>
    let longer := e * 10 + digitValue d
    if longer ≤ largestExponent then
      let (e, count, tooLarge) := exponentDigits longer more
      (e, count + 1, tooLarge)
    else (e, 1, true)

def exponent (minus : Bool) (significand : Nat) (start : Int) : Reader Numeral := do
  skip
  let down ← do
    match ← peek with
    | some '+' => skip; pure false
    | some '-' => skip; pure true
    | _ => pure false
  match ← peek with
  | none => failHere .endInValue
  | some c =>
    if c.isDigit then do
      let before ← Attempt.get
      let ds ← digits
      let (e, count, tooLarge) := exponentDigits 0 ds
      if tooLarge then
        if significand ≠ 0 ∧ !down then do
          Attempt.set before
          failAfter count .numberTooLarge
        else pure (.float minus .zero)
      else binary minus significand (if down then start - e else start + e)
    else failNext .invalidNumber

/-- Reads what follows the digits before a point and, if there is one, after it. -/
def afterDigits (minus : Bool) (significand : Nat) (e : Int) : Reader Numeral := do
  match ← peek with
  | some c =>
    if isExponentMark c then exponent minus significand e else binary minus significand e
  | none => binary minus significand e

/-- Reads a point and the digits after it. -/
def fraction (minus : Bool) (significand : Nat) (e : Int) : Reader Numeral := do
  skip
  match ← digits with
  | [] =>
    match ← peek with
    | some _ => failNext .invalidNumber
    | none => failHere .endInValue
  | ds =>
    let (significand, dropped) := accumulate significand ds
    afterDigits minus significand (e - (ds.length - dropped : Nat))

/-- A number without fraction and exponent. -/
def whole (minus : Bool) (significand : Nat) : Numeral :=
  if !minus then .unsigned significand
  else if 0 < significand ∧ significand ≤ Nat.pow 2 63 then .negative significand
  else .float true ((Binary64.ofNat? significand).getD .zero)

/-- Reads what follows the first digits of a number, of which `dropped` did not fit. -/
def afterWhole (minus : Bool) (significand dropped : Nat) : Reader Numeral := do
  match ← peek with
  | some c =>
    if c = '.' then fraction minus significand dropped
    else if isExponentMark c then exponent minus significand dropped
    else if dropped = 0 then pure (whole minus significand)
    else binary minus significand dropped
  | none =>
    if dropped = 0 then pure (whole minus significand) else binary minus significand dropped

end Numeral

def numeral (minus : Bool) : Reader Numeral := do
  match ← peek with
  | none => failHere .endInValue
  | some '0' => do
    skip
    match ← peek with
    | some c => if c.isDigit then failNext .invalidNumber else Numeral.afterWhole minus 0 0
    | none => Numeral.afterWhole minus 0 0
  | some c =>
    if c.isDigit then do
      let (significand, dropped) := Numeral.accumulate 0 (← digits)
      Numeral.afterWhole minus significand dropped
    else failNext .invalidNumber

def signedNumeral : Reader Numeral := do
  match ← peek with
  | some '-' => do skip; numeral true
  | _ => numeral false

end InstallMedia.Json
