import ModuleAssembly.Binary64.Basic

/-!
# Sums and products of binary floating point numbers

`Binary64.add` and `Binary64.mul` round the exact sum or product of two finite numbers to the
nearest number. A sum of zero is negative only when both numbers are; the sign of a product is that
of its factors. What is not a number stays so, and so does what has no limit: opposite infinities
added, or an infinity times zero.
-/

namespace ModuleAssembly.Binary64

/-- The number nearest to `significand * 2 ^ exponent`, with a sign. -/
def ofScaled (negative : Bool) (significand : Nat) (exponent : Int) : Binary64 :=
  let power := Nat.pow 2 exponent.natAbs
  if exponent < 0 then ofRatio negative significand power
  else ofRatio negative (significand * power) 1

/-- What is not a number, without a sign. -/
def nan : Binary64 :=
  ofMagnitude false (infinite + leadingBit / 2)

/-- The number nearest to a natural number. -/
def ofNat (n : Nat) : Binary64 :=
  ofRatio false n 1

/-- The number with the other sign. -/
def neg (x : Binary64) : Binary64 :=
  ofMagnitude (!x.isNegative) x.magnitude

/-- A significand on a finer scale, with its sign. -/
def aligned (negative : Bool) (significand : Nat) (shift : Int) : Int :=
  let n : Int := significand * Nat.pow 2 shift.toNat
  if negative then -n else n

/-- The sum of two numbers. -/
def add (x y : Binary64) : Binary64 :=
  match x.view, y.view with
  | .finite s m e, .finite t n f =>
    let low := min e f
    let sum := aligned s m (e - low) + aligned t n (f - low)
    ofScaled (if sum = 0 then s && t else sum < 0) sum.natAbs low
  | .infinity s, .infinity t => if s = t then x else nan
  | .infinity _, .finite _ _ _ => x
  | .finite _ _ _, .infinity _ => y
  | _, _ => nan

/-- The product of two numbers. -/
def mul (x y : Binary64) : Binary64 :=
  let negative := x.isNegative != y.isNegative
  match x.view, y.view with
  | .finite _ m e, .finite _ n f => ofScaled negative (m * n) (e + f)
  | .infinity _, .finite _ 0 _ => nan
  | .finite _ 0 _, .infinity _ => nan
  | .nan, _ => nan
  | _, .nan => nan
  | _, _ => ofMagnitude negative infinite

end ModuleAssembly.Binary64
