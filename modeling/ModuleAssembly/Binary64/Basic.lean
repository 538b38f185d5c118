/-!
# Binary floating point numbers

`Binary64` is a double precision number by its bits. `Binary64.view` reads the bits as infinity, as
not a number, or as a signed integer times a power of two; `Binary64.ofRatio` and
`Binary64.ofDecimal` round an exact quotient, or a decimal, to the nearest number, ties to the even
one. All arithmetic is on natural numbers, so the results are exact.
-/

namespace ModuleAssembly

/-- A double precision number, by its 64 bits. Two numbers are equal when their bits are. -/
structure Binary64 where
  /-- The sign bit, eleven bits of exponent and fifty-two of significand. -/
  bits : UInt64
deriving DecidableEq, Repr, Inhabited

namespace Binary64

/-- What the bits of a number say. -/
inductive View where
  /-- Not a number. -/
  | nan
  /-- An infinity. -/
  | infinity (negative : Bool)
  /-- The number `significand * 2 ^ exponent`, with a sign, also for zero. -/
  | finite (negative : Bool) (significand : Nat) (exponent : Int)

/-- The sign bit. -/
def signBit : Nat :=
  0x8000000000000000

/-- The first bit above those of the significand: the leading bit, which is not stored. -/
def leadingBit : Nat :=
  0x10000000000000

/-- The bits below the sign, as a natural number. -/
def magnitude (x : Binary64) : Nat :=
  x.bits.toNat % signBit

/-- Whether the sign bit is set. -/
def isNegative (x : Binary64) : Bool :=
  signBit ≤ x.bits.toNat

/-- The magnitude of the infinities: the least that is no finite number's. -/
def infinite : Nat :=
  0x7FF * leadingBit

/-- The number with a magnitude and a sign. -/
def ofMagnitude (negative : Bool) (magnitude : Nat) : Binary64 :=
  ⟨UInt64.ofNat (if negative then signBit + magnitude else magnitude)⟩

/-- Reads the bits of a number. -/
def view (x : Binary64) : View :=
  let m := x.magnitude
  if m > infinite then .nan
  else if m = infinite then .infinity x.isNegative
  else if m < leadingBit then .finite x.isNegative m (-1074)
  else .finite x.isNegative (m % leadingBit + leadingBit) ((m / leadingBit : Nat) - 1075)

/-- The quotient of two natural numbers, rounded to the nearest, a half to the even neighbour. -/
def divRound (num den : Nat) : Nat :=
  let q := num / den
  let twice := 2 * (num % den)
  if twice < den then q
  else if den < twice then q + 1
  else q + q % 2

/-- The number nearest to `num / den`, with a sign; infinite when it is too large. The exponent is
the one at which the quotient has fifty-three bits, and at least that of the least numbers; a
significand that rounds up to the next power of two carries into the exponent by itself. -/
def ofRatio (negative : Bool) (num den : Nat) : Binary64 :=
  if num = 0 then ofMagnitude negative 0
  else
    let scaled (e : Int) : Nat × Nat :=
      if e < 0 then (num * Nat.pow 2 e.natAbs, den) else (num, den * Nat.pow 2 e.natAbs)
    let low : Int := (num.log2 : Int) - den.log2 - 53
    let (n, d) := scaled low
    let e := max (if n / d < 2 * leadingBit then low else low + 1) (-1074)
    let (n, d) := scaled e
    let m := (e + 1074).toNat * leadingBit + divRound n d
    ofMagnitude negative (min m infinite)

/-- The number nearest to `mantissa * 10 ^ exponent`, with a sign. Decimals far beyond the largest
or the least number are decided by their number of digits. -/
def ofDecimal (negative : Bool) (mantissa : Nat) (exponent : Int) : Binary64 :=
  let digits : Int := (Nat.toDigits 10 mantissa).length
  if mantissa = 0 ∨ digits + exponent < -400 then ofMagnitude negative 0
  else if 400 < digits + exponent then ofMagnitude negative infinite
  else if exponent < 0 then ofRatio negative mantissa (Nat.pow 10 exponent.natAbs)
  else ofRatio negative (mantissa * Nat.pow 10 exponent.natAbs) 1

/-- Whether the number is neither infinite nor not a number. -/
def isFinite (x : Binary64) : Bool :=
  x.magnitude < infinite

/-- The integer that a number equals, if it is one. -/
def toInt? (x : Binary64) : Option Int :=
  match x.view with
  | .finite negative m e =>
    let signed (n : Nat) : Int := if negative then -n else n
    if 0 ≤ e then some (signed (m * Nat.pow 2 e.natAbs))
    else if m % Nat.pow 2 e.natAbs = 0 then some (signed (m / Nat.pow 2 e.natAbs))
    else none
  | _ => none

end Binary64

end ModuleAssembly
