import ModuleAssembly.Binary64.Basic

/-!
# The shortest decimal of a number

The reals that round to a number form an interval around it, whose ends belong to it when the
significand is even. `shortest` finds the fewest decimal digits of any real in that interval, and
among the decimals with so many digits the nearest to the number. It tries one digit, two, up to
seventeen, which always suffice; on each grid of decimals only the two neighbours of the number can
be the nearest.

`Binary64.text` writes these digits under the layout `Binary64.layout`.
-/

namespace ModuleAssembly.Binary64

/-- A decimal `digits * 10 ^ exponent`. -/
structure Decimal where
  /-- The digits, as a natural number. -/
  digits : Nat
  /-- The power of ten. -/
  exponent : Int

/-- The interval of a number on a common scale: the number is `mid / den`, the ends of its interval
are `low / den` and `high / den`. -/
structure Interval where
  /-- Numerator of the lower end. -/
  low : Nat
  /-- Numerator of the number. -/
  mid : Nat
  /-- Numerator of the upper end. -/
  high : Nat
  /-- The common denominator. -/
  den : Nat
  /-- Whether the ends belong to the interval. -/
  closed : Bool

/-- The interval of reals that round to `m * 2 ^ e`. Below a power of two the neighbour is half as
far as above it, except at the least exponent. -/
def interval (m : Nat) (e : Int) : Interval :=
  let below := if m = leadingBit ∧ -1074 < e then 1 else 2
  let scale := 4 * m
  let closed := m % 2 = 0
  if 0 ≤ e then
    let p := Nat.pow 2 e.natAbs
    ⟨(scale - below) * p, scale * p, (scale + 2) * p, 4, closed⟩
  else ⟨scale - below, scale, scale + 2, 4 * Nat.pow 2 e.natAbs, closed⟩

/-- Whether `num / den` lies in the interval, for a denominator of its own. -/
def Interval.contains (i : Interval) (num den : Nat) : Bool :=
  let x := num * i.den
  let lo := i.low * den
  let hi := i.high * den
  if i.closed then lo ≤ x && x ≤ hi else lo < x && x < hi

/-- The nearest decimal of the interval with the power of ten `exponent`, if the interval has one.
Of two at the same distance the even one is taken. -/
def Interval.onGrid (i : Interval) (exponent : Int) : Option Decimal :=
  let up := if exponent < 0 then Nat.pow 10 exponent.natAbs else 1
  let down := if exponent < 0 then 1 else Nat.pow 10 exponent.natAbs
  let num := i.mid * up
  let den := i.den * down
  let q := num / den
  let r := num % den
  let fits (n : Nat) : Bool := i.contains (n * down) up
  let nearest := if 2 * r < den ∨ (2 * r = den ∧ q % 2 = 0) then q else q + 1
  let other := if nearest = q then q + 1 else q
  if fits nearest then some ⟨nearest, exponent⟩
  else if fits other then some ⟨other, exponent⟩
  else none

/-- The decimal exponent of `num / den`: the power of ten of its leading digit. -/
def leadingPower (num den : Nat) : Int :=
  let digits (n : Nat) : Int := (Nat.toDigits 10 n).length
  let guess := digits num - digits den
  let atLeast (e : Int) : Bool :=
    if e < 0 then den ≤ num * Nat.pow 10 e.natAbs else den * Nat.pow 10 e.natAbs ≤ num
  if atLeast guess then guess else guess - 1

/-- The decimal without zeros at its end. -/
def Decimal.normal (d : Decimal) : Decimal :=
  let cs := (Nat.toDigits 10 d.digits).reverse
  let zeros := if d.digits = 0 then 0 else (cs.takeWhile (· == '0')).length
  ⟨d.digits / Nat.pow 10 zeros, d.exponent + zeros⟩

/-- The shortest decimal that rounds to the nonzero number `m * 2 ^ e`, the nearest of those. -/
def shortest (m : Nat) (e : Int) : Decimal :=
  let i := interval m e
  let power := leadingPower i.mid i.den
  let grids := (List.range 17).map fun (k : Nat) => power - (k : Int)
  ((grids.findSome? i.onGrid).getD ⟨i.mid / i.den, 0⟩).normal

/-- How the digits of a number are laid out. -/
structure Layout where
  /-- The least power of the leading digit that is written without an exponent. -/
  leastPositional : Int
  /-- The greatest power of the leading digit that is written without an exponent. -/
  greatestPositional : Int
  /-- What follows an integer that is written without an exponent. -/
  integerTail : String
  /-- The fewest digits of an exponent. -/
  exponentWidth : Nat
  /-- The text of an infinity. -/
  infinity : String
  /-- The text of what is not a number. -/
  nan : String

/-- Powers from -4 to 15 are positional, integers keep a point and a zero, and an exponent has a
sign and two digits. -/
def layout : Layout :=
  ⟨-4, 15, ".0", 2, "inf", "nan"⟩

/-- Digits with zeros in front, up to a width. -/
def padded (width n : Nat) : List Char :=
  let cs := Nat.toDigits 10 n
  List.replicate (width - cs.length) '0' ++ cs

/-- The text of a positive decimal under a layout. -/
def Layout.decimal (l : Layout) (d : Decimal) : String :=
  let cs := Nat.toDigits 10 d.digits
  let power : Int := d.exponent + cs.length - 1
  if power < l.leastPositional ∨ l.greatestPositional < power then
    let fraction := if cs.length ≤ 1 then [] else '.' :: cs.drop 1
    let sign := if power < 0 then '-' else '+'
    String.ofList (cs.take 1 ++ fraction ++ 'e' :: sign :: padded l.exponentWidth power.natAbs)
  else if 0 ≤ d.exponent then
    String.ofList (cs ++ List.replicate d.exponent.natAbs '0') ++ l.integerTail
  else if power < 0 then
    String.ofList ('0' :: '.' :: List.replicate (power.natAbs - 1) '0' ++ cs)
  else
    let whole := (power + 1).toNat
    String.ofList (cs.take whole ++ '.' :: cs.drop whole)

/-- The text of a number under a layout. -/
def Layout.number (l : Layout) (x : Binary64) : String :=
  let signed (negative : Bool) (s : String) : String := if negative then "-" ++ s else s
  match x.view with
  | .nan => l.nan
  | .infinity negative => signed negative l.infinity
  | .finite negative 0 _ => signed negative ("0" ++ l.integerTail)
  | .finite negative m e => signed negative (l.decimal (shortest m e))

/-- The text of a number: its shortest decimal, which reads back as the same number. -/
def text (x : Binary64) : String :=
  layout.number x

end ModuleAssembly.Binary64
