/-!
# The shortest decimal of a number

A double stands for all real numbers that are rounded to it. Its shortest decimal has the fewest
digits among the decimals in that interval, and of those the nearest one is taken. Everything is
computed in whole numbers: a positive double is `mantissa * 2 ^ (exponent - 1074)`.
-/

namespace LogAudit.Decimal

/-- A positive double. -/
structure Double where
  mantissa : Nat
  exponent : Nat
  deriving DecidableEq, Repr

/-- A decimal `digits * 10 ^ scale`. -/
structure Numeral where
  digits : Nat
  scale : Int
  deriving DecidableEq, Repr

/-- The double with these bits, if it is positive and finite. -/
def Double.ofBits? (bits : UInt64) : Option Double :=
  let field := bits.toNat / 0x10000000000000
  let fraction := bits.toNat % 0x10000000000000
  if field = 0 then if fraction = 0 then none else some ⟨fraction, 0⟩
  else if field < 2047 then some ⟨0x10000000000000 + fraction, field - 1⟩
  else none

/-- A positive fraction of whole numbers. -/
structure Ratio where
  num : Nat
  den : Nat
  deriving DecidableEq, Repr

namespace Ratio

/-- The first fraction is not above the second. -/
def le (a b : Ratio) : Bool := a.num * b.den ≤ b.num * a.den

/-- The first fraction is below the second. -/
def lt (a b : Ratio) : Bool := a.num * b.den < b.num * a.den

/-- How far two fractions are apart. -/
def distance (a b : Ratio) : Ratio :=
  ⟨(a.num * b.den - b.num * a.den) + (b.num * a.den - a.num * b.den), a.den * b.den⟩

end Ratio

namespace Double

/-- A number of quarters of the unit in the last place, as a fraction. -/
def quarters (d : Double) (count : Nat) : Ratio :=
  if 1076 ≤ d.exponent then ⟨count * Nat.pow 2 (d.exponent - 1076), 1⟩
  else ⟨count, Nat.pow 2 (1076 - d.exponent)⟩

/-- The double itself. -/
def value (d : Double) : Ratio := d.quarters (4 * d.mantissa)

/-- The lower end of the interval of numbers that are rounded to the double. The gap below a power
of two is half as wide. -/
def low (d : Double) : Ratio :=
  d.quarters (4 * d.mantissa - (if d.mantissa = 0x10000000000000 && 0 < d.exponent then 1 else 2))

/-- The upper end of the interval. -/
def high (d : Double) : Ratio := d.quarters (4 * d.mantissa + 2)

/-- A number is rounded to the double; the ends belong to even mantissas. -/
def rounds (d : Double) (r : Ratio) : Bool :=
  if d.mantissa % 2 = 0 then d.low.le r && r.le d.high else d.low.lt r && r.lt d.high

end Double

namespace Numeral

/-- The decimal as a fraction. -/
def ratio (d : Numeral) : Ratio :=
  if 0 ≤ d.scale then ⟨d.digits * Nat.pow 10 d.scale.toNat, 1⟩
  else ⟨d.digits, Nat.pow 10 (-d.scale).toNat⟩

/-- The best decimal of a scale that is rounded to a double: one of the two neighbours of the
double's value. -/
def atScale? (d : Double) (scale : Int) : Option Numeral :=
  let v := d.value
  let unit := ratio ⟨1, scale⟩
  let below := v.num * unit.den / (v.den * unit.num)
  let candidates := ([⟨below, scale⟩, ⟨below + 1, scale⟩] : List Numeral).filter fun c =>
    0 < c.digits && d.rounds c.ratio
  match candidates with
  | [] => none
  | [c] => some c
  | a :: b :: _ =>
    let near := (a.ratio.distance v).lt (b.ratio.distance v)
    let tie := (a.ratio.distance v).le (b.ratio.distance v) && a.digits % 2 == 0
    some (if near || tie then a else b)

/-- Search scales downwards for the first with a decimal that is rounded to a double. -/
def search (d : Double) : Nat → Int → Option Numeral
  | 0, scale => atScale? d scale
  | more + 1, scale => (atScale? d scale).orElse fun _ => search d more (scale - 1)

/-- The shortest decimal of a double. No double is `10 ^ 309` or more, and at `10 ^ -324` each has a
decimal. -/
def shortest (d : Double) : Option Numeral := search d 633 309

/-- The digits without zeros at their end, and the scale for them. -/
def trim (d : Numeral) : Nat → Numeral
  | 0 => d
  | more + 1 =>
    if 0 < d.digits && d.digits % 10 == 0 then trim ⟨d.digits / 10, d.scale + 1⟩ more else d

/-- The text of a decimal: with a point up to sixteen digits before it and four zeros after it, and
with an exponent otherwise. -/
def toText (d : Numeral) : String :=
  let d := d.trim 20
  let digits := Nat.toDigits 10 d.digits
  let point : Int := digits.length + d.scale
  let zeros (n : Int) : List Char := List.replicate n.toNat '0'
  let places (n : Nat) : List Char := digits.take n ++ ['.'] ++ digits.drop n
  if 0 ≤ d.scale && point ≤ 16 then String.ofList (digits ++ zeros d.scale ++ ['.', '0'])
  else if 0 < point && point ≤ 16 then String.ofList (places point.toNat)
  else if -5 < point && point ≤ 0 then String.ofList (['0', '.'] ++ zeros (-point) ++ digits)
  else
    let front := if digits.length = 1 then digits else places 1
    String.ofList front ++ "e" ++ toString (point - 1)

end Numeral

/-- The text of a number that is not negative. -/
def floatText (x : Float) : String :=
  match (Double.ofBits? x.toBits).bind Numeral.shortest with
  | some d => d.toText
  | none => "0.0"

end LogAudit.Decimal
