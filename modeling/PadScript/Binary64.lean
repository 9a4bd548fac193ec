import PadScript.Text.Numeral

/-!
# Double-precision numbers

The non-negative finite numbers of the binary64 format, as `significand * 2 ^ exponent`, in exact
arithmetic on natural numbers. A ratio is rounded to the nearest of them, and of two to the even
one. `toText` writes the shortest decimal that rounds back to a number, and `toTextTwoPlaces` writes
a number with two places after the point.
-/

namespace PadScript

/-- A non-negative finite binary64 number. -/
structure Binary64 where
  significand : Nat
  exponent : Int
  deriving DecidableEq, Repr

/-- The power of two. -/
def twoPow (k : Nat) : Nat := Nat.pow 2 k

/-- The power of ten. -/
def tenPow (k : Nat) : Nat := Nat.pow 10 k

/-- The quotient, rounded to the nearest integer, and from the middle to the even one. -/
def roundHalfEven (num den : Nat) : Nat :=
  let quotient := num / den
  let rest := num % den
  if 2 * rest < den then quotient
  else if den < 2 * rest then quotient + 1
  else if quotient % 2 = 0 then quotient
  else quotient + 1

namespace Binary64

/-- The exponent of the smallest positive number. -/
def leastExponent : Int := -1074

/-- The exponent of the greatest numbers. -/
def greatestExponent : Int := 971

/-- The number zero. -/
def zero : Binary64 := ⟨0, leastExponent⟩

/-- Whether a number is zero. -/
def isZero (f : Binary64) : Bool := f.significand = 0

/-- The numerator of a number as a ratio. -/
def num (f : Binary64) : Nat := f.significand * twoPow f.exponent.toNat

/-- The denominator of a number as a ratio. -/
def den (f : Binary64) : Nat := twoPow (-f.exponent).toNat

/-- The integer part of the binary logarithm of a positive ratio. -/
def floorLog2 (num den : Nat) : Int :=
  let guess : Int := (num.log2 : Int) - (den.log2 : Int)
  if num * twoPow (-guess).toNat < den * twoPow guess.toNat then guess - 1 else guess

/-- The number nearest to a ratio; nothing if it lies beyond the greatest number. -/
def ofRatio (num den : Nat) : Option Binary64 :=
  if num = 0 then some zero
  else
    let exponent := max (floorLog2 num den - 52) leastExponent
    let significand :=
      roundHalfEven (num * twoPow (-exponent).toNat) (den * twoPow exponent.toNat)
    let f : Binary64 :=
      if significand = twoPow 53 then ⟨twoPow 52, exponent + 1⟩ else ⟨significand, exponent⟩
    if f.exponent ≤ greatestExponent then some f else none

/-- The greatest power of ten that is a finite number. -/
def greatestPowerOfTen : Nat := 308

/-- The number nearest to a power of ten. -/
def powerOfTen (k : Nat) : Binary64 := (ofRatio (tenPow k) 1).getD zero

/-- The rounded product of two numbers; nothing if it is too great. -/
def mul (f g : Binary64) : Option Binary64 := ofRatio (f.num * g.num) (f.den * g.den)

/-- The rounded quotient of two numbers, when the divisor is at least one. -/
def div (f g : Binary64) : Binary64 := (ofRatio (f.num * g.den) (f.den * g.num)).getD zero

/-- The number divided by the greatest power of ten, so many times. -/
def divGreatest : Nat → Binary64 → Binary64
  | 0, f => f
  | n + 1, f => if f.isZero then f else divGreatest n (f.div (powerOfTen greatestPowerOfTen))

/-- The value of a significand and a power of ten, rounded at each step: the significand first,
then each multiplication or division by a power of ten. Nothing if it is too great. -/
def ofDecimal (significand : Nat) (exponent : Int) : Option Binary64 := do
  let f ← ofRatio significand 1
  if 0 ≤ exponent then
    if f.isZero then some f
    else if exponent.toNat ≤ greatestPowerOfTen then f.mul (powerOfTen exponent.toNat)
    else none
  else
    let k := (-exponent).toNat
    some ((divGreatest (k / greatestPowerOfTen) f).div (powerOfTen (k % greatestPowerOfTen)))

/-- The number of steps by which a ratio below one must be multiplied by ten to reach one. -/
def leadingZeros (num den : Nat) : Nat → Nat
  | 0 => 0
  | fuel + 1 => if den ≤ num then 0 else leadingZeros (num * 10) den fuel + 1

/-- The integer part of the decimal logarithm of a positive number. -/
def floorLog10 (f : Binary64) : Int :=
  if f.den ≤ f.num then ((Text.ofNat (f.num / f.den)).length : Int) - 1
  else -(leadingZeros f.num f.den 400 : Int)

/-- Whether the decimal `digits * 10 ^ power` rounds to the number. -/
def roundsTo (f : Binary64) (digits : Nat) (power : Int) : Bool :=
  let narrow := f.significand = twoPow 52 ∧ leastExponent < f.exponent
  let low := 4 * f.significand - (if narrow then 1 else 2)
  let high := 4 * f.significand + 2
  let binary := f.exponent - 2
  let here := digits * tenPow power.toNat * twoPow (-binary).toNat
  let scale := tenPow (-power).toNat * twoPow binary.toNat
  if f.significand % 2 = 0 then low * scale ≤ here && here ≤ high * scale
  else low * scale < here && here < high * scale

/-- The nearest decimal with so many digits that rounds to the number, if there is one. -/
def withDigits (f : Binary64) (count : Nat) : Option (Nat × Int) :=
  let power := f.floorLog10 - (count : Int) + 1
  let num := f.num * tenPow (-power).toNat
  let den := f.den * tenPow power.toNat
  let below := num / den
  let nearest := roundHalfEven num den
  let other := if nearest = below then below + 1 else below
  if f.roundsTo nearest power then some (nearest, power)
  else if f.roundsTo other power then some (other, power)
  else none

/-- The shortest decimal that rounds to the number: its digits and the power of ten of the last.
Seventeen digits always suffice. -/
def shortest (f : Binary64) : Nat × Int :=
  ((List.range 17).findSome? fun n => f.withDigits (n + 1)).getD (0, 0)

/-- The digits without the zeros at their end, and how many zeros those were. -/
def dropZeros (digits : Text) : Text × Nat :=
  let kept := (digits.reverse.dropWhile (· = '0')).reverse
  (kept, digits.length - kept.length)

/-- The exponent of a number written with one digit before the point, always with a sign. -/
def exponentText (e : Int) : Text :=
  'e' :: (if e < 0 then '-' else '+') :: Text.ofNat e.natAbs

/-- The shortest decimal form: positional from `10 ^ -5` up to below `10 ^ 16`, always with a
point, and with an exponent beyond. -/
def toText (f : Binary64) : Text :=
  if f.isZero then "0.0".toList
  else
    let (n, power) := f.shortest
    let (digits, zeros) := dropZeros (Text.ofNat n)
    let power := power + zeros
    let lead : Int := power + digits.length - 1
    if lead < -5 ∨ 15 < lead then
      match digits with
      | d :: rest =>
        d :: (if rest.isEmpty then [] else '.' :: rest) ++ exponentText lead
      | [] => []
    else if 0 ≤ power then digits ++ List.replicate power.toNat '0' ++ ".0".toList
    else if 0 ≤ lead then
      digits.take (lead.toNat + 1) ++ '.' :: digits.drop (lead.toNat + 1)
    else "0.".toList ++ List.replicate (-lead - 1).toNat '0' ++ digits

/-- The number with exactly two places after the point, rounded from its exact value; a half goes
to the even neighbour. -/
def toTextTwoPlaces (f : Binary64) : Text :=
  let hundredths := roundHalfEven (f.num * 100) f.den
  Text.ofNat (hundredths / 100) ++
    ['.', Nat.digitChar (hundredths / 10 % 10), Nat.digitChar (hundredths % 10)]

end Binary64

end PadScript
