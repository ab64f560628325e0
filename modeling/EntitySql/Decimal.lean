/-! # Decimal texts of binary64 numbers

    A `Double` is given by its 64 bits: a sign, eleven bits of exponent and
    52 of fraction. `Double.magnitude` reads them. A finite number other than
    zero has the absolute value `m * 2 ^ q`. Numbers compare by value: the two
    zeros are equal, and a NaN differs from every number, itself included.

    A number is written with the shortest digits that read back as the same
    number. A binary number `m * 2 ^ q` stands for the reals that round to it:
    those between the midpoints to its two neighbours, the midpoints included
    exactly if `m` is even. The shortest decimal among them lies on the
    coarsest grid `10 ^ s * ℤ` that has a point in that interval, and if any
    point of a grid does, then so does one of the two grid points around the
    number itself. Of two such points the nearer one is taken, and `Tie` says
    which one if both are equally near. All is exact arithmetic on natural
    numbers, in units of a quarter of `2 ^ q`.

    A `DecimalFormat` decides all else: which numbers are written without an
    exponent, whether an integral one ends in `.0`, which digits a tie takes,
    and how NaN and the infinities are written.
-/

namespace EntitySql

/-! ## Numbers -/

/-- A floating-point number of 64 bits, as its bits. -/
structure Double where
  bits : UInt64
  deriving DecidableEq, Repr, Inhabited

namespace Double

/-! ### Reading the bits -/

def isNegative (x : Double) : Bool := Nat.pow 2 63 ≤ x.bits.toNat

/-- The eleven bits of the exponent. -/
def exponentField (x : Double) : Nat := x.bits.toNat / Nat.pow 2 52 % Nat.pow 2 11

/-- The 52 bits of the fraction. -/
def fractionField (x : Double) : Nat := x.bits.toNat % Nat.pow 2 52

/-- What a number is apart from its sign; `finite m q` stands for `m * 2 ^ q`. -/
inductive Magnitude where
  | nan
  | infinite
  | zero
  | finite (m : Nat) (q : Int)
  deriving DecidableEq, Repr

/-- The magnitude that the bits stand for. -/
def magnitude (x : Double) : Magnitude :=
  let e := x.exponentField
  let f := x.fractionField
  if e = 2047 then if f = 0 then .infinite else .nan
  else if e = 0 then if f = 0 then .zero else .finite f (-1074)
  else .finite (Nat.pow 2 52 + f) ((e : Int) - 1075)

/-! ### Comparison by value -/

def equals (x y : Double) : Bool :=
  match x.magnitude, y.magnitude with
  | .nan, _ => false
  | _, .nan => false
  | .zero, .zero => true
  | _, _ => x.bits == y.bits

theorem equals_comm (x y : Double) : x.equals y = y.equals x := by
  unfold equals
  cases x.magnitude <;> cases y.magnitude <;> simp [Bool.beq_comm]

/-- Exactly a NaN differs from itself. -/
theorem equals_self (x : Double) : x.equals x = true ↔ x.magnitude ≠ .nan := by
  unfold equals
  cases x.magnitude <;> simp

end Double

/-! ## The shortest decimal that reads back -/

/-- The number `digits * 10 ^ exponent`. -/
structure Decimal where
  digits : Nat
  exponent : Int
  deriving DecidableEq, Repr, Inhabited

namespace Decimal

/-- Which of two equally near decimals is taken. -/
inductive Tie where
  | up
  | even
  deriving DecidableEq, Repr

/-! ### The interval of a binary number -/

/-- The lower end of the interval of `m * 2 ^ q`, in quarters of `2 ^ q`. Below a
    power of two the numbers lie twice as dense. -/
def lowerQuarters (m : Nat) (q : Int) : Nat :=
  if m = Nat.pow 2 52 ∧ -1074 < q then 4 * m - 1 else 4 * m - 2

/-- The upper end of the interval. -/
def upperQuarters (m : Nat) : Nat := 4 * m + 2

/-! ### One grid -/

/-- The grid point chosen for `m * 2 ^ q` among the multiples of `10 ^ s`, if one
    of its two neighbours on that grid rounds to it. -/
def onGrid (tie : Tie) (m : Nat) (q s : Int) : Option Nat :=
  let scale (quarters : Nat) := quarters * Nat.pow 2 (q - 2).toNat * Nat.pow 10 (-s).toNat
  let unit := Nat.pow 2 (2 - q).toNat * Nat.pow 10 s.toNat
  let below := scale (4 * m) / unit
  let above := below + 1
  let closed := m % 2 = 0
  let low := scale (lowerQuarters m q)
  let high := scale (upperQuarters m)
  let belowFits := low < below * unit ∨ (closed ∧ low = below * unit)
  let aboveFits := above * unit < high ∨ (closed ∧ above * unit = high)
  let rest := 2 * (scale (4 * m) - below * unit)
  if belowFits then
    if aboveFits then
      if rest < unit then some below
      else if unit < rest then some above
      else match tie with
        | .up => some above
        | .even => some (if below % 2 = 0 then below else above)
    else some below
  else if aboveFits then some above
  else none

/-! ### The coarsest grid -/

/-- The exponents of the grids that a binary64 number can need, coarsest first. -/
def gridExponents : List Int := (List.range 660).map fun (i : Nat) => 310 - (i : Int)

/-- The shortest decimal that rounds to `m * 2 ^ q`. -/
def shortest (tie : Tie) (m : Nat) (q : Int) : Decimal :=
  (gridExponents.findSome? fun s => (onGrid tie m q s).map fun d => ⟨d, s⟩).getD ⟨0, 0⟩

end Decimal

/-! ## Texts -/

/-- The decisions that a text of a number leaves open. -/
structure DecimalFormat where
  /-- The decimal exponents `e` of `d.ddd * 10 ^ e` written without an exponent, from the
      first up to but not including the second; `none` for all of them -/
  positional : Option (Int × Int)
  /-- Whether an integral number without an exponent ends in `.0` -/
  pointZero : Bool
  tie : Decimal.Tie
  nan : String
  infinity : String
  negativeInfinity : String

namespace Decimal

/-- The decimal digits of a natural number. -/
def digitChars (n : Nat) : List Char := Nat.toDigits 10 n

/-- Digits times a power of ten without an exponent. -/
def positionalText (pointZero : Bool) (digits : List Char) (exponent : Int) : List Char :=
  if 0 ≤ exponent then
    digits ++ List.replicate exponent.toNat '0' ++ (if pointZero then ['.', '0'] else [])
  else
    let places := (-exponent).toNat
    if places < digits.length then
      digits.take (digits.length - places) ++ '.' :: digits.drop (digits.length - places)
    else
      '0' :: '.' :: (List.replicate (places - digits.length) '0' ++ digits)

/-- Digits times a power of ten with an exponent, which has a sign. -/
def scientificText (digits : List Char) (exponent : Int) : List Char :=
  let mantissa := match digits with
    | d :: e :: rest => d :: '.' :: e :: rest
    | ds => ds
  let sign := if exponent < 0 then '-' else '+'
  mantissa ++ 'e' :: sign :: digitChars exponent.natAbs

def text (format : DecimalFormat) (x : Decimal) : List Char :=
  let digits := digitChars x.digits
  let leading := x.exponent + digits.length - 1
  let positional := match format.positional with
    | none => true
    | some (first, limit) => first ≤ leading && leading < limit
  if positional then positionalText format.pointZero digits x.exponent
  else scientificText digits leading

end Decimal

namespace Double

def text (format : DecimalFormat) (x : Double) : String :=
  let signed (cs : List Char) : String :=
    String.ofList (if x.isNegative then '-' :: cs else cs)
  match x.magnitude with
  | .nan => format.nan
  | .infinite => if x.isNegative then format.negativeInfinity else format.infinity
  | .zero => signed (if format.pointZero then ['0', '.', '0'] else ['0'])
  | .finite m q => signed ((Decimal.shortest format.tie m q).text format)

end Double

end EntitySql
