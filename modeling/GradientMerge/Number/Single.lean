import GradientMerge.Number.Binary

/-!
Contract: single-precision numbers as 32-bit patterns, and their passage to and from double
precision.

Owns:
- the type `Single`, whose equality is that of patterns, so that a stored number is never changed
  by being stored;
- rounded arithmetic and comparisons, which follow the patterns' numbers;
- the exact widening to double precision, the rounding from it, and the elementary functions
  computed there.

Does not own: the text of numbers.
-/

namespace GradientMerge

/-- A single-precision number, given by its bits. -/
structure Single where
  bits : UInt32
deriving DecidableEq, Repr, Inhabited

namespace Single

/-- The machine number with this pattern. -/
def native (x : Single) : Float32 := Float32.ofBits x.bits

/-- The pattern of a machine number. -/
def ofNative (x : Float32) : Single := ⟨x.toBits⟩

instance : Zero Single := ⟨⟨0⟩⟩
instance : One Single := ⟨⟨0x3f800000⟩⟩
instance : Add Single := ⟨fun x y => ofNative (x.native + y.native)⟩
instance : Sub Single := ⟨fun x y => ofNative (x.native - y.native)⟩
instance : Mul Single := ⟨fun x y => ofNative (x.native * y.native)⟩
instance : Div Single := ⟨fun x y => ofNative (x.native / y.native)⟩
instance : Neg Single := ⟨fun x => ofNative (-x.native)⟩

/-- Whether the first number is less; false as soon as one of them is not a number. -/
def isLess (x y : Single) : Bool := decide (x.native < y.native)

/-- Whether the number is zero, of either sign. -/
def isZero (x : Single) : Bool := x.bits == 0 || x.bits == 0x80000000

/-- The sign bit of single precision. -/
def signBit : Nat := 0x80000000

/-- The sign bit of double precision. -/
def doubleSignBit : Nat := 0x8000000000000000

/-- The pattern without the sign. -/
def magnitude (x : Single) : Nat := x.bits.toNat % signBit

/-- Whether the sign bit is set. -/
def isNegative (x : Single) : Bool := signBit ≤ x.bits.toNat

/-- Whether the number is neither infinite nor a missing number. -/
def isFinite (x : Single) : Bool := x.magnitude < BinaryFormat.single.infinity

/-- Whether the pattern stands for no number. -/
def isNaN (x : Single) : Bool := BinaryFormat.single.infinity < x.magnitude

/-- The pattern that stands for no number. -/
def nan : Single := ⟨0x7fc00000⟩

/-- The number with a sign and a pattern of 31 bits. -/
def ofMagnitude (negative : Bool) (magnitude : Nat) : Single :=
  ⟨UInt32.ofNat (if negative then signBit + magnitude else magnitude)⟩

/-- The single-precision number nearest to a natural number. -/
def ofNat (value : Nat) : Single := ofMagnitude false (BinaryFormat.single.nearest value 1)

instance : NatCast Single := ⟨ofNat⟩

/-- The same number in double precision. -/
def toDouble (x : Single) : Float :=
  let sign : Nat := if x.isNegative then doubleSignBit else 0
  if x.isNaN then
    Float.ofBits 0x7ff8000000000000
  else if x.isFinite then
    Float.ofBits (UInt64.ofNat (sign + BinaryFormat.single.convert .double x.magnitude))
  else
    Float.ofBits (UInt64.ofNat (sign + BinaryFormat.double.infinity))

/-- The single-precision number nearest to a double-precision one. -/
def ofDouble (value : Float) : Single :=
  let bits := value.toBits.toNat
  let magnitude := bits % doubleSignBit
  if BinaryFormat.double.infinity < magnitude then
    nan
  else
    ofMagnitude (doubleSignBit ≤ bits)
      (if magnitude < BinaryFormat.double.infinity then
        BinaryFormat.double.convert .single magnitude
      else
        BinaryFormat.single.infinity)

/-- The exponential function, computed in double precision. -/
def exp (x : Single) : Single := ofDouble x.toDouble.exp

/-- The hyperbolic tangent, computed in double precision. -/
def tanh (x : Single) : Single := ofDouble x.toDouble.tanh

/-- The natural logarithm, computed in double precision. -/
def ln (x : Single) : Single := ofDouble x.toDouble.log

/-- The number moved into an interval; what is not a number stays as it is. -/
def clamp (x low high : Single) : Single :=
  if x.isLess low then low else if high.isLess x then high else x

end Single

/-- The double-precision number nearest to a natural number. -/
instance natCastDouble : NatCast Float := ⟨Float.ofNat⟩

/-- Numbers of one type read as numbers of a type with more precision. -/
class Widening (α : Type) (ε : outParam Type) where
  widen : α → ε

instance : Widening Single Float := ⟨Single.toDouble⟩

end GradientMerge
