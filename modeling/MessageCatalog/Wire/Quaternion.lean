/-!
# Quaternions in single precision

A quaternion is four single-precision numbers, kept as bit patterns so that nothing is lost that is not computed with. The norm
divides by the largest part first, so that large parts do not overflow. Every operation rounds to single precision.
-/

namespace MessageCatalog.Wire

/-- A quaternion: the bit patterns of its real part and its three imaginary parts. -/
structure Quaternion where
  w : UInt32
  i : UInt32
  j : UInt32
  k : UInt32
  deriving DecidableEq, Repr, Inhabited

/-- The bit pattern of the number one. -/
def oneBits : UInt32 := 0x3F800000

/-- The larger of two numbers; one that is not a number does not count. -/
def larger (a b : Float32) : Float32 :=
  if a.isNaN then b else if b.isNaN then a else if a < b then b else a

namespace Quaternion

/-- The quaternion of no rotation. -/
def identity : Quaternion := ⟨oneBits, 0, 0, 0⟩

/-- The largest absolute value of a part. -/
def largestPart (q : Quaternion) : Float32 :=
  larger (larger (larger (Float32.ofBits q.w).abs (Float32.ofBits q.i).abs) (Float32.ofBits q.j).abs) (Float32.ofBits q.k).abs

/-- The parts divided by a number. -/
def divide (q : Quaternion) (divisor : Float32) : Quaternion where
  w := (Float32.ofBits q.w / divisor).toBits
  i := (Float32.ofBits q.i / divisor).toBits
  j := (Float32.ofBits q.j / divisor).toBits
  k := (Float32.ofBits q.k / divisor).toBits

/-- The root of the sum of the squares of the parts, from left to right. -/
def rootOfSquares (q : Quaternion) : Float32 :=
  let square (bits : UInt32) := Float32.ofBits bits * Float32.ofBits bits
  (square q.w + square q.i + square q.j + square q.k).sqrt

/-- Whether a largest part can be divided by. -/
def isUsable (scale : Float32) : Bool :=
  !(scale == 0) && scale.isFinite

/-- The Euclidean norm. -/
def norm (q : Quaternion) : Float32 :=
  let scale := q.largestPart
  if isUsable scale then (q.divide scale).rootOfSquares * scale else scale

/-- The unit quaternion of the same direction; `none` if the norm is zero or not finite. -/
def normalize? (q : Quaternion) : Option Quaternion :=
  let scale := q.largestPart
  if isUsable scale then
    let scaled := q.divide scale
    let root := scaled.rootOfSquares
    if root.isFinite then some (scaled.divide root) else none
  else none

end Quaternion

end MessageCatalog.Wire
