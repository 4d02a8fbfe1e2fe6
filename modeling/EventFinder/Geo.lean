import EventFinder.Number.Elementary

/-!
# Boxes on the globe

A box is a range of latitudes and a range of longitudes, in degrees; it does not reach across the
meridian opposite to Greenwich. `BoundingBox.around` encloses a circle on a spherical earth.

The computation is stated for any kind of number with the operations of `GeoScalar`. It is run on 64-bit
binary numbers, `GeoScalar Binary64`.
-/

set_option autoImplicit false

namespace EventFinder

/-- Numbers that angles are computed with. -/
class GeoScalar (α : Type) extends Add α, Sub α, Mul α, Div α, Neg α where
  /-- The number that is a whole number. -/
  ofWhole : Nat → α
  /-- Half a turn in radians. -/
  pi : α
  /-- The cosine of an angle in radians. -/
  cosine : α → α
  /-- Is the first number below the second? -/
  below : α → α → Bool
  /-- Is the first number at most the second? -/
  atMost : α → α → Bool
  /-- The smaller of two numbers. -/
  lesser : α → α → α
  /-- The larger of two numbers. -/
  greater : α → α → α

instance : GeoScalar Binary64 where
  ofWhole n := Binary.ofInt n
  pi := Binary.pi
  cosine := Binary.cos
  below := Binary.lt
  atMost := Binary.le
  lesser := Binary.min
  greater := Binary.max

/-- Ranges of latitude and longitude, in degrees, ends included. -/
structure BoundingBox (α : Type) where
  south : α
  west : α
  north : α
  east : α
deriving DecidableEq, Repr

namespace Geo

open GeoScalar

variable {α : Type} [GeoScalar α]

/-- The mean radius of the earth in kilometers. -/
def earthRadius : α := ofWhole 6371

/-- A right angle in degrees. -/
def rightAngle : α := ofWhole 90

/-- Half a turn in degrees. -/
def halfTurn : α := ofWhole 180

/-- An angle in radians, in degrees. -/
def toDegrees (x : α) : α := x * (halfTurn / pi)

/-- An angle in degrees, in radians. -/
def toRadians (x : α) : α := x * (pi / halfTurn)

/-- A cosine that is not above this is taken for that of a pole. -/
def leastCosine : α := ofWhole 1 / ofWhole (twoPow 52)

/-- How far north and south a circle of so many kilometers reaches, in degrees. -/
def latitudeReach (radius : α) : α := toDegrees (radius / earthRadius)

/-- How far east and west it reaches at a latitude: the farther the closer to a pole, half a turn at
most. -/
def longitudeReach (latitude radius : α) : α :=
  let cosLatitude := cosine (toRadians latitude)
  if below leastCosine cosLatitude then lesser (latitudeReach radius / cosLatitude) halfTurn
  else halfTurn

end Geo

namespace BoundingBox

open GeoScalar Geo

variable {α : Type} [GeoScalar α]

/-- A box that encloses the circle of so many kilometers around a point, cut off at the poles and at
the meridian opposite to Greenwich. -/
def around (latitude longitude radius : α) : BoundingBox α where
  south := greater (latitude - latitudeReach radius) (-rightAngle)
  west := greater (longitude - longitudeReach latitude radius) (-halfTurn)
  north := lesser (latitude + latitudeReach radius) rightAngle
  east := lesser (longitude + longitudeReach latitude radius) halfTurn

/-- Is a point in the box? -/
def contains (box : BoundingBox α) (latitude longitude : α) : Bool :=
  atMost box.south latitude && atMost latitude box.north &&
    (atMost box.west longitude && atMost longitude box.east)

end BoundingBox

end EventFinder
