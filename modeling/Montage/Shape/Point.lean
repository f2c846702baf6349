import Montage.Scalar
/-!
# Points of the image plane

`x` grows to the right and `y` grows downwards, so that a turn from the
positive `x` axis towards the positive `y` axis is clockwise on screen.
-/

namespace Montage

/-- A point of the image plane. Points over `Int` are pixels. -/
structure Point (α : Type) where
  x : α
  y : α
deriving DecidableEq, Inhabited

namespace Point

variable {α : Type}

section

variable [Scalar α]

/-- The sum of the coordinates, by which the corner nearest the top left of
an image is told. -/
@[inline] def coordSum (p : Point α) : α := p.x + p.y

/-- A pixel as a point. -/
def ofPixel (p : Point Int) : Point α := ⟨Scalar.ofInt p.x, Scalar.ofInt p.y⟩

/-- The cross product of the steps from `a` to `b` and from `b` to `c`. It is
positive where the path turns clockwise on screen. -/
@[inline] def turn (a b c : Point α) : α :=
  (b.x - a.x) * (c.y - b.y) - (b.y - a.y) * (c.x - b.x)

end

section

variable [Geometric α]

/-- The distance between two points. -/
@[inline] def distance (p q : Point α) : α := Geometric.hypot (p.x - q.x) (p.y - q.y)

/-- A point turned about a centre. Positive angles turn counter-clockwise on
screen. -/
def rotateAbout (p center : Point α) (degrees : α) : Point α :=
  let angle := Geometric.radians degrees
  let sin := Geometric.sin angle
  let cos := Geometric.cos angle
  let dx := p.x - center.x
  let dy := p.y - center.y
  ⟨center.x + cos * dx + sin * dy, center.y - sin * dx + cos * dy⟩

end

end Point

end Montage
