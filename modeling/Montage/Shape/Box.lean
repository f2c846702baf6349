import Montage.Mask.Contour
/-!
# Boxes — rectangles of least area

A box is a rectangle at any angle. The box of least area around a polygon
has a side along one of the polygon's edges, so `Box.around` tries each edge.

Boxes name the same rectangle in many ways. `Box.canonical` keeps the angle
of the `width` side within a quarter turn. `Box.longAngle` is the direction
of the longer side, and `Box.uprightRotation` the turn that brings it in line
with the canvas; `Box.upright` is the box after that turn.
-/

namespace Montage

/-- A rectangle by its centre, the lengths of its sides, and the direction of
the `width` side in degrees. -/
structure Box (α : Type) where
  center : Point α
  width : α
  height : α
  angle : α

/-- A box as it was found, with its corners after the turn that brings it in
line with the canvas. -/
structure UprightBox (α : Type) where
  /-- The corners after the turn, clockwise from the least coordinate sum. -/
  corners : List (Point α)
  center : Point α
  width : α
  height : α
  /-- The direction of the longer side before the turn, in degrees. -/
  angle : α
  /-- The turn, in degrees. -/
  rotation : α

namespace Box

variable {α : Type}

section

variable [Scalar α]

/-- A box with its angle in `[0, 90)`. Each quarter turn that is taken off
exchanges the sides; `count` brings their number to an integer. -/
def canonicalBy (count : α → Int) (center : Point α) (width height angle : α) : Box α :=
  let ninety : α := Scalar.ofNat 90
  let quarters := Scalar.floor (angle / ninety)
  let angle := angle - quarters * ninety
  let odd := count quarters % 2 == 1
  let (angle, odd) := if Scalar.le ninety angle then (angle - ninety, !odd) else (angle, odd)
  if odd then ⟨center, height, width, angle⟩ else ⟨center, width, height, angle⟩

/-- A box with its angle in `[0, 90)`, the quarter turns that are taken off
counted in sixty-four bits. -/
def canonical (center : Point α) (width height angle : α) : Box α :=
  canonicalBy Scalar.truncateInt64 center width height angle

/-- The direction of the longer side of a box, in `[0, 180)`. -/
def longAngle (b : Box α) : α :=
  let half : α := Scalar.ofNat 180
  if Scalar.lt b.height b.width then Scalar.modulo (b.angle + half) half
  else Scalar.modulo (b.angle + Scalar.ofNat 90) half

/-- The turn that makes a side in the given direction horizontal on a canvas
that is wider than high, and vertical on any other. -/
def uprightRotation (angle : α) (canvas : Size) : α :=
  if canvas.height < canvas.width then angle - Scalar.ofNat 180 else angle - Scalar.ofNat 90

/-- The box with no extent at a point. -/
def atPoint (p : Point α) : Box α := ⟨p, Scalar.zero, Scalar.zero, Scalar.zero⟩

/-- Edges shorter than this have no direction. -/
def shortEdge : α := Scalar.ofDecimal 1 12

end

section

variable [Geometric α]

/-- The corners of a box: from the first along `width`, along `height`, and
back along `width`. -/
def corners (b : Box α) : List (Point α) :=
  let angle := Geometric.radians b.angle
  let sin := Geometric.sin angle
  let cos := Geometric.cos angle
  let two : α := Scalar.ofNat 2
  let ux := cos * b.width / two
  let uy := sin * b.width / two
  let vx := -sin * b.height / two
  let vy := cos * b.height / two
  let c := b.center
  [ ⟨c.x - ux - vx, c.y - uy - vy⟩, ⟨c.x + ux - vx, c.y + uy - vy⟩,
    ⟨c.x + ux + vx, c.y + uy + vy⟩, ⟨c.x - ux + vx, c.y - uy + vy⟩ ]

/-- The least box around points that has a side along the edge from `a` to
`b`, with its area, unless the edge is too short to have a direction. -/
@[specialize] def alongEdge? (ps : List (Point α)) (a b : Point α) : Option (α × Box α) :=
  let length := a.distance b
  if Scalar.lt length shortEdge then none
  else
    let ux := (b.x - a.x) / length
    let uy := (b.y - a.y) / length
    let vx := -uy
    let vy := ux
    let us := ps.map fun p => p.x * ux + p.y * uy
    let vs := ps.map fun p => p.x * vx + p.y * vy
    let umin := Scalar.leastOf us
    let umax := Scalar.greatestOf us
    let vmin := Scalar.leastOf vs
    let vmax := Scalar.greatestOf vs
    let two : α := Scalar.ofNat 2
    let cu := (umin + umax) / two
    let cv := (vmin + vmax) / two
    some ((umax - umin) * (vmax - vmin),
      canonical ⟨cu * ux + cv * vx, cu * uy + cv * vy⟩ (umax - umin) (vmax - vmin)
        (Geometric.degrees (Geometric.atan2 uy ux)))

/-- The box of least area, the first of equal ones. -/
@[specialize] def smallest (best : α × Box α) : List (α × Box α) → Box α
  | [] => best.2
  | c :: rest => smallest (if Scalar.le best.1 c.1 then best else c) rest

/-- **The box of least area around a polygon.** -/
@[specialize] def around (p : Polygon α) : Box α :=
  match p.vertices with
  | [] => atPoint ⟨Scalar.zero, Scalar.zero⟩
  | first :: _ =>
    match p.edges.filterMap fun (a, b) => alongEdge? p.vertices a b with
    | [] => atPoint first
    | c :: rest => smallest c rest

/-- A box turned in line with a canvas. -/
def upright (b : Box α) (canvas : Size) : UprightBox α :=
  let angle := b.longAngle
  let rotation := uprightRotation angle canvas
  let turned : Polygon α := ⟨b.corners.map fun p => p.rotateAbout b.center rotation⟩
  { corners := turned.clockwise.fromOrigin.vertices
    center := b.center
    width := b.width
    height := b.height
    angle := angle
    rotation := rotation }

end

end Box

/-- The box of least area around the largest object of a mask, in line with
the mask's canvas. -/
@[specialize] def Raster.fitBox [Geometric α] (m : Mask) : Except Fault (UprightBox α) := do
  let hull ← m.hull
  return (Box.around (Polygon.ofPixels hull)).upright m.size

end Montage
