import Montage.Command.Disk
import Montage.Main
import Montage.Proofs.Canvas.Pasting
import Montage.Proofs.Canvas.Straighten
import Montage.Proofs.Canvas.Steps
import Montage.Proofs.Binary64
import Montage.Proofs.Canvas.Segmentation
import Montage.Proofs.Canvas.Fill
import Montage.Proofs.Exact
import Montage.Proofs.Shape.Polygon
import Montage.Proofs.Shape.Collapse
import Montage.Proofs.Shape.Angle
import Montage.Proofs.Shape.Ngon
import Montage.Proofs.Shape.Fitting
import Montage.Proofs.Shape.Box
import Montage.Proofs.Shape.Rectangle
import Montage.Proofs.Shape.Passes
import Montage.Proofs.Shape.Canonical
import Montage.Proofs.Shape.Calipers
import Montage.Proofs.Mask.Contour
import Montage.Proofs.Mask.Symmetry
import Montage.Proofs.Face.Oval
import Montage.Proofs.Codec.Exchange
import Montage.Proofs.Settings.Document
import Montage.Proofs.Canvas.Reflection
import Montage.Proofs.Canvas.Fading
import Montage.Proofs.Canvas.Placement
import Montage.Proofs.Canvas.Factor
import Montage.Proofs.Canvas.Compositing
import Montage.Proofs.Mask.Choice
import Montage.Proofs.Shape.Extreme
import Montage.Proofs.Command.Override
import Montage.Proofs.Face.Landmark
import Montage.Proofs.Command.Outcome
