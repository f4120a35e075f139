import Coplanar.Message
import Coplanar.Value.Text

/-! The wording of faults, complaints and notes. -/
namespace Coplanar

open Coplanar.Decimal (text)

def words (parts : List String) : String := " ".intercalate parts

def residualText (deviation wTolerance tolerance : String) : String :=
  "The antenna layout is significantly non-coplanar. The largest w-term deviation after the fit of "
    ++ deviation ++ " metres exceeds the w-term tolerance of " ++ wTolerance
    ++ " wavelengths equivalent to " ++ tolerance ++ " metres."

/-- What is said of a fault.  Those of a general kind have no wording of their
own. -/
def Fault.message? : Fault Float → Option String
  | .tooFewRows rows =>
    some ("######### ERROR: at least " ++ toString minFitRows
      ++ " rows are required to fit a w-plane, got " ++ toString rows)
  | .notADirection shape =>
    some ("######### ERROR: a tangent point must be [ra, dec] in radians, got shape "
      ++ shapeText shape)
  | .otherTangentPoint =>
    some ("Current implementation implies that only one tangent point is used per single "
      ++ "BestWPlaneAccessor. corrected_uvw got tangent point=")
  | .noSource =>
    some "######### ERROR: no chunk source has been associated with the BestWPlaneAccessor"
  | .noChannels => some "An unexpected chunk with zero spectral channels has been encountered"
  | .noPositiveFrequency highest =>
    some ("######### ERROR: channel frequencies must be positive, got a maximum of "
      ++ text highest ++ " Hz")
  | .settingsRefused => some "######### ERROR: wplane_parms checking failed"
  | .selectionRefused => some "######### ERROR: sel_parms checking failed"
  | .toleranceExceeded deviation wTolerance tolerance =>
    some (residualText (text deviation) (text wTolerance) (text tolerance))
  | .notServed .rows => some "rotated_uvw must be implemented by the chunk source"
  | .notServed .channels => some "frequency must be implemented by the chunk source"
  | .malformed | .wrongType | .unordered | .overflow | .unknownName | .outOfRange | .readOnly
  | .lengthsDisagree | .ambiguousName | .unnamedAxes | .emptyBlocks | .notAVector => none

def Complaint.line : Complaint Float → String
  | .unspecified key => words ["######### ERROR:Parameter ", key, "must be specified"]
  | .wrongKind key kinds =>
    words ["######### ERROR:Parameter ", key, "must be of type ", writtenKinds kinds]
  | .wrongLength key kinds length =>
    words ["######### ERROR:Parameter ", key, "must be a list of ",
      kinds.elim "None" writtenKinds, " and length", length.outer, ". Wrong length."]
  | .notAllowed key allowed =>
    words ["######### ERROR: Invalid", key, ". Can only be one of ", allowed.outer, "."]
  | .notInRange key range =>
    words ["######### ERROR: Invalid", key, ". Must be within the range ", range.outer, "."]
  | .noVariable name =>
    words ["######### ERROR Data array ", name.outer, "can not be found in dataset."]

def planeText (a b : String) : String := words ["w = u *", a, "+ v *", b]

def currentLines (deviation tolerance a b : String) : List String :=
  [words ["On entry current deviation (using the current plane)", deviation, "tolerance",
      tolerance],
   planeText a b]

def secondsText (interval : Float) (steps : Nat) : String := text (Float.ofNat steps * interval)

def Note.lines (interval : Float) : Note Float → List String
  | .current deviation tolerance plane =>
    currentLines (text deviation) (text tolerance) (text plane.a) (text plane.b)
  | .degenerate => ["Matrix has almost 0 determinant, fit not likely to be valid"]
  | .poorFit deviation => [words ["Current deviation (after next plane fit)", text deviation]]
  | .ahead steps deviation =>
    [words ["Current deviation (after", secondsText interval steps, "seconds)", text deviation]]
  | .gaveUp steps =>
    ["w-plane stays within tolerance for " ++ secondsText interval steps
      ++ " s, giving up the advanced time search and using the plane fitted for the current time"]
  | .settled steps plane deviation =>
    [words ["On exit deviation", text deviation, "plane fitted", secondsText interval steps,
        "seconds ahead"],
     planeText (text plane.a) (text plane.b)]
  | .committed plane deviation =>
    [words ["New w-plane fitted:", planeText (text plane.a) (text plane.b), ", max deviation",
      text deviation, "m"]]

def banner : String := "#########################"

def repeatedText (dims : List String) : String :=
  let names := (dims.filter fun dim => 1 < dims.count dim).eraseDups
  "Duplicate dimension names present: dimensions \x7b" ++ commas (names.map Text.quoted)
    ++ "\x7d appear more than once in dims=" ++ (Value.tuple (dims.map .text)).outer
    ++ ". We do not yet support duplicate dimension names, but we do allow initial construction of "
    ++ "the object. We recommend you rename the dims immediately to become distinct, as most xarray "
    ++ "functionality is likely to fail silently if you do not. To rename the dimensions you will "
    ++ "need to set the ``.dims`` attribute of each variable, ``e.g. var.dims=('x0', 'x1')``."

def Message.printed : Message Float → List String
  | .complaint c => Text.lines c.line
  | .note interval n => if n.isWarning then [] else n.lines interval
  | .started => [words [banner, "Start correct_w_plane", banner]]
  | .finished planes =>
    [words [banner, "Finished correct_w_plane,", toString planes, "planes fitted", banner]]
  | .repeated _ => []

def Message.warnings : Message Float → List String
  | .note interval n => if n.isWarning then n.lines interval else []
  | .repeated dims => [repeatedText dims]
  | _ => []

end Coplanar
