import Coplanar.Parameter.Rule
import Coplanar.Settings

/-! The parameters of a corrector: what is asked of each, and the settings that
an accepted dictionary stands for. -/
namespace Coplanar

variable {α : Type} [Numeral α]

namespace Settings

def wToleranceKey : String := "w_tolerance"
def checkResidualKey : String := "check_residual"
def predictKey : String := "predict_w_plane"
def intervalKey : String := "predict_time_interval"
def maxStepsKey : String := "max_advance_steps"
def tangentToleranceKey : String := "tangent_tolerance"
def verboseKey : String := "verbose"

/-- Positive numbers of full precision. -/
def positive : Value α := .list [.double Numeral.tiny, .real Numeral.infinity]

def rules : List (String × Rule α) :=
  [(wToleranceKey, { kinds := [.number], range := some positive }),
   (checkResidualKey, { kinds := [.truth], default := some (.truth true) }),
   (predictKey, { kinds := [.truth], default := some (.truth false) }),
   (intervalKey,
    { kinds := [.number], range := some positive, default := some (.real (Scalar.natural 60)) }),
   (maxStepsKey,
    { kinds := [.whole], range := some (.list [.integer 1, .real Numeral.infinity])
      default := some (.integer 1440) }),
   (tangentToleranceKey,
    { kinds := [.number], range := some (.list [.integer 0, .real Scalar.pi])
      default := some (.real (Scalar.natural 1 / Scalar.natural 1000000)) }),
   (verboseKey, { kinds := [.truth], default := some (.truth false) })]

def convertEntry (key : String) (convert : Value α → Except (Fault α) (Value α))
    (parameters : Value α) : Checked α Unit :=
  match (parameters.entry key).bind convert with
  | .error fault => ⟨.error fault, [], parameters⟩
  | .ok value =>
    match parameters.setEntry key value with
    | .error fault => ⟨.error fault, [], parameters⟩
    | .ok next => ⟨.ok (), [], next⟩

def asReal (v : Value α) : Except (Fault α) (Value α) := v.toNumber.map .real

def asWhole (v : Value α) : Except (Fault α) (Value α) := v.toInt.map .integer

/-- The entries that are brought to one type once all are accepted. -/
def conversions : List (String × (Value α → Except (Fault α) (Value α))) :=
  [(wToleranceKey, asReal), (intervalKey, asReal), (maxStepsKey, asWhole),
   (tangentToleranceKey, asReal)]

def convertAll :
    List (String × (Value α → Except (Fault α) (Value α))) → Value α → Checked α Unit
  | [], parameters => ⟨.ok (), [], parameters⟩
  | (key, convert) :: rest, parameters =>
    (convertEntry key convert parameters).bind fun _ parameters => convertAll rest parameters

def check (parameters : Value α) : Checked α Bool :=
  (Rule.checkAll rules parameters).bind fun passed parameters =>
    if passed then
      (convertAll conversions parameters).bind fun _ parameters => ⟨.ok true, [], parameters⟩
    else ⟨.ok false, [], parameters⟩

def ofDict? (d : Dict α) : Option (Settings α) :=
  match d.get? wToleranceKey, d.get? checkResidualKey, d.get? predictKey, d.get? intervalKey,
    d.get? maxStepsKey, d.get? tangentToleranceKey, d.get? verboseKey with
  | some (.real wTolerance), some (.truth checkResidual), some (.truth predict),
    some (.real interval), some (.integer maxSteps), some (.real tangentTolerance),
    some (.truth verbose) =>
    some { wTolerance, checkResidual, predict, interval, maxSteps := maxSteps.toNat,
           tangentTolerance, verbose }
  | _, _, _, _, _, _, _ => none

def ofParameters (parameters : Value α) : Checked α (Settings α) :=
  (check parameters).bind fun passed parameters =>
    match passed, parameters with
    | true, .dict d =>
      match ofDict? d with
      | some settings => ⟨.ok settings, [], parameters⟩
      | none => ⟨.error .settingsRefused, [], parameters⟩
    | _, _ => ⟨.error .settingsRefused, [], parameters⟩

end Settings

end Coplanar
