import Coplanar.Parameter.Rule

/-! Which variable of a dataset to correct, and for which directions. -/
namespace Coplanar

variable {α : Type} [Numeral α]

namespace Selection

def uvwKey : String := "uvw"
def uvwOutKey : String := "uvw_out"
def dataCenterKey : String := "data_phase_center"
def imageCenterKey : String := "image_phase_center"

def centerAttribute : String := "phase_center"

def nameRules : List (String × Rule α) :=
  [(uvwKey, { kinds := [.text], default := some (.text "UVW") }),
   (uvwOutKey, { kinds := [.text], default := some (.text "UVW_WPLANE") })]

def centerRule (default : Option (Value α)) : Rule α where
  kinds := [.list, .array]
  itemKinds := some [.number]
  length := .integer 2
  default := default

def checkVariable (names : List String) (parameters : Value α) : Checked α Bool :=
  match parameters.entry uvwKey with
  | .error fault => ⟨.error fault, [], parameters⟩
  | .ok (.text name) =>
    if names.contains name then ⟨.ok true, [], parameters⟩
    else ⟨.ok false, [.noVariable (.text name)], parameters⟩
  | .ok other => ⟨.ok false, [.noVariable other], parameters⟩

def checkCentersFrom (center parameters : Value α) : Checked α Bool :=
  match center.coordinates with
  | .error fault => ⟨.error fault, [], parameters⟩
  | .ok items =>
    let rule := centerRule (some (.list items))
    Rule.checkAll [(dataCenterKey, rule), (imageCenterKey, rule)] parameters

/-- Without one, the image center has to be given; the stored rows are taken to
refer to it unless said otherwise. -/
def checkCentersAlone (parameters : Value α) : Checked α Bool :=
  ((centerRule none).check imageCenterKey parameters).bind fun passed parameters =>
    if passed then
      match parameters.entry imageCenterKey with
      | .error fault => ⟨.error fault, [], parameters⟩
      | .ok center =>
        (centerRule (some (.list (center.items?.getD [])))).check dataCenterKey parameters
    else ⟨.ok false, [], parameters⟩

def check (names : List String) (attributes : Dict α) (parameters : Value α) :
    Checked α Bool :=
  (Rule.checkAll nameRules parameters).bind fun named parameters =>
    let found : Checked α Bool :=
      if named then checkVariable names parameters else ⟨.ok false, [], parameters⟩
    found.bind fun chosen parameters =>
      let centers :=
        match attributes.get? centerAttribute with
        | some center => checkCentersFrom center parameters
        | none => checkCentersAlone parameters
      centers.bind fun centered parameters => ⟨.ok (chosen && centered), [], parameters⟩

end Selection

end Coplanar
