import CoderManager.Lib.Dict

/-!
# JSON responses

Decoded JSON as the two HTTP clients read it.
-/
namespace CoderManager

/-- A decoded JSON value. The names of an object are distinct. -/
inductive Json where
  | null
  | bool (value : Bool)
  | int (value : Int)
  | float (text : String)
  | str (value : String)
  | arr (items : List Json)
  | obj (fields : List (String × Json))

namespace Json

/-- `payload.get(field)`, for an object. -/
def get : Json → String → Option Json
  | .obj fields, field => fields.lookup field
  | _, _ => none

def isObject : Json → Bool
  | .obj _ => true
  | _ => false

def text (payload : Json) (field : String) : Option String :=
  match payload.get field with
  | some (.str value) => some value
  | _ => none

def set (fields : List (String × Json)) (field : String) (value : Json) : List (String × Json) :=
  if fields.any fun f => f.1 == field then
    fields.map fun f => if f.1 = field then (field, value) else f
  else fields ++ [(field, value)]

theorem lookup_set (fields : List (String × Json)) (field : String) (value : Json) (j : String) :
    (set fields field value).lookup j = if j = field then some value else fields.lookup j := by
  unfold set
  split
  · rename_i present
    exact Dicts.lookup_replace fields field value present j
  · rename_i absent
    exact Dicts.lookup_append_one fields field value (Bool.not_eq_true _ ▸ absent) j

end Json

/-- `body` is absent when the content is not JSON. -/
structure Response where
  statusCode : Nat
  body : Option Json

end CoderManager
