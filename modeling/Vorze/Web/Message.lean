import Vorze.Text

/-! # HTTP requests and responses

The parts of Beast's messages that the two servers read and write.
-/

namespace Vorze

inductive Method
  | get
  | head
  /-- any other method, with its text -/
  | other (name : Bytes)
  deriving DecidableEq, Repr

/-- `method_string`. -/
def Method.name : Method → Bytes
  | .get => text "GET"
  | .head => text "HEAD"
  | .other name => name

/-- A parsed request; the target is the text the parser found, whatever it is.
`origin` is the first `Origin` header. -/
structure Request where
  method : Method := .get
  version : Nat := 11
  target : Bytes
  origin : Option Bytes := none
  keepAlive : Bool := true
  deriving DecidableEq, Repr

inductive Status
  | ok
  | badRequest
  | notFound
  | internalServerError
  deriving DecidableEq, Repr

/-- The header fields that are set. -/
inductive Field
  | accessControlAllowOrigin
  | contentLength
  | contentType
  | server
  deriving DecidableEq, Repr

structure Response where
  version : Nat := 11
  keepAlive : Bool := true
  result : Status := .ok
  fields : List (Field × Bytes) := []
  body : Bytes := []
  deriving DecidableEq, Repr

namespace Response

/-- `set` replaces every earlier value of the field. -/
def set (response : Response) (field : Field) (value : Bytes) : Response :=
  { response with fields := response.fields.filter (·.1 != field) ++ [(field, value)] }

/-- The value of a field, when it is set. -/
def value (response : Response) (field : Field) : Option Bytes :=
  (response.fields.find? (·.1 == field)).map Prod.snd

/-- Writing to the body's stream. -/
def write (response : Response) (data : Bytes) : Response :=
  { response with body := response.body ++ data }

@[simp] theorem set_result (response : Response) (field : Field) (value : Bytes) :
    (response.set field value).result = response.result := rfl

@[simp] theorem set_body (response : Response) (field : Field) (value : Bytes) :
    (response.set field value).body = response.body := rfl

@[simp] theorem value_set_self (response : Response) (field : Field) (value : Bytes) :
    (response.set field value).value field = some value := by
  have hdropped : (response.fields.filter (·.1 != field)).find? (·.1 == field) = none := by
    simp [List.find?_eq_none]
  rw [Response.value, set, List.find?_append, hdropped]
  simp

theorem value_set_of_ne (response : Response) {field other : Field} (value : Bytes)
    (hne : other ≠ field) : (response.set field value).value other = response.value other := by
  have hkept : (response.fields.filter (·.1 != field)).find? (·.1 == other) =
      response.fields.find? (·.1 == other) := by
    rw [List.find?_filter]
    congr 1
    funext row
    by_cases hrow : row.1 = other <;> simp [hrow, hne]
  rw [Response.value, set, List.find?_append, hkept]
  simp [Response.value, hne.symm]

@[simp] theorem write_result (response : Response) (data : Bytes) :
    (response.write data).result = response.result := rfl

end Response

end Vorze
