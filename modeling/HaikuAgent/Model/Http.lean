import HaikuAgent.Foundation.Bytes

/-!
# HTTP responses (`http.h`)

What the callers of `aws::` and `s3::` look at in a response.
-/

set_option autoImplicit false

namespace HaikuAgent.Model.Http

open HaikuAgent.Foundation

/-- SRC: http.h:35-43 -/
structure Response where
  status : ℤ
  body : Bytes
  error : Bytes
  deriving DecidableEq

/-- The member initialisers of `Response`. -/
def Response.init : Response := ⟨0, [], []⟩

/-- SRC: http.h:42 -/
def Response.ok (resp : Response) : Bool :=
  resp.error.isEmpty && decide (200 ≤ resp.status) && decide (resp.status < 300)

end HaikuAgent.Model.Http
