import Cambio.Calendar.Moment
import Cambio.Json.Basic

/-!
# Moments in documents

A moment stands in a document as its standard written form.
-/

namespace Cambio

/-- A moment as a value of a document. -/
def Moment.toJson (m : Moment) : Json :=
  .text (String.ofList m.isoText)

end Cambio
