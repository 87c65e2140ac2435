import Cambio.Disk
import Cambio.Json.Basic

/-!
# Values of no use

A value of any sort may come where only some sorts make sense. A value that is of no use there ends
the work at once.

## Main definitions

- `Misfit` — why a value is of no use, with its wording in `Misfit.message`
-/

namespace Cambio

/-- Why a value is of no use at all. -/
inductive Misfit where
  /-- A value of this sort cannot be used in this way. -/
  | lacks (sort use : String)
  /-- A value of this sort has no items. -/
  | noItems (sort : String)
  /-- A value of this sort is no path. -/
  | noPath (sort : String)
  /-- A value of this sort has no length. -/
  | noLength (sort : String)
  /-- A value of this sort is not counted down from. -/
  | noDifference (sort : String)
  /-- A value of this sort names no encoding. -/
  | noEncoding (sort : String)
  /-- No encoding has this name. -/
  | encodingUnknown (name : String)
  /-- A path of which the disk cannot even tell what is there. -/
  | disk (trouble : Disk.Trouble)
  deriving DecidableEq, Repr

/-- The wording of a misfit. -/
def Misfit.message : Misfit → String
  | .lacks sort use => s!"'{sort}' object has no attribute '{use}'"
  | .noItems sort => s!"'{sort}' object is not iterable"
  | .noPath sort => s!"expected str, bytes or os.PathLike object, not {sort}"
  | .noLength sort => s!"object of type '{sort}' has no len()"
  | .noDifference sort => s!"unsupported operand type(s) for -: '{sort}' and 'int'"
  | .noEncoding sort => s!"open() argument 'encoding' must be str or None, not {sort}"
  | .encodingUnknown name => s!"unknown encoding: {name}"
  | .disk trouble => trouble.message

end Cambio
