import Cambio.Disk
import Cambio.Service.Channel

/-!
# Outside of the program

What the program reads and changes beyond its own state: the channel to the rate service, with its
clock, and the disk.
-/

namespace Cambio

/-- The channel to the rate service and the disk. -/
structure Outside where
  channel : Channel
  disk : Disk
  deriving DecidableEq, Repr

namespace Outside

/-- The time. -/
def now (o : Outside) : Moment :=
  o.channel.now

/-- Lets time pass between two requests. -/
def pause (o : Outside) (seconds : Binary64) : Outside :=
  { o with channel := o.channel.pause seconds }

end Outside

end Cambio
