import PiAdaptative.Foundations.JsonSizes

/-!
# Bounded measurement

`boundedJsonBytes` walks a value with a stack and stops once a limit is passed.  It gives the size
of the JSON text where that is within the limit, and one more than the limit otherwise.
-/

namespace PiAdaptative.WorkerTranscripts

end PiAdaptative.WorkerTranscripts
