/-!
# The release

The number under which this library is released.
-/

namespace AvroRegistry

/-- The number of the release. -/
def release : String := "0.1.0"

end AvroRegistry
