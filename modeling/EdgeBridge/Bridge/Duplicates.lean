import EdgeBridge.Bridge.Completion
import EdgeBridge.Mqtt.Callback

/-!
# What a duplicate is answered

A message that comes again finds the one row of its first delivery.  While the row is
open the callback says nothing; once it is completed the callback publishes the ACK of
the completion, and only the limiter keeps it from it.
-/

namespace EdgeBridge

open Foundation

section

variable {platform : Platform} {config : Config} {past : List BridgeEvent} {s : Bridge}

/-! ## The rows of a reachable queue -/

variable {db : Database} {row : MessageRecord} {message : IncomingMessage}

end

/-! ## A duplicate of a completed message -/

end EdgeBridge
