import Brainkit.Library.GoText
import Brainkit.Library.Joined

set_option autoImplicit false

namespace Brainkit.Transport

open GoText Joined

inductive Backend where
  | memory
  | embedded
  | nats
  | amqp
  | redis
deriving DecidableEq

-- strings.NewReplacer and strings.ReplaceAll for old and new strings of one byte each.
def replacer (old : GoString) (new : UInt8) (text : GoString) : GoString :=
  text.map fun byte => if byte ∈ old then new else byte

def dot : UInt8 := 46

def dash : UInt8 := 45

def namespacedTopic (ns logicalTopic : GoString) : GoString :=
  let ns := trimSpace ns
  let logicalTopic := trimSpace logicalTopic
  if ns = [] then logicalTopic
  else if logicalTopic = [] then ns
  else ns ++ lit "." ++ logicalTopic

namespace Backend

-- The embedded server is reached through the NATS transport.
def topicSanitizer : Backend → Option (GoString → GoString)
  | .memory | .redis => none
  | .embedded | .nats => some (replacer (lit "./@ ") dash)
  | .amqp => some (replacer (lit "/@ ") dash)

def resolvedTopic (backend : Backend) (ns logicalTopic : GoString) : GoString :=
  let topic := namespacedTopic ns logicalTopic
  match backend.topicSanitizer with
  | some sanitize => sanitize topic
  | none => topic

end Backend

namespace Backend

end Backend

end Brainkit.Transport
