import Brainkit.Runtime.Resources

set_option autoImplicit false

namespace Brainkit.Runtime

open Function (update)
open GoText Modules Tools Transition

namespace Resources

def Works (s : Resources) : Resource → Prop
  | .tool name => name ∈ s.tools.tools.map RegisteredTool.name
  | .agent name => name ∈ s.agents
  | .subscription id => id ∈ s.bridgeSubs ∧ id ∈ s.busSubs
  | .schedule id => id ∈ s.schedules
  | .ref key => (s.refs.lookup key).isSome

def target (visit : Visit) (s : Resources) : Cleanup → List Resource
  | .toolsUnregister name => (s.resolved visit name).toList.map .tool
  | .agentsUnregister name => [.agent name]
  | .unsubscribe id => [.subscription id]
  | .unschedule id => if s.handler then [.schedule id] else []

def filed (visit : Visit) (key : GoString) (s : Resources) : List Resource :=
  .ref key :: (s.cleanups.lookup key).toList.flatMap (s.target visit)

def Refused (caller key : GoString) (s : Resources) : Prop := ∃ entry ∈ s.refs.lookup key, entry.source ≠ caller ∧ caller ≠ []

-- The resources that go by the id of a call. kit.unregister asks for the recorded source of the entry, the other two do not.
def Named (caller : GoString) (visit : Visit) (s : Resources) : Call → Resource → Prop
  | .unregister type name, r => ¬ s.Refused caller (key type name) ∧ r ∈ s.filed visit (key type name)
  | .unsubscribe id, r => r = .subscription id ∨ r = .ref (key (lit "subscription") id)
  | .unschedule id, r => s.handler ∧ (r = .schedule id ∨ r = .ref (key (lit "schedule") id))

def Own (caller : GoString) (s : Resources) (c : Visit × Call) : Prop :=
  ∀ r, s.Named caller c.1 c.2 r → s.Works r → s.owner r = caller

def act (caller : GoString) (s : Resources) (c : Visit × Call) : Option Resources := some (s.orSame (s.call caller c.1 c.2))

def Filed (s : Resources) : Prop := ∀ key, ∀ cleanup ∈ s.cleanups.lookup key, key = cleanup.key

structure Within (start s : Resources) : Prop where
  filed : s.Filed
  owner : s.owner = start.owner
  before : ∀ r, s.Works r → start.Works r

variable {s next : Resources} {callerID caller : GoString}

def pair : Resources :=
  ((new true).subscribe (lit "a.ts") (lit "a.ts") (lit "1")).subscribe (lit "b.ts") (lit "b.ts") (lit "2")

end Resources

end Brainkit.Runtime
