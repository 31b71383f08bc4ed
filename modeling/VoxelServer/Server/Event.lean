import VoxelServer.Inventory.Event
import VoxelServer.Uuid

/-!
# Events

What players do, as game code hears of it. Listeners may change an event, and cancel all but
those that tell of a join.

* `Event`: an event of any kind.
* `Listeners`: what is made of each kind of event.
-/

namespace VoxelServer

/-- A player finished logging in. -/
structure JoinEvent where
  name : String
  uuid : Uuid
  entityId : Int32
  deriving DecidableEq, Repr, Inhabited

structure ChatEvent where
  sender : String
  message : String
  cancelled : Bool
  deriving DecidableEq, Repr, Inhabited

inductive Event
  | join (e : JoinEvent)
  | chat (e : ChatEvent)
  | click (e : ClickEvent)
  | creative (e : CreativeEvent)
  deriving Repr, Inhabited

/-- What is made of an event, in view of all events before it. -/
structure Listeners where
  join : List Event → JoinEvent → JoinEvent
  chat : List Event → ChatEvent → ChatEvent
  click : List Event → ClickEvent → ClickEvent
  creative : List Event → CreativeEvent → CreativeEvent

namespace Listeners

/-- Accepts everything. -/
def acceptAll : Listeners := ⟨fun _ e => e, fun _ e => e, fun _ e => e, fun _ e => e⟩

/-- Listeners that hear of an event after others. -/
def andThen (first second : Listeners) : Listeners where
  join past e := second.join past (first.join past e)
  chat past e := second.chat past (first.chat past e)
  click past e := second.click past (first.click past e)
  creative past e := second.creative past (first.creative past e)

end Listeners

end VoxelServer
