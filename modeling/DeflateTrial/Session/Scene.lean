/-
Scenes — a session with its peer at hand

The peer of a scene says what it is told to say, and looks at what the session
sends one frame at a time.  Whenever something happens, both loops of the
session go on as long as they can.
-/
import DeflateTrial.Frame.Capture
import DeflateTrial.Session.Run

namespace DeflateTrial.Session

/-- A session and what its peer has received. -/
structure Scene where
  session : Session
  /-- The bytes that the peer has received and not looked at. -/
  inbox : Bytes
  /-- Whether the session has ended its direction. -/
  ended : Bool

/-- What the peer sees when it looks. -/
inductive Sight where
  | frame (sighting : Frame.Sighting)
  /-- Bytes that make no frame. -/
  | trailing (bytes : Bytes)
  | ended
  | nothing
deriving DecidableEq, Repr

namespace Scene

/-- The session goes on, and what it sends arrives at the peer. -/
def settle (scene : Scene) : Scene :=
  let session := scene.session.settle
  { session := { session with sent := [] }
    inbox := scene.inbox ++ Outgoing.allBytes session.sent
    ended := scene.ended || session.sent.contains .fin }

/-- The scene that begins with a session. -/
def new (session : Session) : Scene :=
  settle ⟨session, [], false⟩

/-- The session's caller sends a message. -/
def submit (scene : Scene) (message : Message) : Except Trouble Unit × Scene :=
  let (result, session) := scene.session.submit message
  (result, { scene with session }.settle)

/-- The session's caller pulls an event. -/
def next (scene : Scene) (expected : Option Event.Kind) :
    Polled (Except Trouble Event) × Scene :=
  let (answer, session) := scene.session.next expected
  (answer, { scene with session })

/-- The session's caller gives it up. -/
def drop (scene : Scene) : Scene :=
  { scene with session := scene.session.drop }.settle

/-- The peer says something. -/
def say (scene : Scene) (outgoing : Outgoing) : Scene :=
  { scene with session := scene.session.arrive outgoing }.settle

/-- The peer looks at the next frame. -/
def look (scene : Scene) : Sight × Scene :=
  match Frame.sight scene.inbox with
  | some (sighting, rest) => (.frame sighting, { scene with inbox := rest })
  | none =>
    if !scene.inbox.isEmpty then (.trailing scene.inbox, { scene with inbox := [] })
    else (if scene.ended then .ended else .nothing, scene)

end Scene

end DeflateTrial.Session
