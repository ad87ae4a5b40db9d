/-
Messages — what the two ends say to each other

Text and binary messages carry data; ping, pong and close keep the
connection.  A message is whole: reassembled, inflated and, if it is text,
decoded.
-/
import DeflateTrial.Close

namespace DeflateTrial

inductive Message where
  | text (text : String)
  | binary (data : Bytes)
  | ping (data : Bytes)
  | pong (data : Bytes)
  /-- The end of the connection, with a code and a reason if they were given. -/
  | close (status : Option CloseFrame)
deriving DecidableEq, Repr

/-- Whether a message keeps the connection rather than carrying data. -/
def Message.isControl : Message → Bool
  | text _ | binary _ => false
  | ping _ | pong _ | close _ => true

end DeflateTrial
