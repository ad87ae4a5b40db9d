/-
Stream errors — the ways in which compressed data can be malformed

A decoder stops at the first of these and stays stopped: what follows in the
stream has lost its meaning.
-/

namespace DeflateTrial.Deflate

/-- The fault in a compressed stream. -/
inductive StreamError where
  /-- A block header names the type that is kept for later use. -/
  | blockType
  /-- A stored block's length and its complement disagree. -/
  | storedLengths
  /-- A code description announces more symbols than there are. -/
  | tooManySymbols
  /-- The code for code lengths is not complete. -/
  | codeLengthsSet
  /-- A code length is repeated before the first or past the last one. -/
  | lengthRepeat
  /-- The end of the block has no code. -/
  | missingEndOfBlock
  /-- The code for literals and lengths is not complete. -/
  | literalsSet
  | distancesSet
  | literalCode
  | distanceCode
  /-- A distance that reaches behind the first byte known. -/
  | distanceTooFar
deriving DecidableEq, Repr

def StreamError.message : StreamError → String
  | blockType => "invalid block type"
  | storedLengths => "invalid stored block lengths"
  | tooManySymbols => "too many length or distance symbols"
  | codeLengthsSet => "invalid code lengths set"
  | lengthRepeat => "invalid bit length repeat"
  | missingEndOfBlock => "invalid code -- missing end-of-block"
  | literalsSet => "invalid literal/lengths set"
  | distancesSet => "invalid distances set"
  | literalCode => "invalid literal/length code"
  | distanceCode => "invalid distance code"
  | distanceTooFar => "invalid distance too far back"

end DeflateTrial.Deflate
