/-!
# Why a configuration is refused

One constructor per rule that a configuration can break, with the numbers that its message quotes.
-/

namespace OutOfOrder

inductive ConfigError
  | tagBits (bits : Nat)
  | emptyStation
  | bufferTooSmall (slots : Nat)
  | tagWindow (inFlight window bits : Nat)
  | predictorState (state : Nat)
deriving DecidableEq

def ConfigError.message : ConfigError → String
  | tagBits bits => s!"tag width must be between 1 and 16 bits, got {bits}"
  | emptyStation => "reservation station needs at least one entry"
  | bufferTooSmall slots =>
    s!"reorder buffer needs at least 2 slots (one is kept free), got {slots}"
  | tagWindow inFlight window bits =>
    s!"{inFlight} in-flight instructions exceed the {window}-tag ordering window of a " ++
      s!"{bits}-bit tag"
  | predictorState state => s!"branch predictor initial state must be 0..=3, got {state}"

end OutOfOrder
