/-!
# Cancellation

Work asks from time to time whether it has been cancelled. A token is a name for such a request: all
clones of a token share one flag, and a flag that has been raised stays up.
-/

namespace PageScript

/-- Asks whether the work has been cancelled; the world may change with every question. -/
abbrev CancelCheck (ω : Type) := StateM ω Bool

/-- Stops the work with `error` if it has been cancelled. -/
def stopIfCancelled {ω ε : Type} (check : CancelCheck ω) (error : ε) : ExceptT ε (StateM ω) Unit :=
  do if ← check then throw error

/-- Numbered tokens, the first of which is there from the start. -/
structure CancelTokens where
  /-- The flag of each token. -/
  flags : List Nat := [0]
  raised : List Nat := []
  deriving DecidableEq, Repr, Inhabited

namespace CancelTokens

def flag (tokens : CancelTokens) (token : Nat) : Nat := tokens.flags.getD token 0

/-- One more token for the same flag; its number is the second part. -/
def clone (tokens : CancelTokens) (token : Nat) : CancelTokens × Nat :=
  ({ tokens with flags := tokens.flags ++ [tokens.flag token] }, tokens.flags.length)

/-- A token with a flag of its own. -/
def create (tokens : CancelTokens) : CancelTokens × Nat :=
  ({ tokens with flags := tokens.flags ++ [tokens.flags.length] }, tokens.flags.length)

def cancel (tokens : CancelTokens) (token : Nat) : CancelTokens :=
  { tokens with raised := tokens.flag token :: tokens.raised }

def isCancelled (tokens : CancelTokens) (token : Nat) : Bool :=
  tokens.raised.contains (tokens.flag token)

end CancelTokens

end PageScript
