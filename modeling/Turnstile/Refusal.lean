/-!
# Refusals

Why a request was not admitted. A request that would have to wait past the
deadline and one that meets an entry that the limiter did not write are turned
away by a decision. A request whose task ended before it could decide is
aborted.
-/

namespace Turnstile

/-- Why a request was not admitted. -/
inductive Refusal
  /-- Its turn comes after the deadline. -/
  | deadlineExceeded
  /-- The entry of its key is not one of the limiter's. -/
  | corruptEntry
  /-- Its task ended without an answer. -/
  | aborted
deriving DecidableEq, Repr

/-- The text of a refusal. -/
def Refusal.message : Refusal → String
  | deadlineExceeded => "applicable rate limit would exceed given deadline"
  | corruptEntry => "invalid value in cache"
  | aborted => "throttle task aborted before resolving"

end Turnstile
