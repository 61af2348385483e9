import Relentless.Decision
import Relentless.State

/-!
# How an Execution Ends

The stop reason, the view `on_exit` receives, the error a failed execution
returns, and the aggregate statistics.
-/

namespace Relentless

/-- `StopReason`: why the retry loop terminated. -/
inductive StopReason where
  | returned
  | aborted
  | exhausted
  deriving DecidableEq

/-- `Display` of `StopReason`. -/
def StopReason.display : StopReason → String
  | .returned => "returned"
  | .aborted => "aborted"
  | .exhausted => "retries exhausted"

/-- `Exit`: the view passed to `on_exit`. -/
inductive Exit (R A O : Type) where
  | returned (attempt : UInt32) (elapsed : Duration) (value : R)
  | aborted (attempt : UInt32) (elapsed : Duration) (last : A)
  | exhausted (attempt : UInt32) (elapsed : Duration) (last : O)
  deriving DecidableEq

namespace Exit

variable {R A O : Type}

/-- `Exit::attempt`. -/
def attempt : Exit R A O → UInt32
  | .returned attempt _ _ | .aborted attempt _ _ | .exhausted attempt _ _ => attempt

/-- `Exit::elapsed`. -/
def elapsed : Exit R A O → Duration
  | .returned _ elapsed _ | .aborted _ elapsed _ | .exhausted _ elapsed _ => elapsed

/-- `Exit::stop_reason`. -/
def stopReason : Exit R A O → StopReason
  | .returned .. => .returned
  | .aborted .. => .aborted
  | .exhausted .. => .exhausted

end Exit

/-- `RetryError`: the loop terminated without a `Return`. -/
inductive RetryError (A O : Type) where
  | aborted (last : A)
  | exhausted (last : O)
  deriving DecidableEq

namespace RetryError

variable {A O T E : Type}

/-- `RetryError::stop_reason`. -/
def stopReason : RetryError A O → StopReason
  | .aborted _ => .aborted
  | .exhausted _ => .exhausted

/-- `RetryError::last` and `RetryError::into_last`. -/
def last : RetryError A O → Option O
  | .exhausted last => some last
  | .aborted _ => none

/-- `RetryError::last_error` and `RetryError::into_last_error`. -/
def lastError : RetryError E (Except E T) → Option E
  | .aborted last => some last
  | .exhausted (.error error) => some error
  | .exhausted (.ok _) => none

/-- `Display` of an error on `Result`. -/
def display [ToString E] : RetryError E (Except E T) → String
  | .aborted last => "aborted: " ++ toString last
  | .exhausted (.error error) => "retries exhausted: " ++ toString error
  | .exhausted (.ok _) => "retries exhausted"

/-- `Error::source` of an error on `Result`. -/
def source : RetryError E (Except E T) → Option E
  | .aborted last => some last
  | .exhausted (.error error) => some error
  | .exhausted (.ok _) => none

/-- `Display` of an error that cannot be an abort. -/
def displayExhausted : RetryError Empty O → String
  | .aborted last => nomatch last
  | .exhausted _ => "retries exhausted"

end RetryError

/-- `RetryStats`: aggregate statistics of a completed execution. -/
structure RetryStats where
  attempts : UInt32
  totalElapsed : Duration
  totalWait : Duration
  stopReason : StopReason
  deriving DecidableEq

/-- What `Retry::run` returns: `(Result<R, RetryError<A, O>>, RetryStats)`. -/
abbrev Output (R A O : Type) : Type := Except (RetryError A O) R × RetryStats

end Relentless
