import Mathlib.Data.Int.Notation

/-!
# Platform

The `errno` values that the C++ code returns negated, with their Linux numbers, and the events that
the library publishes.
-/

namespace Beyond

/-- The `beyond_event_type`s that answer an inference. -/
inductive EventType
  | inferenceSuccess
  | inferenceError
  deriving DecidableEq, Repr

namespace Errno

def ENOENT : Int := 2
def EIO : Int := 5
def EAGAIN : Int := 11
def ENOMEM : Int := 12
def EFAULT : Int := 14
def EEXIST : Int := 17
def EINVAL : Int := 22
def EILSEQ : Int := 84
def ENOTSUP : Int := 95
def ETIMEDOUT : Int := 110
def EALREADY : Int := 114
def ECANCELED : Int := 125

end Errno
end Beyond
