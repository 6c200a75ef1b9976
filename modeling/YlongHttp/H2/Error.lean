/-
Error codes and errors of HTTP/2 (`h2/error.rs`).
-/

import Mathlib

namespace YlongHttp.H2

abbrev StreamId := UInt32

inductive ErrorCode where
  | noError
  | protocolError
  | intervalError
  | flowControlError
  | settingsTimeout
  | streamClosed
  | frameSizeError
  | refusedStream
  | cancel
  | compressionError
  | connectError
  | enhanceYourCalm
  | inadequateSecurity
  | http11Required
deriving DecidableEq, Repr

inductive H2Error where
  | streamError (id : StreamId) (code : ErrorCode)
  | connectionError (code : ErrorCode)
deriving DecidableEq, Repr

def H2Error.IsConnectionError (e : H2Error) : Prop := ∃ code, e = .connectionError code

end YlongHttp.H2
