/-
What leaves the windows of a connection alone.

Most of what the manager does moves streams between states and queues and passes messages on.
`Quiet` says that the send windows, the windows of the connection and the initial window are the
same after as before, and that nothing has been recorded that flow control is about.
-/

import YlongHttp.Client.H2.ConnWindow
import YlongHttp.Client.H2.Turns

namespace YlongHttp.Client.H2

open YlongHttp.H2 Rust

/-- The task does not end with the overflow of a window. -/
def Stop.OffWindows : Stop → Prop
  | .overflow .sendWindow => False
  | .overflow .recvWindow => False
  | _ => True

/-! ### Streams -/

namespace Streams

structure SameWindows (s s' : Streams) : Prop where
  flow : s'.flowControl = s.flowControl
  initial : s'.streamSendWindowSize = s.streamSendWindowSize
  next : s'.nextStreamId = s.nextStreamId
  windows : ∀ id, (s'.streamMap.lookup id).map Stream.sendWindow = (s.streamMap.lookup id).map Stream.sendWindow

instance : IsPreorder Streams SameWindows where
  refl _ := ⟨rfl, rfl, rfl, fun _ => rfl⟩
  trans _ _ _ h h' :=
    ⟨h'.flow.trans h.flow, h'.initial.trans h.initial, h'.next.trans h.next,
      fun id => (h'.windows id).trans (h.windows id)⟩

variable {s : Streams} {id : StreamId} {stream : Stream}

theorem SameWindows.setStream {stream' : Stream}
    (hlookup : s.streamMap.lookup id = some stream) (hwindow : stream'.sendWindow = stream.sendWindow) :
    SameWindows s (s.setStream id stream') := by
  refine ⟨rfl, rfl, rfl, ?_⟩
  intro other
  by_cases heq : other = id
  · subst heq
    simp only [Streams.setStream, AList.lookup_insert, hlookup, Option.map_some, hwindow]
  · simp only [Streams.setStream, AList.lookup_insert_ne heq]

theorem SameWindows.close (reason : CloseReason)
    (hlookup : s.streamMap.lookup id = some stream) : SameWindows s (s.setStream id (stream.close reason)) :=
  .setStream hlookup rfl

abbrev KeepsWindows {α : Type} (f : Method Streams Stop α) : Prop := Keeps SameWindows Stop.OffWindows f

theorem keeps_decreaseCurrentConcurrency : KeepsWindows decreaseCurrentConcurrency := by
  intro s
  simp only [decreaseCurrentConcurrency, Method.get_bind]
  split
  · exact .err ⟨trivial, refl s⟩
  · exact .ok ⟨rfl, rfl, rfl, fun _ => rfl⟩

theorem ends_endStream (reason : CloseReason) (hlookup : s.streamMap.lookup id = some stream) :
    (endStream id stream reason s).Ends (fun _ => SameWindows s)
      (fun e s' => Stop.OffWindows e ∧ SameWindows s s') := by
  simp only [endStream, Method.modify_bind]
  exact Keeps.after (.close reason hlookup) keeps_decreaseCurrentConcurrency

theorem keeps_transition (next : Transition) (id : StreamId) : KeepsWindows (transition next id) := by
  refine keeps_lookup (.pure _) ?_
  intro s stream hlookup
  cases next stream.state with
  | error answer => exact .ok (refl s)
  | ok state =>
    simp only [Method.modify_bind]
    refine Keeps.after (.setStream hlookup rfl) ?_
    exact Keeps.ite (Keeps.bind keeps_decreaseCurrentConcurrency fun _ => Keeps.pure _) (Keeps.pure _)

theorem keeps_recvData (id : StreamId) (eos : Bool) : KeepsWindows (recvData id eos) :=
  .get_bind fun _ => .ite (.pure _) (keeps_transition _ id)

theorem keeps_sendLocalReset (id : StreamId) : KeepsWindows (sendLocalReset id) := by
  refine keeps_lookup (.pure _) ?_
  intro s stream hlookup
  cases stream.state with
  | closed reason =>
    cases reason with
    | endStream => exact .ok (.setStream hlookup rfl)
    | _ => exact .ok (refl s)
  | _ => exact (ends_endStream .localRst hlookup).bind fun _ _ h => .ok h

theorem keeps_recvRemoteReset (id : StreamId) : KeepsWindows (recvRemoteReset id) := by
  refine .get_bind fun _ => .ite (.pure _) ?_
  refine keeps_lookup (.pure _) ?_
  intro s stream hlookup
  split
  · exact .ok (refl s)
  · exact (ends_endStream .remoteRst hlookup).bind fun _ _ h => .ok h

theorem keeps_unsetStreams (lastStreamId : StreamId) :
    ∀ ids : List StreamId, KeepsWindows (unsetStreams lastStreamId ids)
  | [] => .pure _
  | id :: ids => by
    have hrest := keeps_unsetStreams lastStreamId ids
    refine .ite hrest (keeps_lookup hrest ?_)
    intro s stream hlookup
    have hcons : KeepsWindows (do return id :: (← unsetStreams lastStreamId ids)) :=
      .bind hrest fun _ => .pure _
    cases stream.state with
    | closed reason => exact hcons s
    | idle =>
      have hclosed := Keeps.after (SameWindows.close .remoteGoAway hlookup) hcons
      exact hclosed
    | _ => exact (ends_endStream .remoteGoAway hlookup).bind fun _ _ h => Keeps.after h hcons

theorem sameWindows_closeStreams : ∀ (ids : List StreamId) (s : Streams), SameWindows s (closeStreams ids s).2
  | [], s => refl s
  | id :: ids, s => by
    rw [closeStreams]
    cases hlookup : s.streamMap.lookup id with
    | none => exact sameWindows_closeStreams ids s
    | some stream =>
      dsimp only
      split
      · exact sameWindows_closeStreams ids s
      · exact IsTrans.trans _ _ _ (SameWindows.close .localGoAway hlookup) (sameWindows_closeStreams ids _)

theorem keeps_headers (id : StreamId) : KeepsWindows (headers id) := by
  refine keeps_lookup (.throw trivial) ?_
  intro s stream hlookup
  split
  · exact .ok (refl s)
  · exact .ok (.setStream hlookup rfl)

theorem keeps_nextPendingStream : KeepsWindows nextPendingStream := by
  refine .get_bind fun s => ?_
  cases s.pendingSend with
  | nil => exact .pure _
  | cons id ids => exact .bind (.modify fun _ => ⟨rfl, rfl, rfl, fun _ => rfl⟩) fun _ => .pure _

theorem sameWindows_consumePending : ∀ (ids : List StreamId) (s : Streams), SameWindows s (consumePending ids s)
  | [], s => refl s
  | id :: ids, s => by
    rw [consumePending]
    split
    · exact refl s
    · refine IsTrans.trans _ _ _ ?_ (sameWindows_consumePending ids _)
      exact ⟨rfl, rfl, rfl, fun _ => rfl⟩

end Streams

/-! ### The manager -/

/-- Flow control is not about the item. -/
def Item.Neutral : Item → Prop
  | .delivered _ _ => True
  | .queued frame _ =>
    match frame.payload with
    | .data _ => False
    | .windowUpdate _ => False
    | _ => True
  | _ => False

namespace ConnManager

structure Quiet (m m' : ConnManager) : Prop where
  streams : m.controller.streams.SameWindows m'.controller.streams
  goingAway : m'.controller.goingAway = m.controller.goingAway
  history : ∃ items, m'.history = items ++ m.history ∧ ∀ item ∈ items, item.Neutral

/-- Histories grow by items of one kind. -/
theorem exists_append {P : Item → Prop} {h h' h'' : List Item} (hfirst : ∃ items, h' = items ++ h ∧ ∀ item ∈ items, P item)
    (hnext : ∃ items, h'' = items ++ h' ∧ ∀ item ∈ items, P item) : ∃ items, h'' = items ++ h ∧ ∀ item ∈ items, P item := by
  obtain ⟨items, rfl, hitems⟩ := hfirst
  obtain ⟨items', rfl, hitems'⟩ := hnext
  exact ⟨items' ++ items, (List.append_assoc ..).symm, List.forall_mem_append.mpr ⟨hitems', hitems⟩⟩

instance : IsPreorder ConnManager Quiet where
  refl m := ⟨refl m.controller.streams, rfl, [], rfl, by simp⟩
  trans _ _ _ h h' := ⟨IsTrans.trans _ _ _ h.streams h'.streams, h'.goingAway.trans h.goingAway,
    exists_append h.history h'.history⟩

/-- A GOAWAY frame of the peer stays on record. -/
def Noted (m m' : ConnManager) : Prop := m.controller.goAwayErrorCode.isSome → m'.controller.goAwayErrorCode.isSome

/-- Quiet, and with the GOAWAY frame of the peer on record. -/
structure Hushed (m m' : ConnManager) : Prop extends Quiet m m' where
  code : Noted m m'

instance : IsPreorder ConnManager Hushed where
  refl m := ⟨refl m, id⟩
  trans _ _ _ h h' := ⟨IsTrans.trans _ _ _ h.toQuiet h'.toQuiet, h'.code ∘ h.code⟩

/-- What changes neither the streams nor the history. -/
theorem Hushed.of_eq {m m' : ConnManager} (hstreams : m'.controller.streams = m.controller.streams)
    (hgoing : m'.controller.goingAway = m.controller.goingAway) (hcode : Noted m m') (hhistory : m'.history = m.history) :
    Hushed m m' :=
  ⟨⟨hstreams.symm ▸ refl m.controller.streams, hgoing, [], hhistory, by simp⟩, hcode⟩

abbrev Hushes {α : Type} (f : Method ConnManager Stop α) : Prop := Keeps Hushed Stop.OffWindows f

theorem keeps_onStreams {α : Type} {f : Method Streams Stop α} (h : Streams.KeepsWindows f) : Hushes (onStreams f) :=
  h.onField fun _ _ hs => ⟨⟨hs, rfl, [], rfl, by simp⟩, id⟩

theorem keeps_modifyStreams {f : Streams → Streams} (h : ∀ s : Streams, s.SameWindows (f s)) :
    Hushes (modifyStreams f) :=
  keeps_onStreams (.modify h)

theorem keeps_modifyController {f : StreamController → StreamController}
    (hstreams : ∀ c, (f c).streams = c.streams) (hgoing : ∀ c, (f c).goingAway = c.goingAway)
    (hcode : ∀ c, c.goAwayErrorCode.isSome → (f c).goAwayErrorCode.isSome) : Hushes (modifyController f) :=
  .modify fun m => .of_eq (hstreams m.controller) (hgoing m.controller) (hcode m.controller) rfl

/-- An item that flow control is not about. -/
theorem Hushed.log (m : ConnManager) {item : Item} (h : item.Neutral) : Hushed m { m with history := item :: m.history } := by
  refine ⟨⟨refl m.controller.streams, rfl, [item], rfl, ?_⟩, id⟩
  simpa using h

theorem overlooks_hushed : Overlooks Hushed where
  answers _ _ := .of_eq rfl rfl id rfl
  delivered m _ _ := .log m trivial
  senders _ _ := .of_eq rfl rfl id rfl
  passed _ _ := .of_eq rfl rfl id rfl

theorem keeps_queue {frame : Frame} (h : ∀ s, (Item.queued frame s).Neutral) : Hushes (queue frame) :=
  overlooks_hushed.queue (fun m => .log m (h m.controller.streams)) trivial

theorem keeps_sendMessageToStream (id : StreamId) (message : RespMessage) : Hushes (sendMessageToStream id message) :=
  overlooks_hushed.sendMessageToStream fun _ => .of_eq rfl rfl (fun h => h) rfl

theorem keeps_pollBlockedMessage : Hushes pollBlockedMessage :=
  overlooks_hushed.pollBlockedMessage fun id =>
    overlooks_hushed.resetBlocked (keeps_onStreams (Streams.keeps_sendLocalReset id)) fun m => .log m trivial

variable (e : DispatchErrorKind) (frame : Frame)

theorem keeps_exitWithError : Hushes (exitWithError e) := by
  refine .bind (keeps_modifyController (fun _ => rfl) (fun _ => rfl) fun _ => id) fun _ => ?_
  refine .bind (.modify fun _ => .of_eq rfl rfl id rfl) fun _ => ?_
  refine .bind (keeps_modifyStreams fun _ => ⟨rfl, rfl, rfl, fun _ => rfl⟩) fun _ => ?_
  refine .get_bind fun _ => ?_
  refine .bind (keeps_modifyStreams fun s => Streams.sameWindows_closeStreams _ s) fun _ => ?_
  exact keeps_sendToAll fun id _ => keeps_sendMessageToStream id _

theorem keeps_goTo (state next : ManagerState) : Hushes (goTo state next) :=
  .modify fun _ => .of_eq rfl rfl id rfl

theorem keeps_exit : Hushes (exit e) :=
  .bind (keeps_exitWithError e) fun _ =>
    .ite (.bind (keeps_goTo _ _) fun _ => .pure _) (.throw trivial)

theorem keeps_manageStreamError (id : StreamId) (code : ErrorCode) : Hushes (manageStreamError id code) := by
  refine .bind (keeps_onStreams (Streams.keeps_sendLocalReset id)) fun ended => ?_
  cases ended with
  | ok =>
    refine .bind (keeps_queue fun _ => trivial) fun _ => ?_
    refine .bind (keeps_sendMessageToStream _ _) fun sent => ?_
    cases sent with
    | ready => exact .pure _
    | pending => exact .bind (keeps_goTo _ _) fun _ => .pure _
  | ignore => exact .pure _
  | err e => exact .throw trivial

theorem keeps_forward : Hushes (forward frame) := by
  refine .bind (keeps_sendMessageToStream _ _) fun sent => ?_
  split
  · exact .pure _
  · exact .throw trivial
  · exact .pure _

theorem keeps_forwardIf (received : FrameRecvState) (frame : Frame) : Hushes (forwardIf received frame) := by
  cases received with
  | ok => exact keeps_forward frame
  | ignore => exact .pure _
  | err e => exact .throw trivial

theorem keeps_recvHeaderFrame : Hushes (recvHeaderFrame frame) :=
  .bind (keeps_onStreams (.get_bind fun _ => .ite (.pure _) (Streams.keeps_transition _ _))) fun _ => keeps_forwardIf _ _

theorem keeps_recvResetFrame : Hushes (recvResetFrame frame) := by
  refine .bind (keeps_onStreams (Streams.keeps_recvRemoteReset _)) fun ended => ?_
  cases ended with
  | ok => exact keeps_forward frame
  | ignore => exact .pure _
  | err e => exact .throw trivial

theorem keeps_recvPingFrame (ping : Ping) : Hushes (recvPingFrame frame ping) :=
  .ite (keeps_queue fun _ => trivial) (.pure _)

theorem keeps_getUnsentStreams (lastStreamId : StreamId) : Hushes (getUnsentStreams lastStreamId) := by
  refine .get_bind fun _ => .ite (.throw trivial) ?_
  refine .bind (keeps_modifyStreams fun _ => ⟨rfl, rfl, rfl, fun _ => rfl⟩) fun _ => ?_
  exact keeps_onStreams (.get_bind fun _ => Streams.keeps_unsetStreams _ _)

theorem keeps_recvGoAwayFrame (g : Goaway) : Hushes (recvGoAwayFrame g) := by
  refine .bind (keeps_modifyController (fun _ => rfl) (fun _ => rfl) fun _ => id) fun _ => ?_
  refine .bind (.modify fun _ => .of_eq rfl rfl id rfl) fun _ => ?_
  refine .bind (keeps_getUnsentStreams _) fun ids => ?_
  cases errorCodeOf g.errorCode with
  | error e => exact .throw trivial
  | ok code =>
    refine .bind (keeps_sendToAll fun id _ => keeps_sendMessageToStream id _) fun _ => ?_
    exact .bind (keeps_modifyController (fun _ => rfl) (fun _ => rfl) fun _ _ => rfl) fun _ => .pure _

/-- A HEADERS frame that is sent. -/
theorem keeps_inputHeaders (id : StreamId) : Hushes (inputHeaders id) := by
  refine .bind (keeps_onStreams (Streams.keeps_headers id)) fun header => ?_
  cases header with
  | none => exact .pure _
  | some header =>
    refine .bind (.bind (keeps_onStreams (Streams.keeps_transition _ _)) fun sent => ?_) fun _ => .pure _
    cases sent with
    | err e => exact .throw trivial
    | ok | ignore => exact keeps_queue fun _ => trivial

end ConnManager

end YlongHttp.Client.H2
