/-
The counter of concurrent streams.

`Steady` holds between the turns of a manager that goes on: its streams are `Placed`, so that the
counter is the number of active streams, and the messages that are blocked are not for streams
that wait. What leaves the streams in their places is `Smooth`. An error that ends the connection
closes all streams and leaves the counter as it is; after that no stream is closed again.

The counter goes down whenever a stream is reset, also for a stream that waits and was not counted.
So the frames that close or open a stream, and the errors of a stream, must not be for a stream that
waits (`Spared`).
-/

import YlongHttp.Client.H2.Service
import YlongHttp.Client.H2.Turns
import YlongHttp.Rust.Run

namespace YlongHttp.Client.H2

open YlongHttp.H2 Rust Method Outcome List
open Stop (Spares)

namespace Streams

/-- The stream is known, and does not wait unless it has been closed. -/
structure Cleared (s : Streams) (id : StreamId) : Prop where
  known : (s.entry id).isSome
  closed : id ∈ s.pendingConcurrency → s.Closed id

variable {s s' : Streams} {id : StreamId}

theorem Closed.known (h : s.Closed id) : (s.entry id).isSome := by
  obtain ⟨state, header, hentry, -⟩ := h
  rw [hentry]
  rfl

theorem Closed.cleared (h : s.Closed id) : s.Cleared id := ⟨h.known, fun _ => h⟩

theorem Onward.cleared (h : Onward s s') (hid : s.Cleared id) : s'.Cleared id :=
  ⟨h.known id hid.known, fun hmem => h.closed id (hid.closed (h.waiting ▸ hmem))⟩

/-- A new stream does not have the id of one that is known. -/
theorem Opens.cleared {gone : Bool} {serving : Option StreamId} {n : Nat} (h : Opens s s') (hs : Placed gone serving n s)
    (hwaiting : ∀ id ∈ s'.pendingConcurrency, id ∈ s.pendingConcurrency ∨ id = s.nextStreamId) (hid : s.Cleared id) :
    s'.Cleared id := by
  have hne : id ≠ s.nextStreamId := by
    rintro rfl
    have hknown := hid.known
    rw [hs.fresh _ (UInt32.le_refl _)] at hknown
    cases hknown
  refine ⟨h.known hid.known, fun hmem => ?_⟩
  rw [Closed, h.entry_other hne]
  exact hid.closed ((hwaiting id hmem).resolve_right hne)

end Streams

namespace ConnManager

/-! ### What leaves the streams in their places -/

/-- Messages may get blocked for the streams in `P`. -/
structure Smooth (P : StreamId → Prop) (m m' : ConnManager) : Prop where
  streams : m.controller.streams.Shuffles m'.controller.streams
  code : m'.controller.goAwayErrorCode = m.controller.goAwayErrorCode
  goingAway : m'.controller.goingAway = m.controller.goingAway
  messages : ∀ e ∈ m'.controller.currMessage, e ∈ m.controller.currMessage ∨ P e.1

variable {P : StreamId → Prop} {E : Stop → Prop} {waiting : List StreamId}

instance : IsPreorder ConnManager (Smooth P) where
  refl m := ⟨refl m.controller.streams, rfl, rfl, fun _ h => .inl h⟩
  trans m m' m'' h h' := by
    refine ⟨IsTrans.trans _ _ _ h.streams h'.streams, h'.code.trans h.code, h'.goingAway.trans h.goingAway, fun e he => ?_⟩
    rcases h'.messages e he with hmem | hP
    · exact h.messages e hmem
    · exact .inr hP

theorem Smooth.of_eq {m m' : ConnManager} (hstreams : m'.controller.streams = m.controller.streams)
    (hcode : m'.controller.goAwayErrorCode = m.controller.goAwayErrorCode)
    (hgoing : m'.controller.goingAway = m.controller.goingAway)
    (hmessages : ∀ e ∈ m'.controller.currMessage, e ∈ m.controller.currMessage ∨ P e.1) : Smooth P m m' := by
  refine ⟨?_, hcode, hgoing, hmessages⟩
  rw [hstreams]
  exact refl m.controller.streams

/-- A change of the manager that is not about streams. -/
theorem smooth_modify {f : ConnManager → ConnManager} (h : ∀ m, (f m).controller.streams = m.controller.streams ∧
      (f m).controller.goAwayErrorCode = m.controller.goAwayErrorCode ∧
      (f m).controller.goingAway = m.controller.goingAway ∧ (f m).controller.currMessage = m.controller.currMessage) :
    Keeps (Smooth P) E (modify f : Method ConnManager Stop PUnit) := by
  refine .modify fun m => ?_
  obtain ⟨hstreams, hcode, hgoing, hmessages⟩ := h m
  exact .of_eq hstreams hcode hgoing fun e he => .inl (hmessages ▸ he)

/-- No message gets blocked, and no stream waits for its admission. -/
abbrev Smooths {α : Type} (f : Method ConnManager Stop α) : Prop := Keeps (Smooth fun _ => False) (Spares []) f

variable {α : Type} {id : StreamId} {frame : Frame}

theorem smooth_onStreams {f : Method Streams Stop α} (h : Keeps Streams.Shuffles E f) :
    Keeps (Smooth P) E (onStreams f) :=
  h.onField fun _ _ hs => ⟨hs, rfl, rfl, fun _ h => .inl h⟩

theorem overlooks_smooth : Overlooks (Smooth P) where
  answers _ _ := .of_eq rfl rfl rfl fun _ h => .inl h
  delivered _ _ _ := .of_eq rfl rfl rfl fun _ h => .inl h
  senders _ _ := .of_eq rfl rfl rfl fun _ h => .inl h
  passed _ _ := .of_eq rfl rfl rfl fun _ h => .inl (mem_filter.mp h).1

theorem smooth_queue (frame : Frame) : Keeps (Smooth P) (Spares waiting) (queue frame) :=
  overlooks_smooth.queue (fun _ => .of_eq rfl rfl rfl fun _ h => .inl h) ⟨nofun, nofun⟩

theorem smooth_queueUpdate (update : Option Frame) : Keeps (Smooth P) (Spares waiting) (queueUpdate update) := by
  cases update with
  | none => exact .pure _
  | some frame => exact smooth_queue frame

theorem smooth_sendMessageToStream (hid : P id) (message : RespMessage) :
    Keeps (Smooth P) E (sendMessageToStream id message) := by
  refine overlooks_smooth.sendMessageToStream fun m => .of_eq rfl rfl rfl fun e he => ?_
  rcases mem_cons.mp he with rfl | hmem
  · exact .inr hid
  · exact .inl (mem_filter.mp hmem).1

variable {ids : List StreamId} {s : Streams} {f : Method ConnManager Stop α} {next : Streams.Transition}

variable (kind : DispatchErrorKind) (message : RespMessage)

theorem smooth_sendToAll (h : ∀ id ∈ ids, P id) : Keeps (Smooth P) E (sendToAll message ids) :=
  keeps_sendToAll fun id hid => smooth_sendMessageToStream (h id hid) message

theorem smooth_recvSettingsFrame (frame : Frame) (settings : List Setting) :
    Keeps (Smooth P) (Spares waiting) (recvSettingsFrame frame settings) := by
  refine keeps_recvSettingsFrame settings ?_ ?_ ?_ ?_ (smooth_queue _)
  · exact fun size => smooth_onStreams (Streams.recvFree_shuffles.keeps_applyRecvInitialWindowSize size)
  · exact fun size => smooth_onStreams (Streams.shuffles_applySendInitialWindowSize size)
  · exact fun num => smooth_onStreams (Streams.shuffles_modify fun _ => .of_eq rfl rfl rfl rfl rfl rfl)
  · exact fun _ _ => .of_eq rfl rfl rfl fun _ h => .inl h

theorem smooth_recvWindowFrame (frame : Frame) (increment : UInt32) :
    Keeps (Smooth P) (Spares waiting) (recvWindowFrame frame increment) := by
  refine .ite (.bind (smooth_onStreams (Streams.shuffles_increaseConnSendWindow _)) fun _ => ?_) ?_
  · exact smooth_onStreams (Streams.shuffles_modify Streams.shuffles_reassignConnSendWindow)
  · exact smooth_onStreams (Streams.shuffles_reassignStreamSendWindow _ _)

theorem smooth_updateWindow (hwaits : id ∉ waiting) (len : Nat) :
    Keeps (Smooth P) (Spares waiting) (updateWindow id len) := by
  refine .bind (smooth_onStreams (Streams.recvFree_shuffles.keeps_releaseConnRecvWindow len)) fun _ => ?_
  refine .bind (smooth_queueUpdate _) fun _ => ?_
  have hrelease := Streams.recvFree_shuffles.keeps_releaseStreamRecvWindow (Stop.spares_stream hwaits) len
  exact .bind (smooth_onStreams hrelease) fun _ => smooth_queueUpdate _

/-- The error of a caller that is gone resets the stream. -/
theorem smooth_forward (hP : P frame.id) (hwaits : frame.id ∉ waiting) :
    Keeps (Smooth P) (Spares waiting) (forward frame) := by
  refine .bind (smooth_sendMessageToStream hP _) fun sent => ?_
  split
  · exact .pure _
  · refine .throw ⟨nofun, ?_⟩
    rintro _ _ ⟨⟩
    exact hwaits
  · exact .pure _

/-! ### Managers that go on -/

structure Steady (serving : Option StreamId) (n : Nat) (m : ConnManager) : Prop where
  placed : m.controller.streams.Placed m.controller.goAwayErrorCode.isSome serving n
  blocked : ∀ e ∈ m.controller.currMessage, m.controller.streams.Cleared e.1
  goingAway : m.controller.goingAway = none

variable {serving : Option StreamId} {n : Nat} {m m' : ConnManager}

theorem Smooth.steady (h : Smooth P m m') (hP : ∀ id, P id → m.controller.streams.Cleared id)
    (hm : Steady serving n m) : Steady serving n m' := by
  constructor
  · rw [h.code]
    exact hm.placed.shuffles h.streams
  · intro e he
    apply h.streams.onward.cleared
    rcases h.messages e he with hmem | hcleared
    · exact hm.blocked e hmem
    · exact hP e.1 hcleared
  · rw [h.goingAway, hm.goingAway]

/-- The streams change, and none of them gets lost. -/
theorem Steady.onward {serving' : Option StreamId} {n' : Nat} (hm : Steady serving n m)
    (hs : s.Placed m.controller.goAwayErrorCode.isSome serving' n') (honward : m.controller.streams.Onward s) :
    Steady serving' n' { m with controller := { m.controller with streams := s } } :=
  ⟨hs, fun e he => honward.cleared (hm.blocked e he), hm.goingAway⟩

/-- A call has failed. An error of a stream is not for one that waits; an error of the connection
may leave the streams anywhere. -/
structure Halted (stop : Stop) (m : ConnManager) : Prop where
  spares : stop.Spares m.controller.streams.pendingConcurrency
  goingAway : m.controller.goingAway = none
  steady : ∀ id code, stop = .stream id code → Steady none 0 m

theorem steady_smooth (hf : Keeps (Smooth P) (Spares m.controller.streams.pendingConcurrency) f)
    (hP : ∀ id, P id → m.controller.streams.Cleared id) (hm : Steady none 0 m) :
    (f m).Ends (fun _ => Steady none 0) Halted := by
  refine (hf m).mono (fun _ _ h => h.steady hP hm) fun stop m' ⟨hspares, h⟩ => ?_
  refine ⟨h.streams.waiting ▸ hspares, ?_, fun _ _ _ => h.steady hP hm⟩
  rw [h.goingAway, hm.goingAway]

/-- The task has ended, not with an underflow. -/
def Ended (stop : Stop) (_ : ConnManager) : Prop := stop ≠ .overflow .concurrency

theorem ended_error (e : DispatchErrorKind) (m : ConnManager) : Ended (.error e) m := by
  rintro ⟨⟩

theorem ended_smooth (hm : Steady serving n m)
    (hP : ∀ id, P id → m.controller.streams.Cleared id) (hf : Keeps (Smooth P) (Spares []) f) :
    (f m).Ends (fun _ => Steady serving n) Ended :=
  (hf m).mono (fun _ _ h => h.steady hP hm) fun _ _ h => h.1.counter

/-! ### Frames from the peer -/

/-- A stream gets a HEADERS or DATA frame. -/
def recvOn (next : Streams.Transition) (id : StreamId) : Method Streams Stop FrameRecvState := do
  if id > (← get).maxRecvId then return .ignore
  Streams.transition next id

/-- An error of the connection. -/
theorem halted_connection {code : ErrorCode} (h : m.controller.goingAway = none) : Halted (.connection code) m :=
  ⟨Stop.spares_connection, h, nofun⟩

theorem steady_recvOn (hnext : next.Proper) (hm : Steady none 0 m)
    (hwaits : frame.id ∉ m.controller.streams.pendingConcurrency) :
    ((do forwardIf (← onStreams (recvOn next frame.id)) frame) : Method ConnManager Stop (Poll Unit)) m
      |>.Ends (fun _ => Steady none 0) Halted := by
  have hignore : (forwardIf .ignore frame m).Ends (fun _ => Steady none 0) Halted := .ok hm
  simp only [bind_apply, onStreams, onField, recvOn, get_apply, bind_ok, Method.ite_apply]
  split
  · exact hignore
  · obtain ⟨answer, s', hcall, honward, hanswer⟩ := hm.placed.transition hnext hwaits fun _ _ h => h
    simp only [hcall]
    rcases hanswer with ⟨rfl, hplaced, hknown⟩ | ⟨⟨rfl, -⟩ | rfl, rfl⟩
    · have hwaits' : frame.id ∉ s'.pendingConcurrency := honward.waiting ▸ hwaits
      refine steady_smooth (smooth_forward rfl hwaits') ?_ (hm.onward hplaced honward)
      rintro id rfl
      exact ⟨hknown, fun hmem => absurd hmem hwaits'⟩
    · exact hignore
    · exact .err (halted_connection hm.goingAway)

theorem steady_recvDataFrame (data : List UInt8) (hm : Steady none 0 m)
    (hwaits : frame.id ∉ m.controller.streams.pendingConcurrency) :
    (recvDataFrame frame data m).Ends (fun _ => Steady none 0) Halted := by
  have hupdate : Keeps (Smooth fun _ => False) (Spares m.controller.streams.pendingConcurrency)
      (updateWindow frame.id data.length) := smooth_updateWindow hwaits _
  have hends := hupdate m
  rw [recvDataFrame, bind_apply]
  generalize updateWindow frame.id data.length m = out at hends ⊢
  cases hends with
  | panic => exact .panic
  | err h =>
    refine .err ⟨h.2.streams.waiting ▸ h.1, ?_, fun _ _ _ => h.2.steady (fun _ => False.elim) hm⟩
    rw [h.2.goingAway, hm.goingAway]
  | ok h =>
    exact steady_recvOn (Streams.proper_recvDataNext _) (h.steady (fun _ => False.elim) hm) (h.streams.waiting ▸ hwaits)

theorem steady_recvResetFrame (hm : Steady none 0 m) (hwaits : frame.id ∉ m.controller.streams.pendingConcurrency) :
    (recvResetFrame frame m).Ends (fun _ => Steady none 0) Halted := by
  obtain ⟨answer, s', hcall, hplaced, honward, hclosed, herr⟩ := hm.placed.recvRemoteReset hwaits
  have hm' := hm.onward hplaced honward
  simp only [recvResetFrame, bind_apply, onStreams, onField, hcall]
  cases answer with
  | ok =>
    refine steady_smooth (smooth_forward rfl (honward.waiting ▸ hwaits)) ?_ hm'
    rintro id rfl
    exact (hclosed rfl).cleared
  | ignore => exact .ok hm'
  | err e =>
    cases herr e rfl
    exact .err (halted_connection hm'.goingAway)

/-- The streams `ids` have been closed by a GOAWAY frame that is not yet on record. -/
structure Unset (ids : List StreamId) (m : ConnManager) : Prop where
  placed : m.controller.streams.Placed true none 0
  blocked : ∀ e ∈ m.controller.currMessage, m.controller.streams.Cleared e.1
  goingAway : m.controller.goingAway = none
  closed : ∀ id ∈ ids, m.controller.streams.Closed id

theorem Unset.smooth (hm : Unset ids m) (h : Smooth (· ∈ ids) m m') : Unset ids m' := by
  have honward := h.streams.onward
  constructor
  · exact hm.placed.shuffles h.streams
  · intro e he
    apply honward.cleared
    rcases h.messages e he with hmem | hunset
    · exact hm.blocked e hmem
    · exact (hm.closed e.1 hunset).cleared
  · rw [h.goingAway, hm.goingAway]
  · exact fun id hid => honward.closed id (hm.closed id hid)

theorem errorCodeOf_error {code : UInt32} {e : H2Error} (h : errorCodeOf code = .error e) :
    e = .connectionError .protocolError := by
  unfold errorCodeOf at h
  split at h
  · cases h
  · cases h
    rfl

theorem unset_getUnsentStreams (lastStreamId : StreamId) (hm : Steady none 0 m) :
    (getUnsentStreams lastStreamId m).Ends Unset Halted := by
  simp only [getUnsentStreams, bind_apply, get_apply, bind_ok, Method.ite_apply]
  split
  · exact .err (halted_connection hm.goingAway)
  · have hmax : m.controller.streams.Shuffles { m.controller.streams with maxSendId := lastStreamId } :=
      .of_eq rfl rfl rfl rfl rfl rfl
    have hplaced := (hm.placed.shuffles hmax).weaken (fun _ => rfl) (Nat.le_refl 0)
    obtain ⟨ids, s', hcall, hplaced', honward, hclosed⟩ := hplaced.unsetStreams lastStreamId _
    have hends : onStreams (Streams.getUnsetStreams lastStreamId)
        { m with controller := { m.controller with streams := { m.controller.streams with maxSendId := lastStreamId } } } =
        .ok ids { m with controller := { m.controller with streams := s' } } := by
      simp only [onStreams, onField, Streams.getUnsetStreams, bind_apply, get_apply, bind_ok]
      rw [hcall]
      rfl
    rw [modifyStreams, onStreams, onField, modify_apply, mapState, bind_ok, hends]
    have hcleared : ∀ {id}, m.controller.streams.Cleared id → s'.Cleared id :=
      fun h => honward.cleared (hmax.onward.cleared h)
    exact .ok ⟨hplaced', fun e he => hcleared (hm.blocked e he), hm.goingAway, hclosed⟩

/-- A GOAWAY frame closes the streams that the peer will not serve, also those that wait. -/
theorem steady_recvGoAwayFrame (g : Goaway) (hm : Steady none 0 m) :
    (recvGoAwayFrame g m).Ends (fun _ => Steady none 0) Halted := by
  have hstart : Steady none 0 { m with reqClosed := true, controller := { m.controller with ioGoaway := true } } :=
    ⟨hm.placed, hm.blocked, hm.goingAway⟩
  refine (unset_getUnsentStreams g.lastStreamId hstart).bind fun ids m' hunset => ?_
  cases hcode : errorCodeOf g.errorCode with
  | error e =>
    cases errorCodeOf_error hcode
    exact .err (halted_connection hunset.goingAway)
  | ok code =>
    have hsend : Keeps (Smooth (· ∈ ids)) (fun _ => False) (sendToAll (.outputExit (.h2 (.connectionError code))) ids) :=
      smooth_sendToAll _ fun _ h => h
    refine Outcome.Ends.bind ((hsend m').mono (fun _ _ h => hunset.smooth h) fun _ _ h => h.1.elim) ?_
    exact fun blocked m'' hm'' => .ok ⟨hm''.placed, hm''.blocked, hm''.goingAway⟩

/-- The frames that open or close a stream. -/
def ofStream (frame : Frame) : Bool :=
  match frame.payload with
  | .headers _ => true
  | .data _ => true
  | .rstStream _ => true
  | _ => false

theorem steady_pollRecvFrame (hm : Steady none 0 m)
    (hspares : ofStream frame = true → frame.id ∉ m.controller.streams.pendingConcurrency) :
    (pollRecvFrame frame m).Ends (fun _ => Steady none 0) Halted := by
  have hsmooth : ∀ {α : Type} {f : Method ConnManager Stop α},
      Keeps (Smooth fun _ => False) (Spares m.controller.streams.pendingConcurrency) f →
      (f m).Ends (fun _ => Steady none 0) Halted := fun hf => steady_smooth hf (fun _ => False.elim) hm
  unfold pollRecvFrame
  cases hpayload : frame.payload with
  | settings settings => exact hsmooth (.bind (smooth_recvSettingsFrame frame settings) fun _ => .pure _)
  | ping ping => exact hsmooth (.bind (.ite (smooth_queue _) (.pure _)) fun _ => .pure _)
  | pushPromise promised parts => exact hsmooth (.throw ⟨nofun, nofun⟩)
  | goaway g => exact steady_recvGoAwayFrame g hm
  | rstStream code =>
    exact steady_recvResetFrame hm (hspares (by rw [ofStream, hpayload]))
  | headers parts =>
    exact steady_recvOn (Streams.proper_recvHeadersNext _) hm (hspares (by rw [ofStream, hpayload]))
  | data data =>
    exact steady_recvDataFrame data hm (hspares (by rw [ofStream, hpayload]))
  | windowUpdate increment => exact hsmooth (.bind (smooth_recvWindowFrame frame increment) fun _ => .pure _)
  | priority priority => exact hsmooth (.pure _)

/-! ### Ends of streams and of the connection -/

/-- A stream that does not wait is reset. -/
theorem steady_manageStreamError (id : StreamId) (code : ErrorCode) :
    Triple (fun m => Steady serving n m ∧ id ∉ m.controller.streams.pendingConcurrency) (manageStreamError id code)
      (fun _ => Steady serving n) Ended := by
  rintro m ⟨hm, hwaits⟩
  obtain ⟨answer, s', hcall, hplaced, honward, hclosed⟩ := hm.placed.sendLocalReset hwaits
  have hm' := hm.onward hplaced honward
  simp only [manageStreamError, bind_apply, onStreams, onField, hcall]
  cases answer with
  | ignore => exact .ok hm'
  | err e => exact .err (ended_error _ _)
  | ok =>
    simp only [mapState_ok, bind_ok]
    refine ended_smooth (P := (· = id)) hm' ?_ ?_
    · rintro other rfl
      exact (hclosed rfl).cleared
    · refine .bind (smooth_queue _) fun _ => .bind (smooth_sendMessageToStream (P := (· = id)) rfl _) fun sent => ?_
      cases sent with
      | ready _ => exact .pure _
      | pending => exact .bind (smooth_modify fun _ => ⟨rfl, rfl, rfl, rfl⟩) fun _ => .pure _

/-- The manager goes on, or waits for callers with all streams closed. -/
def Counting : ConnManager → Prop := Going (fun m => m.controller.streams.AllClosed) (Steady none 0)

theorem onRecord_allClosed : OnRecord fun m => m.controller.streams.AllClosed := by
  intro m m' h hcontroller _
  rw [hcontroller]
  exact h

theorem onRecord_steady : OnRecord (Steady none 0) := by
  intro m m' h hcontroller _
  constructor
  · rw [hcontroller]
    exact h.placed
  · rw [hcontroller]
    exact h.blocked
  · rw [hcontroller]
    exact h.goingAway

theorem Smooth.allClosed (h : Smooth P m m') (hm : m.controller.streams.AllClosed) : m'.controller.streams.AllClosed := by
  intro id hknown
  rw [h.streams.entries] at hknown
  rw [Streams.Closed, h.streams.entries]
  exact hm id hknown

theorem counting_exit : Triple (fun _ => True) (exit kind) (fun _ => Counting) Ended := by
  refine going_exit onRecord_allClosed (fun m _ => ?_) fun m _ => ended_error kind m
  have hsend : ∀ ids, Keeps (Smooth fun _ => True) (Spares []) (sendToAll (.outputExit kind) ids) :=
    fun ids => smooth_sendToAll _ fun _ _ => trivial
  refine (hsend _ _).mono (fun _ _ h => h.allClosed ?_) fun _ _ h => h.1.counter
  exact Streams.allClosed_getAllUnclosedStreams _

theorem ended_queue (frame : Frame) : Triple (fun _ => True) (queue frame) (fun _ _ => True) Ended := by
  intro m _
  have hsmooth : Smooths (queue frame) := smooth_queue frame
  exact (hsmooth m).mono (fun _ _ _ => trivial) fun _ _ h => h.1.counter

theorem parting_ended : Parting (fun _ => True) Ended where
  marked _ _ _ := trivial
  shut _ _ := trivial
  queued g := ended_queue (goawayFrame g)
  failed kind m _ := ended_error kind m

/-- An error of a stream ends the stream, any other error the connection. -/
theorem counting_manageRespError :
    Triple (Halted (.error kind)) (manageRespError kind) (fun _ => Counting) Ended := by
  refine triple_manageRespError ?_ ?_ ?_ kind
  · intro id code m hm
    have hwaits := hm.spares.stream id code rfl
    exact (steady_manageStreamError id code m ⟨hm.steady id code rfl, hwaits⟩).mono (fun _ _ h => .inr h) fun _ _ h => h
  · exact fun code m hm => parting_ended.manageConnError (counting_exit _) trivial (.inl hm.goingAway)
  · exact fun kind m _ => counting_exit kind m trivial

theorem counting_pollRecvMessage (hm : Steady none 0 m)
    (hspares : ofStream frame = true → frame.id ∉ m.controller.streams.pendingConcurrency) :
    (pollRecvMessage frame m).Ends (fun _ => Counting) Ended := by
  refine ends_pollRecvMessage (steady_pollRecvFrame hm hspares) (fun _ h => .inr h) ?_ counting_manageRespError ?_
  · exact fun _ h => .inr (onRecord_steady h rfl rfl)
  · exact fun _ _ h => h.spares.counter

/-! ### Requests and bodies -/

/-- All streams in the queue may be new. -/
structure Accepting (m : ConnManager) : Prop where
  steady : Steady none m.controller.streams.pendingSend.length m
  code : m.controller.goAwayErrorCode = none

theorem Accepting.opens (hm : Accepting m) (hopens : m.controller.streams.Opens s)
    (hplaced : s.Placed m.controller.goAwayErrorCode.isSome none s.pendingSend.length)
    (hwaiting : ∀ id ∈ s.pendingConcurrency,
      id ∈ m.controller.streams.pendingConcurrency ∨ id = m.controller.streams.nextStreamId)
    (hstreams : m'.controller.streams = s) (hcode : m'.controller.goAwayErrorCode = m.controller.goAwayErrorCode)
    (hgoing : m'.controller.goingAway = m.controller.goingAway)
    (hmessages : m'.controller.currMessage = m.controller.currMessage) : Accepting m' := by
  refine ⟨⟨?_, fun e he => ?_, ?_⟩, ?_⟩
  · rw [hstreams, hcode]
    exact hplaced
  · rw [hmessages] at he
    rw [hstreams]
    exact hopens.cleared hm.steady.placed hwaiting (hm.steady.blocked e he)
  · rw [hgoing, hm.steady.goingAway]
  · rw [hcode, hm.code]

/-- A new stream is admitted if there is room and no other stream waits. -/
theorem accepting_acceptRequest (request : Request) :
    Triple Accepting (acceptRequest request) (fun _ => Accepting) fun stop m =>
      match stop with
      | .error _ => Accepting m
      | .overflow _ => Ended stop m := by
  intro m hm
  rw [acceptRequest, bind_apply]
  set streams := m.controller.streams with hstreams
  by_cases hlt : streams.nextStreamId < defaultMaxStreamId
  · have hid : onStreams Streams.generateId m = .ok streams.nextStreamId
        { m with controller := { m.controller with
          streams := { streams with nextStreamId := streams.nextStreamId + 2 } } } := by
      simp only [onStreams, onField, Streams.generateId, get_bind, ← hstreams, if_pos hlt]
      rfl
    have hopens : ∀ s : Streams, s.nextStreamId = streams.nextStreamId + 2 → s.streamMap = streams.streamMap →
        streams.Opens (s.insert streams.nextStreamId
          ⟨streams.nextStreamId, request.flag, request.parts⟩ ⟨true⟩) := by
      intro s hnext hmap
      refine ⟨hlt, hnext, fun id => ?_⟩
      rw [Streams.insert, Streams.entry_setStream, Streams.entry, hmap]
      rfl
    rw [hid, bind_ok]
    simp only [get_bind, Method.ite_apply]
    have hplaced := hm.steady.placed
    -- the new stream waits in both cases, and is admitted if no other one does
    have hpostponed := hopens (Streams.pushPendingConcurrency streams.nextStreamId
      { streams with nextStreamId := streams.nextStreamId + 2 }) rfl rfl
    have hwaiting := hplaced.postpone hpostponed rfl rfl rfl rfl
    split
    next =>
      refine .ok (hm.opens hpostponed hwaiting (fun id hid => ?_) rfl rfl rfl rfl)
      exact (mem_append.mp hid).imp_right mem_singleton.mp
    next hroom =>
      have hfirst : streams.pendingConcurrency ++ [streams.nextStreamId] =
          streams.nextStreamId :: streams.pendingConcurrency := by
        rw [not_not.mp fun hne => hroom (.inr hne)]
        rfl
      have hadmitted := hopens (Streams.pushBackPendingSend streams.nextStreamId
        (Streams.increaseCurrentConcurrency
          { streams with nextStreamId := streams.nextStreamId + 2 })) rfl rfl
      rw [hm.code] at hwaiting
      refine .ok (hm.opens hadmitted ?_ (fun _ => .inl) rfl rfl rfl rfl)
      rw [hm.code]
      exact hwaiting.admitWaiting hfirst
  · have hid : onStreams Streams.generateId m = .err (.connection .protocolError) m := by
      simp only [onStreams, onField, Streams.generateId, get_bind, ← hstreams, if_neg hlt]
      rfl
    rw [hid]
    exact .err hm

/-- The stream is being served. -/
structure Sending (serving : Option StreamId) (n : Nat) (id : StreamId) (m : ConnManager) : Prop where
  steady : Steady serving n m
  known : (m.controller.streams.entry id).isSome
  admitted : id ∉ m.controller.streams.pendingConcurrency

theorem Sending.smooth (hm : Sending serving n id m) (h : Smooth (fun _ => False) m m') : Sending serving n id m' :=
  ⟨h.steady (fun _ => False.elim) hm.steady, h.streams.onward.known id hm.known, h.streams.waiting ▸ hm.admitted⟩

/-- A frame that is sent moves the stream on, and the stream is not idle after it. -/
theorem sending_queue (hnext : next.Proper)
    (hignore : ∀ state, next state ≠ .error .ignore) (hserving : ∀ other ≠ frame.id, serving = some other → none = some other)
    (hm : Sending serving n frame.id m) :
    ((do
      match ← onStreams (Streams.transition next frame.id) with
      | .err e => throw (.error (.h2 e))
      | _ => queue frame) : Method ConnManager Stop Unit) m |>.Ends (fun _ => Sending none n frame.id) Ended := by
  obtain ⟨answer, s', hcall, honward, hanswer⟩ := hm.steady.placed.transition hnext hm.admitted hserving
  simp only [bind_apply, onStreams, onField, hcall]
  rcases hanswer with ⟨rfl, hplaced, hknown⟩ | ⟨⟨-, state, hstate⟩ | rfl, rfl⟩
  · have hsent : Sending none n frame.id { m with controller := { m.controller with streams := s' } } :=
      ⟨hm.steady.onward hplaced honward, hknown, honward.waiting ▸ hm.admitted⟩
    have hqueue : Smooths (queue frame) := smooth_queue frame
    exact (hqueue _).mono (fun _ _ h => hsent.smooth h) fun _ _ h => h.1.counter
  · exact absurd hstate (hignore state)
  · exact .err (ended_error _ _)

theorem sending_inputHeaders (n : Nat) (id : StreamId) :
    Triple (fun m => Steady (some id) n m ∧ m.controller.streams.Due id) (inputHeaders id)
      (fun follows m => if follows then Sending none n id m else Steady none n m) Ended := by
  rintro m ⟨hm, hdue⟩
  obtain ⟨header, s', hcall, honward, hheader⟩ := hm.placed.headers hdue
  have hknown := honward.known id hdue.known
  have hadmitted : id ∉ s'.pendingConcurrency := honward.waiting ▸ hdue.admitted
  simp only [inputHeaders, bind_apply, onStreams, onField, hcall]
  cases header with
  | none => exact .ok ⟨hm.onward hheader honward, hknown, hadmitted⟩
  | some frame =>
    obtain ⟨rfl, hplaced⟩ := hheader
    have hsending : Sending (some frame.id) n frame.toFrame.id { m with controller := { m.controller with streams := s' } } :=
      ⟨hm.onward hplaced honward, hknown, hadmitted⟩
    have hserving : ∀ other ≠ frame.toFrame.id, some frame.id = some other → none = some other :=
      fun other hne heq => absurd (Option.some.inj heq).symm hne
    have hsent : (pollSendFrame frame.toFrame { m with controller := { m.controller with streams := s' } }).Ends
        (fun _ => Sending none n frame.id) Ended :=
      sending_queue (Streams.proper_sendHeadersNext _) (Streams.sendHeadersNext_ne_ignore _) hserving hsending
    refine hsent.bind (R := fun follows m => if follows = true then Sending none n frame.id m else Steady none n m)
      fun _ m' hm' => .ok ?_
    split
    · exact hm'
    · exact hm'.steady

theorem sending_inputData (n : Nat) (id : StreamId) (read : BodyRead) :
    Triple (Sending none n id) (inputData id read) (fun more m => if more then Sending none n id m else Steady none n m)
      Ended := by
  intro m hm
  have hread : (onStreams (Streams.pollReadBody id read) m).Ends
      (fun state m' => Smooth (fun _ => False) m m' ∧ Streams.DataOf id state)
      fun stop m' => stop.Spares m.controller.streams.pendingConcurrency ∧ Smooth (fun _ => False) m m' := by
    have hsmooth : ∀ {s}, m.controller.streams.Shuffles s →
        Smooth (fun _ => False) m { m with controller := { m.controller with streams := s } } :=
      fun h => ⟨h, rfl, rfl, fun _ h => .inl h⟩
    refine (Streams.shuffles_pollReadBody hm.known hm.admitted read).mapState ?_ ?_
    · exact fun _ _ h => ⟨hsmooth h.1, h.2⟩
    · exact fun _ _ h => ⟨h.1, hsmooth h.2⟩
  have hsend : ∀ {frame : Frame} {m' : ConnManager} {data : List UInt8}, frame.payload = .data data → frame.id = id →
      Sending none n id m' → (pollSendFrame frame m').Ends (fun _ => Sending none n id) Ended := by
    rintro frame m' data hpayload rfl hm'
    simp only [pollSendFrame, hpayload]
    exact sending_queue (Streams.proper_sendDataNext _) (Streams.sendDataNext_ne_ignore _) (fun _ _ h => h) hm'
  refine ends_inputData hread ?_ ?_ ?_ ?_ ?_ ?_
  · exact fun _ h => (hm.smooth h.1).steady
  · exact fun _ h => (hm.smooth h.1).steady
  · rintro frame m' ⟨h, hid, data, hpayload⟩
    exact hsend hpayload hid (hm.smooth h)
  · rintro frame m' ⟨h, hid, data, hpayload⟩
    exact (hsend hpayload hid (hm.smooth h)).mono (fun _ _ h => h.steady) fun _ _ h => h
  · intro other code m' h
    have hwaits : other ∉ m'.controller.streams.pendingConcurrency :=
      h.2.streams.waiting ▸ h.1.stream other code rfl
    exact steady_manageStreamError other code m' ⟨(hm.smooth h.2).steady, hwaits⟩
  · exact fun stop m' h _ => h.1.counter

theorem serves_steady : Serves (Steady none) (fun n id m => Steady (some id) n m ∧ m.controller.streams.Due id)
    (Sending none) Ended where
  next n m hm := by
    simp only [onStreams, onField, Streams.nextPendingStream, get_bind]
    cases hsend : m.controller.streams.pendingSend with
    | nil => exact .ok ⟨hm.placed.of_pendingSend_nil hsend, hm.blocked, hm.goingAway⟩
    | cons id ids =>
      obtain ⟨hplaced, hdue⟩ := hm.placed.nextPending hsend
      exact .ok ⟨⟨hplaced, fun e he => ⟨(hm.blocked e he).known, (hm.blocked e he).closed⟩, hm.goingAway⟩, hdue⟩
  headers := sending_inputHeaders
  data := sending_inputData
  served _ _ _ h := h.steady

/-- Streams that wait are admitted as long as there is room. -/
theorem accepting_tryConsume : Triple Accepting (modifyStreams Streams.tryConsumePendingConcurrency) (fun _ => Accepting) Ended := by
  intro m hm
  have hplaced := hm.steady.placed
  rw [hm.code] at hplaced
  obtain ⟨hplaced', hentries, hwaiting⟩ := hplaced.consumePending _ rfl
  refine .ok ⟨⟨?_, fun e he => ?_, hm.steady.goingAway⟩, hm.code⟩
  · rw [hm.code]
    exact hplaced'
  · have hcleared := hm.steady.blocked e he
    refine ⟨(hentries e.1).symm ▸ hcleared.known, fun hmem => ?_⟩
    obtain ⟨state, header, hentry, hclosed⟩ := hcleared.closed (hwaiting e.1 hmem)
    exact ⟨state, header, (hentries e.1).trans hentry, hclosed⟩

theorem steady_managePendingState (requests : List Request) (closed : Bool) (bodies : List (List BodyRead)) :
    Triple (Steady none 0) (managePendingState requests closed bodies) (fun _ => Steady none 0) Ended := by
  intro m hm
  simp only [managePendingState, get_bind]
  cases hcode : m.controller.goAwayErrorCode with
  | some errorCode => exact parting_ended.pollDealWithGoAway (fun _ _ => trivial) errorCode m hm
  | none =>
    have haccepting : Accepting m :=
      ⟨⟨hm.placed.weaken (fun h => h) (Nat.zero_le _), hm.blocked, hm.goingAway⟩, hcode⟩
    refine (triple_pollRecvRequest accepting_acceptRequest (fun _ _ _ => nofun) requests m haccepting).bind ?_
    refine fun _ => Triple.bind accepting_tryConsume fun _ m hm => ?_
    exact serves_steady.inputStreams _ bodies m hm.steady

/-! ### Blocked messages -/

/-- The messages that are still to be passed on are not for streams that wait. -/
structure Passing (messages : List (StreamId × RespMessage)) (m : ConnManager) : Prop where
  steady : Steady none 0 m
  cleared : ∀ e ∈ messages, m.controller.streams.Cleared e.1

variable {messages : List (StreamId × RespMessage)}

theorem Passing.smooth (hm : Passing messages m) (h : Smooth (fun _ => False) m m') : Passing messages m' :=
  ⟨h.steady (fun _ => False.elim) hm.steady, fun e he => h.streams.onward.cleared (hm.cleared e he)⟩

theorem passing_of_smooth (hf : Smooths f) : Triple (Passing messages) f (fun _ => Passing messages) Ended :=
  fun m hm => (hf m).mono (fun _ _ h => hm.smooth h) fun _ _ h => h.1.counter

theorem Passing.tail {e : StreamId × RespMessage} (hm : Passing (e :: messages) m) : Passing messages m :=
  ⟨hm.steady, fun e he => hm.cleared e (mem_cons_of_mem _ he)⟩

/-- The stream of a caller that is gone is reset if it is not closed, and then it does not wait. -/
theorem passing_resetBlocked :
    Triple (Passing ((id, message) :: messages)) (resetBlocked id) (fun _ => Passing messages) Ended := by
  have hlog : Smooths (do
      if ← nextInput then log (.queued (rstStream id .noError) (← get).controller.streams)) := by
    refine .bind overlooks_smooth.nextInput fun _ => .ite (.get_bind fun _ => ?_) (.pure _)
    exact smooth_modify fun _ => ⟨rfl, rfl, rfl, rfl⟩
  refine .bind (passing_of_smooth (.modify fun m => overlooks_smooth.senders m _)) fun _ m hm => ?_
  simp only [get_bind]
  cases hstate : m.controller.streams.streamState id with
  | none => exact .ok hm.tail
  | some state =>
    simp only [Method.ite_apply]
    split
    next hopen =>
      have hwaits : id ∉ m.controller.streams.pendingConcurrency :=
        fun hmem => hopen (((hm.cleared _ mem_cons_self).closed hmem).streamState hstate)
      obtain ⟨answer, s', hcall, hplaced, honward, -⟩ := hm.steady.placed.sendLocalReset hwaits
      have hm' : Passing messages { m with controller := { m.controller with streams := s' } } :=
        ⟨hm.steady.onward hplaced honward, fun e he => honward.cleared (hm.tail.cleared e he)⟩
      simp only [bind_apply, onStreams, onField, hcall]
      cases answer with
      | ok => exact passing_of_smooth hlog _ hm'
      | ignore | err => exact .ok hm'
    next => exact .ok hm.tail

theorem steady_pollBlockedMessage : Triple (Steady none 0) pollBlockedMessage (fun _ => Steady none 0) Ended := by
  refine triple_pollBlockedMessage fun m hm => ?_
  have hpassed : (pollBlocked m.controller.currMessage m).Ends (fun _ => Passing []) Ended := by
    refine (overlooks_smooth (P := fun _ => False)).triple_pollBlocked ?_ ?_ ?_ _ m ⟨hm, hm.blocked⟩
    · exact fun _ _ _ h hm => Passing.smooth hm h
    · exact fun _ _ _ hm => Passing.tail hm
    · exact fun id message rest => passing_resetBlocked message
  exact hpassed.mono (fun _ _ h => h.steady) fun _ _ h => h

/-- When all streams are closed none is reset. -/
theorem closed_pollBlockedMessage : Triple (fun m => m.controller.streams.AllClosed) pollBlockedMessage
    (fun _ m => m.controller.streams.AllClosed) Ended := by
  have hreset : ∀ id, Triple (fun m => m.controller.streams.AllClosed) (resetBlocked id)
      (fun _ m => m.controller.streams.AllClosed) Ended := by
    intro id
    refine .bind (.modify (R := fun _ m => m.controller.streams.AllClosed) fun _ h => h) fun _ => ?_
    refine .get_bind fun m hm => ?_
    cases hstate : m.controller.streams.streamState id with
    | none => exact .pure fun _ h => h
    | some state =>
      have hclosed := (hm id (Streams.isSome_entry_of_streamState hstate)).streamState hstate
      refine .ite (fun hopen => absurd hclosed hopen) fun _ => .pure fun _ h => h
  have hsmooth : ∀ m m', Smooth (fun _ => False) m m' → m.controller.streams.AllClosed → m'.controller.streams.AllClosed :=
    fun _ _ h hm => h.allClosed hm
  exact triple_pollBlockedMessage fun m hm =>
    overlooks_smooth.triple_pollBlocked (I := fun _ m => m.controller.streams.AllClosed) (fun _ => hsmooth)
      (fun _ _ _ h => h) (fun id _ _ => hreset id) _ m hm

/-! ### Turns -/

/-- Frames that open or close a stream, and errors of a stream, are not for one that waits. -/
def Spared (m : ConnManager) : Event → Prop
  | .message (.output frame) => ofStream frame = true → frame.id ∉ m.controller.streams.pendingConcurrency
  | .message (.outputExit (.h2 (.streamError id _))) => id ∉ m.controller.streams.pendingConcurrency
  | _ => True

instance (m : ConnManager) : (event : Event) → Decidable (Spared m event)
  | .message (.output frame) =>
    inferInstanceAs (Decidable (ofStream frame = true → frame.id ∉ m.controller.streams.pendingConcurrency))
  | .message (.outputExit (.h2 (.streamError id _))) =>
    inferInstanceAs (Decidable (id ∉ m.controller.streams.pendingConcurrency))
  | .message (.outputExit (.h2 (.connectionError _))) => isTrue trivial
  | .message (.outputExit .io) => isTrue trivial
  | .message (.outputExit .channelClosed) => isTrue trivial
  | .message (.outputExit .disconnect) => isTrue trivial
  | .closed => isTrue trivial
  | .pending _ _ _ => isTrue trivial
  | .blocked => isTrue trivial
  | .settings _ => isTrue trivial

/-! ### Runs -/

/-- A turn after which the manager goes on. -/
def proceed (m : ConnManager) (t : Event × Answers) : Option ConnManager :=
  match step m t.1 t.2 with
  | some (.ok _ m') => some m'
  | _ => none

theorem counting_step {event : Event} {answers : Answers} {out : Outcome ConnManager Stop Unit} (hm : Counting m)
    (hspared : Spared m event) (h : step m event answers = some out) : out.Ends (fun _ => Counting) Ended := by
  refine Going.step onRecord_allClosed onRecord_steady hm h ?_ ?_ (fun m _ => counting_exit _ m trivial)
    steady_managePendingState closed_pollBlockedMessage steady_pollBlockedMessage
  · rintro m' frame hsame rfl hsteady
    rw [Spared, ← hsame] at hspared
    exact counting_pollRecvMessage ⟨hsteady.placed, hsteady.blocked, hsteady.goingAway⟩ hspared
  · rintro m' kind hsame rfl hsteady
    refine counting_manageRespError kind _ ⟨⟨nofun, ?_⟩, hsteady.goingAway, fun _ _ _ => hsteady⟩
    rintro id code ⟨⟩
    rw [hsame]
    exact hspared

theorem counting_proceed {t : Event × Answers} (hm : Counting m) (hspared : Spared m t.1) (h : proceed m t = some m') :
    Counting m' := by
  rw [proceed] at h
  split at h
  next hstep =>
    cases h
    exact (counting_step hm hspared hstep).of_ok rfl
  next => cases h

theorem counting_launch {config : H2Config} (h : launch config = .ok () m) : Counting m := by
  obtain ⟨streams, hstart, hinitial⟩ := launch_cases h
  obtain ⟨flow, rfl⟩ : ∃ flow, streams = .new config.streamWindowSize defaultWindowSize flow := by
    rw [Streams.start] at hstart
    generalize FlowControl.setupRecvWindow config.connWindowSize _ = out at hstart
    cases out with
    | ok _ flow =>
      cases hstart
      exact ⟨flow, rfl⟩
    | err | panic => cases hstart
  have hnew : Steady none 0 (ConnManager.new (.new config.streamWindowSize defaultWindowSize flow)) :=
    ⟨Streams.placed_new _ _ flow, fun _ he => absurd he not_mem_nil, rfl⟩
  have hqueue : Smooths (queueInitial config) := by
    refine .bind (smooth_queue _) fun _ => ?_
    exact .bind (smooth_onStreams (Streams.recvFree_shuffles.keeps_releaseConnRecvWindow 0)) fun _ => smooth_queueUpdate _
  exact .inr ((hqueue.of_ok hinitial).steady (fun _ => False.elim) hnew)

/-- In every run whose turns spare the streams that wait, the counter is the number of streams that
have been admitted and are not closed, unless the connection is being ended, and it does not
underflow. -/
theorem counts_active {config : H2Config} {m₀ : ConnManager} (hlaunch : launch config = .ok () m₀)
    {turns : List (Event × Answers)} (hspared : Along proceed (fun m t => Spared m t.1) turns m₀)
    (hrun : run proceed turns m₀ = some m) :
    (¬ Exiting m → m.controller.streams.currentConcurrentStreams = m.controller.streams.active.card) ∧
      ∀ event answers m', Spared m event → step m event answers ≠ some (.err (.overflow .concurrency) m') := by
  have hcounting : Counting m := run_invariant_along counting_proceed (counting_launch hlaunch) hspared hrun
  constructor
  · intro hexit
    rcases hcounting with ⟨hexit', -⟩ | hsteady
    · exact absurd hexit' hexit
    · exact hsteady.placed.counted
  · intro event answers m' hevent hstep
    exact (counting_step hcounting hevent hstep).of_err rfl rfl

def received (frame : Frame) : Event × Answers := (.message (.output frame), ⟨[], []⟩)

/-- The peer allows one stream, and two requests are made: the stream 3 waits. -/
def oneAdmitted : List (Event × Answers) :=
  [received ⟨0, ⟨0⟩, .settings [.maxConcurrentStreams 1]⟩, (.pending [⟨⟨0x5⟩, .new⟩, ⟨⟨0x5⟩, .new⟩] false [], ⟨[], []⟩)]

/-- What the manager counts, and what there is to count. -/
def counts (m : ConnManager) : Nat × Nat :=
  (m.controller.streams.currentConcurrentStreams, m.controller.streams.active.card)

theorem counts_oneAdmitted : ∃ m₀ m, launch default = .ok () m₀ ∧ run proceed oneAdmitted m₀ = some m ∧
    m.controller.streams.pendingConcurrency = [3] ∧ m.counts = (1, 1) := by
  obtain ⟨m₀, hlaunch, hspared, hwaits⟩ : ∃ m₀, launch default = .ok () m₀ ∧
      Along proceed (fun m t => Spared m t.1) oneAdmitted m₀ ∧
      (run proceed oneAdmitted m₀).map (fun m => (m.state, m.controller.streams.pendingConcurrency,
        m.controller.streams.currentConcurrentStreams)) = some (.receive, [3], 1) :=
    ⟨_, rfl, by decide +kernel, by decide +kernel⟩
  obtain ⟨m, hrun, hm⟩ := Option.map_eq_some_iff.mp hwaits
  obtain ⟨hstate, hwaiting, hcount⟩ : m.state = .receive ∧ m.controller.streams.pendingConcurrency = [3] ∧
      m.controller.streams.currentConcurrentStreams = 1 := by
    simpa using hm
  have hgoing : ¬ Exiting m := by
    rintro (⟨e, hexit⟩ | ⟨hsend, -⟩)
    · cases hstate.symm.trans hexit
    · cases hstate.symm.trans hsend
  have hactive := (counts_active hlaunch hspared hrun).1 hgoing
  exact ⟨m₀, m, hlaunch, hrun, hwaiting, by rw [counts, ← hactive, hcount]⟩

def reset (id : StreamId) : Event × Answers := received ⟨id, ⟨0⟩, .rstStream 8⟩

/-- How the task ends at a turn. -/
def failure (m : ConnManager) (t : Event × Answers) : Option Stop :=
  match step m t.1 t.2 with
  | some (.err stop _) => some stop
  | _ => none

/-- The reset of the stream that waits is counted as the end of the other one, whose own end then
underflows the counter. -/
theorem counts_reset_waiting : ∃ m₀ m, launch default = .ok () m₀ ∧
    run proceed (oneAdmitted ++ [reset 3]) m₀ = some m ∧ m.state = .receive ∧ m.counts = (0, 1) ∧
    m.failure (reset 1) = some (.overflow .concurrency) := by
  obtain ⟨m₀, hlaunch, hcounts⟩ : ∃ m₀, launch default = .ok () m₀ ∧
      (run proceed (oneAdmitted ++ [reset 3]) m₀).map (fun m => (m.state, m.counts, m.failure (reset 1))) =
        some (.receive, (0, 1), some (.overflow .concurrency)) :=
    ⟨_, rfl, by decide +kernel⟩
  obtain ⟨m, hrun, hm⟩ := Option.map_eq_some_iff.mp hcounts
  obtain ⟨hstate, hrest⟩ := Prod.mk.inj hm
  obtain ⟨hcount, hfailure⟩ := Prod.mk.inj hrest
  exact ⟨m₀, m, hlaunch, hrun, hstate, hcount, hfailure⟩

/-- In every run whose turns spare the streams that wait, no request is lost until the connection
is being ended: a stream that has not sent its headers has them and waits, once. What else waits
has been closed by a GOAWAY frame, and nothing that waits is queued. -/
theorem unsent_waits {config : H2Config} {m₀ : ConnManager} (hlaunch : launch config = .ok () m₀)
    {turns : List (Event × Answers)} (hspared : Along proceed (fun m t => Spared m t.1) turns m₀)
    (hrun : run proceed turns m₀ = some m) (hgoing : ¬ Exiting m) :
    m.controller.streams.pendingConcurrency.Nodup ∧
      (∀ id header, m.controller.streams.entry id = some (.idle, header) →
        header = some id ∧ id ∈ m.controller.streams.pendingConcurrency) ∧
      ∀ id ∈ m.controller.streams.pendingConcurrency, id ∉ m.controller.streams.queues ∧
        ∃ state header, m.controller.streams.entry id = some (state, header) ∧
          (state = .idle ∨ m.controller.goAwayErrorCode.isSome ∧ state.isClosed) := by
  have hcounting : Counting m := run_invariant_along counting_proceed (counting_launch hlaunch) hspared hrun
  rcases hcounting with ⟨hexit, -⟩ | ⟨hplaced, -, -⟩
  · exact absurd hexit hgoing
  · refine ⟨hplaced.nodup, fun id header hentry => ?_, fun id hid => ⟨?_, hplaced.waiting id hid⟩⟩
    · simpa using hplaced.idle id header hentry
    · exact fun hqueued => (hplaced.queued id hqueued).2 hid

theorem unsent_waits_oneAdmitted : ∃ m₀ m, launch default = .ok () m₀ ∧ run proceed oneAdmitted m₀ = some m ∧
    3 ∉ m.controller.streams.queues := by
  obtain ⟨m₀, hlaunch, hspared, hwaits⟩ : ∃ m₀, launch default = .ok () m₀ ∧
      Along proceed (fun m t => Spared m t.1) oneAdmitted m₀ ∧
      (run proceed oneAdmitted m₀).map (fun m => (m.state, m.controller.streams.pendingConcurrency)) = some (.receive, [3]) :=
    ⟨_, rfl, by decide +kernel, by decide +kernel⟩
  obtain ⟨m, hrun, hm⟩ := Option.map_eq_some_iff.mp hwaits
  obtain ⟨hstate, hwaiting⟩ := Prod.mk.inj hm
  have hlost := unsent_waits hlaunch hspared hrun (by simp [Exiting, hstate])
  exact ⟨m₀, m, hlaunch, hrun, (hlost.2.2 3 (by simp [hwaiting])).1⟩

end ConnManager

end YlongHttp.Client.H2
