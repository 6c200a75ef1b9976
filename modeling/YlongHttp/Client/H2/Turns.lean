/-
Rules for the methods and the states of the manager.

What the manager does is followed once here, for any relation that it may keep and for any
invariant: what it passes on to its callers, its loops over requests and streams, what it makes of
errors, and its turns. The invariants that hold while a stream is served may differ from the one
between two streams. A manager that waits for its callers does not change its state before they are
done, and one that is about to end may have lost what else holds between two turns (`Going`).
-/

import YlongHttp.Client.H2.Manager

namespace YlongHttp.Client.H2.ConnManager

open YlongHttp.H2 Rust Method

variable {I : ConnManager → Prop} {E : Stop → ConnManager → Prop}

/-! ### Messages for the callers -/

/-- A relation that is not about streams. -/
theorem keeps_anyStreams {α : Type} {R : ConnManager → ConnManager → Prop}
    (h : ∀ m s, R m { m with controller := { m.controller with streams := s } }) (f : Method Streams Stop α) :
    Stays R (onStreams f) := by
  intro m
  rw [onStreams, onField]
  cases f m.controller.streams with
  | ok a s => exact .ok (h m s)
  | err e s => exact .err ⟨trivial, h m s⟩
  | panic => exact .panic

/-- The relation does not look at the answers of the channels, at what has been delivered, and at the
senders and the messages that are taken away. -/
structure Overlooks (R : ConnManager → ConnManager → Prop) : Prop where
  answers : ∀ m answers, R m { m with answers }
  delivered : ∀ m id message, R m { m with history := .delivered id message :: m.history }
  senders : ∀ m senders, R m { m with controller := { m.controller with senders } }
  passed : ∀ m p, R m { m with controller :=
    { m.controller with currMessage := m.controller.currMessage.filter p } }

section Overlooks

variable {R : ConnManager → ConnManager → Prop} {F : Stop → Prop} [IsPreorder ConnManager R]

theorem Overlooks.nextResponse (h : Overlooks R) : Keeps R F nextResponse := by
  intro m
  simp only [ConnManager.nextResponse, get_bind]
  cases m.answers.responses with
  | nil => exact .ok (refl m)
  | cons answer rest => exact .ok (h.answers m _)

theorem Overlooks.nextInput (h : Overlooks R) : Keeps R F nextInput := by
  intro m
  simp only [ConnManager.nextInput, get_bind]
  cases m.answers.input with
  | nil => exact .ok (refl m)
  | cons answer rest => exact .ok (h.answers m _)

variable {frame : Frame} {id : StreamId} {message : RespMessage}

theorem Overlooks.queue (h : Overlooks R)
    (hlog : ∀ m, R m { m with history := .queued frame m.controller.streams :: m.history })
    (hclosed : F (.error .channelClosed)) : Keeps R F (queue frame) :=
  .bind h.nextInput fun _ => .ite (fun m => .ok (hlog m)) (.throw hclosed)

theorem Overlooks.sendMessageToStream (h : Overlooks R)
    (hblocked : ∀ m, R m { m with controller := { m.controller with
      currMessage := (id, message) :: m.controller.currMessage.filter (·.1 ≠ id) } }) :
    Keeps R F (sendMessageToStream id message) := by
  refine .get_bind fun m => .ite (.bind h.nextResponse fun answer => ?_) (.pure _)
  split
  · exact .bind (.modify fun m => h.delivered m _ _) fun _ => .pure _
  · exact .bind (.modify fun m => h.senders m _) fun _ => .pure _
  · exact .bind (.modify hblocked) fun _ => .pure _

theorem keeps_sendToAll : ∀ {ids : List StreamId}, (∀ id ∈ ids, Keeps R F (sendMessageToStream id message)) →
      Keeps R F (sendToAll message ids)
  | [], _ => .pure _
  | id :: ids, h => by
    refine .bind (h id List.mem_cons_self) fun _ => ?_
    refine .bind (keeps_sendToAll fun other hmem => h other (List.mem_cons_of_mem id hmem)) fun _ => ?_
    exact .pure _

theorem Overlooks.resetBlocked (h : Overlooks R) (hreset : Keeps R F (onStreams (Streams.sendLocalReset id)))
    (hlog : ∀ m, R m { m with history := .queued (rstStream id .noError) m.controller.streams :: m.history }) :
    Keeps R F (resetBlocked id) := by
  refine .bind (.modify fun m => h.senders m _) fun _ => .get_bind fun m => ?_
  cases m.controller.streams.streamState id with
  | none => exact .pure _
  | some state =>
    refine .ite (.bind hreset fun ended => ?_) (.pure _)
    cases ended with
    | ok => exact .bind h.nextInput fun _ => .ite (fun m => .ok (hlog m)) (.pure _)
    | ignore | err => exact .pure _

/-- `I messages` holds when the messages are still to be passed on. -/
theorem Overlooks.triple_pollBlocked {I : List (StreamId × RespMessage) → ConnManager → Prop} (h : Overlooks R)
    (hI : ∀ messages m m', R m m' → I messages m → I messages m') (htail : ∀ e rest m, I (e :: rest) m → I rest m)
    (hreset : ∀ id message rest, Triple (I ((id, message) :: rest)) (ConnManager.resetBlocked id) (fun _ => I rest) E) :
    ∀ messages, Triple (I messages) (pollBlocked messages) (fun _ => I []) E
  | [] => .pure fun _ h => h
  | (id, message) :: rest => by
    have hrest := h.triple_pollBlocked hI htail hreset rest
    have hpass : Triple (I ((id, message) :: rest)) (modifyController fun c =>
        { c with currMessage := c.currMessage.filter (·.1 ≠ id) }) (fun _ => I ((id, message) :: rest)) E :=
      .modify fun m hm => hI _ m _ (h.passed m _) hm
    have hresponse : Keeps R (fun _ => False) ConnManager.nextResponse := h.nextResponse
    refine .bind (Q := fun _ => I ((id, message) :: rest)) ?_ fun answer => ?_
    · exact fun m hm => (hresponse m).mono (fun _ _ h => hI _ m _ h hm) fun _ _ h => h.1.elim
    · split
      · refine .bind hpass fun _ => .bind (Q := fun _ => I rest) ?_ fun _ => hrest
        exact .modify fun m hm => htail _ rest _ (hI _ m _ (h.delivered m _ _) hm)
      · exact .bind hpass fun _ => .bind (hreset id message rest) fun _ => hrest
      · exact .bind (fun m hm => hrest m (htail _ rest m hm)) fun _ => .pure fun _ h => h

theorem triple_pollBlockedMessage {P Q : ConnManager → Prop}
    (h : ∀ m, P m → (pollBlocked m.controller.currMessage m).Ends (fun _ => Q) E) :
    Triple P pollBlockedMessage (fun _ => Q) E := by
  refine fun m hm => (h m hm).bind fun blocked m' hm' => ?_
  split <;> exact .ok hm'

theorem Overlooks.pollBlockedMessage (h : Overlooks R) (hreset : ∀ id, Keeps R F (ConnManager.resetBlocked id)) :
    Keeps R F pollBlockedMessage := by
  refine .of_triple fun m₀ => triple_pollBlockedMessage fun m => ?_
  exact h.triple_pollBlocked (I := fun _ => R m₀) (fun _ _ _ h hm => IsTrans.trans _ _ _ hm h) (fun _ _ _ h => h)
    (fun id _ _ => (hreset id).triple m₀) _ m

/-! ### Settings -/

/-- The peer acknowledges the settings of the client. -/
theorem keeps_acknowledged (hrecv : ∀ size, Keeps R F (onStreams (Streams.applyRecvInitialWindowSize size)))
    (hsettings : ∀ m settings, R m { m with settings }) :
    Keeps R F (do
      match (← get).settings with
      | .acknowledging acknowledged => acknowledge acknowledged
      | .synced => pure ()
      modify ({ · with settings := .synced })) := by
  have hacknowledge : ∀ settings : List Setting, Keeps R F (acknowledge settings) := by
    intro settings
    induction settings with
    | nil => exact .pure _
    | cons setting settings ih =>
      cases setting with
      | initialWindowSize size => exact .bind (hrecv _) fun _ => ih
      | _ => exact ih
  refine .get_bind fun m => ?_
  cases m.settings with
  | acknowledging acknowledged => exact .bind (hacknowledge acknowledged) fun _ => .modify fun m => hsettings m _
  | synced => exact .modify fun m => hsettings m _

theorem keeps_recvSettingsFrame (settings : List Setting)
    (hrecv : ∀ size, Keeps R F (onStreams (Streams.applyRecvInitialWindowSize size)))
    (hsend : ∀ size, Keeps R F (onStreams (Streams.applySendInitialWindowSize size)))
    (hmax : ∀ num, Keeps R F (modifyStreams (Streams.applyMaxConcurrentStreams num)))
    (hsettings : ∀ m settings, R m { m with settings })
    (hqueue : Keeps R F (ConnManager.queue ⟨frame.id, ⟨ackMask⟩, frame.payload⟩)) :
    Keeps R F (recvSettingsFrame frame settings) := by
  refine .ite (keeps_acknowledged hrecv hsettings) (.bind ?_ fun _ => hqueue)
  induction settings with
  | nil => exact .pure _
  | cons setting settings ih =>
    cases setting with
    | maxConcurrentStreams num => exact .bind (hmax _) fun _ => ih
    | initialWindowSize size => exact .bind (hsend _) fun _ => ih
    | _ => exact ih

end Overlooks

/-! ### Errors -/

section Errors

variable {P Q : ConnManager → Prop} {F : Stop → ConnManager → Prop} {m : ConnManager}

theorem triple_manageRespError {P : Stop → ConnManager → Prop}
    (hstream : ∀ id code, Triple (P (.stream id code)) (manageStreamError id code) (fun _ => Q) E)
    (hconnection : ∀ code, Triple (P (.connection code)) (manageConnError code) (fun _ => Q) E)
    (hexit : ∀ kind, Triple (P (.error kind)) (exit kind) (fun _ => Q) E) (kind : DispatchErrorKind) :
    Triple (P (.error kind)) (manageRespError kind) (fun _ => Q) E := by
  cases kind with
  | h2 e =>
    cases e with
    | streamError id code => exact hstream id code
    | connectionError code => exact hconnection code
  | io | channelClosed | disconnect => exact hexit _

/-- What becomes of a frame that has been looked at. -/
theorem ends_pollRecvMessage {frame : Frame} (hframe : (pollRecvFrame frame m).Ends (fun _ => P) F)
    (hready : ∀ m, P m → Q m) (hpending : ∀ m, P m → Q { m with state := .send, nextState := .receive })
    (herror : ∀ kind, Triple (F (.error kind)) (manageRespError kind) (fun _ => Q) E)
    (hoverflow : ∀ counter m, F (.overflow counter) m → E (.overflow counter) m) :
    (pollRecvMessage frame m).Ends (fun _ => Q) E := by
  rw [pollRecvMessage]
  generalize pollRecvFrame frame m = out at hframe ⊢
  cases hframe with
  | @ok poll m' h =>
    cases poll with
    | ready _ => exact .ok (hready m' h)
    | pending => exact .ok (hpending m' h)
  | @err stop m' h =>
    cases stop with
    | error kind => exact herror kind m' h
    | overflow counter => exact .err (hoverflow counter m' h)
  | panic => exact .panic

/-- `I` holds while a connection is being ended. -/
structure Parting (I : ConnManager → Prop) (E : Stop → ConnManager → Prop) : Prop where
  marked : ∀ m g, I m → I { m with controller := { m.controller with goingAway := some g } }
  shut : ∀ m, I m → I { m with controller := { m.controller with ioShutdown := true } }
  queued : ∀ g, Triple I (queue (goawayFrame g)) (fun _ => I) E
  failed : ∀ kind m, I m → E (.error kind) m

/-- Nothing has been sent that the GOAWAY frame could repeat, or that is no error. -/
theorem Parting.manageConnError (h : Parting I E) {code : ErrorCode}
    (hexit : Triple I (exit (.h2 (.connectionError code))) (fun _ => Q) E) (hm : I m)
    (hsent : m.controller.goingAway = none ∨ Q m) : (manageConnError code m).Ends (fun _ => Q) E := by
  have hrest : ∀ g, Triple I (do
      modifyController ({ · with goingAway := some g })
      queue (goawayFrame g)
      exit (.h2 (.connectionError code))) (fun _ => Q) E :=
    fun g => .bind (.modify fun m hm => h.marked m g hm) fun _ => .bind (h.queued g) fun _ => hexit
  simp only [ConnManager.manageConnError, get_bind, Method.ite_apply]
  split
  next hsame =>
    rcases hsent with hnone | hQ
    · rw [hnone] at hsame
      cases hsame
    · exact .ok hQ
  next => exact hrest _ m hm

/-- After a GOAWAY frame of the peer the manager goes on or ends. -/
theorem Parting.pollDealWithGoAway (h : Parting I E) (hP : ∀ m, P m → I m) (errorCode : UInt32) :
    Triple P (pollDealWithGoAway errorCode) (fun _ => P) E := by
  have hend : Triple I (shutdown *> failWithCode errorCode) (fun _ => P) E := by
    refine .bind (.modify (R := fun _ => I) h.shut) fun _ => ?_
    unfold failWithCode
    cases errorCodeOf errorCode <;> exact .throw fun m hm => h.failed _ m hm
  have hsend : ∀ g, Triple I (do
      modifyController ({ · with goingAway := some g })
      queue (goawayFrame g)
      shutdown *> failWithCode errorCode) (fun _ => P) E :=
    fun g => .bind (.modify fun m hm => h.marked m g hm) fun _ => .bind (h.queued g) fun _ => hend
  refine .get_bind fun m _ => .ite (fun _ m hm => ?_) fun _ => .pure fun _ h => h
  simp only [get_bind, Method.ite_apply]
  split
  · exact hsend _ m (hP m hm)
  · exact hend m (hP m hm)

/-- A read of a body: what it gives is sent, an error of a stream ends the stream. -/
theorem ends_inputData {P : DataReadState → ConnManager → Prop} {Q : Bool → ConnManager → Prop} {id : StreamId}
    {read : BodyRead} (hread : (onStreams (Streams.pollReadBody id read) m).Ends P F)
    (hclosed : ∀ m, P .closed m → Q false m) (hpending : ∀ m, P .pending m → Q false m)
    (hready : ∀ frame, Triple (P (.ready frame)) (pollSendFrame frame) (fun _ => Q true) E)
    (hfinish : ∀ frame, Triple (P (.finish frame)) (pollSendFrame frame) (fun _ => Q false) E)
    (hstream : ∀ id code, Triple (F (.stream id code)) (manageStreamError id code) (fun _ => Q false) E)
    (hstop : ∀ stop m, F stop m → (∀ id code, stop ≠ .stream id code) → E stop m) :
    (inputData id read m).Ends Q E := by
  rw [inputData]
  generalize onStreams (Streams.pollReadBody id read) m = out at hread ⊢
  cases hread with
  | panic => exact .panic
  | @ok state m' h =>
    cases state with
    | closed => exact .ok (hclosed m' h)
    | pending => exact .ok (hpending m' h)
    | ready frame => exact (hready frame m' h).bind fun _ _ h => .ok h
    | finish frame => exact (hfinish frame m' h).bind fun _ _ h => .ok h
  | @err stop m' h =>
    cases stop with
    | overflow counter => exact .err (hstop _ m' h nofun)
    | error e =>
      cases e with
      | h2 e =>
        cases e with
        | streamError other code =>
          have hdeal : (dealPollBodyError (.streamError other code) m').Ends (fun _ => Q false) E :=
            (hstream other code m' h).bind fun _ _ h => .ok h
          exact hdeal.bind fun _ _ h => .ok h
        | connectionError code => exact .err (hstop _ m' h nofun)
      | io | channelClosed | disconnect => exact .err (hstop _ m' h nofun)

end Errors

/-! ### Requests and bodies -/

/-- A request that gets no id only ends the loop. -/
theorem triple_pollRecvRequest {closed : Bool}
    (haccept : ∀ request, Triple I (acceptRequest request) (fun _ => I) fun stop m =>
      match stop with
      | .error _ => I m
      | .overflow _ => E stop m)
    (hclosed : closed = true → ∀ m, I m → E (.error .channelClosed) m) :
    ∀ requests : List Request, Triple I (pollRecvRequest closed requests) (fun _ => I) E
  | [] => by
    exact .ite (fun h => .throw (hclosed h)) fun _ => .pure fun _ h => h
  | request :: requests => by
    intro m hm
    have hends := haccept request m hm
    simp only [pollRecvRequest]
    generalize acceptRequest request m = out at hends ⊢
    cases hends with
    | ok h => exact triple_pollRecvRequest haccept hclosed requests _ h
    | @err stop m' h =>
      cases stop with
      | error e => exact .ok h
      | overflow counter => exact .err h
    | panic => exact .panic

/-- `I n` holds when `n` streams are left to be served, `J n id` before the headers of a stream are
sent, `K n id` while its body is. -/
structure Serves (I : Nat → ConnManager → Prop) (J K : Nat → StreamId → ConnManager → Prop)
    (E : Stop → ConnManager → Prop) : Prop where
  next : ∀ n, Triple (I (n + 1)) (onStreams Streams.nextPendingStream)
    (fun id m => match id with
      | none => I 0 m
      | some id => J n id m) E
  headers : ∀ n id, Triple (J n id) (inputHeaders id) (fun follows m => if follows then K n id m else I n m) E
  data : ∀ n id read, Triple (K n id) (inputData id read) (fun more m => if more then K n id m else I n m) E
  served : ∀ n id m, K n id m → I n m

namespace Serves

variable {I : Nat → ConnManager → Prop} {J K : Nat → StreamId → ConnManager → Prop}

theorem inputBody (h : Serves I J K E) (n : Nat) (id : StreamId) :
    ∀ reads : List BodyRead, Triple (K n id) (inputBody id reads) (fun _ => I n) E
  | [] => by
    refine .bind (h.data n id .pending) fun more => .pure fun m hm => ?_
    cases more with
    | true => exact h.served n id m hm
    | false => exact hm
  | read :: reads => by
    refine .bind (h.data n id read) fun more => ?_
    cases more with
    | true => exact h.inputBody n id reads
    | false => exact .pure fun _ hm => hm

theorem inputStreamFrame (h : Serves I J K E) (n : Nat) (id : StreamId) (reads : List BodyRead) :
    Triple (J n id) (inputStreamFrame id reads) (fun _ => I n) E := by
  refine .bind (h.headers n id) fun follows => ?_
  cases follows with
  | true => exact h.inputBody n id reads
  | false => exact .pure fun _ hm => hm

theorem inputStreams (h : Serves I J K E) :
    ∀ (n : Nat) (bodies : List (List BodyRead)), Triple (I n) (inputStreams n bodies) (fun _ => I 0) E
  | 0, _ => .pure fun _ hm => hm
  | n + 1, bodies => by
    refine .bind (h.next n) fun id => ?_
    cases id with
    | none => exact .pure fun _ hm => hm
    | some id => exact .bind (h.inputStreamFrame n id _) fun _ => h.inputStreams n bodies.tail

/-- One invariant for all of the loop. -/
theorem const {I : ConnManager → Prop} (hnext : Triple I (onStreams Streams.nextPendingStream) (fun _ => I) E)
    (hheaders : ∀ id, Triple I (inputHeaders id) (fun _ => I) E)
    (hdata : ∀ id read, Triple I (inputData id read) (fun _ => I) E) :
    Serves (fun _ => I) (fun _ _ => I) (fun _ _ => I) E where
  next _ m hm := by
    refine (hnext m hm).mono (fun id _ h => ?_) fun _ _ h => h
    cases id <;> exact h
  headers _ id m hm := by
    refine (hheaders id m hm).mono (fun follows _ h => ?_) fun _ _ h => h
    cases follows <;> exact h
  data _ id read m hm := by
    refine (hdata id read m hm).mono (fun more _ h => ?_) fun _ _ h => h
    cases more <;> exact h
  served _ _ _ h := h

end Serves

/-! ### States of the manager -/

/-- The manager only waits for callers and then ends. -/
def Exiting (m : ConnManager) : Prop :=
  (∃ e, m.state = .exit e) ∨ m.state = .send ∧ ∃ e, m.nextState = .exit e

/-- The manager stays in its state. -/
def SameState (m m' : ConnManager) : Prop := m'.state = m.state ∧ m'.nextState = m.nextState

instance : IsPreorder ConnManager SameState where
  refl _ := ⟨rfl, rfl⟩
  trans _ _ _ h h' := ⟨h'.1.trans h.1, h'.2.trans h.2⟩

theorem sameState_pollBlockedMessage : Stays SameState pollBlockedMessage := by
  have hoverlooks : Overlooks SameState :=
    ⟨fun _ _ => ⟨rfl, rfl⟩, fun _ _ _ => ⟨rfl, rfl⟩, fun _ _ => ⟨rfl, rfl⟩, fun _ _ => ⟨rfl, rfl⟩⟩
  exact hoverlooks.pollBlockedMessage fun id => hoverlooks.resetBlocked (keeps_anyStreams (fun _ _ => ⟨rfl, rfl⟩) _) fun _ => ⟨rfl, rfl⟩

/-- The property is about the controller and the history. -/
def OnRecord (I : ConnManager → Prop) : Prop :=
  ∀ {m m' : ConnManager}, I m → m'.controller = m.controller → m'.history = m.history → I m'

/-- The manager goes on with `B`, or only `A` holds and it is about to end. -/
def Going (A B : ConnManager → Prop) (m : ConnManager) : Prop := Exiting m ∧ A m ∨ B m

section Going

variable {A B : ConnManager → Prop} {m : ConnManager}

/-- A manager that looks at its channels is not about to end. -/
theorem Going.of_receive (h : Going A B m) (hstate : m.state = .receive) : B m := by
  rcases h with ⟨⟨e, hexit⟩ | ⟨hsend, -⟩, -⟩ | hB
  · cases hstate.symm.trans hexit
  · cases hstate.symm.trans hsend
  · exact hB

theorem Going.sameState {m' : ConnManager} (hA : OnRecord A) (hB : OnRecord B) (h : Going A B m) (hstate : SameState m m')
    (hcontroller : m'.controller = m.controller) (hhistory : m'.history = m.history) : Going A B m' := by
  rcases h with ⟨hexit, h⟩ | h
  · refine .inl ⟨?_, hA h hcontroller hhistory⟩
    rw [Exiting, hstate.1, hstate.2]
    exact hexit
  · exact .inr (hB h hcontroller hhistory)

theorem going_exit {P : ConnManager → Prop} {kind : DispatchErrorKind} (hA : OnRecord A)
    (hexit : Triple P (exitWithError kind) (fun _ => A) E) (hfailed : ∀ m, A m → E (.error kind) m) :
    Triple P (exit kind) (fun _ => Going A B) E := by
  refine .bind hexit fun blocked => ?_
  cases blocked with
  | true => exact fun m hm => .ok (.inl ⟨.inr ⟨rfl, kind, rfl⟩, hA hm rfl rfl⟩)
  | false => exact .throw hfailed

/-- What the manager does while callers do not take their messages. -/
theorem Going.pollBlockedFrames (hA : OnRecord A) (hB : OnRecord B)
    (hkeepsA : Triple A pollBlockedMessage (fun _ => A) E) (hkeepsB : Triple B pollBlockedMessage (fun _ => B) E)
    (hm : Going A B m) (hstate : m.state = .send) : (pollBlockedFrames m).Ends (fun _ => Going A B) E := by
  have hblocked : (pollBlockedMessage m).Ends (fun _ m' => (∃ e, m.nextState = .exit e) ∧ A m' ∨ B m') E := by
    rcases hm with ⟨⟨e, hexit⟩ | ⟨-, hnext⟩, hm⟩ | hm
    · cases hstate.symm.trans hexit
    · exact (hkeepsA m hm).mono (fun _ _ h => .inl ⟨hnext, h⟩) fun _ _ h => h
    · exact (hkeepsB m hm).mono (fun _ _ h => .inr h) fun _ _ h => h
  have hkept := sameState_pollBlockedMessage m
  rw [ConnManager.pollBlockedFrames, bind_apply]
  generalize pollBlockedMessage m = out at hblocked hkept ⊢
  cases hblocked with
  | panic => exact .panic
  | err h => exact .err h
  | @ok poll m' h =>
    obtain ⟨hsend, hnext⟩ := hkept.of_ok rfl
    cases poll with
    | ready _ =>
      refine .ok ?_
      rcases h with ⟨⟨e, hexit⟩, h⟩ | h
      · exact .inl ⟨.inl ⟨e, hnext.trans hexit⟩, hA h rfl rfl⟩
      · exact .inr (hB h rfl rfl)
    | pending =>
      refine .ok ?_
      rcases h with ⟨⟨e, hexit⟩, h⟩ | h
      · exact .inl ⟨.inr ⟨hsend.trans hstate, e, hnext.trans hexit⟩, h⟩
      · exact .inr h

/-- A turn, with what the manager does for each event. -/
theorem Going.step {event : Event} {answers : Answers} {out : Outcome ConnManager Stop Unit} (hA : OnRecord A)
    (hB : OnRecord B) (hm : Going A B m) (h : step m event answers = some out)
    (hframe : ∀ m' frame, m'.controller = m.controller → event = .message (.output frame) → B m' →
      (pollRecvMessage frame { m' with history := .received frame :: m'.history }).Ends (fun _ => Going A B) E)
    (herror : ∀ m' kind, m'.controller = m.controller → event = .message (.outputExit kind) → B m' →
      (manageRespError kind m').Ends (fun _ => Going A B) E)
    (hclosed : Triple B (exit .channelClosed) (fun _ => Going A B) E)
    (hpending : ∀ requests closed bodies, Triple B (managePendingState requests closed bodies) (fun _ => B) E)
    (hkeepsA : Triple A pollBlockedMessage (fun _ => A) E) (hkeepsB : Triple B pollBlockedMessage (fun _ => B) E) :
    out.Ends (fun _ => Going A B) E := by
  rw [ConnManager.step] at h
  split at h
  next henabled =>
    obtain rfl := Option.some.inj h
    have hm' : Going A B { m with answers } := hm.sameState hA hB ⟨rfl, rfl⟩ rfl rfl
    generalize hnew : ({ m with answers } : ConnManager) = m' at hm'
    obtain ⟨hstate, hsame⟩ : m'.state = m.state ∧ m'.controller = m.controller := by
      rw [← hnew]
      exact ⟨rfl, rfl⟩
    rw [← hstate] at henabled
    cases event with
    | message message =>
      have hgoing := hm'.of_receive (of_decide_eq_true henabled)
      cases message with
      | output frame => exact (hframe m' frame hsame rfl hgoing).bind fun _ _ h => .ok h
      | outputExit kind =>
        simp only [turn, get_bind, Method.ite_apply]
        split
        · exact (herror m' kind hsame rfl hgoing).bind fun _ _ h => .ok h
        · exact .ok hm'
    | closed => exact (hclosed m' (hm'.of_receive (of_decide_eq_true henabled))).bind fun _ _ h => .ok h
    | pending requests closed bodies =>
      have hgoing := hm'.of_receive (of_decide_eq_true henabled)
      exact (hpending requests closed bodies m' hgoing).mono (fun _ _ h => .inr h) fun _ _ h => h
    | blocked =>
      have hblocked := hm'.pollBlockedFrames hA hB hkeepsA hkeepsB (of_decide_eq_true henabled)
      exact hblocked.bind fun _ _ h => .ok h
    | settings settings => exact .ok (hm'.sameState hA hB ⟨rfl, rfl⟩ rfl rfl)
  next => cases h

end Going

end YlongHttp.Client.H2.ConnManager
