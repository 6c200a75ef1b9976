/-
DATA frames within the windows of the peer.

`Within` is a property of the history of the manager: each DATA frame was queued within the
windows that the peer had computed by then, and with it the windows of the streams had the values
that the peer computes. A manager that goes on is `Live`: its windows are those of the peer. What
leaves the windows alone is `Calm` and keeps that; SETTINGS and WINDOW_UPDATE frames, requests and
bodies are followed step by step. An error of the connection may leave the windows half changed,
but then the manager only waits for the callers and ends (`Exiting`).
-/

import YlongHttp.Client.H2.SendView
import YlongHttp.H2.Decoder.Payload
import YlongHttp.Rust.Run

namespace YlongHttp.Client.H2

open YlongHttp.H2 Codec Rust List

/-! ### The history -/

def Item.Within (p : Peer) : Item → Prop
  | .queued frame streams =>
    match frame.payload with
    | .data data =>
      (∃ window, p.window frame.id = some window ∧ data.length ≤ window) ∧ data.length ≤ p.conn ∧
        (∀ id, streams.windowOf id = (p.take frame.id data.length).window id) ∧
        streams.flowControl.sendWindow.size = (p.take frame.id data.length).conn
    | _ => True
  | _ => True

/-- Every DATA frame was queued within the windows of the peer, with the windows of the client
equal to them. -/
def Within : List Item → Prop
  | [] => True
  | item :: history => item.Within (peer history) ∧ Within history

/-- The windows do not depend on the item. -/
def Item.Silent : Item → Prop
  | .delivered _ _ => True
  | .queued frame _ => ∀ data, frame.payload ≠ .data data
  | _ => False

variable {item : Item}

theorem Item.Neutral.silent (h : item.Neutral) : item.Silent := by
  cases item with
  | delivered id message => trivial
  | queued frame streams =>
    intro data hpayload
    simp only [Item.Neutral, hpayload] at h
  | received | requested => exact h

theorem Item.Silent.observe (h : item.Silent) (p : Peer) : p.observe item = p := by
  cases item with
  | delivered id message => rfl
  | queued frame streams =>
    rw [Peer.observe]
    split
    next data hpayload => exact absurd hpayload (h data)
    next => rfl
  | received | requested => exact h.elim

theorem Item.Silent.within (h : item.Silent) (p : Peer) : item.Within p := by
  cases item with
  | delivered id message => trivial
  | queued frame streams =>
    rw [Item.Within]
    split
    next data hpayload => exact absurd hpayload (h data)
    next => trivial
  | received | requested => exact h.elim

theorem peer_append_silent {items : List Item} (h : ∀ item ∈ items, item.Silent) (history : List Item) :
    peer (items ++ history) = peer history := by
  induction items with
  | nil => rfl
  | cons item items ih =>
    have hitem := h item mem_cons_self
    rw [cons_append, peer, ih fun other hmem => h other (mem_cons_of_mem item hmem), hitem.observe]

theorem Within.append_silent {items history : List Item} (h : ∀ item ∈ items, item.Silent) (hwithin : Within history) :
    Within (items ++ history) := by
  induction items with
  | nil => exact hwithin
  | cons item items ih =>
    have hitem := h item mem_cons_self
    exact ⟨hitem.within _, ih fun other hmem => h other (mem_cons_of_mem item hmem)⟩

namespace ConnManager

/-! ### What leaves the windows alone -/

structure Calm (m m' : ConnManager) : Prop where
  streams : m.controller.streams.SameSend m'.controller.streams
  goingAway : m'.controller.goingAway = m.controller.goingAway
  history : ∃ items, m'.history = items ++ m.history ∧ ∀ item ∈ items, item.Silent

instance : IsPreorder ConnManager Calm where
  refl m := ⟨refl m.controller.streams, rfl, [], rfl, by simp⟩
  trans _ _ _ h h' := ⟨IsTrans.trans _ _ _ h.streams h'.streams, h'.goingAway.trans h.goingAway,
    exists_append h.history h'.history⟩

variable {m m' : ConnManager} {α : Type} {frame : Frame} {id : StreamId} {p q : Peer}

theorem Quiet.calm (h : Quiet m m') : Calm m m' := by
  obtain ⟨items, hitems, hneutral⟩ := h.history
  exact ⟨h.streams.sameSend, h.goingAway, items, hitems, fun item hmem => (hneutral item hmem).silent⟩

variable {f : Method ConnManager Stop α}

abbrev Calms {α : Type} (f : Method ConnManager Stop α) : Prop := Keeps Calm Stop.OffSend f

theorem calm_of_quiet (h : Hushes f) : Calms f :=
  h.mono (fun _ _ h => h.toQuiet.calm) fun _ => Stop.OffWindows.offSend

theorem calm_onStreams {f : Method Streams Stop α} (h : Keeps Streams.SameSend Stop.OffSend f) : Calms (onStreams f) :=
  h.onField fun _ _ hs => ⟨hs, rfl, [], rfl, by simp⟩

theorem calm_queue (h : ∀ data, frame.payload ≠ .data data) : Calms (queue frame) := by
  refine .bind (calm_of_quiet overlooks_hushed.nextInput) fun _ => .ite ?_ (.throw nofun)
  refine .get_bind fun m => .modify fun m' => ⟨refl m'.controller.streams, rfl, [_], rfl, ?_⟩
  exact forall_mem_singleton.mpr h

theorem calm_queueUpdate {update : Option Frame}
    (h : ∀ frame ∈ update, ∃ n, frame = RecvWindow.windowUpdate id n) : Calms (queueUpdate update) := by
  cases update with
  | none => exact .pure _
  | some frame =>
    obtain ⟨n, rfl⟩ := h frame rfl
    exact calm_queue nofun

theorem calm_recvDataFrame (frame : Frame) (data : List UInt8) : Calms (recvDataFrame frame data) := by
  refine .bind ?_ fun _ => ?_
  · refine .bind_value (calm_onStreams (Streams.recvFree_sameSend.keeps_releaseConnRecvWindow data.length))
      (Triple.onField_value (Streams.releaseConnRecvWindow_value data.length)) fun update hupdate => ?_
    refine .bind (calm_queueUpdate hupdate) fun _ => ?_
    refine .bind_value (calm_onStreams (Streams.recvFree_sameSend.keeps_releaseStreamRecvWindow nofun data.length))
      (Triple.onField_value (Streams.releaseStreamRecvWindow_value frame.id data.length)) fun update hupdate => ?_
    exact calm_queueUpdate hupdate
  · refine .bind (calm_of_quiet (keeps_onStreams (Streams.keeps_recvData _ _))) fun _ => ?_
    exact calm_of_quiet (keeps_forwardIf _ _)

/-! ### Managers that go on -/

/-- The windows are those of `p`, and the peer has computed `q`. -/
structure Ahead (p q : Peer) (m : ConnManager) : Prop where
  fits : m.controller.streams.Fits p
  view : peer m.history = q
  goingAway : m.controller.goingAway = none
  within : Within m.history

/-- The windows are those of the peer. -/
def Live (m : ConnManager) : Prop := Ahead (peer m.history) (peer m.history) m

theorem Ahead.live (h : Ahead p p m) : Live m := by
  have hview := h.view
  subst hview
  exact h

theorem Calm.ahead (h : Calm m m') (hm : Ahead p q m) : Ahead p q m' := by
  obtain ⟨items, hitems, hsilent⟩ := h.history
  constructor
  · exact hm.fits.sameSend h.streams
  · rw [hitems, peer_append_silent hsilent, hm.view]
  · rw [h.goingAway, hm.goingAway]
  · rw [hitems]
    exact hm.within.append_silent hsilent

theorem Calm.live (h : Calm m m') (hm : Live m) : Live m' := (h.ahead hm).live

/-- A call has failed. The windows may be half changed if the error is one of the connection. -/
structure Stopped (stop : Stop) (m : ConnManager) : Prop where
  offSend : stop.OffSend
  within : Within m.history
  goingAway : m.controller.goingAway = none
  live : ∀ id code, stop = .stream id code → Live m

theorem Live.stopped {stop : Stop} (h : Live m) (hstop : stop.OffSend) : Stopped stop m :=
  ⟨hstop, h.within, h.goingAway, fun _ _ _ => h⟩

theorem ends_calm (hf : Calms f) (hm : Live m) : (f m).Ends (fun _ => Live) Stopped :=
  (hf m).mono (fun _ _ h => h.live hm) fun _ _ ⟨hstop, h⟩ => (h.live hm).stopped hstop

/-- A change of the windows that may be refused by the flow control. -/
theorem triple_onStreams {f : Method Streams Stop α} {p' : Peer}
    (hf : Triple (Streams.Fits p) f (fun _ => Streams.Fits p') fun stop _ => stop = .connection .flowControlError) :
    Triple (Ahead p q) (onStreams f) (fun _ => Ahead p' q) Stopped := by
  intro m hm
  refine (hf m.controller.streams hm.fits).mapState ?_ ?_
  · exact fun _ _ h => ⟨h, hm.view, hm.goingAway, hm.within⟩
  · rintro _ _ rfl
    exact ⟨nofun, hm.within, hm.goingAway, nofun⟩

/-! ### Frames from the peer -/

/-- The window sizes of some settings fit into 31 bits. -/
def SmallWindows (settings : List Setting) : Prop := ∀ size, Setting.initialWindowSize size ∈ settings → size.toNat < 2 ^ 31

/-- What the decoder lets through: windows and increments of 31 bits. -/
def InRange (frame : Frame) : Prop :=
  match frame.payload with
  | .settings settings => SmallWindows settings
  | .windowUpdate increment => increment.toNat < 2 ^ 31
  | _ => True

/-- The manager has taken `frame` from the reading task and has not looked at it. -/
def Met (frame : Frame) (m : ConnManager) : Prop := ∃ p, Ahead p (p.observe (.received frame)) m

/-- The values of a SETTINGS frame are applied one after the other. -/
theorem triple_applySettings : ∀ {settings : List Setting} {p : Peer}, SmallWindows settings →
      q = p.settle settings → Triple (Ahead p q) (applySettings settings) (fun _ => Ahead q q) Stopped
  | [], p, _, hq => by
    subst hq
    exact .pure fun _ h => h
  | setting :: settings, p, hrange, hq => by
    have hrest : SmallWindows settings :=
      fun size hmem => hrange size (mem_cons_of_mem setting hmem)
    have hsame : q = p.settle settings → Triple (Ahead p q) (applySettings settings) (fun _ => Ahead q q) Stopped :=
      triple_applySettings hrest
    cases setting with
    | initialWindowSize size =>
      refine .bind (triple_onStreams ?_) fun _ => triple_applySettings hrest hq
      exact Streams.triple_applySendInitialWindowSize (hrange size mem_cons_self)
    | maxConcurrentStreams num =>
      refine .bind (triple_onStreams fun s hs => ?_) fun _ => hsame hq
      exact .ok (hs.sameSend ⟨rfl, rfl, rfl, fun _ => rfl⟩)
    | _ => exact hsame hq

theorem triple_recvSettingsFrame {settings : List Setting} (hpayload : frame.payload = .settings settings)
    (hrange : InRange frame) : Triple (Met frame) (recvSettingsFrame frame settings) (fun _ => Live) Stopped := by
  rintro m ⟨p, hm⟩
  rw [InRange, hpayload] at hrange
  simp only [Peer.observe, hpayload] at hm
  rw [recvSettingsFrame]
  split
  next hack =>
    rw [if_pos hack] at hm
    refine ends_calm (keeps_acknowledged ?_ fun m _ => ?_) hm.live
    · exact fun size => calm_onStreams (Streams.recvFree_sameSend.keeps_applyRecvInitialWindowSize size)
    · exact ⟨refl m.controller.streams, rfl, [], rfl, by simp⟩
  next hack =>
    rw [if_neg hack] at hm
    refine (triple_applySettings hrange rfl m hm).bind fun _ m' hm' => ends_calm (calm_queue ?_) hm'.live
    intro data hdata
    cases hpayload.symm.trans hdata

theorem triple_recvWindowFrame {increment : UInt32} (hpayload : frame.payload = .windowUpdate increment)
    (hrange : InRange frame) : Triple (Met frame) (recvWindowFrame frame increment) (fun _ => Live) Stopped := by
  rintro m ⟨p, hm⟩
  rw [InRange, hpayload] at hrange
  simp only [Peer.observe, hpayload] at hm
  rw [recvWindowFrame]
  split
  next hid =>
    rw [hid] at hm
    refine (triple_onStreams (Streams.triple_increaseConnSendWindow hrange) m hm).bind fun _ m' hm' => ?_
    exact ends_calm (calm_onStreams (.modify fun _ => ⟨rfl, rfl, rfl, fun _ => rfl⟩)) hm'.live
  next hid =>
    refine (triple_onStreams (Streams.triple_reassignStreamSendWindow hid hrange) m hm).mono ?_ fun _ _ h => h
    exact fun _ _ h => h.live

theorem triple_pollRecvFrame (hrange : InRange frame) :
    Triple (Met frame) (pollRecvFrame frame) (fun _ => Live) Stopped := by
  have hcalm : ∀ {f : Method ConnManager Stop (Poll Unit)}, Calms f →
      (∀ p : Peer, p.observe (.received frame) = p) → Triple (Met frame) f (fun _ => Live) Stopped := by
    rintro f hf hsame m ⟨p, hm⟩
    rw [hsame] at hm
    exact ends_calm hf hm.live
  unfold pollRecvFrame
  split
  case h_1 settings hpayload =>
    exact .bind (triple_recvSettingsFrame hpayload hrange) fun _ => .pure fun _ h => h
  case h_8 increment hpayload =>
    exact .bind (triple_recvWindowFrame hpayload hrange) fun _ => .pure fun _ h => h
  all_goals
    rename_i hpayload
    refine hcalm ?_ fun p => by simp only [Peer.observe, hpayload]
  · exact .bind (calm_of_quiet (keeps_recvPingFrame _ _)) fun _ => .pure _
  · exact .throw nofun
  · exact calm_of_quiet (keeps_recvGoAwayFrame _)
  · exact calm_of_quiet (keeps_recvResetFrame _)
  · exact calm_of_quiet (keeps_recvHeaderFrame _)
  · exact calm_recvDataFrame _ _
  · exact .pure _

/-! ### Ends of the connection -/

/-- The windows are those of the peer, unless the connection is being ended. -/
def Sound : ConnManager → Prop := Going (fun m => Within m.history) Live

theorem Sound.within (h : Sound m) : Within m.history := by
  rcases h with ⟨-, hwithin⟩ | hlive
  · exact hwithin
  · exact hlive.within

theorem onRecord_within : OnRecord fun m => Within m.history := by
  intro m m' h _ hhistory
  rw [hhistory]
  exact h

theorem onRecord_live : OnRecord Live := by
  intro m m' h hcontroller hhistory
  have hhushed : Hushed m m' := .of_eq (by rw [hcontroller]) (by rw [hcontroller]) (by rw [Noted, hcontroller]; exact id) hhistory
  exact hhushed.calm.live h

/-- The task has ended. -/
structure Failed (stop : Stop) (m : ConnManager) : Prop where
  offSend : stop.OffSend
  within : Within m.history

theorem Stopped.failed {stop : Stop} (h : Stopped stop m) : Failed stop m := ⟨h.offSend, h.within⟩

theorem Calm.within (h : Calm m m') (hm : Within m.history) : Within m'.history := by
  obtain ⟨items, hitems, hsilent⟩ := h.history
  rw [hitems]
  exact hm.append_silent hsilent

theorem triple_within (hf : Calms f) : Triple (fun m => Within m.history) f (fun _ m => Within m.history) Failed :=
  fun m hm => (hf m).mono (fun _ _ h => h.within hm) fun _ _ ⟨hstop, h⟩ => ⟨hstop, h.within hm⟩

theorem sound_exit (kind : DispatchErrorKind) :
    Triple (fun m => Within m.history) (exit kind) (fun _ => Sound) Failed :=
  going_exit onRecord_within (triple_within (calm_of_quiet (keeps_exitWithError kind))) fun _ hm => ⟨nofun, hm⟩

theorem parting_within : Parting (fun m => Within m.history) Failed where
  marked _ _ h := h
  shut _ h := h
  queued _ := triple_within (calm_queue nofun)
  failed _ _ h := ⟨nofun, h⟩

/-- An error of a stream ends the stream, any other error the connection. -/
theorem sound_manageRespError (kind : DispatchErrorKind) :
    Triple (Stopped (.error kind)) (manageRespError kind) (fun _ => Sound) Failed := by
  refine triple_manageRespError ?_ ?_ ?_ kind
  · intro id code m hm
    refine (ends_calm (calm_of_quiet (keeps_manageStreamError id code)) (hm.live id code rfl)).mono ?_ ?_
    · exact fun _ _ h => .inr h
    · exact fun _ _ h => h.failed
  · exact fun code m hm => parting_within.manageConnError (sound_exit _) hm.within (.inl hm.goingAway)
  · exact fun kind m hm => sound_exit kind m hm.within

theorem sound_pollRecvMessage (hrange : InRange frame) :
    Triple (Met frame) (pollRecvMessage frame) (fun _ => Sound) Failed := by
  intro m hm
  refine ends_pollRecvMessage (triple_pollRecvFrame hrange m hm) (fun _ h => .inr h) ?_ sound_manageRespError ?_
  · exact fun _ h => .inr (onRecord_live h rfl rfl)
  · exact fun _ _ h => h.failed

/-! ### Requests and bodies -/

theorem triple_calm (hf : Calms f) : Triple Live f (fun _ => Live) Failed :=
  fun _ hm => (ends_calm hf hm).mono (fun _ _ h => h) fun _ _ h => h.failed

/-- The id of a stream that is not yet open. -/
structure Opening (p : Peer) (id : StreamId) (m : ConnManager) : Prop where
  ahead : Ahead p p m
  closed : p.credit id = none
  id_lt : id < m.controller.streams.nextStreamId

/-- A request opens a stream whose window is the initial window. -/
theorem triple_acceptRequest (request : Request) :
    Triple Live (acceptRequest request) (fun _ => Live) fun stop m =>
      match stop with
      | .error _ => Live m
      | .overflow _ => Failed stop m := by
  intro m hm
  let p := peer m.history
  let E : Stop → ConnManager → Prop := fun stop m =>
    match stop with
    | .error _ => Live m
    | .overflow _ => Failed stop m
  have hid : (onStreams Streams.generateId m).Ends (Opening p) E := by
    refine (Streams.triple_generateId m.controller.streams hm.fits).mapState ?_ ?_
    · rintro id s ⟨hs, hclosed, hlt⟩
      exact ⟨⟨hs, rfl, hm.goingAway, hm.within⟩, hclosed, hlt⟩
    · rintro _ s ⟨rfl, hs⟩
      exact Ahead.live (p := p) ⟨hs, rfl, hm.goingAway, hm.within⟩
  have hqueue : ∀ (id : StreamId) (f : Streams → Streams), (∀ s : Streams, s.SameSend (f s)) →
      Triple (Opening p id) (modifyStreams f) (fun _ => Opening p id) E := by
    rintro id f hf m ⟨hahead, hclosed, hlt⟩
    have hsame := hf m.controller.streams
    refine .ok ⟨⟨hahead.fits.sameSend hsame, hahead.view, hahead.goingAway, hahead.within⟩, hclosed, ?_⟩
    exact hsame.next.symm ▸ hlt
  have hrest : ∀ id, Triple (Opening p id) (do
      modifyController fun c => { c with senders := id :: c.senders }
      modifyStreams (Streams.insert id ⟨id, request.flag, request.parts⟩ ⟨true⟩)
      log (.requested id)) (fun _ => Live) E := by
    rintro id m ⟨hahead, -, hlt⟩
    refine .ok (Ahead.live (p := p.openStream id) ⟨hahead.fits.insert hlt _ _, ?_, hahead.goingAway, ?_⟩)
    · exact congrArg (Peer.openStream id) hahead.view
    · exact ⟨trivial, hahead.within⟩
  refine hid.bind fun id => Triple.get_bind fun m _ => ?_
  refine Triple.ite (fun _ => Triple.bind (hqueue id _ ?_) fun _ => hrest id)
    fun _ => .bind (hqueue id _ ?_) fun _ => hrest id
  · exact fun _ => ⟨rfl, rfl, rfl, fun _ => rfl⟩
  · exact fun _ => ⟨rfl, rfl, rfl, fun _ => rfl⟩

/-- The DATA frame of a body is put on record when the channel takes it. -/
theorem Ahead.queued {data : List UInt8}
    (hallowed : Streams.Allowed p id frame data) (hm : Ahead (p.take id data.length) p m) :
    Live { m with history := .queued frame m.controller.streams :: m.history } := by
  have hobserve : (peer m.history).observe (.queued frame m.controller.streams) = p.take id data.length := by
    simp only [Peer.observe, hallowed.payload, hallowed.id_eq, hm.view]
  refine Ahead.live (p := p.take id data.length) ⟨hm.fits, hobserve, hm.goingAway, ?_, hm.within⟩
  simp only [Item.Within, hallowed.payload, hallowed.id_eq, hm.view]
  exact ⟨hallowed.stream, hallowed.conn, hm.fits.windows, hm.fits.conn⟩

theorem triple_pollSendFrame {data : List UInt8} (hallowed : Streams.Allowed p id frame data) :
    Triple (Ahead (p.take id data.length) p) (pollSendFrame frame) (fun _ => Live) Failed := by
  have hcalm : ∀ {α : Type} {f : Method ConnManager Stop α}, Hushes f →
      Triple (Ahead (p.take id data.length) p) f (fun _ => Ahead (p.take id data.length) p) Failed := by
    intro α f hf m hm
    refine (calm_of_quiet hf m).mono ?_ ?_
    · exact fun _ _ h => h.ahead hm
    · exact fun _ _ h => ⟨h.1, h.2.within hm.within⟩
  have hqueue : Triple (Ahead (p.take id data.length) p) (queue frame) (fun _ => Live) Failed := by
    refine .bind (hcalm overlooks_hushed.nextInput) fun taken => ?_
    refine .ite (fun _ m hm => .ok (hm.queued hallowed)) fun _ => ?_
    exact .throw fun m hm => ⟨nofun, hm.within⟩
  simp only [pollSendFrame, hallowed.payload]
  refine .bind (hcalm (keeps_onStreams (Streams.keeps_transition _ _))) fun sent => ?_
  cases sent with
  | err e => exact .throw fun m hm => ⟨nofun, hm.within⟩
  | ok | ignore => exact hqueue

theorem triple_inputData (id : StreamId) (read : BodyRead) :
    Triple Live (inputData id read) (fun _ => Live) Failed := by
  intro m hm
  have hread : (onStreams (Streams.pollReadBody id read) m).Ends
      (fun state m' => Streams.AfterRead (peer m.history) id state m'.controller.streams ∧ m'.history = m.history ∧
        m'.controller.goingAway = none)
      fun stop m' => (∃ e, stop = .error (.h2 e)) ∧ Live m' := by
    refine (Streams.triple_pollReadBody id read m.controller.streams hm.fits).mapState ?_ ?_
    · exact fun _ _ h => ⟨h, rfl, hm.goingAway⟩
    · rintro _ s ⟨hstop, hs⟩
      exact ⟨hstop, Ahead.live (p := peer m.history) ⟨hs, rfl, hm.goingAway, hm.within⟩⟩
  have hahead : ∀ {m'} {p : Peer}, m'.controller.streams.Fits p → m'.history = m.history →
      m'.controller.goingAway = none → Ahead p (peer m.history) m' :=
    fun hfits hhistory hgoing => ⟨hfits, by rw [hhistory], hgoing, hhistory ▸ hm.within⟩
  have hsend : ∀ {frame m'}, (∃ data, Streams.Allowed (peer m.history) id frame data ∧
        m'.controller.streams.Fits ((peer m.history).take id data.length)) → m'.history = m.history →
      m'.controller.goingAway = none → (pollSendFrame frame m').Ends (fun _ => Live) Failed := by
    rintro frame m' ⟨data, hallowed, hfits⟩ hhistory hgoing
    exact triple_pollSendFrame hallowed m' (hahead hfits hhistory hgoing)
  refine ends_inputData hread ?_ ?_ ?_ ?_ ?_ ?_
  · exact fun _ ⟨hfits, hhistory, hgoing⟩ => (hahead hfits hhistory hgoing).live
  · exact fun _ ⟨hfits, hhistory, hgoing⟩ => (hahead hfits hhistory hgoing).live
  · exact fun frame m' ⟨hsent, hhistory, hgoing⟩ => hsend hsent hhistory hgoing
  · exact fun frame m' ⟨hsent, hhistory, hgoing⟩ => hsend hsent hhistory hgoing
  · exact fun id code m' h => triple_calm (calm_of_quiet (keeps_manageStreamError id code)) m' h.2
  · rintro _ m' ⟨⟨e, rfl⟩, hlive⟩ _
    exact ⟨nofun, hlive.within⟩

theorem serves_live : Serves (fun _ => Live) (fun _ _ => Live) (fun _ _ => Live) Failed :=
  .const (triple_calm (calm_of_quiet (keeps_onStreams Streams.keeps_nextPendingStream)))
    (fun id => triple_calm (calm_of_quiet (keeps_inputHeaders id))) triple_inputData

theorem triple_managePendingState (requests : List Request) (closed : Bool) (bodies : List (List BodyRead)) :
    Triple Live (managePendingState requests closed bodies) (fun _ => Live) Failed := by
  refine .get_bind fun m _ => ?_
  cases m.controller.goAwayErrorCode with
  | some errorCode => exact parting_within.pollDealWithGoAway (fun _ h => h.within) errorCode
  | none =>
    refine .bind (triple_pollRecvRequest triple_acceptRequest ?_ requests) fun _ => ?_
    · exact fun _ m hm => ⟨nofun, hm.within⟩
    · refine .bind (triple_calm (calm_of_quiet (keeps_modifyStreams fun s => ?_))) fun _ => ?_
      · exact Streams.sameWindows_consumePending _ s
      · exact .get_bind fun _ _ => serves_live.inputStreams _ bodies

/-! ### Turns -/

def Event.InRange : Event → Prop
  | .message (.output frame) => ConnManager.InRange frame
  | _ => True

/-! ### Runs -/

/-- A turn of the manager with frames that the decoder lets through. -/
structure Turn where
  event : Event
  answers : Answers
  inRange : event.InRange

/-- A turn after which the manager goes on. -/
def advance (m : ConnManager) (t : Turn) : Option ConnManager :=
  match step m t.event t.answers with
  | some (.ok _ m') => some m'
  | _ => none

/-- A turn keeps the windows of the peer, or ends the connection. -/
theorem ends_step {t : Turn} {out : Outcome ConnManager Stop Unit} (hm : Sound m)
    (h : step m t.event t.answers = some out) : out.Ends (fun _ => Sound) Failed := by
  obtain ⟨event, answers, hrange⟩ := t
  have hblocked := calm_of_quiet keeps_pollBlockedMessage
  refine Going.step onRecord_within onRecord_live hm h ?_ ?_ (fun m hm => sound_exit _ m hm.within)
    triple_managePendingState (triple_within hblocked) (triple_calm hblocked)
  · rintro m frame - rfl hlive
    exact sound_pollRecvMessage hrange _ ⟨peer m.history, hlive.fits, rfl, hlive.goingAway, trivial, hlive.within⟩
  · exact fun m kind _ _ hlive => sound_manageRespError kind m (hlive.stopped nofun)

theorem advance_sound {t : Turn} (hm : Sound m) (h : advance m t = some m') : Sound m' := by
  rw [advance] at h
  split at h
  next hstep =>
    cases h
    exact (ends_step hm hstep).of_ok rfl
  next => cases h

theorem fits_start {config : H2Config} {s : Streams} (h : Streams.start config = .ok () s) : s.Fits .start := by
  have hkeeps : Stays FlowControl.SameSend (FlowControl.setupRecvWindow config.connWindowSize) := by
    refine .get_bind fun flow => .ite ?_ ?_
    all_goals
      intro flow
      simp only [FlowControl.onRecvWindow, RecvWindow.increaseActual, RecvWindow.reduceActual, Method.onField,
        Method.get_bind, i32]
      split
      · exact .ok rfl
      · exact .err ⟨trivial, rfl⟩
  have hends := hkeeps (.new defaultWindowSize defaultWindowSize)
  rw [Streams.start] at h
  generalize FlowControl.setupRecvWindow config.connWindowSize _ = out at h hends
  cases hends with
  | err | panic => cases h
  | ok hsend =>
    cases h
    refine ⟨rfl, by decide, congrArg SendWindow.size hsend, by decide, fun _ => rfl, ?_, ?_, fun _ _ => rfl⟩
    · rintro _ _ ⟨⟩
    · rintro _ _ ⟨⟩

theorem launch_sound {config : H2Config} (h : launch config = .ok () m) : Sound m := by
  obtain ⟨streams, hstart, hinitial⟩ := launch_cases h
  have hlive : Live (ConnManager.new streams) := ⟨fits_start hstart, rfl, rfl, trivial⟩
  have hcalm : Calms (queueInitial config) := by
    refine .bind (calm_queue nofun) fun _ => ?_
    refine .bind_value (calm_onStreams (Streams.recvFree_sameSend.keeps_releaseConnRecvWindow 0))
      (Triple.onField_value (Streams.releaseConnRecvWindow_value 0)) fun update hupdate => ?_
    exact calm_queueUpdate hupdate
  exact .inr ((hcalm.of_ok hinitial).live hlive)

/-- In every run, each DATA frame is queued within the windows that the peer computes and with
windows equal to them, and no operation on a send window overflows. -/
theorem sends_within_windows {config : H2Config} {m₀ m : ConnManager} (hlaunch : launch config = .ok () m₀)
    {turns : List Turn} (hrun : run advance turns m₀ = some m) :
    Within m.history ∧ ∀ (t : Turn) (out : Outcome ConnManager Stop Unit), step m t.event t.answers = some out →
      out.Ends (fun _ m' => Within m'.history) fun stop m' => stop ≠ .overflow .sendWindow ∧ Within m'.history := by
  have hsound : Sound m := run_invariant advance_sound (launch_sound hlaunch) hrun
  refine ⟨hsound.within, fun t out hstep => ?_⟩
  exact (ends_step hsound hstep).mono (fun _ _ h => h.within) fun _ _ h => ⟨h.offSend, h.within⟩

/-- A request with a body of three bytes. -/
def upload : Turn := ⟨.pending [⟨⟨0x4⟩, .new⟩] false [[.ready (some [1, 2, 3])]], ⟨[], []⟩, trivial⟩

/-- The DATA frames that have been queued. -/
def sentData (m : ConnManager) : List (List UInt8) :=
  m.history.filterMap fun item =>
    match item with
    | .queued ⟨_, _, .data data⟩ _ => some data
    | _ => none

theorem upload_within_windows : ∃ m₀ m, launch default = .ok () m₀ ∧ run advance [upload] m₀ = some m ∧
    m.sentData = [[1, 2, 3]] ∧ Within m.history := by
  obtain ⟨m₀, hlaunch, hsent⟩ : ∃ m₀, launch default = .ok () m₀ ∧
      (run advance [upload] m₀).map sentData = some [[1, 2, 3]] :=
    ⟨_, rfl, by decide +kernel⟩
  obtain ⟨m, hrun, hdata⟩ := Option.map_eq_some_iff.mp hsent
  exact ⟨m₀, m, hlaunch, hrun, hdata, (sends_within_windows hlaunch hrun).1⟩

end ConnManager

end YlongHttp.Client.H2
