/-
The receive window of a connection and the view of the peer.

The peer starts with a window of 65535 bytes, adds the WINDOW_UPDATE frames for stream 0, and
takes off the payloads of its DATA frames. `account` is the difference between the window the
client has on record and the increments it has sent: nothing but a DATA frame changes it
(`keepsAccount_turn`), and a DATA frame takes off the data that the manager gets (`turn_data`).
-/

import YlongHttp.Client.H2.Quiet
import YlongHttp.H2.Decoder.Payload
import YlongHttp.H2.Wire
import YlongHttp.Rust.Run

namespace YlongHttp.Client.H2

open YlongHttp.H2 Rust Method Outcome

/-! ### The account -/

/-- What a frame of the client adds to the window of the connection. -/
def connIncrement (frame : Frame) : Nat :=
  match frame.payload with
  | .windowUpdate increment => if frame.id = 0 then increment.toNat else 0
  | _ => 0

def Item.connIncrement : Item → Nat
  | .queued frame _ => H2.connIncrement frame
  | _ => 0

def connIncrements (history : List Item) : Nat := (history.map Item.connIncrement).sum

theorem connIncrements_cons (item : Item) (history : List Item) :
    connIncrements (item :: history) = item.connIncrement + connIncrements history := by
  rw [connIncrements, List.map_cons, List.sum_cons, connIncrements]

variable {α : Type}

namespace Streams

def SameRecv (s s' : Streams) : Prop := s'.flowControl.recvWindow = s.flowControl.recvWindow

instance : IsPreorder Streams SameRecv where
  refl _ := rfl
  trans _ _ _ h h' := Eq.trans h' h

theorem SameWindows.sameRecv {s s' : Streams} (h : SameWindows s s') : SameRecv s s' := by
  rw [SameRecv, h.flow]

variable (id : StreamId) (len : Nat) (read : BodyRead) (size : Nat)

theorem keeps_onStream (stream : Stream) (m : Method Stream Stop α) : Stays SameRecv (onStream id stream m) := by
  intro s
  rw [onStream]
  cases m stream with
  | ok a stream' => exact .ok rfl
  | err e stream' => exact .err ⟨trivial, rfl⟩
  | panic => exact .panic

theorem keeps_forStreams (m : Method Stream Stop Unit) : Stays SameRecv (forStreams m) := by
  refine .get_bind fun _ => .forM (fun id => .get_bind fun s => ?_) _
  cases s.streamMap.lookup id with
  | none => exact .pure _
  | some stream => exact keeps_onStream id stream m

theorem keeps_onSendWindow (m : Method SendWindow Stop α) :
    Stays SameRecv (onFlowControl (FlowControl.onSendWindow m)) := by
  intro s
  simp only [onFlowControl, FlowControl.onSendWindow, onField, mapState_mapState]
  cases m s.flowControl.sendWindow with
  | ok a w => exact .ok rfl
  | err e w => exact .err ⟨trivial, rfl⟩
  | panic => exact .panic

theorem keeps_applySendInitialWindowSize : Stays SameRecv (applySendInitialWindowSize size) := by
  refine .get_bind fun s => .bind (.modify fun _ => rfl) fun _ => ?_
  refine .ite (.bind (keeps_forStreams _) fun _ => .modify fun _ => rfl) ?_
  exact .ite (keeps_forStreams _) (.pure _)

theorem keeps_applyRecvInitialWindowSize : Stays SameRecv (applyRecvInitialWindowSize size) := by
  refine .get_bind fun s => .bind (.modify fun _ => rfl) fun _ => ?_
  exact .ite (keeps_forStreams _) (.ite (keeps_forStreams _) (.pure _))

theorem keeps_reassignStreamSendWindow : Stays SameRecv (reassignStreamSendWindow id size) := by
  refine .get_bind fun s => ?_
  have hqueues : ∀ s : Streams, SameRecv s (takePendingStreamWindow id s) := by
    intro s
    unfold takePendingStreamWindow
    split <;> rfl
  cases s.streamMap.lookup id with
  | none => exact .modify hqueues
  | some stream => exact .bind (keeps_onStream _ _ _) fun _ => .modify hqueues

theorem keeps_pollSizedData : Stays SameRecv (pollSizedData id len read) := by
  refine .get_bind fun s => ?_
  cases s.streamMap.lookup id with
  | none => exact .throw trivial
  | some stream =>
    dsimp only
    split
    · exact .pure _
    · refine .bind (keeps_onStream _ _ _) fun _ => .bind (keeps_onSendWindow _) fun _ => .pure _
    · exact .throw trivial
    · exact .bind (.modify fun _ => rfl) fun _ => .pure _

theorem keeps_pollReadBody : Stays SameRecv (pollReadBody id read) := by
  refine .get_bind fun s => ?_
  cases s.streamMap.lookup id with
  | none => exact .throw trivial
  | some stream =>
    refine .ite (.pure _) ?_
    refine .ite (.bind (.modify fun _ => rfl) fun _ => .pure _) ?_
    refine .get_bind fun _ => ?_
    refine .ite (.bind (.modify fun _ => rfl) fun _ => .pure _) ?_
    exact .get_bind fun _ => keeps_pollSizedData _ _ _

theorem keeps_releaseStreamRecvWindow : Stays SameRecv (releaseStreamRecvWindow id size) := by
  refine .get_bind fun s => ?_
  cases s.streamMap.lookup id with
  | none => exact .pure _
  | some stream => exact .ite (.throw trivial) (keeps_onStream _ _ _)

/-- What a body gives is sent in DATA frames. -/
def DataOnly (state : DataReadState) : Prop :=
  ∀ frame, state = .ready frame ∨ state = .finish frame → ∃ data, frame.payload = .data data

theorem dataOnly_pollSizedData :
    Triple (fun _ => True) (pollSizedData id len read) (fun state _ => DataOnly state) (fun _ _ => True) := by
  refine .bind (Triple.any _) fun s => ?_
  cases s.streamMap.lookup id with
  | none => exact .throw fun _ _ => trivial
  | some stream =>
    dsimp only
    split
    · refine .pure fun s _ frame hframe => ⟨[], ?_⟩
      rcases hframe with hready | hfinish
      · cases hready
      · cases hfinish
        rfl
    · refine .bind (Triple.any _) fun _ => .bind (Triple.any _) fun _ => .pure ?_
      intro s _ frame hframe
      rcases hframe with hready | hfinish
      · cases hready
        exact ⟨_, rfl⟩
      · cases hfinish
    · exact .throw fun _ _ => trivial
    · exact .bind (Triple.any _) fun _ => .pure fun _ _ _ h => by rcases h with ⟨⟨⟩⟩ | ⟨⟨⟩⟩

theorem dataOnly_pollReadBody :
    Triple (fun _ => True) (pollReadBody id read) (fun state _ => DataOnly state) (fun _ _ => True) := by
  have hpending : DataOnly .pending := fun _ h => by rcases h with ⟨⟨⟩⟩ | ⟨⟨⟩⟩
  refine .bind (Triple.any _) fun s => ?_
  cases s.streamMap.lookup id with
  | none => exact .throw fun _ _ => trivial
  | some stream =>
    refine .ite (fun _ => .pure fun _ _ _ h => by rcases h with ⟨⟨⟩⟩ | ⟨⟨⟩⟩) fun _ => ?_
    refine .ite (fun _ => .bind (Triple.any _) fun _ => .pure fun _ _ => hpending) fun _ => ?_
    refine .bind (Triple.any _) fun s => ?_
    refine .ite (fun _ => .bind (Triple.any _) fun _ => .pure fun _ _ => hpending) fun _ => ?_
    exact .bind (Triple.any _) fun _ => dataOnly_pollSizedData id _ read

end Streams

/-! ### The manager -/

namespace ConnManager

structure SameAccount (m m' : ConnManager) : Prop where
  streams : m.controller.streams.SameRecv m'.controller.streams
  history : connIncrements m'.history = connIncrements m.history

instance : IsPreorder ConnManager SameAccount where
  refl m := ⟨refl m.controller.streams, rfl⟩
  trans _ _ _ h h' := ⟨IsTrans.trans _ _ _ h.streams h'.streams, h'.history.trans h.history⟩

/-- The account is the same, with the GOAWAY frame of the peer on record. -/
structure OnAccount (m m' : ConnManager) : Prop extends SameAccount m m' where
  code : Noted m m'

instance : IsPreorder ConnManager OnAccount where
  refl m := ⟨refl m, id⟩
  trans _ _ _ h h' := ⟨IsTrans.trans _ _ _ h.toSameAccount h'.toSameAccount, h'.code ∘ h.code⟩

theorem connIncrement_of_neutral {item : Item} (h : item.Neutral) : item.connIncrement = 0 := by
  cases item with
  | queued frame streams =>
    obtain ⟨id, flags, payload⟩ := frame
    cases payload <;> first | rfl | exact h.elim
  | received | requested | delivered => rfl

variable {m m' : ConnManager} {frame : Frame} {data : List UInt8}

theorem Quiet.sameAccount (h : Quiet m m') : SameAccount m m' := by
  obtain ⟨items, hitems, hneutral⟩ := h.history
  refine ⟨h.streams.sameRecv, ?_⟩
  have hzero : (items.map Item.connIncrement).sum = 0 := by
    rw [List.sum_eq_zero_iff]
    intro n hn
    obtain ⟨item, hitem, rfl⟩ := List.mem_map.mp hn
    exact connIncrement_of_neutral (hneutral item hitem)
  rw [connIncrements, hitems, List.map_append, List.sum_append, hzero, zero_add, connIncrements]

theorem keepsAccount_of_quiet {f : Method ConnManager Stop α} (h : Hushes f) : Stays OnAccount f :=
  h.mono (fun _ _ h => ⟨h.toQuiet.sameAccount, h.code⟩) fun _ _ => trivial

theorem keepsAccount_onStreams {f : Method Streams Stop α} (h : Stays Streams.SameRecv f) :
    Stays OnAccount (onStreams f) :=
  h.onField fun _ _ hs => ⟨⟨hs, rfl⟩, id⟩

theorem keepsAccount_log {item : Item} (h : item.connIncrement = 0) : Stays OnAccount (log item) := by
  refine .modify fun m => ⟨⟨refl m.controller.streams, ?_⟩, id⟩
  rw [connIncrements_cons, h, zero_add]

theorem keepsAccount_queue (h : connIncrement frame = 0) : Stays OnAccount (queue frame) := by
  refine .bind (keepsAccount_of_quiet overlooks_hushed.nextInput) fun _ => ?_
  exact .ite (.get_bind fun m => keepsAccount_log h) (.throw trivial)

/-- The account does not change while a connection is being ended. -/
theorem parting_onAccount (m₀ : ConnManager) : Parting (OnAccount m₀) fun _ m => True ∧ OnAccount m₀ m where
  marked _ _ h := ⟨⟨h.streams, h.history⟩, h.code⟩
  shut _ h := ⟨⟨h.streams, h.history⟩, h.code⟩
  queued _ := (keepsAccount_queue rfl).triple m₀
  failed _ _ h := ⟨trivial, h⟩

theorem keepsAccount_manageRespError (kind : DispatchErrorKind) : Stays OnAccount (manageRespError kind) := by
  refine .of_triple fun m₀ => triple_manageRespError (P := fun _ => OnAccount m₀) ?_ ?_ ?_ kind
  · exact fun id code => (keepsAccount_of_quiet (keeps_manageStreamError id code)).triple m₀
  · exact fun code m hm =>
      (parting_onAccount m₀).manageConnError ((keepsAccount_of_quiet (keeps_exit _)).triple m₀) hm (.inr hm)
  · exact fun kind => (keepsAccount_of_quiet (keeps_exit kind)).triple m₀

theorem keepsAccount_recvSettingsFrame {settings : List Setting} (hpayload : frame.payload = .settings settings) :
    Stays OnAccount (recvSettingsFrame frame settings) := by
  refine keeps_recvSettingsFrame settings ?_ ?_ ?_ ?_ (keepsAccount_queue ?_)
  · exact fun size => keepsAccount_onStreams (Streams.keeps_applyRecvInitialWindowSize size)
  · exact fun size => keepsAccount_onStreams (Streams.keeps_applySendInitialWindowSize size)
  · exact fun num => keepsAccount_onStreams (.modify fun _ => rfl)
  · exact fun m _ => ⟨⟨refl m.controller.streams, rfl⟩, id⟩
  · rw [connIncrement, hpayload]

theorem keepsAccount_recvWindowFrame (frame : Frame) (increment : UInt32) :
    Stays OnAccount (recvWindowFrame frame increment) := by
  refine .ite ?_ (keepsAccount_onStreams (Streams.keeps_reassignStreamSendWindow _ _))
  refine .bind (keepsAccount_onStreams (Streams.keeps_onSendWindow _)) fun _ => ?_
  exact keepsAccount_onStreams (.modify fun _ => rfl)

/-- Only DATA frames change the account. -/
theorem keepsAccount_pollRecvFrame (h : ∀ data, frame.payload ≠ .data data) :
    Stays OnAccount (pollRecvFrame frame) := by
  unfold pollRecvFrame
  split
  case h_1 hpayload => exact .bind (keepsAccount_recvSettingsFrame hpayload) fun _ => .pure _
  case h_2 => exact .bind (keepsAccount_of_quiet (keeps_recvPingFrame _ _)) fun _ => .pure _
  case h_3 => exact .throw trivial
  case h_4 => exact keepsAccount_of_quiet (keeps_recvGoAwayFrame _)
  case h_5 => exact keepsAccount_of_quiet (keeps_recvResetFrame _)
  case h_6 => exact keepsAccount_of_quiet (keeps_recvHeaderFrame _)
  case h_7 data hpayload => exact absurd hpayload (h data)
  case h_8 => exact .bind (keepsAccount_recvWindowFrame _ _) fun _ => .pure _
  case h_9 => exact .pure _

theorem keepsAccount_pollRecvMessage (h : ∀ data, frame.payload ≠ .data data) :
    Stays OnAccount (pollRecvMessage frame) := by
  intro m
  refine ends_pollRecvMessage (keepsAccount_pollRecvFrame h m) (fun _ h => h) (fun _ h => ⟨⟨h.streams, h.history⟩, h.code⟩) ?_
    fun _ _ h => h
  exact fun kind m' hm' => Keeps.after hm'.2 (keepsAccount_manageRespError kind)

theorem keepsAccount_acceptRequest (request : Request) : Stays OnAccount (acceptRequest request) := by
  refine .bind (keepsAccount_onStreams ?_) fun id => .get_bind fun m => ?_
  · refine .get_bind fun s => .ite ?_ (.throw trivial)
    exact .bind (.modify fun _ => rfl) fun _ => .pure _
  · have hrest : Stays OnAccount (do
        modifyController fun c => { c with senders := id :: c.senders }
        modifyStreams (Streams.insert id ⟨id, request.flag, request.parts⟩ ⟨true⟩)
        log (.requested id)) := by
      refine .bind (keepsAccount_of_quiet (keeps_modifyController (fun _ => rfl) (fun _ => rfl) fun _ h => h)) fun _ => ?_
      exact .bind (keepsAccount_onStreams (.modify fun _ => rfl)) fun _ => keepsAccount_log rfl
    exact .ite (.bind (keepsAccount_onStreams (.modify fun _ => rfl)) fun _ => hrest)
      (.bind (keepsAccount_onStreams (.modify fun _ => rfl)) fun _ => hrest)

theorem keepsAccount_pollSendFrame (h : frame.payload = .data data) : Stays OnAccount (pollSendFrame frame) := by
  have hqueue : Stays OnAccount (queue frame) := keepsAccount_queue (by rw [connIncrement, h])
  simp only [pollSendFrame, h]
  refine .bind (keepsAccount_of_quiet (keeps_onStreams (Streams.keeps_transition _ _))) fun sent => ?_
  cases sent with
  | err e => exact .throw trivial
  | ok | ignore => exact hqueue

theorem keepsAccount_inputData (id : StreamId) (read : BodyRead) : Stays OnAccount (inputData id read) := by
  intro m
  have hread : (onStreams (Streams.pollReadBody id read) m).Ends (fun state m' => Streams.DataOnly state ∧ OnAccount m m')
      fun _ m' => True ∧ OnAccount m m' := by
    have hkeeps := keepsAccount_onStreams (Streams.keeps_pollReadBody id read) m
    have hdata : Triple (fun _ => True) (onStreams (Streams.pollReadBody id read))
        (fun state _ => Streams.DataOnly state) (fun _ _ => True) :=
      Triple.onField_value (Streams.dataOnly_pollReadBody id read)
    have hvalue := hdata m trivial
    generalize onStreams (Streams.pollReadBody id read) m = out at hkeeps hvalue
    cases hkeeps with
    | ok h => exact .ok ⟨hvalue.of_ok rfl, h⟩
    | err h => exact .err h
    | panic => exact .panic
  refine ends_inputData hread (fun _ h => h.2) (fun _ h => h.2) ?_ ?_ ?_ fun _ _ h _ => h
  · rintro frame m' ⟨hdata, h⟩
    obtain ⟨data, hpayload⟩ := hdata frame (.inl rfl)
    exact Keeps.after h (keepsAccount_pollSendFrame hpayload)
  · rintro frame m' ⟨hdata, h⟩
    obtain ⟨data, hpayload⟩ := hdata frame (.inr rfl)
    exact Keeps.after h (keepsAccount_pollSendFrame hpayload)
  · exact fun id code m' h => Keeps.after h.2 (keepsAccount_of_quiet (keeps_manageStreamError id code))

theorem serves_onAccount (m₀ : ConnManager) : Serves (fun _ => OnAccount m₀) (fun _ _ => OnAccount m₀)
    (fun _ _ => OnAccount m₀) (fun _ m => True ∧ OnAccount m₀ m) :=
  .const ((keepsAccount_of_quiet (keeps_onStreams Streams.keeps_nextPendingStream)).triple m₀)
    (fun id => (keepsAccount_of_quiet (keeps_inputHeaders id)).triple m₀)
    fun id read => (keepsAccount_inputData id read).triple m₀

theorem keepsAccount_managePendingState (requests : List Request) (closed : Bool)
    (bodies : List (List BodyRead)) : Stays OnAccount (managePendingState requests closed bodies) := by
  refine .get_bind fun m => ?_
  cases m.controller.goAwayErrorCode with
  | some errorCode => exact .of_triple fun m₀ => (parting_onAccount m₀).pollDealWithGoAway (fun _ h => h) errorCode
  | none =>
    refine .bind (.of_triple fun m₀ => ?_) fun _ => ?_
    · refine triple_pollRecvRequest (fun request m hm => ?_) ?_ requests
      · refine ((keepsAccount_acceptRequest request).triple m₀ m hm).mono (fun _ _ h => h) (fun stop _ h => ?_)
        cases stop with
        | error e => exact h.2
        | overflow counter => exact h
      · exact fun _ _ h => ⟨trivial, h⟩
    · refine .bind (keepsAccount_of_quiet (keeps_modifyStreams fun s => ?_)) fun _ => ?_
      · exact Streams.sameWindows_consumePending _ s
      · exact .get_bind fun _ => .of_triple fun m₀ => (serves_onAccount m₀).inputStreams _ bodies

theorem keepsAccount_pollBlockedFrames : Stays OnAccount pollBlockedFrames := by
  refine .bind (keepsAccount_of_quiet keeps_pollBlockedMessage) fun poll => ?_
  cases poll with
  | ready _ => exact .get_bind fun _ => .bind (keepsAccount_of_quiet (keeps_goTo _ _)) fun _ => .pure _
  | pending => exact .pure _

/-- The event brings no DATA frame. -/
def Event.NoData : Event → Prop
  | .message (.output frame) => ∀ data, frame.payload ≠ .data data
  | _ => True

/-- A turn without a DATA frame keeps the account. -/
theorem keepsAccount_turn {event : Event} (h : event.NoData) : Stays OnAccount (turn event) := by
  cases event with
  | message message =>
    cases message with
    | output frame =>
      refine .bind (keepsAccount_log rfl) fun _ => ?_
      refine .bind (keepsAccount_pollRecvMessage h) fun _ => .pure _
    | outputExit e =>
      refine .get_bind fun m => .ite ?_ (.pure _)
      exact .bind (keepsAccount_manageRespError e) fun _ => .pure _
  | closed => exact .bind (keepsAccount_of_quiet (keeps_exit _)) fun _ => .pure _
  | pending requests closed bodies => exact keepsAccount_managePendingState requests closed bodies
  | blocked => exact .bind keepsAccount_pollBlockedFrames fun _ => .pure _
  | settings settings => exact .modify fun m => ⟨⟨refl m.controller.streams, rfl⟩, id⟩

/-! ### DATA frames -/

def visible (m : ConnManager) : Int := m.controller.streams.visible

/-- The window on record without what has been added to it. -/
def account (m : ConnManager) : Int := m.visible - connIncrements m.history

theorem SameAccount.account_eq (h : SameAccount m m') : m'.account = m.account := by
  have hwindow : m'.controller.streams.visible = m.controller.streams.visible := by
    rw [Streams.visible, h.streams, Streams.visible]
  rw [account, account, visible, visible, hwindow, h.history]

/-- A WINDOW_UPDATE frame is due after `size` bytes, and the channel to the writing task is closed. -/
def Refused (m : ConnManager) (size : Nat) : Prop :=
  m.visible - size < (m.controller.streams.flowControl.recvWindow.actual - (m.visible - size)) * 2 ∧
    m.answers.input.head? = some false

instance (m : ConnManager) (size : Nat) : Decidable (Refused m size) := inferInstanceAs (Decidable (_ ∧ _))

/-- The `size` bytes of a DATA frame have been taken off. A WINDOW_UPDATE frame that is refused stays
on the record. -/
structure Charged (m : ConnManager) (size : Nat) (m' : ConnManager) : Prop where
  sent : ¬ Refused m size → m'.account = m.account - size
  refused : Refused m size → m.account - size < m'.account

theorem Charged.of_sameAccount {m'' : ConnManager} {size : Nat} (hsame : SameAccount m' m'')
    (h : Charged m size m') : Charged m size m'' := by
  constructor
  · exact fun hsent => hsame.account_eq.trans (h.sent hsent)
  · intro hrefused
    rw [hsame.account_eq]
    exact h.refused hrefused

theorem connIncrement_windowUpdate {n : Nat} (h : n < 2 ^ 31) : connIncrement (RecvWindow.windowUpdate 0 n) = n := by
  change (UInt32.ofNat n).toNat = n
  rw [UInt32.toNat_ofNat_of_lt']
  exact lt_trans h (by decide)

/-- The channel to the writing task takes a frame or refuses it. -/
theorem ends_queue (frame : Frame) (m : ConnManager) : (queue frame m).Ends
      (fun _ m' => m'.controller = m.controller ∧ m.answers.input.head? ≠ some false ∧
        m'.history = .queued frame m.controller.streams :: m.history)
      (fun _ m' => m'.controller = m.controller ∧ m.answers.input.head? = some false ∧ m'.history = m.history) := by
  simp only [queue, nextInput, bind_apply, get_apply, bind_ok]
  cases m.answers.input with
  | nil => exact .ok ⟨rfl, by simp, rfl⟩
  | cons answer rest =>
    cases answer with
    | true => exact .ok ⟨rfl, by simp, rfl⟩
    | false => exact .err ⟨rfl, rfl, rfl⟩

/-- The window of the connection is charged with `size` bytes. -/
theorem ends_releaseConn {size : Nat} (hsize : size < 2 ^ 31) (hle : size ≤ m.visible) :
    ((onStreams (Streams.releaseConnRecvWindow size) >>= queueUpdate) m).Ends
      (fun _ m' => Charged m size m') fun stop m' => (∃ e, stop = .error e) → Charged m size m' := by
  simp only [bind_apply, onStreams, onField]
  cases hcall : Streams.releaseConnRecvWindow size m.controller.streams with
  | panic => exact .panic
  | err stop s =>
    refine .err ?_
    rintro ⟨e, rfl⟩
    cases Streams.releaseConnRecvWindow_err hsize hle hcall
  | ok update s =>
    rcases Streams.releaseConnRecvWindow_ok hsize hle hcall with
      ⟨hnot, rfl, hvisible⟩ | ⟨n, hdue, rfl, hn, hn', hvisible⟩
    · refine .ok ⟨fun _ => ?_, fun hrefused => absurd hrefused.1 hnot⟩
      change s.visible - connIncrements m.history = m.visible - connIncrements m.history - size
      rw [hvisible]
      exact sub_right_comm _ _ _
    · refine (ends_queue _ _).mono ?_ ?_
      · rintro _ m' ⟨hcontroller, hopen, hhistory⟩
        refine ⟨fun _ => ?_, fun hrefused => absurd hrefused.2 hopen⟩
        rw [account, visible, hcontroller, hhistory, connIncrements_cons, Item.connIncrement,
          connIncrement_windowUpdate hn', account, visible]
        change s.visible - ((n + connIncrements m.history : Nat) : Int) = _
        omega
      · rintro stop m' ⟨hcontroller, hclosed, hhistory⟩ -
        refine ⟨fun hsent => absurd ⟨hdue, hclosed⟩ hsent, fun _ => ?_⟩
        rw [account, account, visible, visible, hcontroller, hhistory]
        change _ < s.visible - (connIncrements m.history : Int)
        omega

theorem keepsAccount_releaseStream {id : StreamId} (hid : id ≠ 0) (size : Nat) :
    Stays OnAccount (onStreams (Streams.releaseStreamRecvWindow id size) >>= queueUpdate) := by
  refine .bind_value (keepsAccount_onStreams (Streams.keeps_releaseStreamRecvWindow id size))
    (Triple.onField_value (Streams.releaseStreamRecvWindow_value id size)) fun update hupdate => ?_
  cases update with
  | none => exact .pure _
  | some frame =>
    obtain ⟨n, rfl⟩ := hupdate frame rfl
    exact keepsAccount_queue (if_neg hid)

theorem ends_recvDataFrame (hid : frame.id ≠ 0) (hsize : data.length < 2 ^ 31) (hle : data.length ≤ m.visible) :
    (recvDataFrame frame data m).Ends (fun _ => Charged m data.length)
      fun stop m' => (∃ e, stop = .error e) → Charged m data.length m' := by
  have hcharged : ∀ {α : Type} {f : Method ConnManager Stop α} {mid : ConnManager}, Stays OnAccount f →
      Charged m data.length mid → (f mid).Ends (fun _ => Charged m data.length)
        fun stop m' => (∃ e, stop = .error e) → Charged m data.length m' := by
    intro α f mid hf hmid
    exact (hf mid).mono (fun _ _ hsame => hmid.of_sameAccount hsame.toSameAccount)
      fun _ _ hsame _ => hmid.of_sameAccount hsame.2.toSameAccount
  have hupdate : (updateWindow frame.id data.length m).Ends (fun _ => Charged m data.length)
      fun stop m' => (∃ e, stop = .error e) → Charged m data.length m' := by
    have hends := (ends_releaseConn hsize hle).bind fun _ _ => hcharged (keepsAccount_releaseStream hid data.length)
    rwa [bind_apply, Outcome.bind_bind] at hends
  refine hupdate.bind fun _ _ => hcharged ?_
  refine .bind (keepsAccount_of_quiet (keeps_onStreams (Streams.keeps_recvData _ _))) fun _ => ?_
  exact keepsAccount_of_quiet (keeps_forwardIf _ _)

/-- A turn with a DATA frame of a stream. -/
theorem turn_data (hpayload : frame.payload = .data data)
    (hid : frame.id ≠ 0) (hsize : data.length < 2 ^ 31) (hle : data.length ≤ m.visible)
    (h : turn (.message (.output frame)) m = .ok () m') : Charged m data.length m' := by
  let mid : ConnManager := { m with history := .received frame :: m.history }
  have hframe : (pollRecvFrame frame mid).Ends (fun _ => Charged mid data.length)
      fun stop m' => (∃ e, stop = .error e) → Charged mid data.length m' := by
    simp only [pollRecvFrame, hpayload]
    exact ends_recvDataFrame hid hsize hle
  have hmessage : (pollRecvMessage frame mid).Ends (fun _ => Charged mid data.length) fun _ _ => True := by
    refine ends_pollRecvMessage hframe (fun _ h => h) (fun m' h => h.of_sameAccount ⟨refl m'.controller.streams, rfl⟩) ?_
      fun _ _ _ => trivial
    exact fun kind m' h => (keepsAccount_manageRespError kind m').mono
      (fun _ _ hsame => (h ⟨kind, rfl⟩).of_sameAccount hsame.toSameAccount) fun _ _ _ => trivial
  have hturn : turn (.message (.output frame)) m = (pollRecvMessage frame mid).bind fun _ m' => .ok () m' := rfl
  obtain ⟨poll, m'', hcall, hm'⟩ := bind_eq_ok.mp (hturn ▸ h)
  obtain ⟨-, rfl⟩ := ok.inj hm'
  have hcharged := hmessage.of_ok hcall
  have haccount : mid.account = m.account := by
    change m.visible - (connIncrements (_ :: m.history) : Int) = m.visible - connIncrements m.history
    change m.visible - ((0 + connIncrements m.history : Nat) : Int) = _
    rw [zero_add]
  exact ⟨fun hsent => haccount ▸ hcharged.sent hsent, fun hrefused => haccount ▸ hcharged.refused hrefused⟩

end ConnManager

end YlongHttp.Client.H2
