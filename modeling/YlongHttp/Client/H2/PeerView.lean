/-
DATA frames of a peer that respects flow control.

The peer takes the whole payload of a DATA frame off its window, with the pad length and the
padding; the client takes off the data that the decoder leaves of it. `Session` is a connection
with the number of bytes the peer has taken off. The two views stay the same exactly as long as
no DATA frame has the PADDED flag and the writing task takes each WINDOW_UPDATE frame that is due
(`agrees_iff_unpadded`).
-/

import YlongHttp.Client.H2.RecvAccount

namespace YlongHttp.Client.H2

open YlongHttp.H2 YlongHttp.H2.FrameDecoder Rust

/-! ### DATA frames on the wire -/

/-- A DATA frame of a stream, whose padding is shorter than its payload. -/
structure DataFrame where
  header : FrameHeader
  payload : List UInt8
  isData : header.frameType = 0
  framed : Framed (header, payload)
  stream : header.streamId ≠ 0
  padding : header.isPadded = true → (payload.headD 0).toNat < payload.length

namespace DataFrame

variable (f : DataFrame)

/-- What the decoder leaves of the payload. -/
def data : List UInt8 :=
  if f.header.isPadded then f.payload.tail.take (f.payload.tail.length - (f.payload.headD 0).toNat)
  else f.payload

def frame : Frame := ⟨f.header.streamId, ⟨f.header.flags⟩, .data f.data⟩

theorem length_data : f.data.length + (if f.header.isPadded then (f.payload.headD 0).toNat + 1 else 0) =
    f.payload.length := by
  have hpadding := f.padding
  rw [data]
  cases hpadded : f.header.isPadded with
  | false => rfl
  | true =>
    have hlt := hpadding hpadded
    simp only [if_true, List.length_take, List.length_tail]
    omega

/-- The client takes off as much as the peer exactly if there is no padding. -/
theorem length_data_eq_iff : f.data.length = f.payload.length ↔ f.header.isPadded = false := by
  have hlength := f.length_data
  cases hpadded : f.header.isPadded with
  | false => simpa [hpadded] using hlength
  | true =>
    simp only [hpadded, if_true] at hlength
    constructor
    · intro heq
      omega
    · rintro ⟨⟩

theorem length_data_le : f.data.length ≤ f.payload.length :=
  f.length_data ▸ Nat.le_add_right _ _

end DataFrame

/-! ### Sessions -/

open ConnManager

/-- What the manager meets in a turn: a DATA frame, or anything else. -/
inductive Arrival where
  | data (frame : DataFrame) (answers : Answers)
  | other (event : Event) (noData : event.NoData) (answers : Answers)

namespace Arrival

def event : Arrival → Event
  | data f _ => .message (.output f.frame)
  | other event _ _ => event

def answers : Arrival → Answers
  | data _ answers => answers
  | other _ _ answers => answers

/-- The bytes that the peer takes off its window. -/
def length : Arrival → Nat
  | data f _ => f.payload.length
  | other _ _ _ => 0

def Unpadded : Arrival → Prop
  | data f _ => f.header.isPadded = false
  | other _ _ _ => True

/-- The writing task takes the WINDOW_UPDATE frame that is due for the connection, if one is. -/
def Accepted (m : ConnManager) : Arrival → Prop
  | data f answers => ¬ Refused { m with answers } f.data.length
  | other _ _ _ => True

instance : DecidablePred Unpadded
  | data f _ => inferInstanceAs (Decidable (f.header.isPadded = false))
  | other _ _ _ => isTrue trivial

instance (m : ConnManager) : DecidablePred (Accepted m)
  | data f answers => inferInstanceAs (Decidable (¬ Refused { m with answers } f.data.length))
  | other _ _ _ => isTrue trivial

end Arrival

/-- A connection, and the bytes of the DATA payloads it has received. -/
structure Session where
  manager : ConnManager
  received : Nat

namespace Session

/-- A turn after which the manager goes on. -/
def advance (s : Session) (arrival : Arrival) : Option Session :=
  match step s.manager arrival.event arrival.answers with
  | some (.ok _ manager) => some ⟨manager, s.received + arrival.length⟩
  | _ => none

/-- The window of the connection as the peer computes it. -/
def peerWindow (s : Session) : Int := 65535 + connIncrements s.manager.history - s.received

def Agrees (s : Session) : Prop := s.manager.visible = s.peerWindow

/-- The DATA frames fit into the window of the peer. -/
def Respects : List Arrival → Session → Prop :=
  Along advance fun s arrival => arrival.length ≤ s.peerWindow

instance (arrivals : List Arrival) : DecidablePred (Respects arrivals) := fun s => inferInstanceAs (Decidable (Along advance _ arrivals s))

theorem agrees_iff_account {s : Session} : s.Agrees ↔ s.manager.account = 65535 - s.received := by
  rw [Agrees, peerWindow, account]
  constructor
  · intro h
    omega
  · intro h
    omega

/-- An arrival keeps the view of the peer exactly if it is not padded and nothing is refused. -/
theorem advance_agrees_iff {s s' : Session} {arrival : Arrival} (hs : s.Agrees) (hfits : arrival.length ≤ s.peerWindow)
    (h : s.advance arrival = some s') : s'.Agrees ↔ arrival.Unpadded ∧ arrival.Accepted s.manager := by
  rw [advance, ConnManager.step] at h
  split at h
  next manager hturn =>
      cases h
      split at hturn
      · have hturn := Option.some.inj hturn
        have hvisible : s.manager.visible = s.peerWindow := hs
        rw [agrees_iff_account] at hs ⊢
        cases arrival with
        | other event noData answers =>
          have haccount := ((keepsAccount_turn noData).of_ok hturn).account_eq
          refine ⟨fun _ => ⟨trivial, trivial⟩, fun _ => ?_⟩
          exact haccount.trans hs
        | data f answers =>
          have hlength := f.length_data_le
          have hsmall : f.payload.length < 2 ^ 24 := f.framed.length ▸ f.framed.small
          have hle : f.data.length ≤ s.manager.visible := by
            have hpayload : f.payload.length ≤ s.peerWindow := hfits
            omega
          have hcharged : Charged { s.manager with answers } f.data.length manager :=
            turn_data rfl f.stream (by omega) hle hturn
          have haccount : ({ s.manager with answers } : ConnManager).account = 65535 - s.received := hs
          change manager.account = 65535 - ((s.received + f.payload.length : Nat) : Int) ↔
            f.header.isPadded = false ∧ ¬ Refused { s.manager with answers } f.data.length
          rw [← f.length_data_eq_iff]
          by_cases hrefused : Refused { s.manager with answers } f.data.length
          · -- the record is ahead, and padding only adds to that
            have hahead := hcharged.refused hrefused
            constructor
            · intro heq
              omega
            · rintro ⟨-, haccepted⟩
              exact absurd hrefused haccepted
          · have hsent := hcharged.sent hrefused
            constructor
            · intro heq
              exact ⟨by omega, hrefused⟩
            · rintro ⟨hunpadded, -⟩
              omega
      · cases hturn
  next => cases h

/-- The setup of the windows changes only what the client wants the peer to see. -/
theorem visible_start {config : H2Config} {streams : Streams} (h : Streams.start config = .ok () streams) :
    streams.visible = 65535 := by
  have hkeeps : Keeps (fun flow flow' : FlowControl => flow'.recvWindow.notification = flow.recvWindow.notification)
      (fun _ => True) (FlowControl.setupRecvWindow config.connWindowSize) := by
    intro flow
    simp only [FlowControl.setupRecvWindow, Method.get_bind]
    split
    all_goals
      simp only [FlowControl.onRecvWindow, RecvWindow.increaseActual, RecvWindow.reduceActual, Method.onField,
        Method.get_bind, i32]
      split
      · exact .ok rfl
      · exact .err ⟨trivial, rfl⟩
  rw [Streams.start] at h
  have hends := hkeeps (.new defaultWindowSize defaultWindowSize)
  generalize FlowControl.setupRecvWindow config.connWindowSize _ = out at h hends
  cases hends with
  | ok hnotification =>
    cases h
    exact hnotification
  | err | panic => cases h

/-- A new connection has the window that the peer starts with. -/
theorem account_launch {config : H2Config} {m : ConnManager} (h : launch config = .ok () m) : m.account = 65535 := by
  obtain ⟨streams, hstart, hinitial⟩ := launch_cases h
  have hvisible := visible_start hstart
  -- the SETTINGS frame is queued, and then the window is checked
  let mid : ConnManager := { ConnManager.new streams with history := [.queued (createInitialSettings config) streams] }
  have hpos : ((0 : Nat) : Int) ≤ mid.visible := by
    change ((0 : Nat) : Int) ≤ streams.visible
    omega
  have hends := ends_releaseConn (by decide) hpos
  have hsent := (hends.of_ok hinitial).sent fun hrefused => by cases hrefused.2
  have haccount : mid.account = streams.visible - ((0 : Nat) : Int) := rfl
  omega

/-- The window on record is the one that the peer computes at every point of a session exactly if
no DATA frame is padded and no WINDOW_UPDATE frame that is due is refused by the writing task. -/
theorem agrees_iff_unpadded {config : H2Config} {m : ConnManager} (hlaunch : launch config = .ok () m)
    {arrivals : List Arrival} {last : Session} (hrun : run advance arrivals ⟨m, 0⟩ = some last)
    (hrespects : Respects arrivals ⟨m, 0⟩) :
    (∀ received s, received <+: arrivals → run advance received ⟨m, 0⟩ = some s → s.manager.visible = s.peerWindow) ↔
      Along advance (fun s arrival => arrival.Unpadded ∧ arrival.Accepted s.manager) arrivals ⟨m, 0⟩ := by
  have hagrees : Agrees ⟨m, 0⟩ := by
    rw [agrees_iff_account]
    exact account_launch hlaunch
  exact points_iff advance_agrees_iff hagrees hrun hrespects

/-- A request, and a response to it with one DATA frame. -/
def exchange (f : DataFrame) : List Arrival :=
  [.other (.pending [⟨⟨0x5⟩, .new⟩] false [[]]) trivial ⟨[], []⟩,
    .other (.message (.output ⟨1, ⟨0x4⟩, .headers .new⟩)) nofun ⟨[], []⟩,
    .data f ⟨[], []⟩]

/-- Two bytes of data without padding. -/
def plainFrame : DataFrame :=
  ⟨⟨1, 0, 0, 2⟩, [7, 8], rfl, ⟨rfl, by decide, by decide⟩, by decide, by decide⟩

theorem agrees_plainFrame : ∃ m last, launch default = .ok () m ∧ run advance (exchange plainFrame) ⟨m, 0⟩ = some last ∧
    ∀ received s, received <+: exchange plainFrame → run advance received ⟨m, 0⟩ = some s →
      s.manager.visible = s.peerWindow := by
  obtain ⟨m, hlaunch, hrespects, hsome, halong⟩ : ∃ m, launch default = .ok () m ∧
      Respects (exchange plainFrame) ⟨m, 0⟩ ∧ (run advance (exchange plainFrame) ⟨m, 0⟩).isSome ∧
      Along advance (fun s arrival => arrival.Unpadded ∧ arrival.Accepted s.manager) (exchange plainFrame) ⟨m, 0⟩ :=
    ⟨_, rfl, by decide +kernel, by decide +kernel, by decide +kernel⟩
  obtain ⟨last, hrun⟩ := Option.isSome_iff_exists.mp hsome
  exact ⟨m, last, hlaunch, hrun, (agrees_iff_unpadded hlaunch hrun hrespects).mpr halong⟩

/-- One byte of data with two bytes of padding. -/
def paddedFrame : DataFrame :=
  ⟨⟨1, 8, 0, 4⟩, [2, 7, 0, 0], rfl, ⟨rfl, by decide, by decide⟩, by decide, by decide⟩

/-- The pad length and the padding stay on the record. -/
theorem visible_paddedFrame : ∃ m, launch default = .ok () m ∧ Respects (exchange paddedFrame) ⟨m, 0⟩ ∧
    (run advance (exchange paddedFrame) ⟨m, 0⟩).map (fun s => (s.manager.visible, s.peerWindow)) =
      some (10485759, 10485756) :=
  ⟨_, rfl, by decide +kernel, by decide +kernel⟩

end Session

end YlongHttp.Client.H2
