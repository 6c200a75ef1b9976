/-
The receive window of a connection.

The client wants the peer to see the window that is configured. `checkWindowUpdate` compares
twice the missing part with what the peer sees, and the product does not fit into an `i32` if
half of the range is missing. That is so right after the setup if the configured window is
larger than 2^30 + 65534, and never later: a window that is not restored misses a third at most
(`Settled`), and a DATA frame has less than 2^24 bytes (`restores_iff`).
-/

import YlongHttp.Client.H2.Manager

namespace YlongHttp.Client.H2

open YlongHttp.H2 Rust Method Outcome

/-! ### One window -/

variable {update : Option Frame}

namespace RecvWindow

variable {w : RecvWindow}

theorem recvData_eq {size : Nat} (hsize : size < 2 ^ 31) : recvData size w =
      if InI32 (w.notification - size) then .ok () { w with notification := w.notification - size }
      else .err (.overflow .recvWindow) w := by
  simp only [recvData, bind_apply, get_apply, bind_ok, asI32_of_lt hsize]
  split
  next hin => rw [i32_eq_ok hin, bind_ok, modify_apply]
  next hin => rw [i32_eq_err hin, bind_err]

/-- The window is restored if more than half of what the peer sees is missing. -/
theorem checkWindowUpdate_eq (id : StreamId) (h : 0 ≤ w.notification) (hsmall : w.actual < 2 ^ 31)
    (hmissing : w.actual - w.notification < 2 ^ 30) (hlow : -2 ^ 31 ≤ w.actual - w.notification) :
    checkWindowUpdate id w = if w.notification < (w.actual - w.notification) * 2 then
        .ok (some (windowUpdate id (w.actual - w.notification).toNat)) { w with notification := w.actual }
      else .ok none w := by
  have hin : InI32 (w.actual - w.notification) := ⟨hlow, by omega⟩
  simp only [checkWindowUpdate, unreleasedSize, bind_apply, get_apply, bind_ok, i32_eq_ok hin]
  by_cases hpos : w.actual - w.notification ≤ 0
  · rw [if_neg (by omega : ¬ w.notification < (w.actual - w.notification) * 2), if_pos hpos]
    rfl
  · have htwice : InI32 ((w.actual - w.notification) * 2) := ⟨by omega, by omega⟩
    rw [if_neg hpos]
    simp only [bind_apply, pure_apply, bind_ok, i32_eq_ok htwice]
    split_ifs
    · have hsize : asU32 (w.actual - w.notification) = (w.actual - w.notification).toNat :=
        asU32_of_nonneg (by omega)
      have hcast : asI32 (w.actual - w.notification).toNat = w.actual - w.notification := by
        rw [asI32_of_lt (by omega)]
        omega
      have hfull : w.notification + (w.actual - w.notification) = w.actual := by omega
      have hactual : InI32 w.actual := ⟨by omega, by omega⟩
      rw [hsize]
      simp only [increaseNotification, bind_apply, get_apply, bind_ok, hcast, hfull,
        i32_eq_ok hactual, modify_apply, pure_apply]
    · rfl

/-- Twice the missing part does not fit. -/
theorem checkWindowUpdate_overflow (id : StreamId) (hmissing : 2 ^ 30 ≤ w.actual - w.notification)
    (hhigh : w.actual - w.notification < 2 ^ 31) : checkWindowUpdate id w = .err (.overflow .recvWindow) w := by
  have hin : InI32 (w.actual - w.notification) := ⟨by omega, hhigh⟩
  have htwice : ¬ InI32 ((w.actual - w.notification) * 2) := fun h => by
    have hlt := h.2
    omega
  simp only [checkWindowUpdate, unreleasedSize, bind_apply, get_apply, bind_ok, i32_eq_ok hin]
  rw [if_neg (by omega)]
  simp only [bind_apply, i32_eq_err htwice, bind_err]

/-- What a check that returns has done. -/
theorem checkWindowUpdate_ok {id : StreamId} {w' : RecvWindow} (hpos : 0 ≤ w.notification)
    (h : checkWindowUpdate id w = .ok update w') :
    (¬ w.notification < (w.actual - w.notification) * 2 ∧ update = none ∧ w' = w) ∨
      ∃ n : Nat, w.notification < (w.actual - w.notification) * 2 ∧ update = some (windowUpdate id n) ∧
        0 < n ∧ n < 2 ^ 31 ∧ w' = { w with notification := w.notification + n } := by
  simp only [checkWindowUpdate, unreleasedSize, bind_apply, get_apply, bind_ok] at h
  by_cases hin : InI32 (w.actual - w.notification)
  · rw [i32_eq_ok hin, bind_ok] at h
    by_cases hnone : w.actual - w.notification ≤ 0
    · rw [if_pos hnone] at h
      cases h
      exact .inl ⟨by omega, rfl, rfl⟩
    · rw [if_neg hnone, bind_apply] at h
      by_cases htwice : InI32 ((w.actual - w.notification) * 2)
      · rw [i32_eq_ok htwice, bind_ok] at h
        by_cases hhalf : w.notification < (w.actual - w.notification) * 2
        · have hhigh := hin.2
          have hsize : asU32 (w.actual - w.notification) = (w.actual - w.notification).toNat :=
            asU32_of_nonneg (by omega)
          have hcast : asI32 (w.actual - w.notification).toNat = (w.actual - w.notification).toNat :=
            asI32_of_lt (by omega)
          rw [if_pos hhalf, hsize] at h
          simp only [pure_apply, bind_ok, increaseNotification, bind_apply, get_apply, hcast] at h
          by_cases hsum : InI32 (w.notification + (w.actual - w.notification).toNat)
          · rw [i32_eq_ok hsum] at h
            cases h
            exact .inr ⟨_, hhalf, rfl, by omega, by omega, rfl⟩
          · rw [i32_eq_err hsum] at h
            cases h
        · rw [if_neg hhalf] at h
          cases h
          exact .inl ⟨hhalf, rfl, rfl⟩
      · rw [i32_eq_err htwice] at h
        cases h
  · rw [i32_eq_err hin] at h
    cases h

/-! ### Errors -/

/-- The methods of a window fail only if an operation overflows. -/
def Overflows (stop : Stop) : Prop := stop = .overflow .recvWindow

theorem keeps_operation (n : Int) :
    Keeps (Unrelated : RecvWindow → RecvWindow → Prop) Overflows (i32 (.overflow .recvWindow) n) :=
  keeps_i32 (E := Overflows) rfl n

theorem keeps_unreleasedSize : Keeps Unrelated Overflows unreleasedSize := by
  refine .get_bind fun w => .bind (keeps_operation _) fun unreleased => ?_
  exact .ite (.pure _) (.bind (keeps_operation _) fun _ => .pure _)

theorem keeps_increaseActual (size : Nat) : Keeps Unrelated Overflows (increaseActual size) :=
  .get_bind fun _ => .bind (keeps_operation _) fun _ => .modify fun _ => trivial

theorem keeps_reduceNotification (size : Nat) : Keeps Unrelated Overflows (reduceNotification size) :=
  .get_bind fun _ => .bind (keeps_operation _) fun _ => .modify fun _ => trivial

theorem keeps_increaseNotification (size : Nat) : Keeps Unrelated Overflows (increaseNotification size) :=
  .get_bind fun _ => .bind (keeps_operation _) fun _ => .modify fun _ => trivial

theorem keeps_recvData (size : Nat) : Keeps Unrelated Overflows (recvData size) :=
  .get_bind fun _ => .bind (keeps_operation _) fun _ => .modify fun _ => trivial

theorem keeps_checkWindowUpdate (id : StreamId) : Keeps Unrelated Overflows (checkWindowUpdate id) := by
  refine .bind keeps_unreleasedSize fun unreleased => ?_
  cases unreleased with
  | none => exact .pure _
  | some size => exact .bind (keeps_increaseNotification size) fun _ => .pure _

/-- What a check sends is a WINDOW_UPDATE frame. -/
theorem checkWindowUpdate_value (id : StreamId) : Triple (fun _ => True) (checkWindowUpdate id)
      (fun update _ => ∀ frame ∈ update, ∃ n, frame = windowUpdate id n) (fun _ _ => True) := by
  refine .bind (Triple.any _) fun unreleased => ?_
  cases unreleased with
  | none => exact .pure (by simp)
  | some size =>
    refine .bind (Triple.any _) fun _ => .pure ?_
    rintro w - frame ⟨⟩
    exact ⟨size, rfl⟩

end RecvWindow

/-! ### What is not about receive windows -/

def FlowControl.SameSend (flow flow' : FlowControl) : Prop := flow'.sendWindow = flow.sendWindow

instance : IsPreorder FlowControl FlowControl.SameSend where
  refl _ := rfl
  trans _ _ _ h h' := Eq.trans h' h

namespace Streams

/-- A method that goes on with the stream it finds. -/
theorem keeps_lookup {R : Streams → Streams → Prop} {E : Stop → Prop} {α : Type} {id : StreamId}
    {none : Method Streams Stop α} {some : Stream → Method Streams Stop α} (hnone : Keeps R E none)
    (hsome : ∀ s stream, s.streamMap.lookup id = .some stream →
      (some stream s).Ends (fun _ => R s) (fun e s' => E e ∧ R s s')) :
    Keeps R E (do
      match (← get).streamMap.lookup id with
      | .none => none
      | .some stream => some stream) := by
  intro s
  simp only [get_bind]
  cases hlookup : s.streamMap.lookup id with
  | none => exact hnone s
  | some stream => exact hsome s stream hlookup

/-- What `R` says about all streams follows from what `RS` says about the one that is changed, neither is about a
receive window, and the methods of a receive window may fail. -/
structure RecvFree (RS : Stream → Stream → Prop) (R : Streams → Streams → Prop) (E : Stop → Prop) : Prop where
  lift : ∀ {s : Streams} {id : StreamId} {stream stream' : Stream}, s.streamMap.lookup id = some stream →
    RS stream stream' → R s (s.setStream id stream')
  stream : ∀ (stream : Stream) (w : RecvWindow), RS stream { stream with recvWindow := w }
  conn : ∀ {s : Streams} {flow : FlowControl}, s.flowControl.SameSend flow → R s { s with flowControl := flow }
  initial : ∀ (s : Streams) (size : Nat), R s { s with streamRecvWindowSize := size }
  overflow : E (.overflow .recvWindow)
  connection : ∀ code, E (.connection code)

namespace RecvFree

variable {RS : Stream → Stream → Prop} {R : Streams → Streams → Prop} {E : Stop → Prop} {α : Type}
  {id : StreamId} (h : RecvFree RS R E)

include h

theorem ends_onStream {s : Streams} {stream : Stream} {m : Method Stream Stop α} (hm : Keeps RS E m)
    (hlookup : s.streamMap.lookup id = some stream) :
    (onStream id stream m s).Ends (fun _ => R s) fun stop s' => E stop ∧ R s s' :=
  (hm stream).mapState (fun _ _ hs => h.lift hlookup hs) fun _ _ hs => ⟨hs.1, h.lift hlookup hs.2⟩

variable {m : Method RecvWindow Stop α}

theorem keeps_overflow (hm : Keeps Unrelated RecvWindow.Overflows m) : Keeps Unrelated E m := by
  refine hm.mono (fun _ _ hs => hs) ?_
  rintro stop rfl
  exact h.overflow

theorem keeps_onRecvWindow (hm : Keeps Unrelated RecvWindow.Overflows m) : Keeps RS E (Stream.onRecvWindow m) :=
  (h.keeps_overflow hm).onField fun _ _ _ => h.stream _ _

theorem keeps_streamRelease [IsPreorder Stream RS] (size : Nat) : Keeps RS E (Stream.releaseRecvWindow id size) := by
  refine .bind (h.keeps_onRecvWindow (RecvWindow.keeps_recvData size)) fun _ => ?_
  refine .bind (h.keeps_onRecvWindow RecvWindow.keeps_unreleasedSize) fun unreleased => ?_
  cases unreleased with
  | none => exact .pure _
  | some size =>
    refine .get_bind fun stream => .ite ?_ (.pure _)
    exact h.keeps_onRecvWindow (RecvWindow.keeps_checkWindowUpdate id)

variable [IsPreorder Streams R]

theorem keeps_forStreams {m : Method Stream Stop Unit} (hm : Keeps RS E m) : Keeps R E (forStreams m) := by
  refine .get_bind fun _ => .forM (fun id s => ?_) _
  simp only [get_bind]
  cases hlookup : s.streamMap.lookup id with
  | none => exact .ok (refl s)
  | some stream => exact h.ends_onStream hm hlookup

theorem keeps_applyRecvInitialWindowSize (size : Nat) : Keeps R E (applyRecvInitialWindowSize size) := by
  refine .get_bind fun s => .bind (.modify fun s => h.initial s size) fun _ => ?_
  refine .ite (h.keeps_forStreams (h.keeps_onRecvWindow ?_)) ?_
  · exact .bind (RecvWindow.keeps_increaseNotification _) fun _ => RecvWindow.keeps_increaseActual _
  · refine .ite (h.keeps_forStreams (h.keeps_onRecvWindow ?_)) (.pure _)
    exact RecvWindow.keeps_reduceNotification _

theorem keeps_releaseStreamRecvWindow [IsPreorder Stream RS] (hid : E (.stream id .flowControlError)) (size : Nat) :
    Keeps R E (releaseStreamRecvWindow id size) := by
  refine keeps_lookup (.pure _) fun s stream hlookup => ?_
  split
  · exact .err ⟨hid, refl s⟩
  · exact h.ends_onStream (h.keeps_streamRelease size) hlookup

theorem keeps_releaseConnRecvWindow (size : Nat) : Keeps R E (releaseConnRecvWindow size) := by
  have hwindow : ∀ {β : Type} {m : Method RecvWindow Stop β}, Keeps Unrelated RecvWindow.Overflows m →
      Keeps FlowControl.SameSend E (FlowControl.onRecvWindow m) :=
    fun hm => (h.keeps_overflow hm).onField fun _ _ _ => rfl
  refine .get_bind fun _ => .ite (.throw (h.connection _)) (.onField (R := FlowControl.SameSend) ?_ fun _ _ => h.conn)
  refine .bind (hwindow (RecvWindow.keeps_recvData size)) fun _ => ?_
  exact hwindow (RecvWindow.keeps_checkWindowUpdate 0)

end RecvFree

end Streams

theorem Stream.releaseRecvWindow_value (id : StreamId) (size : Nat) :
    Triple (fun _ => True) (Stream.releaseRecvWindow id size)
      (fun update _ => ∀ frame ∈ update, ∃ n, frame = RecvWindow.windowUpdate id n) (fun _ _ => True) := by
  refine .bind (Triple.any _) fun _ => .bind (Triple.any _) fun unreleased => ?_
  cases unreleased with
  | none => exact .pure (by simp)
  | some size =>
    refine .bind (Triple.any _) fun stream => ?_
    refine .ite (fun _ => ?_) fun _ => .pure (by simp)
    exact Triple.onField_value (RecvWindow.checkWindowUpdate_value id)

/-! ### The window of the connection -/

/-- A connection that is launched has been set up. -/
theorem ConnManager.launch_cases {config : H2Config} {m : ConnManager} (h : launch config = .ok () m) :
    ∃ streams, Streams.start config = .ok () streams ∧ queueInitial config (.new streams) = .ok () m := by
  obtain ⟨value, started, hnew, hinitial⟩ := bind_eq_ok.mp h
  cases hstart : Streams.start config with
  | err | panic =>
    rw [hstart] at hnew
    cases hnew
  | ok _ streams =>
    rw [hstart] at hnew
    cases hnew
    exact ⟨streams, rfl, hinitial⟩

namespace Streams

/-- The window of the connection that the peer sees. -/
def visible (s : Streams) : Int := s.flowControl.recvWindow.notification

def withRecvWindow (s : Streams) (w : RecvWindow) : Streams :=
  { s with flowControl := { s.flowControl with recvWindow := w } }

variable {s s' : Streams} {size window : Nat}

/-- A call for `size` bytes takes them from the window and then checks it. -/
theorem releaseConnRecvWindow_eq (hsize : size < 2 ^ 31) (hle : size ≤ s.visible) :
    releaseConnRecvWindow size s = if InI32 (s.visible - size) then (RecvWindow.checkWindowUpdate 0
          { s.flowControl.recvWindow with notification := s.visible - size }).mapState s.withRecvWindow
      else .err (.overflow .recvWindow) s := by
  have havailable : ¬ s.flowControl.recvNotificationSizeAvailable < size := by
    have hpos : 0 ≤ s.visible := by omega
    have hvisible : s.flowControl.recvNotificationSizeAvailable = s.visible.toNat := by
      rw [Streams.visible] at hpos ⊢
      rw [FlowControl.recvNotificationSizeAvailable, RecvWindow.notificationAvailable, if_neg (Int.not_lt.mpr hpos), asU32_of_nonneg hpos]
    omega
  have hrecv : RecvWindow.recvData size s.flowControl.recvWindow =
      if InI32 (s.visible - size) then .ok () { s.flowControl.recvWindow with notification := s.visible - size }
      else .err (.overflow .recvWindow) s.flowControl.recvWindow :=
    RecvWindow.recvData_eq hsize
  simp only [releaseConnRecvWindow, get_bind]
  rw [if_neg havailable]
  simp only [onFlowControl, onField, bind_apply, FlowControl.recvData, FlowControl.onRecvWindow, hrecv]
  split
  · simp only [FlowControl.checkConnRecvWindowUpdate, FlowControl.onRecvWindow, onField,
      mapState_ok, bind_ok, mapState_mapState]
    rfl
  · rfl

/-- What a call that returns has done. -/
theorem releaseConnRecvWindow_ok (hsize : size < 2 ^ 31)
    (hle : size ≤ s.visible) (h : releaseConnRecvWindow size s = .ok update s') :
    (¬ s.visible - size < (s.flowControl.recvWindow.actual - (s.visible - size)) * 2 ∧ update = none ∧
        s'.visible = s.visible - size) ∨
      ∃ n : Nat, s.visible - size < (s.flowControl.recvWindow.actual - (s.visible - size)) * 2 ∧
        update = some (RecvWindow.windowUpdate 0 n) ∧ 0 < n ∧ n < 2 ^ 31 ∧ s'.visible = s.visible - size + n := by
  rw [releaseConnRecvWindow_eq hsize hle] at h
  split at h
  · generalize hcheck : RecvWindow.checkWindowUpdate 0 _ = out at h
    cases out with
    | ok update' w =>
      cases h
      have hpos : 0 ≤ s.visible - size := by omega
      rcases RecvWindow.checkWindowUpdate_ok hpos hcheck with ⟨hhalf, rfl, rfl⟩ | ⟨n, hhalf, rfl, hn, hn', rfl⟩
      · exact .inl ⟨hhalf, rfl, rfl⟩
      · exact .inr ⟨n, hhalf, rfl, hn, hn', rfl⟩
    | err | panic => cases h
  · cases h

theorem releaseConnRecvWindow_value (size : Nat) : Triple (fun _ => True) (releaseConnRecvWindow size)
      (fun update _ => ∀ frame ∈ update, ∃ n, frame = RecvWindow.windowUpdate 0 n) (fun _ _ => True) := by
  refine .bind (Triple.any _) fun s => ?_
  refine .ite (fun _ => .throw fun _ _ => trivial) fun _ => Triple.onField_value ?_
  exact .bind (Triple.any _) fun _ => Triple.onField_value (RecvWindow.checkWindowUpdate_value 0)

theorem releaseStreamRecvWindow_value (id : StreamId) (size : Nat) :
    Triple (fun _ => True) (releaseStreamRecvWindow id size)
      (fun update _ => ∀ frame ∈ update, ∃ n, frame = RecvWindow.windowUpdate id n) (fun _ _ => True) := by
  refine .bind (Triple.any _) fun s => ?_
  cases s.streamMap.lookup id with
  | none => exact .pure (by simp)
  | some stream =>
    refine .ite (fun _ => .throw fun _ _ => trivial) fun _ s _ => ?_
    exact (Stream.releaseRecvWindow_value id size stream trivial).mapState (fun _ _ h => h) fun _ _ h => h

/-- A call within the window fails only if an operation overflows. -/
theorem releaseConnRecvWindow_err {stop : Stop} (hsize : size < 2 ^ 31)
    (hle : size ≤ s.visible) (h : releaseConnRecvWindow size s = .err stop s') : stop = .overflow .recvWindow := by
  rw [releaseConnRecvWindow_eq hsize hle] at h
  split at h
  · have hcheck := RecvWindow.keeps_checkWindowUpdate 0
      { s.flowControl.recvWindow with notification := s.visible - size }
    generalize RecvWindow.checkWindowUpdate 0 _ = out at h hcheck
    cases hcheck with
    | ok _ => cases h
    | err hstop =>
      cases h
      exact hstop.1
    | panic => cases h
  · cases h
    rfl

/-- A window that needs no update: at most a third of it is missing. -/
structure Settled (window : Nat) (s : Streams) : Prop where
  actual : s.flowControl.recvWindow.actual = window
  visible_le : s.visible ≤ window
  missing_le : (window - s.visible) * 2 ≤ s.visible

/-- The calls for `sizes` return, and each one that finds more than half of what the peer sees
missing sends a WINDOW_UPDATE frame that restores the window. -/
def Restores (window : Nat) : List Nat → Streams → Prop
  | [], _ => True
  | size :: sizes, s => ∃ update s', releaseConnRecvWindow size s = .ok update s' ∧
      (s.visible - size < (window - (s.visible - size)) * 2 →
        update = some (RecvWindow.windowUpdate 0 (window - (s.visible - size)).toNat) ∧ s'.visible = window) ∧
      Restores window sizes s'

/-- Each of the sizes fits into what the peer sees of the window. -/
def WithinWindow : List Nat → Streams → Prop
  | [], _ => True
  | size :: sizes, s => size ≤ s.visible ∧
      ∀ update s', releaseConnRecvWindow size s = .ok update s' → WithinWindow sizes s'

/-- A call that does not find half of the range missing leaves a settled window. -/
theorem releaseConnRecvWindow_settles (hwindow : window < 2 ^ 31)
    (hactual : s.flowControl.recvWindow.actual = window) (hvisible : s.visible ≤ window)
    (hle : size ≤ s.visible) (hmissing : window - (s.visible - size) < 2 ^ 30) :
    ∃ update s', releaseConnRecvWindow size s = .ok update s' ∧
      (s.visible - size < (window - (s.visible - size)) * 2 →
        update = some (RecvWindow.windowUpdate 0 (window - (s.visible - size)).toNat) ∧ s'.visible = window) ∧
      Settled window s' := by
  have hin : InI32 (s.visible - size) := ⟨by omega, by omega⟩
  have hcall := releaseConnRecvWindow_eq (by omega) hle
  rw [if_pos hin, RecvWindow.checkWindowUpdate_eq, hactual] at hcall
  · by_cases hhalf : s.visible - size < (window - (s.visible - size)) * 2
    · rw [if_pos hhalf] at hcall
      refine ⟨_, _, hcall, fun _ => ⟨rfl, rfl⟩, rfl, Int.le_refl _, ?_⟩
      change ((window : Int) - window) * 2 ≤ window
      omega
    · rw [if_neg hhalf] at hcall
      refine ⟨_, _, hcall, fun h => absurd h hhalf, hactual, ?_, ?_⟩
      · change s.visible - size ≤ window
        omega
      · change (window - (s.visible - size)) * 2 ≤ s.visible - size
        omega
  all_goals
    simp only [hactual]
    omega

/-- A settled window stays settled: DATA frames are short. -/
theorem Settled.restores (hwindow : window < 2 ^ 31) :
    ∀ {sizes : List Nat} {s : Streams}, Settled window s → (∀ size ∈ sizes, size < 2 ^ 24) →
      WithinWindow sizes s → Restores window sizes s := by
  intro sizes
  induction sizes with
  | nil =>
    intro s _ _ _
    trivial
  | cons size sizes ih =>
    intro s hs hframes hwithin
    have hsize := hframes size List.mem_cons_self
    have hmissing := hs.missing_le
    obtain ⟨update, s', hcall, hrestored, hs'⟩ :=
      releaseConnRecvWindow_settles hwindow hs.actual hs.visible_le hwithin.1 (by omega)
    refine ⟨update, s', hcall, hrestored, ?_⟩
    apply ih hs'
    · exact fun size hmem => hframes size (List.mem_cons_of_mem _ hmem)
    · exact hwithin.2 update s' hcall

/-- The setup only changes the window that the client wants. -/
theorem start_eq {config : H2Config} (hmin : 65535 ≤ config.connWindowSize) (hmax : config.connWindowSize < 2 ^ 31) :
    Streams.start config = .ok () (.new config.streamWindowSize defaultWindowSize
      ⟨⟨65535, config.connWindowSize⟩, ⟨65535⟩⟩) := by
  have hnew : FlowControl.new defaultWindowSize defaultWindowSize = ⟨⟨65535, 65535⟩, ⟨65535⟩⟩ := rfl
  have hactual : asU32 65535 = 65535 := rfl
  have hcast : asI32 (config.connWindowSize - 65535) = (config.connWindowSize : Int) - 65535 := by
    rw [asI32_of_lt (by omega)]
    omega
  have hin : InI32 (config.connWindowSize : Int) := ⟨by omega, by omega⟩
  have hsum : (65535 : Int) + (config.connWindowSize - 65535) = config.connWindowSize := by omega
  simp only [Streams.start, FlowControl.setupRecvWindow, hnew, get_bind, hactual]
  split_ifs with hlarger
  · simp only [FlowControl.onRecvWindow, onField, RecvWindow.increaseActual, bind_apply,
      get_apply, bind_ok, hcast, hsum, i32_eq_ok hin, modify_apply, mapState_ok]
  · have heq : config.connWindowSize = 65535 := by omega
    simp only [heq]
    rfl

/-- The receive window of a connection is kept as configured exactly if the configured size is
at most 2^30 + 65534. -/
theorem restores_iff (config : H2Config) (sizes : List Nat) (hmin : 65535 ≤ config.connWindowSize)
    (hmax : config.connWindowSize ≤ 2 ^ 31 - 1) (hframes : ∀ size ∈ sizes, size < 2 ^ 24)
    (hwithin : ∀ s, Streams.start config = .ok () s → WithinWindow (0 :: sizes) s) :
    (∃ s, Streams.start config = .ok () s ∧ Restores config.connWindowSize (0 :: sizes) s) ↔
      config.connWindowSize ≤ 1073807358 := by
  have hstart := start_eq hmin (by omega)
  have hvisible : (new config.streamWindowSize defaultWindowSize
      ⟨⟨65535, config.connWindowSize⟩, ⟨65535⟩⟩).visible = 65535 := rfl
  constructor
  · rintro ⟨s, hs, update, s', hcall, -⟩
    by_contra hlarge
    obtain ⟨-, rfl⟩ := ok.inj (hs.symm.trans hstart)
    -- the call of the setup finds half of the range missing
    rw [releaseConnRecvWindow_eq (by decide) (by omega), RecvWindow.checkWindowUpdate_overflow] at hcall
    · cases hcall
    · change (2 : Int) ^ 30 ≤ config.connWindowSize - (65535 - (0 : Nat))
      omega
    · change config.connWindowSize - (65535 - ((0 : Nat) : Int)) < 2 ^ 31
      omega
  · intro hsmall
    obtain ⟨hle, hnext⟩ := hwithin _ hstart
    refine ⟨_, hstart, ?_⟩
    obtain ⟨update, s', hcall, hrestored, hs'⟩ :=
      releaseConnRecvWindow_settles (by omega) rfl (by omega) hle (by omega)
    exact ⟨update, s', hcall, hrestored, hs'.restores (by omega) hframes (hnext update s' hcall)⟩

theorem restores_default :
    (∃ s, Streams.start default = .ok () s ∧ Restores (10 * 1024 * 1024) [0, 16384] s) ↔
      10 * 1024 * 1024 ≤ 1073807358 := by
  refine restores_iff default [16384] (by decide) (by decide) (by decide) ?_
  rintro s ⟨⟩
  refine ⟨by decide, ?_⟩
  rintro update s' ⟨⟩
  exact ⟨by decide, fun _ _ _ => trivial⟩

/-- The largest window that can be configured: the call of the setup overflows. -/
theorem release_largest : ∃ s, Streams.start { (default : H2Config) with connWindowSize := 2 ^ 31 - 1 } = .ok () s ∧
    ∃ s', releaseConnRecvWindow 0 s = .err (.overflow .recvWindow) s' :=
  ⟨_, rfl, _, rfl⟩

end Streams

end YlongHttp.Client.H2
