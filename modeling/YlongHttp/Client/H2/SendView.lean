/-
The send windows as the peer computes them.

The peer gives the client an initial window for each stream, windows that WINDOW_UPDATE frames
add to, and it takes off the DATA frames it gets. `Peer.observe` is what the peer does with an
item of the history of the manager, and `peer` what it knows after the whole history. `Fits` says
that the `i32` windows of the streams have the values the peer has computed, within bounds that
leave room for the next change of the initial window: what a stream is behind its initial window
is never more than 2^31 - 1, because the stream had a window for all that it has sent.
-/

import YlongHttp.Client.H2.Quiet

namespace YlongHttp.Client.H2

open YlongHttp.H2 Rust Method Outcome List

/-! ### The peer -/

/-- `credit` is what has been given to a stream on top of the initial window, less what it has sent. -/
structure Peer where
  initial : Nat
  conn : Int
  credit : StreamId → Option Int

namespace Peer

def start : Peer := ⟨65535, 65535, fun _ => none⟩

/-- The settings of a SETTINGS frame of the peer. -/
def settle : List Setting → Peer → Peer
  | [], p => p
  | .initialWindowSize size :: settings, p => settle settings { p with initial := size.toNat }
  | _ :: settings, p => settle settings p

/-- A change of what has been given to a stream. -/
def addCredit (id : StreamId) (n : Int) (p : Peer) : Peer :=
  { p with credit := Function.update p.credit id ((p.credit id).map (· + n)) }

/-- A WINDOW_UPDATE frame of the peer. -/
def give (id : StreamId) (n : Nat) (p : Peer) : Peer :=
  if id = 0 then { p with conn := p.conn + n } else p.addCredit id n

/-- A DATA frame of the client. -/
def take (id : StreamId) (n : Nat) (p : Peer) : Peer := { p.addCredit id (-n) with conn := p.conn - n }

theorem take_zero (p : Peer) (id : StreamId) : p.take id 0 = p := by
  have hcredit : (p.credit id).map (· + -((0 : Nat) : Int)) = p.credit id := by
    cases p.credit id <;> simp
  rw [take, addCredit, hcredit]
  simp

/-- A stream that the client opens. -/
def openStream (id : StreamId) (p : Peer) : Peer := { p with credit := Function.update p.credit id (some 0) }

def observe (p : Peer) : Item → Peer
  | .received frame =>
    match frame.payload with
    | .settings settings => if frame.flags.isAck then p else p.settle settings
    | .windowUpdate increment => p.give frame.id increment.toNat
    | _ => p
  | .requested id => p.openStream id
  | .queued frame _ =>
    match frame.payload with
    | .data data => p.take frame.id data.length
    | _ => p
  | .delivered _ _ => p

/-- The window of a stream that the client has opened. -/
def window (p : Peer) (id : StreamId) : Option Int := (p.credit id).map (p.initial + ·)

end Peer

def peer : List Item → Peer
  | [] => .start
  | item :: history => (peer history).observe item

namespace Streams

/-- The values of the send windows. -/
def windowOf (s : Streams) (id : StreamId) : Option Int := (s.streamMap.lookup id).map fun stream => stream.sendWindow.size

structure Fits (p : Peer) (s : Streams) : Prop where
  initial : s.streamSendWindowSize = p.initial
  initial_lt : p.initial < 2 ^ 31
  conn : s.flowControl.sendWindow.size = p.conn
  conn_lt : p.conn < 2 ^ 31
  windows : ∀ id, s.windowOf id = p.window id
  low : ∀ id credit, p.credit id = some credit → -(2 ^ 31 - 1) ≤ credit
  high : ∀ id credit, p.credit id = some credit → p.initial + credit < 2 ^ 31
  fresh : ∀ id, s.nextStreamId ≤ id → p.credit id = none

/-! ### What leaves the send windows alone -/

structure SameSend (s s' : Streams) : Prop where
  conn : s'.flowControl.sendWindow = s.flowControl.sendWindow
  initial : s'.streamSendWindowSize = s.streamSendWindowSize
  next : s'.nextStreamId = s.nextStreamId
  windows : ∀ id, s'.windowOf id = s.windowOf id

instance : IsPreorder Streams SameSend where
  refl _ := ⟨rfl, rfl, rfl, fun _ => rfl⟩
  trans _ _ _ h h' :=
    ⟨h'.conn.trans h.conn, h'.initial.trans h.initial, h'.next.trans h.next,
      fun id => (h'.windows id).trans (h.windows id)⟩

theorem SameWindows.sameSend {s s' : Streams} (h : SameWindows s s') : SameSend s s' := by
  refine ⟨by rw [h.flow], h.initial, h.next, ?_⟩
  intro id
  have hwindow := congrArg (Option.map SendWindow.size) (h.windows id)
  rwa [Option.map_map, Option.map_map] at hwindow

theorem Fits.sameSend {p : Peer} {s s' : Streams} (h : Fits p s) (hsame : SameSend s s') : Fits p s' where
  initial := hsame.initial.trans h.initial
  initial_lt := h.initial_lt
  conn := by rw [hsame.conn, h.conn]
  conn_lt := h.conn_lt
  windows id := (hsame.windows id).trans (h.windows id)
  low := h.low
  high := h.high
  fresh id hid := h.fresh id (hsame.next ▸ hid)

theorem windowOf_setStream (s : Streams) (id : StreamId) (stream : Stream) (other : StreamId) :
    (s.setStream id stream).windowOf other = if other = id then some stream.sendWindow.size else s.windowOf other := by
  by_cases heq : other = id
  · subst heq
    rw [if_pos rfl, windowOf, setStream, AList.lookup_insert]
    rfl
  · rw [if_neg heq, windowOf, setStream, AList.lookup_insert_ne heq]
    rfl

theorem SameSend.setStream {s : Streams} {id : StreamId} {stream stream' : Stream}
    (hlookup : s.streamMap.lookup id = some stream) (hwindow : stream'.sendWindow = stream.sendWindow) :
    SameSend s (s.setStream id stream') := by
  refine ⟨rfl, rfl, rfl, ?_⟩
  intro other
  rw [windowOf_setStream]
  split
  next heq => rw [heq, windowOf, hlookup, hwindow, Option.map_some]
  next => rfl

end Streams

/-! ### Receive windows -/

/-- The task does not end with the overflow of a send window. -/
def Stop.OffSend (stop : Stop) : Prop := stop ≠ .overflow .sendWindow

theorem Stop.OffWindows.offSend {stop : Stop} (h : stop.OffWindows) : stop.OffSend := by
  rintro rfl
  exact h

namespace Stream

def SameSend (stream stream' : Stream) : Prop := stream'.sendWindow = stream.sendWindow

instance : IsPreorder Stream SameSend where
  refl _ := rfl
  trans _ _ _ h h' := Eq.trans h' h

end Stream

namespace Streams

theorem recvFree_sameSend : RecvFree Stream.SameSend SameSend Stop.OffSend where
  lift hlookup h := .setStream hlookup h
  stream _ _ := rfl
  conn h := ⟨h, rfl, rfl, fun _ => rfl⟩
  initial _ _ := ⟨rfl, rfl, rfl, fun _ => rfl⟩
  overflow := nofun
  connection _ := nofun

/-! ### Loops over the streams -/

section Loop

variable {P Q : StreamId → Stream → Prop} {E : Stop → Prop} {f : Method Stream Stop Unit} {s : Streams}

/-- A loop over the stream map has changed all streams but those in `rest`. -/
structure Visited (P Q : StreamId → Stream → Prop) (s : Streams) (rest : List StreamId) (s' : Streams) : Prop where
  others : s' = { s with streamMap := s'.streamMap }
  isSome : ∀ id, (s'.streamMap.lookup id).isSome = (s.streamMap.lookup id).isSome
  before : ∀ id ∈ rest, ∀ stream, s'.streamMap.lookup id = some stream → P id stream
  after : ∀ id, id ∉ rest → ∀ stream, s'.streamMap.lookup id = some stream → Q id stream

theorem Visited.setStream {id : StreamId} {rest : List StreamId} {s' : Streams} {stream stream' : Stream}
    (h : Visited P Q s (id :: rest) s') (hid : id ∉ rest) (hlookup : s'.streamMap.lookup id = some stream)
    (hstream : Q id stream') : Visited P Q s rest (s'.setStream id stream') := by
  have hother : ∀ other ≠ id, (s'.setStream id stream').streamMap.lookup other = s'.streamMap.lookup other :=
    fun other hne => AList.lookup_insert_ne hne
  have hself : (s'.setStream id stream').streamMap.lookup id = some stream' := AList.lookup_insert _
  constructor
  · rw [Streams.setStream, h.others]
  · intro other
    by_cases heq : other = id
    · rw [heq, hself, ← h.isSome, hlookup]
      rfl
    · rw [hother other heq, h.isSome]
  · intro other hmem found hfound
    have hne : other ≠ id := fun heq => hid (heq ▸ hmem)
    rw [hother other hne] at hfound
    exact h.before other (mem_cons_of_mem id hmem) found hfound
  · intro other hmem found hfound
    by_cases heq : other = id
    · subst heq
      obtain rfl := Option.some.inj (hself.symm.trans hfound)
      exact hstream
    · rw [hother other heq] at hfound
      refine h.after other ?_ found hfound
      rw [mem_cons, not_or]
      exact ⟨heq, hmem⟩

/-- A loop that visits each stream once. -/
theorem triple_forM {body : StreamId → Method Streams Stop Unit} (hbody : ∀ id ids, id ∉ ids →
      Triple (Visited P Q s (id :: ids)) (body id) (fun _ => Visited P Q s ids) fun stop _ => E stop) :
    ∀ ids : List StreamId, ids.Nodup →
      Triple (Visited P Q s ids) (ids.forM body) (fun _ => Visited P Q s []) fun stop _ => E stop := by
  intro ids
  induction ids with
  | nil => exact fun _ => .pure fun _ h => h
  | cons id ids ih =>
    intro hnodup
    obtain ⟨hid, hnodup⟩ := nodup_cons.mp hnodup
    exact .bind (hbody id ids hid) fun _ => ih hnodup

/-- A loop over the stream map changes each stream once. -/
theorem ends_forStreams (hf : ∀ id, Triple (P id) f (fun _ => Q id) fun stop _ => E stop)
    (hs : ∀ id stream, s.streamMap.lookup id = some stream → P id stream) :
    (forStreams f s).Ends (fun _ => Visited P Q s []) (fun stop _ => E stop) := by
  refine triple_forM (fun id ids hid s' h => ?_) s.streamMap.keys s.streamMap.nodupKeys s
    ⟨rfl, fun _ => rfl, fun id _ => hs id, ?_⟩
  · simp only [get_bind]
    cases hlookup : s'.streamMap.lookup id with
    | none =>
      refine .ok ⟨h.others, h.isSome, fun other hmem => h.before other (mem_cons_of_mem id hmem), ?_⟩
      intro other hmem found hfound
      have hne : other ≠ id := by
        rintro rfl
        cases hlookup.symm.trans hfound
      refine h.after other ?_ found hfound
      rw [mem_cons, not_or]
      exact ⟨hne, hmem⟩
    | some stream =>
      refine (hf id stream (h.before id mem_cons_self stream hlookup)).mapState ?_ ?_
      · exact fun _ _ hstream => h.setStream hid hlookup hstream
      · exact fun _ _ hE => hE
  · intro id hid stream hlookup
    have hmem : id ∈ s.streamMap := AList.lookup_isSome.mp (by rw [hlookup]; rfl)
    exact absurd hmem hid

end Loop

end Streams

/-! ### Changes of the send windows -/

namespace SendWindow

variable {a : Int} {n : Nat}

theorem triple_increaseSize (hn : n < 2 ^ 31) :
    Triple (fun w : SendWindow => w.size = a) (increaseSize n) (fun _ w => w.size = a + n ∧ a + n < 2 ^ 31)
      fun stop _ => stop = .connection .flowControlError := by
  rintro w rfl
  simp only [increaseSize, get_bind, asI32_of_lt hn]
  by_cases hin : InI32 (w.size + n)
  · rw [if_neg (not_not.mpr hin)]
    split
    · exact .err rfl
    · exact .ok ⟨rfl, hin.2⟩
  · rw [if_pos hin]
    exact .err rfl

theorem triple_reduceSize (hn : n < 2 ^ 31) (hin : InI32 (a - n)) :
    Triple (fun w : SendWindow => w.size = a) (reduceSize n) (fun _ w => w.size = a - n) fun _ _ => False := by
  rintro w rfl
  simp only [reduceSize, bind_apply, get_apply, bind_ok, asI32_of_lt hn, i32_eq_ok hin]
  exact .ok rfl

theorem triple_sendData (hn : n < 2 ^ 31) (hin : InI32 (a - n)) :
    Triple (fun w : SendWindow => w.size = a) (sendData n) (fun _ w => w.size = a - n) fun _ _ => False :=
  triple_reduceSize hn hin

theorem sizeAvailable_eq {w : SendWindow} (h : w.sizeAvailable ≠ 0) : (w.sizeAvailable : Int) = w.size := by
  rw [sizeAvailable] at h ⊢
  split at h
  next hneg => exact absurd rfl h
  next hpos =>
    rw [if_neg hpos, asU32_of_nonneg (Int.not_lt.mp hpos)]
    omega

end SendWindow

namespace Streams

variable {p : Peer} {s s' : Streams}

/-- The window of a stream if the initial window is `initial`. -/
def HasWindow (p : Peer) (initial : Nat) (id : StreamId) (stream : Stream) : Prop :=
  ∃ credit, p.credit id = some credit ∧ stream.sendWindow.size = initial + credit ∧ initial + credit < 2 ^ 31

variable {id : StreamId} {stream : Stream} {size n : Nat}

theorem Fits.hasWindow (h : Fits p s) (hlookup : s.streamMap.lookup id = some stream) :
    HasWindow p p.initial id stream := by
  have hwindow := h.windows id
  rw [windowOf, hlookup, Peer.window] at hwindow
  obtain ⟨credit, hcredit, hsize⟩ := Option.map_eq_some_iff.mp hwindow.symm
  exact ⟨credit, hcredit, hsize.symm, h.high id credit hcredit⟩

theorem Fits.lookup_none_iff (h : Fits p s) : s.streamMap.lookup id = none ↔ p.credit id = none := by
  have hwindow := h.windows id
  rw [windowOf, Peer.window] at hwindow
  rw [← Option.map_eq_none_iff (f := fun stream => stream.sendWindow.size), hwindow, Option.map_eq_none_iff]

/-- The initial window is changed after a loop over the streams. -/
theorem Fits.of_visited {P : StreamId → Stream → Prop} (h : Fits p s) (hsize : size < 2 ^ 31)
    (hvisited : Visited P (HasWindow p size) { s with streamSendWindowSize := size } [] s') :
    Fits { p with initial := size } s' := by
  have hothers := hvisited.others
  have hstream : ∀ id credit, p.credit id = some credit →
      ∃ stream, s'.streamMap.lookup id = some stream ∧ stream.sendWindow.size = size + credit ∧ size + credit < 2 ^ 31 := by
    intro id credit hcredit
    have hsome : (s'.streamMap.lookup id).isSome := by
      rw [hvisited.isSome, Option.isSome_iff_ne_none]
      intro hnone
      cases hcredit.symm.trans (h.lookup_none_iff.mp hnone)
    obtain ⟨stream, hlookup⟩ := Option.isSome_iff_exists.mp hsome
    obtain ⟨credit', hcredit', hwindow, hlt⟩ := hvisited.after id not_mem_nil stream hlookup
    obtain rfl := Option.some.inj (hcredit.symm.trans hcredit')
    exact ⟨stream, hlookup, hwindow, hlt⟩
  constructor
  · rw [hothers]
  · exact hsize
  · rw [hothers]
    exact h.conn
  · exact h.conn_lt
  · intro id
    rw [Peer.window, windowOf]
    cases hcredit : p.credit id with
    | none =>
      have hnone : s'.streamMap.lookup id = none := by
        rw [← Option.not_isSome_iff_eq_none, hvisited.isSome, h.lookup_none_iff.mpr hcredit]
        simp
      rw [hnone]
      rfl
    | some credit =>
      obtain ⟨stream, hlookup, hwindow, -⟩ := hstream id credit hcredit
      rw [hlookup, Option.map_some, hwindow]
      rfl
  · exact h.low
  · intro id credit hcredit
    obtain ⟨_, -, -, hlt⟩ := hstream id credit hcredit
    exact hlt
  · intro id hid
    rw [hothers] at hid
    exact h.fresh id hid

theorem triple_increaseWindow (hmore : p.initial < size) (hsize : size < 2 ^ 31) (id : StreamId) :
    Triple (HasWindow p p.initial id) (Stream.onSendWindow (SendWindow.increaseSize (size - p.initial)))
      (fun _ => HasWindow p size id) fun stop _ => stop = .connection .flowControlError := by
  rintro stream ⟨credit, hcredit, hwindow, -⟩
  refine (SendWindow.triple_increaseSize (by omega) stream.sendWindow hwindow).mapState ?_ (fun _ _ h => h)
  rintro _ w ⟨hw, hlt⟩
  refine ⟨credit, hcredit, ?_, by omega⟩
  change w.size = size + credit
  omega

theorem triple_reduceWindow (hless : size < p.initial) (hinitial : p.initial < 2 ^ 31)
    (hlow : ∀ id credit, p.credit id = some credit → -(2 ^ 31 - 1) ≤ credit) (id : StreamId) :
    Triple (HasWindow p p.initial id) (Stream.onSendWindow (SendWindow.reduceSize (p.initial - size)))
      (fun _ => HasWindow p size id) fun _ _ => False := by
  rintro stream ⟨credit, hcredit, hwindow, hlt⟩
  have hcreditLow := hlow id credit hcredit
  have hin : InI32 (p.initial + credit - (p.initial - size : Nat)) := ⟨by omega, by omega⟩
  refine (SendWindow.triple_reduceSize (by omega) hin stream.sendWindow hwindow).mapState ?_ (fun _ _ h => h)
  intro _ w hw
  refine ⟨credit, hcredit, ?_, by omega⟩
  change w.size = size + credit
  omega

theorem triple_applySendInitialWindowSize (hsize : size < 2 ^ 31) :
    Triple (Fits p) (applySendInitialWindowSize size) (fun _ => Fits { p with initial := size })
      fun stop _ => stop = .connection .flowControlError := by
  intro s hs
  simp only [applySendInitialWindowSize, get_bind, hs.initial]
  have hwindows : ∀ id stream, ({ s with streamSendWindowSize := size } : Streams).streamMap.lookup id = some stream →
      HasWindow p p.initial id stream :=
    fun _ _ => hs.hasWindow
  rcases Nat.lt_trichotomy p.initial size with hmore | heq | hless
  · rw [if_pos hmore]
    refine (ends_forStreams (triple_increaseWindow hmore hsize) hwindows).bind fun _ s' hvisited => ?_
    refine .ok ((hs.of_visited hsize hvisited).sameSend ?_)
    exact ⟨rfl, rfl, rfl, fun _ => rfl⟩
  · subst heq
    rw [if_neg (lt_irrefl _), if_neg (lt_irrefl _)]
    exact .ok (hs.sameSend ⟨rfl, hs.initial.symm, rfl, fun _ => rfl⟩)
  · rw [if_neg (Nat.lt_asymm hless), if_pos hless]
    refine (ends_forStreams (triple_reduceWindow hless hs.initial_lt hs.low) hwindows).mono ?_ ?_
    · exact fun _ _ hvisited => hs.of_visited hsize hvisited
    · exact fun _ _ h => h.elim

theorem triple_increaseConnSendWindow (hn : n < 2 ^ 31) :
    Triple (Fits p) (increaseConnSendWindow n) (fun _ => Fits (p.give 0 n))
      fun stop _ => stop = .connection .flowControlError := by
  intro s hs
  simp only [increaseConnSendWindow, onFlowControl, FlowControl.increaseSendSize, FlowControl.onSendWindow,
    onField, mapState_mapState]
  refine (SendWindow.triple_increaseSize hn s.flowControl.sendWindow hs.conn).mapState ?_ (fun _ _ h => h)
  rintro _ w ⟨hw, hlt⟩
  exact { hs with conn := hw, conn_lt := hlt }

/-- The credit of one stream is set together with its window. -/
theorem Fits.setStream {stream' : Stream} {credit : Int} (h : Fits p s) (hid : id < s.nextStreamId)
    (hwindow : stream'.sendWindow.size = p.initial + credit) (hlow : -(2 ^ 31 - 1) ≤ credit)
    (hhigh : p.initial + credit < 2 ^ 31) :
    Fits { p with credit := Function.update p.credit id (some credit) } (s.setStream id stream') := by
  refine ⟨h.initial, h.initial_lt, h.conn, h.conn_lt, ?_, ?_, ?_, ?_⟩
  · intro other
    simp only [windowOf_setStream, Peer.window, Function.update_apply]
    split
    · exact congrArg some hwindow
    · exact h.windows other
  · exact (Function.forall_update_iff p.credit fun _ c => ∀ credit', c = some credit' → -(2 ^ 31 - 1) ≤ credit').mpr
      ⟨fun _ heq => Option.some.inj heq ▸ hlow, fun other _ => h.low other⟩
  · exact (Function.forall_update_iff p.credit fun _ c => ∀ credit', c = some credit' → p.initial + credit' < 2 ^ 31).mpr
      ⟨fun _ heq => Option.some.inj heq ▸ hhigh, fun other _ => h.high other⟩
  · intro other hfresh
    have hne : other ≠ id := fun heq => UInt32.not_lt.mpr hfresh (heq ▸ hid)
    exact (Function.update_of_ne hne _ _).trans (h.fresh other hfresh)

theorem Fits.addCredit {stream' : Stream} {n : Int} (h : Fits p s)
    (hlookup : s.streamMap.lookup id = some stream) (hwindow : stream'.sendWindow.size = stream.sendWindow.size + n)
    (hlow : ∀ credit, p.credit id = some credit → -(2 ^ 31 - 1) ≤ credit + n)
    (hhigh : stream'.sendWindow.size < 2 ^ 31) : Fits (p.addCredit id n) (s.setStream id stream') := by
  obtain ⟨credit, hcredit, hsize, -⟩ := h.hasWindow hlookup
  have hid : id < s.nextStreamId := by
    refine UInt32.not_le.mp fun hle => ?_
    cases hcredit.symm.trans (h.fresh id hle)
  rw [Peer.addCredit, hcredit, Option.map_some]
  exact h.setStream hid (by omega) (hlow credit hcredit) (by omega)

theorem sameSend_takePendingStreamWindow (id : StreamId) (s : Streams) : SameSend s (takePendingStreamWindow id s) := by
  rw [takePendingStreamWindow]
  split
  · exact ⟨rfl, rfl, rfl, fun _ => rfl⟩
  · exact refl s

theorem triple_reassignStreamSendWindow (hid : id ≠ 0) (hn : n < 2 ^ 31) :
    Triple (Fits p) (reassignStreamSendWindow id n) (fun _ => Fits (p.give id n))
      fun stop _ => stop = .connection .flowControlError := by
  intro s hs
  rw [Peer.give, if_neg hid]
  simp only [reassignStreamSendWindow, get_bind]
  cases hlookup : s.streamMap.lookup id with
  | none =>
    have hsame : p.addCredit id n = p := by
      rw [Peer.addCredit, hs.lookup_none_iff.mp hlookup, Option.map_none, ← hs.lookup_none_iff.mp hlookup,
        Function.update_eq_self]
    rw [hsame]
    exact .ok (hs.sameSend (sameSend_takePendingStreamWindow id s))
  | some stream =>
    have hincrease : (onStream id stream (Stream.onSendWindow (SendWindow.increaseSize n)) s).Ends
        (fun _ => Fits (p.addCredit id n)) fun stop _ => stop = .connection .flowControlError := by
      simp only [onStream, Stream.onSendWindow, onField, mapState_mapState]
      refine (SendWindow.triple_increaseSize hn stream.sendWindow rfl).mapState ?_ (fun _ _ h => h)
      rintro _ w ⟨hw, hlt⟩
      refine hs.addCredit hlookup hw (fun credit hcredit => ?_) (hw ▸ hlt)
      have hlow := hs.low id credit hcredit
      omega
    exact hincrease.bind fun _ s' hs' => .ok (hs'.sameSend (sameSend_takePendingStreamWindow id s'))

/-! ### Bodies -/

/-- A DATA frame within the windows of the peer. -/
structure Allowed (p : Peer) (id : StreamId) (frame : Frame) (data : List UInt8) : Prop where
  id_eq : frame.id = id
  payload : frame.payload = .data data
  stream : ∃ window, p.window id = some window ∧ data.length ≤ window
  conn : data.length ≤ p.conn

/-- What a read of a body leaves: with a frame, the windows are already reduced. -/
def AfterRead (p : Peer) (id : StreamId) (state : DataReadState) (s : Streams) : Prop :=
  match state with
  | .ready frame => ∃ data, Allowed p id frame data ∧ Fits (p.take id data.length) s
  | .finish frame => ∃ data, Allowed p id frame data ∧ Fits (p.take id data.length) s
  | _ => Fits p s

theorem Fits.take (h : Fits p s)
    (hlookup : s.streamMap.lookup id = some stream) (hstream : n ≤ stream.sendWindow.size) (hconn : n ≤ p.conn) :
    (do
      onStream id stream (Stream.onSendWindow (SendWindow.sendData n))
      onFlowControl (FlowControl.sendData n) : Method Streams Stop Unit) s |>.Ends
      (fun _ => Fits (p.take id n)) fun _ _ => False := by
  obtain ⟨credit, hcredit, hsize, hlt⟩ := h.hasWindow hlookup
  have hconnLt := h.conn_lt
  have hinitial := h.initial_lt
  have hn : n < 2 ^ 31 := by omega
  have hreduced : (onStream id stream (Stream.onSendWindow (SendWindow.sendData n)) s).Ends
      (fun _ => Fits (p.addCredit id (-n))) fun _ _ => False := by
    have hin : InI32 (stream.sendWindow.size - n) := ⟨by omega, by omega⟩
    simp only [onStream, Stream.onSendWindow, onField, mapState_mapState]
    refine (SendWindow.triple_sendData hn hin stream.sendWindow rfl).mapState ?_ (fun _ _ h => h)
    intro _ w hw
    refine h.addCredit hlookup ?_ (fun credit' hcredit' => ?_) ?_
    · change w.size = stream.sendWindow.size + -n
      omega
    · obtain rfl := Option.some.inj (hcredit.symm.trans hcredit')
      omega
    · change w.size < 2 ^ 31
      omega
  refine hreduced.bind fun _ s' hs' => ?_
  have hin : InI32 (p.conn - n) := ⟨by omega, by omega⟩
  simp only [onFlowControl, FlowControl.sendData, FlowControl.onSendWindow, onField, mapState_mapState]
  refine (SendWindow.triple_sendData hn hin s'.flowControl.sendWindow hs'.conn).mapState ?_ (fun _ _ h => h)
  intro _ w hw
  refine { hs' with conn := hw, conn_lt := ?_ }
  change p.conn - n < 2 ^ 31
  omega

theorem length_pollRead {body : BodyDataRef} {len : Nat} {read : BodyRead} {bytes : List UInt8}
    (h : body.pollRead len read = .ready (some bytes)) : bytes.length ≤ len := by
  rw [BodyDataRef.pollRead] at h
  split at h
  · cases read with
    | pending => cases h
    | ready result =>
      cases result with
      | none => cases h
      | some all =>
        cases h
        exact length_take_le _ _
  · cases h
    exact Nat.zero_le len

theorem ends_pollSizedData {len : Nat} (read : BodyRead) (h : Fits p s)
    (hlookup : s.streamMap.lookup id = some stream) (hstream : len ≤ stream.sendWindow.size) (hconn : len ≤ p.conn) :
    (pollSizedData id len read s).Ends (AfterRead p id) fun stop s' => (∃ e, stop = .error (.h2 e)) ∧ Fits p s' := by
  have hwindow : p.window id = some stream.sendWindow.size := by
    rw [← h.windows id, windowOf, hlookup, Option.map_some]
  have hallowed : ∀ {frame : Frame} {data : List UInt8}, frame.id = id → frame.payload = .data data →
      data.length ≤ len → Allowed p id frame data := by
    intro frame data hid hpayload hlen
    exact ⟨hid, hpayload, ⟨_, hwindow, by omega⟩, by omega⟩
  simp only [pollSizedData, get_bind, hlookup]
  cases hread : stream.data.pollRead len read with
  | pending => exact .ok (h.sameSend ⟨rfl, rfl, rfl, fun _ => rfl⟩)
  | ready result =>
    cases result with
    | none => exact .err ⟨⟨_, rfl⟩, h⟩
    | some bytes =>
      have hlen := length_pollRead hread
      cases bytes with
      | nil => exact .ok ⟨[], hallowed rfl rfl hlen, (p.take_zero id).symm ▸ h⟩
      | cons b bytes =>
        have hends := (h.take (n := (b :: bytes).length) hlookup (by omega) (by omega)).bind
          (f := fun _ s' => .ok (DataReadState.ready (dataFrame id (b :: bytes))) s') (R := AfterRead p id)
          fun _ s' hs' => .ok ⟨b :: bytes, hallowed rfl rfl hlen, hs'⟩
        rw [bind_apply, Outcome.bind_bind] at hends
        exact hends.mono (fun _ _ h => h) fun _ _ h => h.elim

/-- A body is read within the windows. -/
theorem triple_pollReadBody (id : StreamId) (read : BodyRead) :
    Triple (Fits p) (pollReadBody id read) (AfterRead p id)
      fun stop s => (∃ e, stop = .error (.h2 e)) ∧ Fits p s := by
  intro s hs
  simp only [pollReadBody, get_bind]
  cases hlookup : s.streamMap.lookup id with
  | none => exact .err ⟨⟨_, rfl⟩, hs⟩
  | some stream =>
    simp only [Method.ite_apply]
    split
    · exact .ok hs
    · split
      · exact .ok (hs.sameSend ⟨rfl, rfl, rfl, fun _ => rfl⟩)
      next hstream =>
        simp only [get_bind, Method.ite_apply]
        split
        · exact .ok (hs.sameSend ⟨rfl, rfl, rfl, fun _ => rfl⟩)
        next hconn =>
          have hstreamSize := SendWindow.sizeAvailable_eq hstream
          have hconnSize : (s.flowControl.sendSizeAvailable : Int) = p.conn :=
            (SendWindow.sizeAvailable_eq hconn).trans hs.conn
          apply ends_pollSizedData read hs hlookup
          · omega
          · omega

/-! ### Requests -/

theorem triple_generateId :
    Triple (Fits p) generateId (fun id s => Fits p s ∧ p.credit id = none ∧ id < s.nextStreamId)
      fun stop s => stop = .connection .protocolError ∧ Fits p s := by
  intro s hs
  simp only [generateId, get_bind, Method.ite_apply]
  split
  next hlt =>
    have hnext := lt_next hlt
    refine .ok ⟨{ hs with fresh := ?_ }, hs.fresh _ (UInt32.le_refl _), hnext⟩
    intro id hid
    exact hs.fresh id (UInt32.le_of_lt (UInt32.lt_of_lt_of_le hnext hid))
  next => exact .err ⟨rfl, hs⟩

theorem Fits.insert (h : Fits p s) (hid : id < s.nextStreamId) (headers : HeadersFrame) (data : BodyDataRef) :
    Fits (p.openStream id) (Streams.insert id headers data s) := by
  have hinitial := h.initial_lt
  refine h.setStream hid ?_ (by decide) (by omega)
  change asI32 s.streamSendWindowSize = p.initial + 0
  rw [h.initial, asI32_of_lt hinitial, Int.add_zero]

end Streams

end YlongHttp.Client.H2
