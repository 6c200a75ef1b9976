/-
Admission of streams.

A stream is admitted when it leaves the queue `pendingConcurrency`, or at once if there is room,
and it counts until it is closed. `active` are the streams that have been admitted and are not
closed. `Placed` says that the counter is their number, and where the streams are: a stream that
waits for its admission is idle, a stream in another queue does not wait, and a stream that is
idle waits or is about to send its HEADERS frame.
-/

import YlongHttp.Client.H2.ConnWindow

namespace YlongHttp.Client.H2

open YlongHttp.H2 Rust Method List

namespace Streams

/-! ### Streams that count -/

/-- The state of a stream, and the id in the HEADERS frame that it has still to send. -/
def entry (s : Streams) (id : StreamId) : Option (H2StreamState × Option StreamId) :=
  (s.streamMap.lookup id).map fun stream => (stream.state, stream.header.map HeadersFrame.id)

def isOpen (s : Streams) (id : StreamId) : Bool := (s.entry id).any fun e => !e.1.isClosed

/-- The streams that have been admitted for sending and are not closed. -/
def active (s : Streams) : Finset StreamId :=
  s.streamMap.keys.toFinset.filter fun id => id ∉ s.pendingConcurrency ∧ s.isOpen id

variable {s : Streams} {id : StreamId} {stream : Stream} {s' : Streams} {n : Nat}

theorem entry_of_lookup (hlookup : s.streamMap.lookup id = some stream) :
    s.entry id = some (stream.state, stream.header.map HeadersFrame.id) := by
  rw [entry, hlookup, Option.map_some]

theorem isOpen_iff :
    s.isOpen id = true ↔ ∃ state header, s.entry id = some (state, header) ∧ state.isClosed = false := by
  rw [isOpen]
  cases s.entry id with
  | none => simp
  | some e =>
    obtain ⟨state, header⟩ := e
    simp

theorem mem_active : id ∈ s.active ↔ id ∉ s.pendingConcurrency ∧ s.isOpen id = true := by
  rw [active, Finset.mem_filter, mem_toFinset]
  refine ⟨fun h => h.2, fun h => ⟨?_, h⟩⟩
  obtain ⟨state, header, hentry, -⟩ := isOpen_iff.mp h.2
  obtain ⟨stream, hlookup, -⟩ := Option.map_eq_some_iff.mp hentry
  exact AList.lookup_isSome.mp (by rw [hlookup]; rfl)

theorem entry_setStream (s : Streams) (id : StreamId) (stream : Stream) (other : StreamId) :
    (s.setStream id stream).entry other =
      if other = id then some (stream.state, stream.header.map HeadersFrame.id) else s.entry other := by
  by_cases heq : other = id
  · subst heq
    rw [if_pos rfl, entry, setStream, AList.lookup_insert]
    rfl
  · rw [if_neg heq, entry, setStream, AList.lookup_insert_ne heq]
    rfl

theorem isOpen_setStream (s : Streams) (id : StreamId) (stream : Stream) (other : StreamId) :
    (s.setStream id stream).isOpen other = if other = id then !stream.state.isClosed else s.isOpen other := by
  rw [isOpen, entry_setStream]
  split <;> rfl

theorem active_setStream_of_closed (h : id ∈ s.pendingConcurrency ∨ stream.state.isClosed = true) :
    (s.setStream id stream).active = s.active.erase id := by
  ext other
  rw [Finset.mem_erase, mem_active, mem_active, isOpen_setStream]
  by_cases heq : other = id
  · subst heq
    simp only [if_true, ne_eq, not_true_eq_false, false_and, iff_false, not_and]
    intro hnot
    rcases h with hwaits | hclosed
    · exact absurd hwaits hnot
    · simp [hclosed]
  · rw [if_neg heq]
    exact ⟨fun h => ⟨heq, h⟩, fun h => h.2⟩

theorem active_setStream_of_open (hwaits : id ∉ s.pendingConcurrency)
    (hopen : stream.state.isClosed = false) : (s.setStream id stream).active = Insert.insert id s.active := by
  ext other
  rw [Finset.mem_insert, mem_active, mem_active, isOpen_setStream]
  by_cases heq : other = id
  · subst heq
    simp only [if_true, hopen, Bool.not_false, and_true, true_or, iff_true]
    exact hwaits
  · rw [if_neg heq]
    exact ⟨.inr, fun h => h.resolve_left heq⟩

/-! ### Where the streams are -/

/-- The streams that have something to send. -/
def queues (s : Streams) : List StreamId := s.pendingSend ++ s.pendingStreamWindow ++ s.pendingConnWindow

/-- `gone` is set when the peer has sent a GOAWAY frame, which closes streams that wait. `serving` is
the stream that is just being served, and the next `n` streams of the queue are served after it. -/
structure Placed (gone : Bool) (serving : Option StreamId) (n : Nat) (s : Streams) : Prop where
  counted : s.currentConcurrentStreams = s.active.card
  fresh : ∀ id, s.nextStreamId ≤ id → s.entry id = none
  nodup : s.pendingConcurrency.Nodup
  waiting : ∀ id ∈ s.pendingConcurrency, ∃ state header, s.entry id = some (state, header) ∧
    (state = .idle ∨ gone = true ∧ state.isClosed = true)
  queued : ∀ id ∈ s.queues, (s.entry id).isSome ∧ id ∉ s.pendingConcurrency
  named : ∀ id state header, s.entry id = some (state, some header) → header = id
  idle : ∀ id header, s.entry id = some (.idle, header) →
    serving = some id ∨ header = some id ∧ (id ∈ s.pendingConcurrency ∨ id ∈ s.pendingSend.take n)

/-- The streams keep their states and places; a stream that is queued is known and does not wait. -/
structure Shuffles (s s' : Streams) : Prop where
  count : s'.currentConcurrentStreams = s.currentConcurrentStreams
  next : s'.nextStreamId = s.nextStreamId
  waiting : s'.pendingConcurrency = s.pendingConcurrency
  entries : ∀ id, s'.entry id = s.entry id
  send : ∃ extra, s'.pendingSend = s.pendingSend ++ extra
  queues : ∀ id ∈ s'.queues, id ∈ s.queues ∨ (s.entry id).isSome ∧ id ∉ s.pendingConcurrency

instance : IsPreorder Streams Shuffles where
  refl s := ⟨rfl, rfl, rfl, fun _ => rfl, ⟨[], (List.append_nil _).symm⟩, fun _ h => .inl h⟩
  trans s s' s'' h h' := by
    obtain ⟨extra, hextra⟩ := h.send
    obtain ⟨extra', hextra'⟩ := h'.send
    refine ⟨h'.count.trans h.count, h'.next.trans h.next, h'.waiting.trans h.waiting,
      fun id => (h'.entries id).trans (h.entries id), ⟨extra ++ extra', ?_⟩, fun id hid => ?_⟩
    · rw [hextra', hextra, List.append_assoc]
    · rcases h'.queues id hid with hmem | hnew
      · exact h.queues id hmem
      · rw [h.entries, h.waiting] at hnew
        exact .inr hnew

theorem Shuffles.active_eq (h : Shuffles s s') : s'.active = s.active := by
  ext id
  rw [mem_active, mem_active, isOpen, isOpen, h.waiting, h.entries]

theorem Placed.shuffles {gone : Bool} {serving : Option StreamId}
    (h : Placed gone serving n s) (hs : Shuffles s s') : Placed gone serving n s' := by
  constructor
  · rw [hs.count, hs.active_eq, h.counted]
  · intro id hid
    rw [hs.entries]
    exact h.fresh id (hs.next ▸ hid)
  · rw [hs.waiting]
    exact h.nodup
  · intro id hid
    rw [hs.entries]
    exact h.waiting id (hs.waiting ▸ hid)
  · intro id hid
    rw [hs.entries, hs.waiting]
    rcases hs.queues id hid with hmem | hnew
    · exact h.queued id hmem
    · exact hnew
  · intro id state header hentry
    exact h.named id state header ((hs.entries id).symm.trans hentry)
  · intro id header hentry
    rw [hs.entries] at hentry
    rw [hs.waiting]
    refine (h.idle id header hentry).imp_right fun ⟨hheader, hplace⟩ => ⟨hheader, hplace.imp_right fun hmem => ?_⟩
    obtain ⟨extra, hextra⟩ := hs.send
    rw [hextra, take_append]
    exact mem_append_left _ hmem

end Streams

/-! ### Windows -/

/-- The error is not an underflow of the counter, and does not reset a stream that waits. -/
structure Stop.Spares (waiting : List StreamId) (stop : Stop) : Prop where
  counter : stop ≠ .overflow .concurrency
  stream : ∀ id code, stop = .stream id code → id ∉ waiting

variable {waiting : List StreamId}

theorem Stop.spares_connection {code : ErrorCode} : Stop.Spares waiting (.connection code) := ⟨nofun, nofun⟩

theorem Stop.spares_stream {id : StreamId} {code : ErrorCode} (h : id ∉ waiting) :
    Stop.Spares waiting (.stream id code) := by
  refine ⟨nofun, ?_⟩
  rintro _ _ ⟨⟩
  exact h

open Stop (Spares)

namespace SendWindow

variable (size : Nat)

theorem keeps_increaseSize : Keeps Unrelated (Spares waiting) (increaseSize size) := by
  refine .get_bind fun w => .ite (.throw ⟨nofun, nofun⟩) ?_
  exact .ite (.throw ⟨nofun, nofun⟩) fun _ => .ok trivial

theorem keeps_reduceSize : Keeps Unrelated (Spares waiting) (reduceSize size) := by
  have hoff : Spares waiting (.overflow .sendWindow) := ⟨nofun, nofun⟩
  exact .get_bind fun w => .bind (keeps_i32 hoff _) fun _ _ => .ok trivial

theorem keeps_sendData : Keeps Unrelated (Spares waiting) (sendData size) := keeps_reduceSize size

end SendWindow

namespace Stream

def SamePlace (stream stream' : Stream) : Prop := stream'.state = stream.state ∧ stream'.header = stream.header

instance : IsPreorder Stream SamePlace where
  refl _ := ⟨rfl, rfl⟩
  trans _ _ _ h h' := ⟨h'.1.trans h.1, h'.2.trans h.2⟩

theorem samePlace_onSendWindow {α : Type} {m : Method SendWindow Stop α} (h : Keeps Unrelated (Spares waiting) m) :
    Keeps SamePlace (Spares waiting) (onSendWindow m) :=
  h.onField fun _ _ _ => ⟨rfl, rfl⟩

end Stream

namespace Streams

variable {s s' : Streams} {id : StreamId} {stream stream' : Stream} {serving' : Option StreamId}

section

variable (hcount : s'.currentConcurrentStreams = s.currentConcurrentStreams)
  (hnext : s'.nextStreamId = s.nextStreamId) (hwaiting : s'.pendingConcurrency = s.pendingConcurrency)
  (hmap : s'.streamMap = s.streamMap)

include hcount hnext hwaiting hmap

theorem Shuffles.of_queues (hsend : ∃ extra, s'.pendingSend = s.pendingSend ++ extra)
    (hqueues : ∀ id ∈ s'.queues, id ∈ s.queues ∨ (s.entry id).isSome ∧ id ∉ s.pendingConcurrency) : Shuffles s s' :=
  ⟨hcount, hnext, hwaiting, fun id => by rw [entry, hmap, entry], hsend, hqueues⟩

theorem Shuffles.of_eq (hsend : s'.pendingSend = s.pendingSend) (hqueues : s'.queues = s.queues) : Shuffles s s' :=
  .of_queues hcount hnext hwaiting hmap ⟨[], by rw [hsend, append_nil]⟩ fun id hid => .inl (hqueues ▸ hid)

end

theorem Shuffles.setStream (hlookup : s.streamMap.lookup id = some stream) (h : Stream.SamePlace stream stream') :
    Shuffles s (s.setStream id stream') := by
  refine ⟨rfl, rfl, rfl, fun other => ?_, ⟨[], (append_nil _).symm⟩, fun _ h => .inl h⟩
  rw [entry_setStream]
  split
  next heq => rw [heq, entry_of_lookup hlookup, h.1, h.2]
  next => rfl

theorem recvFree_shuffles : RecvFree Stream.SamePlace Shuffles (Spares waiting) where
  lift hlookup h := .setStream hlookup h
  stream _ _ := ⟨rfl, rfl⟩
  conn _ := .of_eq rfl rfl rfl rfl rfl rfl
  initial _ _ := .of_eq rfl rfl rfl rfl rfl rfl
  overflow := ⟨nofun, nofun⟩
  connection _ := ⟨nofun, nofun⟩

theorem shuffles_modify {f : Streams → Streams} (h : ∀ s, Shuffles s (f s)) :
    Keeps Shuffles (Spares waiting) (modify f : Method Streams Stop PUnit) :=
  .modify h

variable (size : Nat) (eos : Bool)

theorem shuffles_applySendInitialWindowSize : Keeps Shuffles (Spares waiting) (applySendInitialWindowSize size) := by
  refine .get_bind fun s => .bind (.modify fun _ => .of_eq rfl rfl rfl rfl rfl rfl) fun _ => ?_
  refine .ite (.bind (recvFree_shuffles.keeps_forStreams ?_) fun _ => .modify fun s => ?_) ?_
  · exact Stream.samePlace_onSendWindow (SendWindow.keeps_increaseSize _)
  · refine .of_queues rfl rfl rfl rfl ⟨_, rfl⟩ fun id hid => .inl ?_
    simpa [queues] using hid
  · refine .ite (recvFree_shuffles.keeps_forStreams ?_) (.pure _)
    exact Stream.samePlace_onSendWindow (SendWindow.keeps_reduceSize _)

theorem shuffles_onFlowControl {α : Type} {m : Method FlowControl Stop α} (h : Keeps Unrelated (Spares waiting) m) :
    Keeps Shuffles (Spares waiting) (onFlowControl m) :=
  h.onField fun _ _ _ => .of_eq rfl rfl rfl rfl rfl rfl

theorem shuffles_increaseConnSendWindow : Keeps Shuffles (Spares waiting) (increaseConnSendWindow size) := by
  refine shuffles_onFlowControl ?_
  exact (SendWindow.keeps_increaseSize size).onField fun _ _ _ => trivial

theorem shuffles_reassignConnSendWindow (s : Streams) : Shuffles s (reassignConnSendWindow s) := by
  refine .of_queues rfl rfl rfl rfl ⟨_, rfl⟩ fun id hid => .inl ?_
  simp only [queues, reassignConnSendWindow, append_nil, mem_append] at hid ⊢
  tauto

theorem shuffles_takePendingStreamWindow (id : StreamId) (s : Streams) : Shuffles s (takePendingStreamWindow id s) := by
  rw [takePendingStreamWindow]
  split
  next hmem =>
    refine .of_queues rfl rfl rfl rfl ⟨_, rfl⟩ fun other hother => .inl ?_
    simp only [queues, pushBackPendingSend, mem_append, mem_singleton, mem_filter] at hother ⊢
    rcases hother with ((hsend | rfl) | hwindow) | hconn
    · exact .inl (.inl hsend)
    · exact .inl (.inr hmem)
    · exact .inl (.inr hwindow.1)
    · exact .inr hconn
  next => exact refl s

theorem shuffles_reassignStreamSendWindow (id : StreamId) (size : Nat) :
    Keeps Shuffles (Spares waiting) (reassignStreamSendWindow id size) := by
  intro s
  simp only [reassignStreamSendWindow, get_bind]
  have htake : Keeps Shuffles (Spares waiting) (modify (takePendingStreamWindow id) : Method Streams Stop PUnit) :=
    shuffles_modify (shuffles_takePendingStreamWindow id)
  cases hlookup : s.streamMap.lookup id with
  | none => exact htake s
  | some stream =>
    refine (recvFree_shuffles.ends_onStream (Stream.samePlace_onSendWindow (SendWindow.keeps_increaseSize size)) hlookup).bind ?_
    exact fun _ _ h => Keeps.after h htake

/-! ### Changes of states -/

variable {gone : Bool} {serving : Option StreamId} {n : Nat} {s : Streams}

/-- The stream is closed. -/
def Closed (s : Streams) (id : StreamId) : Prop :=
  ∃ state header, s.entry id = some (state, header) ∧ state.isClosed = true

/-- No stream gets lost or is opened again, and none starts or ends waiting. -/
structure Onward (s s' : Streams) : Prop where
  waiting : s'.pendingConcurrency = s.pendingConcurrency
  known : ∀ id, (s.entry id).isSome → (s'.entry id).isSome
  closed : ∀ id, s.Closed id → s'.Closed id

instance : IsPreorder Streams Onward where
  refl _ := ⟨rfl, fun _ h => h, fun _ h => h⟩
  trans _ _ _ h h' :=
    ⟨h'.waiting.trans h.waiting, fun id hid => h'.known id (h.known id hid), fun id hid => h'.closed id (h.closed id hid)⟩

theorem Shuffles.onward (h : Shuffles s s') : Onward s s' := by
  refine ⟨h.waiting, fun id hid => ?_, fun id hid => ?_⟩
  · rw [h.entries]
    exact hid
  · rw [Closed, h.entries]
    exact hid

theorem Onward.setStream (hlookup : s.streamMap.lookup id = some stream)
    (hclosed : stream.state.isClosed = true → stream'.state.isClosed = true) (count : Nat) :
    Onward s { s.setStream id stream' with currentConcurrentStreams := count } := by
  have hentry : ∀ other, Streams.entry { s.setStream id stream' with currentConcurrentStreams := count } other =
      if other = id then some (stream'.state, stream'.header.map HeadersFrame.id) else s.entry other :=
    fun other => entry_setStream s id stream' other
  refine ⟨rfl, fun other hother => ?_, fun other hother => ?_⟩
  · rw [hentry]
    split
    · rfl
    · exact hother
  · rw [Closed, hentry]
    split
    next heq =>
      obtain ⟨state, header, hstate, hisClosed⟩ := hother
      cases (entry_of_lookup hlookup).symm.trans (heq ▸ hstate)
      exact ⟨_, _, rfl, hclosed hisClosed⟩
    next => exact hother

/-- A stream gets another state; one that waits is closed. -/
theorem Placed.setStream
    (h : Placed gone serving n s) (hwaits : id ∈ s.pendingConcurrency → gone = true ∧ stream'.state.isClosed = true)
    (hlookup : s.streamMap.lookup id = some stream) (hheader : stream'.header = stream.header ∨ stream'.header = none)
    (hidle : stream'.state = .idle → serving' = some id) (hserving : ∀ other ≠ id, serving = some other → serving' = some other)
    (count : Nat) (hcount : count = (s.setStream id stream').active.card) :
    Placed gone serving' n { s.setStream id stream' with currentConcurrentStreams := count } := by
  have hself : (s.setStream id stream').entry id = some (stream'.state, stream'.header.map HeadersFrame.id) := by
    rw [entry_setStream, if_pos rfl]
  have hother : ∀ other ≠ id, (s.setStream id stream').entry other = s.entry other :=
    fun other hne => by rw [entry_setStream, if_neg hne]
  constructor
  · exact hcount
  · intro other hfresh
    have hne : other ≠ id := by
      rintro rfl
      cases (entry_of_lookup hlookup).symm.trans (h.fresh other hfresh)
    exact (hother other hne).trans (h.fresh other hfresh)
  · exact h.nodup
  · intro other hmem
    by_cases heq : other = id
    · subst heq
      exact ⟨_, _, hself, .inr (hwaits hmem)⟩
    · obtain ⟨state, header, hentry, hstate⟩ := h.waiting other hmem
      exact ⟨state, header, (hother other heq).trans hentry, hstate⟩
  · intro other hmem
    obtain ⟨hsome, hnot⟩ := h.queued other hmem
    refine ⟨?_, hnot⟩
    change ((s.setStream id stream').entry other).isSome
    by_cases heq : other = id
    · rw [heq, hself]
      rfl
    · rw [hother other heq]
      exact hsome
  · intro other state header hentry
    by_cases heq : other = id
    · obtain ⟨-, hmap⟩ := Prod.mk.inj (Option.some.inj (hself.symm.trans (heq ▸ hentry)))
      rcases hheader with hsame | hnone
      · rw [hsame] at hmap
        refine h.named other stream.state header ?_
        rw [heq, entry_of_lookup hlookup, hmap]
      · rw [hnone] at hmap
        cases hmap
    · exact h.named other state header ((hother other heq).symm.trans hentry)
  · intro other header hentry
    by_cases heq : other = id
    · rw [heq] at hentry ⊢
      exact .inl (hidle (congrArg Prod.fst (Option.some.inj (hself.symm.trans hentry))))
    · rcases h.idle other header ((hother other heq).symm.trans hentry) with hserved | hplace
      · exact .inl (hserving other heq hserved)
      · exact .inr hplace

theorem mem_active_of_lookup (hwaits : id ∉ s.pendingConcurrency)
    (hlookup : s.streamMap.lookup id = some stream) (hopen : stream.state.isClosed = false) : id ∈ s.active := by
  exact mem_active.mpr ⟨hwaits, isOpen_iff.mpr ⟨_, _, entry_of_lookup hlookup, hopen⟩⟩

/-- A stream that counts is closed, and the counter goes down. -/
theorem Placed.close (h : Placed gone serving n s)
    (stream' : Stream) (hwaits : id ∉ s.pendingConcurrency) (hlookup : s.streamMap.lookup id = some stream)
    (hheader : stream'.header = stream.header ∨ stream'.header = none) (hopen : stream.state.isClosed = false)
    (hclosed : stream'.state.isClosed = true) (hserving : ∀ other ≠ id, serving = some other → serving' = some other) :
    ∃ s', decreaseCurrentConcurrency (s.setStream id stream') = .ok () s' ∧ Placed gone serving' n s' ∧
      Onward s s' ∧ s'.Closed id := by
  have hactive := mem_active_of_lookup hwaits hlookup hopen
  have hpos : 0 < s.active.card := Finset.card_pos.mpr ⟨id, hactive⟩
  have hcount : s.currentConcurrentStreams - 1 = (s.setStream id stream').active.card := by
    rw [active_setStream_of_closed (.inr hclosed), Finset.card_erase_of_mem hactive, h.counted]
  have hidle : stream'.state ≠ .idle := by
    intro hidle
    rw [hidle] at hclosed
    cases hclosed
  refine ⟨{ s.setStream id stream' with currentConcurrentStreams := s.currentConcurrentStreams - 1 }, ?_, ?_, ?_, ?_⟩
  · have hne : ¬ (s.setStream id stream').currentConcurrentStreams = 0 := by
      change ¬ s.currentConcurrentStreams = 0
      rw [h.counted]
      omega
    simp only [decreaseCurrentConcurrency, get_bind, if_neg hne]
    rfl
  · exact h.setStream (fun h => absurd h hwaits) hlookup hheader (fun h => absurd h hidle) hserving _ hcount
  · exact Onward.setStream hlookup (fun _ => hclosed) _
  · refine ⟨stream'.state, stream'.header.map HeadersFrame.id, ?_, hclosed⟩
    exact (entry_setStream s id stream' id).trans (if_pos rfl)

/-- A stream that does not wait and stays open or closed. -/
theorem Placed.move (h : Placed gone serving n s)
    (hwaits : id ∉ s.pendingConcurrency) (hlookup : s.streamMap.lookup id = some stream)
    (hheader : stream'.header = stream.header ∨ stream'.header = none)
    (hsame : stream'.state.isClosed = stream.state.isClosed) (hidle : stream'.state = .idle → serving' = some id)
    (hserving : ∀ other ≠ id, serving = some other → serving' = some other) :
    Placed gone serving' n (s.setStream id stream') := by
  refine h.setStream (fun h => absurd h hwaits) hlookup hheader hidle hserving s.currentConcurrentStreams ?_
  rw [h.counted]
  cases hclosed : stream.state.isClosed with
  | false =>
    rw [active_setStream_of_open hwaits (hsame.trans hclosed),
      Finset.insert_eq_of_mem (mem_active_of_lookup hwaits hlookup hclosed)]
  | true =>
    have hnot : id ∉ s.active := by
      intro hmem
      obtain ⟨state, header, hentry, hopen⟩ := isOpen_iff.mp (mem_active.mp hmem).2
      cases (entry_of_lookup hlookup).symm.trans hentry
      cases hclosed.symm.trans hopen
    rw [active_setStream_of_closed (.inr (hsame.trans hclosed)), Finset.erase_eq_of_notMem hnot]

/-- A transition takes place only in a stream that is not closed, and leaves none that is idle. A
frame that is not for the state is ignored or is an error of the connection. -/
structure Transition.Proper (next : Transition) : Prop where
  ok : ∀ state state', next state = .ok state' → state.isClosed = false ∧ state' ≠ .idle
  error : ∀ state answer, next state = .error answer → answer = .ignore ∨ answer = .err (.connectionError .protocolError)

theorem proper_sendHeadersNext : Transition.Proper (sendHeadersNext eos) := by
  constructor
  · intro state state' h
    unfold sendHeadersNext at h
    split at h
    all_goals cases h
    all_goals cases eos <;> exact ⟨rfl, nofun⟩
  · intro state answer h
    unfold sendHeadersNext at h
    split at h
    all_goals cases h
    exact .inr rfl

theorem proper_sendDataNext : Transition.Proper (sendDataNext eos) := by
  constructor
  · intro state state' h
    unfold sendDataNext at h
    split at h
    all_goals cases h
    all_goals cases eos <;> exact ⟨rfl, nofun⟩
  · intro state answer h
    unfold sendDataNext at h
    split at h
    all_goals cases h
    exact .inr rfl

theorem proper_recvHeadersNext : Transition.Proper (recvHeadersNext eos) := by
  constructor
  · intro state state' h
    unfold recvHeadersNext at h
    split at h
    all_goals cases h
    all_goals cases eos <;> exact ⟨rfl, nofun⟩
  · intro state answer h
    unfold recvHeadersNext at h
    split at h
    all_goals cases h
    · exact .inl rfl
    · exact .inl rfl
    · exact .inr rfl

theorem proper_recvDataNext : Transition.Proper (recvDataNext eos) := by
  constructor
  · intro state state' h
    unfold recvDataNext at h
    split at h
    all_goals cases h
    all_goals cases eos <;> exact ⟨rfl, nofun⟩
  · intro state answer h
    unfold recvDataNext at h
    split at h
    all_goals cases h
    · exact .inl rfl
    · exact .inl rfl
    · exact .inr rfl

/-- A frame of a stream that does not wait. With a frame that is accepted the stream is not idle any
more. -/
theorem Placed.transition {next : Transition} (hnext : next.Proper)
    (h : Placed gone serving n s) (hwaits : id ∉ s.pendingConcurrency)
    (hserving : ∀ other ≠ id, serving = some other → serving' = some other) :
    ∃ answer s', transition next id s = .ok answer s' ∧ Onward s s' ∧
      (answer = .ok ∧ Placed gone serving' n s' ∧ (s'.entry id).isSome ∨
        (answer = .ignore ∧ (∃ state, next state = .error .ignore) ∨ answer = .err (.connectionError .protocolError)) ∧ s' = s) := by
  simp only [Streams.transition, get_bind]
  cases hlookup : s.streamMap.lookup id with
  | none => exact ⟨_, s, rfl, refl s, .inr ⟨.inr rfl, rfl⟩⟩
  | some stream =>
    dsimp only
    cases hstep : next stream.state with
    | error answer =>
      refine ⟨answer, s, rfl, refl s, .inr ⟨?_, rfl⟩⟩
      rcases hnext.error stream.state answer hstep with rfl | herr
      · exact .inl ⟨rfl, stream.state, hstep⟩
      · exact .inr herr
    | ok state =>
      obtain ⟨hopen, hidle⟩ := hnext.ok stream.state state hstep
      simp only [modify_bind, Streams.setState]
      have honward : Onward s (s.setStream id { stream with state }) :=
        Onward.setStream hlookup (fun hclosed => by cases hopen.symm.trans hclosed) _
      cases hclosed : state.isClosed with
      | false =>
        refine ⟨.ok, _, rfl, honward, .inl ⟨rfl, ?_, by rw [entry_setStream, if_pos rfl]; rfl⟩⟩
        exact h.move hwaits hlookup (.inl rfl) (hclosed.trans hopen.symm) (fun h => absurd h hidle) hserving
      | true =>
        obtain ⟨s', hdecrease, hplaced, honward', state', header, hentry, -⟩ :=
          h.close { stream with state } hwaits hlookup (.inl rfl) hopen hclosed hserving
        refine ⟨.ok, s', ?_, honward', .inl ⟨rfl, hplaced, ?_⟩⟩
        · simp only [if_true, bind_apply, hdecrease]
          rfl
        · rw [hentry]
          rfl

/-- The reset of a stream that does not wait. -/
theorem Placed.endStream (h : Placed gone serving n s)
    (hwaits : id ∉ s.pendingConcurrency) (hlookup : s.streamMap.lookup id = some stream)
    (hopen : stream.state.isClosed = false) (reason : CloseReason) :
    ∃ s', endStream id stream reason s = .ok () s' ∧ Placed gone serving n s' ∧ Onward s s' ∧ s'.Closed id :=
  h.close (stream.close reason) hwaits hlookup (.inr rfl) hopen rfl fun _ _ h => h

theorem Placed.sendLocalReset (h : Placed gone serving n s) (hwaits : id ∉ s.pendingConcurrency) :
    ∃ answer s', sendLocalReset id s = .ok answer s' ∧ Placed gone serving n s' ∧ Onward s s' ∧
      (answer = .ok → s'.Closed id) := by
  simp only [Streams.sendLocalReset, get_bind]
  cases hlookup : s.streamMap.lookup id with
  | none => exact ⟨_, s, rfl, h, refl s, nofun⟩
  | some stream =>
    dsimp only
    cases hclosed : stream.state.isClosed with
    | true =>
      obtain ⟨reason, hstate⟩ : ∃ reason, stream.state = .closed reason := by
        cases hstate : stream.state with
        | closed reason => exact ⟨reason, rfl⟩
        | _ =>
          rw [hstate] at hclosed
          cases hclosed
      rw [hstate]
      cases reason with
      | endStream =>
        refine ⟨_, _, rfl, ?_, Onward.setStream hlookup (fun _ => rfl) _, nofun⟩
        exact h.move hwaits hlookup (.inl rfl) hclosed.symm nofun fun _ _ h => h
      | _ => exact ⟨_, s, rfl, h, refl s, nofun⟩
    | false =>
      obtain ⟨s', hend, hplaced, honward, hended⟩ := h.endStream hwaits hlookup hclosed .localRst
      refine ⟨.ok, s', ?_, hplaced, honward, fun _ => hended⟩
      cases hstate : stream.state with
      | closed reason =>
        rw [hstate] at hclosed
        cases hclosed
      | _ =>
        simp only [bind_apply, hend]
        rfl

theorem Placed.recvRemoteReset (h : Placed gone serving n s) (hwaits : id ∉ s.pendingConcurrency) :
    ∃ answer s', recvRemoteReset id s = .ok answer s' ∧ Placed gone serving n s' ∧ Onward s s' ∧
      (answer = .ok → s'.Closed id) ∧ ∀ e, answer = .err e → e = .connectionError .protocolError := by
  simp only [Streams.recvRemoteReset, get_bind, Method.ite_apply]
  split
  · exact ⟨_, s, rfl, h, refl s, nofun, nofun⟩
  · cases hlookup : s.streamMap.lookup id with
    | none =>
      refine ⟨_, s, rfl, h, refl s, nofun, ?_⟩
      rintro e ⟨⟩
      rfl
    | some stream =>
      simp only [Method.ite_apply]
      split
      next => exact ⟨_, s, rfl, h, refl s, nofun, nofun⟩
      next hopen =>
        obtain ⟨s', hend, hplaced, honward, hended⟩ :=
          h.endStream hwaits hlookup (Bool.eq_false_iff.mpr hopen) .remoteRst
        refine ⟨.ok, s', ?_, hplaced, honward, fun _ => hended, nofun⟩
        simp only [bind_apply, hend]
        rfl

/-! ### Ends of the connection -/

theorem Placed.weaken {gone' : Bool} {n' : Nat} (h : Placed gone serving n s) (hgone : gone = true → gone' = true)
    (hn : n ≤ n') : Placed gone' serving n' s := by
  refine ⟨h.counted, h.fresh, h.nodup, fun id hid => ?_, h.queued, h.named, fun id header hentry => ?_⟩
  · obtain ⟨state, header, hentry, hstate⟩ := h.waiting id hid
    exact ⟨state, header, hentry, hstate.imp_right fun hclosed => ⟨hgone hclosed.1, hclosed.2⟩⟩
  · refine (h.idle id header hentry).imp_right fun ⟨hheader, hplace⟩ => ⟨hheader, hplace.imp_right fun hmem => ?_⟩
    exact take_subset_take_left _ hn hmem

/-- A stream that waits is closed without a change of the counter. -/
theorem Placed.closeWaiting (h : Placed true serving n s) (hwaits : id ∈ s.pendingConcurrency)
    (hlookup : s.streamMap.lookup id = some stream) (reason : CloseReason) :
    Placed true serving n (s.setStream id (stream.close reason)) := by
  have hactive : id ∉ s.active := fun hmem => (mem_active.mp hmem).1 hwaits
  have hidle : (stream.close reason).state ≠ .idle := H2StreamState.noConfusion
  refine h.setStream (fun _ => ⟨rfl, rfl⟩) hlookup (.inr rfl) (fun h => absurd h hidle) (fun _ _ h => h) _ ?_
  rw [active_setStream_of_closed (.inl hwaits), Finset.erase_eq_of_notMem hactive]
  exact h.counted

/-- The streams that a GOAWAY frame closes: those that wait do not count. -/
theorem Placed.unsetStreams (lastStreamId : StreamId) :
    ∀ (ids : List StreamId) {s : Streams}, Placed true none 0 s →
      ∃ unset s', unsetStreams lastStreamId ids s = .ok unset s' ∧ Placed true none 0 s' ∧ Onward s s' ∧
        ∀ id ∈ unset, s'.Closed id
  | [], s, h => ⟨[], s, rfl, h, refl s, nofun⟩
  | id :: ids, s, h => by
    have hrest : ∀ {mid : Streams}, Placed true none 0 mid → Onward s mid → mid.Closed id →
        ∃ unset s', (do return id :: (← Streams.unsetStreams lastStreamId ids) : Method Streams Stop (List StreamId)) mid =
          .ok unset s' ∧ Placed true none 0 s' ∧ Onward s s' ∧ ∀ id ∈ unset, s'.Closed id := by
      intro mid hmid honward hclosed
      obtain ⟨unset, s', hcall, hplaced, honward', hunset⟩ := Placed.unsetStreams lastStreamId ids hmid
      refine ⟨id :: unset, s', ?_, hplaced, IsTrans.trans _ _ _ honward honward', ?_⟩
      · simp only [bind_apply, hcall]
        rfl
      · intro other hmem
        rcases mem_cons.mp hmem with rfl | hmem
        · exact honward'.closed other hclosed
        · exact hunset other hmem
    simp only [Streams.unsetStreams, Method.ite_apply]
    split
    · exact Placed.unsetStreams lastStreamId ids h
    · simp only [get_bind]
      cases hlookup : s.streamMap.lookup id with
      | none => exact Placed.unsetStreams lastStreamId ids h
      | some stream =>
        have hentry := entry_of_lookup hlookup
        have hcounts : stream.state ≠ .idle → stream.state.isClosed = false → ∃ unset s',
            (do
              Streams.endStream id stream .remoteGoAway
              return id :: (← Streams.unsetStreams lastStreamId ids) : Method Streams Stop (List StreamId)) s =
            .ok unset s' ∧ Placed true none 0 s' ∧ Onward s s' ∧ ∀ id ∈ unset, s'.Closed id := by
          intro hidle hopen
          have hwaits : id ∉ s.pendingConcurrency := by
            intro hmem
            obtain ⟨state, header, hentry', hstate⟩ := h.waiting id hmem
            cases hentry.symm.trans hentry'
            rcases hstate with heq | ⟨-, hclosed⟩
            · exact hidle heq
            · cases hopen.symm.trans hclosed
          obtain ⟨mid, hend, hplaced, honward, hclosed⟩ := h.endStream hwaits hlookup hopen .remoteGoAway
          obtain ⟨unset, s', hcall, hresult⟩ := hrest hplaced honward hclosed
          refine ⟨unset, s', ?_, hresult⟩
          rw [bind_apply, hend]
          exact hcall
        dsimp only
        cases hstate : stream.state with
        | closed reason =>
          refine hrest h (refl s) ⟨_, _, hentry, ?_⟩
          rw [hstate]
          rfl
        | idle =>
          have hwaits : id ∈ s.pendingConcurrency := by
            rcases h.idle id _ (hstate ▸ hentry) with hserved | ⟨-, hmem | hmem⟩
            · cases hserved
            · exact hmem
            · cases hmem
          have honward : Onward s (s.setStream id (stream.close .remoteGoAway)) :=
            Onward.setStream hlookup (fun _ => rfl) _
          refine hrest (h.closeWaiting hwaits hlookup .remoteGoAway) honward ⟨.closed .remoteGoAway, none, ?_, rfl⟩
          rw [entry_setStream, if_pos rfl]
          rfl
        | _ => exact hcounts (by rw [hstate]; exact nofun) (by rw [hstate]; rfl)

/-- All streams are closed. -/
def AllClosed (s : Streams) : Prop := ∀ id, (s.entry id).isSome → s.Closed id

theorem closeStreams_closes : ∀ (ids : List StreamId) (s : Streams),
      (∀ id ∈ ids, (s.entry id).isSome → (closeStreams ids s).2.Closed id) ∧
        (∀ id, s.Closed id → (closeStreams ids s).2.Closed id) ∧
        ∀ id, ((closeStreams ids s).2.entry id).isSome = (s.entry id).isSome
  | [], s => ⟨nofun, fun _ h => h, fun _ => rfl⟩
  | id :: ids, s => by
    rw [closeStreams]
    cases hlookup : s.streamMap.lookup id with
    | none =>
      obtain ⟨hids, hclosed, hsome⟩ := closeStreams_closes ids s
      refine ⟨fun other hmem hknown => ?_, hclosed, hsome⟩
      rcases mem_cons.mp hmem with rfl | hmem
      · rw [entry, hlookup] at hknown
        cases hknown
      · exact hids other hmem hknown
    | some stream =>
      have hentry := entry_of_lookup hlookup
      dsimp only
      split
      next hstate =>
        obtain ⟨hids, hclosed, hsome⟩ := closeStreams_closes ids s
        refine ⟨fun other hmem hknown => ?_, hclosed, hsome⟩
        rcases mem_cons.mp hmem with rfl | hmem
        · exact hclosed other ⟨_, _, hentry, hstate⟩
        · exact hids other hmem hknown
      next =>
        obtain ⟨hids, hclosed, hsome⟩ := closeStreams_closes ids (s.setStream id (stream.close .localGoAway))
        have honward : Onward s (s.setStream id (stream.close .localGoAway)) :=
          Onward.setStream hlookup (fun _ => rfl) _
        refine ⟨fun other hmem hknown => ?_, fun other h => hclosed other (honward.closed other h), fun other => ?_⟩
        · rcases mem_cons.mp hmem with rfl | hmem
          · refine hclosed other ⟨.closed .localGoAway, none, ?_, rfl⟩
            rw [entry_setStream, if_pos rfl]
            rfl
          · exact hids other hmem (honward.known other hknown)
        · rw [hsome, entry_setStream]
          split
          next heq =>
            rw [heq, hentry]
            rfl
          next => rfl

/-- The end of the connection closes all streams. -/
theorem allClosed_getAllUnclosedStreams (s : Streams) : s.getAllUnclosedStreams.2.AllClosed := by
  obtain ⟨hids, -, hsome⟩ := closeStreams_closes s.streamMap.keys s
  intro id hknown
  have hbefore : (s.entry id).isSome := (hsome id).symm.trans hknown
  refine hids id ?_ hbefore
  rw [entry, Option.isSome_map] at hbefore
  exact AList.lookup_isSome.mp hbefore

variable {state : H2StreamState}

theorem Closed.streamState (h : s.Closed id) (hstate : s.streamState id = some state) : state.isClosed = true := by
  obtain ⟨state', header, hentry, hclosed⟩ := h
  obtain ⟨stream, hlookup, rfl⟩ := Option.map_eq_some_iff.mp hstate
  cases (entry_of_lookup hlookup).symm.trans hentry
  exact hclosed

theorem isSome_entry_of_streamState (hstate : s.streamState id = some state) : (s.entry id).isSome := by
  obtain ⟨stream, hlookup, -⟩ := Option.map_eq_some_iff.mp hstate
  rw [entry, hlookup]
  rfl

end Streams

end YlongHttp.Client.H2
