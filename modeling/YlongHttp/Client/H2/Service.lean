/-
Service of streams.

The streams in the queue are served one after the other: a stream sends its HEADERS frame, after
which it is not idle, and then its body as far as the windows allow. A new stream is admitted or
waits, and streams that wait are admitted when there is room. All of this keeps the streams
`Placed`.
-/

import YlongHttp.Client.H2.Admission

namespace YlongHttp.Client.H2

open YlongHttp.H2 Rust List

namespace Streams

variable {gone : Bool} {serving : Option StreamId} {n : Nat} {s : Streams}

/-! ### Service -/

/-- The stream that is taken from the queue. -/
structure Due (s : Streams) (id : StreamId) : Prop where
  known : (s.entry id).isSome
  admitted : id ∉ s.pendingConcurrency
  header : ∀ header, s.entry id = some (.idle, header) → header = some id

variable {id : StreamId} {s' : Streams}

/-- Outside of service an idle stream has its headers, and waits or is next. -/
theorem Placed.atRest {header : Option StreamId} (h : Placed gone none n s)
    (hentry : s.entry id = some (.idle, header)) :
    header = some id ∧ (id ∈ s.pendingConcurrency ∨ id ∈ s.pendingSend.take n) := by
  rcases h.idle id header hentry with hserving | hrest
  · cases hserving
  · exact hrest

theorem Placed.of_pendingSend_nil (h : Placed gone serving n s) (hnil : s.pendingSend = []) : Placed gone serving 0 s := by
  refine { h with idle := fun id header hentry => ?_ }
  have hplace := h.idle id header hentry
  rwa [hnil, take_nil] at hplace

/-- The stream at the front of the queue is served next. -/
theorem Placed.nextPending {ids : List StreamId} (h : Placed gone none (n + 1) s)
    (hcons : s.pendingSend = id :: ids) :
    Placed gone (some id) n { s with pendingSend := ids } ∧ Due { s with pendingSend := ids } id := by
  have hmem : id ∈ s.queues := by
    rw [queues, hcons]
    exact mem_append_left _ (mem_append_left _ mem_cons_self)
  obtain ⟨hknown, hwaits⟩ := h.queued id hmem
  have hidle : ∀ other header, s.entry other = some (.idle, header) →
      header = some other ∧ (other ∈ s.pendingConcurrency ∨ other = id ∨ other ∈ ids.take n) := by
    intro other header hentry
    have hplace := h.atRest hentry
    rwa [hcons, take_succ_cons, mem_cons] at hplace
  constructor
  · refine ⟨h.counted, h.fresh, h.nodup, h.waiting, fun other hother => ?_, h.named, fun other header hentry => ?_⟩
    · refine h.queued other ?_
      simp only [queues, hcons, mem_append, mem_cons] at hother ⊢
      tauto
    · obtain ⟨hheader, hplace⟩ := hidle other header hentry
      rcases hplace with hwaits | rfl | hnext
      · exact .inr ⟨hheader, .inl hwaits⟩
      · exact .inl rfl
      · exact .inr ⟨hheader, .inr hnext⟩
  · exact ⟨hknown, hwaits, fun header hentry => (hidle id header hentry).1⟩

/-- A stream that is not idle any more has been served. -/
theorem Placed.served (h : Placed gone (some id) n s) (hidle : ∀ header, s.entry id ≠ some (.idle, header)) :
    Placed gone none n s := by
  refine { h with idle := fun other header hentry => .inr ?_ }
  rcases h.idle other header hentry with heq | hplace
  · cases heq
    exact absurd hentry (hidle header)
  · exact hplace

theorem Placed.headers (h : Placed gone (some id) n s) (hdue : s.Due id) :
    ∃ header s', headers id s = .ok header s' ∧ Onward s s' ∧ match header with
      | none => Placed gone none n s'
      | some frame => frame.id = id ∧ Placed gone (some id) n s' := by
  simp only [Streams.headers, Method.get_bind]
  cases hlookup : s.streamMap.lookup id with
  | none =>
    have hknown := hdue.known
    rw [entry, hlookup] at hknown
    cases hknown
  | some stream =>
    have hentry := entry_of_lookup hlookup
    simp only [Method.ite_apply]
    split
    next hclosed =>
      refine ⟨none, s, rfl, refl s, h.served fun header hidle => ?_⟩
      cases hstate : stream.state with
      | idle =>
        rw [hstate] at hclosed
        cases hclosed
      | _ =>
        rw [hentry, hstate] at hidle
        cases hidle
    next =>
      have honward : Onward s (s.setStream id { stream with header := none }) := by
        have hkept : stream.state.isClosed = true → ({ stream with header := none } : Stream).state.isClosed = true :=
          fun h => h
        exact Onward.setStream hlookup hkept s.currentConcurrentStreams
      have hplaced : Placed gone (some id) n (s.setStream id { stream with header := none }) :=
        h.move hdue.admitted hlookup (.inr rfl) rfl (fun _ => rfl) fun _ _ h => h
      refine ⟨stream.header, _, rfl, honward, ?_⟩
      cases hheader : stream.header with
      | none =>
        -- an idle stream has not sent its headers
        refine hplaced.served fun header hidle => ?_
        rw [entry_setStream, if_pos rfl] at hidle
        obtain ⟨hstate, -⟩ := Prod.mk.inj (Option.some.inj hidle)
        rw [hheader, hstate] at hentry
        cases hdue.header _ hentry
      | some frame =>
        rw [hheader] at hentry
        exact ⟨h.named id stream.state frame.id hentry, hplaced⟩

variable (eos : Bool) (state : H2StreamState)

theorem sendHeadersNext_ne_ignore : sendHeadersNext eos state ≠ .error .ignore := by
  intro h
  unfold sendHeadersNext at h
  split at h
  all_goals cases h

theorem sendDataNext_ne_ignore : sendDataNext eos state ≠ .error .ignore := by
  intro h
  unfold sendDataNext at h
  split at h
  all_goals cases h

section

variable (hknown : (s.entry id).isSome) (hwaits : id ∉ s.pendingConcurrency)

include hknown hwaits

/-- A stream that gets into the queues. -/
theorem queued_or {other : StreamId}
    (h : other ∈ s.queues ∨ other = id) : other ∈ s.queues ∨ (s.entry other).isSome ∧ other ∉ s.pendingConcurrency := by
  rcases h with hmem | rfl
  · exact .inl hmem
  · exact .inr ⟨hknown, hwaits⟩

/-- A DATA frame of the stream `id`. -/
def DataOf (id : StreamId) : DataReadState → Prop
  | .ready frame => frame.id = id ∧ ∃ data, frame.payload = .data data
  | .finish frame => frame.id = id ∧ ∃ data, frame.payload = .data data
  | _ => True

theorem shuffles_pollSizedData (len : Nat) (read : BodyRead) :
    (pollSizedData id len read s).Ends (fun state s' => Shuffles s s' ∧ DataOf id state)
      fun stop s' => stop.Spares s.pendingConcurrency ∧ Shuffles s s' := by
  simp only [pollSizedData, Method.get_bind]
  cases hlookup : s.streamMap.lookup id with
  | none => exact .err ⟨Stop.spares_connection, refl s⟩
  | some stream =>
    dsimp only
    cases stream.data.pollRead len read with
    | pending =>
      refine .ok ⟨.of_queues rfl rfl rfl rfl ⟨_, rfl⟩ fun other hother => queued_or hknown hwaits ?_, trivial⟩
      simp only [queues, pushBackPendingSend, mem_append, mem_singleton] at hother ⊢
      tauto
    | ready result =>
      cases result with
      | none =>
        exact .err ⟨Stop.spares_stream hwaits, refl s⟩
      | some bytes =>
        cases bytes with
        | nil => exact .ok ⟨refl s, rfl, [], rfl⟩
        | cons b bytes =>
          have hsend : Keeps Unrelated (Stop.Spares s.pendingConcurrency) (SendWindow.sendData (b :: bytes).length) :=
            SendWindow.keeps_sendData _
          have hflow : Keeps Shuffles (Stop.Spares s.pendingConcurrency)
              (onFlowControl (FlowControl.sendData (b :: bytes).length)) :=
            shuffles_onFlowControl (hsend.onField fun _ _ _ => trivial)
          refine (recvFree_shuffles.ends_onStream (Stream.samePlace_onSendWindow hsend) hlookup).bind fun _ mid hmid => ?_
          refine (Keeps.after hmid hflow).bind fun _ s' hs' => .ok ⟨hs', rfl, _, rfl⟩

theorem shuffles_pollReadBody (read : BodyRead) :
    (pollReadBody id read s).Ends (fun state s' => Shuffles s s' ∧ DataOf id state)
      fun stop s' => stop.Spares s.pendingConcurrency ∧ Shuffles s s' := by
  have hsend : ∃ extra, s.pendingSend = s.pendingSend ++ extra := ⟨[], (append_nil _).symm⟩
  simp only [pollReadBody, Method.get_bind]
  cases hlookup : s.streamMap.lookup id with
  | none => exact .err ⟨Stop.spares_connection, refl s⟩
  | some stream =>
    simp only [Method.ite_apply]
    split
    · exact .ok ⟨refl s, trivial⟩
    · split
      · refine .ok ⟨.of_queues rfl rfl rfl rfl hsend fun other hother => queued_or hknown hwaits ?_, trivial⟩
        simp only [queues, mem_append, mem_insert_iff] at hother ⊢
        tauto
      · simp only [Method.get_bind, Method.ite_apply]
        split
        · refine .ok ⟨.of_queues rfl rfl rfl rfl hsend fun other hother => queued_or hknown hwaits ?_, trivial⟩
          simp only [queues, mem_append, mem_singleton] at hother ⊢
          tauto
        · exact shuffles_pollSizedData hknown hwaits _ read

end

/-! ### Requests -/

/-- The first stream that waits is admitted. -/
theorem Placed.admitWaiting {ids : List StreamId} (h : Placed false none s.pendingSend.length s)
    (hcons : s.pendingConcurrency = id :: ids) : Placed false none (s.pendingSend ++ [id]).length
      (({ s with pendingConcurrency := ids }.increaseCurrentConcurrency).pushBackPendingSend id) := by
  obtain ⟨state, header, hentry, hstate⟩ := h.waiting id (hcons ▸ mem_cons_self)
  have hidle : state = .idle := hstate.resolve_right (fun hgone => absurd hgone.1 Bool.false_ne_true)
  subst hidle
  have hnodup := h.nodup
  rw [hcons, nodup_cons] at hnodup
  have hsub : ∀ other ∈ ids, other ∈ s.pendingConcurrency := fun other hmem => hcons ▸ mem_cons_of_mem id hmem
  have hactive : (({ s with pendingConcurrency := ids }.increaseCurrentConcurrency).pushBackPendingSend id).active =
      Insert.insert id s.active := by
    ext other
    rw [Finset.mem_insert, mem_active, mem_active]
    rw [hcons, mem_cons, not_or]
    by_cases heq : other = id
    · subst heq
      refine ⟨fun _ => .inl rfl, fun _ => ⟨hnodup.1, isOpen_iff.mpr ⟨.idle, header, hentry, rfl⟩⟩⟩
    · refine ⟨fun h => .inr ⟨⟨heq, h.1⟩, h.2⟩, fun h => ?_⟩
      obtain ⟨⟨-, hnot⟩, hopen⟩ := h.resolve_left heq
      exact ⟨hnot, hopen⟩
  have hfresh : id ∉ s.active := fun hmem => (mem_active.mp hmem).1 (hcons ▸ mem_cons_self)
  constructor
  · rw [hactive, Finset.card_insert_of_notMem hfresh, ← h.counted]
    rfl
  · exact h.fresh
  · exact hnodup.2
  · exact fun other hmem => h.waiting other (hsub other hmem)
  · intro other hmem
    have hmem : other ∈ s.queues ∨ other = id := by
      simp only [queues, pushBackPendingSend, increaseCurrentConcurrency, mem_append, mem_singleton] at hmem ⊢
      tauto
    rcases hmem with hmem | rfl
    · obtain ⟨hknown, hwaits⟩ := h.queued other hmem
      exact ⟨hknown, fun hmem => hwaits (hsub other hmem)⟩
    · refine ⟨?_, hnodup.1⟩
      change (s.entry other).isSome
      rw [hentry]
      rfl
  · exact h.named
  · intro other header' hentry'
    obtain ⟨hheader, hplace⟩ := h.atRest hentry'
    refine .inr ⟨hheader, ?_⟩
    change other ∈ ids ∨ other ∈ (s.pendingSend ++ [id]).take _
    rw [take_length, mem_append, mem_singleton]
    rw [hcons, mem_cons, take_length] at hplace
    tauto

theorem Placed.consumePending :
    ∀ (ids : List StreamId) {s : Streams}, s.pendingConcurrency = ids → Placed false none s.pendingSend.length s →
      Placed false none (consumePending ids s).pendingSend.length (consumePending ids s) ∧
        (∀ id, (consumePending ids s).entry id = s.entry id) ∧
        ∀ id ∈ (consumePending ids s).pendingConcurrency, id ∈ s.pendingConcurrency
  | [], s, _, h => ⟨h, fun _ => rfl, fun _ hmem => hmem⟩
  | id :: ids, s, hids, h => by
    rw [Streams.consumePending]
    split
    · exact ⟨h, fun _ => rfl, fun _ hmem => hmem⟩
    · obtain ⟨hplaced, hentries, hwaiting⟩ := Placed.consumePending ids
        (s := ({ s with pendingConcurrency := ids }.increaseCurrentConcurrency).pushBackPendingSend id) rfl (h.admitWaiting hids)
      refine ⟨hplaced, hentries, fun other hmem => ?_⟩
      rw [hids]
      exact mem_cons_of_mem id (hwaiting other hmem)

/-- The next id is not in use. -/
theorem Placed.unused (h : Placed gone serving n s) :
    s.nextStreamId ∉ s.pendingConcurrency ∧ s.nextStreamId ∉ s.queues ∧ s.nextStreamId ∉ s.active := by
  have hnone := h.fresh s.nextStreamId (UInt32.le_refl _)
  refine ⟨fun hmem => ?_, fun hmem => ?_, fun hmem => ?_⟩
  · obtain ⟨state, header, hentry, -⟩ := h.waiting _ hmem
    cases hnone.symm.trans hentry
  · have hknown := (h.queued _ hmem).1
    rw [hnone] at hknown
    cases hknown
  · obtain ⟨state, header, hentry, -⟩ := isOpen_iff.mp (mem_active.mp hmem).2
    cases hnone.symm.trans hentry

/-- `s'` has one stream more than `s`, with the next id. -/
structure Opens (s s' : Streams) : Prop where
  small : s.nextStreamId < defaultMaxStreamId
  next : s'.nextStreamId = s.nextStreamId + 2
  entry : ∀ id, s'.entry id = if id = s.nextStreamId then some (.idle, some s.nextStreamId) else s.entry id

namespace Opens

variable {s s' : Streams}

section

variable (h : Opens s s')

include h

theorem entry_self : s'.entry s.nextStreamId = some (.idle, some s.nextStreamId) := by
  rw [h.entry, if_pos rfl]

theorem entry_other {id : StreamId} (hne : id ≠ s.nextStreamId) : s'.entry id = s.entry id := by
  rw [h.entry, if_neg hne]

theorem fresh (hs : ∀ id, s.nextStreamId ≤ id → s.entry id = none) (id : StreamId)
    (hid : s'.nextStreamId ≤ id) : s'.entry id = none := by
  have hlt : s.nextStreamId < id := UInt32.lt_of_lt_of_le (lt_next h.small) (h.next ▸ hid)
  rw [h.entry_other (UInt32.ne_of_lt hlt).symm]
  exact hs id (UInt32.le_of_lt hlt)

theorem known {id : StreamId} (hid : (s.entry id).isSome) : (s'.entry id).isSome := by
  rw [h.entry]
  split
  · rfl
  · exact hid

theorem named (hs : ∀ id state header, s.entry id = some (state, some header) → header = id)
    (id : StreamId) (state : H2StreamState) (header : StreamId) (hentry : s'.entry id = some (state, some header)) :
    header = id := by
  rw [h.entry] at hentry
  split at hentry
  next heq =>
    cases hentry
    exact heq.symm
  next => exact hs id state header hentry

end

end Opens

/-- A new stream waits for its admission. -/
theorem Placed.postpone (h : Placed gone none s.pendingSend.length s) (hopens : Opens s s')
    (hcount : s'.currentConcurrentStreams = s.currentConcurrentStreams)
    (hwaiting : s'.pendingConcurrency = s.pendingConcurrency ++ [s.nextStreamId])
    (hsend : s'.pendingSend = s.pendingSend) (hqueues : s'.queues = s.queues) :
    Placed gone none s'.pendingSend.length s' := by
  obtain ⟨hwaits, hqueued, hactive⟩ := h.unused
  have hmem : ∀ id, id ∈ s'.pendingConcurrency ↔ id ∈ s.pendingConcurrency ∨ id = s.nextStreamId := by
    intro id
    rw [hwaiting, mem_append, mem_singleton]
  constructor
  · rw [hcount, h.counted]
    congr 1
    ext id
    rw [mem_active, mem_active, hmem, isOpen, isOpen]
    by_cases heq : id = s.nextStreamId
    · rw [heq]
      rw [mem_active, isOpen] at hactive
      simp only [hactive, or_true, not_true_eq_false, false_and]
    · rw [hopens.entry_other heq]
      simp only [heq, or_false]
  · exact hopens.fresh h.fresh
  · rw [hwaiting]
    exact nodup_append.mpr ⟨h.nodup, nodup_singleton _, fun a ha b hb heq => by
      cases mem_singleton.mp hb
      exact hwaits (heq ▸ ha)⟩
  · intro id hid
    by_cases heq : id = s.nextStreamId
    · rw [heq, hopens.entry_self]
      exact ⟨_, _, rfl, .inl rfl⟩
    · rw [hopens.entry_other heq]
      exact h.waiting id (((hmem id).mp hid).resolve_right heq)
  · intro id hid
    rw [hqueues] at hid
    obtain ⟨hknown, hnot⟩ := h.queued id hid
    refine ⟨hopens.known hknown, fun hwaits => ?_⟩
    rcases (hmem id).mp hwaits with hmem | rfl
    · exact hnot hmem
    · exact hqueued hid
  · exact hopens.named h.named
  · intro id header hentry
    rw [hmem, hsend]
    by_cases heq : id = s.nextStreamId
    · rw [heq, hopens.entry_self] at hentry
      cases hentry
      exact .inr ⟨heq ▸ rfl, .inl (.inr heq)⟩
    · rw [hopens.entry_other heq] at hentry
      obtain ⟨hheader, hplace⟩ := h.atRest hentry
      exact .inr ⟨hheader, hplace.imp_left .inl⟩

theorem placed_new (recvWindowSize sendWindowSize : Nat) (flowControl : FlowControl) :
    Placed false none 0 (.new recvWindowSize sendWindowSize flowControl) :=
  ⟨rfl, fun _ _ => rfl, nodup_nil, nofun, nofun, nofun, nofun⟩

end Streams

end YlongHttp.Client.H2
