/-
The Known Received Count of the encoder.

An acknowledgment says that the decoder has all that the section needs, and an Insert Count
Increment of `n` that it has `n` more insertions. The encoder counts an acknowledged entry only if
it is above the count so far, one for each, and then adds one less than it has counted. So it is
behind as soon as an instruction has something to say (`knows_iff`).
-/

import YlongHttp.H3.Qpack.Encoder
import YlongHttp.H3.Qpack.TableHistory

namespace YlongHttp.H3.Qpack

open Rust Method
open DynamicTable (keeps_checkedSub keeps_canEvict keeps_evictDrained keeps_trackField keeps_untrackedField
  keeps_updateCapacity)
open YlongHttp.H2 (Parts)

/-! ### What leaves the count alone -/

def SameKnown {σ : Type} (table : σ → DynamicTable) (s s' : σ) : Prop :=
  (table s').knownReceivedCount = (table s).knownReceivedCount

instance {σ : Type} (table : σ → DynamicTable) : IsPreorder σ (SameKnown table) where
  refl _ := rfl
  trans _ _ _ h h' := Eq.trans h' h

/-- Errors are left open. -/
abbrev KeepsKnown {σ ε α : Type} (table : σ → DynamicTable) (m : Method σ ε α) : Prop :=
  Stays (SameKnown table) m

instance : DynamicTable.Lasting (SameKnown id) where
  pop h := (DynamicTable.popFront_eq_some h).choose_spec.2.2.2.2.2
  resize _ _ := rfl
  retrack _ _ _ := rfl

/-! ### Sections -/

section Lines

theorem keepsKnown_onTable {α : Type} {m : Method DynamicTable Empty α} (h : KeepsKnown id m) :
    KeepsKnown Encoding.table (Encodes.onTable m) :=
  h.onField fun _ _ hs => hs

theorem keepsKnown_refer (index : Nat) : KeepsKnown Encoding.table (refer index) := by
  intro e
  simp only [refer, get_bind, Method.ite_apply]
  split
  · exact .ok rfl
  · exact keepsKnown_onTable (keeps_trackField index) { e with refFields := e.refFields ++ [index] }

variable (r : ReprEncoder) (f : Field)

theorem keepsKnown_addFieldToDynamic : KeepsKnown Encoding.table (r.addFieldToDynamic f) := by
  refine .get_bind fun e => .bind (keeps_canEvict _ _) fun found => ?_
  cases found with
  | none => exact .bind (.modify fun _ => rfl) fun _ => .pure _
  | some len =>
    refine .bind (.modify fun _ => rfl) fun _ => ?_
    refine .bind (keepsKnown_onTable (keeps_evictDrained len)) fun _ => .get_bind fun e => ?_
    exact .bind (keepsKnown_onTable (.modify fun _ => rfl)) fun _ => .pure _

theorem keepsKnown_encodeField : KeepsKnown Encoding.table (r.encodeField f) := by
  refine .get_bind fun e => ?_
  cases searchFiledFromTable e.table f r.allowBlock with
  | staticIndex index | staticNameIndex index => exact .bind (.modify fun _ => rfl) fun _ => .pure _
  | dynamicIndex index | dynamicNameIndex index =>
    exact .bind (.modify fun _ => rfl) fun _ => .bind (keepsKnown_refer index) fun _ => .pure _
  | notFound =>
    refine .ite (.bind (keepsKnown_addFieldToDynamic r f) fun added => ?_) ?_
    · cases added with
      | none => exact .bind (.modify fun _ => rfl) fun _ => .pure _
      | some index =>
        refine .bind (.modify fun _ => rfl) fun _ => .bind (.modify fun _ => rfl) fun _ => ?_
        exact .bind (keepsKnown_onTable (keeps_trackField index)) fun _ => .pure _
    · exact .bind (.modify fun _ => rfl) fun _ => .pure _

theorem keepsKnown_encodeIter (r : ReprEncoder) :
    ∀ fuel iter most, KeepsKnown Encoding.table (r.encodeIter fuel iter most)
  | 0, _, _ => fun _ => .panic
  | fuel + 1, iter, most => by
    rw [ReprEncoder.encodeIter]
    split
    · exact .pure _
    · refine .bind (keepsKnown_encodeField r _) fun found => ?_
      cases found <;> exact keepsKnown_encodeIter r fuel _ _

theorem keepsKnown_getPrefix (t : DynamicTable) (maxRef : Nat) : KeepsKnown Encoding.table (r.getPrefix t maxRef) :=
  .ite (.ite (fun _ => .panic) (.pure _)) (.pure _)

end Lines

namespace QpackEncoder

variable (order : HashOrder) (streamId : Nat) (e : QpackEncoder)

theorem keepsKnown_encode : KeepsKnown table (encode streamId) := by
  have hcapacity : KeepsKnown table updateMaxDynamicTableCap := by
    refine .get_bind fun e => ?_
    cases e.capacityToUpdate with
    | none => exact .pure _
    | some newCap =>
      refine .bind ((keeps_updateCapacity (R := SameKnown id) newCap).onField fun _ _ hs => hs) fun found => ?_
      cases found with
      | none => exact .pure _
      | some _ => exact .bind (.modify fun _ => rfl) fun _ => .pure _
  refine .bind hcapacity fun inst => .get_bind fun e₀ e => ?_
  -- the prefix is computed from the table after the lines
  have hlines : ∀ r : ReprEncoder, KeepsKnown Encoding.table (encodeFields r e.fieldIter) := fun r => by
    cases e.fieldIter with
    | none => exact .pure _
    | some iter => exact keepsKnown_encodeIter r _ _ _
  simp only [iterateEncodeFields]
  split
  next maxDynamic lines hcall =>
    split
    next start lines' hstart =>
      exact .ok (((keepsKnown_getPrefix _ _ _).of_ok hstart).trans ((hlines _).of_ok hcall))
    next => exact .panic
  next => exact .panic

theorem keepsKnown_cancelStream : KeepsKnown table (cancelStream streamId) := by
  have huntrack : ∀ indices, KeepsKnown id (untrackAll indices : Method DynamicTable QpackError Unit) := by
    intro indices
    induction indices with
    | nil => exact .pure _
    | cons index indices ih => exact .bind (keeps_untrackedField index) fun _ => ih
  intro e
  simp only [cancelStream, get_bind]
  cases e.trackedStream.lookup streamId with
  | none => exact .ok rfl
  | some unacked =>
    have huntracked : KeepsKnown table (onTable (untrackAll unacked.flatten)) := (huntrack _).onField fun _ _ hs => hs
    refine Outcome.Ends.bind (Q := fun _ => SameKnown table e) (.ok rfl) fun _ mid h => Keeps.after h ?_
    exact .bind huntracked fun _ => .ite (.bind (keeps_checkedSub _ _) fun _ => .modify fun _ => rfl) (.pure _)

/-! ### Acknowledgments and increments -/

theorem increaseInsertCount_ends (increment : Nat) (e : QpackEncoder) : (increaseInsertCount increment e).Ends
    (fun _ e' => e'.table.knownReceivedCount + 1 = e.table.knownReceivedCount + increment) (fun _ _ => True) := by
  have htable : (DynamicTable.increaseKnownReceiveCount increment e.table).Ends
      (fun _ t => t.knownReceivedCount + 1 = e.table.knownReceivedCount + increment) (fun (_ : QpackError) _ => True) := by
    refine Outcome.Ends.bind (Q := fun more _ => more + 1 = increment) ?_ fun more _ hmore => ?_
    · rw [checkedSub]
      split
      next hpos => exact .ok (Nat.sub_add_cancel hpos)
      next => exact .panic
    · split
      · exact .ok (by rw [← hmore]; rfl)
      · exact .panic
  exact (htable.mapState (fun _ _ h => h) fun _ _ h => h).bind fun _ _ h => .ok h

/-- The Required Insert Count of a section with these references. -/
def requiredFor (refs : List Nat) : Nat := refs.foldr (fun index required => max (index + 1) required) 0

theorem requiredFor_le {k : Nat} : ∀ {refs : List Nat}, requiredFor refs ≤ k ↔ ∀ index ∈ refs, index < k
  | [] => by simp [requiredFor]
  | index :: refs => by
    rw [List.forall_mem_cons, ← requiredFor_le]
    exact Nat.max_le

/-- The references of the section that an acknowledgment is for. -/
def acknowledged (e : QpackEncoder) (streamId : Nat) : List Nat :=
  ((e.trackedStream.lookup streamId).bind List.head?).getD []

/-- What the entries can take the count to. -/
def Counts (refs : List Nat) (k k' : Nat) : Prop :=
  k ≤ k' ∧ ∀ bound, k ≤ bound → (∀ index ∈ refs, index ≤ bound) → k' ≤ bound

theorem ackLoop_ends : ∀ (refs : List Nat) (k : Nat) (t : DynamicTable),
    ((ackLoop refs k : Method DynamicTable QpackError Nat) t).Ends (fun k' t' => SameKnown id t t' ∧ Counts refs k k')
      (fun _ _ => True)
  | [], k, t => .ok ⟨rfl, le_rfl, fun _ hle _ => hle⟩
  | index :: refs, k, t => by
    have huntrack : KeepsKnown id (DynamicTable.untrackedField (ε := QpackError) index) := keeps_untrackedField index
    refine ((huntrack t).mono (fun _ _ h => h) fun _ _ _ => trivial).bind fun _ mid hsame => (ackLoop_ends refs _ mid).mono ?_ fun _ _ h => h
    rintro k' t' ⟨hsame', hle, hbound⟩
    refine ⟨Eq.trans hsame' hsame, ?_, fun bound hk hrefs => ?_⟩
    · split at hle <;> omega
    · obtain ⟨hindex, htail⟩ := List.forall_mem_cons.mp hrefs
      refine hbound bound ?_ htail
      split <;> omega

theorem ackSection_ends (streamId k : Nat) (e : QpackEncoder) : (ackSection order streamId k e).Ends
      (fun k' e' => SameKnown table e e' ∧ Counts (e.acknowledged streamId) k k') (fun _ _ => True) := by
  simp only [ackSection, get_bind, acknowledged]
  cases e.trackedStream.lookup streamId with
  | none => exact .ok ⟨rfl, le_rfl, fun _ hle _ => hle⟩
  | some unacked =>
    cases unacked with
    | nil => exact .ok ⟨rfl, le_rfl, fun _ hle _ => hle⟩
    | cons refs rest =>
      refine Outcome.Ends.bind (Q := fun k' e' => SameKnown table e e' ∧ Counts refs k k') ?_ fun _ _ h => .ok h
      refine (ackLoop_ends (order.order refs) k e.table).mapState ?_ fun _ _ h => h
      rintro k' t' ⟨hsame, hle, hbound⟩
      refine ⟨hsame, hle, fun bound hk hrefs => hbound bound hk fun index hmem => ?_⟩
      exact hrefs index ((order.perm refs).mem_iff.mp hmem)

/-- An acknowledgment is right exactly if it says nothing new, whatever the order. -/
theorem ack_ends : (ack order streamId e).Ends
    (fun _ e' => e'.table.knownReceivedCount = max e.table.knownReceivedCount (requiredFor (e.acknowledged streamId)) ↔
      requiredFor (e.acknowledged streamId) ≤ e.table.knownReceivedCount) (fun _ _ => True) := by
  refine (ackSection_ends order streamId e.table.knownReceivedCount e).bind ?_
  rintro k' mid ⟨hsame, hle, hbound⟩
  have hsame : mid.table.knownReceivedCount = e.table.knownReceivedCount := hsame
  have hnone : requiredFor (e.acknowledged streamId) ≤ e.table.knownReceivedCount → k' ≤ e.table.knownReceivedCount :=
    fun hreq => hbound _ le_rfl fun index hmem => (requiredFor_le.mp hreq index hmem).le
  have hbelow : e.table.knownReceivedCount < requiredFor (e.acknowledged streamId) →
      k' + 1 ≤ requiredFor (e.acknowledged streamId) := by
    intro hlt
    have := hbound (requiredFor (e.acknowledged streamId) - 1) (Nat.le_sub_one_of_lt hlt) fun index hmem =>
      Nat.le_sub_one_of_lt (requiredFor_le.mp le_rfl index hmem)
    omega
  rw [get_bind, bind_apply, checkedSub, if_pos (hsame.le.trans hle)]
  simp only [pure_apply, Outcome.bind_ok, Method.ite_apply]
  split
  · refine (increaseInsertCount_ends _ mid).mono (fun _ e' hcount => ?_) fun _ _ h => h
    omega
  · refine .ok ?_
    omega

/-! ### Histories -/

/-- What happens to an encoder: settings, sections, and instructions of the decoder. -/
inductive Event where
  | tableCapacity (maxCap : Nat)
  | blockedStreams (maxBlocked : Nat)
  | encode (streamId : Nat) (parts : Parts)
  | inst (order : HashOrder) (i : DecoderInstruction)

namespace Event

def apply (e : QpackEncoder) : Event → Option QpackEncoder
  | tableCapacity maxCap => (setMaxTableCapacity maxCap e).value? fun _ e => e
  | blockedStreams maxBlocked => some (e.setMaxBlockedStreamSize maxBlocked)
  | encode streamId parts => (QpackEncoder.encode streamId (e.setParts parts)).value? fun _ e => e
  | inst order i => (applyInst order i e).value? fun _ e => e

theorem of_value? {ε α : Type} {x : Outcome QpackEncoder ε α} {Q : QpackEncoder → Prop} {E : ε → QpackEncoder → Prop}
    {e' : QpackEncoder} (h : x.Ends (fun _ => Q) E) (hx : x.value? (fun _ e => e) = some e') : Q e' := by
  cases h with
  | ok h =>
    cases hx
    exact h
  | err | panic => cases hx

/-- The count as RFC 9204 has it, after an event. -/
def count (e : QpackEncoder) (k : Nat) : Event → Nat
  | inst _ (.ack streamId) => max k (requiredFor (e.acknowledged streamId))
  | inst _ (.insertCountIncrement increment) => k + increment
  | _ => k

/-- An encoder beside the count of the RFC. -/
def advance (s : QpackEncoder × Nat) (event : Event) : Option (QpackEncoder × Nat) :=
  (event.apply s.1).map fun e => (e, event.count s.1 s.2)

def Knows (s : QpackEncoder × Nat) : Prop := s.1.table.knownReceivedCount = s.2

/-- An event that tells the encoder of no insertion that it does not know. -/
def SaysNothingNew (s : QpackEncoder × Nat) : Event → Prop
  | inst _ (.ack streamId) => requiredFor (s.1.acknowledged streamId) ≤ s.1.table.knownReceivedCount
  | inst _ (.insertCountIncrement _) => False
  | _ => True

theorem knows_advance_iff {s s' : QpackEncoder × Nat} {event : Event} (hs : Knows s)
    (h : advance s event = some s') : Knows s' ↔ SaysNothingNew s event := by
  obtain ⟨e, k⟩ := s
  obtain rfl : e.table.knownReceivedCount = k := hs
  obtain ⟨e', hcall, rfl⟩ := Option.map_eq_some_iff.mp h
  cases event with
  | tableCapacity maxCap =>
    have hcap : KeepsKnown table (setMaxTableCapacity maxCap) := by
      exact .ite (.throw trivial) (.modify fun _ => rfl)
    exact iff_of_true (of_value? (hcap e) hcall) trivial
  | blockedStreams maxBlocked =>
    cases hcall
    exact iff_of_true rfl trivial
  | encode streamId parts => exact iff_of_true (of_value? (keepsKnown_encode streamId (e.setParts parts)) hcall) trivial
  | inst order i =>
    cases i with
    | ack streamId => exact of_value? (ack_ends order streamId e) hcall
    | streamCancel streamId => exact iff_of_true (of_value? (keepsKnown_cancelStream streamId e) hcall) trivial
    | insertCountIncrement increment =>
      have hcount := of_value? (increaseInsertCount_ends increment e) hcall
      refine iff_of_false (fun hk => ?_) id
      exact Nat.succ_ne_self _ (hcount.trans hk.symm)

/-- The encoder knows at every point of a history. -/
def KnowsThroughout (events : List Event) (s : QpackEncoder × Nat) : Prop :=
  ∀ done s', done <+: events → run advance done s = some s' → Knows s'

/-- The count is that of the RFC throughout a history exactly if nothing in it says anything new. -/
theorem knows_iff {events : List Event} {s last : QpackEncoder × Nat} (hs : Knows s)
    (hrun : run advance events s = some last) : KnowsThroughout events s ↔ Along advance SaysNothingNew events s :=
  points_iff (Q := fun _ _ => True) (fun h _ => knows_advance_iff h) hs hrun (along_of_forall (fun _ _ => trivial) _ _)

/-- Two entries are inserted, and the decoder says twice that it has one more. -/
def twoInsertions : List Event :=
  [.tableCapacity 128, .blockedStreams 1,
    .encode 0 (((Parts.new.update (.other [120]) []).bind (·.update (.other [121]) [])).getD .new),
    .inst ⟨id, fun _ => .refl _⟩ (.insertCountIncrement 1), .inst ⟨id, fun _ => .refl _⟩ (.insertCountIncrement 1)]

theorem increments_of_one_are_lost :
    ((run advance twoInsertions (new false, 0)).map fun s => (s.1.table.knownReceivedCount, s.2)) = some (0, 2) := by
  decide +kernel

theorem knows_before_the_increments : KnowsThroughout (twoInsertions.take 3) (new false, 0) := by
  have hrun : (run advance (twoInsertions.take 3) (new false, 0)).isSome := by decide +kernel
  exact (knows_iff (s := (new false, 0)) rfl (Option.some_get hrun).symm).mpr
    ⟨trivial, fun _ _ => ⟨trivial, fun _ _ => ⟨trivial, fun _ _ => trivial⟩⟩⟩

end Event

end QpackEncoder

end YlongHttp.H3.Qpack
