/-
Taking HTTP/1 connections from a pool entry
(`exist_h1_conn` of `async_impl/pool.rs`, `Conns::conn` of `sync_impl/pool.rs`,
`http1` of `util/dispatcher.rs`).

A task that wants a connection has the lock of the list, but a task that is done with its
connection does not take the lock: it sets the flags of the connection one after the other.
Every access to a flag is a step, and the steps of the tasks interleave. The test of
`shutdown` and the claim of `occupied` are two steps, so that a connection can be marked and
dropped between them. `marked` is a history variable for this: the connections that have been
marked since a task tested them.
-/

import YlongHttp.Rust.Run

namespace YlongHttp.Client.H1

open Rust List

/-- The flags of a connection. `occupied` is set while a task has the handle. -/
structure Inner where
  occupied : Bool
  shutdown : Bool
deriving DecidableEq, Repr

/-- The two implementations of a pool entry. -/
inductive Impl where
  | async
  | sync
deriving DecidableEq, Repr

/-- How far the task with the lock of the list has come. -/
inductive Scan where
  /-- `list.retain(|dispatcher| !dispatcher.is_shutdown())`. -/
  | retaining (todo kept : List Nat)
  /-- `list.iter().rev().find_map(|dispatcher| dispatcher.dispatch())`. -/
  | finding (todo : List Nat)
  /-- The head of the loop of `Conns::conn`, with the connection that it has got. -/
  | scanning (todo : List Nat) (conn : Option Nat)
  /-- The loop of `Conns::conn` past the test of a dispatcher. -/
  | claiming (c : Nat) (todo : List Nat) (conn : Option Nat)
deriving DecidableEq, Repr

/-- A connection is known by its position in `conns`. -/
structure Entry where
  conns : List Inner
  list : List Nat
  lock : Option Scan
  marked : List Nat
deriving DecidableEq, Repr

inductive Action where
  /-- A task takes the lock of the list. -/
  | begin
  /-- The task with the lock takes one step. -/
  | advance
  /-- A task that has found no connection opens one. -/
  | connect
  /-- `Http1Conn::shutdown`, by the task that has the handle. -/
  | mark (c : Nat)
  /-- The handle is dropped. -/
  | drop (c : Nat)
deriving DecidableEq, Repr

namespace Entry

def new : Entry := ⟨[], [], none, []⟩

def isOccupied (p : Entry) (c : Nat) : Bool := p.conns[c]?.any Inner.occupied

def isShutdown (p : Entry) (c : Nat) : Bool := p.conns[c]?.any Inner.shutdown

def setOccupied (p : Entry) (c : Nat) (occupied : Bool) : Entry :=
  { p with conns := p.conns.modify c fun inner => { inner with occupied := occupied } }

/-- The test of a connection that is not shut down. -/
def pass (p : Entry) (c : Nat) : Entry := { p with marked := p.marked.filter (· ≠ c) }

/-- One step of the task with the lock. -/
def advance (p : Entry) : Scan → Entry
  | .retaining [] kept => { p with list := kept, lock := some (.finding kept.reverse) }
  | .retaining (c :: todo) kept =>
    if p.isShutdown c then { p with lock := some (.retaining todo kept) }
    else { p.pass c with lock := some (.retaining todo (kept ++ [c])) }
  | .finding [] => { p with lock := none }
  | .finding (c :: todo) =>
    if p.isOccupied c then { p with lock := some (.finding todo) }
    else { p.setOccupied c true with lock := none }
  -- Without a connection `connect_fn` has failed.
  | .scanning [] _ => { p with lock := none }
  | .scanning (c :: todo) conn =>
    if p.isShutdown c then { p with lock := some (.scanning todo conn) }
    else { p.pass c with lock := some (.claiming c todo conn) }
  | .claiming c todo (some conn) => { p with list := p.list ++ [c], lock := some (.scanning todo (some conn)) }
  | .claiming c todo none =>
    if p.isOccupied c then { p with list := p.list ++ [c], lock := some (.scanning todo none) }
    else { p.setOccupied c true with list := p.list ++ [c], lock := some (.scanning todo (some c)) }

/-- A new connection is dispatched and put into the list. -/
def push (p : Entry) : Entry :=
  { p with conns := p.conns ++ [⟨true, false⟩], list := p.list ++ [p.conns.length], lock := none }

/-- `Conns::conn` opens a connection under the lock, and the asynchronous pool without it. -/
def MayConnect (p : Entry) : Impl → Prop
  | .async => p.lock = none
  | .sync => p.lock = some (.scanning [] none)

instance (p : Entry) : ∀ impl, Decidable (p.MayConnect impl)
  | .async => inferInstanceAs (Decidable (p.lock = none))
  | .sync => inferInstanceAs (Decidable (p.lock = some (.scanning [] none)))

def step (impl : Impl) (p : Entry) : Action → Option Entry
  | .begin =>
    match impl, p.lock with
    | .async, none => some { p with lock := some (.retaining p.list []) }
    | .sync, none => some { p with list := [], lock := some (.scanning p.list none) }
    | _, some _ => none
  | .advance => p.lock.map p.advance
  | .connect => if p.MayConnect impl then some p.push else none
  | .mark c =>
    if p.isOccupied c then
      some { p with
        conns := p.conns.modify c fun inner => { inner with shutdown := true }
        marked := c :: p.marked }
    else none
  | .drop c => if p.isOccupied c then some (p.setOccupied c false) else none

/-- The connection that a step hands to a request. -/
def handsOut (p : Entry) : Action → Option Nat
  | .advance =>
    match p.lock with
    | some (.finding (c :: _)) | some (.claiming c _ none) => if p.isOccupied c then none else some c
    | _ => none
  | .connect => some p.conns.length
  | _ => none

end Entry

/-! ### What the tests are worth -/

/-- The connections that the task with the lock has tested and may still claim. -/
def Scan.pending : Scan → List Nat
  | .retaining _ kept => kept
  | .finding todo => todo
  | .scanning _ _ => []
  | .claiming c _ _ => [c]

/-- A tested connection is shut down exactly if it has been marked since. -/
structure Tested (p : Entry) : Prop where
  marks : ∀ scan, p.lock = some scan → ∀ c ∈ scan.pending, p.isShutdown c = true ↔ c ∈ p.marked
  bound : ∀ c ∈ p.marked, c < p.conns.length

namespace Entry

theorem isShutdown_of_ge {p : Entry} {c : Nat} (h : p.conns.length ≤ c) : p.isShutdown c = false := by
  rw [isShutdown, getElem?_eq_none h]
  rfl

theorem isOccupied_lt {p : Entry} {c : Nat} (h : p.isOccupied c = true) : c < p.conns.length := by
  by_contra hge
  rw [isOccupied, getElem?_eq_none (Nat.le_of_not_lt hge)] at h
  cases h

@[simp] theorem isShutdown_setOccupied (p : Entry) (c d : Nat) (occupied : Bool) :
    (p.setOccupied c occupied).isShutdown d = p.isShutdown d := by
  simp only [isShutdown, setOccupied, List.getElem?_modify]
  cases p.conns[d]? with
  | none => rfl
  | some inner =>
    by_cases hcd : c = d <;> simp [hcd]

end Entry

variable {p : Entry} {c : Nat}

section

variable (h : Tested p)

include h

/-- A step of the task with the lock that neither tests nor claims. -/
theorem Tested.relock {list : List Nat} {lock : Option Scan}
    (hpending : ∀ scan, lock = some scan → ∀ c ∈ scan.pending, ∃ scan', p.lock = some scan' ∧ c ∈ scan'.pending) :
    Tested { p with list := list, lock := lock } := by
  constructor
  · intro scan hscan c hc
    obtain ⟨scan', hscan', hc'⟩ := hpending scan hscan c hc
    exact h.marks scan' hscan' c hc'
  · exact h.bound

theorem Tested.setOccupied (c : Nat) (occupied : Bool) : Tested (p.setOccupied c occupied) := by
  constructor
  · intro scan hscan d hd
    rw [Entry.isShutdown_setOccupied]
    exact h.marks scan hscan d hd
  · intro d hd
    simp only [Entry.setOccupied, length_modify]
    exact h.bound d hd

theorem Tested.push : Tested p.push := by
  constructor
  · rintro _ ⟨⟩
  · intro d hd
    simp only [Entry.push, length_append]
    exact Nat.lt_add_right 1 (h.bound d hd)

/-- A connection passes its test: it is not shut down and not marked any more. -/
theorem Tested.pass (hshut : p.isShutdown c = false) {scan scan' : Scan}
    (hscan : p.lock = some scan) (hpending : ∀ d ∈ scan'.pending, d = c ∨ d ∈ scan.pending) :
    Tested { p.pass c with lock := some scan' } := by
  constructor
  · rintro _ ⟨⟩ d hd
    change p.isShutdown d = true ↔ d ∈ p.marked.filter (· ≠ c)
    by_cases hdc : d = c
    · subst hdc
      simp [hshut]
    · rcases hpending d hd with heq | hmem
      · exact absurd heq hdc
      · simp [h.marks scan hscan d hmem, hdc]
  · intro d hd
    exact h.bound d (mem_of_mem_filter hd)

theorem Tested.advance {scan : Scan} (hscan : p.lock = some scan) : Tested (p.advance scan) := by
  cases scan with
  | retaining todo kept =>
    cases todo with
    | nil =>
      apply h.relock
      rintro _ ⟨⟩ c hc
      exact ⟨_, hscan, mem_reverse.mp hc⟩
    | cons c todo =>
      rw [Entry.advance]
      cases hshut : p.isShutdown c with
      | true =>
        apply h.relock
        rintro _ ⟨⟩ d hd
        exact ⟨_, hscan, hd⟩
      | false =>
        apply h.pass hshut hscan
        intro d hd
        rcases mem_append.mp hd with hd | hd
        · exact .inr hd
        · exact .inl (mem_singleton.mp hd)
  | finding todo =>
    cases todo with
    | nil =>
      apply h.relock
      rintro _ ⟨⟩
    | cons c todo =>
      rw [Entry.advance]
      cases p.isOccupied c with
      | true =>
        apply h.relock
        rintro _ ⟨⟩ d hd
        exact ⟨_, hscan, mem_cons_of_mem _ hd⟩
      | false =>
        apply (h.setOccupied c true).relock
        rintro _ ⟨⟩
  | scanning todo conn =>
    cases todo with
    | nil =>
      apply h.relock
      rintro _ ⟨⟩
    | cons c todo =>
      rw [Entry.advance]
      cases hshut : p.isShutdown c with
      | true =>
        apply h.relock
        rintro _ ⟨⟩ d hd
        cases hd
      | false =>
        apply h.pass hshut hscan
        intro d hd
        exact .inl (mem_singleton.mp hd)
  | claiming c todo conn =>
    cases conn with
    | some conn =>
      apply h.relock
      rintro _ ⟨⟩ d hd
      cases hd
    | none =>
      rw [Entry.advance]
      cases p.isOccupied c with
      | true =>
        apply h.relock
        rintro _ ⟨⟩ d hd
        cases hd
      | false =>
        apply (h.setOccupied c true).relock
        rintro _ ⟨⟩ d hd
        cases hd

theorem Tested.mark (hoccupied : p.isOccupied c = true) :
    Tested { p with
      conns := p.conns.modify c fun inner => { inner with shutdown := true }
      marked := c :: p.marked } := by
  have hlt := Entry.isOccupied_lt hoccupied
  constructor
  · intro scan hscan d hd
    have hmarks := h.marks scan hscan d hd
    simp only [Entry.isShutdown, getElem?_modify, mem_cons] at hmarks ⊢
    by_cases hcd : c = d
    · subst hcd
      simp [getElem?_eq_getElem hlt]
    · have hdc : d ≠ c := Ne.symm hcd
      simpa [hcd, hdc] using hmarks
  · intro d hd
    simp only [length_modify]
    rcases mem_cons.mp hd with rfl | hd
    · exact hlt
    · exact h.bound d hd

theorem Tested.step {impl : Impl} {q : Entry} {a : Action} (hstep : p.step impl a = some q) : Tested q := by
  cases a with
  | begin =>
    simp only [Entry.step] at hstep
    split at hstep
    · cases hstep
      apply h.relock
      rintro _ ⟨⟩ c hc
      cases hc
    · cases hstep
      apply h.relock
      rintro _ ⟨⟩ c hc
      cases hc
    · cases hstep
  | advance =>
    obtain ⟨scan, hscan, rfl⟩ := Option.map_eq_some_iff.mp hstep
    exact h.advance hscan
  | connect =>
    simp only [Entry.step] at hstep
    split at hstep
    · cases hstep
      exact h.push
    · cases hstep
  | mark c =>
    simp only [Entry.step] at hstep
    split at hstep
    next hoccupied =>
      cases hstep
      exact h.mark hoccupied
    next => cases hstep
  | drop c =>
    simp only [Entry.step] at hstep
    split at hstep
    · cases hstep
      exact h.setOccupied c false
    · cases hstep

/-- A connection that is handed out has been tested, or is a new one. -/
theorem Tested.handsOut {a : Action} (hout : p.handsOut a = some c) : p.isShutdown c = false ↔ c ∉ p.marked := by
  have htested : ∀ scan, p.lock = some scan → c ∈ scan.pending → (p.isShutdown c = false ↔ c ∉ p.marked) := by
    intro scan hscan hc
    rw [← h.marks scan hscan c hc, Bool.not_eq_true]
  cases a with
  | advance =>
    simp only [Entry.handsOut] at hout
    split at hout
    · rename_i d todo hscan
      split at hout
      · cases hout
      · cases hout
        exact htested _ hscan (mem_cons_self ..)
    · rename_i d todo hscan
      split at hout
      · cases hout
      · cases hout
        exact htested _ hscan (mem_singleton_self _)
    · cases hout
  | connect =>
    cases hout
    constructor
    · exact fun _ hmem => absurd (h.bound _ hmem) (Nat.lt_irrefl _)
    · exact fun _ => Entry.isShutdown_of_ge le_rfl
  | begin | mark | drop => cases hout

end

theorem tested_new : Tested .new := by
  constructor <;> rintro _ ⟨⟩

/-- No connection that has been marked shut down is handed out, exactly if no connection is
handed out that was marked after the task that claims it had tested it. -/
theorem handsOut_open_iff (impl : Impl) (actions : List Action) :
    Along (Entry.step impl) (fun p a => ∀ c, p.handsOut a = some c → p.isShutdown c = false) actions .new ↔
      Along (Entry.step impl) (fun p a => ∀ c, p.handsOut a = some c → c ∉ p.marked) actions .new := by
  apply along_congr (I := Tested)
  · intro p a q h _ hstep
    exact h.step hstep
  · intro p a h
    exact forall_congr' fun c => forall_congr' fun hout => h.handsOut hout
  · exact tested_new

instance (p : Entry) (a : Action) : Decidable (∀ c, p.handsOut a = some c → p.isShutdown c = false) :=
  match h : p.handsOut a with
  | none => isTrue fun _ hc => by cases hc
  | some c =>
    decidable_of_iff (p.isShutdown c = false)
      ⟨fun hopen _ hc => Option.some.inj hc ▸ hopen, fun hall => hall c rfl⟩

/-- The second task tests the connection while the first one still has it. The first one marks
it and drops it, and the second one claims it. -/
theorem marked_between_test_and_claim :
    ¬ Along (Entry.step .async) (fun p a => ∀ c, p.handsOut a = some c → p.isShutdown c = false)
      [.connect, .begin, .advance, .advance, .mark 0, .drop 0, .advance] .new := by
  decide +kernel

/-! ### Holders of connections -/

/-- The connections that the task with the lock has still to look at. -/
def Scan.conns : Scan → List Nat
  | .retaining todo kept => todo ++ kept
  | .finding todo | .scanning todo _ => todo
  | .claiming c todo _ => c :: todo

/-- A step, with the number of requests that hold each connection. -/
def use (impl : Impl) (s : Entry × (Nat → Nat)) (a : Action) : Option (Entry × (Nat → Nat)) :=
  (s.1.step impl a).map
    (·, fun c => s.2 c + (if s.1.handsOut a = some c then 1 else 0) - if a = .drop c then 1 else 0)

/-- An occupied connection has one holder, the others have none, and the entry refers to no
connection that does not exist. -/
structure Exclusive (s : Entry × (Nat → Nat)) : Prop where
  holders : ∀ c, s.2 c = (s.1.isOccupied c).toNat
  listed : ∀ c ∈ s.1.list, c < s.1.conns.length
  locked : ∀ scan, s.1.lock = some scan → ∀ c ∈ scan.conns, c < s.1.conns.length

theorem Exclusive.use {impl : Impl} {s s' : Entry × (Nat → Nat)} {a : Action} (h : Exclusive s)
    (hstep : use impl s a = some s') : Exclusive s' := by
  obtain ⟨p, held⟩ := s
  obtain ⟨hheld, hlist, hlock⟩ := h
  obtain ⟨q, hq, rfl⟩ := Option.map_eq_some_iff.mp hstep
  cases a with
  | begin =>
    simp only [Entry.step] at hq
    split at hq <;> cases hq
    all_goals constructor <;> grind [Entry.handsOut, Entry.isOccupied, Scan.conns]
  | advance =>
    obtain ⟨scan, hscan, rfl⟩ := Option.map_eq_some_iff.mp hq
    specialize hlock scan hscan
    simp only [Entry.handsOut]
    fun_cases Entry.advance p scan
    all_goals constructor <;> grind [Entry.isOccupied, Entry.pass, Entry.setOccupied, Scan.conns, Bool.toNat]
  | connect | mark | drop =>
    obtain ⟨hoccupied, ⟨⟩⟩ := Option.ite_none_right_eq_some.mp hq
    constructor <;> grind [Entry.handsOut, Entry.isOccupied, Entry.setOccupied, Entry.push, Bool.toNat]

/-- However the tasks interleave, a connection has one holder while it is occupied, and no other,
as `Http1Conn::raw_mut` needs. -/
theorem holders_eq_occupied {impl : Impl} {actions : List Action} {s : Entry × (Nat → Nat)}
    (hrun : run (use impl) actions (.new, fun _ => 0) = some s) (c : Nat) : s.2 c = (s.1.isOccupied c).toNat := by
  have hnew : Exclusive (.new, fun _ => 0) := ⟨fun _ => rfl, nofun, nofun⟩
  exact (run_invariant Exclusive.use hnew hrun).holders c

/-- The second request gets the connection that the first one has dropped. -/
theorem holders_eq_occupied_reused : ∃ s, run (use .async) [.connect, .begin, .advance, .advance, .drop 0, .advance]
    (.new, fun _ => 0) = some s ∧ s.2 0 = 1 :=
  ⟨_, rfl, @holders_eq_occupied .async [.connect, .begin, .advance, .advance, .drop 0, .advance] _ rfl 0⟩

end YlongHttp.Client.H1
