/-
Downloads of response bodies (`async_impl/downloader/mod.rs`).

A downloader reads the body and offers each read to its operator until all of it has been accepted.
All bytes of the body reach the operator once, in their order. The counter that is shown as progress
goes up by the length of the read at every offer, whatever is accepted of it: it is ahead as soon as
one offer is not accepted as a whole (`reports_iff`).

What an operator answers is given by the number of the call, so that it may depend on everything
before. No timeout is set. The counter is unbounded here.
-/

import YlongHttp.Rust.Outcome

namespace YlongHttp.Client

open Rust Method List

/-- `download` is answered with a number of accepted bytes. -/
structure DownloadOperator (ε : Type) where
  download : Nat → List UInt8 → Except ε Nat
  progress : Nat → Except ε Unit

/-- A progress call, and how many bytes the operator had accepted before it. -/
structure Progress where
  downloaded : Nat
  total : Option Nat
  accepted : Nat
deriving DecidableEq

/-- `accepted` and `shown` are the calls of the operator so far. -/
structure Downloader where
  downloadedBytes : Nat
  totalBytes : Option Nat
  accepted : List (List UInt8)
  shown : List Progress
deriving DecidableEq

/-- The operator accepts between one and all of the bytes of every offer. -/
structure DownloadOperator.Accepts {ε : Type} (operator : DownloadOperator ε) : Prop where
  download : ∀ n data, data ≠ [] → ∃ size, operator.download n data = .ok size ∧ 0 < size ∧ size ≤ data.length
  progress : ∀ n, operator.progress n = .ok ()

namespace Downloader

/-- The bytes that the operator has accepted. -/
def written (d : Downloader) : List UInt8 := d.accepted.flatten

variable {ε : Type} (operator : DownloadOperator ε)

def showProgress : Method Downloader ε Unit := do
  Method.ofExcept (operator.progress (← get).shown.length)
  modify fun d => { d with shown := d.shown ++ [⟨d.downloadedBytes, d.totalBytes, d.written.length⟩] }

/-- What the inner loop does with the rest of a read. -/
def offer (data : List UInt8) (size : Nat) : Method Downloader ε Nat := do
  let rest ← sliceFrom data size
  let accepted ← Method.ofExcept (operator.download (← get).accepted.length rest)
  modify fun d => { d with
    downloadedBytes := d.downloadedBytes + data.length
    accepted := d.accepted ++ [rest.take accepted] }
  showProgress operator
  return size + accepted

def offerLoop (data : List UInt8) (fuel size : Nat) : Method Downloader ε Unit :=
  if size = data.length then pure ()
  else
    match fuel with
    | 0 => Method.panicked
    | fuel + 1 => do
      let size ← offer operator data size
      offerLoop data fuel size

/-- The reads of the body, up to one that is empty. -/
def readLoop : List (List UInt8) → Method Downloader ε Unit
  | [] => showProgress operator
  | data :: reads =>
    if data.length = 0 then showProgress operator
    else do
      offerLoop operator data data.length 0
      readLoop reads

def limitedDownload (reads : List (List UInt8)) : Method Downloader ε Unit := do
  showProgress operator
  readLoop operator reads

/-- The first call makes the download info; the length is that of the response headers. -/
def download (contentLength : Option Nat) (reads : List (List UInt8)) : Outcome Downloader ε Unit :=
  limitedDownload operator reads ⟨0, contentLength, [], []⟩

/-! ### What the operator sees -/

/-- Every progress call reports the bytes that were accepted before it. -/
def Reports (d : Downloader) : Prop := ∀ progress ∈ d.shown, progress.downloaded = progress.accepted

/-- Every read is accepted as a whole when it is offered, the first one with the call `n`. -/
def AcceptsWhole : Nat → List (List UInt8) → Prop
  | _, [] => True
  | n, data :: reads => operator.download n data = .ok data.length ∧ AcceptsWhole (n + 1) reads

/-- Between `d` and `d'` the operator accepts `bytes`. -/
structure Passes (d d' : Downloader) (bytes : List UInt8) : Prop where
  written : d'.written = d.written ++ bytes
  shown : d.shown <+: d'.shown

theorem Passes.trans {d mid d' : Downloader} {bytes bytes' : List UInt8} (h : Passes d mid bytes)
    (h' : Passes mid d' bytes') : Passes d d' (bytes ++ bytes') :=
  ⟨by rw [h'.written, h.written, append_assoc], h.shown.trans h'.shown⟩

theorem Passes.reports {d d' : Downloader} {bytes : List UInt8} (h : Passes d d' bytes) (hreports : d'.Reports) :
    d.Reports :=
  fun progress hshown => hreports progress (h.shown.subset hshown)

/-- After an offer of which `bytes` were accepted. -/
def offered (d : Downloader) (data bytes : List UInt8) : Downloader :=
  { d with
    downloadedBytes := d.downloadedBytes + data.length
    accepted := d.accepted ++ [bytes]
    shown := d.shown ++ [⟨d.downloadedBytes + data.length, d.totalBytes, (d.written ++ bytes).length⟩] }

variable (data : List UInt8) (d : Downloader)

theorem written_offered (data bytes : List UInt8) : (d.offered data bytes).written = d.written ++ bytes := by
  simp [written, offered]

theorem passes_offered (data bytes : List UInt8) : Passes d (d.offered data bytes) bytes :=
  ⟨written_offered d data bytes, prefix_append ..⟩

theorem passes_rest : Passes d d (data.drop data.length) :=
  ⟨by rw [drop_length, append_nil], prefix_rfl⟩

/-- The counter has been right so far. -/
structure InStep (d : Downloader) : Prop where
  reports : d.Reports
  counted : d.downloadedBytes = d.written.length

/-- An offer keeps the counter right exactly if it is accepted as a whole. -/
theorem reports_offered {d : Downloader} (h : InStep d) (data bytes : List UInt8) :
    (d.offered data bytes).Reports ↔ data.length = bytes.length := by
  rw [Reports, offered, forall_mem_append, forall_mem_singleton, h.counted, length_append, Nat.add_right_inj]
  exact and_iff_right h.reports

variable {operator}

theorem offerLoop_done (fuel : Nat) : offerLoop operator data fuel data.length d = .ok () d := by
  rw [offerLoop.eq_def, if_pos rfl]
  rfl

section Accepting

variable (hop : operator.Accepts)
include hop

theorem showProgress_eq (d : Downloader) : showProgress operator d =
    .ok () { d with shown := d.shown ++ [⟨d.downloadedBytes, d.totalBytes, d.written.length⟩] } := by
  simp only [showProgress, bind_apply, hop.progress]
  rfl

/-- Every offer is accepted in part or as a whole. -/
theorem offer_ok {data : List UInt8} {size : Nat} (d : Downloader) (hsize : size < data.length) :
    ∃ n, operator.download d.accepted.length (data.drop size) = .ok n ∧ 0 < n ∧ size + n ≤ data.length ∧
      offer operator data size d = .ok (size + n) (d.offered data ((data.drop size).take n)) := by
  have hlength : (data.drop size).length = data.length - size := length_drop
  obtain ⟨n, hcall, hpos, hall⟩ := hop.download d.accepted.length (data.drop size) fun hnil => by
    rw [hnil, length_nil] at hlength
    omega
  refine ⟨n, hcall, hpos, by omega, ?_⟩
  simp only [offer, bind_apply, sliceFrom_eq_ok hsize.le, Outcome.bind_ok, get_apply, hcall, ofExcept_ok,
    modify_apply, showProgress_eq hop, pure_apply, offered, written, flatten_append, flatten_singleton]

/-- What is left of a read is accepted in the end. -/
theorem offerLoop_ok (data : List UInt8) : ∀ {fuel size : Nat} (d : Downloader), size ≤ data.length →
    data.length ≤ size + fuel →
    ∃ d', offerLoop operator data fuel size d = .ok () d' ∧ Passes d d' (data.drop size) := by
  intro fuel
  induction fuel with
  | zero =>
    intro size d hle hfuel
    obtain rfl : size = data.length := Nat.le_antisymm hle hfuel
    exact ⟨d, offerLoop_done data d 0, passes_rest data d⟩
  | succ fuel ih =>
    intro size d hle hfuel
    rcases Nat.eq_or_lt_of_le hle with rfl | hlt
    · exact ⟨d, offerLoop_done data d _, passes_rest data d⟩
    · obtain ⟨n, -, hpos, hall, hoffer⟩ := offer_ok hop d hlt
      obtain ⟨d', hloop, hpasses⟩ := ih (d.offered data ((data.drop size).take n)) hall (by omega)
      refine ⟨d', ?_, ?_⟩
      · rw [offerLoop, if_neg hlt.ne, bind_apply, hoffer]
        exact hloop
      · have hsplit := (passes_offered d data _).trans hpasses
        rwa [← drop_drop, take_append_drop] at hsplit

theorem readLoop_ok : ∀ {reads : List (List UInt8)} (d : Downloader), (∀ data ∈ reads, data ≠ []) →
    ∃ d', readLoop operator reads d = .ok () d' ∧ Passes d d' reads.flatten ∧
      (InStep d → (d'.Reports ↔ AcceptsWhole operator d.accepted.length reads))
  | [], d, _ => by
    refine ⟨_, showProgress_eq hop d, ⟨(append_nil _).symm, prefix_append ..⟩, fun h => iff_of_true ?_ trivial⟩
    exact forall_mem_append.mpr ⟨h.reports, forall_mem_singleton.mpr h.counted⟩
  | data :: reads, d, hreads => by
    obtain ⟨hdata, hreads⟩ := forall_mem_cons.mp hreads
    have hpos : 0 < data.length := length_pos_iff.mpr hdata
    obtain ⟨n, hcall, hsome, hall, hoffer⟩ := offer_ok hop d hpos
    obtain ⟨fuel, hfuel⟩ := Nat.exists_eq_add_of_le' hpos
    rw [drop_zero, Nat.zero_add] at *
    have hrest : data.length ≤ n + fuel := by omega
    obtain ⟨mid, hloop, hmid⟩ := offerLoop_ok hop data (d.offered data (data.take n)) hall hrest
    obtain ⟨d', hread, hpasses, hreports⟩ := readLoop_ok mid hreads
    refine ⟨d', ?_, ?_, fun h => ?_⟩
    · have hround : offerLoop operator data data.length 0 d = .ok () mid := by
        rw [hfuel, offerLoop, if_neg hpos.ne, bind_apply, hoffer]
        exact hloop
      rw [readLoop, if_neg hpos.ne', bind_apply, hround]
      exact hread
    · have hall := ((passes_offered d data _).trans hmid).trans hpasses
      rwa [take_append_drop] at hall
    · rw [AcceptsWhole, hcall]
      have htaken := reports_offered h data (data.take n)
      rw [length_take_of_le hall] at htaken
      by_cases hwhole : data.length = n
      · subst hwhole
        rw [offerLoop_done] at hloop
        cases hloop
        have hcounted : (d.offered data (data.take data.length)).downloadedBytes =
            (d.offered data (data.take data.length)).written.length := by
          rw [written_offered, length_append, take_length, ← h.counted]
          rfl
        rw [hreports ⟨htaken.mpr rfl, hcounted⟩, offered, length_append]
        exact (and_iff_right rfl).symm
      · -- the counter is ahead from here on
        refine iff_of_false (fun hd' => hwhole ?_) fun hwhole' => hwhole ?_
        · exact htaken.mp ((hmid.trans hpasses).reports hd')
        · exact (Except.ok.inj hwhole'.1).symm

/-- Every body is passed on as it is. The progress is right at every call exactly if every read is
accepted as a whole when it is offered. -/
theorem reports_iff (total : Option Nat) {reads : List (List UInt8)} (hreads : ∀ data ∈ reads, data ≠ []) :
    ∃ d, download operator total reads = .ok () d ∧ d.written = reads.flatten ∧
      (d.Reports ↔ AcceptsWhole operator 0 reads) := by
  obtain ⟨d, hread, hpasses, hreports⟩ := readLoop_ok hop ⟨0, total, [], [⟨0, total, 0⟩]⟩ hreads
  refine ⟨d, ?_, hpasses.written, hreports ⟨forall_mem_singleton.mpr rfl, rfl⟩⟩
  rw [download, limitedDownload, bind_apply, showProgress_eq hop]
  exact hread

end Accepting

/-- Accepts `size n` of `n` bytes. -/
def taking (size : Nat → Nat) : DownloadOperator Empty := ⟨fun _ data => .ok (size data.length), fun _ => .ok ()⟩

theorem reports_wholeRead : ∃ d, download (taking id) (some 2) [[0x68, 0x69]] = .ok () d ∧
    d.written = [0x68, 0x69] ∧ d.Reports := by
  have hop : (taking id).Accepts := ⟨fun _ data h => ⟨_, rfl, length_pos_iff.mpr h, le_rfl⟩, fun _ => rfl⟩
  have hreads : ∀ data ∈ [[0x68, 0x69]], data ≠ ([] : List UInt8) := by decide
  obtain ⟨d, hcall, hwritten, hreports⟩ := reports_iff hop (some 2) hreads
  exact ⟨d, hcall, hwritten, hreports.mpr ⟨rfl, trivial⟩⟩

/-- Two bytes are accepted one by one: the progress is 2 after the first, and 4 in the end. -/
theorem progress_of_byteByByte : download (taking fun _ => 1) none [[0x68, 0x69]] =
    .ok () ⟨4, none, [[0x68], [0x69]], [⟨0, none, 0⟩, ⟨2, none, 1⟩, ⟨4, none, 2⟩, ⟨4, none, 2⟩]⟩ := by
  decide +kernel

end Downloader

end YlongHttp.Client
