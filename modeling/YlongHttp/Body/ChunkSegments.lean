/-
Chunked bodies with trailers, in segments.

`SafeCuts` says where a body may be cut: not between the last zero of the size of the last
chunk and the byte that ends it, and not inside the line end of a trailer line. Then the
decoder does not depend on the cuts (`feed_eq_receive`).
-/

import YlongHttp.Body.ChunkScan

namespace YlongHttp.Body.Receiver

open Rust Codec ChunkBodyDecoder
open H2.Hpack (ascii)

/-- All cuts between the segments that follow `fed` are safe. -/
def SafeCuts : List UInt8 → List (List UInt8) → Prop
  | _, [] => True
  | fed, segment :: segments => SafeCut fed segment ∧ SafeCuts (fed ++ segment) segments

theorem fed_of_undecided {r r' : Receiver} {segment : List UInt8}
    (h : undecided receive r segment = some r') : r'.fed = r.fed ++ segment := by
  unfold undecided receive at h
  cases hcall : decode segment r.decoder with
  | ok value d =>
    simp only [hcall] at h
    split at h
    · rename_i d' hout
      split at hout
      · cases hout
      · split at hout
        · cases hout
          cases h
          rfl
        · cases hout
    · cases h
  | err | panic =>
    simp only [hcall] at h
    cases h

theorem along_of_safeCuts : ∀ {segments : List (List UInt8)} {r : Receiver}, SafeCuts r.fed segments →
    Along (undecided receive) (fun r segment => true = true → SafeCut r.fed segment) segments r := by
  intro segments
  induction segments with
  | nil =>
    intro r _
    trivial
  | cons segment segments ih =>
    rintro r ⟨hfirst, hrest⟩
    refine ⟨fun _ => hfirst, fun r' hnext => ih ?_⟩
    rw [fed_of_undecided hnext]
    exact hrest

/-- Segments give what their bytes give in one call. -/
theorem feed_eq_receive {segments : List (List UInt8)} (hne : ∀ g ∈ segments, g ≠ [])
    (hsafe : SafeCuts [] segments) :
    (feed receive segments (start true)).mapState (fun _ => ()) =
      (receive segments.flatten (start true)).mapState fun _ => () := by
  have hsegments := agrees_feed agrees_receive (rep_start true) hne (along_of_safeCuts hsafe)
  by_cases hflat : segments.flatten = []
  · rw [hflat] at hsegments ⊢
    exact hsegments.same (.more (rep_start true))
  · have hcut : SafeCut [] segments.flatten := fun _ _ h => absurd h Bool.false_ne_true
    exact hsegments.same (agrees_receive (rep_start true) hflat fun _ => hcut)

theorem feed_eq_receive_cut :
    (∀ g ∈ [ascii "5\r\nhel", ascii "lo\r\n0\r\na:b", ascii "\r\nc:d\r\n\r", ascii "\nrest"], g ≠ []) ∧
    SafeCuts [] [ascii "5\r\nhel", ascii "lo\r\n0\r\na:b", ascii "\r\nc:d\r\n\r", ascii "\nrest"] ∧
    (feed receive [ascii "5\r\nhel", ascii "lo\r\n0\r\na:b", ascii "\r\nc:d\r\n\r", ascii "\nrest"]
        (start true)).mapState (fun _ => ()) =
      (receive (ascii "5\r\nhello\r\n0\r\na:b\r\nc:d\r\n\r\nrest") (start true)).mapState fun _ => () := by
  refine ⟨?ne, ?safe, feed_eq_receive ?ne ?safe⟩
  case ne => decide
  case safe => exact ⟨fun _ _ h => absurd h Bool.false_ne_true, trivial, trivial, trivial, trivial⟩

/-- The number of trailer headers that a receiver has got. -/
def trailerCount : Outcome Unit HttpError (Option (Received × List UInt8)) → Nat
  | .ok (some ((_, .ok (some headers) _), _)) _ => headers.entries.length
  | _ => 0

/-- A cut behind the zero of the last chunk, after which the trailers are refused, and a cut in
the line end of a trailer line, after which the next line is lost. -/
theorem feed_ne_receive :
    (feed receive [ascii "0", ascii "\r\na:b\r\n\r\n"] (start true)).mapState (fun _ => ()) ≠
        (receive (ascii "0\r\na:b\r\n\r\n") (start true)).mapState (fun _ => ()) ∧
      (feed receive [ascii "0\r\na:b\r", ascii "\nc:d\r\n\r\n"] (start true)).mapState (fun _ => ()) ≠
        (receive (ascii "0\r\na:b\r\nc:d\r\n\r\n") (start true)).mapState fun _ => () := by
  constructor
  · intro heq
    have hok := congrArg Outcome.isOk heq
    revert hok
    decide +kernel
  · intro heq
    have hcount := congrArg trailerCount heq
    revert hcount
    decide +kernel

end YlongHttp.Body.Receiver
