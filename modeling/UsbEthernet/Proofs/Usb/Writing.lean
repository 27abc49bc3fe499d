import Mathlib
import UsbEthernet.Usb.Halves

/-! A frame written by itself, without the loop to the host. One poll writes its transfers from the
first on, until all are written, one fails or one has to wait; how many it writes is the least of
their number, of what the host still takes and of what comes before a failure. -/
namespace UsbEthernet

namespace InPipe

/-- A number of transfers, which has no end where it is not set. -/
def limit : Option Nat → ℕ∞
  | none => ⊤
  | some count => count

theorem limit_eq_zero_iff {count : Option Nat} : limit count = 0 ↔ count = some 0 := by
  cases count <;> simp [limit]

/-- What is not used up is one more than what is left after a transfer. -/
theorem limit_pred {count : Option Nat} (left : count ≠ some 0) :
    limit count = limit (count.map (· - 1)) + 1 := by
  rcases count with _ | _ | count
  · rfl
  · exact absurd rfl left
  · rfl

/-- The endpoints after so many bulk transfers. -/
def lower (p : InPipe) (count : Nat) : InPipe :=
  { p with budget := p.budget.map (· - count), failIn := p.failIn.map (· - count) }

theorem lower_zero (p : InPipe) : p.lower 0 = p := by
  obtain ⟨_ | budget, _ | failIn, failNotify⟩ := p <;> rfl

theorem lower_lower (p : InPipe) (count more : Nat) :
    (p.lower count).lower more = p.lower (count + more) := by
  simp only [lower, Option.map_map, Function.comp_def, Nat.sub_sub]

theorem write_fails {p : InPipe} (fails : p.failIn = some 0) (x : Bytes) :
    p.write true x = some ({ p with failIn := none }, .failed) := by
  simp [write, fails]

theorem write_waits {p : InPipe} (works : p.failIn ≠ some 0) (spent : p.budget = some 0)
    (x : Bytes) : p.write true x = none := by
  simp [write, works, spent]

theorem write_succeeds {p : InPipe} (works : p.failIn ≠ some 0) (takes : p.budget ≠ some 0)
    (x : Bytes) : p.write true x = some (p.lower 1, .data x) := by
  simp [write, works, takes, lower]

theorem writeAll_off (p : InPipe) (x : Bytes) (rest : List Bytes) :
    p.writeAll false (x :: rest) = (p, .failed, [.off]) := by
  simp [writeAll, write, InEvent.succeeded]

/-- How writes to an attached host end after so many of all transfers: behind the last one, at one
that fails, or at one that has to wait and would not fail. The endpoints are left as they are then,
and a failure is seen. -/
inductive Ends (p : InPipe) (all : Nat) : Nat → InPipe × Outcome × List InEvent → Prop where
  | done : all ≤ limit p.budget → all ≤ limit p.failIn → Ends p all all (p.lower all, .done, [])
  | failed : count < all → count ≤ limit p.budget → limit p.failIn = count →
      Ends p all count ({ p.lower count with failIn := none }, .failed, [.failed])
  | pending : count < all → limit p.budget = count → count < limit p.failIn →
      Ends p all count (p.lower count, .pending, [])

variable {p : InPipe} {all count : Nat} {ending : InPipe × Outcome × List InEvent}

/-- One transfer more that is written moves the end by one. -/
theorem Ends.succ (takes : p.budget ≠ some 0) (works : p.failIn ≠ some 0)
    (ends : (p.lower 1).Ends all count ending) : p.Ends (all + 1) (count + 1) ending := by
  have budget : limit p.budget = limit (p.lower 1).budget + 1 := limit_pred takes
  have failIn : limit p.failIn = limit (p.lower 1).failIn + 1 := limit_pred works
  cases ends with
  | done taken spared =>
    rw [lower_lower, Nat.add_comm 1]
    refine .done ?_ ?_
    · rw [budget]
      exact add_le_add_left taken 1
    · rw [failIn]
      exact add_le_add_left spared 1
  | failed more taken fails =>
    rw [lower_lower, Nat.add_comm 1]
    refine .failed (Nat.succ_lt_succ more) ?_ ?_
    · rw [budget]
      exact add_le_add_left taken 1
    · rw [failIn, fails]
      rfl
  | pending more spent spared =>
    rw [lower_lower, Nat.add_comm 1]
    refine .pending (Nat.succ_lt_succ more) ?_ ?_
    · rw [budget, spent]
      rfl
    · rw [failIn, Nat.cast_succ]
      exact (ENat.add_lt_add_iff_right ENat.one_ne_top).mpr spared

/-- Writes to an attached host put out the first transfers in order, and end in one of the three
ways. -/
theorem writeAll_ends (p : InPipe) (all : List Bytes) :
    ∃ count ending, p.Ends all.length count ending ∧ p.writeAll true all =
      (ending.1, ending.2.1, (all.take count).map .data ++ ending.2.2) := by
  induction all generalizing p with
  | nil =>
    refine ⟨0, (p.lower 0, .done, []), .done (by simp) (by simp), ?_⟩
    rw [lower_zero]
    rfl
  | cons x all ih =>
    by_cases fails : p.failIn = some 0
    · refine ⟨0, ({ p.lower 0 with failIn := none }, .failed, [.failed]),
        .failed (Nat.succ_pos _) (by simp) (limit_eq_zero_iff.mpr fails), ?_⟩
      rw [lower_zero]
      simp only [writeAll, write_fails fails, InEvent.succeeded]
      rfl
    · by_cases spent : p.budget = some 0
      · refine ⟨0, (p.lower 0, .pending, []), .pending (Nat.succ_pos _)
          (limit_eq_zero_iff.mpr spent) ?_, ?_⟩
        · exact pos_iff_ne_zero.mpr (mt limit_eq_zero_iff.mp fails)
        · rw [lower_zero]
          simp only [writeAll, write_waits fails spent]
          rfl
      · obtain ⟨count, ending, ends, wrote⟩ := ih (p.lower 1)
        refine ⟨count + 1, ending, ends.succ spent fails, ?_⟩
        simp only [writeAll, write_succeeds fails spent, InEvent.succeeded, if_true, wrote]
        rfl

/-- The number of transfers written. -/
theorem Ends.count_eq (ends : p.Ends all count ending) :
    (count : ℕ∞) = min (all : ℕ∞) (min (limit p.budget) (limit p.failIn)) := by
  cases ends with
  | done taken spared => exact (min_eq_left (le_min taken spared)).symm
  | failed more taken fails =>
    rw [min_eq_right (fails.trans_le taken), fails]
    exact (min_eq_right (Nat.cast_le.mpr more.le)).symm
  | pending more spent spared =>
    rw [min_eq_left (spent.trans_le spared.le), spent]
    exact (min_eq_right (Nat.cast_le.mpr more.le)).symm

/-- Writes end well when there is nothing left to write. -/
theorem Ends.done_of (ends : p.Ends all count ending) (whole : count = all) :
    ending = (p.lower count, .done, []) := by
  cases ends with
  | done => rfl
  | failed more | pending more => exact absurd whole more.ne

/-- They fail when the failure comes before the last one, and no later than the host stops taking
any. -/
theorem Ends.failed_of (ends : p.Ends all count ending) (early : limit p.failIn < all)
    (first : limit p.failIn ≤ limit p.budget) :
    ending = ({ p.lower count with failIn := none }, .failed, [.failed]) := by
  cases ends with
  | done taken spared => exact absurd early spared.not_gt
  | failed => rfl
  | pending more spent spared => exact absurd first (spent.trans_lt spared).not_ge

/-- They wait otherwise. -/
theorem Ends.pending_of (ends : p.Ends all count ending) (short : count ≠ all)
    (spared : ¬(limit p.failIn < all ∧ limit p.failIn ≤ limit p.budget)) :
    ending = (p.lower count, .pending, []) := by
  cases ends with
  | done => exact absurd rfl short
  | failed more taken fails =>
    refine absurd ⟨?_, fails.trans_le taken⟩ spared
    rw [fails]
    exact Nat.cast_lt.mpr more
  | pending => rfl

end InPipe

namespace Halves

open InPipe

/-- What a call writes is what its transfers come to at the endpoint. -/
theorem call_send_eq {h : Halves} {frame : Bytes} {pipe : InPipe} {outcome : Outcome}
    {events : List InEvent}
    (wrote : h.bus.inPipe.writeAll h.bus.attached (transfers frame h.maxPacket) =
      (pipe, outcome, events)) :
    h.call (.send frame) =
      ({ h with bus.inPipe := pipe }, .ofOutcome outcome, events.map .toHost) := by
  simp only [call, wrote]

/-- A frame sent by itself puts out a prefix of its transfers, exactly as long as the host takes
them and none fails. A frame without transfers does not get as far as the endpoint, and without a
host nothing is written. A failure on the transfer the host does not take any more is still met. -/
theorem send_writes_prefix (h : Halves) (frame : Bytes) :
    let all := transfers frame h.maxPacket
    let pipe := h.bus.inPipe
    let left (pipe : InPipe) : Halves := { h with bus.inPipe := pipe }
    (all = [] → h.call (.send frame) = (h, .done, [])) ∧
    (all ≠ [] → h.bus.attached = false →
      h.call (.send frame) = (h, .failed .txFailure, [.toHost .off])) ∧
    (h.bus.attached = true → ∃ count : ℕ,
      (count : ℕ∞) = min (all.length : ℕ∞) (min (limit pipe.budget) (limit pipe.failIn)) ∧
      let written := (all.take count).map fun x => Event.toHost (.data x)
      (count = all.length → h.call (.send frame) = (left (pipe.lower count), .done, written)) ∧
      (limit pipe.failIn < all.length → limit pipe.failIn ≤ limit pipe.budget →
        h.call (.send frame) = (left { pipe.lower count with failIn := none },
          .failed .txFailure, written ++ [.toHost .failed])) ∧
      (count ≠ all.length →
        ¬(limit pipe.failIn < all.length ∧ limit pipe.failIn ≤ limit pipe.budget) →
        h.call (.send frame) = (left (pipe.lower count), .pending, written))) := by
  intro all pipe left
  refine ⟨fun nothing => ?_, fun nonempty off => ?_, fun attached => ?_⟩
  · have wrote : pipe.writeAll h.bus.attached all = (pipe, .done, []) := by
      rw [nothing]
      rfl
    exact call_send_eq wrote
  · have wrote : pipe.writeAll h.bus.attached all = (pipe, .failed, [.off]) := by
      obtain ⟨x, rest, eq⟩ := List.exists_cons_of_ne_nil nonempty
      rw [off, eq, writeAll_off]
    exact call_send_eq wrote
  · obtain ⟨count, ending, ends, wrote⟩ := writeAll_ends pipe all
    have sent := call_send_eq (attached ▸ wrote)
    have written (tail : List InEvent) :
        ((all.take count).map InEvent.data ++ tail).map Event.toHost =
          ((all.take count).map fun x => Event.toHost (.data x)) ++ tail.map .toHost := by
      rw [List.map_append, List.map_map]
      rfl
    refine ⟨count, ends.count_eq, fun whole => ?_, fun early first => ?_, fun short spared => ?_⟩
    · rw [sent, ends.done_of whole, written, List.map_nil, List.append_nil]
      rfl
    · rw [sent, ends.failed_of early first, written]
      rfl
    · rw [sent, ends.pending_of short spared, written, List.map_nil, List.append_nil]
      rfl

/-- A frame of two full packets is three transfers. The host takes two, and the third, which holds
nothing, fails. -/
theorem send_writes_prefix_failing :
    let packet : Bytes := List.replicate 14 7
    let h : Halves :=
      { maxPacket := 14, interface := 0,
        bus := { attached := true, inPipe := { budget := some 2, failIn := some 2 } } }
    h.bus.attached = true ∧ transfers (packet ++ packet) 14 = [packet, packet, []] ∧
      h.call (.send (packet ++ packet)) =
        ({ h with bus.inPipe := { budget := some 0 } }, .failed .txFailure,
          [.toHost (.data packet), .toHost (.data packet), .toHost .failed]) := by
  intro packet h
  have three : transfers (packet ++ packet) 14 = [packet, packet, []] := by cbv
  refine ⟨rfl, three, ?_⟩
  obtain ⟨-, -, writes⟩ := h.send_writes_prefix (packet ++ packet)
  obtain ⟨count, least, -, fails, -⟩ := writes rfl
  rw [show transfers (packet ++ packet) h.maxPacket = _ from three] at least fails
  have two : count = 2 := by
    rw [show limit h.bus.inPipe.failIn = (2 : ℕ) from rfl, min_self] at least
    exact ENat.natCast_inj.mp (least.trans (min_eq_right (Nat.cast_le.mpr (by decide))))
  have sent := fails (Nat.cast_lt.mpr (by decide)) le_rfl
  rw [sent, two]
  rfl

end Halves
end UsbEthernet
