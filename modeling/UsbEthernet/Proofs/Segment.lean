import Mathlib.Logic.ExistsUnique
import UsbEthernet.Nic.UsbCall

/-! What arrives from the host, cut into segments: full transfers and the arrival that ends them.
Every sequence has exactly one cut. What a segment delivers and counts is read off the segment
alone, so nothing that arrives before or after it can matter. -/
namespace UsbEthernet

/-- What the bus side reports about the direction from the host. -/
inductive Arrival where
  | transfer (octets : Bytes)
  | failed (e : Error)
  | reset
deriving DecidableEq

def Arrival.call : Arrival → UsbCall
  | transfer octets => .receive octets
  | failed e => .receiveFailed e
  | reset => .reset

/-- Only a transfer of exactly the maximum packet size leaves its segment open. -/
def Arrival.isFull (maxPacket : Nat) : Arrival → Bool
  | transfer octets => octets.length == maxPacket
  | failed _ | reset => false

structure Segment where
  full : List Bytes
  last : Arrival
deriving DecidableEq

namespace Segment

def arrivals (s : Segment) : List Arrival :=
  s.full.map .transfer ++ [s.last]

structure WellFormed (maxPacket : Nat) (s : Segment) : Prop where
  full : ∀ octets ∈ s.full, octets.length = maxPacket
  last : s.last.isFull maxPacket = false

instance (maxPacket : Nat) (s : Segment) : Decidable (s.WellFormed maxPacket) :=
  decidable_of_iff
    ((∀ octets ∈ s.full, octets.length = maxPacket) ∧ s.last.isFull maxPacket = false)
    ⟨fun h => ⟨h.1, h.2⟩, fun h => ⟨h.full, h.last⟩⟩

end Segment

/-- The packet of a frame that holds a header: destination, source and protocol number, the
higher octet first, and the rest as the payload. -/
def Packet.ofFrame (frame : Bytes) : Packet where
  header := {
    dest := ⟨frame.getD 0 0, frame.getD 1 0, frame.getD 2 0, frame.getD 3 0, frame.getD 4 0,
      frame.getD 5 0⟩
    src := ⟨frame.getD 6 0, frame.getD 7 0, frame.getD 8 0, frame.getD 9 0, frame.getD 10 0,
      frame.getD 11 0⟩
    proto := .ofOctets (frame.getD 12 0) (frame.getD 13 0) }
  payload := frame.drop headerLength

namespace RxStats

instance : Add RxStats where
  add a b := ⟨a.frames + b.frames, a.runts + b.runts, a.oversize + b.oversize,
    a.aborted + b.aborted⟩

instance : Zero RxStats where
  zero := {}

theorem add_def (a b : RxStats) : a + b = ⟨a.frames + b.frames, a.runts + b.runts,
    a.oversize + b.oversize, a.aborted + b.aborted⟩ := rfl

theorem zero_add (a : RxStats) : 0 + a = a := by
  rw [add_def, show (0 : RxStats) = {} from rfl]
  simp only [UInt32.zero_add]

theorem add_zero (a : RxStats) : a + 0 = a := by
  rw [add_def, show (0 : RxStats) = {} from rfl]
  simp only [UInt32.add_zero]

theorem add_assoc (a b c : RxStats) : a + b + c = a + (b + c) := by
  simp only [add_def, UInt32.add_assoc]

end RxStats

/-- What becomes of a segment. -/
inductive Verdict where
  | nothing
  | runt
  | oversize
  | delivered (p : Packet)
  /-- An open frame given up, which may have grown too long before. -/
  | aborted (oversize : Bool)
deriving DecidableEq

namespace Verdict

def ofFrame (frame : Bytes) : Verdict :=
  if maxFrame < frame.length then oversize else delivered (.ofFrame frame)

def counts : Verdict → RxStats
  | nothing => {}
  | runt => { runts := 1 }
  | oversize => { oversize := 1 }
  | delivered _ => { frames := 1 }
  | aborted long => { oversize := if long then 1 else 0, aborted := 1 }

def packet? : Verdict → Option Packet
  | delivered p => some p
  | nothing | runt | oversize | aborted _ => none

end Verdict

/-- A segment without full transfers begins no frame unless it holds a header. -/
def Segment.verdict (s : Segment) : Verdict :=
  match s.last with
  | .transfer octets =>
    if s.full = [] ∧ octets.length < headerLength then
      if octets = [] then .nothing else .runt
    else .ofFrame (s.full.flatten ++ octets)
  | .failed _ | .reset =>
    if s.full = [] then .nothing else .aborted (maxFrame < s.full.flatten.length)

/-- What an open segment counts before its end: a frame that is already too long. -/
def openCounts (full : List Bytes) : RxStats :=
  { oversize := if maxFrame < full.flatten.length then 1 else 0 }

theorem openCounts_short {full : List Bytes} (short : full.flatten.length ≤ maxFrame) :
    openCounts full = 0 := by
  rw [openCounts, if_neg (Nat.not_lt.mpr short)]
  rfl

/-- The arrivals are these segments and, at the end, the full transfers of an open one. -/
structure Cut (maxPacket : Nat) (arrivals : List Arrival) (segments : List Segment)
    (rest : List Bytes) : Prop where
  joined : arrivals = segments.flatMap Segment.arrivals ++ rest.map .transfer
  segments : ∀ s ∈ segments, s.WellFormed maxPacket
  rest : ∀ octets ∈ rest, octets.length = maxPacket

/-- The segments of arrivals that follow the full transfers of an open segment, and the transfers
of the segment that is open after them. -/
def cut (maxPacket : Nat) : List Bytes → List Arrival → List Segment × List Bytes
  | full, [] => ([], full)
  | full, .transfer octets :: rest =>
    if octets.length = maxPacket then cut maxPacket (full ++ [octets]) rest
    else (⟨full, .transfer octets⟩ :: (cut maxPacket [] rest).1, (cut maxPacket [] rest).2)
  | full, last :: rest => (⟨full, last⟩ :: (cut maxPacket [] rest).1, (cut maxPacket [] rest).2)

variable {maxPacket : Nat}

theorem cut_full {octets : Bytes} (full : List Bytes) (rest : List Arrival)
    (h : octets.length = maxPacket) :
    cut maxPacket full (.transfer octets :: rest) = cut maxPacket (full ++ [octets]) rest := by
  simp only [cut, h, if_true]

theorem cut_last {last : Arrival} (full : List Bytes) (rest : List Arrival)
    (h : last.isFull maxPacket = false) :
    cut maxPacket full (last :: rest) =
      (⟨full, last⟩ :: (cut maxPacket [] rest).1, (cut maxPacket [] rest).2) := by
  cases last with
  | transfer octets =>
    simp only [Arrival.isFull, beq_eq_false_iff_ne] at h
    simp only [cut, if_neg h]
  | failed e => rfl
  | reset => rfl

theorem cut_fulls {octets : List Bytes} (full : List Bytes) (rest : List Arrival)
    (h : ∀ x ∈ octets, x.length = maxPacket) :
    cut maxPacket full (octets.map .transfer ++ rest) = cut maxPacket (full ++ octets) rest := by
  induction octets generalizing full with
  | nil => simp
  | cons x octets ih =>
    rw [List.map_cons, List.cons_append, cut_full _ _ (h x (by simp)),
      ih _ fun y hy => h y (by simp [hy])]
    simp

/-- An arrival leaves its segment open or ends it. -/
theorem Arrival.full_or_last (maxPacket : Nat) (a : Arrival) :
    (∃ octets, a = .transfer octets ∧ octets.length = maxPacket) ∨ a.isFull maxPacket = false := by
  cases a with
  | transfer octets =>
    by_cases h : octets.length = maxPacket
    · exact .inl ⟨octets, rfl, h⟩
    · exact .inr (by simpa only [isFull, beq_eq_false_iff_ne])
  | failed e => exact .inr rfl
  | reset => exact .inr rfl

theorem cut_spec (full : List Bytes) (arrivals : List Arrival)
    (h : ∀ octets ∈ full, octets.length = maxPacket) :
    Cut maxPacket (full.map .transfer ++ arrivals) (cut maxPacket full arrivals).1
      (cut maxPacket full arrivals).2 := by
  induction arrivals generalizing full with
  | nil => exact ⟨by simp [cut], by simp [cut], h⟩
  | cons a arrivals ih =>
    rcases a.full_or_last maxPacket with ⟨octets, rfl, length⟩ | last
    · have longer : ∀ x ∈ full ++ [octets], x.length = maxPacket :=
        List.forall_mem_append.mpr ⟨h, by simpa using length⟩
      rw [cut_full _ _ length]
      simpa using ih _ longer
    · obtain ⟨joined, segments, rest⟩ := ih [] (by simp)
      rw [cut_last _ _ last]
      refine ⟨?_, ?_, rest⟩
      · simp only [List.map_nil, List.nil_append] at joined
        simp [Segment.arrivals, ← joined]
      · intro s hs
        rcases List.mem_cons.mp hs with rfl | hs
        · exact ⟨h, last⟩
        · exact segments s hs

theorem Cut.eq_cut {arrivals : List Arrival} {segments : List Segment} {rest : List Bytes}
    (h : Cut maxPacket arrivals segments rest) : cut maxPacket [] arrivals = (segments, rest) := by
  obtain ⟨rfl, formed, full⟩ := h
  induction segments with
  | nil =>
    have := cut_fulls [] [] full
    simpa [cut] using this
  | cons s segments ih =>
    obtain ⟨first, last⟩ := formed s (by simp)
    rw [List.flatMap_cons, Segment.arrivals, List.append_assoc, List.append_assoc,
      cut_fulls _ _ first, List.singleton_append, cut_last _ _ last,
      ih fun t ht => formed t (by simp [ht]), List.nil_append]

theorem existsUnique_cut (maxPacket : Nat) (arrivals : List Arrival) :
    ∃! parts : List Segment × List Bytes, Cut maxPacket arrivals parts.1 parts.2 := by
  refine ⟨cut maxPacket [] arrivals, ?_, ?_⟩
  · exact cut_spec [] arrivals (by simp)
  · intro parts h
    exact h.eq_cut.symm

/-- A packet is made of the transfers of its segment and of nothing else. -/
theorem Segment.packet_spec {s : Segment} {p : Packet} (h : s.verdict.packet? = some p) :
    ∃ octets, s.last = .transfer octets ∧ (s.full.flatten ++ octets).length ≤ maxFrame ∧
      p = .ofFrame (s.full.flatten ++ octets) := by
  unfold verdict at h
  split at h
  · rename_i octets last
    split at h
    · split at h <;> cases h
    · unfold Verdict.ofFrame at h
      split at h
      · cases h
      · rename_i fits
        cases h
        exact ⟨octets, last, Nat.not_lt.mp fits, rfl⟩
  · split at h <;> cases h
  · split at h <;> cases h

/-- A packet is made of successive transfers, without an abort between them. -/
theorem Cut.packet_octets {arrivals : List Arrival} {segments : List Segment} {rest : List Bytes}
    {s : Segment} {p : Packet} (h : Cut maxPacket arrivals segments rest) (mem : s ∈ segments)
    (delivered : s.verdict.packet? = some p) :
    ∃ before octets after, arrivals = before ++ octets.map .transfer ++ after ∧
      p = .ofFrame (List.flatten octets) := by
  obtain ⟨octets, last, _, rfl⟩ := Segment.packet_spec delivered
  obtain ⟨first, others, rfl⟩ := List.mem_iff_append.mp mem
  refine ⟨first.flatMap Segment.arrivals, s.full ++ [octets],
    others.flatMap Segment.arrivals ++ rest.map .transfer, ?_, by simp⟩
  rw [h.joined]
  simp [Segment.arrivals, last]

end UsbEthernet
