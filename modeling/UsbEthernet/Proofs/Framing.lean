import UsbEthernet.Proofs.Dispatch
import UsbEthernet.Proofs.Splitting

/-! Cutting frames into transfers and putting them together again undo each other. The stream
holds no lengths; that the last transfer of a frame is short is all that tells frames apart. -/
namespace UsbEthernet

namespace Packet

/-- The frame that carries the packet. -/
def octets (p : Packet) : Bytes :=
  p.header.toBytes ++ p.payload

theorem octets_ofFrame {frame : Bytes} (h : headerLength ≤ frame.length) :
    (ofFrame frame).octets = frame := by
  obtain ⟨header, payload, rfl⟩ := Header.exists_toBytes_append h
  rw [ofFrame_toBytes_append, octets]

theorem ofFrame_octets (p : Packet) : ofFrame p.octets = p :=
  ofFrame_toBytes_append p.header p.payload

theorem length_octets (p : Packet) : p.octets.length = headerLength + p.payload.length := by
  rw [octets, List.length_append, Header.length_toBytes]

end Packet

/-- The transfers of a frame of proper length are a segment that delivers it. -/
theorem Parts.segment {maxPacket : Nat} {frame last : Bytes} {full : List Bytes}
    (parts : Parts maxPacket frame full last) (header : headerLength ≤ frame.length)
    (fits : frame.length ≤ maxFrame) :
    (Segment.mk full (.transfer last)).WellFormed maxPacket ∧
      (Segment.mk full (.transfer last)).verdict = .delivered (.ofFrame frame) := by
  obtain ⟨rfl, lengths, short⟩ := parts
  refine ⟨⟨lengths, ?_⟩, ?_⟩
  · simpa only [Arrival.isFull, beq_eq_false_iff_ne] using Nat.ne_of_lt short
  · have begun : ¬(full = [] ∧ last.length < headerLength) := by
      rintro ⟨rfl, runt⟩
      exact Nat.not_le.mpr runt header
    simp only [Segment.verdict, if_neg begun, Verdict.ofFrame, if_neg (Nat.not_lt.mpr fits)]

/-- What becomes of a segment that a transfer ends. -/
theorem Segment.verdict_transfer (full : List Bytes) (octets : Bytes) :
    (full = [] ∧ octets = []) ∨
      (Segment.mk full (.transfer octets)).verdict = .runt ∨
      (Segment.mk full (.transfer octets)).verdict = .oversize ∨
      ((full = [] → headerLength ≤ octets.length) ∧
        (full.flatten ++ octets).length ≤ maxFrame ∧
        (Segment.mk full (.transfer octets)).verdict =
          .delivered (.ofFrame (full.flatten ++ octets))) := by
  by_cases begun : full = [] ∧ octets.length < headerLength
  · by_cases empty : octets = []
    · exact .inl ⟨begun.1, empty⟩
    · exact .inr (.inl (by simp only [verdict, if_pos begun, if_neg empty]))
  · have candidate : (Segment.mk full (.transfer octets)).verdict =
        .ofFrame (full.flatten ++ octets) := by
      simp only [verdict, if_neg begun]
    rw [candidate, Verdict.ofFrame]
    by_cases long : maxFrame < (full.flatten ++ octets).length
    · exact .inr (.inr (.inl (if_pos long)))
    · refine .inr (.inr (.inr ⟨?_, Nat.not_lt.mp long, if_neg long⟩))
      intro empty
      exact Nat.not_lt.mp fun runt => begun ⟨empty, runt⟩

namespace Reassembler

/-- Takes transfers one after the other and gives the packets whose frames they complete. -/
def receiveAll (r : Reassembler) : List Bytes → Reassembler × List Packet
  | [] => (r, [])
  | x :: rest =>
    (((r.receive x).1.receiveAll rest).1,
      (r.receive x).2.toList ++ ((r.receive x).1.receiveAll rest).2)

theorem receiveAll_append (r : Reassembler) (first second : List Bytes) :
    r.receiveAll (first ++ second) =
      (((r.receiveAll first).1.receiveAll second).1,
        (r.receiveAll first).2 ++ ((r.receiveAll first).1.receiveAll second).2) := by
  induction first generalizing r with
  | nil => rfl
  | cons x first ih => simp only [List.cons_append, receiveAll, ih, List.append_assoc]

variable {maxPacket : Nat}

theorem receiveAll_full {octets : List Bytes} (base : RxStats) (full : List Bytes)
    (holds_header : headerLength ≤ maxPacket) (lengths : ∀ x ∈ octets, x.length = maxPacket) :
    (within maxPacket base full).receiveAll octets =
      (within maxPacket base (full ++ octets), []) := by
  induction octets generalizing full with
  | nil => rw [List.append_nil, receiveAll]
  | cons x octets ih =>
    obtain ⟨length, lengths⟩ := List.forall_mem_cons.mp lengths
    have received := receive_full base full holds_header length
    simp only [receiveAll, received, ih _ lengths, List.append_assoc, List.singleton_append,
      Option.toList_none, List.nil_append]

/-- Between frames, the transfers of a frame deliver it and leave no frame open. -/
theorem receiveAll_transfers {frame : Bytes} (base : RxStats)
    (holds_header : headerLength ≤ maxPacket) (header : headerLength ≤ frame.length)
    (fits : frame.length ≤ maxFrame) :
    (within maxPacket base []).receiveAll (transfers frame maxPacket) =
      (within maxPacket (base + { frames := 1 }) [], [.ofFrame frame]) := by
  have nonempty : frame ≠ [] := by
    rintro rfl
    cases header
  obtain ⟨full, last, parts, carried⟩ :=
    exists_transfers (Nat.lt_of_lt_of_le (by decide) holds_header) nonempty
  obtain ⟨formed, verdict⟩ := parts.segment header fits
  have fulls := receiveAll_full base [] holds_header parts.full
  have ended := receive_last base holds_header parts.full (Nat.ne_of_lt parts.short)
  rw [verdict] at ended
  rw [carried, receiveAll_append, fulls, List.nil_append]
  simp only [receiveAll, ended]
  rfl

theorem receiveAll_frames {frames : List Bytes} (base : RxStats)
    (holds_header : headerLength ≤ maxPacket)
    (lengths : ∀ f ∈ frames, headerLength ≤ f.length ∧ f.length ≤ maxFrame) :
    (within maxPacket base []).receiveAll (frames.flatMap (transfers · maxPacket)) =
      (within maxPacket { base with frames := base.frames + UInt32.ofNat frames.length } [],
        frames.map .ofFrame) := by
  induction frames generalizing base with
  | nil =>
    have counted := (UInt32.add_zero base.frames).symm
    exact congrArg (within maxPacket { base with frames := · } [], []) counted
  | cons frame frames ih =>
    obtain ⟨⟨header, fits⟩, lengths⟩ := List.forall_mem_cons.mp lengths
    have first := receiveAll_transfers base holds_header header fits
    rw [List.flatMap_cons, receiveAll_append, first, ih _ lengths, List.length_cons,
      RxStats.add_def]
    simp only [UInt32.add_zero, Counter.one_add, List.map_cons, List.singleton_append]

/-- At none of the transfers is a runt or an overlong frame counted. -/
def Accepts (r : Reassembler) : List Bytes → Prop
  | [] => True
  | x :: rest =>
    (r.receive x).1.stats.runts = r.stats.runts ∧
      (r.receive x).1.stats.oversize = r.stats.oversize ∧ (r.receive x).1.Accepts rest

instance decidableAccepts (r : Reassembler) : (xs : List Bytes) → Decidable (r.Accepts xs)
  | [] => .isTrue trivial
  | x :: rest =>
    have := decidableAccepts (r.receive x).1 rest
    inferInstanceAs (Decidable (_ ∧ _ ∧ _))

theorem accepts_append {r : Reassembler} {first second : List Bytes} (accepted : r.Accepts first)
    (rest : (r.receiveAll first).1.Accepts second) : r.Accepts (first ++ second) := by
  induction first generalizing r with
  | nil => exact rest
  | cons x first ih => exact ⟨accepted.1, accepted.2.1, ih accepted.2.2 rest⟩

/-- As long as the open frame is not too long, nothing has been counted of it. -/
theorem stats_within {base : RxStats} {full : List Bytes} (short : full.flatten.length ≤ maxFrame) :
    (within maxPacket base full).stats = base := by
  rw [within, openCounts_short short, RxStats.add_zero]

theorem accepts_full {octets : List Bytes} (base : RxStats) (full : List Bytes)
    (holds_header : headerLength ≤ maxPacket) (lengths : ∀ x ∈ octets, x.length = maxPacket)
    (short : (full ++ octets).flatten.length ≤ maxFrame) :
    (within maxPacket base full).Accepts octets := by
  induction octets generalizing full with
  | nil => trivial
  | cons x octets ih =>
    obtain ⟨length, lengths⟩ := List.forall_mem_cons.mp lengths
    have received := receive_full base full holds_header length
    rw [← List.singleton_append, ← List.append_assoc] at short
    have longer : (full ++ [x]).flatten.length ≤ maxFrame := by
      rw [List.flatten_append, List.length_append] at short
      omega
    have shorter : full.flatten.length ≤ maxFrame := by
      rw [List.flatten_append, List.length_append] at longer
      omega
    rw [Accepts, received, stats_within longer, stats_within shorter]
    exact ⟨rfl, rfl, ih _ lengths short⟩

theorem accepts_transfers {frame : Bytes} (base : RxStats)
    (holds_header : headerLength ≤ maxPacket) (header : headerLength ≤ frame.length)
    (fits : frame.length ≤ maxFrame) :
    (within maxPacket base []).Accepts (transfers frame maxPacket) := by
  have nonempty : frame ≠ [] := by
    rintro rfl
    cases header
  obtain ⟨full, last, parts, carried⟩ :=
    exists_transfers (Nat.lt_of_lt_of_le (by decide) holds_header) nonempty
  obtain ⟨formed, verdict⟩ := parts.segment header fits
  have short : full.flatten.length ≤ maxFrame := by
    rw [← parts.joined, List.length_append] at fits
    omega
  have fulls := receiveAll_full base [] holds_header parts.full
  have ended := receive_last base holds_header parts.full (Nat.ne_of_lt parts.short)
  rw [carried]
  refine accepts_append (accepts_full base [] holds_header parts.full short) ?_
  rw [fulls, List.nil_append, Accepts, ended, verdict, within_nil, stats_within short]
  exact ⟨UInt32.add_zero _, UInt32.add_zero _, trivial⟩

theorem accepts_frames {frames : List Bytes} (base : RxStats)
    (holds_header : headerLength ≤ maxPacket)
    (lengths : ∀ f ∈ frames, headerLength ≤ f.length ∧ f.length ≤ maxFrame) :
    (within maxPacket base []).Accepts (frames.flatMap (transfers · maxPacket)) := by
  induction frames generalizing base with
  | nil => trivial
  | cons frame frames ih =>
    obtain ⟨⟨header, fits⟩, lengths⟩ := List.forall_mem_cons.mp lengths
    rw [List.flatMap_cons]
    refine accepts_append (accepts_transfers base holds_header header fits) ?_
    rw [receiveAll_transfers base holds_header header fits]
    exact ih _ lengths

theorem receiveAll_aborted (r : Reassembler) (xs : List Bytes) :
    (r.receiveAll xs).1.stats.aborted = r.stats.aborted := by
  induction xs generalizing r with
  | nil => rfl
  | cons x xs ih => exact (ih _).trans (r.receive_spec x).2.1

/-- The transfers end in no open frame, no runt and no overlong frame is counted, and none of the
transfers between frames is empty. -/
structure Clean (r : Reassembler) (xs : List Bytes) : Prop where
  idle : (r.receiveAll xs).1.phase = .idle
  accepted : r.Accepts xs
  stray : ∀ before after, xs = before ++ [] :: after → (r.receiveAll before).1.phase ≠ .idle

theorem Clean.tail {r : Reassembler} {x : Bytes} {xs : List Bytes} (clean : r.Clean (x :: xs)) :
    (r.receive x).1.Clean xs := by
  refine ⟨clean.idle, clean.accepted.2.2, ?_⟩
  rintro before after rfl
  exact clean.stray (x :: before) after rfl

/-- The transfers of the frames that are delivered are those that were taken, with the full ones
of the frame that was open before them. -/
theorem transfers_receiveAll {full xs : List Bytes} {base : RxStats}
    (holds_header : headerLength ≤ maxPacket) (lengths : ∀ x ∈ full, x.length = maxPacket)
    (short : full.flatten.length ≤ maxFrame) (sizes : ∀ x ∈ xs, x.length ≤ maxPacket)
    (clean : (within maxPacket base full).Clean xs) :
    let frames := ((within maxPacket base full).receiveAll xs).2.map Packet.octets
    frames.flatMap (transfers · maxPacket) = full ++ xs ∧
      ∀ f ∈ frames, headerLength ≤ f.length ∧ f.length ≤ maxFrame := by
  induction xs generalizing base full with
  | nil =>
    have empty : full = [] := within_idle_iff.mp clean.idle
    simp [receiveAll, empty]
  | cons x xs ih =>
    obtain ⟨size, sizes⟩ := List.forall_mem_cons.mp sizes
    obtain ⟨runts, oversize, -⟩ := clean.accepted
    have later := clean.tail
    rw [stats_within short] at runts oversize
    by_cases length : x.length = maxPacket
    · have received := receive_full base full holds_header length
      have longer : ∀ y ∈ full ++ [x], y.length = maxPacket :=
        List.forall_mem_append.mpr ⟨lengths, by simpa using length⟩
      have fits : (full ++ [x]).flatten.length ≤ maxFrame := by
        refine Nat.not_lt.mp fun long => ?_
        rw [received, within_long long] at oversize
        simp [RxStats.add_def] at oversize
      rw [received] at later
      simpa [receiveAll, received] using ih longer fits sizes later
    · have received := receive_last base holds_header lengths length
      rw [received, within_nil] at runts oversize
      rw [received] at later
      -- A verdict that counts as malformed would show in the counters.
      obtain ⟨rfl, rfl⟩ | verdict | verdict | ⟨begun, fits, verdict⟩ :=
        Segment.verdict_transfer full x
      · exact absurd (within_idle_iff.mpr rfl) (clean.stray [] xs rfl)
      · simp [verdict, Verdict.counts, RxStats.add_def] at runts
      · simp [verdict, Verdict.counts, RxStats.add_def] at oversize
      · have shorter : x.length < maxPacket := Nat.lt_of_le_of_ne size length
        have parts : Parts maxPacket (full.flatten ++ x) full x := ⟨rfl, lengths, shorter⟩
        have header : headerLength ≤ (full.flatten ++ x).length := by
          cases full with
          | nil => exact begun rfl
          | cons y full =>
            have first := lengths y List.mem_cons_self
            simp only [List.flatten_cons, List.length_append]
            omega
        have nonempty : full.flatten ++ x ≠ [] := by
          intro empty
          rw [empty] at header
          cases header
        rw [verdict] at received later
        obtain ⟨rest, proper⟩ := ih (by simp) (by simp) sizes later
        simp only [receiveAll, received, Verdict.packet?, Option.toList_some,
          List.singleton_append, List.map_cons, List.flatMap_cons, Packet.octets_ofFrame header,
          parts.transfers nonempty, rest, List.forall_mem_cons]
        exact ⟨by simp, ⟨header, fits⟩, proper⟩

/-- Frames of proper length are what comes back from their transfers, with nothing else counted at
any of them and no frame left open. And transfers that leave no frame open, without a runt, an
overlong frame or a stray empty one among them, are the transfers of the frames that come back. -/
theorem receiveAll_inverts_transfers (config : Config) (stats : RxStats) :
    let idle : Reassembler := { maxPacket := config.maxPacket, stats }
    let wire := fun frames : List Bytes => frames.flatMap (transfers · config.maxPacket)
    let proper := fun f : Bytes => headerLength ≤ f.length ∧ f.length ≤ maxFrame
    (∀ frames : List Bytes, (∀ f ∈ frames, proper f) →
      (idle.receiveAll (wire frames)).2.map Packet.octets = frames ∧
      (idle.receiveAll (wire frames)).1 =
        { idle with stats := { stats with frames := stats.frames + UInt32.ofNat frames.length } } ∧
      idle.Accepts (wire frames) ∧
      ∀ before, before <+: wire frames →
        (idle.receiveAll before).1.stats.aborted = stats.aborted) ∧
    ∀ xs : List Bytes, (∀ x ∈ xs, x.length ≤ config.maxPacket) →
      (idle.receiveAll xs).1.phase = .idle →
      idle.Accepts xs →
      (∀ before after, xs = before ++ [] :: after →
        (idle.receiveAll before).1.phase ≠ .idle) →
      wire ((idle.receiveAll xs).2.map Packet.octets) = xs ∧
        ∀ f ∈ (idle.receiveAll xs).2.map Packet.octets, proper f := by
  intro idle wire proper
  have start : idle = within config.maxPacket stats [] := (within_nil stats).symm
  constructor
  · intro frames lengths
    have received := receiveAll_frames stats config.holds_header lengths
    have accepted := accepts_frames stats config.holds_header lengths
    rw [← start] at received accepted
    rw [received]
    refine ⟨?_, within_nil _, accepted, fun before _ => idle.receiveAll_aborted before⟩
    have kept : ∀ f ∈ frames, (Packet.octets ∘ Packet.ofFrame) f = id f :=
      fun f mem => Packet.octets_ofFrame (lengths f mem).1
    rw [List.map_map, List.map_congr_left kept, List.map_id]
  · intro xs sizes closed accepted stray
    rw [start] at closed accepted stray ⊢
    have clean : (within config.maxPacket stats []).Clean xs := ⟨closed, accepted, stray⟩
    exact transfers_receiveAll config.holds_header (by simp) (by simp) sizes clean

/-- A packet size that divides the longest frame: the empty transfer is what ends it. -/
theorem receiveAll_inverts_transfers_exact :
    let idle : Reassembler := { maxPacket := 757 }
    let block : Bytes := List.replicate 757 0
    let frames := [block ++ block, block]
    let xs := [block, block, [], block, []]
    (∀ f ∈ frames, headerLength ≤ f.length ∧ f.length ≤ maxFrame) ∧
      (idle.receiveAll (frames.flatMap (transfers · 757))).2.map Packet.octets = frames ∧
      (∀ x ∈ xs, x.length ≤ 757) ∧
      ((idle.receiveAll xs).2.map Packet.octets).flatMap (transfers · 757) = xs := by
  intro idle block frames xs
  let config : Config := ⟨.broadcast, .zero, 757, by decide, by decide⟩
  obtain ⟨cut_first, taken_first⟩ := receiveAll_inverts_transfers config {}
  have lengths : ∀ f ∈ frames, headerLength ≤ f.length ∧ f.length ≤ maxFrame := by
    decide +kernel
  have sizes : ∀ x ∈ xs, x.length ≤ 757 := by
    decide +kernel
  have stray : ∀ before after, xs = before ++ [] :: after →
      (idle.receiveAll before).1.phase ≠ .idle := by
    intro before after split
    have full : block ≠ [] := by
      decide
    rcases before with _ | ⟨_, _ | ⟨_, _ | ⟨_, _ | ⟨_, _ | ⟨_, _⟩⟩⟩⟩⟩ <;>
      simp [xs, full] at split
    · obtain ⟨rfl, rfl, _⟩ := split
      decide +kernel
    · obtain ⟨rfl, rfl, rfl, rfl, _⟩ := split
      decide +kernel
  refine ⟨lengths, (cut_first frames lengths).1, sizes, ?_⟩
  exact (taken_first xs sizes (by decide +kernel) (by decide +kernel) stray).1

end Reassembler
end UsbEthernet
