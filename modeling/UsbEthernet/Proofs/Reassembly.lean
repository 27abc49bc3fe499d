import UsbEthernet.Proofs.Backlog
import UsbEthernet.Proofs.HeaderCodec

/-! The reassembler within a segment holds exactly the full transfers of that segment, and at the
end of the segment it has done what the segment's verdict says. So an interface that is shown any
arrivals counts and delivers what their cut does. -/
namespace UsbEthernet

theorem Packet.ofFrame_toBytes_append (h : Header) (payload : Bytes) :
    ofFrame (h.toBytes ++ payload) = ⟨h, payload⟩ := by
  obtain ⟨⟨_, _, _, _, _, _⟩, ⟨_, _, _, _, _, _⟩, proto⟩ := h
  simp [ofFrame, Header.toBytes, MacAddr.toBytes, EtherType.toBytes, EtherType.ofOctets_toBytes,
    headerLength]

theorem Header.parse_eq_ofFrame {frame : Bytes} (h : headerLength ≤ frame.length) :
    Header.parse frame = .ok ((Packet.ofFrame frame).header, (Packet.ofFrame frame).payload) := by
  obtain ⟨header, payload, rfl⟩ := exists_toBytes_append h
  rw [parse_toBytes_append, Packet.ofFrame_toBytes_append]

theorem Packet.fits_ofFrame {frame : Bytes} (h : frame.length ≤ maxFrame) :
    (Packet.ofFrame frame).fits = true := by
  unfold maxFrame at h
  simp only [fits, ofFrame, List.length_drop, decide_eq_true_eq]
  omega

namespace Reassembler

/-- The state within a segment with these full transfers; `base` counts what came before it. -/
def within (maxPacket : Nat) (base : RxStats) (full : List Bytes) : Reassembler where
  maxPacket
  phase :=
    if full = [] then .idle
    else if maxFrame < full.flatten.length then .discard
    else .active
  buffer := if maxFrame < full.flatten.length then [] else full.flatten
  stats := base + openCounts full

variable {maxPacket : Nat}

theorem within_nil (base : RxStats) :
    within maxPacket base [] = { maxPacket, stats := base } := by
  rw [within, openCounts_short (Nat.zero_le _), RxStats.add_zero]
  rfl

theorem within_long {base : RxStats} {full : List Bytes} (long : maxFrame < full.flatten.length) :
    within maxPacket base full =
      { maxPacket, phase := .discard, stats := base + { oversize := 1 } } := by
  have nonempty : full ≠ [] := by
    rintro rfl
    simp at long
  simp only [within, openCounts, nonempty, long, if_true, if_false]

theorem within_short {base : RxStats} {full : List Bytes} (nonempty : full ≠ [])
    (short : full.flatten.length ≤ maxFrame) :
    within maxPacket base full =
      { maxPacket, phase := .active, buffer := full.flatten, stats := base } := by
  simp only [within, nonempty, Nat.not_lt.mpr short, if_false, openCounts_short short,
    RxStats.add_zero]

theorem within_idle_iff {base : RxStats} {full : List Bytes} :
    (within maxPacket base full).phase = .idle ↔ full = [] := by
  by_cases empty : full = []
  · simp only [within, empty, if_true]
  · simp only [within, empty, if_false, iff_false]
    split <;> simp

/-- Where the transfer is not dropped unseen, it is added to the ones before it. -/
theorem collect_within {base : RxStats} {full : List Bytes} {octets : Bytes}
    (short : full.flatten.length ≤ maxFrame) (header : full = [] → headerLength ≤ octets.length) :
    (within maxPacket base full).collect octets =
      { maxPacket, buffer := full.flatten, stats := base : Reassembler }.extend octets := by
  by_cases empty : full = []
  · subst empty
    simp only [within_nil, collect, header rfl, if_true]
    rfl
  · rw [within_short empty short]
    rfl

theorem extend_full {base : RxStats} {full : List Bytes} {octets : Bytes}
    (length : octets.length = maxPacket) :
    { maxPacket, buffer := full.flatten, stats := base : Reassembler }.extend octets =
      (within maxPacket base (full ++ [octets]), none) := by
  simp only [extend, ends, length, bne_self_eq_false]
  split
  · rename_i long
    rw [within_long (by simpa using long)]
    simp only [Bool.false_eq_true, if_false, RxStats.add_def, UInt32.add_zero]
  · rename_i short
    rw [within_short (by simp) (by simpa using short)]
    simp

theorem receive_full {octets : Bytes} (base : RxStats) (full : List Bytes)
    (holds_header : headerLength ≤ maxPacket) (length : octets.length = maxPacket) :
    (within maxPacket base full).receive octets =
      (within maxPacket base (full ++ [octets]), none) := by
  by_cases long : maxFrame < full.flatten.length
  · have longer : maxFrame < (full ++ [octets]).flatten.length := by
      simp only [List.flatten_append, List.length_append]
      omega
    rw [within_long long, within_long longer]
    simp [receive, collect, ends, length]
  · have short := Nat.not_lt.mp long
    simp only [receive, collect_within short fun _ => length ▸ holds_header,
      extend_full length]

theorem receive_runt {base : RxStats} {octets : Bytes}
    (runt : octets.length < headerLength) :
    (within maxPacket base []).receive octets =
      (within maxPacket (base + (Segment.verdict ⟨[], .transfer octets⟩).counts) [],
        (Segment.verdict ⟨[], .transfer octets⟩).packet?) := by
  have no_header := Nat.not_le.mpr runt
  by_cases empty : octets = []
  · subst empty
    simp [within_nil, receive, collect, Segment.verdict, headerLength, Verdict.counts,
      Verdict.packet?, RxStats.add_def]
  · simp [within_nil, receive, collect, Segment.verdict, no_header, runt, empty, Verdict.counts,
      Verdict.packet?, RxStats.add_def]

/-- The transfer that ends a frame: the frame is dropped for its length or read as a packet. -/
theorem receive_candidate {base : RxStats} {full : List Bytes} {octets : Bytes}
    (short : full.flatten.length ≤ maxFrame) (header : full = [] → headerLength ≤ octets.length)
    (holds_header : headerLength ≤ (full.flatten ++ octets).length)
    (last : octets.length ≠ maxPacket) :
    (within maxPacket base full).receive octets =
      (within maxPacket (base + (Verdict.ofFrame (full.flatten ++ octets)).counts) [],
        (Verdict.ofFrame (full.flatten ++ octets)).packet?) := by
  have ends : (octets.length != maxPacket) = true := by simpa using last
  simp only [receive, collect_within short header, extend, Reassembler.ends, ends, if_true]
  by_cases long : maxFrame < (full.flatten ++ octets).length
  · simp only [long, if_true, Verdict.ofFrame, Verdict.counts, Verdict.packet?, within_nil,
      RxStats.add_def, UInt32.add_zero]
  · simp only [long, if_false, Verdict.ofFrame, Header.parse_eq_ofFrame holds_header,
      Verdict.counts, Verdict.packet?, within_nil, RxStats.add_def, UInt32.add_zero]

theorem receive_last {full : List Bytes} {octets : Bytes} (base : RxStats)
    (holds_header : headerLength ≤ maxPacket) (lengths : ∀ x ∈ full, x.length = maxPacket)
    (last : octets.length ≠ maxPacket) :
    (within maxPacket base full).receive octets =
      (within maxPacket (base + (Segment.verdict ⟨full, .transfer octets⟩).counts) [],
        (Segment.verdict ⟨full, .transfer octets⟩).packet?) := by
  by_cases empty : full = []
  · subst empty
    by_cases runt : octets.length < headerLength
    · exact receive_runt runt
    · have header := Nat.not_lt.mp runt
      have verdict : Segment.verdict ⟨[], .transfer octets⟩ =
          Verdict.ofFrame ([].flatten ++ octets) := by
        simp only [Segment.verdict, runt, and_false, if_false]
      rw [verdict]
      exact receive_candidate (by simp) (fun _ => header) (by simpa using header) last
  · have verdict : Segment.verdict ⟨full, .transfer octets⟩ =
        Verdict.ofFrame (full.flatten ++ octets) := by
      simp only [Segment.verdict, empty, false_and, if_false]
    rw [verdict]
    by_cases long : maxFrame < full.flatten.length
    · have longer : maxFrame < (full.flatten ++ octets).length := by
        rw [List.length_append]
        omega
      have ends : (octets.length != maxPacket) = true := by simpa using last
      simp only [within_long long, receive, collect, Reassembler.ends, ends, if_true,
        Verdict.ofFrame, longer, within_nil, Verdict.counts, Verdict.packet?]
    · refine receive_candidate (Nat.not_lt.mp long) (fun h => absurd h empty) ?_ last
      obtain ⟨x, rest, rfl⟩ := List.exists_cons_of_ne_nil empty
      have first := lengths x (by simp)
      simp only [List.flatten_cons, List.length_append]
      omega

theorem abort_within {last : Arrival} (maxPacket : Nat) (base : RxStats) (full : List Bytes)
    (abort : ∀ octets, last ≠ .transfer octets) :
    (within maxPacket base full).abort =
      within maxPacket (base + (Segment.verdict ⟨full, last⟩).counts) [] ∧
    (Segment.verdict ⟨full, last⟩).packet? = none := by
  have verdict : Segment.verdict ⟨full, last⟩ =
      if full = [] then .nothing else .aborted (maxFrame < full.flatten.length) := by
    cases last with
    | transfer octets => exact absurd rfl (abort octets)
    | failed e => rfl
    | reset => rfl
  rw [verdict]
  by_cases empty : full = []
  · subst empty
    refine ⟨?_, rfl⟩
    simp only [within_nil, Reassembler.abort, if_true, Verdict.counts, RxStats.add_def,
      UInt32.add_zero]
  · simp only [empty, if_false]
    refine ⟨?_, rfl⟩
    by_cases long : maxFrame < full.flatten.length
    · simp only [within_long long, long, within_nil, Reassembler.abort, reduceCtorEq, if_false,
        decide_true, if_true, Verdict.counts, RxStats.add_def, UInt32.add_zero]
    · simp only [within_short empty (Nat.not_lt.mp long), long, within_nil, Reassembler.abort,
        reduceCtorEq, if_false, decide_false, Bool.false_eq_true, Verdict.counts, RxStats.add_def,
        UInt32.add_zero]

/-- The state within some segment of transfers of this size. -/
def IsWithin (maxPacket : Nat) (r : Reassembler) : Prop :=
  ∃ base full, (∀ x ∈ full, x.length = maxPacket) ∧ r = within maxPacket base full

/-- The state within a segment whose full transfers are the ones that arrived last. -/
def IsAfter (maxPacket : Nat) (arrivals : List Arrival) (r : Reassembler) : Prop :=
  ∃ base full, (∀ x ∈ full, x.length = maxPacket) ∧ full.map .transfer <:+ arrivals ∧
    r = within maxPacket base full

theorem isWithin_iff {r : Reassembler} :
    r.IsWithin maxPacket ↔ ∃ arrivals, r.IsAfter maxPacket arrivals := by
  constructor
  · rintro ⟨base, full, lengths, state⟩
    exact ⟨full.map .transfer, base, full, lengths, List.suffix_rfl, state⟩
  · rintro ⟨_, base, full, lengths, -, state⟩
    exact ⟨base, full, lengths, state⟩

namespace IsWithin
variable {r : Reassembler}

/-- Between segments nothing is buffered. -/
theorem idle (reached : r.IsWithin maxPacket) (idle : r.phase = .idle) :
    r = within maxPacket r.stats [] := by
  obtain ⟨base, full, -, rfl⟩ := reached
  rw [within_idle_iff.mp idle, within_nil, within_nil]

/-- Exactly the transfers of the packet size leave a frame open. -/
theorem receive_idle_iff (reached : r.IsWithin maxPacket)
    (holds_header : headerLength ≤ maxPacket) (transfer : Bytes) :
    (r.receive transfer).1.phase = .idle ↔ transfer.length ≠ maxPacket := by
  obtain ⟨base, full, lengths, rfl⟩ := reached
  by_cases length : transfer.length = maxPacket
  · rw [receive_full base full holds_header length, within_idle_iff]
    simp [length]
  · rw [receive_last base holds_header lengths length, within_idle_iff]
    simp [length]

end IsWithin
end Reassembler

theorem Segment.fits_packet {s : Segment} {p : Packet} (h : s.verdict.packet? = some p) :
    p.fits = true := by
  obtain ⟨octets, _, fits, rfl⟩ := packet_spec h
  exact Packet.fits_ofFrame fits

theorem InboundCall.arrivals_map (arrivals : List Arrival) :
    InboundCall.arrivals (arrivals.map .arrival) = arrivals := by
  induction arrivals with
  | nil => rfl
  | cons a arrivals ih => exact congrArg (a :: ·) ih

namespace Inbound

def arrive (i : Inbound) : Arrival → Inbound
  | .transfer octets => i.receive octets
  | .failed _ | .reset => i.abort

/-- The answers that the stack gets, and the state after the calls. -/
def serve (i : Inbound) : List InboundCall → Inbound × List (Option Packet)
  | [] => (i, [])
  | .arrival a :: rest => (i.arrive a).serve rest
  | .pop :: rest => ((i.pop.1.serve rest).1, i.pop.2 :: (i.pop.1.serve rest).2)

theorem serve_append (i : Inbound) (first second : List InboundCall) :
    i.serve (first ++ second) =
      (((i.serve first).1.serve second).1,
        (i.serve first).2 ++ ((i.serve first).1.serve second).2) := by
  induction first generalizing i with
  | nil => rfl
  | cons call first ih =>
    cases call with
    | arrival a => exact ih (i.arrive a)
    | pop => simp only [List.cons_append, serve, ih]

theorem serve_map_arrival (i : Inbound) (arrivals : List Arrival) :
    i.serve (arrivals.map .arrival) = (arrivals.foldl arrive i, []) := by
  induction arrivals generalizing i with
  | nil => rfl
  | cons a arrivals ih => exact ih (i.arrive a)

variable {maxPacket : Nat} {base : RxStats} {full : List Bytes} {i : Inbound}

theorem arrive_full {octets : Bytes} (holds_header : headerLength ≤ maxPacket)
    (length : octets.length = maxPacket)
    (h : i.reassembler = .within maxPacket base full) :
    (i.arrive (.transfer octets)).reassembler = .within maxPacket base (full ++ [octets]) ∧
      (i.arrive (.transfer octets)).backlog = i.backlog := by
  have received := Reassembler.receive_full base full holds_header length
  simp only [arrive, receive, h, received, true_and]
  rfl

theorem arrive_last {last : Arrival} (holds_header : headerLength ≤ maxPacket)
    (lengths : ∀ x ∈ full, x.length = maxPacket) (ends : last.isFull maxPacket = false)
    (h : i.reassembler = .within maxPacket base full) :
    (i.arrive last).reassembler =
        .within maxPacket (base + (Segment.verdict ⟨full, last⟩).counts) [] ∧
      (i.arrive last).backlog =
        (Segment.verdict ⟨full, last⟩).packet?.toList.foldl Backlog.offer i.backlog := by
  cases last with
  | transfer octets =>
    simp only [Arrival.isFull, beq_eq_false_iff_ne] at ends
    have received := Reassembler.receive_last base holds_header lengths ends
    cases packet : (Segment.verdict ⟨full, .transfer octets⟩).packet? with
    | none =>
      simp only [arrive, receive, h, received, packet, true_and]
      rfl
    | some p =>
      simp only [arrive, receive, h, received, packet, reassembler_offer,
        backlog_offer _ (Segment.fits_packet packet), true_and]
      rfl
  | failed _ | reset =>
    rw [(Reassembler.abort_within maxPacket base full (by simp)).2]
    refine ⟨?_, rfl⟩
    simp only [arrive, abort, h]
    exact (Reassembler.abort_within maxPacket base full (by simp)).1

/-- An arrival is one more full transfer of the segment, or ends it. -/
theorem isAfter_arrive {arrivals : List Arrival} (holds_header : headerLength ≤ maxPacket)
    (reached : i.reassembler.IsAfter maxPacket arrivals) (a : Arrival) :
    (i.arrive a).reassembler.IsAfter maxPacket (arrivals ++ [a]) := by
  obtain ⟨base, full, lengths, ⟨earlier, rfl⟩, state⟩ := reached
  rcases a.full_or_last maxPacket with ⟨octets, rfl, length⟩ | last
  · have longer : ∀ x ∈ full ++ [octets], x.length = maxPacket :=
      List.forall_mem_append.mpr ⟨lengths, by simpa using length⟩
    refine ⟨base, _, longer, ⟨earlier, ?_⟩, (arrive_full holds_header length state).1⟩
    rw [List.map_append, List.map_singleton, List.append_assoc]
  · exact ⟨_, [], by simp, List.nil_suffix, (arrive_last holds_header lengths last state).1⟩

theorem isWithin_arrive (holds_header : headerLength ≤ maxPacket)
    (reached : i.reassembler.IsWithin maxPacket) (a : Arrival) :
    (i.arrive a).reassembler.IsWithin maxPacket := by
  obtain ⟨_, reached⟩ := Reassembler.isWithin_iff.mp reached
  exact Reassembler.isWithin_iff.mpr ⟨_, isAfter_arrive holds_header reached a⟩

theorem isWithin_serve (holds_header : headerLength ≤ maxPacket)
    (start : i.reassembler.IsWithin maxPacket) (calls : List InboundCall) :
    (i.serve calls).1.reassembler.IsWithin maxPacket := by
  induction calls generalizing i with
  | nil => exact start
  | cons call calls ih =>
    cases call with
    | arrival a => exact ih (isWithin_arrive holds_header start a)
    | pop => exact ih (i.reassembler_pop ▸ start)

/-- The state after any calls: the counters are those of the cut of the arrivals, the open segment
is held, and queue and answers are those of the exchanges at the queue. -/
theorem serve_spec (holds_header : headerLength ≤ maxPacket)
    (lengths : ∀ x ∈ full, x.length = maxPacket) (calls : List InboundCall)
    (h : i.reassembler = .within maxPacket base full) :
    (i.serve calls).1.reassembler =
        .within maxPacket
          (base + ((cut maxPacket full (InboundCall.arrivals calls)).1.map
            fun s => s.verdict.counts).sum)
          (cut maxPacket full (InboundCall.arrivals calls)).2 ∧
      ((i.serve calls).1.backlog, (i.serve calls).2) =
        i.backlog.serve (InboundCall.exchanges maxPacket full calls) := by
  induction calls generalizing i base full with
  | nil => exact ⟨h.trans (congrArg (Reassembler.within maxPacket · full) base.add_zero.symm), rfl⟩
  | cons call calls ih =>
    cases call with
    | pop =>
      obtain ⟨reassembler, queue⟩ := ih lengths (i.reassembler_pop.trans h)
      refine ⟨reassembler, ?_⟩
      rw [backlog_pop] at queue
      simp only [serve, InboundCall.exchanges, Backlog.serve, ← queue, pop_answer]
    | arrival a =>
      rw [InboundCall.arrivals]
      rcases a.full_or_last maxPacket with ⟨octets, rfl, length⟩ | last
      · obtain ⟨reassembler, backlog⟩ := arrive_full holds_header length h
        have longer : ∀ x ∈ full ++ [octets], x.length = maxPacket :=
          List.forall_mem_append.mpr ⟨lengths, by simpa using length⟩
        rw [cut_full _ _ length, InboundCall.exchanges_full _ _ length, ← backlog]
        exact ih longer reassembler
      · obtain ⟨reassembler, backlog⟩ := arrive_last holds_header lengths last h
        obtain ⟨final, queue⟩ := ih (by simp) reassembler
        rw [cut_last _ _ last, InboundCall.exchanges_last _ _ last]
        constructor
        · rw [List.map_cons, List.sum_cons, ← RxStats.add_assoc]
          exact final
        · rw [Backlog.serve_offers, ← backlog]
          exact queue

/-- Where the stack takes nothing meanwhile, the packets of the segments pile up. -/
theorem serve_arrivals (holds_header : headerLength ≤ maxPacket) {arrivals : List Arrival}
    {segments : List Segment} {rest : List Bytes} (parts : Cut maxPacket arrivals segments rest)
    (h : i.reassembler = .within maxPacket base []) :
    (i.serve (arrivals.map .arrival)).1.reassembler =
        .within maxPacket (base + (segments.map fun s => s.verdict.counts).sum) rest ∧
      (i.serve (arrivals.map .arrival)).1.backlog =
        (segments.filterMap fun s => s.verdict.packet?).foldl Backlog.offer i.backlog := by
  obtain ⟨counted, queued⟩ := serve_spec holds_header (by simp) (arrivals.map .arrival) h
  have offers := i.backlog.serve_offers (segments.filterMap fun s => s.verdict.packet?) []
  rw [List.append_nil] at offers
  rw [InboundCall.arrivals_map, parts.eq_cut] at counted
  rw [InboundCall.exchanges_arrivals, parts.eq_cut, offers] at queued
  exact ⟨counted, congrArg Prod.fst queued⟩

end Inbound

namespace Nic

/-- The interface after the arrivals, reported to it one call after the other. -/
def arrive (nic : Nic) (arrivals : List Arrival) : Nic :=
  arrivals.foldl (fun nic a => (a.call.run nic).1) nic

theorem arrive_eq (nic : Nic) (arrivals : List Arrival) :
    nic.arrive arrivals =
      { nic with inbound := (nic.inbound.serve (arrivals.map .arrival)).1 } := by
  induction arrivals generalizing nic with
  | nil => rfl
  | cons a arrivals ih =>
    have first : (a.call.run nic).1 = { nic with inbound := nic.inbound.arrive a } := by
      cases a <;> rfl
    exact (congrArg (·.arrive arrivals) first).trans (ih _)

/-- Any arrivals have exactly one cut, and an interface that is shown them counts what their
segments count, queues the packets of their segments as far as there is room, drops the others,
and leaves the other direction alone. -/
theorem arrive_follows_cut {config : Config} {mtu : Nat} {inbound outbound : Channel Packet}
    {nic : Nic} (built : build config mtu inbound outbound = .ok nic) (arrivals : List Arrival) :
    (∃! parts : List Segment × List Bytes, Cut config.maxPacket arrivals parts.1 parts.2) ∧
    ∀ segments rest, Cut config.maxPacket arrivals segments rest →
      let packets := segments.filterMap fun s => s.verdict.packet?
      let room := inbound.capacity - inbound.items.length
      (nic.arrive arrivals).observe.rx =
          (segments.map fun s => s.verdict.counts).sum + openCounts rest ∧
        (nic.arrive arrivals).inbound.channel.items = inbound.items ++ packets.take room ∧
        (nic.arrive arrivals).observe.inDropped = UInt32.ofNat (packets.length - room) ∧
        (nic.arrive arrivals).outbound = nic.outbound := by
  refine ⟨existsUnique_cut _ _, ?_⟩
  intro segments rest h packets room
  unfold build at built
  split at built
  · cases built
    have idle : (⟨{ maxPacket := config.maxPacket }, inbound, 0⟩ : Inbound).reassembler =
      .within config.maxPacket 0 [] := rfl
    obtain ⟨counted, queued⟩ := Inbound.serve_arrivals config.holds_header h idle
    rw [RxStats.zero_add] at counted
    rw [Backlog.foldl_offer] at queued
    rw [arrive_eq]
    refine ⟨?_, ?_, ?_, rfl⟩
    · exact congrArg Reassembler.stats counted
    · exact congrArg Backlog.items queued
    · exact (congrArg Backlog.dropped queued).trans (UInt32.zero_add _)
  · cases built

/-- A frame that grows too long and is then given up counts twice; the next one is delivered. -/
theorem arrive_follows_cut_after_overrun :
    let block : Bytes := List.replicate 1024 0
    let config : Config := ⟨.broadcast, .zero, 1024, by decide, by decide⟩
    let nic : Nic := ⟨⟨{ maxPacket := 1024 }, { capacity := 1 }, 0⟩,
      { hostMac := .broadcast, deviceMac := .zero, mtu := 1500, channel := { capacity := 1 } }⟩
    let arrivals : List Arrival := [.transfer block, .transfer block, .failed .rxFailure,
      .transfer [7], .transfer block, .transfer []]
    build config 1500 { capacity := 1 } { capacity := 1 } = .ok nic ∧
      (nic.arrive arrivals).observe.rx = ⟨1, 1, 1, 1⟩ ∧
      (nic.arrive arrivals).inbound.channel.items = [.ofFrame block] := by
  intro block config nic arrivals
  have built : build config 1500 { capacity := 1 } { capacity := 1 } = .ok nic := rfl
  have parts : Cut config.maxPacket arrivals
      [⟨[block, block], .failed .rxFailure⟩, ⟨[], .transfer [7]⟩, ⟨[block], .transfer []⟩] [] :=
    ⟨rfl, by decide +kernel, by simp⟩
  obtain ⟨counted, queued, _⟩ := (arrive_follows_cut built arrivals).2 _ _ parts
  refine ⟨built, ?_, ?_⟩
  · rw [counted]
    decide +kernel
  · rw [queued]
    decide +kernel

end Nic
end UsbEthernet
