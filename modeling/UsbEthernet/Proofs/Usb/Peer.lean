import UsbEthernet.Proofs.Framing
import UsbEthernet.Proofs.Usb.Sending

/-! What the host puts together from the bulk transfers of a device. An attempt that is written
whole is a segment that delivers its packet, and one that fails stops short of the transfer that
would end the frame, so the failure drops all of it. -/
namespace UsbEthernet

namespace InEvent

/-- What a bulk event is to the host, which takes a failed write for the failure `e`. -/
def arrival? (e : Error) : InEvent → Option Arrival
  | data octets => some (.transfer octets)
  | off | failed => some (.failed e)
  | notifyOff | notifyFailed | notified _ => none

/-- A bulk write that did not succeed. -/
def isLost : InEvent → Bool
  | off | failed => true
  | data _ | notifyOff | notifyFailed | notified _ => false

theorem arrivals_data (e : Error) (written : List Bytes) :
    (written.map data).filterMap (arrival? e) = written.map .transfer := by
  induction written with
  | nil => rfl
  | cons x written ih => exact congrArg (.transfer x :: ·) ih

theorem lost_data (written : List Bytes) : (written.map data).countP isLost = 0 := by
  simp [isLost]

end InEvent

/-- A frame of proper length that is given up delivers nothing and counts at most as aborted. -/
theorem Segment.verdict_failed {full : List Bytes} (e : Error)
    (short : full.flatten.length ≤ maxFrame) :
    (Segment.mk full (.failed e)).verdict.packet? = none ∧
      ∃ aborted ≤ 1, (Segment.mk full (.failed e)).verdict.counts =
        { aborted := UInt32.ofNat aborted } := by
  by_cases empty : full = []
  · subst empty
    exact ⟨rfl, 0, Nat.zero_le _, rfl⟩
  · have given_up : (Segment.mk full (.failed e)).verdict = .aborted false := by
      simp only [verdict, if_neg empty, decide_eq_false (Nat.not_lt.mpr short)]
    rw [given_up]
    exact ⟨rfl, 1, Nat.le_refl _, rfl⟩

namespace Attempt

/-- The packet at the head of the queue. -/
def packet : Attempt → Packet
  | complete p | failed p _ _ | oversize p => p

/-- The packet that the attempt brings to the host. -/
def completed? : Attempt → Option Packet
  | complete p => some p
  | failed .. | oversize _ => none

theorem length_completed (attempts : List Attempt) :
    (attempts.filterMap completed?).length = attempts.countP isComplete := by
  induction attempts with
  | nil => rfl
  | cons a attempts ih =>
    rw [List.countP_cons, ← ih]
    cases a <;> rfl

/-- What the attempts are to a host: the segments they make up and what these deliver and count,
where `address` gives a packet as the host gets it. -/
structure Arrive (maxPacket : Nat) (address : Packet → Packet) (e : Error)
    (attempts : List Attempt) (segments : List Segment) : Prop where
  arrivals : (attempts.flatMap
      (events fun p => transfers (address p).octets maxPacket)).filterMap (InEvent.arrival? e) =
    segments.flatMap Segment.arrivals
  formed : ∀ s ∈ segments, s.WellFormed maxPacket
  packets : segments.filterMap (fun s => s.verdict.packet?) =
    (attempts.filterMap completed?).map address
  counts : ∃ aborted ≤ (attempts.flatMap
      (events fun p => transfers (address p).octets maxPacket)).countP InEvent.isLost,
    (segments.map fun s => s.verdict.counts).sum =
      { frames := UInt32.ofNat (attempts.countP isComplete), aborted := UInt32.ofNat aborted }

variable {maxPacket : Nat} {address : Packet → Packet} {e : Error} {attempts : List Attempt}
  {segments : List Segment} {p : Packet}

theorem Arrive.nil : Arrive maxPacket address e [] [] :=
  ⟨rfl, by simp, rfl, 0, Nat.le_refl _, rfl⟩

theorem Arrive.oversize (later : Arrive maxPacket address e attempts segments) :
    Arrive maxPacket address e (.oversize p :: attempts) segments := by
  obtain ⟨arrivals, formed, packets, aborted, bound, counts⟩ := later
  exact ⟨arrivals, formed, packets, aborted, bound, by simpa [isComplete] using counts⟩

theorem Arrive.complete (holds_header : headerLength ≤ maxPacket)
    (fits : (address p).octets.length ≤ maxFrame)
    (later : Arrive maxPacket address e attempts segments) :
    ∃ s, Arrive maxPacket address e (.complete p :: attempts) (s :: segments) := by
  have header : headerLength ≤ (address p).octets.length := by
    rw [Packet.length_octets]
    omega
  have nonempty : (address p).octets ≠ [] := by
    intro empty
    rw [empty] at header
    cases header
  obtain ⟨full, last, parts, carried⟩ :=
    exists_transfers (Nat.lt_of_lt_of_le (by decide) holds_header) nonempty
  obtain ⟨well, verdict⟩ := parts.segment header fits
  rw [Packet.ofFrame_octets] at verdict
  obtain ⟨arrivals, formed, packets, aborted, bound, counts⟩ := later
  refine ⟨⟨full, .transfer last⟩, ?_, List.forall_mem_cons.mpr ⟨well, formed⟩, ?_, aborted, ?_, ?_⟩
  · rw [List.flatMap_cons, List.filterMap_append, arrivals, events, carried,
      InEvent.arrivals_data, List.flatMap_cons, Segment.arrivals, List.map_append,
      List.map_singleton]
  · rw [List.filterMap_cons, packets, verdict]
    rfl
  · rw [List.flatMap_cons, List.countP_append]
    exact Nat.le_add_left_of_le bound
  · rw [List.map_cons, List.sum_cons, verdict, counts, RxStats.add_def, List.countP_cons]
    simp [Verdict.counts, isComplete, UInt32.add_comm]

theorem Arrive.failed {written : List Bytes} {cause : InEvent} {transfer : Bytes}
    {rest : List Bytes} (positive : 0 < maxPacket) (fits : (address p).octets.length ≤ maxFrame)
    (lost : cause = .off ∨ cause = .failed)
    (wire : transfers (address p).octets maxPacket = written ++ transfer :: rest)
    (later : Arrive maxPacket address e attempts segments) :
    Arrive maxPacket address e (.failed p written cause :: attempts)
      (⟨written, .failed e⟩ :: segments) := by
  obtain ⟨full, short⟩ := transfers_prefix positive wire
  have cause_lost : cause.isLost = true := by
    obtain rfl | rfl := lost <;> rfl
  have cause_arrival : cause.arrival? e = some (.failed e) := by
    obtain rfl | rfl := lost <;> rfl
  obtain ⟨no_packet, more, one, verdict⟩ := Segment.verdict_failed e (Nat.le_trans short fits)
  obtain ⟨arrivals, formed, packets, aborted, bound, counts⟩ := later
  refine ⟨?_, List.forall_mem_cons.mpr ⟨⟨full, rfl⟩, formed⟩, ?_, aborted + more, ?_, ?_⟩
  · rw [List.flatMap_cons, List.filterMap_append, arrivals, events, List.filterMap_append,
      InEvent.arrivals_data, List.filterMap_cons_some cause_arrival]
    rfl
  · rw [List.filterMap_cons, packets, no_packet]
    rfl
  · rw [List.flatMap_cons, List.countP_append, events, List.countP_append, InEvent.lost_data,
      List.countP_singleton, if_pos cause_lost]
    omega
  · rw [List.map_cons, List.sum_cons, verdict, counts, RxStats.add_def, List.countP_cons]
    simp [isComplete, Nat.add_comm]

/-- Attempts that stop short where they fail, at packets that make proper frames. -/
theorem exists_arrive (holds_header : headerLength ≤ maxPacket)
    (valid : ∀ a ∈ attempts, ∃ room,
      a.Valid (fun p => (address p).octets) maxPacket room)
    (fits : ∀ a ∈ attempts, (address a.packet).octets.length ≤ maxFrame) :
    ∃ segments, Arrive maxPacket address e attempts segments := by
  induction attempts with
  | nil => exact ⟨[], .nil⟩
  | cons a attempts ih =>
    obtain ⟨⟨room, valid⟩, others⟩ := List.forall_mem_cons.mp valid
    obtain ⟨fit, fits⟩ := List.forall_mem_cons.mp fits
    obtain ⟨segments, later⟩ := ih others fits
    cases a with
    | complete p =>
      obtain ⟨s, whole⟩ := later.complete holds_header fit
      exact ⟨s :: segments, whole⟩
    | failed p written cause =>
      obtain ⟨lost, transfer, rest, wire⟩ := valid
      exact ⟨_, later.failed (Nat.lt_of_lt_of_le (by decide) holds_header) fit lost wire⟩
    | oversize p => exact ⟨segments, later.oversize⟩

end Attempt

namespace Served

theorem packet_mem (served : Served queue attempts left) : ∀ a ∈ attempts, a.packet ∈ queue := by
  induction served with
  | nil => simp
  | complete _ ih | oversize _ ih =>
    rw [List.forall_mem_cons]
    exact ⟨List.mem_cons_self, fun a mem => List.mem_cons_of_mem _ (ih a mem)⟩
  | failed _ ih =>
    rw [List.forall_mem_cons]
    exact ⟨List.mem_cons_self, ih⟩

theorem completed_sublist (served : Served queue attempts left) :
    (attempts.filterMap Attempt.completed?).Sublist queue := by
  induction served with
  | nil => exact List.nil_sublist _
  | complete _ ih => exact ih.cons_cons _
  | failed _ ih => exact ih
  | oversize _ ih => exact ih.cons _

end Served

namespace Device

theorem length_acceptedIn (d : Device) (action : DeviceAction) :
    ∀ p ∈ acceptedIn action (d.act action).2, p.payload.length ≤ maxPayload := by
  cases action with
  | send proto pieces =>
    rcases d.uplink.outbound.send_cases proto pieces with ⟨_, refused⟩ | ⟨_, taken, -, fits⟩
    · rw [act, refused]
      simp [StackReply.ofSend, acceptedIn]
    · rw [act, taken]
      simpa [StackReply.ofSend, acceptedIn] using fits
  | host | pop | limit | refuse | reset => simp [acceptedIn]

theorem length_accepted (d : Device) (actions : List DeviceAction) :
    ∀ p ∈ accepted (d.history actions), p.payload.length ≤ maxPayload := by
  induction actions generalizing d with
  | nil => simp [accepted, history]
  | cons action actions ih =>
    rw [history_cons, accepted, List.flatMap_cons, List.forall_mem_append]
    exact ⟨d.length_acceptedIn action, ih _⟩

theorem Sends.valid {turns : List (DeviceAction × Turn)}
    (sends : Sends frame maxPacket bound waiting written turns attempts left unfinished) :
    ∀ a ∈ attempts, ∃ room, a.Valid frame maxPacket room := by
  induction sends with
  | done => simp
  | turn _ _ valid _ ih =>
    rw [List.forall_mem_append]
    exact ⟨fun a mem => ⟨_, valid a mem⟩, ih⟩

/-- What a peer with the same packet size makes of the bulk events: the attempts that are written
whole deliver their packets, and the others leave no trace but in the count of aborted frames. -/
theorem arrive_attempts {peer : Nic} {config : Config} {mtu room : Nat} {outbound : Channel Packet}
    {address : Packet → Packet} {e : Error} {attempts : List Attempt} {segments : List Segment}
    {bulk : List InEvent} {unfinished : List Bytes}
    (built : Nic.build config mtu { capacity := room } outbound = .ok peer)
    (arrive : Attempt.Arrive config.maxPacket address e attempts segments)
    (events : bulk = attempts.flatMap
      (Attempt.events fun p => transfers (address p).octets config.maxPacket) ++
        unfinished.map .data)
    (full : ∀ x ∈ unfinished, x.length = config.maxPacket)
    (short : unfinished.flatten.length ≤ maxFrame) :
    let host := peer.arrive (bulk.filterMap (InEvent.arrival? e))
    let delivered := (attempts.filterMap Attempt.completed?).map address
    host.inbound.channel.items = delivered.take room ∧
      host.observe.inDropped = UInt32.ofNat (delivered.length - room) ∧
      ∃ aborted ≤ bulk.countP InEvent.isLost,
        host.observe.rx =
          { frames := UInt32.ofNat (attempts.countP Attempt.isComplete)
            aborted := UInt32.ofNat aborted } := by
  intro host delivered
  obtain ⟨arrivals, formed, packets, aborted, bound, counts⟩ := arrive
  have parts : Cut config.maxPacket (bulk.filterMap (InEvent.arrival? e)) segments unfinished := by
    refine ⟨?_, formed, full⟩
    rw [events, List.filterMap_append, arrivals, InEvent.arrivals_data]
  have lost : bulk.countP InEvent.isLost = (attempts.flatMap
      (Attempt.events fun p => transfers (address p).octets config.maxPacket)).countP
        InEvent.isLost := by
    rw [events, List.countP_append, InEvent.lost_data, Nat.add_zero]
  obtain ⟨-, rfl⟩ := Nic.eq_of_build built
  have idle : (⟨{ maxPacket := config.maxPacket }, { capacity := room }, 0⟩ :
    Inbound).reassembler = .within config.maxPacket 0 [] := rfl
  obtain ⟨counted, queued⟩ := Inbound.serve_arrivals config.holds_header parts idle
  rw [packets, Backlog.foldl_offer] at queued
  rw [counts, RxStats.zero_add] at counted
  refine ⟨?_, ?_, aborted, lost ▸ bound, ?_⟩
  · simp only [host, Nic.arrive_eq]
    exact congrArg Backlog.items queued
  · simp only [host, Nic.arrive_eq]
    exact (congrArg Backlog.dropped queued).trans (UInt32.zero_add _)
  · simp only [host, Nic.arrive_eq]
    exact (congrArg Reassembler.stats counted).trans (Reassembler.stats_within short)

/-- The bulk events of a new device are attempts at the accepted packets, each of which makes a
frame of proper length, and then the full transfers of an open attempt. -/
theorem run_attempts {settings : Settings} {config : Config}
    {strings interfaces inboundRoom outboundRoom : Nat} {d : Device}
    (valid : settings.config = .ok config)
    (created : create settings strings interfaces inboundRoom outboundRoom = .ok d)
    (actions : List DeviceAction) :
    let history := d.history actions
    let last := (d.run actions).1
    let address := fun p : Packet =>
      { p with header := ⟨config.hostMac, config.deviceMac, p.header.proto⟩ }
    ∃ (attempts : List Attempt) (unfinished : List Bytes),
      Served (accepted history) attempts last.uplink.items ∧
      bulk history = attempts.flatMap
        (Attempt.events fun p => transfers (address p).octets config.maxPacket) ++
          unfinished.map .data ∧
      last.nic.observe.tx.frames = UInt32.ofNat (attempts.countP Attempt.isComplete) ∧
      (∀ a ∈ attempts, ∃ room, a.Valid (fun p => (address p).octets) config.maxPacket room) ∧
      (∀ a ∈ attempts, (address a.packet).octets.length ≤ maxFrame) ∧
      (∀ x ∈ unfinished, x.length = config.maxPacket) ∧
      unfinished.flatten.length ≤ maxFrame := by
  intro history last address
  obtain ⟨_, known, _, _, rfl⟩ := create_initial created
  cases valid.symm.trans known
  let first := initial config settings.mtu interfaces inboundRoom outboundRoom
  have begun : first.uplink.Written [] := rfl
  obtain ⟨attempts, unfinished, serves, sends⟩ := run_serves first actions begun
  have served : Served (accepted history) attempts last.uplink.items := serves.served
  have fits : ∀ p ∈ accepted history, (address p).octets.length ≤ maxFrame := by
    intro p mem
    rw [Packet.length_octets]
    exact Nat.add_le_add_left (first.length_accepted actions p mem) _
  refine ⟨attempts, unfinished, served, serves.bulk, serves.frames.trans (UInt32.zero_add _),
    sends.valid, fun a mem => fits _ (served.packet_mem a mem), ?_⟩
  have waits := first.run_uplink_waits actions (.host rfl rfl)
  obtain rfl | ⟨p, queue, transfer, rest, queued, cut⟩ := serves.open_attempt.waits waits
  · simp
  · have mem : p ∈ accepted history := by
      rw [served.consumed, show last.uplink.items = p :: queue from queued]
      simp
    have positive : 0 < config.maxPacket := Nat.lt_of_lt_of_le (by decide) config.holds_header
    rw [serves.wire] at cut
    obtain ⟨full, short⟩ := transfers_prefix positive cut
    exact ⟨full, Nat.le_trans short (fits p mem)⟩

/-- Over any run of a new device, a peer with the same packet size, shown the bulk events, gets
the packets whose frames the device has written whole and counted as sent: each once, with the
addresses of the two ends, and in the order in which the stack has queued them. As long as its queue
has room for them it drops none. Nothing that it gets is malformed, and it gives up no more frames
than writes have failed. -/
theorem run_reassembled {settings other : Settings} {config : Config}
    {strings interfaces inboundRoom outboundRoom peerRoom peerOut : Nat} {d : Device} {peer : Nic}
    (valid : settings.config = .ok config)
    (created : create settings strings interfaces inboundRoom outboundRoom = .ok d)
    (made : Nic.create other peerRoom peerOut = .ok peer)
    (same : other.maxPacket = settings.maxPacket) (e : Error) (actions : List DeviceAction) :
    let history := d.history actions
    let last := (d.run actions).1
    let host := peer.arrive ((bulk history).filterMap (InEvent.arrival? e))
    let address := fun p : Packet =>
      { p with header := ⟨config.hostMac, config.deviceMac, p.header.proto⟩ }
    let wire := fun p => transfers (address p).octets settings.maxPacket
    ∃ (attempts : List Attempt) (unfinished : List Bytes),
      let completed := attempts.filterMap Attempt.completed?
      Served (accepted history) attempts last.uplink.items ∧
      bulk history = attempts.flatMap (Attempt.events wire) ++ unfinished.map .data ∧
      last.nic.observe.tx.frames = UInt32.ofNat completed.length ∧
      completed.Sublist (accepted history) ∧
      host.inbound.channel.items = (completed.map address).take peerRoom ∧
      host.observe.inDropped = UInt32.ofNat (completed.length - peerRoom) ∧
      (completed.length ≤ peerRoom →
        host.inbound.channel.items = completed.map address ∧ host.observe.inDropped = 0) ∧
      ∃ aborted ≤ (bulk history).countP InEvent.isLost,
        host.observe.rx =
          { frames := last.nic.observe.tx.frames, aborted := UInt32.ofNat aborted } := by
  intro history last host address wire
  obtain ⟨peerConfig, peerValid, _, _, built⟩ := Nic.create_built made
  have size : config.maxPacket = peerConfig.maxPacket := by
    rw [Settings.maxPacket_of_config valid, Settings.maxPacket_of_config peerValid, same]
  obtain ⟨attempts, unfinished, served, events, frames, stops, proper, full, short⟩ :=
    run_attempts valid created actions
  rw [size] at events stops full
  obtain ⟨segments, arrive⟩ := Attempt.exists_arrive peerConfig.holds_header stops proper
  obtain ⟨queued, dropped, aborted, bound, rx⟩ := arrive_attempts built arrive events full short
  rw [← size, Settings.maxPacket_of_config valid] at events
  rw [← frames] at rx
  rw [← Attempt.length_completed] at frames
  rw [List.length_map] at dropped
  refine ⟨attempts, unfinished, served, events, frames, served.completed_sublist, queued, dropped,
    ?_, aborted, bound, rx⟩
  intro room
  have all : ((attempts.filterMap Attempt.completed?).map address).length ≤ peerRoom := by
    rwa [List.length_map]
  exact ⟨queued.trans (List.take_of_length_le all),
    dropped.trans (congrArg UInt32.ofNat (Nat.sub_eq_zero_of_le room))⟩

/-- A frame cut off after its first transfer reaches the peer once, whole, from the second try. -/
theorem run_reassembled_again :
    let config : Config := ⟨⟨0x1a, 0x55, 0x89, 0xa2, 0x69, 0x41⟩,
      ⟨0x1a, 0x55, 0x89, 0xa2, 0x69, 0x42⟩, 14, by decide, by decide⟩
    let d := initial config 1500 0 1 1
    let peer : Nic := ⟨⟨{ maxPacket := 14 }, { capacity := 1 }, 0⟩,
      { hostMac := config.hostMac, deviceMac := config.deviceMac, mtu := 1500,
        channel := { capacity := 1 } }⟩
    let actions : List DeviceAction := [.host .attach, .host (.failIn (some 1)),
      .send .ipv4 [[1], [2]]]
    let host := peer.arrive ((bulk (d.history actions)).filterMap (InEvent.arrival? .txFailure))
    ({ maxPacket := 14 } : Settings).config = .ok config ∧
      create { maxPacket := 14 } 0 0 1 1 = .ok d ∧
      Nic.create { maxPacket := 14 } 1 1 = .ok peer ∧
      (bulk (d.history actions)).countP InEvent.isLost = 1 ∧
      host.inbound.channel.items = [⟨⟨config.hostMac, config.deviceMac, .ipv4⟩, [1, 2]⟩] ∧
      host.observe.rx.frames = 1 := by
  intro config d peer actions host
  have valid : ({ maxPacket := 14 } : Settings).config = .ok config := rfl
  have created : create { maxPacket := 14 } 0 0 1 1 = .ok d := rfl
  have made : Nic.create { maxPacket := 14 } 1 1 = .ok peer := rfl
  have sent : (d.run actions).1.nic.observe.tx.frames = 1 := by cbv
  have accepted : accepted (d.history actions) = [⟨.ofProto .ipv4, [1, 2]⟩] := by cbv
  obtain ⟨attempts, _, _, _, frames, sublist, items, _, _, aborted, _, rx⟩ :=
    run_reassembled valid created made rfl .txFailure actions
  rw [accepted] at sublist
  have once : attempts.filterMap Attempt.completed? = [⟨.ofProto .ipv4, [1, 2]⟩] := by
    apply sublist.eq_of_length_le
    apply List.length_pos_iff.mpr
    intro none
    rw [none, sent] at frames
    exact absurd frames (by decide)
  rw [once] at items
  refine ⟨valid, created, made, by cbv, items, ?_⟩
  rw [rx]
  exact sent

end Device
end UsbEthernet
