import UsbEthernet.Proofs.Framing
import UsbEthernet.Proofs.OpenFrame

/-! A host that echoes: every frame that waits for it comes back to the interface in transfers.
The packets end up in the other queue, in their order and as far as there is room. -/
namespace UsbEthernet
open Session (up)

/-- The packets that the transfers complete are offered to the queue. -/
theorem Inbound.receiveAll_spec (i : Inbound) (transfers : List Bytes) :
    (i.receiveAll transfers).reassembler = (i.reassembler.receiveAll transfers).1 ∧
    (i.receiveAll transfers).backlog =
      (i.reassembler.receiveAll transfers).2.foldl Backlog.offer i.backlog := by
  induction transfers generalizing i with
  | nil => exact ⟨rfl, rfl⟩
  | cons x transfers ih =>
    obtain ⟨reassembler, backlog⟩ := i.arrive_spec (.transfer x)
    obtain ⟨last, queue⟩ := ih (i.receive x)
    rw [arrive, Reassembler.arrive] at reassembler backlog
    rw [reassembler] at last queue
    rw [backlog] at queue
    constructor
    · exact last
    · rw [Reassembler.receiveAll, List.foldl_append]
      exact queue

/-- Between frames, as many of the packets of proper frames are queued as there is room for. -/
theorem Inbound.receiveAll_frames {i : Inbound} {maxPacket : Nat} {stats : RxStats}
    {frames : List Bytes} (holds_header : headerLength ≤ maxPacket)
    (lengths : ∀ f ∈ frames, headerLength ≤ f.length ∧ f.length ≤ maxFrame)
    (within : i.reassembler = .within maxPacket stats []) :
    let room := i.channel.capacity - i.channel.items.length
    let last := i.receiveAll (frames.flatMap (transfers · maxPacket))
    last.reassembler =
        .within maxPacket { stats with frames := stats.frames + UInt32.ofNat frames.length } [] ∧
      last.channel.items = i.channel.items ++ (frames.map .ofFrame).take room ∧
      last.dropped = i.dropped + UInt32.ofNat (frames.length - room) := by
  intro room last
  obtain ⟨reassembler, queue⟩ := i.receiveAll_spec (frames.flatMap (transfers · maxPacket))
  rw [within, Reassembler.receiveAll_frames stats holds_header lengths] at reassembler queue
  rw [Backlog.foldl_offer, List.length_map] at queue
  exact ⟨reassembler, congrArg Backlog.items queue, congrArg Backlog.dropped queue⟩

/-- The same of the frames of packets, of which the first ones are queued. -/
theorem Inbound.receiveAll_packets {i : Inbound} {maxPacket : Nat} {stats : RxStats}
    {packets : List Packet} (holds_header : headerLength ≤ maxPacket)
    (fits : ∀ p ∈ packets, p.octets.length ≤ maxFrame)
    (within : i.reassembler = .within maxPacket stats []) :
    let kept := min packets.length (i.channel.capacity - i.channel.items.length)
    let last := i.receiveAll ((packets.map Packet.octets).flatMap (transfers · maxPacket))
    last.reassembler =
        .within maxPacket { stats with frames := stats.frames + UInt32.ofNat packets.length } [] ∧
      last.channel.items = i.channel.items ++ packets.take kept ∧
      last.dropped = i.dropped + UInt32.ofNat (packets.length - kept) := by
  intro kept last
  have lengths : ∀ f ∈ packets.map Packet.octets, headerLength ≤ f.length ∧ f.length ≤ maxFrame := by
    rw [List.forall_mem_map]
    intro p mem
    exact ⟨by rw [Packet.length_octets]; omega, fits p mem⟩
  have returned : (packets.map Packet.octets).map Packet.ofFrame = packets := by
    rw [List.map_map]
    exact (List.map_congr_left fun p _ => Packet.ofFrame_octets p).trans (List.map_id _)
  obtain ⟨reassembler, items, dropped⟩ := receiveAll_frames holds_header lengths within
  rw [List.length_map] at reassembler dropped
  rw [returned, List.take_eq_take_min, Nat.min_comm] at items
  refine ⟨reassembler, items, ?_⟩
  have left : packets.length - (i.channel.capacity - i.channel.items.length) =
      packets.length - kept := by omega
  rw [dropped, left]

/-- The calls of a bus that sends a frame back: the frame is asked for, its transfers are received,
and it is reported as sent. -/
def UsbCall.echo (split : Nat) (frame : Bytes) : List UsbCall :=
  .transmit maxFrame :: (transfers frame split).map .receive ++ [.transmitDone]

def UsbReply.echo (split : Nat) (frame : Bytes) : List UsbReply :=
  .frame (some frame) :: (transfers frame split).map (fun _ => .done) ++ [.done]

namespace Nic

/-- Calls of the bus side one after the other, with the answers. -/
def answer (nic : Nic) : List UsbCall → Nic × List UsbReply
  | [] => (nic, [])
  | call :: calls =>
    (((call.run nic).1.answer calls).1, (call.run nic).2 :: ((call.run nic).1.answer calls).2)

theorem answer_append (nic : Nic) (first second : List UsbCall) :
    nic.answer (first ++ second) =
      (((nic.answer first).1.answer second).1,
        (nic.answer first).2 ++ ((nic.answer first).1.answer second).2) := by
  induction first generalizing nic with
  | nil => rfl
  | cons call first ih => simp only [List.cons_append, answer, ih]

theorem answer_receive (nic : Nic) (transfers : List Bytes) :
    nic.answer (transfers.map .receive) =
      ({ nic with inbound := nic.inbound.receiveAll transfers },
        transfers.map fun _ => .done) := by
  induction transfers generalizing nic with
  | nil => rfl
  | cons x transfers ih =>
    rw [List.map_cons, answer, ih]
    rfl

variable {nic : Nic} {p : Packet} {queue : List Packet}

theorem answer_echo (split : Nat) (queued : nic.outbound.channel.items = p :: queue)
    (fits : (nic.outbound.frame p).length ≤ maxFrame) :
    nic.answer (UsbCall.echo split (nic.outbound.frame p)) =
      (nic.echoed split (nic.outbound.frame p), UsbReply.echo split (nic.outbound.frame p)) := by
  have asked : (UsbCall.transmit maxFrame).run nic =
      (nic, .frame (some (nic.outbound.frame p))) := by
    simp only [UsbCall.run, Outbound.transmit_cons maxFrame queued, if_pos fits]
    rfl
  let sent : Nic :=
    { nic with inbound := nic.inbound.receiveAll (transfers (nic.outbound.frame p) split) }
  have done : UsbCall.transmitDone.run sent = (nic.echoed split (nic.outbound.frame p), .done) := by
    simp only [UsbCall.run, sent, Outbound.transmitDone?, Channel.pop?_cons queued]
    rfl
  rw [UsbCall.echo, List.cons_append, answer, asked, answer_append, answer_receive]
  simp only [answer, sent, done, UsbReply.echo, List.cons_append] at done ⊢

/-- Where every frame is short enough, the loop takes one round for each packet and ends with none
left. -/
theorem loopback_spec (split : Nat) (queued : nic.outbound.channel.items = queue)
    (fits : ∀ p ∈ queue, (nic.outbound.frame p).length ≤ maxFrame) :
    let frames := queue.map nic.outbound.frame
    ∃ channel, channel.items = [] ∧
      nic.loopback split =
        (⟨nic.inbound.receiveAll (frames.flatMap (transfers · split)),
          { nic.outbound with
            channel
            stats.frames := nic.outbound.stats.frames + UInt32.ofNat queue.length }⟩,
          frames.map fun f => (transfers f split).map List.length) ∧
      nic.answer (frames.flatMap (UsbCall.echo split) ++ [.transmit maxFrame]) =
        ((nic.loopback split).1, frames.flatMap (UsbReply.echo split) ++ [.frame none]) := by
  induction queue generalizing nic with
  | nil =>
    refine ⟨nic.outbound.channel, queued, ?_, ?_⟩
    · have counted : nic.outbound.stats.frames + UInt32.ofNat 0 = nic.outbound.stats.frames :=
        UInt32.add_zero _
      rw [loopback_nil split queued, List.length_nil, counted]
      rfl
    · have asked : (UsbCall.transmit maxFrame).run nic = (nic, .frame none) := by
        simp only [UsbCall.run, Outbound.transmit_nil maxFrame queued]
        rfl
      rw [loopback_nil split queued]
      simp only [List.map_nil, List.flatMap_nil, List.nil_append, answer, asked]
  | cons p queue ih =>
    obtain ⟨fit, fits⟩ := List.forall_mem_cons.mp fits
    have left : (nic.echoed split (nic.outbound.frame p)).outbound.channel.items = queue :=
      congrArg List.tail queued
    obtain ⟨channel, empty, looped, answered⟩ := ih left fits
    have frame : (nic.echoed split (nic.outbound.frame p)).outbound.frame = nic.outbound.frame := rfl
    rw [frame] at looped answered
    refine ⟨channel, empty, ?_, ?_⟩
    · rw [loopback_cons split queued fit, looped]
      simp only [echoed, List.map_cons, List.flatMap_cons, List.length_cons, Inbound.receiveAll,
        List.foldl_append, Counter.one_add]
    · rw [List.map_cons, List.flatMap_cons, List.append_assoc, answer_append,
        answer_echo split queued fit, answered, loopback_cons split queued fit, List.flatMap_cons,
        List.append_assoc]

end Nic

namespace Nic.Performs
variable {nic last : Nic} {acts : List Act}

theorem isWithin {maxPacket : Nat} (performed : nic.Performs acts last)
    (holds_header : headerLength ≤ maxPacket)
    (start : nic.inbound.reassembler.IsWithin maxPacket) :
    last.inbound.reassembler.IsWithin maxPacket := by
  obtain ⟨_, start⟩ := Reassembler.isWithin_iff.mp start
  exact Reassembler.isWithin_iff.mpr ⟨_, performed.isAfter holds_header start⟩

theorem accepted_fit (performed : nic.Performs acts last) : ∀ p ∈ Act.accepted acts, p.fits = true := by
  induction performed with
  | nil => simp [Act.accepted]
  | @cons _ act acts _ allowed _ ih =>
    cases act with
    | accept p => exact List.forall_mem_cons.mpr ⟨allowed.2, ih⟩
    | refuse | sent | tooLong | arrive | take | awaitRoom | awaitFrame | awaitPacket => exact ih

end Nic.Performs

namespace Session

theorem accepted_fit (session : Session) (ops : List Operation) :
    ∀ p ∈ Act.accepted (session.acts ops), p.fits = true := by
  induction ops generalizing session with
  | nil => simp [acts, Act.accepted]
  | cons op ops ih =>
    rw [acts, Act.accepted_append, List.forall_mem_append]
    refine ⟨?_, ih _⟩
    rcases session.step_cases op with ⟨nic, next, rfl, -, performed⟩ | ⟨none, -, -⟩
    · exact performed.accepted_fit
    · simp [none, Act.accepted]

/-- In every reachable state a slot has room for each packet for the host. -/
theorem run_fits {settings : Settings} {inboundRoom outboundRoom : Nat} {nic : Nic}
    (created : Nic.create settings inboundRoom outboundRoom = .ok nic) (ops : List Operation) :
    ∀ p ∈ ((up nic).run ops).1.outboundChannel.items, p.fits = true := by
  obtain ⟨_, -, -, -, made⟩ := Nic.create_built created
  have start : (up nic).outboundChannel.items = [] := by
    rw [(Nic.eq_of_build made).2]
    rfl
  intro p mem
  rw [((up nic).run_outbound ops).items, start, List.nil_append] at mem
  exact (up nic).accepted_fit ops p (List.mem_of_mem_drop mem)

theorem run_inbound_capacity {settings : Settings} {inboundRoom outboundRoom : Nat} {nic : Nic}
    (created : Nic.create settings inboundRoom outboundRoom = .ok nic) (ops : List Operation) :
    ((up nic).run ops).1.inboundChannel.capacity = inboundRoom := by
  obtain ⟨_, -, -, -, made⟩ := Nic.create_built created
  obtain ⟨_, flows⟩ := (up nic).run_inbound ops
  rw [flows.capacity, (Nic.eq_of_build made).2]
  rfl

/-- From every reachable state without an open frame, an echo of all that waits for the host takes
one round for each packet and leaves none: each call answers as the next round needs, and what
comes back are the packets with the addresses of the last build, in their order behind what waits
for the stack. As many as there is room for are queued and the others dropped; nothing else is
counted but the frames, and no frame is left open. -/
theorem run_loops_back {settings : Settings} {inboundRoom outboundRoom : Nat} {nic current : Nic}
    (created : Nic.create settings inboundRoom outboundRoom = .ok nic) (ops : List Operation)
    (reached : ((up nic).run ops).1 = up current)
    (idle : current.inbound.reassembler.phase = .idle) :
    ∃ config built after, LastBuilt settings nic ops config built after ∧
      let packets := current.outbound.channel.items
      let kept := min packets.length (inboundRoom - current.inbound.channel.items.length)
      let address := fun p : Packet =>
        { p with header := ⟨config.hostMac, config.deviceMac, p.header.proto⟩ }
      let frames := packets.map fun p => (address p).octets
      let last := (current.loopback config.maxPacket).1
      (current.loopback config.maxPacket).2 =
        frames.map (fun f => (transfers f config.maxPacket).map List.length) ∧
      current.answer (frames.flatMap (UsbCall.echo config.maxPacket) ++ [.transmit maxFrame]) =
        (last, frames.flatMap (UsbReply.echo config.maxPacket) ++ [.frame none]) ∧
      last.outbound.channel.items = [] ∧
      last.inbound.channel.items =
        current.inbound.channel.items ++ (packets.take kept).map address ∧
      last.observe =
        { current.observe with
          rx.frames := current.observe.rx.frames + UInt32.ofNat packets.length
          tx.frames := current.observe.tx.frames + UInt32.ofNat packets.length
          inDropped := current.observe.inDropped + UInt32.ofNat (packets.length - kept)
          inLength := current.observe.inLength + kept } ∧
      last.inbound.reassembler.phase = .idle := by
  obtain ⟨config, built, after, since, ⟨_, _, _, fresh⟩, performed⟩ :=
    exists_lastBuilt created ops reached
  refine ⟨config, built, after, since, ?_⟩
  intro packets kept address frames last
  obtain ⟨host, device, -, -⟩ := performed.outbound
  obtain ⟨-, rfl⟩ := Nic.eq_of_build fresh
  have framed : current.outbound.frame = fun p => (address p).octets := by
    funext p
    rw [Outbound.frame, host, device]
    rfl
  have fits : ∀ p ∈ packets, (current.outbound.frame p).length ≤ maxFrame := by
    intro p mem
    have fit := run_fits created ops p (by rw [reached]; exact mem)
    rw [Outbound.length_frame]
    exact Nat.add_le_add_left (of_decide_eq_true fit) _
  obtain ⟨channel, empty, looped, answered⟩ := Nic.loopback_spec config.maxPacket rfl fits
  rw [framed] at looped answered fits
  have within : current.inbound.reassembler =
      .within config.maxPacket current.inbound.reassembler.stats [] :=
    (performed.isWithin config.holds_header ⟨0, [], by simp, rfl⟩).idle idle
  obtain ⟨reassembler, items, dropped⟩ := Inbound.receiveAll_packets config.holds_header
    (List.forall_mem_map.mpr fits) within
  have capacity : current.inbound.channel.capacity = inboundRoom := by
    have kept := run_inbound_capacity created ops
    rwa [reached] at kept
  let inbound := current.inbound.receiveAll (frames.flatMap (transfers · config.maxPacket))
  rw [capacity, List.length_map, List.map_map, ← List.map_take] at items
  rw [capacity, List.length_map, List.map_map] at dropped
  rw [List.length_map, List.map_map] at reassembler
  change inbound.channel.items = _ at items
  change inbound.dropped = _ at dropped
  change inbound.reassembler = _ at reassembler
  have back : last = ⟨inbound, { current.outbound with
      channel
      stats.frames := current.outbound.stats.frames + UInt32.ofNat packets.length }⟩ :=
    congrArg Prod.fst looped
  have stored : (packets.take kept).length = kept := List.length_take_of_le (Nat.min_le_left _ _)
  refine ⟨congrArg Prod.snd looped, answered, ?_, ?_, ?_, ?_⟩
  · rw [back]
    exact empty
  · rw [back]
    exact items
  · rw [back]
    simp only [Nic.observe, reassembler, Reassembler.within_nil, items, dropped,
      List.length_append, List.length_map]
    rw [stored]
  · rw [back]
    exact congrArg Reassembler.phase reassembler

/-- A frame that fills a transfer exactly comes back, after an empty one; the next frame finds the
queue full. -/
theorem run_loops_back_overfull :
    let host : MacAddr := ⟨0x1a, 0x55, 0x89, 0xa2, 0x69, 0x41⟩
    let device : MacAddr := ⟨0x1a, 0x55, 0x89, 0xa2, 0x69, 0x42⟩
    let nic : Nic := ⟨⟨{ maxPacket := 16 }, { capacity := 1 }, 0⟩,
      { hostMac := host, deviceMac := device, mtu := 1500, channel := { capacity := 2 } }⟩
    let ops : List Operation := [.stack (.send .ipv4 [[1], [2]]), .stack (.send .arp [[3]])]
    let current : Nic := { nic with outbound.channel.items :=
      [⟨.ofProto .ipv4, [1, 2]⟩, ⟨.ofProto .arp, [3]⟩] }
    Nic.create { maxPacket := 16 } 1 2 = .ok nic ∧
      ((up nic).run ops).1 = up current ∧
      current.inbound.reassembler.phase = .idle ∧
      (current.loopback 16).2 = [[16, 0], [15]] ∧
      (current.loopback 16).1.inbound.channel.items = [⟨⟨host, device, .ipv4⟩, [1, 2]⟩] ∧
      (current.loopback 16).1.observe.inDropped = 1 := by
  intro host device nic ops current
  have created : Nic.create { maxPacket := 16 } 1 2 = .ok nic := rfl
  have reached : ((up nic).run ops).1 = up current := by decide +kernel
  obtain ⟨found, _, _, since, lengths, -, -, items, observed, -⟩ :=
    run_loops_back created ops reached rfl
  cases (since.first_of_kept (by decide)).1
  refine ⟨created, reached, rfl, ?_, items, congrArg Observation.inDropped observed⟩
  rw [lengths]
  decide +kernel

end Session
end UsbEthernet
