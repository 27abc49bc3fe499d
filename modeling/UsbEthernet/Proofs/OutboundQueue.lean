import UsbEthernet.Proofs.Flow

/-! The queue to the host in every reachable state: the packets that the stack has had accepted, in
their order, less those at the front that are done with. What is asked for is the frame of the
oldest one, and asking takes nothing away unless the frame is longer than the room for it. -/
namespace UsbEthernet
open Session (up)

namespace Nic
variable {config : Config} {nic next : Nic}

/-- The answer to a call for a frame of at most this length: none if and only if the queue is empty,
the frame of the oldest packet where it fits, and otherwise an error that costs this packet. -/
def Transmits (config : Config) (nic : Nic) (room : Nat) : Prop :=
  match nic.outbound.channel.items with
  | [] => (UsbCall.transmit room).run nic = (nic, .frame none)
  | p :: queue =>
    if headerLength + p.payload.length ≤ room then
      (UsbCall.transmit room).run nic =
        (nic, .frame (some (config.hostMac.toBytes ++ config.deviceMac.toBytes ++
          p.header.proto.toBytes ++ p.payload)))
    else
      (UsbCall.transmit room).run nic =
        ({ nic with
            outbound.channel.items := queue
            outbound.channel.producer := nic.outbound.channel.producer.fire
            outbound.stats.oversize := nic.outbound.stats.oversize + 1 },
          .fault (.error .noSpace))

theorem transmits (host : nic.outbound.hostMac = config.hostMac)
    (device : nic.outbound.deviceMac = config.deviceMac) (room : Nat) :
    nic.Transmits config room := by
  cases queued : nic.outbound.channel.items with
  | nil =>
    simp only [Transmits, queued, UsbCall.run, Outbound.transmit_nil room queued]
    rfl
  | cons p queue =>
    have length := nic.outbound.length_frame p
    simp only [Transmits, queued, UsbCall.run, Outbound.transmit_cons room queued, length]
    by_cases fits : headerLength + p.payload.length ≤ room
    · simp only [fits, if_true, ← host, ← device]
      rfl
    · simp only [fits, if_false]
      rw [Channel.rest, queued]
      rfl

/-- The answer depends on the oldest packet and the two addresses alone. -/
theorem transmit_answer {p : Packet} (queued : nic.outbound.channel.items.head? = some p)
    (room : Nat) :
    ((UsbCall.transmit room).run nic).2 =
      .ofFrame (if (nic.outbound.frame p).length ≤ room then .ok (some (nic.outbound.frame p))
        else .error .noSpace) := by
  obtain ⟨queue, queued⟩ := List.head?_eq_some_iff.mp queued
  simp only [UsbCall.run, Outbound.transmit_cons room queued]
  split <;> rfl

end Nic

namespace Session
variable {current : Nic}

/-- While nothing is consumed and the interface is not built again, the answer stays the same. -/
theorem transmit_repeats {p : Packet} {queue : List Packet} {later : List Operation}
    (queued : current.outbound.channel.items = p :: queue)
    (kept : ∀ op ∈ later, op.isRebuild = false)
    (unconsumed : Act.consumed ((up current).acts later) = 0) :
    ∃ next, ((up current).run later).1 = up next ∧
      ∀ room, ((UsbCall.transmit room).run next).2 = ((UsbCall.transmit room).run current).2 := by
  obtain ⟨next, reached, performed⟩ := run_performs current kept
  obtain ⟨host, device, -, flows⟩ := performed.outbound
  rw [unconsumed] at flows
  have same : next.outbound.frame p = current.outbound.frame p := by
    rw [Outbound.frame, Outbound.frame, host, device]
  refine ⟨next, reached, fun room => ?_⟩
  rw [Nic.transmit_answer (flows.head? queued), same,
    Nic.transmit_answer (congrArg List.head? queued)]

/-- In every reachable state the queue to the host holds the accepted packets from the first one
that is not consumed, and never more than it has room for. The bus side is given the oldest one
with the addresses of the last build, as often as it asks until the packet is consumed; and the
packets that were there at the last build or were accepted since are counted as sent, are counted
as too long, or wait. -/
theorem run_transmits_accepted {settings : Settings} {inboundRoom outboundRoom : Nat} {nic : Nic}
    (created : Nic.create settings inboundRoom outboundRoom = .ok nic) (ops : List Operation) :
    let session := ((up nic).run ops).1
    let acts := (up nic).acts ops
    let waiting := session.outboundChannel.items
    Act.consumed acts ≤ (Act.accepted acts).length ∧
    waiting = (Act.accepted acts).drop (Act.consumed acts) ∧
    waiting.length ≤ outboundRoom ∧
    ∀ current, session = up current →
      (∃ config built after, LastBuilt settings nic ops config built after ∧
        current.observe.tx.frames + current.observe.tx.oversize + UInt32.ofNat waiting.length =
          UInt32.ofNat (built.outbound.channel.items.length +
            (Act.accepted ((up built).acts after)).length) ∧
        ∀ room, current.Transmits config room) ∧
      ∀ later p queue, waiting = p :: queue → Act.consumed ((up current).acts later) = 0 →
        ((up current).run later).1.outboundChannel.items.head? = some p ∧
        ((∀ op ∈ later, op.isRebuild = false) →
          ∃ next, ((up current).run later).1 = up next ∧
            ∀ room, ((UsbCall.transmit room).run next).2 =
              ((UsbCall.transmit room).run current).2) := by
  intro session acts waiting
  obtain ⟨_, -, -, -, made⟩ := Nic.create_built created
  have start : (up nic).outboundChannel = { capacity := outboundRoom } := by
    rw [(Nic.eq_of_build made).2]
    rfl
  have flows := (up nic).run_outbound ops
  rw [start] at flows
  refine ⟨flows.enough, flows.items, flows.bounded (Nat.zero_le _), ?_⟩
  intro current reached
  have same : waiting = current.outbound.channel.items := by
    simp only [waiting, reached, outboundChannel]
  rw [same]
  constructor
  · obtain ⟨config, built, after, last, ⟨_, _, _, fresh⟩, performed⟩ :=
      exists_lastBuilt created ops reached
    obtain ⟨host, device, counted, queue⟩ := performed.outbound
    have length := queue.length
    obtain ⟨-, rfl⟩ := Nic.eq_of_build fresh
    refine ⟨config, _, after, last, ?_, Nic.transmits host device⟩
    rw [← length, Nic.observe, counted, UInt32.zero_add, UInt32.zero_add, Nat.add_comm,
      UInt32.ofNat_add]
  · intro later p queue queued unconsumed
    have kept := (up current).run_outbound later
    rw [unconsumed] at kept
    exact ⟨kept.head? queued, fun sustained => transmit_repeats queued sustained unconsumed⟩

/-- A packet that the room was too short for is gone, and the next one is given with the address
of a later build, as often as it is asked for. -/
theorem run_transmits_accepted_rebuilt :
    let host : MacAddr := ⟨0x02, 0, 0, 0, 0, 0x01⟩
    let device : MacAddr := ⟨0x1a, 0x55, 0x89, 0xa2, 0x69, 0x42⟩
    let nic : Nic := ⟨⟨{ maxPacket := 512 }, { capacity := 1 }, 0⟩,
      { hostMac := ⟨0x1a, 0x55, 0x89, 0xa2, 0x69, 0x41⟩, deviceMac := device, mtu := 1500,
        channel := { capacity := 2 } }⟩
    let ops : List Operation := [.stack (.send .ipv4 [[1], [2]]), .stack (.send .arp [[3]]),
      .usb (.transmit 15), .rebuild { host := "02:00:00:00:00:01" }, .stack (.send .vlan [[4]])]
    let later : List Operation := [.stack (.send .ipv4 [[5]]), .usb (.transmit 100), .usb .reset]
    let session := ((up nic).run ops).1
    Nic.create {} 1 2 = .ok nic ∧
      session.outboundChannel.items = [⟨.ofProto .arp, [3]⟩, ⟨.ofProto .vlan, [4]⟩] ∧
      ∃ next, (session.run later).1 = up next ∧
        ((UsbCall.transmit 15).run next).2 =
          .frame (some (host.toBytes ++ device.toBytes ++ EtherType.arp.toBytes ++ [3])) := by
  intro host device nic ops later session
  have created : Nic.create {} 1 2 = .ok nic := rfl
  let current : Nic := ⟨⟨{ maxPacket := 512 }, { capacity := 1 }, 0⟩,
    { hostMac := host, deviceMac := device, mtu := 1500, channel :=
      { capacity := 2, items := [⟨.ofProto .arp, [3]⟩, ⟨.ofProto .vlan, [4]⟩] } }⟩
  have reached : session = up current := by decide +kernel
  obtain ⟨-, items, -, standing⟩ := run_transmits_accepted created ops
  have waiting : session.outboundChannel.items = [⟨.ofProto .arp, [3]⟩, ⟨.ofProto .vlan, [4]⟩] :=
    items.trans (by decide +kernel)
  have kept : ∀ op ∈ later, op.isRebuild = false := by decide
  have unconsumed : Act.consumed ((up current).acts later) = 0 := by decide +kernel
  obtain ⟨-, repeats⟩ := (standing current reached).2 later _ _ waiting unconsumed
  obtain ⟨next, last, answers⟩ := repeats kept
  refine ⟨created, waiting, next, ?_, ?_⟩
  · rw [reached]
    exact last
  · rw [answers]
    rfl

end Session
end UsbEthernet
