import UsbEthernet.Proofs.Dispatch
import UsbEthernet.Proofs.Flow
import UsbEthernet.Proofs.Splitting

/-! What the reassembler buffers. Unless a frame is open it is nothing; while one is open it is the
full transfers that arrived last, which hold a header and are not too long for a frame. None of this
is looked at again when a frame is handed on, and nothing has to be: it can be read, it has room in
a slot, and so the only packets that are dropped are those that find the queue full. -/
namespace UsbEthernet
open Session (up)

def Act.arrivals (acts : List Act) : List Arrival :=
  acts.filterMap fun
    | arrive a => some a
    | _ => none

theorem Act.arrivals_append (first second : List Act) :
    arrivals (first ++ second) = arrivals first ++ arrivals second :=
  List.filterMap_append

namespace Reassembler

/-- What is buffered is these full transfers. Nothing has arrived after them or between them, so
the buffer has no octet of an earlier frame. -/
structure Buffers (maxPacket : Nat) (arrivals : List Arrival) (buffer : Bytes)
    (full : List Bytes) : Prop where
  latest : full.map .transfer <:+ arrivals
  lengths : ∀ octets ∈ full, octets.length = maxPacket
  joined : buffer = full.flatten
  positive : 1 ≤ full.length
  length : buffer.length = full.length * maxPacket
  holds_header : headerLength ≤ buffer.length
  fits : buffer.length ≤ maxFrame

/-- What each phase says of the buffer, after these arrivals. -/
structure Represents (maxPacket : Nat) (arrivals : List Arrival) (r : Reassembler) : Prop where
  closed : r.phase = .idle ∨ r.phase = .discard → r.buffer = []
  opened : r.phase = .active → ∃ full, Buffers maxPacket arrivals r.buffer full

/-- A frame that is handed on as this transfer arrives has the length of a frame, is read as a
header and a payload, and the payload has room in a slot. -/
structure Dispatches (r : Reassembler) (transfer frame : Bytes) : Prop where
  holds_header : headerLength ≤ frame.length
  fits : frame.length ≤ maxFrame
  read : ∃ header payload, Header.parse frame = .ok (header, payload) ∧
    payload.length ≤ maxPayload ∧ (r.receive transfer).2 = some ⟨header, payload⟩

variable {maxPacket : Nat} {arrivals : List Arrival} {r : Reassembler}

/-- One full transfer is enough for a header. -/
theorem Buffers.of_short {full : List Bytes} (holds_header : headerLength ≤ maxPacket)
    (latest : full.map .transfer <:+ arrivals) (lengths : ∀ octets ∈ full, octets.length = maxPacket)
    (nonempty : full ≠ []) (short : full.flatten.length ≤ maxFrame) :
    Buffers maxPacket arrivals full.flatten full := by
  have positive := List.length_pos_iff.mpr nonempty
  have length := length_flatten_full lengths
  have first : maxPacket ≤ full.length * maxPacket := Nat.le_mul_of_pos_left maxPacket positive
  exact ⟨latest, lengths, rfl, positive, length, by omega, short⟩

theorem IsAfter.represents (holds_header : headerLength ≤ maxPacket)
    (reached : r.IsAfter maxPacket arrivals) : r.Represents maxPacket arrivals := by
  obtain ⟨base, full, lengths, latest, rfl⟩ := reached
  -- No full transfer yet, too many octets in them already, or an open frame.
  by_cases empty : full = []
  · subst empty
    rw [within_nil]
    exact ⟨fun _ => rfl, by simp⟩
  · by_cases long : maxFrame < full.flatten.length
    · rw [within_long long]
      exact ⟨fun _ => rfl, by simp⟩
    · have short := Nat.not_lt.mp long
      rw [within_short empty short]
      exact ⟨by simp, fun _ => ⟨full, .of_short holds_header latest lengths empty short⟩⟩

theorem Represents.begun (represents : r.Represents maxPacket arrivals) : r.Begun := by
  intro active
  obtain ⟨_, buffers⟩ := represents.opened active
  exact buffers.holds_header

theorem Begun.dispatches (begun : r.Begun) {transfer frame : Bytes}
    (completed : (r.collect transfer).2 = some frame) : r.Dispatches transfer frame := by
  have holds_header := (begun.collect transfer).2 frame completed
  have fits := (r.collect_spec transfer).2.2 frame completed
  have room := Packet.fits_ofFrame fits
  have received := (begun.receive transfer).2
  rw [completed] at received
  exact ⟨holds_header, fits, _, _, Header.parse_eq_ofFrame holds_header,
    of_decide_eq_true room, received⟩

end Reassembler

namespace Inbound

/-- The packets that are complete with an act and find the queue full. -/
def refusedBy (i : Inbound) : Act → List Packet
  | .arrive a => if i.channel.isFull then (i.reassembler.arrive a).2.toList else []
  | .accept _ | .refuse | .sent | .tooLong | .take | .awaitRoom | .awaitFrame | .awaitPacket => []

def refused (i : Inbound) : List Act → List Packet
  | [] => []
  | act :: acts => i.refusedBy act ++ (i.perform act).refused acts

theorem dropped_perform (i : Inbound) (act : Act) :
    (i.perform act).dropped = i.dropped + UInt32.ofNat (i.refusedBy act).length := by
  cases act with
  | arrive a =>
    have dropped := congrArg Backlog.dropped (i.arrive_spec a).2
    refine dropped.trans ?_
    cases completed : (i.reassembler.arrive a).2 with
    | none => simp [refusedBy, completed, backlog]
    | some p =>
      by_cases full : i.channel.capacity ≤ i.channel.items.length
      · simp [refusedBy, completed, backlog, Backlog.offer, Channel.isFull, full, Nat.not_lt.mpr full]
      · simp [refusedBy, backlog, Backlog.offer, Channel.isFull, full, Nat.not_le.mp full]
  | accept | refuse | sent | tooLong | take | awaitRoom | awaitFrame | awaitPacket =>
    exact (UInt32.add_zero _).symm

end Inbound

namespace Nic
variable {nic last : Nic} {acts : List Act}

/-- Of all acts only arrivals reach the reassembler. -/
theorem Performs.isAfter {maxPacket : Nat} {earlier : List Arrival}
    (performed : nic.Performs acts last) (holds_header : headerLength ≤ maxPacket)
    (start : nic.inbound.reassembler.IsAfter maxPacket earlier) :
    last.inbound.reassembler.IsAfter maxPacket (earlier ++ Act.arrivals acts) := by
  induction performed generalizing earlier with
  | nil => rwa [show Act.arrivals [] = [] from rfl, List.append_nil]
  | @cons nic act acts last _ _ ih =>
    have arrivals := Act.arrivals_append [act] acts
    rw [List.singleton_append] at arrivals
    rw [arrivals, ← List.append_assoc]
    apply ih
    cases act with
    | arrive a => exact Inbound.isAfter_arrive holds_header start a
    | accept | refuse | sent | tooLong | take | awaitRoom | awaitFrame | awaitPacket =>
      rwa [show Act.arrivals [_] = [] from rfl, List.append_nil]

theorem Performs.dropped (performed : nic.Performs acts last) :
    last.inbound.dropped =
      nic.inbound.dropped + UInt32.ofNat (nic.inbound.refused acts).length := by
  induction performed with
  | nil => exact (UInt32.add_zero _).symm
  | @cons nic act acts last _ _ ih =>
    rw [ih, Inbound.refused, List.length_append, ← Counter.add_add, ← Inbound.dropped_perform]
    rfl

/-- Whatever is done with a new interface: the buffer is empty or holds the full transfers that
arrived last, between them a header and no more than a frame; a frame that is handed on then can be
read and has room in a slot; and the packets dropped are those that have found the queue full. -/
theorem buffers_open_frame {config : Config} {mtu : Nat} {inbound outbound : Channel Packet}
    (built : build config mtu inbound outbound = .ok nic) :
    (∀ ops : List Operation, (∀ op ∈ ops, op.isRebuild = false) →
      ∃ current, ((up nic).run ops).1 = up current ∧ nic.Performs ((up nic).acts ops) current) ∧
    ∀ acts current, nic.Performs acts current →
      current.inbound.reassembler.Represents config.maxPacket (Act.arrivals acts) ∧
      (∀ transfer frame, (current.inbound.reassembler.collect transfer).2 = some frame →
        current.inbound.reassembler.Dispatches transfer frame) ∧
      current.observe.inDropped = UInt32.ofNat (nic.inbound.refused acts).length := by
  obtain ⟨-, rfl⟩ := eq_of_build built
  refine ⟨fun ops kept => Session.run_performs _ kept, ?_⟩
  intro acts current performed
  have start : Reassembler.IsAfter config.maxPacket [] { maxPacket := config.maxPacket } :=
    ⟨0, [], by simp, List.suffix_rfl, rfl⟩
  have represents := (performed.isAfter config.holds_header start).represents config.holds_header
  refine ⟨represents, fun transfer frame completed => represents.begun.dispatches completed, ?_⟩
  exact performed.dropped.trans (UInt32.zero_add _)

/-- Two full transfers that come to the longest frame, behind a packet that waits, one that has found
the queue full and a transfer that was given up. -/
theorem buffers_open_frame_at_limit :
    let block : Bytes := List.replicate 757 0
    let config : Config := ⟨.broadcast, .zero, 757, by decide, by decide⟩
    let nic : Nic := ⟨{ reassembler := { maxPacket := 757 }, channel := { capacity := 1 } },
      { hostMac := .broadcast, deviceMac := .zero, mtu := 1500, channel := { capacity := 1 } }⟩
    let ops : List Operation := [.usb (.receive (List.replicate 14 1)),
      .usb (.receive (List.replicate 15 2)), .usb (.receive block), .usb .reset,
      .usb (.receive block), .usb (.receive block)]
    build config 1500 { capacity := 1 } { capacity := 1 } = .ok nic ∧
      (∀ op ∈ ops, op.isRebuild = false) ∧
      ∃ current, ((up nic).run ops).1 = up current ∧
        (∃ full, Reassembler.Buffers 757 (Act.arrivals ((up nic).acts ops)) (block ++ block) full) ∧
        current.inbound.reassembler.Dispatches [] (block ++ block) ∧
        current.observe.inDropped = 1 := by
  intro block config nic ops
  have built : build config 1500 { capacity := 1 } { capacity := 1 } = .ok nic := rfl
  have kept : ∀ op ∈ ops, op.isRebuild = false := by decide
  let last : Nic := ⟨⟨⟨757, .active, block ++ block, { frames := 2, aborted := 1 }⟩,
    { capacity := 1, items := [.ofFrame (List.replicate 14 1)] }, 1⟩, nic.outbound⟩
  have reached : ((up nic).run ops).1 = up last := by decide +kernel
  obtain ⟨runs, states⟩ := buffers_open_frame built
  obtain ⟨current, same, performed⟩ := runs ops kept
  rw [reached] at same
  cases same
  obtain ⟨represents, dispatches, -⟩ := states _ _ performed
  refine ⟨built, kept, last, reached, represents.opened rfl, dispatches [] _ ?_, rfl⟩
  decide +kernel

end Nic
end UsbEthernet
