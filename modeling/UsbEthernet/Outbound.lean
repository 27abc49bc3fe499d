import UsbEthernet.Channel
import UsbEthernet.Packet

/-! The direction from the network stack to the host: packets are queued, then framed with the
addresses of the two ends. A packet stays queued until its frame is reported as sent, so that a
frame cut short by a failure is sent again whole. -/
namespace UsbEthernet

structure TxStats where
  frames : Counter := 0
  oversize : Counter := 0
deriving DecidableEq

structure Outbound where
  hostMac : MacAddr
  deviceMac : MacAddr
  mtu : Nat
  channel : Channel Packet
  dropped : Counter := 0
  stats : TxStats := {}
deriving DecidableEq

namespace Outbound

/-- Whether the pieces together are within the link's payload limit. Their sum is exact: only pieces
that overlap in memory could come to more than a machine word holds. -/
def admits (o : Outbound) (pieces : List Bytes) : Bool :=
  (pieces.map List.length).foldl (· + ·) 0 ≤ o.mtu

/-- Writes a packet into a slot; only a packet written whole is queued. -/
def store (o : Outbound) (proto : EtherType) (pieces : List Bytes) :
    Outbound × Except Error Unit :=
  match Bytes.gather? maxPayload pieces with
  | none => (o, .error .noSpace)
  | some payload =>
    match o.channel.push? ⟨.ofProto proto, payload⟩ with
    | none => (o, .error .noSpace)
    | some channel => ({ o with channel }, .ok ())

/-- Where there is room, a packet is queued whole or not at all. -/
theorem store_cases {o : Outbound} (proto : EtherType) (pieces : List Bytes)
    (room : o.channel.isFull = false) :
    o.store proto pieces = (o, .error .noSpace) ∨
    Packet.fits ⟨.ofProto proto, pieces.flatten⟩ = true ∧
      o.store proto pieces =
        ({ o with
            channel.items := o.channel.items ++ [⟨.ofProto proto, pieces.flatten⟩]
            channel.consumer := o.channel.consumer.fire }, .ok ()) := by
  unfold store
  cases gathered : Bytes.gather? maxPayload pieces with
  | none => exact .inl rfl
  | some payload =>
    obtain ⟨rfl, fits⟩ := Bytes.gather?_some gathered
    refine .inr ⟨decide_eq_true fits, ?_⟩
    simp only [Channel.push?, room, Bool.false_eq_true, if_false]

/-- Queues a packet, or drops and counts it when the queue is full. -/
def send (o : Outbound) (proto : EtherType) (pieces : List Bytes) :
    Outbound × Except Error Unit :=
  if o.admits pieces then
    if o.channel.isFull then ({ o with dropped := o.dropped + 1 }, .error .noSpace)
    else o.store proto pieces
  else (o, .error .noSpace)

/-- One attempt of a stack that waits for room: the result, or none after registering it. -/
def pollSend (o : Outbound) (proto : EtherType) (pieces : List Bytes) :
    Outbound × Option (Except Error Unit) :=
  match o.channel.pollPush with
  | (channel, false) => ({ o with channel }, none)
  | (channel, true) =>
    match { o with channel }.store proto pieces with
    | (o, result) => (o, some result)

def frame (o : Outbound) (p : Packet) : Bytes :=
  Header.toBytes ⟨o.hostMac, o.deviceMac, p.header.proto⟩ ++ p.payload

/-- The frame of the oldest packet, which stays queued. One that `room` cannot hold is dropped
and counted. -/
def transmit (o : Outbound) (room : Nat) : Outbound × Except Error (Option Bytes) :=
  match o.channel.pop? with
  | none => (o, .ok none)
  | some (packet, channel) =>
    let frame := o.frame packet
    if frame.length ≤ room then (o, .ok (some frame))
    else ({ o with channel, stats.oversize := o.stats.oversize + 1 }, .error .noSpace)

/-- Consumes the packet whose frame has been sent; there must be one. -/
def transmitDone? (o : Outbound) : Option Outbound :=
  o.channel.pop?.map fun (_, channel) =>
    { o with channel, stats.frames := o.stats.frames + 1 }

def pollTransmit (o : Outbound) : Outbound × Bool :=
  match o.channel.pollPop with
  | (channel, ready) => ({ o with channel }, ready)

/-- Takes the next frame of any length and reports it as sent. -/
def transmitNext (o : Outbound) : Outbound × Except Error (Option Bytes) :=
  match o.transmit maxFrame with
  | (o, .ok (some frame)) =>
    match o.transmitDone? with
    | some done => (done, .ok (some frame))
    | none => (o, .ok none)
  | idle => idle

theorem length_frame (o : Outbound) (p : Packet) :
    (o.frame p).length = headerLength + p.payload.length := by
  rw [frame, List.length_append, Header.length_toBytes]

theorem transmit_nil {o : Outbound} (room : Nat) (h : o.channel.items = []) :
    o.transmit room = (o, .ok none) := by
  simp only [transmit, Channel.pop?_nil h]

theorem transmit_cons {o : Outbound} {p : Packet} {queue : List Packet} (room : Nat)
    (h : o.channel.items = p :: queue) :
    o.transmit room =
      if (o.frame p).length ≤ room then (o, .ok (some (o.frame p)))
      else ({ o with
        channel := o.channel.rest
        stats.oversize := o.stats.oversize + 1 }, .error .noSpace) := by
  simp only [transmit, Channel.pop?_cons h]

theorem transmitNext_cons {o : Outbound} {p : Packet} {queue : List Packet}
    (h : o.channel.items = p :: queue) :
    o.transmitNext =
      if (o.frame p).length ≤ maxFrame then
        ({ o with
          channel := o.channel.rest
          stats.frames := o.stats.frames + 1 }, .ok (some (o.frame p)))
      else ({ o with
        channel := o.channel.rest
        stats.oversize := o.stats.oversize + 1 }, .error .noSpace) := by
  by_cases fits : (o.frame p).length ≤ maxFrame
  · simp only [transmitNext, transmit_cons maxFrame h, transmitDone?, Channel.pop?_cons h, fits,
      if_true, Option.map_some]
  · simp only [transmitNext, transmit_cons maxFrame h, fits, if_false]

theorem length_transmitDone? {o p : Outbound} (h : o.transmitDone? = some p) :
    p.channel.items.length < o.channel.items.length := by
  simp only [transmitDone?, Option.map_eq_some_iff] at h
  obtain ⟨⟨_, channel⟩, popped, rfl⟩ := h
  exact Channel.length_pop? popped

theorem transmit_some {o p : Outbound} {room : Nat} {frame : Bytes}
    (h : o.transmit room = (p, .ok (some frame))) : p = o := by
  unfold transmit at h
  split at h
  · cases h
  · dsimp only at h
    split at h <;> cases h
    rfl

theorem length_transmit_error {o p : Outbound} {room : Nat} {e : Error}
    (h : o.transmit room = (p, .error e)) :
    p.channel.items.length < o.channel.items.length := by
  unfold transmit at h
  split at h
  · cases h
  · rename_i popped
    dsimp only at h
    split at h <;> cases h
    exact Channel.length_pop? popped

theorem length_transmitNext {o p : Outbound} {frame : Bytes}
    (h : o.transmitNext = (p, .ok (some frame))) :
    p.channel.items.length < o.channel.items.length := by
  unfold transmitNext at h
  split at h
  · rename_i kept framed
    split at h
    · rename_i done finished
      cases h
      exact transmit_some framed ▸ length_transmitDone? finished
    · cases h
  · rename_i other
    exact absurd h (other _ _)

end Outbound
end UsbEthernet
