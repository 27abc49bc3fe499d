import UsbEthernet.Outbound
import UsbEthernet.Transfer
import UsbEthernet.Usb.Loop
import UsbEthernet.Usb.Bus

/-! The loop that carries frames to the host. After an attach it announces the connection, then
writes one frame after the other. A packet is consumed once all transfers of its frame are
written; a failed write leaves it queued and leads back to the announcement. -/
namespace UsbEthernet

/-- The notification that the network is connected or not. -/
def connectionNotice (interface : Nat) (connected : Bool) : Bytes :=
  [0xa1, 0x00] ++ Bytes.littleEndian connected.toNat ++ Bytes.littleEndian interface ++
    Bytes.littleEndian 0

inductive UplinkPhase where
  /-- The connection is to be announced once a host is there. -/
  | silent
  /-- Announced, with no frame begun. -/
  | ready
  /-- Within a frame, with these transfers to come. -/
  | writing (rest : List Bytes)
deriving DecidableEq

namespace UplinkPhase

def rank (attached : Bool) : UplinkPhase → Nat
  | silent => if attached then 3 else 0
  | writing _ => 1
  | ready => 2

def remaining : UplinkPhase → Nat
  | writing rest => rest.length
  | silent | ready => 0

end UplinkPhase

structure Uplink where
  maxPacket : Nat
  interface : Nat
  phase : UplinkPhase := .silent
  pipe : InPipe := {}
  /-- A further bound on the room given to frames. -/
  limit : Option Nat := none
  outbound : Outbound
deriving DecidableEq

namespace Uplink

def room (u : Uplink) : Nat :=
  match u.limit with
  | none => maxFrame
  | some limit => min limit maxFrame

/-- Moves on after a success; a failure leads back to the announcement. -/
def proceed (event : InEvent) (phase : UplinkPhase) : UplinkPhase :=
  if event.succeeded then phase else .silent

def step (attached : Bool) (u : Uplink) : Option (Uplink × List InEvent) :=
  match u.phase with
  | .silent =>
    if attached then
      match u.pipe.notify attached (connectionNotice u.interface true) with
      | (pipe, event) => some ({ u with pipe, phase := proceed event .ready }, [event])
    else none
  | .ready =>
    match u.outbound.transmit u.room with
    | (_, .ok none) => none
    | (outbound, .ok (some frame)) =>
      some ({ u with outbound, phase := .writing (transfers frame u.maxPacket) }, [])
    | (outbound, .error _) => some ({ u with outbound }, [])
  | .writing [] =>
    match u.outbound.transmitDone? with
    | none => none
    | some outbound => some ({ u with outbound, phase := .ready }, [])
  | .writing (transfer :: rest) =>
    match u.pipe.write attached transfer with
    | none => none
    | some (pipe, event) => some ({ u with pipe, phase := proceed event (.writing rest) }, [event])

abbrev Measure := Nat × Nat × Nat × Nat × Nat

/-- Failures of bulk writes and of notifications are used up, packets are consumed, and in
between a frame is written to its end. -/
def measure (attached : Bool) (u : Uplink) : Measure :=
  (u.pipe.failIn.isSome.toNat, u.pipe.failNotify, u.outbound.channel.items.length,
    u.phase.rank attached, u.phase.remaining)

theorem step_descends {attached : Bool} {u v : Uplink} {events : List InEvent}
    (h : u.step attached = some (v, events)) :
    WellFoundedRelation.rel (v.measure attached) (u.measure attached) := by
  simp only [WellFoundedRelation.rel, measure, Prod.lex_def, InvImage, sizeOf_nat]
  unfold step at h
  split at h
  · rename_i silent
    split at h
    · rename_i there
      subst there
      obtain succeeds | ⟨n, failures, fails⟩ :=
        u.pipe.notify_attached (connectionNotice u.interface true)
      · simp only [succeeds, Option.some.injEq, Prod.mk.injEq] at h
        obtain ⟨rfl, _⟩ := h
        simp [silent, proceed, InEvent.succeeded, UplinkPhase.rank]
      · simp only [fails, Option.some.injEq, Prod.mk.injEq] at h
        obtain ⟨rfl, _⟩ := h
        simp [failures]
    · cases h
  · split at h
    · cases h
    · rename_i ready _ _ _ sent
      cases h
      cases Outbound.transmit_some sent
      simp [ready, UplinkPhase.rank]
    · rename_i sent
      cases h
      have := Outbound.length_transmit_error sent
      simp [this]
  · split at h
    · cases h
    · rename_i sent
      cases h
      have := Outbound.length_transmitDone? sent
      simp [this]
  · rename_i writing
    split at h
    · cases h
    · rename_i wrote
      cases h
      obtain ⟨notices, failures⟩ := InPipe.write_failures wrote
      split at failures
      · rename_i succeeded
        simp [notices, failures, writing, proceed, succeeded, UplinkPhase.rank,
          UplinkPhase.remaining]
      · rename_i failed
        obtain ⟨off, same⟩ | ⟨fail, spent⟩ := failures
        · simp [notices, same, off, writing, proceed, failed, UplinkPhase.rank]
        · simp [fail, spent]

def loop (attached : Bool) : Loop Uplink InEvent Measure where
  step := step attached
  measure := measure attached
  descends := step_descends

end Uplink
end UsbEthernet
