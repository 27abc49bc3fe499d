import UsbEthernet.Config
import UsbEthernet.Inbound
import UsbEthernet.Outbound
import UsbEthernet.Transfer

/-! A network interface between a USB data interface and a network stack: the two directions
side by side, which share no state. -/
namespace UsbEthernet

structure Nic where
  inbound : Inbound
  outbound : Outbound
deriving DecidableEq

/-- What can be read off an interface at any time. -/
structure Observation where
  rx : RxStats
  tx : TxStats
  inDropped : Counter
  outDropped : Counter
  inLength : Nat
deriving DecidableEq

/-- How often each side has been woken. -/
structure Wakes where
  usb : Nat
  stack : Nat
deriving DecidableEq

namespace Nic

/-- Makes an interface on two queues, which keep their packets and registrations. -/
def build (config : Config) (mtu : Nat) (inbound outbound : Channel Packet) :
    Except Error Nic :=
  if 0 < mtu ∧ mtu ≤ maxPayload then
    .ok {
      inbound := { reassembler := { maxPacket := config.maxPacket }, channel := inbound }
      outbound := {
        hostMac := config.hostMac
        deviceMac := config.deviceMac
        mtu
        channel := outbound } }
  else .error .badArgument

theorem eq_of_build {config : Config} {mtu : Nat} {inbound outbound : Channel Packet} {nic : Nic}
    (built : build config mtu inbound outbound = .ok nic) :
    mtu ≤ maxPayload ∧ nic =
      ⟨{ reassembler := { maxPacket := config.maxPacket }, channel := inbound },
        { hostMac := config.hostMac, deviceMac := config.deviceMac, mtu, channel := outbound }⟩ := by
  unfold build at built
  split at built
  · rename_i bounds
    cases built
    exact ⟨bounds.2, rfl⟩
  · cases built

def ofSettings (settings : Settings) (inbound outbound : Channel Packet) : Except Error Nic :=
  match settings.config with
  | .ok config => build config settings.mtu inbound outbound
  | .error e => .error e

theorem ofSettings_built {settings : Settings} {inbound outbound : Channel Packet} {nic : Nic}
    (made : ofSettings settings inbound outbound = .ok nic) :
    ∃ config, settings.config = .ok config ∧
      build config settings.mtu inbound outbound = .ok nic := by
  unfold ofSettings at made
  split at made
  · rename_i config valid
    exact ⟨config, valid, made⟩
  · cases made

/-- Makes an interface on new queues, each with room for at least one packet. -/
def create (settings : Settings) (inboundRoom outboundRoom : Nat) : Except Fault Nic :=
  if 0 < inboundRoom ∧ 0 < outboundRoom then
    match ofSettings settings { capacity := inboundRoom } { capacity := outboundRoom } with
    | .ok nic => .ok nic
    | .error e => .error (.error e)
  else .error .misuse

theorem create_built {settings : Settings} {inboundRoom outboundRoom : Nat} {nic : Nic}
    (created : create settings inboundRoom outboundRoom = .ok nic) :
    ∃ config, settings.config = .ok config ∧ 0 < inboundRoom ∧ 0 < outboundRoom ∧
      build config settings.mtu { capacity := inboundRoom } { capacity := outboundRoom } =
        .ok nic := by
  unfold create at created
  split at created
  · rename_i rooms
    split at created
    · rename_i made
      cases created
      obtain ⟨config, valid, built⟩ := ofSettings_built made
      exact ⟨config, valid, rooms.1, rooms.2, built⟩
    · cases created
  · cases created

def observe (nic : Nic) : Observation where
  rx := nic.inbound.reassembler.stats
  tx := nic.outbound.stats
  inDropped := nic.inbound.dropped
  outDropped := nic.outbound.dropped
  inLength := nic.inbound.channel.items.length

/-- The bus side waits for outbound packets, the stack for outbound room and inbound packets. -/
def wakes (nic : Nic) : Wakes where
  usb := nic.outbound.channel.consumer.wakes
  stack := nic.outbound.channel.producer.wakes + nic.inbound.channel.consumer.wakes

/-- Sends every queued packet back to the interface itself, in transfers of at most `split`
octets, and gives the lengths of the transfers of each frame. -/
def loopback (split : Nat) (nic : Nic) : Nic × List (List Nat) :=
  match _h : nic.outbound.transmitNext with
  | (outbound, .ok (some frame)) =>
    let sent := transfers frame split
    match loopback split ⟨nic.inbound.receiveAll sent, outbound⟩ with
    | (nic, lengths) => (nic, sent.map List.length :: lengths)
  | (outbound, _) => ({ nic with outbound }, [])
termination_by nic.outbound.channel.items.length
decreasing_by exact Outbound.length_transmitNext _h

end Nic
end UsbEthernet
