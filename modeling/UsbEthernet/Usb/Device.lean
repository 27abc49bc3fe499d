import UsbEthernet.Nic.StackCall
import UsbEthernet.Usb.Downlink
import UsbEthernet.Usb.Gadget
import UsbEthernet.Usb.Uplink

/-! An interface whose two loops are polled after every action of the host or the stack. The
loops share the attachment and nothing else. -/
namespace UsbEthernet

structure Device where
  attached : Bool := false
  uplink : Uplink
  downlink : Downlink
deriving DecidableEq

inductive DeviceAction where
  | host (action : HostAction)
  | send (proto : EtherType) (pieces : List Bytes)
  | pop
  | limit (room : Option Nat)
  | refuse (count : Nat)
  | reset
deriving DecidableEq

namespace Device

/-- Frames are cut to the packet size that the endpoint to the host declares. -/
def ofGadget (g : Gadget) (nic : Nic) : Device where
  uplink := {
    maxPacket := g.inEndpoint.maxPacket
    interface := g.communicationInterface
    outbound := nic.outbound }
  downlink := { inbound := nic.inbound }

/-- The configuration is checked before the queues are made. -/
def create (settings : Settings) (strings interfaces inboundRoom outboundRoom : Nat) :
    Except Fault Device :=
  match Gadget.ofSettings settings strings interfaces with
  | .error e => .error (.error e)
  | .ok g =>
    match Nic.create settings inboundRoom outboundRoom with
    | .error f => .error f
    | .ok nic => .ok (ofGadget g nic)

def nic (d : Device) : Nic :=
  ⟨d.downlink.inbound, d.uplink.outbound⟩

def bus (d : Device) : Bus :=
  ⟨d.attached, d.uplink.pipe, d.downlink.pipe⟩

def withBus (d : Device) (b : Bus) : Device where
  attached := b.attached
  uplink := { d.uplink with pipe := b.inPipe }
  downlink := { d.downlink with pipe := b.outPipe }

def act (d : Device) : DeviceAction → Device × StackReply
  | .host action => (d.withBus (action.act d.bus), .done)
  | .send proto pieces =>
    match d.uplink.outbound.send proto pieces with
    | (outbound, result) => ({ d with uplink.outbound := outbound }, .ofSend result)
  | .pop =>
    match d.downlink.inbound.pop with
    | (inbound, packet) => ({ d with downlink.inbound := inbound }, .packet packet)
  | .limit room => ({ d with uplink.limit := room }, .done)
  | .refuse count => ({ d with downlink.refuse := count }, .done)
  | .reset => ({ d with downlink.inbound := d.downlink.inbound.abort }, .done)

/-- Runs the loop to the host until it has to wait, then the loop from it. -/
def poll (d : Device) : Device × List Event :=
  match (Uplink.loop d.attached).poll d.uplink, (Downlink.loop d.attached).poll d.downlink with
  | (uplink, sent), (downlink, received) =>
    ({ d with uplink, downlink }, sent.map .toHost ++ received.map .fromHost)

/-- An action's answer, with the events of the poll after it and the state it leaves. -/
structure Turn where
  reply : StackReply
  events : List Event
  state : Observation

def turn (d : Device) (action : DeviceAction) : Device × Turn :=
  match d.act action with
  | (d, reply) =>
    match d.poll with
    | (d, events) => (d, ⟨reply, events, d.nic.observe⟩)

def run (d : Device) : List DeviceAction → Device × List Turn
  | [] => (d, [])
  | action :: actions =>
    match d.turn action with
    | (d, first) =>
      match d.run actions with
      | (d, turns) => (d, first :: turns)

end Device
end UsbEthernet
