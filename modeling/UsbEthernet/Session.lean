import UsbEthernet.Nic.StackCall

/-! Runs of calls on an interface that may be taken down and built again on the same queues.
While none is built the queues remain and calls are passed over. -/
namespace UsbEthernet

inductive Operation where
  | usb (call : UsbCall)
  | stack (call : StackCall)
  | rebuild (settings : Settings)
deriving DecidableEq

inductive Reply where
  | usb (reply : UsbReply)
  | stack (reply : StackReply)
  | rebuilt

inductive Entry where
  | answered (reply : Reply) (state : Observation) (wakes : Wakes)
  | refused (e : Error)

def Entry.after (nic : Nic) (reply : Reply) : Entry :=
  .answered reply nic.observe nic.wakes

inductive Session where
  | up (nic : Nic)
  | down (inbound outbound : Channel Packet)
deriving DecidableEq

namespace Session

def inboundChannel : Session → Channel Packet
  | up nic => nic.inbound.channel
  | down inbound _ => inbound

def outboundChannel : Session → Channel Packet
  | up nic => nic.outbound.channel
  | down _ outbound => outbound

def rebuild (session : Session) (settings : Settings) : Session × Entry :=
  match Nic.ofSettings settings session.inboundChannel session.outboundChannel with
  | .ok nic => (up nic, .after nic .rebuilt)
  | .error e => (down session.inboundChannel session.outboundChannel, .refused e)

def step (session : Session) : Operation → Session × Option Entry
  | .rebuild settings =>
    match session.rebuild settings with
    | (session, entered) => (session, some entered)
  | .usb call =>
    match session with
    | down .. => (session, none)
    | up nic =>
      match call.run nic with
      | (nic, reply) => (up nic, some (.after nic (.usb reply)))
  | .stack call =>
    match session with
    | down .. => (session, none)
    | up nic =>
      match call.run nic with
      | (nic, reply) => (up nic, some (.after nic (.stack reply)))

def run (session : Session) : List Operation → Session × List Entry
  | [] => (session, [])
  | op :: ops =>
    match session.step op with
    | (session, entered) =>
      match session.run ops with
      | (session, entries) => (session, entered.toList ++ entries)

end Session
end UsbEthernet
