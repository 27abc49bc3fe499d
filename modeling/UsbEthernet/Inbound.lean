import UsbEthernet.Channel
import UsbEthernet.Reassembler

/-! The direction from the host to the network stack: transfers are put together and the packets
queued. A packet that finds the queue full is dropped and counted. -/
namespace UsbEthernet

structure Inbound where
  reassembler : Reassembler
  channel : Channel Packet
  dropped : Counter := 0
deriving DecidableEq

namespace Inbound

def drop (i : Inbound) : Inbound :=
  { i with dropped := i.dropped + 1 }

def offer (i : Inbound) (p : Packet) : Inbound :=
  if p.fits then
    match i.channel.push? p with
    | some channel => { i with channel }
    | none => i.drop
  else i.drop

def receive (i : Inbound) (transfer : Bytes) : Inbound :=
  match i.reassembler.receive transfer with
  | (reassembler, none) => { i with reassembler }
  | (reassembler, some packet) => { i with reassembler }.offer packet

def receiveAll (i : Inbound) (transfers : List Bytes) : Inbound :=
  transfers.foldl receive i

def abort (i : Inbound) : Inbound :=
  { i with reassembler := i.reassembler.abort }

def head? (i : Inbound) : Option Packet :=
  i.channel.head?

/-- Consumes the oldest packet; there must be one. -/
def done? (i : Inbound) : Option Inbound :=
  i.channel.pop?.map fun (_, channel) => { i with channel }

/-- Takes the oldest packet, if there is one. -/
def pop (i : Inbound) : Inbound × Option Packet :=
  match i.channel.pop? with
  | none => (i, none)
  | some (packet, channel) => ({ i with channel }, some packet)

/-- The packet that a waiting stack gets; without one the stack is registered. -/
def poll (i : Inbound) : Inbound × Option Packet :=
  match i.channel.pollPop with
  | (channel, _) => ({ i with channel }, channel.head?)

end Inbound
end UsbEthernet
