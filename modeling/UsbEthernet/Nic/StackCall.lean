import UsbEthernet.Nic.Wait

/-! The calls of the network stack, as data, and what each answers. -/
namespace UsbEthernet

inductive StackCall where
  | send (proto : EtherType) (pieces : List Bytes)
  | sendWait (proto : EtherType) (pieces : List Bytes) (calls : List UsbCall)
  /-- Looks at the oldest inbound packet. -/
  | head
  /-- Consumes the oldest inbound packet, which must be there. -/
  | done
  /-- Takes the oldest inbound packet, if there is one. -/
  | pop
  | inboundWait (calls : List UsbCall)
  | info
deriving DecidableEq

inductive StackReply where
  | done
  | fault (f : Fault)
  | packet (packet : Option Packet)
  | sendWait (wait : Wait (Except Error Unit))
  | inboundWait (wait : Wait Packet)
  | info (mtu : Nat) (linkAddress : MacAddr)

def StackReply.ofSend : Except Error Unit → StackReply
  | .ok () => .done
  | .error e => .fault (.error e)

def StackCall.run (nic : Nic) : StackCall → Nic × StackReply
  | send proto pieces =>
    match nic.outbound.send proto pieces with
    | (outbound, result) => ({ nic with outbound }, .ofSend result)
  | sendWait proto pieces calls =>
    match nic.sendWait proto pieces calls with
    | (nic, wait) => (nic, .sendWait wait)
  | head => (nic, .packet nic.inbound.head?)
  | done =>
    match nic.inbound.done? with
    | some inbound => ({ nic with inbound }, .done)
    | none => (nic, .fault .misuse)
  | pop =>
    match nic.inbound.pop with
    | (inbound, packet) => ({ nic with inbound }, .packet packet)
  | inboundWait calls =>
    match nic.inboundWait calls with
    | (nic, wait) => (nic, .inboundWait wait)
  | info => (nic, .info nic.outbound.mtu nic.outbound.deviceMac)

end UsbEthernet
