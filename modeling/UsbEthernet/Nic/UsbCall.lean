import UsbEthernet.Nic

/-! The calls of the bus side of an interface, as data, and what each answers. -/
namespace UsbEthernet

inductive UsbCall where
  | receive (transfer : Bytes)
  | receiveFailed (e : Error)
  | transmit (room : Nat)
  | transmitDone
  | transmitNext
  | pollTransmit
  | reset
  | loopback (split : Nat)
deriving DecidableEq

inductive UsbReply where
  | done
  | fault (f : Fault)
  | ready (isReady : Bool)
  | frame (frame : Option Bytes)
  | lengths (frames : List (List Nat))
deriving DecidableEq

def UsbReply.ofFrame : Except Error (Option Bytes) → UsbReply
  | .ok answer => .frame answer
  | .error e => .fault (.error e)

/-- A failed transfer is reported back as it came, after the open frame is dropped. -/
def UsbCall.run (nic : Nic) : UsbCall → Nic × UsbReply
  | receive transfer => ({ nic with inbound := nic.inbound.receive transfer }, .done)
  | receiveFailed e => ({ nic with inbound := nic.inbound.abort }, .fault (.error e))
  | transmit room =>
    match nic.outbound.transmit room with
    | (outbound, answer) => ({ nic with outbound }, .ofFrame answer)
  | transmitDone =>
    match nic.outbound.transmitDone? with
    | some outbound => ({ nic with outbound }, .done)
    | none => (nic, .fault .misuse)
  | transmitNext =>
    match nic.outbound.transmitNext with
    | (outbound, answer) => ({ nic with outbound }, .ofFrame answer)
  | pollTransmit =>
    match nic.outbound.pollTransmit with
    | (outbound, isReady) => ({ nic with outbound }, .ready isReady)
  | reset => ({ nic with inbound := nic.inbound.abort }, .done)
  | loopback split =>
    match nic.loopback split with
    | (nic, frames) => (nic, .lengths frames)

end UsbEthernet
