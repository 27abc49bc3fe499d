import UsbEthernet.Nic.UsbCall

/-! Waiting operations of the network stack. One is polled until it has a result, and each time
it has none the bus side makes one call; when the calls run out it is given up. -/
namespace UsbEthernet

/-- A call of the bus side made during a wait, with the interface after it. -/
structure WaitStep where
  reply : UsbReply
  state : Observation
  wakes : Wakes
deriving DecidableEq

/-- How a wait went; without a result it was given up. -/
structure Wait (α : Type) where
  result : Option α
  steps : List WaitStep
deriving DecidableEq

namespace Nic

/-- Polls until there is a result or no call is left. -/
def await (poll : Nic → Nic × Option α) (nic : Nic) : List UsbCall → Nic × Wait α
  | [] =>
    match poll nic with
    | (nic, result) => (nic, ⟨result, []⟩)
  | call :: calls =>
    match poll nic with
    | (nic, some a) => (nic, ⟨some a, []⟩)
    | (nic, none) =>
      match call.run nic with
      | (nic, reply) =>
        match await poll nic calls with
        | (last, wait) =>
          (last, { wait with steps := ⟨reply, nic.observe, nic.wakes⟩ :: wait.steps })

/-- Queues a packet as soon as there is room; one that is too long is refused at once. -/
def sendWait (nic : Nic) (proto : EtherType) (pieces : List Bytes) (calls : List UsbCall) :
    Nic × Wait (Except Error Unit) :=
  if nic.outbound.admits pieces then
    await (fun nic =>
      match nic.outbound.pollSend proto pieces with
      | (outbound, result) => ({ nic with outbound }, result)) nic calls
  else (nic, ⟨some (.error .noSpace), []⟩)

/-- Looks at the oldest inbound packet as soon as there is one. -/
def inboundWait (nic : Nic) (calls : List UsbCall) : Nic × Wait Packet :=
  await (fun nic =>
    match nic.inbound.poll with
    | (inbound, packet) => ({ nic with inbound }, packet)) nic calls

end Nic
end UsbEthernet
