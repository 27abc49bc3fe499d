import UsbEthernet.Usb.Gadget
import UsbEthernet.Usb.Uplink

/-! The endpoints used one call at a time, without the loops. A call that has to wait is given
up, and keeps what it has done so far. -/
namespace UsbEthernet

structure Halves where
  maxPacket : Nat
  interface : Nat
  bus : Bus := {}
deriving DecidableEq

inductive HalfCall where
  | host (action : HostAction)
  | send (frame : Bytes)
  | notify (connected : Bool)
  | receive
  | waitUplink
  | waitDownlink
deriving DecidableEq

inductive HalfReply where
  | done
  | data (transfer : Bytes)
  | failed (e : Error)
  | pending
deriving DecidableEq

namespace HalfReply

def ofOutcome : InPipe.Outcome → HalfReply
  | .done => done
  | .failed => failed .txFailure
  | .pending => pending

def ofRead : OutEvent → HalfReply
  | .data transfer => data transfer
  | .off | .failed | .overflow => failed .rxFailure

end HalfReply

namespace Halves

def ofGadget (g : Gadget) : Halves where
  maxPacket := g.inEndpoint.maxPacket
  interface := g.communicationInterface

def wait (h : Halves) : HalfReply :=
  if h.bus.attached then .done else .pending

def call (h : Halves) : HalfCall → Halves × HalfReply × List Event
  | .host action => ({ h with bus := action.act h.bus }, .done, [])
  | .send frame =>
    match h.bus.inPipe.writeAll h.bus.attached (transfers frame h.maxPacket) with
    | (pipe, outcome, events) =>
      ({ h with bus.inPipe := pipe }, .ofOutcome outcome, events.map .toHost)
  | .notify connected =>
    match h.bus.inPipe.notify h.bus.attached (connectionNotice h.interface connected) with
    | (pipe, event) =>
      ({ h with bus.inPipe := pipe },
        if event.succeeded then .done else .failed .txFailure, [.toHost event])
  | .receive =>
    match h.bus.outPipe.read h.bus.attached with
    | none => (h, .pending, [])
    | some (pipe, event) => ({ h with bus.outPipe := pipe }, .ofRead event, [.fromHost event])
  | .waitUplink | .waitDownlink => (h, h.wait, [])

def run (h : Halves) : List HalfCall → Halves × List (HalfReply × List Event)
  | [] => (h, [])
  | call :: calls =>
    match h.call call with
    | (h, reply, events) =>
      match h.run calls with
      | (h, answers) => (h, (reply, events) :: answers)

end Halves
end UsbEthernet
