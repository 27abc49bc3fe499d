import UsbEthernet.Hex
import UsbEthernet.Usb.Gadget

/-! Control requests. The device serves the standard requests that read descriptors and switch
settings; of its class it takes the packet filter, which changes nothing, and refuses the rest. -/
namespace UsbEthernet

inductive RequestType where
  | standard
  | classDefined
  | vendor
  | reserved
deriving DecidableEq

inductive Recipient where
  | device
  | interface
  | endpoint
  | other
  | reserved
deriving DecidableEq

/-- The fields of a setup packet as they are sent. -/
structure Setup where
  bits : Nat
  request : Nat
  value : Nat
  index : Nat
deriving DecidableEq

namespace Setup

def toHost (s : Setup) : Bool :=
  s.bits / 128 % 2 == 1

def type (s : Setup) : RequestType :=
  match s.bits / 32 % 4 with
  | 0 => .standard
  | 1 => .classDefined
  | 2 => .vendor
  | _ => .reserved

def recipient (s : Setup) : Recipient :=
  match s.bits % 32 with
  | 0 => .device
  | 1 => .interface
  | 2 => .endpoint
  | 3 => .other
  | _ => .reserved

end Setup

inductive ControlEvent where
  | accept
  | reject
  | data (answer : Bytes)
  | enable (endpoint : UInt8)
  | disable (endpoint : UInt8)
deriving DecidableEq

def ControlEvent.text : ControlEvent → String
  | accept => "accept"
  | reject => "reject"
  | data answer => "data " ++ Hex.text answer
  | enable endpoint => "enable " ++ Hex.text [endpoint]
  | disable endpoint => "disable " ++ Hex.text [endpoint]

namespace Gadget

/-- The descriptor that a host may ask for by kind and index. -/
def descriptor? (g : Gadget) (kind index : Nat) : Option Bytes :=
  match kind with
  | 1 => some deviceDescriptor
  | 2 => some g.configuration.toBytes
  | 3 => if index = 0 then some languages else (g.string? index).map stringDescriptor
  | _ => none

end Gadget

structure Controller where
  gadget : Gadget
  /-- The current setting of each interface, in the order of their numbers. -/
  current : List Nat
deriving DecidableEq

namespace Controller

def getDescriptor : Nat := 6

def setConfiguration : Nat := 9

def getInterface : Nat := 10

def setInterface : Nat := 11

def setPacketFilter : Nat := 0x43

/-- The most data that a request to the device may carry. -/
def maxData : Nat := 128

def start (g : Gadget) : Controller :=
  ⟨g, g.configuration.interfaces.map fun _ => 0⟩

/-- Switches endpoints on where their setting is the current one, and off elsewhere. -/
def switch (c : Controller) (places : List Configuration.Place) : List ControlEvent :=
  places.map fun p =>
    if c.current[p.interface]? = some p.setting then .enable p.endpoint.address
    else .disable p.endpoint.address

def disableAll (c : Controller) : List ControlEvent :=
  c.gadget.configuration.places.map fun p => .disable p.endpoint.address

/-- The data that a request asks for. An interface is named by the whole index. -/
def answer? (c : Controller) (s : Setup) : Option Bytes :=
  match s.type, s.recipient with
  | .standard, .device =>
    if s.request = getDescriptor then c.gadget.descriptor? (s.value / 256) (s.value % 256)
    else none
  | .standard, .interface =>
    if s.request = getInterface then
      (c.current[s.index]?).map fun setting => [UInt8.ofNat setting]
    else none
  | _, _ => none

/-- Serves a request for data, of which the host takes at most `length` octets. -/
def read (c : Controller) (s : Setup) (length : Nat) : List ControlEvent :=
  match c.answer? s with
  | none => [.reject]
  | some answer => if (answer.take length).isEmpty then [] else [.data (answer.take length)]

/-- Makes a setting the current one of its interface. -/
def select (c : Controller) (number setting : Nat) : Controller × List ControlEvent :=
  match c.gadget.configuration.interfaces[number]? with
  | none => (c, [.reject])
  | some interface =>
    if setting < interface.settings.length then
      let c := { c with current := c.current.set number setting }
      let places := c.gadget.configuration.places.filter fun p => p.interface == number
      (c, c.switch places ++ [.accept])
    else (c, [.reject])

/-- Serves a request that sends data. To switch a setting, the low octets of the index and the
value number the interface and the setting. -/
def write (c : Controller) (s : Setup) (data : Bytes) : Controller × List ControlEvent :=
  if maxData < data.length then (c, [.reject])
  else match s.type, s.recipient with
    | .standard, .device =>
      if s.request = setConfiguration ∧ s.value = 1 then
        (c, c.switch c.gadget.configuration.places ++ [.accept])
      else if s.request = setConfiguration ∧ s.value = 0 then (c, c.disableAll ++ [.accept])
      else (c, [.reject])
    | .standard, .interface =>
      if s.request = setInterface then c.select (s.index % 256) (s.value % 256)
      else (c, [.reject])
    | .classDefined, .interface =>
      if s.index = c.gadget.communicationInterface ∧ s.request = setPacketFilter then
        (c, [.accept])
      else (c, [.reject])
    | _, _ => (c, [.reject])

inductive Transfer where
  | read (s : Setup) (length : Nat)
  | write (s : Setup) (data : Bytes)
deriving DecidableEq

def run (c : Controller) : List Transfer → Controller × List (List ControlEvent)
  | [] => (c, [])
  | .read s length :: rest =>
    match c.run rest with
    | (last, answers) => (last, c.read s length :: answers)
  | .write s data :: rest =>
    match c.write s data with
    | (c, events) =>
      match c.run rest with
      | (last, answers) => (last, events :: answers)

end Controller
end UsbEthernet
