import UsbEthernet.Config
import UsbEthernet.Usb.Descriptor

/-! The device as it describes itself to a host: an Ethernet function, behind the functions and
strings that were given out before it. -/
namespace UsbEthernet

def vendorId : Nat := 0x1209

def productId : Nat := 0x2702

structure Gadget where
  config : Config
  /-- String indices given out before those of the function. -/
  strings : Nat
  /-- Interfaces, each a function of its own, numbered before those of the function. -/
  interfaces : Nat
deriving DecidableEq

namespace Gadget

def ofSettings (settings : Settings) (strings interfaces : Nat) : Except Error Gadget :=
  match settings.config with
  | .ok config => .ok ⟨config, strings, interfaces⟩
  | .error e => .error e

/-- The first index that is not one of the device's own strings. -/
def firstString : Nat := 4

/-- The index of the next string, after this many have been given out. -/
def nextString (given : Nat) : Nat :=
  firstString + given

/-- The number of the next interface, after this many have been given out. -/
def nextInterface (given : Nat) : Nat :=
  given

def macString (g : Gadget) : Nat :=
  nextString g.strings

def communicationString (g : Gadget) : Nat :=
  nextString (g.strings + 1)

def dataString (g : Gadget) : Nat :=
  nextString (g.strings + 2)

def communicationInterface (g : Gadget) : Nat :=
  nextInterface g.interfaces

def dataInterface (g : Gadget) : Nat :=
  nextInterface (g.interfaces + 1)

/-- The number under which the communication interface names the data interface, which has not been
given one by then. -/
def subordinateInterface (g : Gadget) : Nat :=
  g.communicationInterface + 1

theorem subordinateInterface_eq (g : Gadget) : g.subordinateInterface = g.dataInterface := rfl

/-- The numbers of the interfaces before those of the function. -/
def others (g : Gadget) : List Nat :=
  (List.range g.interfaces).map nextInterface

theorem length_others (g : Gadget) : g.others.length = g.interfaces := by
  rw [others, List.length_map, List.length_range]

theorem lt_of_mem_others {g : Gadget} {n : Nat} (mem : n ∈ g.others) :
    n < g.communicationInterface := by
  obtain ⟨given, before, rfl⟩ := List.mem_map.mp mem
  exact List.mem_range.mp before

/-- The room for the text of an address, in bytes. -/
def addressRoom : Nat := 12

/-- What gets into a text of limited room when pieces are written to it up to the first that does
not fit. -/
def writeWithin (room : Nat) : List (List Char) → List Char
  | [] => []
  | piece :: pieces =>
    let size := (String.ofList piece).utf8ByteSize
    if size ≤ room then piece ++ writeWithin (room - size) pieces else []

/-- The text of the host's address, as it is kept for the host to ask for. -/
def address (g : Gadget) : String :=
  String.ofList (writeWithin addressRoom (g.config.hostMac.toBytes.map Hex.octet))

def string? (g : Gadget) (index : Nat) : Option String :=
  if index = 1 then some "Code Construct"
  else if index = 2 then some "CDC-ECM Ethernet"
  else if index = 3 then some "0.1"
  else if index = g.macString then some g.address
  else if index = g.communicationString then some "CDC Ethernet Control Model (ECM)"
  else if index = g.dataString then some "CDC Data"
  else none

def networkCode : ClassCode := ⟨0x02, 0x06, 0x00⟩

def dataCode : ClassCode := ⟨0x0a, 0x00, 0x00⟩

/-- Names the release of the class definition, 1.10. -/
def headerFunctional : Bytes := [0x00, 0x10, 0x01]

/-- Names the two interfaces that work together. -/
def unionFunctional (g : Gadget) : Bytes :=
  [0x06, UInt8.ofNat g.communicationInterface, UInt8.ofNat g.subordinateInterface]

/-- Names the string with the host's address and the longest frame; there are no statistics,
multicast filters or power filters. -/
def ethernetFunctional (g : Gadget) : Bytes :=
  [0x0f, UInt8.ofNat g.macString, 0, 0, 0, 0] ++ Bytes.littleEndian maxFrame ++ [0, 0, 0]

def notifyEndpoint : Endpoint := ⟨0x81, .interrupt, 16, 9⟩

def outEndpoint (g : Gadget) : Endpoint := ⟨0x01, .bulk, g.config.maxPacket, 0⟩

def inEndpoint (g : Gadget) : Endpoint := ⟨0x82, .bulk, g.config.maxPacket, 0⟩

def communication (g : Gadget) : Interface where
  number := g.communicationInterface
  settings := [{
    code := networkCode
    text := g.communicationString
    functional := [headerFunctional, g.unionFunctional, g.ethernetFunctional]
    endpoints := [notifyEndpoint] }]

/-- The first setting of the data interface carries no data. -/
def data (g : Gadget) : Interface where
  number := g.dataInterface
  settings := [
    { code := dataCode, text := g.dataString },
    { code := dataCode, text := g.dataString, endpoints := [g.outEndpoint, g.inEndpoint] }]

def ethernet (g : Gadget) : Function where
  code := networkCode
  first := g.communicationInterface
  interfaces := [g.communication, g.data]

def other (number : Nat) : Function where
  code := ⟨0xff, 0, 0⟩
  first := number
  interfaces := [{ number, settings := [{ code := ⟨0xff, 0, 0⟩ }] }]

def configuration (g : Gadget) : Configuration where
  functions := g.others.map other ++ [g.ethernet]

/-- The codes say that functions are grouped by interface association; the strings are those
with the indices 1 to 3, and there is one configuration. -/
def deviceDescriptor : Bytes :=
  descriptor 0x01
    (Bytes.littleEndian 0x0210 ++ [0xef, 0x02, 0x01, 64] ++ Bytes.littleEndian vendorId ++
      Bytes.littleEndian productId ++ Bytes.littleEndian 0x0010 ++ [1, 2, 3, 1])

/-- The only language served is English of the United States. -/
def languages : Bytes :=
  descriptor 0x03 (Bytes.littleEndian 0x0409)

end Gadget
end UsbEthernet
