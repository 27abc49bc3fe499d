import UsbEthernet.Bytes

/-! Descriptors of a USB configuration. Each is written as its length, its kind and its body, so
that a reader can step over the ones it does not know. -/
namespace UsbEthernet

/-- A descriptor of the given kind. -/
def descriptor (kind : UInt8) (body : Bytes) : Bytes :=
  UInt8.ofNat (body.length + 2) :: kind :: body

/-- The text in UTF-16; its characters are within the basic plane. -/
def stringDescriptor (text : String) : Bytes :=
  descriptor 0x03 (text.toList.flatMap fun c => Bytes.littleEndian c.toNat)

/-- Class, subclass and protocol. -/
structure ClassCode where
  base : UInt8
  sub : UInt8
  protocol : UInt8
deriving DecidableEq

def ClassCode.toBytes (c : ClassCode) : Bytes :=
  [c.base, c.sub, c.protocol]

inductive TransferType where
  | bulk
  | interrupt
deriving DecidableEq

def TransferType.code : TransferType → UInt8
  | bulk => 2
  | interrupt => 3

/-- Bit 7 of the address is set for the direction to the host. -/
structure Endpoint where
  address : UInt8
  type : TransferType
  maxPacket : Nat
  interval : UInt8
deriving DecidableEq

def Endpoint.toBytes (e : Endpoint) : Bytes :=
  descriptor 0x05
    ([e.address, e.type.code] ++ Bytes.littleEndian e.maxPacket ++ [e.interval])

/-- One of the settings that an interface can be switched to. -/
structure AltSetting where
  code : ClassCode
  /-- The index of its string, or 0. -/
  text : Nat := 0
  /-- The bodies of the descriptors that its class defines. -/
  functional : List Bytes := []
  endpoints : List Endpoint := []
deriving DecidableEq

def AltSetting.toBytes (interface number : Nat) (a : AltSetting) : Bytes :=
  descriptor 0x04
      ([UInt8.ofNat interface, UInt8.ofNat number, UInt8.ofNat a.endpoints.length] ++
        a.code.toBytes ++ [UInt8.ofNat a.text]) ++
    a.functional.flatMap (descriptor 0x24) ++
    a.endpoints.flatMap Endpoint.toBytes

structure Interface where
  number : Nat
  settings : List AltSetting
deriving DecidableEq

def Interface.toBytes (i : Interface) : Bytes :=
  i.settings.zipIdx.flatMap fun (setting, number) => setting.toBytes i.number number

/-- Interfaces that belong together, with the number of the first. -/
structure Function where
  code : ClassCode
  first : Nat
  interfaces : List Interface
deriving DecidableEq

def Function.toBytes (f : Function) : Bytes :=
  descriptor 0x0b
      ([UInt8.ofNat f.first, UInt8.ofNat f.interfaces.length] ++ f.code.toBytes ++ [0]) ++
    f.interfaces.flatMap Interface.toBytes

/-- The functions of the only configuration. -/
structure Configuration where
  functions : List Function
deriving DecidableEq

namespace Configuration

def interfaces (c : Configuration) : List Interface :=
  c.functions.flatMap Function.interfaces

/-- The configuration is number 1, is powered by the bus and draws up to 100 mA. -/
def toBytes (c : Configuration) : Bytes :=
  let body := c.functions.flatMap Function.toBytes
  descriptor 0x02
      (Bytes.littleEndian (9 + body.length) ++
        [UInt8.ofNat c.interfaces.length, 1, 0, 0x80, 0x32]) ++
    body

/-- An endpoint with the interface and the setting that it belongs to. -/
structure Place where
  interface : Nat
  setting : Nat
  endpoint : Endpoint
deriving DecidableEq

/-- All endpoints in the order of their descriptors. -/
def places (c : Configuration) : List Place :=
  c.interfaces.flatMap fun i =>
    i.settings.zipIdx.flatMap fun (setting, number) =>
      setting.endpoints.map fun endpoint => ⟨i.number, number, endpoint⟩

end Configuration
end UsbEthernet
