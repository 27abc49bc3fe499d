import UsbEthernet.Hex

/-! Protocol numbers of Ethernet frames, sent with the higher octet first. -/
namespace UsbEthernet

structure EtherType where
  value : UInt16
deriving DecidableEq

namespace EtherType

def ipv4 : EtherType := ⟨0x0800⟩

def arp : EtherType := ⟨0x0806⟩

def vlan : EtherType := ⟨0x8100⟩

def high (t : EtherType) : UInt8 :=
  UInt8.ofNat (t.value.toNat / 256)

def low (t : EtherType) : UInt8 :=
  UInt8.ofNat (t.value.toNat % 256)

def toBytes (t : EtherType) : Bytes :=
  [t.high, t.low]

def ofOctets (high low : UInt8) : EtherType :=
  ⟨UInt16.ofNat (256 * high.toNat + low.toNat)⟩

def text (t : EtherType) : String :=
  "0x" ++ Hex.text t.toBytes

end EtherType
end UsbEthernet
