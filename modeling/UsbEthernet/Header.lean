import UsbEthernet.EtherType
import UsbEthernet.MacAddr

/-! The header of an Ethernet frame: destination, source and protocol number. -/
namespace UsbEthernet

structure Header where
  dest : MacAddr
  src : MacAddr
  proto : EtherType
deriving DecidableEq

namespace Header

/-- A header that carries a protocol number alone. -/
def ofProto (proto : EtherType) : Header :=
  ⟨.zero, .zero, proto⟩

def toBytes (h : Header) : Bytes :=
  h.dest.toBytes ++ h.src.toBytes ++ h.proto.toBytes

theorem length_toBytes (h : Header) : h.toBytes.length = headerLength := rfl

/-- Splits a frame into its header and payload. -/
def parse (frame : Bytes) : Except Error (Header × Bytes) :=
  match frame.drop (2 * macLength) with
  | high :: low :: payload => do
    let dest ← MacAddr.ofBytes (frame.take macLength)
    let src ← MacAddr.ofBytes ((frame.drop macLength).take macLength)
    return (⟨dest, src, .ofOctets high low⟩, payload)
  | _ => .error .invalidInput

end Header
end UsbEthernet
