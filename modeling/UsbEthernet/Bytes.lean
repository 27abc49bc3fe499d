/-! Octet strings, and 16-bit fields with the lower octet first. -/
namespace UsbEthernet

abbrev Bytes := List UInt8

namespace Bytes

def littleEndian (n : Nat) : Bytes :=
  [UInt8.ofNat (n % 256), UInt8.ofNat (n / 256)]

end Bytes
end UsbEthernet
