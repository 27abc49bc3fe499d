/-! The sizes that frames, queue slots, endpoints and counters are built for. -/
namespace UsbEthernet

def macLength : Nat := 6

/-- Two addresses and a protocol number. -/
def headerLength : Nat := 14

/-- The longest payload of a frame, which is also the room of a queue slot. -/
def maxPayload : Nat := 1500

/-- The longest frame taken or made, without its check sequence. -/
def maxFrame : Nat := headerLength + maxPayload

/-- The largest maximum packet size of a bulk endpoint. -/
def maxUsbPacket : Nat := 1024

/-- Counts what happens at an interface. A counter that is full starts again from zero. -/
abbrev Counter := UInt32

/-- The number that a counter shows. -/
instance : Coe Counter Nat := ⟨UInt32.toNat⟩

namespace Counter

theorem add_add (c : Counter) (m n : Nat) :
    c + UInt32.ofNat m + UInt32.ofNat n = c + UInt32.ofNat (m + n) := by
  rw [UInt32.add_assoc, UInt32.ofNat_add]

theorem one_add (c : Counter) (n : Nat) :
    c + 1 + UInt32.ofNat n = c + UInt32.ofNat (n + 1) := by
  rw [Nat.add_comm]
  exact c.add_add 1 n

end Counter

end UsbEthernet
