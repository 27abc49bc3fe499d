import UsbEthernet.Bytes

/-! Cutting frames into transfers. A transfer shorter than the maximum packet size ends its
frame, so a frame whose last transfer is full is followed by one of length zero. -/
namespace UsbEthernet

/-- A frame on its way out in transfers. -/
structure Splitter where
  rest : Bytes
  maxPacket : Nat
  terminator : Bool := false
  maxPacket_pos : 0 < maxPacket
deriving DecidableEq

namespace Splitter

def start (frame : Bytes) (maxPacket : Nat) : Splitter where
  rest := frame
  maxPacket := max maxPacket 1
  maxPacket_pos := Nat.lt_of_lt_of_le Nat.one_pos (Nat.le_max_right ..)

def next? (s : Splitter) : Option (Bytes × Splitter) :=
  if s.rest.isEmpty then
    if s.terminator then some ([], { s with terminator := false }) else none
  else
    let transfer := s.rest.take s.maxPacket
    let rest := s.rest.drop s.maxPacket
    some (transfer,
      { s with rest, terminator := rest.isEmpty && transfer.length == s.maxPacket })

/-- Twice the octets to come, and one more for a terminator. -/
def size (s : Splitter) : Nat :=
  2 * s.rest.length + s.terminator.toNat

theorem size_next? {s t : Splitter} {x : Bytes} (h : s.next? = some (x, t)) : t.size < s.size := by
  unfold next? at h
  split at h
  · split at h
    · cases h
      simp_all [size]
    · cases h
  · rename_i nonempty
    cases h
    have shorter : (s.rest.drop s.maxPacket).length < s.rest.length := by
      have positive := List.length_pos_iff.mpr (mt List.isEmpty_iff.mpr nonempty)
      have := s.maxPacket_pos
      simp only [List.length_drop]
      omega
    have bit := Bool.toNat_le
      ((s.rest.drop s.maxPacket).isEmpty && (s.rest.take s.maxPacket).length == s.maxPacket)
    simp only [size]
    omega

/-- All transfers still to come. -/
def toList (s : Splitter) : List Bytes :=
  match _h : s.next? with
  | none => []
  | some (transfer, rest) => transfer :: rest.toList
termination_by s.size
decreasing_by exact size_next? _h

/-- One step that stays where it is once nothing is left. -/
def advance (s : Splitter) : Option Bytes × Splitter :=
  match s.next? with
  | none => (none, s)
  | some (transfer, rest) => (some transfer, rest)

/-- Takes a number of steps, with the state after each. -/
def steps : Nat → Splitter → List (Option Bytes × Splitter)
  | 0, _ => []
  | n + 1, s => s.advance :: steps n s.advance.2

end Splitter

/-- The transfers that carry a frame. -/
def transfers (frame : Bytes) (maxPacket : Nat) : List Bytes :=
  (Splitter.start frame maxPacket).toList

end UsbEthernet
