import UsbEthernet.Header

/-! Packets as the queues hold them: a header and a payload, written into a slot of fixed room
from pieces that are joined in order. -/
namespace UsbEthernet

structure Packet where
  header : Header
  payload : Bytes
deriving DecidableEq

/-- Whether a queue slot has room for the payload. -/
def Packet.fits (p : Packet) : Bool :=
  p.payload.length ≤ maxPayload

namespace Bytes

/-- Writes the pieces one behind the other, as long as there is room. -/
def gather? (room : Nat) : List Bytes → Option Bytes
  | [] => some []
  | piece :: pieces =>
    if piece.length ≤ room then
      (gather? (room - piece.length) pieces).map (piece ++ ·)
    else none

/-- Nothing is cut off: the pieces are joined where all of them fit together. -/
theorem gather?_eq (room : Nat) (pieces : List Bytes) :
    gather? room pieces =
      if pieces.flatten.length ≤ room then some pieces.flatten else none := by
  induction pieces generalizing room with
  | nil => simp [gather?]
  | cons piece pieces ih =>
    rw [gather?, ih, List.flatten_cons, List.length_append]
    by_cases first : piece.length ≤ room
    · by_cases fits : pieces.flatten.length ≤ room - piece.length
      · have all : piece.length + pieces.flatten.length ≤ room := by omega
        rw [if_pos first, if_pos fits, if_pos all, Option.map_some]
      · have not_all : ¬piece.length + pieces.flatten.length ≤ room := by omega
        rw [if_pos first, if_neg fits, if_neg not_all, Option.map_none]
    · have not_all : ¬piece.length + pieces.flatten.length ≤ room := by omega
      rw [if_neg first, if_neg not_all]

theorem gather?_some {room : Nat} {pieces : List Bytes} {payload : Bytes}
    (h : gather? room pieces = some payload) :
    payload = pieces.flatten ∧ payload.length ≤ room := by
  rw [gather?_eq] at h
  split at h
  · rename_i fits
    cases h
    exact ⟨rfl, fits⟩
  · cases h

end Bytes
end UsbEthernet
