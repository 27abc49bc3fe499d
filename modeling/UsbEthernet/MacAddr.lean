import UsbEthernet.Error
import UsbEthernet.Hex
import UsbEthernet.Limits

/-! Ethernet addresses: six octets, their order, and their two written forms. The separated form
is read back with either separator between groups and either case of the digits. -/
namespace UsbEthernet

structure MacAddr where
  o0 : UInt8
  o1 : UInt8
  o2 : UInt8
  o3 : UInt8
  o4 : UInt8
  o5 : UInt8
deriving DecidableEq

namespace MacAddr

def zero : MacAddr := ⟨0, 0, 0, 0, 0, 0⟩

def broadcast : MacAddr := ⟨0xff, 0xff, 0xff, 0xff, 0xff, 0xff⟩

def toBytes (m : MacAddr) : Bytes :=
  [m.o0, m.o1, m.o2, m.o3, m.o4, m.o5]

def ofBytes : Bytes → Except Error MacAddr
  | [o0, o1, o2, o3, o4, o5] => .ok ⟨o0, o1, o2, o3, o4, o5⟩
  | _ => .error .badArgument

def isBroadcast (m : MacAddr) : Bool :=
  m == broadcast

/-- The lowest bit of the first octet marks a group of stations. -/
def isMulticast (m : MacAddr) : Bool :=
  m.o0.toNat % 2 == 1

/-- The address as a 48-bit number, whose order is the order of addresses. -/
def toNat (m : MacAddr) : Nat :=
  m.toBytes.foldl (fun n b => 256 * n + b.toNat) 0

/-- The addresses in ascending order, each once. -/
def sorted (ms : List MacAddr) : List MacAddr :=
  (ms.mergeSort fun a b => a.toNat ≤ b.toNat).eraseReps

/-- Twelve digits without separators. -/
def hex (m : MacAddr) : String :=
  Hex.text m.toBytes

def textChars (m : MacAddr) : List Char :=
  ((m.toBytes.map Hex.octet).intersperse [':']).flatten

def text (m : MacAddr) : String :=
  String.ofList m.textChars

def isSeparator (c : Char) : Bool :=
  c == ':' || c == '-'

/-- The runs of characters between separators: one more than there are separators. -/
def groups : List Char → List (List Char)
  | [] => [[]]
  | c :: cs =>
    if isSeparator c then [] :: groups cs
    else match groups cs with
      | [] => [[c]]
      | g :: gs => (c :: g) :: gs

/-- Reads a group of two bytes. -/
def group? (g : List Char) : Option UInt8 :=
  if (String.ofList g).utf8ByteSize = 2 then Hex.signed? g else none

def ofChars? (cs : List Char) : Option MacAddr :=
  match (groups cs).map group? with
  | [some o0, some o1, some o2, some o3, some o4, some o5] => some ⟨o0, o1, o2, o3, o4, o5⟩
  | _ => none

def parse (s : String) : Except Error MacAddr :=
  match ofChars? s.toList with
  | some m => .ok m
  | none => .error .badArgument

end MacAddr
end UsbEthernet
