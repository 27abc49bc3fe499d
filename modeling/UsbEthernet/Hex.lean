import UsbEthernet.Bytes

/-! Hexadecimal text. Octets are written as two lower-case digits; reading takes either case. -/
namespace UsbEthernet.Hex

def digit? (c : Char) : Option Nat :=
  if '0' ≤ c ∧ c ≤ '9' then some (c.toNat - '0'.toNat)
  else if 'a' ≤ c ∧ c ≤ 'f' then some (c.toNat - 'a'.toNat + 10)
  else if 'A' ≤ c ∧ c ≤ 'F' then some (c.toNat - 'A'.toNat + 10)
  else none

def octet (b : UInt8) : List Char :=
  [(b.toNat / 16).digitChar, (b.toNat % 16).digitChar]

def chars (bs : Bytes) : List Char :=
  bs.flatMap octet

def text (bs : Bytes) : String :=
  String.ofList (chars bs)

/-- The octet that digits come to behind a value read so far. -/
def number? (value : Nat) : List Char → Option UInt8
  | [] => some (UInt8.ofNat value)
  | c :: cs =>
    match digit? c with
    | none => none
    | some d => if 16 * value + d < 256 then number? (16 * value + d) cs else none

/-- Reads an octet that may have a plus sign in front. -/
def signed? : List Char → Option UInt8
  | [] | ['+'] => none
  | '+' :: cs => number? 0 cs
  | cs => number? 0 cs

/-- The octet that two digits denote. -/
def octet? (high low : Char) : Option UInt8 :=
  match digit? high, digit? low with
  | some h, some l => some (UInt8.ofNat (16 * h + l))
  | _, _ => none

def bytes? : List Char → Option Bytes
  | [] => some []
  | [_] => none
  | high :: low :: rest =>
    match octet? high low, bytes? rest with
    | some b, some bs => some (b :: bs)
    | _, _ => none

theorem digit?_digitChar {n : Nat} (h : n < 16) : digit? n.digitChar = some n := by
  revert n
  decide

/-- What is written is read back. -/
theorem bytes?_chars (bs : Bytes) : bytes? (chars bs) = some bs := by
  induction bs with
  | nil => rfl
  | cons b bs ih =>
    have high : b.toNat / 16 < 16 := Nat.div_lt_of_lt_mul b.toNat_lt
    have low : b.toNat % 16 < 16 := Nat.mod_lt _ (by decide)
    have read : octet? (b.toNat / 16).digitChar (b.toNat % 16).digitChar = some b := by
      simp only [octet?, digit?_digitChar high, digit?_digitChar low, Nat.div_add_mod,
        UInt8.ofNat_toNat]
    have written : bytes? (chars bs) = some bs := ih
    rw [chars, List.flatMap_cons, octet, List.cons_append, List.cons_append, List.nil_append,
      bytes?, read, ← chars, written]

theorem chars_lt (bs : Bytes) : ∀ c ∈ chars bs, c.toNat < 128 := by
  have digit (n : Nat) (h : n < 16) : n.digitChar.toNat < 128 := by
    revert n
    decide
  intro c mem
  obtain ⟨b, -, written⟩ := List.mem_flatMap.mp mem
  have either : c = (b.toNat / 16).digitChar ∨ c = (b.toNat % 16).digitChar := by
    simpa [octet] using written
  rcases either with rfl | rfl
  · exact digit _ (Nat.div_lt_of_lt_mul b.toNat_lt)
  · exact digit _ (Nat.mod_lt _ (by decide))

theorem length_chars (bs : Bytes) : (chars bs).length = 2 * bs.length := by
  induction bs with
  | nil => rfl
  | cons b bs ih =>
    rw [chars, List.flatMap_cons, List.length_append, ← chars, ih, List.length_cons, Nat.mul_succ,
      Nat.add_comm]
    rfl

end UsbEthernet.Hex
