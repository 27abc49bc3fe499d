import Mathlib
import UsbEthernet.Config

/-! The texts that are read as addresses. A text is read along its separators, in groups of two
bytes, and a group by a reader of numbers that admits more than two digits in a row. What it comes
to is a grammar of whole texts, which says nothing of groups of bytes. -/
namespace UsbEthernet

namespace Hex

/-- A digit of either case, and its value. -/
def IsDigit (value : Nat) (c : Char) : Prop :=
  value < 16 ∧ (c = value.digitChar ∨ c = value.digitChar.toUpper)

/-- What holds of the digits in lower and in upper case holds of any digit. -/
theorem IsDigit.elim {P : Char → Prop} {value : Nat} {c : Char} (digit : IsDigit value c)
    (lower : ∀ n < 16, P n.digitChar) (upper : ∀ n < 16, P n.digitChar.toUpper) : P c := by
  obtain ⟨small, rfl | rfl⟩ := digit
  · exact lower value small
  · exact upper value small

theorem IsDigit.utf8Size {value : Nat} {c : Char} (digit : IsDigit value c) : c.utf8Size = 1 :=
  digit.elim (P := (·.utf8Size = 1)) (by decide) (by decide)

theorem not_isDigit_plus (value : Nat) : ¬IsDigit value '+' := fun digit =>
  digit.elim (P := (· ≠ '+')) (by decide) (by decide) rfl

theorem toNat_digitChar {value : Nat} (small : value < 16) :
    value.digitChar.toNat = if value < 10 then 48 + value else 87 + value := by
  revert value
  decide

theorem toNat_digitChar_toUpper {value : Nat} (small : value < 16) :
    value.digitChar.toUpper.toNat = if value < 10 then 48 + value else 55 + value := by
  revert value
  decide

/-- A digit is read as its value, and nothing but a digit is. -/
theorem digit?_eq_some_iff {value : Nat} {c : Char} :
    digit? c = some value ↔ IsDigit value c := by
  have le (a b : Char) : a ≤ b ↔ a.toNat ≤ b.toNat := Iff.rfl
  have codes : IsDigit value c ↔ value < 16 ∧
      (c.toNat = (if value < 10 then 48 + value else 87 + value) ∨
        c.toNat = if value < 10 then 48 + value else 55 + value) := by
    refine and_congr_right fun small => ?_
    rw [← toNat_digitChar small, ← toNat_digitChar_toUpper small, Char.toNat_inj, Char.toNat_inj]
  rw [codes]
  simp only [digit?, le, Char.reduceToNat]
  split_ifs <;> simp only [Option.some.injEq, false_iff] <;> omega

/-- Two digits, and the octet they denote. -/
inductive IsOctet (b : UInt8) : List Char → Prop where
  | digits {high low : Nat} {h l : Char} : IsDigit high h → IsDigit low l →
      b.toNat = 16 * high + low → IsOctet b [h, l]

/-- A plus sign before one digit, and the octet that it denotes. -/
inductive IsSigned (b : UInt8) : List Char → Prop where
  | plus {l : Char} : IsDigit b.toNat l → IsSigned b ['+', l]

/-- The two forms of an octet that take two characters. -/
def IsEntry (b : UInt8) (g : List Char) : Prop :=
  IsOctet b g ∨ IsSigned b g

theorem IsEntry.pair {b : UInt8} {g : List Char} (entry : IsEntry b g) : ∃ h l, g = [h, l] := by
  rcases entry with octet | signed
  · cases octet
    exact ⟨_, _, rfl⟩
  · cases signed
    exact ⟨_, _, rfl⟩

theorem number?_nil_iff {value : Nat} {b : UInt8} (small : value < 256) :
    number? value [] = some b ↔ b.toNat = value := by
  rw [number?, Option.some.injEq, ← UInt8.toNat_inj, UInt8.toNat_ofNat_of_lt' small, eq_comm]

theorem number?_cons_iff {value : Nat} {c : Char} {cs : List Char} {b : UInt8} :
    number? value (c :: cs) = some b ↔ ∃ d, IsDigit d c ∧ 16 * value + d < 256 ∧
      number? (16 * value + d) cs = some b := by
  simp only [← digit?_eq_some_iff]
  rw [number?]
  split
  next none => simp [none]
  next d read => simp [read]

theorem utf8Size_of_number? {value : Nat} {cs : List Char} {b : UInt8}
    (read : number? value cs = some b) : ∀ c ∈ cs, c.utf8Size = 1 := by
  induction cs generalizing value with
  | nil => simp
  | cons c cs ih =>
    obtain ⟨d, digit, -, rest⟩ := number?_cons_iff.mp read
    exact List.forall_mem_cons.mpr ⟨digit.utf8Size, ih rest⟩

theorem utf8Size_of_signed? {cs : List Char} {b : UInt8} (read : signed? cs = some b) :
    ∀ c ∈ cs, c.utf8Size = 1 := by
  unfold signed? at read
  split at read
  · cases read
  · cases read
  · exact List.forall_mem_cons.mpr ⟨by decide, utf8Size_of_number? read⟩
  · exact utf8Size_of_number? read

theorem number?_one_iff {l : Char} {b : UInt8} :
    number? 0 [l] = some b ↔ IsDigit b.toNat l := by
  rw [number?_cons_iff]
  constructor
  · rintro ⟨d, digit, small, read⟩
    rw [number?_nil_iff small, Nat.mul_zero, Nat.zero_add] at read
    exact read ▸ digit
  · intro digit
    have small : 16 * 0 + b.toNat < 256 := by
      have := digit.1
      omega
    exact ⟨b.toNat, digit, small, (number?_nil_iff small).mpr (Nat.zero_add _).symm⟩

theorem number?_two_iff {h l : Char} {b : UInt8} :
    number? 0 [h, l] = some b ↔ IsOctet b [h, l] := by
  rw [number?_cons_iff]
  constructor
  · rintro ⟨high, upper, -, read⟩
    obtain ⟨low, lower, small, read⟩ := number?_cons_iff.mp read
    rw [number?_nil_iff small, Nat.mul_zero, Nat.zero_add] at read
    exact .digits upper lower read
  · rintro ⟨upper, lower, value⟩
    rename_i high low
    have := upper.1
    have := lower.1
    have small : 16 * (16 * 0 + high) + low < 256 := by omega
    refine ⟨high, upper, by omega, number?_cons_iff.mpr ⟨low, lower, small, ?_⟩⟩
    exact (number?_nil_iff small).mpr (by omega)

/-- With two characters an octet is two digits, or a plus sign and a digit. -/
theorem signed?_pair_iff {h l : Char} {b : UInt8} :
    signed? [h, l] = some b ↔ IsEntry b [h, l] := by
  by_cases plus : h = '+'
  · subst plus
    rw [show signed? ['+', l] = number? 0 [l] from rfl, number?_one_iff]
    constructor
    · exact fun digit => .inr (.plus digit)
    · rintro (⟨upper, -, -⟩ | signed)
      · exact absurd upper (not_isDigit_plus _)
      · cases signed with
        | plus digit => exact digit
  · have unsigned : signed? [h, l] = number? 0 [h, l] := by
      simp [signed?, plus]
    rw [unsigned, number?_two_iff]
    constructor
    · exact .inl
    · rintro (octet | signed)
      · exact octet
      · cases signed with
        | plus => exact absurd rfl plus

end Hex

/-- Characters of a single byte are encoded as these. -/
theorem toUTF8_ofList {cs : List Char} (single : ∀ c ∈ cs, c.utf8Size = 1) :
    (String.ofList cs).toUTF8.data.toList = cs.map Char.toUInt8 := by
  rw [String.toUTF8, String.toByteArray_ofList, List.utf8Encode, List.toList_data_toByteArray]
  induction cs with
  | nil => rfl
  | cons c cs ih =>
    obtain ⟨first, rest⟩ := List.forall_mem_cons.mp single
    rw [List.flatMap_cons, String.utf8EncodeChar_eq_singleton first, ih rest]
    rfl

theorem utf8ByteSize_ofList {cs : List Char} (single : ∀ c ∈ cs, c.utf8Size = 1) :
    (String.ofList cs).utf8ByteSize = cs.length := by
  have bytes := congrArg List.length (toUTF8_ofList single)
  rw [List.length_map] at bytes
  exact bytes

namespace MacAddr

variable {Entry : UInt8 → List Char → Prop} {b : UInt8} {bs : Bytes} {g cs : List Char}

/-- A group is read in the two forms of an octet that take two characters, and in no other. -/
theorem group?_eq_some_iff : group? g = some b ↔ Hex.IsEntry b g := by
  constructor
  · intro read
    obtain ⟨size, read⟩ := Option.ite_none_right_eq_some.mp read
    rw [utf8ByteSize_ofList (Hex.utf8Size_of_signed? read)] at size
    obtain ⟨h, l, rfl⟩ := List.length_eq_two.mp size
    exact Hex.signed?_pair_iff.mp read
  · intro entry
    obtain ⟨h, l, rfl⟩ := entry.pair
    have read := Hex.signed?_pair_iff.mpr entry
    have size : (String.ofList [h, l]).utf8ByteSize = 2 :=
      utf8ByteSize_ofList (Hex.utf8Size_of_signed? read)
    rw [group?, if_pos size, read]

theorem isSeparator_iff {c : Char} : isSeparator c = true ↔ c = ':' ∨ c = '-' := by
  simp [isSeparator]

/-- Entries with one separator between each two, and the octets of the entries. -/
inductive Separated (Entry : UInt8 → List Char → Prop) : Bytes → List Char → Prop where
  | last {b : UInt8} {g : List Char} : Entry b g → Separated Entry [b] g
  | more {b : UInt8} {bs : Bytes} {g cs : List Char} {c : Char} : Entry b g → c = ':' ∨ c = '-' →
      Separated Entry bs cs → Separated Entry (b :: bs) (g ++ c :: cs)

theorem Separated.imp {Entry' : UInt8 → List Char → Prop} (sub : ∀ b g, Entry b g → Entry' b g)
    (separated : Separated Entry bs cs) : Separated Entry' bs cs := by
  induction separated with
  | last entry => exact .last (sub _ _ entry)
  | more entry separator _ ih => exact .more (sub _ _ entry) separator ih

/-- What holds of the separators and in every entry holds throughout. -/
theorem Separated.forall_mem {P : Char → Prop} (colon : P ':') (dash : P '-')
    (inside : ∀ b g, Entry b g → ∀ c ∈ g, P c) (separated : Separated Entry bs cs) :
    ∀ c ∈ cs, P c := by
  induction separated with
  | last entry => exact inside _ _ entry
  | more entry separator _ ih =>
    refine List.forall_mem_append.mpr ⟨inside _ _ entry, List.forall_mem_cons.mpr ⟨?_, ih⟩⟩
    rcases separator with rfl | rfl
    · exact colon
    · exact dash

theorem groups_eq_splitOnP (cs : List Char) : groups cs = cs.splitOnP isSeparator := by
  induction cs with
  | nil => rfl
  | cons c cs ih =>
    rw [List.splitOnP_cons_eq_if_modifyHead, groups, ih]
    split
    · rfl
    · obtain ⟨g, gs, split⟩ := List.exists_cons_of_ne_nil (List.splitOnP_ne_nil isSeparator cs)
      rw [split]
      rfl

theorem groups_first {c : Char} (plain : ∀ x ∈ g, isSeparator x = false)
    (separator : isSeparator c = true) : groups (g ++ c :: cs) = g :: groups cs := by
  rw [groups_eq_splitOnP, groups_eq_splitOnP,
    List.splitOnP_append_cons_of_forall_mem plain c separator]

theorem groups_plain (plain : ∀ x ∈ g, isSeparator x = false) : groups g = [g] := by
  rw [groups_eq_splitOnP, List.splitOnP_eq_singleton plain]

/-- The groups of a text are entries just when it is entries that are separated. -/
theorem forall₂_groups_iff (plain : ∀ b g, Entry b g → ∀ x ∈ g, isSeparator x = false) :
    List.Forall₂ Entry bs (groups cs) ↔ Separated Entry bs cs := by
  constructor
  · intro entries
    induction bs generalizing cs with
    | nil =>
      rw [List.forall₂_nil_left_iff, groups_eq_splitOnP] at entries
      exact absurd entries (List.splitOnP_ne_nil isSeparator cs)
    | cons b bs ih =>
      cases first : cs.find? isSeparator with
      | none =>
        rw [groups_plain (by simpa using first)] at entries
        obtain ⟨entry, none⟩ := List.forall₂_cons.mp entries
        rw [List.forall₂_nil_right_iff.mp none]
        exact .last entry
      | some c =>
        obtain ⟨separator, g, rest, rfl, before⟩ := List.find?_eq_some_iff_append.mp first
        rw [groups_first (by simpa using before) separator] at entries
        obtain ⟨entry, entries⟩ := List.forall₂_cons.mp entries
        exact .more entry (isSeparator_iff.mp separator) (ih entries)
  · intro separated
    induction separated with
    | last entry =>
      rw [groups_plain (plain _ _ entry)]
      exact .cons entry .nil
    | more entry separator separated ih =>
      rw [groups_first (plain _ _ entry) (isSeparator_iff.mpr separator)]
      exact .cons entry ih

theorem isSeparator_of_isDigit {value : Nat} {c : Char} (digit : Hex.IsDigit value c) :
    isSeparator c = false :=
  digit.elim (P := (isSeparator · = false)) (by decide) (by decide)

theorem isSeparator_of_isEntry (entry : Hex.IsEntry b g) : ∀ x ∈ g, isSeparator x = false := by
  rcases entry with ⟨upper, lower, -⟩ | signed
  · simp [isSeparator_of_isDigit upper, isSeparator_of_isDigit lower]
  · cases signed with
    | plus digit =>
      exact List.forall_mem_cons.mpr
        ⟨by decide, List.forall_mem_singleton.mpr (isSeparator_of_isDigit digit)⟩

theorem ofChars?_eq_some_iff {m : MacAddr} :
    ofChars? cs = some m ↔ (groups cs).map group? = m.toBytes.map some := by
  unfold ofChars?
  constructor
  · intro read
    split at read
    next octets =>
      cases read
      exact octets
    · cases read
  · intro octets
    rw [octets]
    rfl

/-- What reads as an address: six entries, one after another. -/
theorem parse_eq_ok_iff {s : String} {m : MacAddr} :
    parse s = .ok m ↔ Separated Hex.IsEntry m.toBytes s.toList := by
  have entry : (fun b g => some b = group? g) = Hex.IsEntry := by
    funext b g
    exact propext (eq_comm.trans group?_eq_some_iff)
  have entries : ofChars? s.toList = some m ↔ Separated Hex.IsEntry m.toBytes s.toList := by
    rw [ofChars?_eq_some_iff, ← forall₂_groups_iff fun b g => isSeparator_of_isEntry, eq_comm,
      ← List.forall₂_eq_eq_eq, List.forall₂_map_left_iff, List.forall₂_map_right_iff, entry]
  rw [← entries]
  unfold parse
  split
  next read => simp [read]
  next read => simp [read]

theorem badArgument_of_parse {s : String} {e : Error} (read : parse s = .error e) :
    e = .badArgument := by
  unfold parse at read
  split at read
  · cases read
  · cases read
    rfl

theorem parse_eq_error {s : String} (rejected : ∀ m, parse s ≠ .ok m) :
    parse s = .error .badArgument := by
  cases read : parse s with
  | ok m => exact absurd read (rejected m)
  | error e => rw [badArgument_of_parse read]

/-- A text that is no address is none for either end of an interface. -/
theorem ofTexts_eq_error {s : String} (rejected : parse s = .error .badArgument) (other : String)
    (maxPacket : Nat) : Config.ofTexts s other maxPacket = .error .badArgument ∧
      Config.ofTexts other s maxPacket = .error .badArgument := by
  unfold Config.ofTexts
  rw [rejected]
  refine ⟨rfl, ?_⟩
  cases read : parse other with
  | ok => rfl
  | error e =>
    rw [badArgument_of_parse read]
    rfl

theorem not_mem_of_isOctet (octet : Hex.IsOctet b g) : ∀ c ∈ g, c ≠ '+' := by
  obtain ⟨upper, lower, -⟩ := octet
  rintro c mem rfl
  simp only [List.mem_cons, List.not_mem_nil, or_false] at mem
  rcases mem with rfl | rfl
  · exact Hex.not_isDigit_plus _ upper
  · exact Hex.not_isDigit_plus _ lower

/-- Of the entries only the signed ones hold a plus sign. -/
theorem Separated.isOctet (entries : Separated Hex.IsEntry bs cs) (unsigned : '+' ∉ cs) :
    Separated Hex.IsOctet bs cs := by
  have octet {b : UInt8} {g : List Char} (entry : Hex.IsEntry b g) (unsigned : '+' ∉ g) :
      Hex.IsOctet b g := by
    rcases entry with octet | signed
    · exact octet
    · cases signed
      exact absurd List.mem_cons_self unsigned
  induction entries with
  | last entry => exact .last (octet entry unsigned)
  | more entry separator _ ih =>
    simp only [List.mem_append, List.mem_cons, not_or] at unsigned
    exact .more (octet entry unsigned.1) separator (ih unsigned.2.2)

/-- A text is read as an address just when it is six entries with one separator between each two.
Those of them that are six octets of two digits are the ones without a plus sign. Any other text is
a bad argument, and makes no interface together with whatever address for the other end. -/
theorem parse_grammar (s : String) :
    (∀ m, parse s = .ok m ↔ Separated Hex.IsEntry m.toBytes s.toList) ∧
      (∀ m : MacAddr, Separated Hex.IsOctet m.toBytes s.toList ↔
        parse s = .ok m ∧ '+' ∉ s.toList) ∧
      ((∀ m : MacAddr, ¬Separated Hex.IsEntry m.toBytes s.toList) →
        parse s = .error .badArgument ∧ ∀ other maxPacket,
        Config.ofTexts s other maxPacket = .error .badArgument ∧
        Config.ofTexts other s maxPacket = .error .badArgument) := by
  refine ⟨fun m => parse_eq_ok_iff, fun m => ?_, fun other => ?_⟩
  · rw [parse_eq_ok_iff]
    constructor
    · intro octets
      refine ⟨octets.imp fun b g => .inl, fun mem => ?_⟩
      exact octets.forall_mem (by decide) (by decide) (fun b g => not_mem_of_isOctet) '+' mem rfl
    · rintro ⟨entries, unsigned⟩
      exact entries.isOctet unsigned
  · have rejected := parse_eq_error fun m read => other m (parse_eq_ok_iff.mp read)
    exact ⟨rejected, ofTexts_eq_error rejected⟩

/-- Both separators and both cases in one address. -/
theorem parse_grammar_mixed :
    parse "1A-55:89:a2:69-4f" = .ok ⟨0x1a, 0x55, 0x89, 0xa2, 0x69, 0x4f⟩ ∧
      '+' ∉ "1A-55:89:a2:69-4f".toList := by
  have octet {h l : Char} {b : UInt8} (read : Hex.number? 0 [h, l] = some b) :
      Hex.IsOctet b [h, l] := Hex.number?_two_iff.mp read
  refine ((parse_grammar _).2.1 _).mp ?_
  rw [← forall₂_groups_iff fun b g octet => isSeparator_of_isEntry (.inl octet)]
  exact .cons (octet rfl) (.cons (octet rfl) (.cons (octet rfl) (.cons (octet rfl)
    (.cons (octet rfl) (.cons (octet rfl) .nil)))))

/-- A plus sign is read, though it is no digit. -/
theorem not_parse_grammar_signed :
    ¬ ∀ m : MacAddr, parse "+1:55:89:a2:69:41" = .ok m ↔
      Separated Hex.IsOctet m.toBytes "+1:55:89:a2:69:41".toList := by
  intro grammar
  have read : parse "+1:55:89:a2:69:41" = .ok ⟨0x01, 0x55, 0x89, 0xa2, 0x69, 0x41⟩ := rfl
  have entries := (forall₂_groups_iff fun b g octet => isSeparator_of_isEntry (.inl octet)).mpr
    ((grammar _).mp read)
  rw [show groups "+1:55:89:a2:69:41".toList =
    [['+', '1'], ['5', '5'], ['8', '9'], ['a', '2'], ['6', '9'], ['4', '1']] by decide] at entries
  obtain ⟨⟨sign, -, -⟩, -⟩ := List.forall₂_cons.mp entries
  exact Hex.not_isDigit_plus _ sign

end MacAddr
end UsbEthernet
