import Mathlib
import UsbEthernet.Proofs.AddressGrammar
import UsbEthernet.Usb.Gadget

/-! The two written forms of an address: what is written reads as the same address, in every style
that the separators and the letters may take, and the form without separators is the one a host is
told. -/
namespace UsbEthernet

theorem utf8ByteSize_ofList_append (a b : List Char) :
    (String.ofList (a ++ b)).utf8ByteSize =
      (String.ofList a).utf8ByteSize + (String.ofList b).utf8ByteSize := by
  rw [String.ofList_append, String.utf8ByteSize_append]

namespace Hex

theorem isOctet_octet (b : UInt8) : IsOctet b (octet b) := by
  have high : b.toNat / 16 < 16 := Nat.div_lt_of_lt_mul b.toNat_lt
  have low : b.toNat % 16 < 16 := Nat.mod_lt _ (by decide)
  exact .digits ⟨high, .inl rfl⟩ ⟨low, .inl rfl⟩ (Nat.div_add_mod _ _).symm

theorem utf8Size_of_mem_chars {bs : Bytes} : ∀ c ∈ chars bs, c.utf8Size = 1 := by
  intro c mem
  rw [Char.utf8Size_eq_one_iff, UInt32.le_iff_toNat_le]
  exact Nat.le_of_lt_succ (chars_lt bs c mem)

end Hex

namespace MacAddr

/-- The ways to write a character of an address: as it is, another separator, or upper case. -/
inductive Restyled : Char → Char → Prop where
  | same {c : Char} : Restyled c c
  | dash : Restyled ':' '-'
  | upper {c : Char} : Restyled c c.toUpper

theorem isDigit_restyled {value : Nat} {c c' : Char} (digit : Hex.IsDigit value c)
    (restyled : Restyled c c') : Hex.IsDigit value c' := by
  cases restyled with
  | same => exact digit
  | dash => exact absurd (isSeparator_of_isDigit digit) (by decide)
  | upper =>
    obtain ⟨small, rfl | rfl⟩ := digit
    · exact ⟨small, .inr rfl⟩
    · refine ⟨small, .inr ?_⟩
      revert value
      decide

theorem isSeparator_restyled {c c' : Char} (separator : c = ':' ∨ c = '-')
    (restyled : Restyled c c') : c' = ':' ∨ c' = '-' := by
  cases restyled with
  | same => exact separator
  | dash => exact .inr rfl
  | upper => rcases separator with rfl | rfl <;> decide

variable {bs : Bytes} {cs : List Char}

/-- Octets are the same however they are written. -/
theorem Separated.restyled {cs' : List Char} (octets : Separated Hex.IsOctet bs cs)
    (restyled : List.Forall₂ Restyled cs cs') : Separated Hex.IsOctet bs cs' := by
  induction octets generalizing cs' with
  | last octet =>
    obtain ⟨upper, lower, value⟩ := octet
    obtain _ | ⟨first, _ | ⟨second, _ | _⟩⟩ := restyled
    exact .last (.digits (isDigit_restyled upper first) (isDigit_restyled lower second) value)
  | more octet separator _ ih =>
    obtain ⟨upper, lower, value⟩ := octet
    obtain _ | ⟨first, _ | ⟨second, _ | ⟨third, rest⟩⟩⟩ := restyled
    exact .more (.digits (isDigit_restyled upper first) (isDigit_restyled lower second) value)
      (isSeparator_restyled separator third) (ih rest)

/-- The octets of a text with colons between them, the first apart so that there is one. -/
theorem separated_octets (b : UInt8) (bs : Bytes) :
    Separated Hex.IsOctet (b :: bs) (((b :: bs).map Hex.octet).intersperse [':']).flatten := by
  induction bs generalizing b with
  | nil => exact .last (Hex.isOctet_octet b)
  | cons next bs ih => exact .more (Hex.isOctet_octet b) (.inl rfl) (ih next)

theorem text_separated (m : MacAddr) : Separated Hex.IsOctet m.toBytes m.text.toList := by
  rw [text, String.toList_ofList]
  exact separated_octets m.o0 [m.o1, m.o2, m.o3, m.o4, m.o5]

theorem parse_of_separated {m : MacAddr} {s : String}
    (octets : Separated Hex.IsOctet m.toBytes s.toList) : parse s = .ok m :=
  parse_eq_ok_iff.mpr (octets.imp fun _ _ => .inl)

theorem parse_text (m : MacAddr) : parse m.text = .ok m :=
  parse_of_separated m.text_separated

theorem colon_not_mem_octet (b : UInt8) : ∀ c ∈ Hex.octet b, c ≠ ':' := by
  rintro c mem rfl
  exact absurd (isSeparator_of_isEntry (.inl (Hex.isOctet_octet b)) _ mem) (by decide)

/-- Without the colons between them the octets follow on each other. -/
theorem filter_octets (bs : Bytes) :
    ((bs.map Hex.octet).intersperse [':']).flatten.filter (· ≠ ':') = Hex.chars bs := by
  have octet (b : UInt8) : (Hex.octet b).filter (· ≠ ':') = Hex.octet b :=
    List.filter_eq_self.mpr (by simpa using colon_not_mem_octet b)
  induction bs with
  | nil => rfl
  | cons b bs ih =>
    cases bs with
    | nil => simpa [Hex.chars] using octet b
    | cons next bs =>
      rw [List.map_cons, List.map_cons, List.intersperse_cons_cons, ← List.map_cons,
        List.flatten_cons, List.flatten_cons, List.filter_append, List.filter_append, octet, ih]
      rfl

theorem hex_eq (m : MacAddr) : m.hex = String.ofList (m.text.toList.filter (· ≠ ':')) := by
  rw [text, String.toList_ofList, textChars, filter_octets]
  rfl

theorem toBytes_injective : Function.Injective toBytes := by
  rintro ⟨⟩ ⟨⟩ same
  simpa [toBytes] using same

theorem bytes?_hex (m : MacAddr) : Hex.bytes? m.hex.toList = some m.toBytes := by
  rw [hex, Hex.text, String.toList_ofList, Hex.bytes?_chars]

theorem length_hex (m : MacAddr) : m.hex.length = 12 := by
  rw [hex, Hex.text, String.length_ofList, Hex.length_chars]
  rfl

theorem utf8ByteSize_hex (m : MacAddr) : m.hex.utf8ByteSize = 12 := by
  rw [hex, Hex.text, utf8ByteSize_ofList Hex.utf8Size_of_mem_chars, Hex.length_chars]
  rfl

theorem Separated.utf8Size (entries : Separated Hex.IsEntry bs cs) : ∀ c ∈ cs, c.utf8Size = 1 :=
  entries.forall_mem (by decide) (by decide) fun _ _ entry =>
    Hex.utf8Size_of_signed? (Option.ite_none_right_eq_some.mp (group?_eq_some_iff.mpr entry)).2

/-- In a text of separated entries every third character is a separator, and no other one is. -/
theorem Separated.positions (entries : Separated Hex.IsEntry bs cs) :
    cs.length + 1 = 3 * bs.length ∧
      ∀ i, (∃ c, cs[i]? = some c ∧ isSeparator c = true) ↔ i % 3 = 2 ∧ i < cs.length := by
  have pair {b : UInt8} {g : List Char} (entry : Hex.IsEntry b g) :
      ∃ h l, g = [h, l] ∧ isSeparator h = false ∧ isSeparator l = false := by
    obtain ⟨h, l, rfl⟩ := entry.pair
    have plain := isSeparator_of_isEntry entry
    exact ⟨h, l, rfl, plain h (by simp), plain l (by simp)⟩
  induction entries with
  | last entry =>
    obtain ⟨h, l, rfl, high, low⟩ := pair entry
    refine ⟨rfl, fun i => ?_⟩
    rcases i with _ | _ | i
    · simp [high]
    · simp [low]
    · simp
  | more entry separator _ ih =>
    obtain ⟨h, l, rfl, high, low⟩ := pair entry
    obtain ⟨length, positions⟩ := ih
    refine ⟨?_, fun i => ?_⟩
    · simp only [List.length_append, List.length_cons, List.length_nil]
      omega
    · rcases i with _ | _ | _ | i
      · simp [high]
      · simp [low]
      · simp [isSeparator_iff.mpr separator]
      · have later := positions i
        simp only [List.cons_append, List.nil_append, List.getElem?_cons_succ, later,
          List.length_cons]
        omega

theorem isSeparator_iff_byte {c : Char} (single : c.utf8Size = 1) :
    isSeparator c = true ↔ c.toUInt8 = ':'.toUInt8 ∨ c.toUInt8 = '-'.toUInt8 := by
  have small : c.val.toNat ≤ 127 :=
    UInt32.le_iff_toNat_le.mp (Char.utf8Size_eq_one_iff.mp single)
  have same (d : Char) (low : d.toNat < 128) : c = d ↔ c.toUInt8 = d.toUInt8 := by
    rw [← Char.toNat_inj, ← UInt8.toNat_inj, Char.toUInt8, Char.toUInt8, UInt32.toNat_toUInt8,
      UInt32.toNat_toUInt8]
    change c.val.toNat = d.val.toNat ↔ _
    change d.val.toNat < 128 at low
    omega
  rw [isSeparator_iff, same ':' (by decide), same '-' (by decide)]

/-- A text that is an address has seventeen bytes, with separators just behind each octet but the
last. -/
theorem bytes_of_parse {s : String} {m : MacAddr} (read : parse s = .ok m) :
    s.utf8ByteSize = 17 ∧ ∀ i : Nat,
      (∃ b, s.toUTF8.data.toList[i]? = some b ∧ (b = ':'.toUInt8 ∨ b = '-'.toUInt8)) ↔
        i ∈ [2, 5, 8, 11, 14] := by
  have entries := parse_eq_ok_iff.mp read
  obtain ⟨length, positions⟩ := entries.positions
  have size : s.utf8ByteSize = s.toList.length := by
    rw [← utf8ByteSize_ofList entries.utf8Size, String.ofList_toList]
  have bytes : s.toUTF8.data.toList = s.toList.map Char.toUInt8 := by
    rw [← toUTF8_ofList entries.utf8Size, String.ofList_toList]
  have six : m.toBytes.length = 6 := rfl
  refine ⟨by omega, fun i => ?_⟩
  have chars : (∃ b, s.toUTF8.data.toList[i]? = some b ∧ (b = ':'.toUInt8 ∨ b = '-'.toUInt8)) ↔
      ∃ c, s.toList[i]? = some c ∧ isSeparator c = true := by
    rw [bytes]
    simp only [List.getElem?_map, Option.map_eq_some_iff]
    constructor
    · rintro ⟨_, ⟨c, here, rfl⟩, separator⟩
      have single := entries.utf8Size c (List.mem_of_getElem? here)
      exact ⟨c, here, (isSeparator_iff_byte single).mpr separator⟩
    · rintro ⟨c, here, separator⟩
      have single := entries.utf8Size c (List.mem_of_getElem? here)
      exact ⟨_, ⟨c, here, rfl⟩, (isSeparator_iff_byte single).mp separator⟩
  rw [chars, positions]
  simp only [List.mem_cons, List.not_mem_nil, or_false]
  omega

end MacAddr

namespace Gadget

/-- Pieces that fit together are all written. -/
theorem writeWithin_eq_flatten {room : Nat} {pieces : List (List Char)}
    (fits : (String.ofList pieces.flatten).utf8ByteSize ≤ room) :
    writeWithin room pieces = pieces.flatten := by
  induction pieces generalizing room with
  | nil => rfl
  | cons piece pieces ih =>
    rw [List.flatten_cons, utf8ByteSize_ofList_append] at fits
    have rest := ih (Nat.le_sub_of_add_le' fits)
    simp only [writeWithin]
    rw [if_pos (Nat.le_of_add_right_le fits), rest, List.flatten_cons]

/-- The address is not cut short. -/
theorem address_eq (g : Gadget) : g.address = g.config.hostMac.hex := by
  have fits : (String.ofList (g.config.hostMac.toBytes.map Hex.octet).flatten).utf8ByteSize ≤
      addressRoom := by
    rw [← List.flatMap_def]
    exact g.config.hostMac.utf8ByteSize_hex.le
  rw [address, writeWithin_eq_flatten fits, ← List.flatMap_def]
  rfl

end Gadget

namespace MacAddr

/-- Writing an address and reading it are inverse in either form, and any other way to write it
reads the same. The text without separators is the one with them less the colons, and is kept whole
for the host to ask for. -/
theorem text_canonical (m : MacAddr) :
    parse m.text = .ok m ∧
    (∀ s : String, List.Forall₂ Restyled m.text.toList s.toList → parse s = .ok m) ∧
    (∀ m' : MacAddr, m'.text = m.text → m' = m) ∧
    (∀ m' : MacAddr, m'.hex = m.hex → m' = m) ∧
    m.hex = String.ofList (m.text.toList.filter (· ≠ ':')) ∧
    m.hex.length = 12 ∧ m.hex.utf8ByteSize = 12 ∧
    (∀ g : Gadget, g.config.hostMac = m → g.address = m.hex) ∧
    Hex.bytes? m.hex.toList = some m.toBytes ∧
    ∀ s, parse s = .ok m → s.utf8ByteSize = 17 ∧ ∀ i : Nat,
      (∃ b, s.toUTF8.data.toList[i]? = some b ∧ (b = ':'.toUInt8 ∨ b = '-'.toUInt8)) ↔
        i ∈ [2, 5, 8, 11, 14] := by
  refine ⟨m.parse_text, fun s restyled => ?_, fun m' same => ?_, fun m' same => ?_, m.hex_eq,
    m.length_hex, m.utf8ByteSize_hex, ?_, m.bytes?_hex, fun s => bytes_of_parse⟩
  · exact parse_of_separated (m.text_separated.restyled restyled)
  · have read := m'.parse_text
    rw [same, m.parse_text] at read
    exact (Except.ok.inj read).symm
  · have read := m'.bytes?_hex
    rw [same, m.bytes?_hex] at read
    exact toBytes_injective (Option.some.inj read).symm
  · rintro g rfl
    exact g.address_eq

/-- Upper case for some letters, and dashes for some colons. -/
theorem text_canonical_mixed :
    let m : MacAddr := ⟨0x1a, 0x55, 0x89, 0xa2, 0x69, 0x4f⟩
    m.text = "1a:55:89:a2:69:4f" ∧ m.hex = "1a5589a2694f" ∧
      parse "1A-55:89:a2-69:4F" = .ok m := by
  intro m
  have written : m.text = "1a:55:89:a2:69:4f" := by decide
  obtain ⟨-, styles, -⟩ := m.text_canonical
  refine ⟨written, by decide, styles _ ?_⟩
  rw [written]
  exact .cons .same (.cons .upper (.cons .dash (.cons .same (.cons .same (.cons .same
    (.cons .same (.cons .same (.cons .same (.cons .same (.cons .same (.cons .dash (.cons .same
    (.cons .same (.cons .same (.cons .same (.cons .upper .nil))))))))))))))))

end MacAddr
end UsbEthernet
