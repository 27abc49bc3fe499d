import UsbEthernet.Header

/-! The header of a frame as octets. Every field is read where it is written, so reading and
writing undo each other. Fourteen octets are enough for any header and fewer are enough for none;
where a frame is too short, that is found before any of its fields is read. -/
namespace UsbEthernet

namespace EtherType

theorem toBytes_ofOctets (high low : UInt8) : (ofOctets high low).toBytes = [high, low] := by
  have upper := high.toNat_lt
  have lower := low.toNat_lt
  have value : (UInt16.ofNat (256 * high.toNat + low.toNat)).toNat =
      256 * high.toNat + low.toNat := by
    rw [UInt16.toNat_ofNat']
    omega
  have quotient : (256 * high.toNat + low.toNat) / 256 = high.toNat := by omega
  have remainder : (256 * high.toNat + low.toNat) % 256 = low.toNat := by omega
  simp only [toBytes, EtherType.high, EtherType.low, ofOctets, value, quotient, remainder,
    UInt8.ofNat_toNat]

theorem ofOctets_toBytes (t : EtherType) : ofOctets t.high t.low = t := by
  have bound := t.value.toNat_lt
  have upper : (UInt8.ofNat (t.value.toNat / 256)).toNat = t.value.toNat / 256 := by
    rw [UInt8.toNat_ofNat']
    omega
  have lower : (UInt8.ofNat (t.value.toNat % 256)).toNat = t.value.toNat % 256 := by
    rw [UInt8.toNat_ofNat']
    omega
  simp only [ofOctets, high, low, upper, lower, Nat.div_add_mod, UInt16.ofNat_toNat]

end EtherType

namespace MacAddr

theorem ofBytes_toBytes (m : MacAddr) : ofBytes m.toBytes = .ok m := rfl

/-- Any six octets are those of an address. -/
theorem exists_toBytes {octets : Bytes} (length : octets.length = macLength) :
    ∃ m : MacAddr, m.toBytes = octets := by
  match octets, length with
  | [o0, o1, o2, o3, o4, o5], _ => exact ⟨⟨o0, o1, o2, o3, o4, o5⟩, rfl⟩

end MacAddr

namespace Header

/-- What is written in front of a payload is read back, and the payload is left. -/
theorem parse_toBytes_append (h : Header) (payload : Bytes) :
    parse (h.toBytes ++ payload) = .ok (h, payload) := by
  have dest : (h.toBytes ++ payload).take macLength = h.dest.toBytes := rfl
  have src : ((h.toBytes ++ payload).drop macLength).take macLength = h.src.toBytes := rfl
  have rest : (h.toBytes ++ payload).drop (2 * macLength) =
      h.proto.high :: h.proto.low :: payload := rfl
  simp only [parse, dest, src, rest, MacAddr.ofBytes_toBytes, EtherType.ofOctets_toBytes]
  rfl

-- The higher octet of the protocol number comes first, behind the two addresses.
example : parse ([0xff, 0xff, 0xff, 0xff, 0xff, 0xff, 0x1a, 0x55, 0x89, 0xa2, 0x69, 0x42, 0x08, 0x06]
    ++ [7]) = .ok (⟨.broadcast, ⟨0x1a, 0x55, 0x89, 0xa2, 0x69, 0x42⟩, .arp⟩, [7]) := rfl

/-- A frame that is long enough begins with a header, whatever its octets are. -/
theorem exists_toBytes_append {frame : Bytes} (holds : headerLength ≤ frame.length) :
    ∃ (h : Header) (payload : Bytes), h.toBytes ++ payload = frame := by
  unfold headerLength at holds
  obtain ⟨dest, first⟩ : ∃ m : MacAddr, m.toBytes = frame.take macLength := by
    apply MacAddr.exists_toBytes
    rw [List.length_take, macLength]
    omega
  obtain ⟨src, second⟩ : ∃ m : MacAddr, m.toBytes = (frame.drop macLength).take macLength := by
    apply MacAddr.exists_toBytes
    rw [List.length_take, List.length_drop, macLength]
    omega
  have rest : 2 ≤ ((frame.drop macLength).drop macLength).length := by
    rw [List.length_drop, List.length_drop, macLength]
    omega
  obtain ⟨high, low, payload, third⟩ :
      ∃ high low payload, (frame.drop macLength).drop macLength = high :: low :: payload := by
    match (frame.drop macLength).drop macLength, rest with
    | high :: low :: payload, _ => exact ⟨high, low, payload, rfl⟩
  refine ⟨⟨dest, src, .ofOctets high low⟩, payload, ?_⟩
  calc
    toBytes ⟨dest, src, .ofOctets high low⟩ ++ payload
      = frame.take macLength ++ ((frame.drop macLength).take macLength ++
          (frame.drop macLength).drop macLength) := by
        simp only [toBytes, first, second, third, EtherType.toBytes_ofOctets, List.append_assoc,
          List.cons_append, List.nil_append]
    _ = frame := by rw [List.take_append_drop, List.take_append_drop]

theorem parse_short {frame : Bytes} (short : frame.length < headerLength) :
    parse frame = .error .invalidInput := by
  unfold parse
  split
  · rename_i rest
    have length := congrArg List.length rest
    simp only [List.length_drop, List.length_cons, macLength] at length
    unfold headerLength at short
    omega
  · rfl

/-- A frame is taken apart into what it is made of, or is too short. -/
theorem parse_cases (frame : Bytes) :
    (frame.length < headerLength ∧ parse frame = .error .invalidInput) ∨
      ∃ (h : Header) (payload : Bytes), h.toBytes ++ payload = frame ∧
        parse frame = .ok (h, payload) := by
  by_cases short : frame.length < headerLength
  · exact .inl ⟨short, parse_short short⟩
  · obtain ⟨h, payload, rfl⟩ := exists_toBytes_append (Nat.not_lt.mp short)
    exact .inr ⟨h, payload, rfl, parse_toBytes_append h payload⟩

theorem parse_eq_ok_iff {frame payload : Bytes} {h : Header} :
    parse frame = .ok (h, payload) ↔ h.toBytes ++ payload = frame := by
  constructor
  · intro parsed
    rcases parse_cases frame with ⟨-, failed⟩ | ⟨_, _, rfl, same⟩
    · rw [failed] at parsed
      cases parsed
    · rw [same] at parsed
      cases parsed
      rfl
  · rintro rfl
    exact parse_toBytes_append h payload

theorem parse_eq_error_iff {frame : Bytes} {e : Error} :
    parse frame = .error e ↔ e = .invalidInput ∧ frame.length < headerLength := by
  constructor
  · intro failed
    rcases parse_cases frame with ⟨short, same⟩ | ⟨_, _, -, parsed⟩
    · rw [same] at failed
      cases failed
      exact ⟨rfl, short⟩
    · rw [parsed] at failed
      cases failed
  · rintro ⟨rfl, short⟩
    exact parse_short short

/-- Reading a header undoes writing it, in front of any payload, and writing undoes reading. The
frames that can be read are those with room for a header; any other is invalid input, and there is
no other way to fail. -/
theorem parse_inverts_toBytes :
    (∀ (h : Header) (payload : Bytes), parse (h.toBytes ++ payload) = .ok (h, payload)) ∧
    ∀ frame : Bytes,
      (∀ h payload, parse frame = .ok (h, payload) ↔ h.toBytes ++ payload = frame) ∧
      ((∃ h payload, parse frame = .ok (h, payload)) ↔ headerLength ≤ frame.length) ∧
      ∀ e, parse frame = .error e ↔ e = .invalidInput ∧ frame.length < headerLength := by
  refine ⟨parse_toBytes_append, ?_⟩
  intro frame
  refine ⟨fun h payload => parse_eq_ok_iff, ?_, fun e => parse_eq_error_iff⟩
  constructor
  · rintro ⟨h, payload, parsed⟩
    rw [← parse_eq_ok_iff.mp parsed, List.length_append, length_toBytes]
    exact Nat.le_add_right _ _
  · intro holds
    obtain ⟨h, payload, rfl⟩ := exists_toBytes_append holds
    exact ⟨h, payload, parse_toBytes_append h payload⟩

end Header
end UsbEthernet
