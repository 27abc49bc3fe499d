import UsbEthernet.Transfer

/-! What a frame is cut into: full transfers and a last one that is shorter, which may be empty.
These are the only parts of that form, so the transfers tell where the frame ends. Taken one at a
time, none of them is left out or given twice. -/
namespace UsbEthernet

/-- The parts of a frame: full transfers and a shorter rest. -/
structure Parts (maxPacket : Nat) (frame : Bytes) (full : List Bytes) (last : Bytes) : Prop where
  joined : full.flatten ++ last = frame
  full : ∀ x ∈ full, x.length = maxPacket
  short : last.length < maxPacket

variable {maxPacket : Nat} {frame last : Bytes} {full : List Bytes}

theorem exists_parts (frame : Bytes) (positive : 0 < maxPacket) :
    ∃ full last, Parts maxPacket frame full last := by
  by_cases long : maxPacket ≤ frame.length
  · have shorter : (frame.drop maxPacket).length < frame.length := by
      rw [List.length_drop]
      omega
    obtain ⟨full, last, joined, lengths, short⟩ := exists_parts (frame.drop maxPacket) positive
    refine ⟨frame.take maxPacket :: full, last, ?_, ?_, short⟩
    · rw [List.flatten_cons, List.append_assoc, joined, List.take_append_drop]
    · rw [List.forall_mem_cons]
      exact ⟨List.length_take_of_le long, lengths⟩
  · exact ⟨[], frame, rfl, by simp, Nat.not_le.mp long⟩
termination_by frame.length

namespace Splitter
variable {s t : Splitter} {x : Bytes}

theorem toList_of_none (h : s.next? = none) : s.toList = [] := by
  rw [toList]
  split
  · rfl
  · rename_i stepped
    rw [h] at stepped
    cases stepped

theorem toList_of_some (h : s.next? = some (x, t)) : s.toList = x :: t.toList := by
  rw [toList]
  split
  · rename_i stepped
    rw [h] at stepped
    cases stepped
  · rename_i stepped
    rw [h] at stepped
    cases stepped
    rfl

/-- Octets that are left are followed by a terminator only where the last transfer is full. -/
theorem toList_parts (parts : Parts s.maxPacket s.rest full last)
    (ends : s.rest = [] → s.terminator = true) : s.toList = full ++ [last] := by
  -- The induction is along the full transfers; each step takes one of them off.
  induction full generalizing s with
  | nil =>
    have rest : s.rest = last := parts.joined.symm
    by_cases empty : s.rest = []
    · have stepped : s.next? = some ([], { s with terminator := false }) := by
        simp only [next?, empty, ends empty, List.isEmpty_nil, if_true]
      have done : { s with terminator := false }.next? = none := by
        simp [next?, empty]
      rw [toList_of_some stepped, toList_of_none done, ← rest, empty, List.nil_append]
    · have short : s.rest.length < s.maxPacket := rest ▸ parts.short
      have fits := Nat.le_of_lt short
      have stepped : s.next? = some (s.rest, { s with rest := [], terminator := false }) := by
        simp [next?, empty, List.take_of_length_le fits, List.drop_eq_nil_of_le fits,
          Nat.ne_of_lt short]
      have done : { s with rest := [], terminator := false }.next? = none := by
        simp [next?]
      rw [toList_of_some stepped, toList_of_none done, ← rest, List.nil_append]
  | cons x full ih =>
    obtain ⟨joined, lengths, short⟩ := parts
    obtain ⟨length, lengths⟩ := List.forall_mem_cons.mp lengths
    rw [List.flatten_cons, List.append_assoc] at joined
    have nonempty : s.rest ≠ [] := by
      have := s.maxPacket_pos
      rw [← joined]
      intro empty
      rw [(List.append_eq_nil_iff.mp empty).1, List.length_nil] at length
      omega
    have taken : s.rest.take s.maxPacket = x := by
      rw [← joined, ← length, List.take_left]
    have left : s.rest.drop s.maxPacket = full.flatten ++ last := by
      rw [← joined, ← length, List.drop_left]
    let t : Splitter := { s with
      rest := full.flatten ++ last
      terminator := (full.flatten ++ last).isEmpty }
    have stepped : s.next? = some (x, t) := by
      simp [next?, nonempty, taken, left, length, t]
    have rest : t.toList = full ++ [last] := ih ⟨rfl, lengths, short⟩ List.isEmpty_iff.mpr
    rw [toList_of_some stepped, rest, List.cons_append]

end Splitter

theorem Parts.transfers (parts : Parts maxPacket frame full last) (nonempty : frame ≠ []) :
    transfers frame maxPacket = full ++ [last] := by
  have positive : 0 < maxPacket := Nat.zero_lt_of_lt parts.short
  have size : (Splitter.start frame maxPacket).maxPacket = maxPacket := Nat.max_eq_left positive
  apply Splitter.toList_parts (size.symm ▸ parts)
  intro empty
  exact absurd empty nonempty

/-- A frame with octets in it is carried by full transfers and a shorter one that ends it. -/
theorem exists_transfers (positive : 0 < maxPacket) (nonempty : frame ≠ []) :
    ∃ full last, Parts maxPacket frame full last ∧ transfers frame maxPacket = full ++ [last] := by
  obtain ⟨full, last, parts⟩ := exists_parts frame positive
  exact ⟨full, last, parts, parts.transfers nonempty⟩

theorem transfers_nil (maxPacket : Nat) : transfers [] maxPacket = [] :=
  Splitter.toList_of_none rfl

/-- Transfers that stop short of a transfer of their frame are full, and no longer than it. -/
theorem transfers_prefix {transfer : Bytes} {written rest : List Bytes} (positive : 0 < maxPacket)
    (wire : transfers frame maxPacket = written ++ transfer :: rest) :
    (∀ x ∈ written, x.length = maxPacket) ∧ written.flatten.length ≤ frame.length := by
  have nonempty : frame ≠ [] := by
    rintro rfl
    rw [transfers_nil] at wire
    exact List.cons_ne_nil _ _ (List.append_eq_nil_iff.mp wire.symm).2
  obtain ⟨full, last, parts, carried⟩ := exists_transfers positive nonempty
  -- What is left ends in the short transfer, so what is written is among the full ones.
  obtain ⟨more, ended⟩ : ∃ more, transfer :: rest = more ++ [(transfer :: rest).getLast (by simp)] :=
    ⟨_, (List.dropLast_concat_getLast _).symm⟩
  rw [carried, ended, ← List.append_assoc] at wire
  obtain ⟨rfl, _⟩ := List.append_inj' wire rfl
  refine ⟨fun x mem => parts.full x (List.mem_append_left _ mem), ?_⟩
  rw [← parts.joined]
  simp only [List.flatten_append, List.length_append]
  omega

theorem length_flatten_full (lengths : ∀ x ∈ full, x.length = maxPacket) :
    full.flatten.length = full.length * maxPacket := by
  induction full with
  | nil => simp
  | cons x full ih =>
    obtain ⟨first, others⟩ := List.forall_mem_cons.mp lengths
    rw [List.flatten_cons, List.length_append, ih others, first, List.length_cons, Nat.succ_mul,
      Nat.add_comm]

namespace Parts

/-- As many transfers are full as fit into the frame, and the last one takes what is left. -/
theorem counts (parts : Parts maxPacket frame full last) :
    full.length = frame.length / maxPacket ∧ last.length = frame.length % maxPacket := by
  have length : frame.length = last.length + full.length * maxPacket := by
    rw [← parts.joined, List.length_append, length_flatten_full parts.full, Nat.add_comm]
  have positive : 0 < maxPacket := Nat.zero_lt_of_lt parts.short
  rw [length, Nat.add_mul_div_right _ _ positive, Nat.add_mul_mod_self_right,
    Nat.div_eq_of_lt parts.short, Nat.mod_eq_of_lt parts.short, Nat.zero_add]
  exact ⟨rfl, rfl⟩

theorem last_eq_nil_iff (parts : Parts maxPacket frame full last) :
    last = [] ↔ maxPacket ∣ frame.length := by
  rw [← List.length_eq_zero_iff, parts.counts.2, Nat.dvd_iff_mod_eq_zero]

/-- Only the last transfer may be empty. -/
theorem count_nil_le (parts : Parts maxPacket frame full last) : (full ++ [last]).count [] ≤ 1 := by
  have nonempty : [] ∉ full := by
    intro mem
    have length : 0 = maxPacket := parts.full [] mem
    have short := parts.short
    omega
  rw [List.count_append, List.count_eq_zero.mpr nonempty, Nat.zero_add]
  exact List.count_le_length

end Parts

namespace Splitter

/-- A step takes the first of the transfers to come, or stays where there is none. -/
theorem advance_cases (s : Splitter) :
    (s.toList = [] ∧ s.advance = (none, s)) ∨
      ∃ x t, s.toList = x :: t.toList ∧ s.advance = (some x, t) := by
  cases stepped : s.next? with
  | none => exact .inl ⟨toList_of_none stepped, by simp only [advance, stepped]⟩
  | some taken =>
    obtain ⟨x, t⟩ := taken
    exact .inr ⟨x, t, toList_of_some stepped, by simp only [advance, stepped]⟩

theorem length_steps (s : Splitter) (n : Nat) : (s.steps n).length = n := by
  induction n generalizing s with
  | zero => rfl
  | succ n ih => rw [steps, List.length_cons, ih]

theorem steps_ended {s : Splitter} (ended : s.toList = []) (n : Nat) :
    ∀ entry ∈ s.steps n, entry.1 = none := by
  induction n with
  | zero => simp [steps]
  | succ n ih =>
    rcases s.advance_cases with ⟨_, stays⟩ | ⟨x, t, more, _⟩
    · rw [steps, stays, List.forall_mem_cons]
      exact ⟨rfl, ih⟩
    · rw [ended] at more
      cases more

/-- In any number of steps, each one gives the next of the transfers, as long as there is one, and
leaves the others to come. -/
theorem steps_split {s : Splitter} {n : Nat} {before after : List (Option Bytes × Splitter)}
    {entry : Option Bytes × Splitter} (taken : s.steps n = before ++ entry :: after) :
    entry.1 = s.toList[before.length]? ∧
      (before ++ [entry]).filterMap Prod.fst ++ entry.2.toList = s.toList ∧
      (entry.1 = none → ∀ later ∈ after, later.1 = none) := by
  -- The induction is along the steps that come before this one, so the state varies with it.
  induction before generalizing s n with
  | nil =>
    cases n with
    | zero => cases taken
    | succ n =>
      obtain ⟨rfl, rfl⟩ := List.cons.inj taken
      rcases s.advance_cases with ⟨ended, stays⟩ | ⟨x, t, more, moves⟩
      · rw [stays]
        exact ⟨by simp [ended], by simp, fun _ => steps_ended ended n⟩
      · rw [moves]
        exact ⟨by simp [more], by simp [more], by simp⟩
  | cons first before ih =>
    cases n with
    | zero => cases taken
    | succ n =>
      obtain ⟨rfl, rest⟩ := List.cons.inj taken
      obtain ⟨item, joined, last⟩ := ih rest
      rcases s.advance_cases with ⟨ended, stays⟩ | ⟨x, t, more, moves⟩
      · rw [stays] at item joined ⊢
        exact ⟨by simp [item, ended], by simpa using joined, last⟩
      · rw [moves] at item joined ⊢
        exact ⟨by simp [item, more], by simpa [more] using joined, last⟩

theorem steps_prefix (s : Splitter) (n : Nat) : (s.steps n).filterMap Prod.fst <+: s.toList := by
  rcases List.eq_nil_or_concat (s.steps n) with none | ⟨before, entry, taken⟩
  · rw [none]
    exact List.nil_prefix
  · rw [List.concat_eq_append] at taken
    rw [taken]
    exact ⟨_, (steps_split taken).2.1⟩

end Splitter

/-- A frame without octets has no transfers. Any other has one for each full packet size in its
length and one more: joined they are the frame, and all are full but the last, which is shorter,
and empty just where the size divides the length. Taken one at a time, what has been given is
followed by what is still to come; once there is none left there is none for ever, and at most
one of them all is empty. -/
theorem transfers_split (frame : Bytes) (positive : 0 < maxPacket) :
    let all := transfers frame maxPacket
    let start := Splitter.start frame maxPacket
    (frame = [] → all = []) ∧
    (frame ≠ [] →
      all.length = frame.length / maxPacket + 1 ∧ all.flatten = frame ∧
      ∃ full last, all = full ++ [last] ∧ (∀ x ∈ full, x.length = maxPacket) ∧
        last.length < maxPacket ∧ (last = [] ↔ maxPacket ∣ frame.length)) ∧
    (∀ n before entry after, start.steps n = before ++ entry :: after →
      entry.1 = all[before.length]? ∧
      (before ++ [entry]).filterMap Prod.fst ++ entry.2.toList = all ∧
      (entry.1 = none → ∀ later ∈ after, later.1 = none)) ∧
    ∀ n, (start.steps n).length = n ∧ ((start.steps n).filterMap Prod.fst).count [] ≤ 1 := by
  intro all start
  have one_empty : all.count [] ≤ 1 := by
    by_cases empty : frame = []
    · simp [all, empty, transfers_nil]
    · obtain ⟨full, last, parts, carried⟩ := exists_transfers positive empty
      rw [show all = full ++ [last] from carried]
      exact parts.count_nil_le
  refine ⟨?_, ?_, ?_, ?_⟩
  · rintro rfl
    exact transfers_nil maxPacket
  · intro nonempty
    obtain ⟨full, last, parts, carried⟩ := exists_transfers positive nonempty
    rw [show all = full ++ [last] from carried]
    refine ⟨?_, ?_, full, last, rfl, parts.full, parts.short, parts.last_eq_nil_iff⟩
    · rw [List.length_append, List.length_singleton, parts.counts.1]
    · simpa using parts.joined
  · intro n before entry after taken
    exact Splitter.steps_split taken
  · intro n
    exact ⟨start.length_steps n, Nat.le_trans ((start.steps_prefix n).sublist.count_le []) one_empty⟩

/-- A frame of two full packet sizes has a third transfer, which is empty, and no fourth. -/
theorem transfers_split_exact :
    let frame := List.replicate 28 (7 : UInt8)
    0 < 14 ∧ frame ≠ [] ∧ (transfers frame 14).length = 3 ∧
      (∃ full, transfers frame 14 = full ++ [[]]) ∧
      (((Splitter.start frame 14).steps 5).filterMap Prod.fst).count [] ≤ 1 := by
  intro frame
  have positive : 0 < 14 := by decide
  have nonempty : frame ≠ [] := by decide
  obtain ⟨-, carried, -, taken⟩ := transfers_split frame positive
  obtain ⟨count, -, full, last, split, -, -, ends⟩ := carried nonempty
  have empty : last = [] := ends.mpr (by decide)
  refine ⟨positive, nonempty, count.trans (by decide), ⟨full, ?_⟩, (taken 5).2⟩
  rw [split, empty]

end UsbEthernet
