import UsbEthernet.Proofs.Reassembly

/-! What the reassembler dispatches in any state: a frame is never too long for a slot, and where
an open frame holds its header it is always read as a packet. What becomes of the packet at the
queue is no concern of the reassembler. -/
namespace UsbEthernet

theorem Header.length_of_parse {frame payload : Bytes} {h : Header}
    (parsed : parse frame = .ok (h, payload)) : payload.length + headerLength = frame.length := by
  rw [← parse_eq_ok_iff.mp parsed, List.length_append, length_toBytes, Nat.add_comm]

namespace Reassembler

/-- Takes an arrival and gives the packet whose frame it completes. -/
def arrive (r : Reassembler) : Arrival → Reassembler × Option Packet
  | .transfer octets => r.receive octets
  | .failed _ | .reset => (r.abort, none)

/-- A frame that is open and not too long holds its header. -/
def Begun (r : Reassembler) : Prop :=
  r.phase = .active → headerLength ≤ r.buffer.length

/-- What comes of an open frame and one more transfer. -/
theorem extend_spec (r : Reassembler) (x : Bytes) :
    (r.extend x).1.stats.frames = r.stats.frames ∧
    (r.extend x).1.stats.aborted = r.stats.aborted ∧
    (∀ frame ∈ (r.extend x).2, frame = r.buffer ++ x ∧ frame.length ≤ maxFrame) ∧
    ((r.extend x).1.phase = .active → (r.extend x).1.buffer = r.buffer ++ x) := by
  simp only [extend]
  split
  · refine ⟨rfl, rfl, by simp, ?_⟩
    intro active
    split at active <;> cases active
  · rename_i fits
    split
    · refine ⟨rfl, rfl, ?_, by simp⟩
      rintro frame completed
      cases completed
      exact ⟨rfl, Nat.not_lt.mp fits⟩
    · exact ⟨rfl, rfl, by simp, fun _ => rfl⟩

/-- A frame is dispatched only if it is not too long, and is counted only afterwards. -/
theorem collect_spec (r : Reassembler) (x : Bytes) :
    (r.collect x).1.stats.frames = r.stats.frames ∧
    (r.collect x).1.stats.aborted = r.stats.aborted ∧
    ∀ frame ∈ (r.collect x).2, frame.length ≤ maxFrame := by
  obtain ⟨counted, kept, framed, -⟩ := r.extend_spec x
  have extended : ∀ frame ∈ (r.extend x).2, frame.length ≤ maxFrame :=
    fun frame completed => (framed frame completed).2
  unfold collect
  split
  · split
    · exact ⟨counted, kept, extended⟩
    · split <;> exact ⟨rfl, rfl, by simp⟩
  · exact ⟨counted, kept, extended⟩
  · split <;> exact ⟨rfl, rfl, by simp⟩

theorem Begun.collect {r : Reassembler} (begun : r.Begun) (x : Bytes) :
    (r.collect x).1.Begun ∧ ∀ frame ∈ (r.collect x).2, headerLength ≤ frame.length := by
  obtain ⟨-, -, framed, opened⟩ := r.extend_spec x
  -- Both ways to extend a frame find the header in what is buffered or in the transfer.
  have extended (holds : headerLength ≤ (r.buffer ++ x).length) :
      (r.extend x).1.Begun ∧ ∀ frame ∈ (r.extend x).2, headerLength ≤ frame.length := by
    constructor
    · intro active
      rwa [opened active]
    · intro frame completed
      rwa [(framed frame completed).1]
  unfold Reassembler.collect
  split
  · rename_i idle
    have quiet : ∀ t : Reassembler, t.phase = r.phase → t.Begun := by
      intro t same active
      rw [same, idle] at active
      cases active
    split
    · rename_i header
      apply extended
      rw [List.length_append]
      omega
    · split
      · exact ⟨quiet r rfl, by simp⟩
      · exact ⟨quiet _ rfl, by simp⟩
  · rename_i active
    apply extended
    have := begun active
    rw [List.length_append]
    omega
  · refine ⟨?_, by simp⟩
    split
    · simp [Begun]
    · exact begun

/-- Every frame is counted and given as a packet that a slot has room for. Only `abort` counts what
is given up. -/
theorem receive_spec (r : Reassembler) (x : Bytes) :
    (r.receive x).1.stats.frames =
        r.stats.frames + UInt32.ofNat (r.receive x).2.toList.length ∧
    (r.receive x).1.stats.aborted = r.stats.aborted ∧
    ∀ p ∈ (r.receive x).2, p.fits = true := by
  obtain ⟨counted, kept, short⟩ := r.collect_spec x
  unfold receive
  split
  · rename_i collect
    rw [collect] at counted kept
    exact ⟨counted.trans (UInt32.add_zero _).symm, kept, by simp⟩
  · rename_i t frame collect
    rw [collect] at counted kept short
    split
    · rename_i parsed
      have length := Header.length_of_parse parsed
      have fits := short frame rfl
      refine ⟨congrArg (· + 1) counted, kept, ?_⟩
      intro p completed
      cases completed
      apply decide_eq_true
      unfold maxFrame at fits
      dsimp only
      omega
    · exact ⟨counted.trans (UInt32.add_zero _).symm, kept, by simp⟩

/-- Where an open frame holds its header, what is dispatched is read as a packet. -/
theorem Begun.receive {r : Reassembler} (begun : r.Begun) (x : Bytes) :
    (r.receive x).1.Begun ∧ (r.receive x).2 = (r.collect x).2.map .ofFrame := by
  obtain ⟨collected, header⟩ := begun.collect x
  unfold Reassembler.receive
  split
  · rename_i collect
    rw [collect] at collected ⊢
    exact ⟨collected, rfl⟩
  · rename_i t frame collect
    rw [collect] at collected header ⊢
    simp only [Header.parse_eq_ofFrame (header frame rfl)]
    exact ⟨collected, rfl⟩

theorem arrive_spec (r : Reassembler) (a : Arrival) :
    (r.arrive a).1.stats.frames =
        r.stats.frames + UInt32.ofNat (r.arrive a).2.toList.length ∧
    ∀ p ∈ (r.arrive a).2, p.fits = true := by
  cases a with
  | transfer octets =>
    obtain ⟨counted, -, fits⟩ := r.receive_spec octets
    exact ⟨counted, fits⟩
  | failed | reset => exact ⟨(UInt32.add_zero _).symm, by simp [arrive]⟩

theorem Begun.arrive {r : Reassembler} (begun : r.Begun) (a : Arrival) : (r.arrive a).1.Begun := by
  cases a with
  | transfer octets => exact (begun.receive octets).1
  | failed | reset => simp [Reassembler.arrive, Begun, abort]

end Reassembler

/-- What an arrival does to the reassembler does not depend on the queue, and the queue gets the
packet that is completed. -/
theorem Inbound.arrive_spec (i : Inbound) (a : Arrival) :
    (i.arrive a).reassembler = (i.reassembler.arrive a).1 ∧
    (i.arrive a).backlog = (i.reassembler.arrive a).2.toList.foldl Backlog.offer i.backlog := by
  cases a with
  | failed | reset => exact ⟨rfl, rfl⟩
  | transfer octets =>
    have fits := (i.reassembler.receive_spec octets).2.2
    simp only [arrive, receive, Reassembler.arrive]
    split
    · rename_i received
      rw [received]
      exact ⟨rfl, rfl⟩
    · rename_i reassembler p received
      rw [received] at fits ⊢
      exact ⟨reassembler_offer _ p, backlog_offer { i with reassembler } (fits p rfl)⟩

end UsbEthernet
