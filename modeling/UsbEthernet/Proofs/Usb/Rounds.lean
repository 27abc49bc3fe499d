import UsbEthernet.Proofs.Usb.Announcement
import UsbEthernet.Proofs.Usb.Peer

/-! The order of the writes to the host. They come in rounds: the connection is announced, after as
many failures as it takes, then transfers are written up to one that is lost, and the next round
begins. So nothing is written after a lost transfer before the connection is announced again. -/
namespace UsbEthernet

namespace InEvent

def isNotified : InEvent → Bool
  | notified _ => true
  | off | failed | data _ | notifyOff | notifyFailed => false

theorem isNotified_lost {cause : InEvent} (lost : cause.isLost = true) :
    cause.isNotified = false := by
  cases cause with
  | off | failed => rfl
  | data | notifyOff | notifyFailed | notified => cases lost

end InEvent

/-- From an announcement to the loss of a transfer. -/
structure Round where
  /-- The announcements that fail. -/
  unheard : Nat
  written : List Bytes
  cause : InEvent
  lost : cause.isLost = true

namespace Round

/-- The events after the announcement. -/
def bulk (r : Round) : List InEvent :=
  r.written.map .data ++ [r.cause]

def events (notice : Bytes) (r : Round) : List InEvent :=
  List.replicate r.unheard .notifyFailed ++ .notified notice :: r.bulk

end Round

/-- Events in the order of the rounds, from a point where the connection is announced or not to
another such point. -/
inductive Sequel (notice : Bytes) : Bool → List InEvent → Bool → Prop where
  | nil {announced : Bool} : Sequel notice announced [] announced
  | unheard {rest : List InEvent} {last : Bool} : Sequel notice false rest last →
      Sequel notice false (.notifyFailed :: rest) last
  | announce {rest : List InEvent} {last : Bool} : Sequel notice true rest last →
      Sequel notice false (.notified notice :: rest) last
  | write {transfer : Bytes} {rest : List InEvent} {last : Bool} : Sequel notice true rest last →
      Sequel notice true (.data transfer :: rest) last
  | lose {cause : InEvent} {rest : List InEvent} {last : Bool} : cause.isLost = true →
      Sequel notice false rest last → Sequel notice true (cause :: rest) last

namespace Sequel
variable {notice : Bytes} {first middle last : Bool} {events others : List InEvent}

theorem trans (h : Sequel notice first events middle) (rest : Sequel notice middle others last) :
    Sequel notice first (events ++ others) last := by
  induction h with
  | nil => exact rest
  | unheard _ ih => exact .unheard (ih rest)
  | announce _ ih => exact .announce (ih rest)
  | write _ ih => exact .write (ih rest)
  | lose lost _ ih => exact .lose lost (ih rest)

theorem split (h : Sequel notice first (events ++ others) last) :
    ∃ middle, Sequel notice first events middle ∧ Sequel notice middle others last := by
  induction events generalizing first with
  | nil => exact ⟨first, .nil, h⟩
  | cons event events ih =>
    cases h with
    | unheard rest =>
      obtain ⟨middle, before, after⟩ := ih rest
      exact ⟨middle, .unheard before, after⟩
    | announce rest =>
      obtain ⟨middle, before, after⟩ := ih rest
      exact ⟨middle, .announce before, after⟩
    | write rest =>
      obtain ⟨middle, before, after⟩ := ih rest
      exact ⟨middle, .write before, after⟩
    | lose lost rest =>
      obtain ⟨middle, before, after⟩ := ih rest
      exact ⟨middle, .lose lost before, after⟩

/-- There are as many announcements as lost transfers, and one more where the connection is
announced at the end and was not at the start. -/
theorem counts (h : Sequel notice first events last) :
    events.countP InEvent.isNotified + first.toNat =
      events.countP InEvent.isLost + last.toNat := by
  induction h with
  | nil => rfl
  | unheard _ ih | write _ ih => simpa [InEvent.isNotified, InEvent.isLost] using ih
  | announce _ ih =>
    rw [List.countP_cons_of_pos rfl, List.countP_cons_of_neg (by simp [InEvent.isLost]), ← ih]
    rfl
  | lose lost _ ih =>
    rw [List.countP_cons_of_pos lost,
      List.countP_cons_of_neg (by simp [InEvent.isNotified_lost lost]), Nat.add_right_comm, ← ih]
    rfl

end Sequel

def UplinkPhase.announced : UplinkPhase → Bool
  | silent => false
  | ready | writing _ => true

namespace Uplink
variable {attached : Bool} {u v : Uplink} {events : List InEvent}

end Uplink

namespace Device

end Device
end UsbEthernet
