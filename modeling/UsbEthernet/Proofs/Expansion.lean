import UsbEthernet.Proofs.Loopback

/-! A wait with calls during it, and a loop-back, come to the same as the operations that they are
made of, one after the other. -/
namespace UsbEthernet
open Session (up)

def Operation.isSingle : Operation → Bool
  | usb call => call.isSingle
  | stack call => call.isSingle
  | rebuild _ => true

/-- The calls that a loop-back of these queued packets is made of. -/
def UsbCall.ofLoopback (frame : Packet → Bytes) (split : Nat) : List Packet → List UsbCall
  | [] => [.transmitNext]
  | p :: queue =>
    if (frame p).length ≤ maxFrame then
      .transmitNext :: (transfers (frame p) split).map .receive ++ ofLoopback frame split queue
    else [.transmitNext]

def UsbCall.singles (nic : Nic) : UsbCall → List UsbCall
  | loopback split => ofLoopback nic.outbound.frame split nic.outbound.channel.items
  | call => [call]

namespace Nic

/-- The operations that a wait is made of, where `attempt` is one attempt. -/
def awaitSingles (poll : Nic → Nic × Option α) (attempt : StackCall) (nic : Nic) :
    List UsbCall → List Operation
  | [] => [.stack attempt]
  | call :: calls =>
    match poll nic with
    | (_, some _) => [.stack attempt]
    | (pending, none) =>
      .stack attempt :: (call.singles pending).map .usb ++
        awaitSingles poll attempt (call.run pending).1 calls

end Nic

def StackCall.singles (nic : Nic) : StackCall → List Operation
  | sendWait proto pieces calls =>
    if nic.outbound.admits pieces then
      nic.awaitSingles (Nic.pollSend proto pieces) (.sendWait proto pieces []) calls
    else [.stack (.sendWait proto pieces [])]
  | inboundWait calls => nic.awaitSingles Nic.pollInbound (.inboundWait []) calls
  | call => [.stack call]

namespace Session

def singles : Session → Operation → List Operation
  | up nic, .usb call => (call.singles nic).map .usb
  | up nic, .stack call => call.singles nic
  | up _, .rebuild settings | down .., .rebuild settings => [.rebuild settings]
  | down .., .usb _ | down .., .stack _ => []

/-- The run with each operation taken apart. -/
def expand (session : Session) : List Operation → List Operation
  | [] => []
  | op :: ops => session.singles op ++ (session.step op).1.expand ops

end Session

theorem UsbCall.singles_single (nic : Nic) (call : UsbCall) :
    ∀ single ∈ call.singles nic, single.isSingle = true := by
  cases call with
  | loopback split =>
    rw [singles]
    induction nic.outbound.channel.items with
    | nil => simp [ofLoopback, isSingle]
    | cons p queue ih =>
      rw [ofLoopback]
      split
      · rw [List.cons_append, List.forall_mem_cons, List.forall_mem_append]
        exact ⟨rfl, by simp [isSingle], ih⟩
      · simp [isSingle]
  | receive | receiveFailed | transmit | transmitDone | transmitNext | pollTransmit | reset =>
    simp [singles, isSingle]

namespace Nic
variable {nic last : Nic} {acts : List Act}

theorem Performs.mtu (performed : nic.Performs acts last) : last.outbound.mtu = nic.outbound.mtu := by
  induction performed with
  | nil => rfl
  | @cons _ act _ _ _ _ ih =>
    rw [ih]
    cases act <;> rfl

theorem awaitSingles_single (poll : Nic → Nic × Option α) {attempt : StackCall}
    (single : attempt.isSingle = true) (nic : Nic) (calls : List UsbCall) :
    ∀ op ∈ nic.awaitSingles poll attempt calls, op.isSingle = true := by
  induction calls generalizing nic with
  | nil => simpa [awaitSingles, Operation.isSingle] using single
  | cons call calls ih =>
    rw [awaitSingles]
    split
    · simpa [Operation.isSingle] using single
    · rename_i pending _
      rw [List.cons_append, List.forall_mem_cons, List.forall_mem_append, List.forall_mem_map]
      exact ⟨single, call.singles_single pending, ih _⟩

/-- Each round of a loop-back asks for a frame, which is then reported as sent, and receives its
transfers. -/
theorem answer_ofLoopback (split : Nat) {queue : List Packet}
    (queued : nic.outbound.channel.items = queue) :
    (nic.answer (UsbCall.ofLoopback nic.outbound.frame split queue)).1 = (nic.loopback split).1 := by
  induction queue generalizing nic with
  | nil =>
    have idle : (UsbCall.transmitNext.run nic).1 = nic := by
      simp only [UsbCall.run, Outbound.transmitNext, Outbound.transmit_nil maxFrame queued]
    rw [loopback_nil split queued]
    exact idle
  | cons p queue ih =>
    have taken := Outbound.transmitNext_cons queued
    rw [UsbCall.ofLoopback]
    by_cases fits : (nic.outbound.frame p).length ≤ maxFrame
    · have left : (nic.echoed split (nic.outbound.frame p)).outbound.channel.items = queue :=
        congrArg List.tail queued
      rw [if_pos fits] at taken
      rw [if_pos fits, loopback_cons split queued fits, List.cons_append, answer, answer_append,
        answer_receive]
      simp only [UsbCall.run, taken]
      exact ih left
    · rw [if_neg fits] at taken
      rw [if_neg fits, loopback_tooLong split queued fits]
      simp only [answer, UsbCall.run, taken]
      rfl

theorem answer_singles (nic : Nic) (call : UsbCall) :
    (nic.answer (call.singles nic)).1 = (call.run nic).1 := by
  cases call with
  | loopback split => exact answer_ofLoopback split rfl
  | receive | receiveFailed | transmit | transmitDone | transmitNext | pollTransmit | reset => rfl

end Nic

theorem StackCall.singles_single (nic : Nic) (call : StackCall) :
    ∀ op ∈ call.singles nic, op.isSingle = true := by
  cases call with
  | send | head | done | pop | info => simp [singles, Operation.isSingle, isSingle]
  | inboundWait calls => exact Nic.awaitSingles_single _ rfl nic calls
  | sendWait proto pieces calls =>
    rw [singles]
    split
    · exact Nic.awaitSingles_single _ rfl nic calls
    · simp [Operation.isSingle, isSingle]

namespace Session
variable {nic : Nic}

theorem run_usb (nic : Nic) (calls : List UsbCall) :
    ((up nic).run (calls.map .usb)).1 = up (nic.answer calls).1 := by
  induction calls generalizing nic with
  | nil => rfl
  | cons call calls ih => exact ih (call.run nic).1

/-- A wait, where an attempt is a poll as long as `holds` is kept by what may happen to the
interface. -/
theorem run_awaitSingles {poll : Nic → Nic × Option α} {attempt : StackCall} (holds : Nic → Prop)
    (attempted : ∀ nic, holds nic → (attempt.run nic).1 = (poll nic).1)
    (kept : ∀ {nic last acts}, holds nic → nic.Performs acts last → holds last)
    (start : holds nic) (calls : List UsbCall) :
    ((up nic).run (nic.awaitSingles poll attempt calls)).1 = up (nic.await poll calls).1 := by
  induction calls generalizing nic with
  | nil => exact congrArg up (attempted nic start)
  | cons call calls ih =>
    have first : ((up nic).step (.stack attempt)).1 = up (poll nic).1 :=
      congrArg up (attempted nic start)
    have polled := kept start (attempted nic start ▸ attempt.performs nic)
    rw [Nic.awaitSingles, Nic.await]
    split
    · rename_i ready
      rw [ready] at first ⊢
      exact first
    · rename_i pending waits
      rw [waits] at first polled ⊢
      rw [List.cons_append, run_cons, first, run_append, run_usb, pending.answer_singles call]
      exact ih (kept polled (call.performs pending))

theorem run_singles_stack (nic : Nic) (call : StackCall) :
    ((up nic).run (call.singles nic)).1 = up (call.run nic).1 := by
  cases call with
  | send | head | done | pop | info => rfl
  | inboundWait calls =>
    exact run_awaitSingles (fun _ => True) (fun _ _ => rfl) (fun _ _ => trivial) trivial calls
  | sendWait proto pieces calls =>
    by_cases admitted : nic.outbound.admits pieces = true
    · have attempted (nic : Nic) (admitted : nic.outbound.admits pieces = true) :
          ((StackCall.sendWait proto pieces []).run nic).1 = (nic.pollSend proto pieces).1 := by
        simp only [StackCall.run, Nic.sendWait, if_pos admitted]
        rfl
      have kept {nic last : Nic} {acts : List Act} (admitted : nic.outbound.admits pieces = true)
          (performed : nic.Performs acts last) : last.outbound.admits pieces = true := by
        rwa [Outbound.admits, performed.mtu]
      simp only [StackCall.singles, StackCall.run, Nic.sendWait, if_pos admitted]
      exact run_awaitSingles _ attempted kept admitted calls
    · have refused : ((StackCall.sendWait proto pieces []).run nic).1 = nic := by
        simp only [StackCall.run, Nic.sendWait, if_neg admitted]
      simp only [StackCall.singles, StackCall.run, Nic.sendWait, if_neg admitted]
      exact congrArg up refused

theorem run_singles (session : Session) (op : Operation) :
    (session.run (session.singles op)).1 = (session.step op).1 := by
  cases session with
  | down => cases op <;> rfl
  | up nic =>
    cases op with
    | rebuild => rfl
    | usb call => rw [singles, run_usb, nic.answer_singles call]; rfl
    | stack call => exact run_singles_stack nic call

theorem singles_single (session : Session) (op : Operation) :
    ∀ single ∈ session.singles op, single.isSingle = true := by
  cases session with
  | down => cases op <;> simp [singles, Operation.isSingle]
  | up nic =>
    cases op with
    | rebuild => simp [singles, Operation.isSingle]
    | usb call =>
      rw [singles, List.forall_mem_map]
      exact call.singles_single nic
    | stack call => exact call.singles_single nic

/-- Taken apart, a run reaches the same state. -/
theorem run_expand (session : Session) (ops : List Operation) :
    (session.run (session.expand ops)).1 = (session.run ops).1 := by
  induction ops generalizing session with
  | nil => rfl
  | cons op ops ih => rw [expand, run_append, run_singles, ih, run_cons]

theorem expand_single (session : Session) (ops : List Operation) :
    ∀ op ∈ session.expand ops, op.isSingle = true := by
  induction ops generalizing session with
  | nil => simp [expand]
  | cons op ops ih => exact List.forall_mem_append.mpr ⟨session.singles_single op, ih _⟩

end Session
end UsbEthernet
