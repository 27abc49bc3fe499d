import UsbEthernet.Proofs.Reassembly
import UsbEthernet.Session

/-! What the calls of both sides come to at the two queues. A call is a list of acts, each of them
one change that is made only where the queues call for it; what a run of calls keeps is read off
its acts. -/
namespace UsbEthernet

inductive Act where
  /-- A packet is queued for the host. -/
  | accept (p : Packet)
  /-- A packet for the host is dropped, as its queue is full. -/
  | refuse
  /-- The oldest packet for the host is consumed, as its frame has been sent. -/
  | sent
  /-- The oldest packet for the host is consumed, as its frame is too long. -/
  | tooLong
  | arrive (a : Arrival)
  /-- The oldest packet from the host is consumed. -/
  | take
  | awaitRoom
  | awaitFrame
  | awaitPacket
deriving DecidableEq

def Outbound.perform (o : Outbound) : Act → Outbound
  | .accept p =>
    { o with
      channel.items := o.channel.items ++ [p]
      channel.consumer := o.channel.consumer.fire }
  | .refuse => { o with dropped := o.dropped + 1 }
  | .sent => { o with channel := o.channel.rest, stats.frames := o.stats.frames + 1 }
  | .tooLong => { o with channel := o.channel.rest, stats.oversize := o.stats.oversize + 1 }
  | .awaitRoom => { o with channel.producer := o.channel.producer.register }
  | .awaitFrame => { o with channel.consumer := o.channel.consumer.register }
  | .arrive _ | .take | .awaitPacket => o

def Inbound.perform (i : Inbound) : Act → Inbound
  | .arrive a => i.arrive a
  | .take => { i with channel := i.channel.rest }
  | .awaitPacket => { i with channel.consumer := i.channel.consumer.register }
  | .accept _ | .refuse | .sent | .tooLong | .awaitRoom | .awaitFrame => i

namespace Nic

def perform (nic : Nic) (act : Act) : Nic :=
  ⟨nic.inbound.perform act, nic.outbound.perform act⟩

/-- Where an act may be done: nothing is added to a full queue or taken from an empty one, and
only a side that cannot go on drops a packet or waits. -/
def Allows (nic : Nic) : Act → Prop
  | .accept p => nic.outbound.channel.isFull = false ∧ p.fits = true
  | .refuse | .awaitRoom => nic.outbound.channel.isFull = true
  | .sent | .tooLong => nic.outbound.channel.items ≠ []
  | .awaitFrame => nic.outbound.channel.items = []
  | .take => nic.inbound.channel.items ≠ []
  | .awaitPacket => nic.inbound.channel.items = []
  | .arrive _ => True

/-- The acts are done one after the other, each where it may be. -/
inductive Performs : Nic → List Act → Nic → Prop where
  | nil : Performs nic [] nic
  | cons : Allows nic act → Performs (nic.perform act) acts last →
      Performs nic (act :: acts) last

namespace Performs
variable {nic middle last : Nic} {acts others : List Act}

theorem single {act : Act} (allowed : nic.Allows act) : nic.Performs [act] (nic.perform act) :=
  .cons allowed .nil

theorem trans (first : nic.Performs acts middle) (second : middle.Performs others last) :
    nic.Performs (acts ++ others) last := by
  induction first with
  | nil => exact second
  | cons allowed _ ih => exact .cons allowed (ih second)

/-- Arrivals may come at any time. -/
theorem arrivals (nic : Nic) (transfers : List Bytes) :
    nic.Performs (transfers.map (.arrive ∘ .transfer))
      { nic with inbound := nic.inbound.receiveAll transfers } := by
  induction transfers generalizing nic with
  | nil => exact .nil
  | cons x transfers ih => exact .cons trivial (ih (nic.perform (.arrive (.transfer x))))

end Performs
end Nic

namespace Outbound

def sendActs (o : Outbound) (proto : EtherType) (pieces : List Bytes) : List Act :=
  match (o.send proto pieces).2 with
  | .ok () => [.accept ⟨.ofProto proto, pieces.flatten⟩]
  | .error _ => if o.admits pieces && o.channel.isFull then [.refuse] else []

def pollSendActs (o : Outbound) (proto : EtherType) (pieces : List Bytes) : List Act :=
  match (o.pollSend proto pieces).2 with
  | some (.ok ()) => [.accept ⟨.ofProto proto, pieces.flatten⟩]
  | some (.error _) => []
  | none => [.awaitRoom]

end Outbound

/-- What a loop-back of these queued packets comes to. -/
def Act.loopback (frame : Packet → Bytes) (split : Nat) : List Packet → List Act
  | [] => []
  | p :: queue =>
    if (frame p).length ≤ maxFrame then
      .sent :: (transfers (frame p) split).map (.arrive ∘ .transfer) ++ loopback frame split queue
    else [.tooLong]

def UsbCall.acts (nic : Nic) : UsbCall → List Act
  | receive transfer => [.arrive (.transfer transfer)]
  | receiveFailed e => [.arrive (.failed e)]
  | transmit room =>
    match (nic.outbound.transmit room).2 with
    | .ok _ => []
    | .error _ => [.tooLong]
  | transmitDone => if nic.outbound.channel.isEmpty then [] else [.sent]
  | transmitNext =>
    match nic.outbound.transmitNext.2 with
    | .ok none => []
    | .ok (some _) => [.sent]
    | .error _ => [.tooLong]
  | pollTransmit => if nic.outbound.channel.isEmpty then [.awaitFrame] else []
  | reset => [.arrive .reset]
  | loopback split => Act.loopback nic.outbound.frame split nic.outbound.channel.items

namespace Nic

/-- What a wait comes to, where `acts` is what one attempt comes to. -/
def awaitActs (poll : Nic → Nic × Option α) (acts : Nic → List Act) (nic : Nic) :
    List UsbCall → List Act
  | [] => acts nic
  | call :: calls =>
    match poll nic with
    | (_, some _) => acts nic
    | (pending, none) =>
      acts nic ++ call.acts pending ++ awaitActs poll acts (call.run pending).1 calls

/-- One attempt of a stack that waits for room. -/
def pollSend (proto : EtherType) (pieces : List Bytes) (nic : Nic) :
    Nic × Option (Except Error Unit) :=
  ({ nic with outbound := (nic.outbound.pollSend proto pieces).1 },
    (nic.outbound.pollSend proto pieces).2)

/-- One attempt of a stack that waits for a packet. -/
def pollInbound (nic : Nic) : Nic × Option Packet :=
  ({ nic with inbound := nic.inbound.poll.1 }, nic.inbound.poll.2)

def pollInboundActs (nic : Nic) : List Act :=
  if nic.inbound.channel.isEmpty then [.awaitPacket] else []

end Nic

def StackCall.acts (nic : Nic) : StackCall → List Act
  | send proto pieces => nic.outbound.sendActs proto pieces
  | sendWait proto pieces calls =>
    if nic.outbound.admits pieces then
      nic.awaitActs (Nic.pollSend proto pieces) (·.outbound.pollSendActs proto pieces) calls
    else []
  | head | info => []
  | done | pop => if nic.inbound.channel.isEmpty then [] else [.take]
  | inboundWait calls => nic.awaitActs Nic.pollInbound Nic.pollInboundActs calls

namespace Nic

/-- An act where it may be, or none. -/
theorem Performs.option {nic : Nic} {act : Option Act} (allowed : ∀ a ∈ act, nic.Allows a) :
    nic.Performs act.toList (act.elim nic nic.perform) := by
  cases act with
  | none => exact .nil
  | some a => exact .single (allowed a rfl)

/-- An attempt of a stack that waits for room ends in one of three ways. -/
inductive SendAttempt (nic : Nic) (p : Packet) : Option Act → Option (Except Error Unit) → Prop where
  | full : nic.outbound.channel.isFull = true → SendAttempt nic p (some .awaitRoom) none
  | unfit : SendAttempt nic p none (some (.error .noSpace))
  | queued : nic.outbound.channel.isFull = false → p.fits = true →
      SendAttempt nic p (some (.accept p)) (some (.ok ()))

theorem pollSend_spec (nic : Nic) (proto : EtherType) (pieces : List Bytes) :
    ∃ act result, nic.SendAttempt ⟨.ofProto proto, pieces.flatten⟩ act result ∧
      nic.outbound.pollSendActs proto pieces = act.toList ∧
      nic.pollSend proto pieces = (act.elim nic nic.perform, result) := by
  unfold Outbound.pollSendActs pollSend Outbound.pollSend Channel.pollPush
  cases full : nic.outbound.channel.isFull with
  | true => exact ⟨_, _, .full full, rfl, rfl⟩
  | false =>
    rcases Outbound.store_cases proto pieces full with stored | ⟨fits, stored⟩
    · simp only [Bool.false_eq_true, if_false, stored]
      exact ⟨_, _, .unfit, rfl, rfl⟩
    · simp only [Bool.false_eq_true, if_false, stored]
      exact ⟨_, _, .queued full fits, rfl, rfl⟩

theorem SendAttempt.allows {nic : Nic} {p : Packet} {act : Option Act}
    {result : Option (Except Error Unit)} (attempt : nic.SendAttempt p act result) :
    ∀ a ∈ act, nic.Allows a := by
  rintro a rfl
  cases attempt with
  | full full => exact full
  | queued room fits => exact ⟨room, fits⟩

theorem pollSend_performs (nic : Nic) (proto : EtherType) (pieces : List Bytes) :
    nic.Performs (nic.outbound.pollSendActs proto pieces) (nic.pollSend proto pieces).1 := by
  obtain ⟨act, result, attempt, acts, polled⟩ := nic.pollSend_spec proto pieces
  rw [acts, polled]
  exact .option attempt.allows

theorem pollInbound_spec (nic : Nic) :
    nic.inbound.channel.items = [] ∧ nic.pollInboundActs = [.awaitPacket] ∧
      nic.pollInbound = (nic.perform .awaitPacket, none) ∨
    ∃ p queue, nic.inbound.channel.items = p :: queue ∧ nic.pollInboundActs = [] ∧
      nic.pollInbound = (nic, some p) := by
  obtain ⟨⟨reassembler, ⟨capacity, items, producer, consumer⟩, dropped⟩, outbound⟩ := nic
  cases items with
  | nil => exact .inl ⟨rfl, rfl, rfl⟩
  | cons p queue => exact .inr ⟨p, queue, rfl, rfl, rfl⟩

theorem pollInbound_performs (nic : Nic) :
    nic.Performs nic.pollInboundActs nic.pollInbound.1 := by
  rcases nic.pollInbound_spec with ⟨empty, acts, polled⟩ | ⟨_, _, -, acts, polled⟩
  · rw [acts, polled]
    exact .single empty
  · rw [acts, polled]
    exact .nil

/-- The oldest packet for the host is back and counted as sent. -/
def echoed (nic : Nic) (split : Nat) (frame : Bytes) : Nic where
  inbound := nic.inbound.receiveAll (transfers frame split)
  outbound := { nic.outbound with
    channel := nic.outbound.channel.rest
    stats.frames := nic.outbound.stats.frames + 1 }

section
variable {nic : Nic} {p : Packet} {queue : List Packet}

theorem loopback_nil (split : Nat) (empty : nic.outbound.channel.items = []) :
    nic.loopback split = (nic, []) := by
  have idle : nic.outbound.transmitNext = (nic.outbound, .ok none) := by
    simp only [Outbound.transmitNext, Outbound.transmit_nil maxFrame empty]
  rw [loopback]
  split
  · rename_i next
    rw [idle] at next
    cases next
  · rename_i next
    rw [idle] at next
    cases next
    rfl

theorem loopback_cons (split : Nat) (queued : nic.outbound.channel.items = p :: queue)
    (fits : (nic.outbound.frame p).length ≤ maxFrame) :
    nic.loopback split =
      (((nic.echoed split (nic.outbound.frame p)).loopback split).1,
        (transfers (nic.outbound.frame p) split).map List.length ::
          ((nic.echoed split (nic.outbound.frame p)).loopback split).2) := by
  have taken := Outbound.transmitNext_cons queued
  rw [if_pos fits] at taken
  rw [loopback]
  split
  · rename_i next
    rw [taken] at next
    cases next
    rfl
  · rename_i other next
    rw [taken] at next
    cases next
    exact absurd rfl (other _)

theorem loopback_tooLong (split : Nat) (queued : nic.outbound.channel.items = p :: queue)
    (long : ¬(nic.outbound.frame p).length ≤ maxFrame) :
    nic.loopback split = (nic.perform .tooLong, []) := by
  have dropped := Outbound.transmitNext_cons queued
  rw [if_neg long] at dropped
  rw [loopback]
  split
  · rename_i next
    rw [dropped] at next
    cases next
  · rename_i next
    rw [dropped] at next
    cases next
    rfl

/-- Every frame that is sent back is taken off the queue and all of its transfers arrive. -/
theorem loopback_performs (split : Nat) (queued : nic.outbound.channel.items = queue) :
    nic.Performs (Act.loopback nic.outbound.frame split queue) (nic.loopback split).1 := by
  induction queue generalizing nic with
  | nil =>
    rw [loopback_nil split queued]
    exact .nil
  | cons p queue ih =>
    have nonempty : nic.outbound.channel.items ≠ [] := by
      rw [queued]
      exact List.cons_ne_nil _ _
    rw [Act.loopback]
    by_cases fits : (nic.outbound.frame p).length ≤ maxFrame
    · have left : nic.outbound.channel.rest.items = queue := congrArg List.tail queued
      rw [if_pos fits, loopback_cons split queued fits]
      exact .cons nonempty ((Performs.arrivals _ _).trans (ih left))
    · rw [if_neg fits, loopback_tooLong split queued fits]
      exact .single nonempty

end
end Nic

/-- A loop-back is made of other calls. -/
def UsbCall.isSingle : UsbCall → Bool
  | loopback _ => false
  | receive _ | receiveFailed _ | transmit _ | transmitDone | transmitNext | pollTransmit
  | reset => true

/-- What a single call of the bus side comes to, and what it answers. -/
inductive UsbCall.Answers (nic : Nic) : UsbCall → Option Act → UsbReply → Prop where
  | received : Answers nic (.receive transfer) (some (.arrive (.transfer transfer))) .done
  | failed : Answers nic (.receiveFailed e) (some (.arrive (.failed e))) (.fault (.error e))
  | reset : Answers nic .reset (some (.arrive .reset)) .done
  | idle : nic.outbound.channel.items = [] → Answers nic (.transmit room) none (.frame none)
  | framed : nic.outbound.channel.items = p :: queue → (nic.outbound.frame p).length ≤ room →
      Answers nic (.transmit room) none (.frame (some (nic.outbound.frame p)))
  | tooLong : nic.outbound.channel.items = p :: queue →
      ¬(nic.outbound.frame p).length ≤ room →
      Answers nic (.transmit room) (some .tooLong) (.fault (.error .noSpace))
  | astray : nic.outbound.channel.items = [] → Answers nic .transmitDone none (.fault .misuse)
  | sent : nic.outbound.channel.items = p :: queue →
      Answers nic .transmitDone (some .sent) .done
  | nextIdle : nic.outbound.channel.items = [] → Answers nic .transmitNext none (.frame none)
  | nextSent : nic.outbound.channel.items = p :: queue →
      (nic.outbound.frame p).length ≤ maxFrame →
      Answers nic .transmitNext (some .sent) (.frame (some (nic.outbound.frame p)))
  | nextTooLong : nic.outbound.channel.items = p :: queue →
      ¬(nic.outbound.frame p).length ≤ maxFrame →
      Answers nic .transmitNext (some .tooLong) (.fault (.error .noSpace))
  | pending : nic.outbound.channel.items = [] →
      Answers nic .pollTransmit (some .awaitFrame) (.ready false)
  | ready : nic.outbound.channel.items = p :: queue →
      Answers nic .pollTransmit none (.ready true)

namespace UsbCall
variable {nic : Nic} {call : UsbCall} {act : Option Act} {reply : UsbReply}

theorem answers (nic : Nic) (single : call.isSingle = true) :
    ∃ act, call.Answers nic act (call.run nic).2 ∧ call.acts nic = act.toList ∧
      (call.run nic).1 = act.elim nic nic.perform := by
  cases call with
  | loopback => cases single
  | receive => exact ⟨_, .received, rfl, rfl⟩
  | receiveFailed => exact ⟨_, .failed, rfl, rfl⟩
  | reset => exact ⟨_, .reset, rfl, rfl⟩
  | transmit room =>
    cases queued : nic.outbound.channel.items with
    | nil =>
      simp only [acts, run, Outbound.transmit_nil room queued]
      exact ⟨_, .idle queued, rfl, rfl⟩
    | cons p queue =>
      by_cases fits : (nic.outbound.frame p).length ≤ room
      · simp only [acts, run, Outbound.transmit_cons room queued, if_pos fits]
        exact ⟨_, .framed queued fits, rfl, rfl⟩
      · simp only [acts, run, Outbound.transmit_cons room queued, if_neg fits]
        exact ⟨_, .tooLong queued fits, rfl, rfl⟩
  | transmitDone =>
    cases queued : nic.outbound.channel.items with
    | nil =>
      simp only [acts, run, Channel.isEmpty, Outbound.transmitDone?, Channel.pop?_nil queued, queued]
      exact ⟨_, .astray queued, rfl, rfl⟩
    | cons p queue =>
      simp only [acts, run, Channel.isEmpty, Outbound.transmitDone?, Channel.pop?_cons queued, queued]
      exact ⟨_, .sent queued, rfl, rfl⟩
  | transmitNext =>
    cases queued : nic.outbound.channel.items with
    | nil =>
      simp only [acts, run, Outbound.transmitNext, Outbound.transmit_nil maxFrame queued]
      exact ⟨_, .nextIdle queued, rfl, rfl⟩
    | cons p queue =>
      by_cases fits : (nic.outbound.frame p).length ≤ maxFrame
      · simp only [acts, run, Outbound.transmitNext_cons queued, if_pos fits]
        exact ⟨_, .nextSent queued fits, rfl, rfl⟩
      · simp only [acts, run, Outbound.transmitNext_cons queued, if_neg fits]
        exact ⟨_, .nextTooLong queued fits, rfl, rfl⟩
  | pollTransmit =>
    obtain ⟨inbound, ⟨_, _, _, ⟨_, items, _, _⟩, _, _⟩⟩ := nic
    cases items with
    | nil => exact ⟨_, .pending rfl, rfl, rfl⟩
    | cons p queue => exact ⟨_, .ready rfl, rfl, rfl⟩

theorem Answers.allows (answers : call.Answers nic act reply) : ∀ a ∈ act, nic.Allows a := by
  have nonempty {p : Packet} {queue : List Packet}
      (queued : nic.outbound.channel.items = p :: queue) : nic.outbound.channel.items ≠ [] :=
    queued ▸ List.cons_ne_nil p queue
  rintro a rfl
  cases answers with
  | received | failed | reset => trivial
  | tooLong queued | sent queued | nextSent queued | nextTooLong queued => exact nonempty queued
  | pending empty => exact empty

theorem performs (nic : Nic) (call : UsbCall) :
    nic.Performs (call.acts nic) (call.run nic).1 := by
  cases single : call.isSingle with
  | true =>
    obtain ⟨act, answers, acts, ran⟩ := call.answers nic single
    rw [acts, ran]
    exact .option answers.allows
  | false =>
    cases call with
    | loopback split => exact Nic.loopback_performs split rfl
    | receive | receiveFailed | reset | transmit | transmitDone | transmitNext | pollTransmit =>
      cases single

end UsbCall

/-- Where each attempt performs its acts, so does the wait. -/
theorem Nic.await_performs {poll : Nic → Nic × Option α} {acts : Nic → List Act}
    (polled : ∀ nic : Nic, nic.Performs (acts nic) (poll nic).1) (nic : Nic)
    (calls : List UsbCall) :
    nic.Performs (nic.awaitActs poll acts calls) (nic.await poll calls).1 := by
  induction calls generalizing nic with
  | nil => exact polled nic
  | cons call calls ih =>
    have attempt := polled nic
    unfold awaitActs await
    split
    · rename_i ready
      rw [ready] at attempt ⊢
      exact attempt
    · rename_i pending waits
      rw [waits] at attempt ⊢
      exact (attempt.trans (call.performs pending)).trans (ih _)

/-- A wait with calls during it is made of these and of attempts. -/
def StackCall.isSingle : StackCall → Bool
  | sendWait _ _ calls | inboundWait calls => calls.isEmpty
  | send .. | head | done | pop | info => true

/-- What a single call of the stack comes to, and what it answers. -/
inductive StackCall.Answers (nic : Nic) : StackCall → Option Act → StackReply → Prop where
  | queued : nic.outbound.channel.isFull = false →
      Packet.fits ⟨.ofProto proto, pieces.flatten⟩ = true →
      Answers nic (.send proto pieces) (some (.accept ⟨.ofProto proto, pieces.flatten⟩)) .done
  | dropped : nic.outbound.channel.isFull = true →
      Answers nic (.send proto pieces) (some .refuse) (.fault (.error .noSpace))
  | unfit : Answers nic (.send proto pieces) none (.fault (.error .noSpace))
  | attempted : nic.SendAttempt ⟨.ofProto proto, pieces.flatten⟩ act result →
      Answers nic (.sendWait proto pieces []) act (.sendWait ⟨result, []⟩)
  | unadmitted :
      Answers nic (.sendWait proto pieces []) none (.sendWait ⟨some (.error .noSpace), []⟩)
  | pending : nic.inbound.channel.items = [] →
      Answers nic (.inboundWait []) (some .awaitPacket) (.inboundWait ⟨none, []⟩)
  | found : nic.inbound.channel.items = p :: queue →
      Answers nic (.inboundWait []) none (.inboundWait ⟨some p, []⟩)
  | seen : Answers nic .head none (.packet nic.inbound.head?)
  | astray : nic.inbound.channel.items = [] → Answers nic .done none (.fault .misuse)
  | taken : nic.inbound.channel.items = p :: queue → Answers nic .done (some .take) .done
  | none : nic.inbound.channel.items = [] → Answers nic .pop none (.packet none)
  | popped : nic.inbound.channel.items = p :: queue →
      Answers nic .pop (some .take) (.packet (some p))
  | info : Answers nic .info none (.info nic.outbound.mtu nic.outbound.deviceMac)

namespace StackCall
variable {nic : Nic} {call : StackCall} {act : Option Act} {reply : StackReply}

theorem answers (nic : Nic) (single : call.isSingle = true) :
    ∃ act, call.Answers nic act (call.run nic).2 ∧ call.acts nic = act.toList ∧
      (call.run nic).1 = act.elim nic nic.perform := by
  cases call with
  | head => exact ⟨_, .seen, rfl, rfl⟩
  | info => exact ⟨_, .info, rfl, rfl⟩
  | send proto pieces =>
    simp only [acts, run, Outbound.sendActs, Outbound.send]
    by_cases admitted : nic.outbound.admits pieces = true
    · cases full : nic.outbound.channel.isFull with
      | true =>
        simp only [admitted, if_true, Bool.and_self]
        exact ⟨_, .dropped full, rfl, rfl⟩
      | false =>
        simp only [admitted, Bool.false_eq_true, if_true, if_false, Bool.and_false]
        rcases Outbound.store_cases proto pieces full with stored | ⟨fits, stored⟩
        · rw [stored]
          exact ⟨_, .unfit, rfl, rfl⟩
        · rw [stored]
          exact ⟨_, .queued full fits, rfl, rfl⟩
    · simp only [admitted, Bool.false_eq_true, if_false, Bool.false_and]
      exact ⟨_, .unfit, rfl, rfl⟩
  | sendWait proto pieces calls =>
    obtain rfl := List.isEmpty_iff.mp single
    by_cases admitted : nic.outbound.admits pieces = true
    · obtain ⟨act, result, attempt, acts, polled⟩ := nic.pollSend_spec proto pieces
      have ran : nic.sendWait proto pieces [] =
          ((nic.pollSend proto pieces).1, ⟨(nic.pollSend proto pieces).2, []⟩) := by
        rw [Nic.sendWait, if_pos admitted]
        rfl
      simp only [StackCall.acts, run, if_pos admitted, ran, polled]
      exact ⟨_, .attempted attempt, acts, rfl⟩
    · simp only [acts, run, Nic.sendWait, if_neg admitted]
      exact ⟨_, .unadmitted, rfl, rfl⟩
  | inboundWait calls =>
    obtain rfl := List.isEmpty_iff.mp single
    have ran : nic.inboundWait [] = (nic.pollInbound.1, ⟨nic.pollInbound.2, []⟩) := rfl
    rcases nic.pollInbound_spec with ⟨empty, acts, polled⟩ | ⟨_, _, queued, acts, polled⟩
    · simp only [run, ran, polled]
      exact ⟨_, .pending empty, acts, rfl⟩
    · simp only [run, ran, polled]
      exact ⟨_, .found queued, acts, rfl⟩
  | done =>
    cases queued : nic.inbound.channel.items with
    | nil =>
      simp only [acts, run, Channel.isEmpty, Inbound.done?, Channel.pop?_nil queued, queued]
      exact ⟨_, .astray queued, rfl, rfl⟩
    | cons p queue =>
      simp only [acts, run, Channel.isEmpty, Inbound.done?, Channel.pop?_cons queued, queued]
      exact ⟨_, .taken queued, rfl, rfl⟩
  | pop =>
    cases queued : nic.inbound.channel.items with
    | nil =>
      simp only [acts, run, Channel.isEmpty, Inbound.pop, Channel.pop?_nil queued, queued]
      exact ⟨_, .none queued, rfl, rfl⟩
    | cons p queue =>
      simp only [acts, run, Channel.isEmpty, Inbound.pop, Channel.pop?_cons queued, queued]
      exact ⟨_, .popped queued, rfl, rfl⟩

theorem Answers.allows (answers : call.Answers nic act reply) : ∀ a ∈ act, nic.Allows a := by
  have nonempty {p : Packet} {queue : List Packet}
      (queued : nic.inbound.channel.items = p :: queue) : nic.inbound.channel.items ≠ [] :=
    queued ▸ List.cons_ne_nil p queue
  rintro a rfl
  cases answers with
  | queued room fits => exact ⟨room, fits⟩
  | dropped full => exact full
  | attempted attempt => exact attempt.allows a rfl
  | pending empty => exact empty
  | taken queued | popped queued => exact nonempty queued

theorem performs (nic : Nic) (call : StackCall) :
    nic.Performs (call.acts nic) (call.run nic).1 := by
  cases single : call.isSingle with
  | true =>
    obtain ⟨act, answers, acts, ran⟩ := call.answers nic single
    rw [acts, ran]
    exact .option answers.allows
  | false =>
    cases call with
    | send | head | done | pop | info => cases single
    | inboundWait calls => exact Nic.await_performs Nic.pollInbound_performs nic calls
    | sendWait proto pieces calls =>
      by_cases admitted : nic.outbound.admits pieces = true
      · simp only [acts, run, Nic.sendWait, if_pos admitted]
        exact Nic.await_performs (fun nic => nic.pollSend_performs proto pieces) nic calls
      · simp only [acts, run, Nic.sendWait, if_neg admitted]
        exact .nil

end StackCall
end UsbEthernet
