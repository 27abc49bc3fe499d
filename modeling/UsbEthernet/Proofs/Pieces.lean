import UsbEthernet.Proofs.Expansion

/-! Packets that the stack gives in pieces. Nothing matters but what the pieces come to together: it
is queued whole, as one packet, or not at all. What the link admits has room in a queue slot
however it is cut, so writing the slot never fails. -/
namespace UsbEthernet

namespace Outbound
variable {o : Outbound} {pieces others : List Bytes}

theorem admits_iff : o.admits pieces = true ↔ pieces.flatten.length ≤ o.mtu := by
  rw [admits, decide_eq_true_iff, ← List.sum_eq_foldl, List.length_flatten]

theorem admits_congr (same : others.flatten = pieces.flatten) :
    o.admits others = o.admits pieces := by
  rw [Bool.eq_iff_iff, admits_iff, admits_iff, same]

/-- The two lengths agree: that of the sum, against the limit of the link, and that of the pieces
one behind the other, against the room of a slot. -/
theorem gather_admitted (bounded : o.mtu ≤ maxPayload) (fits : pieces.flatten.length ≤ o.mtu) :
    Bytes.gather? maxPayload pieces = some pieces.flatten := by
  rw [Bytes.gather?_eq, if_pos (Nat.le_trans fits bounded)]

theorem store_admitted (bounded : o.mtu ≤ maxPayload) (fits : pieces.flatten.length ≤ o.mtu)
    (room : o.channel.isFull = false) (proto : EtherType) :
    o.store proto pieces = (o.perform (.accept ⟨.ofProto proto, pieces.flatten⟩), .ok ()) := by
  simp only [store, gather_admitted bounded fits, Channel.push?, room, Bool.false_eq_true, if_false]
  rfl

theorem store_congr (same : others.flatten = pieces.flatten) (proto : EtherType) :
    o.store proto others = o.store proto pieces := by
  simp only [store, Bytes.gather?_eq, same]

theorem send_congr (same : others.flatten = pieces.flatten) (proto : EtherType) :
    o.send proto others = o.send proto pieces := by
  rw [send, send, admits_congr same, store_congr same]

theorem pollSend_congr (same : others.flatten = pieces.flatten) (proto : EtherType) :
    o.pollSend proto others = o.pollSend proto pieces := by
  simp only [pollSend, store_congr same]

end Outbound

namespace Nic
variable {nic : Nic} {proto : EtherType} {pieces others : List Bytes}

theorem sendWait_congr (same : others.flatten = pieces.flatten) (calls : List UsbCall) :
    nic.sendWait proto others calls = nic.sendWait proto pieces calls := by
  simp only [sendWait, Outbound.admits_congr same, Outbound.pollSend_congr same]

theorem pollSend_admitted (bounded : nic.outbound.mtu ≤ maxPayload)
    (fits : pieces.flatten.length ≤ nic.outbound.mtu) :
    nic.pollSend proto pieces =
      if nic.outbound.channel.isFull then (nic.perform .awaitRoom, none)
      else (nic.perform (.accept ⟨.ofProto proto, pieces.flatten⟩), some (.ok ())) := by
  cases full : nic.outbound.channel.isFull with
  | true =>
    simp only [pollSend, Outbound.pollSend, Channel.pollPush, full, if_true]
    rfl
  | false =>
    simp only [pollSend, Outbound.pollSend, Channel.pollPush, full, Bool.false_eq_true, if_false,
      Outbound.store_admitted bounded fits full]
    rfl

/-- A wait with what the link admits is given up or ends with the packet queued. -/
theorem await_admitted (bounded : nic.outbound.mtu ≤ maxPayload)
    (fits : pieces.flatten.length ≤ nic.outbound.mtu) (calls : List UsbCall) :
    (nic.await (pollSend proto pieces) calls).2.result = none ∨
    (nic.await (pollSend proto pieces) calls).2.result = some (.ok ()) ∧
      ∃ queue, (nic.await (pollSend proto pieces) calls).1.outbound.channel.items =
        queue ++ [⟨.ofProto proto, pieces.flatten⟩] := by
  induction calls generalizing nic with
  | nil =>
    simp only [await, pollSend_admitted bounded fits]
    split
    · exact .inl rfl
    · exact .inr ⟨rfl, _, rfl⟩
  | cons call calls ih =>
    simp only [await, pollSend_admitted bounded fits]
    cases nic.outbound.channel.isFull with
    | true =>
      -- The calls during the wait leave the limit of the link as it is.
      have kept := (call.performs (nic.perform .awaitRoom)).mtu
      exact ih (kept ▸ bounded) (kept ▸ fits)
    | false => exact .inr ⟨rfl, _, rfl⟩

theorem sendWait_admitted (fits : pieces.flatten.length ≤ nic.outbound.mtu)
    (calls : List UsbCall) :
    nic.sendWait proto pieces calls = nic.await (pollSend proto pieces) calls := by
  rw [sendWait, if_pos (Outbound.admits_iff.mpr fits)]
  rfl

theorem sendWait_unadmitted (long : ¬pieces.flatten.length ≤ nic.outbound.mtu)
    (calls : List UsbCall) :
    nic.sendWait proto pieces calls = (nic, ⟨some (.error .noSpace), []⟩) :=
  if_neg (mt Outbound.admits_iff.mp long)

theorem run_send (bounded : nic.outbound.mtu ≤ maxPayload) :
    (StackCall.send proto pieces).run nic =
      if pieces.flatten.length ≤ nic.outbound.mtu then
        if nic.outbound.channel.isFull then (nic.perform .refuse, .fault (.error .noSpace))
        else (nic.perform (.accept ⟨.ofProto proto, pieces.flatten⟩), .done)
      else (nic, .fault (.error .noSpace)) := by
  by_cases fits : pieces.flatten.length ≤ nic.outbound.mtu
  · simp only [StackCall.run, Outbound.send, Outbound.admits_iff.mpr fits, fits, if_true]
    cases full : nic.outbound.channel.isFull with
    | true => rfl
    | false =>
      simp only [Bool.false_eq_true, if_false, Outbound.store_admitted bounded fits full]
      rfl
  · simp only [StackCall.run, Outbound.send, if_neg (mt Outbound.admits_iff.mp fits), if_neg fits]
    rfl

/-- On a link whose limit a slot has room for: a packet in pieces is queued whole just where it is
within the limit and the queue is not full; otherwise there is no space, nothing else changes, and
the packet is counted as dropped just where it is within the limit. Once the packet is found to be
within the limit its slot is written without an error, with or without a wait. And pieces that
come to the same are all the same to the link. -/
theorem send_whole_or_nothing (bounded : nic.outbound.mtu ≤ maxPayload) (proto : EtherType)
    (pieces : List Bytes) :
    let payload := pieces.flatten
    let packet : Packet := ⟨.ofProto proto, payload⟩
    let answer := (StackCall.send proto pieces).run nic
    let fits := payload.length ≤ nic.outbound.mtu
    let full := nic.outbound.channel.isFull = true
    (answer.2 = .done ↔ fits ∧ ¬full) ∧
    (fits ∧ ¬full → answer.1 =
      { nic with
        outbound.channel.items := nic.outbound.channel.items ++ [packet]
        outbound.channel.consumer := nic.outbound.channel.consumer.fire }) ∧
    (¬(fits ∧ ¬full) → answer.2 = .fault (.error .noSpace) ∧ answer.1 =
      { nic with
        outbound.dropped := if fits ∧ full then nic.outbound.dropped + 1
          else nic.outbound.dropped }) ∧
    (fits → Bytes.gather? maxPayload pieces = some payload) ∧
    (∀ calls,
      let waited := nic.sendWait proto pieces calls
      (¬fits → waited = (nic, ⟨some (.error .noSpace), []⟩)) ∧
      (fits → waited.2.result = none ∨ waited.2.result = some (.ok ()) ∧
        ∃ queue, waited.1.outbound.channel.items = queue ++ [packet])) ∧
    ∀ others : List Bytes, others.flatten = payload →
      (StackCall.send proto others).run nic = answer ∧
      ∀ calls, nic.sendWait proto others calls = nic.sendWait proto pieces calls := by
  intro payload packet answer fits full
  have answered : answer = if fits then if full then (nic.perform .refuse, .fault (.error .noSpace))
      else (nic.perform (.accept packet), .done) else (nic, .fault (.error .noSpace)) :=
    run_send bounded
  refine ⟨?_, ?_, ?_, Outbound.gather_admitted bounded, ?_, ?_⟩
  · rw [answered]
    by_cases within : fits
    · by_cases filled : full <;> simp [within, filled]
    · simp [within]
  · rintro ⟨within, room⟩
    rw [answered, if_pos within, if_neg room]
    rfl
  · intro refused
    rw [answered]
    by_cases within : fits
    · have filled : full := Decidable.not_not.mp fun room => refused ⟨within, room⟩
      rw [if_pos within, if_pos filled, if_pos ⟨within, filled⟩]
      exact ⟨rfl, rfl⟩
    · rw [if_neg within, if_neg fun both => within both.1]
      exact ⟨rfl, rfl⟩
  · intro calls waited
    refine ⟨fun long => sendWait_unadmitted long calls, fun within => ?_⟩
    simp only [waited, sendWait_admitted within]
    exact await_admitted bounded within calls
  · intro others same
    refine ⟨?_, sendWait_congr same⟩
    simp only [answer, StackCall.run, Outbound.send_congr same]

/-- Pieces that come to just the limit, with empty ones among them and at the end. -/
theorem send_whole_or_nothing_at_limit :
    let mac : MacAddr := ⟨0x1a, 0x55, 0x89, 0xa2, 0x69, 0x41⟩
    let nic : Nic := ⟨⟨{ maxPacket := 64 }, { capacity := 1 }, 0⟩,
      { hostMac := mac, deviceMac := mac, mtu := 4, channel := { capacity := 1 } }⟩
    let pieces : List Bytes := [[1], [], [2, 3, 4], []]
    nic.outbound.mtu ≤ maxPayload ∧ ((StackCall.send .ipv4 pieces).run nic).2 = .done ∧
      (StackCall.send .ipv4 [[1, 2], [3, 4]]).run nic = (StackCall.send .ipv4 pieces).run nic := by
  intro mac nic pieces
  have bounded : nic.outbound.mtu ≤ maxPayload := by decide
  obtain ⟨queued, _, _, _, _, alike⟩ := nic.send_whole_or_nothing bounded .ipv4 pieces
  exact ⟨bounded, queued.mpr (by decide), (alike [[1, 2], [3, 4]] rfl).1⟩

end Nic
end UsbEthernet
