import UsbEthernet.Proofs.Usb.Sending

/-! The announcement of the connection, where no write fails but for want of a host. The loop
learns of a detach only from a write, so after a detach it announces the next attach just where a
packet waits by then; a device that is replugged with nothing to send stays unannounced. -/
namespace UsbEthernet

/-- Whether the action lets a later write fail while a host is attached. -/
def DeviceAction.isFault : DeviceAction → Bool
  | .host (.failIn (some _)) | .host (.failNotify (_ + 1)) => true
  | _ => false

namespace Uplink

/-- The announcement that the network is connected. -/
def notice (u : Uplink) : InEvent :=
  .notified (connectionNotice u.interface true)

theorem count_notice_eq_zero {events : List InEvent} (u : Uplink)
    (quiet : ∀ n, .notified n ∉ events) : events.count u.notice = 0 :=
  List.count_eq_zero.mpr (quiet _)

/-- No failure of a write is pending. -/
def Sound (u : Uplink) : Prop :=
  u.pipe.failIn = none ∧ u.pipe.failNotify = 0

variable {attached : Bool} {u v : Uplink} {events : List InEvent} {written : List Bytes}

theorem Move.sound (h : Move attached u v events) (sound : u.Sound) : v.Sound := by
  obtain ⟨failIn, failNotify⟩ := sound
  cases h with
  | announce | start | drop | finish | off => exact ⟨failIn, failNotify⟩
  | unheard _ _ failing => simp [failing] at failNotify
  | write => exact ⟨by simp [failIn], failNotify⟩
  | fail _ _ broken => simp [broken] at failIn

theorem Move.notice_eq (h : Move attached u v events) : v.notice = u.notice := by
  cases h <;> rfl

theorem runs_waiting (h : (loop attached).Runs u events v) (waits : u.Waits attached) :
    events = [] ∧ v = u := by
  cases h with
  | wait => exact ⟨rfl, rfl⟩
  | next stepped _ =>
    have stuck := waits.step
    rw [show u.step attached = _ from stepped] at stuck
    cases stuck

/-- Once it has announced the connection, the loop does not do so again while nothing fails. -/
theorem runs_announced (h : (loop true).Runs u events v) (sound : u.Sound)
    (announced : u.phase ≠ .silent) : v.phase ≠ .silent ∧ ∀ n, .notified n ∉ events := by
  induction h with
  | wait => exact ⟨announced, by simp⟩
  | next stepped _ ih =>
    have move := step_eq_some_iff.mp stepped
    have kept := move.sound sound
    cases move with
    | announce silent | unheard silent => exact absurd silent announced
    | start | finish | write => simpa using ih kept (by simp)
    | drop => simpa using ih kept announced
    | off _ away => cases away
    | fail _ _ broken => simp [sound.1] at broken

theorem runs_silent (h : (loop true).Runs u events v) (sound : u.Sound)
    (silent : u.phase = .silent) :
    v.phase ≠ .silent ∧ ∃ rest, events = u.notice :: rest ∧ ∀ n, .notified n ∉ rest := by
  cases h with
  | wait stuck =>
    cases step_eq_none_iff.mp stuck with
    | host _ away => cases away
    | packet other | astray other | budget other => rw [silent] at other; cases other
  | next stepped rest =>
    have move := step_eq_some_iff.mp stepped
    have kept := move.sound sound
    cases move with
    | announce =>
      obtain ⟨phase, quiet⟩ := runs_announced rest kept (by simp)
      exact ⟨phase, _, rfl, quiet⟩
    | unheard _ _ failing => simp [sound.2] at failing
    | start other | drop other | finish other | write other | off other | fail other =>
      rw [silent] at other
      cases other

theorem runs_away (h : (loop false).Runs u events v) : ∀ n, .notified n ∉ events := by
  induction h with
  | wait => simp
  | next stepped _ ih =>
    cases step_eq_some_iff.mp stepped with
    | announce _ there => cases there
    | unheard _ there | write _ there | fail _ there => cases there
    | start | drop | finish => simpa using ih
    | off => simpa using ih

/-- Without a host the loop ends up silent just where it holds a packet: a frame of that packet
has found no host. -/
theorem runs_away_phase (h : (loop false).Runs u events v) (begun : u.Written written)
    (held : u.phase = .silent → u.items ≠ []) : v.phase = .silent ↔ v.items ≠ [] := by
  induction h generalizing written with
  | wait stuck =>
    cases step_eq_none_iff.mp stuck with
    | host silent => exact ⟨held, fun _ => silent⟩
    | packet ready empty => simp [ready, empty]
    | astray done empty => exact absurd empty (begun.items_ne_nil done)
    | budget _ there => cases there
  | next stepped _ ih =>
    have move := step_eq_some_iff.mp stepped
    obtain ⟨_, _, serves, _⟩ := move.serves begun
    apply ih serves.open_attempt
    cases move with
    | announce _ there | unheard _ there | write _ there | fail _ there => cases there
    | start | finish => simp
    | drop ready => simp [ready]
    | off writing =>
      -- The loop falls silent within a frame only, and the packet of that frame is still queued.
      exact fun _ => begun.items_ne_nil writing

end Uplink

/-- The time from an attach to the next detach. -/
structure Period where
  /-- No host was attached before. -/
  first : Bool
  /-- The packets that wait for the host when it comes. -/
  waiting : List Packet
  /-- What is written to the host. -/
  sent : List InEvent

namespace Period

/-- The attach is the first one or finds a packet queued. -/
def IsAwaited (p : Period) : Prop :=
  p.first = true ∨ p.waiting ≠ []

instance (p : Period) : Decidable p.IsAwaited :=
  inferInstanceAs (Decidable (_ ∨ _))

end Period

namespace Device

/-- The events of the writes up to the first action that leaves the device detached. -/
def sentAttached (d : Device) : List DeviceAction → List InEvent
  | [] => []
  | action :: rest =>
    if action.leaves d.attached then
      (d.turn action).2.sent ++ (d.turn action).1.sentAttached rest
    else []

/-- The periods that begin with the actions; `seen` tells whether a host was there before. -/
def periods (seen : Bool) (d : Device) : List DeviceAction → List Period
  | [] => []
  | action :: rest =>
    let later := (d.turn action).1.periods (seen || action.leaves d.attached) rest
    if !d.attached && action.leaves d.attached then
      ⟨!seen, d.uplink.items, d.sentAttached (action :: rest)⟩ :: later
    else later

/-- What is written to the host over a run. -/
def sent (d : Device) (actions : List DeviceAction) : List InEvent :=
  (d.history actions).flatMap fun entry => entry.2.sent

/-- The connection is announced as often as a host is attached, and in each period before the
first bulk transfer. -/
def Announces (d : Device) (actions : List DeviceAction) : Prop :=
  (d.sent actions).count d.uplink.notice = attachments d.attached actions ∧
    ∀ p ∈ d.periods false actions, ∀ before transfer after,
      p.sent = before ++ .data transfer :: after → d.uplink.notice ∈ before

/-- What holds between turns while nothing fails. Without a host the loop waits for one before the
first attach, and later just where a packet is queued. -/
structure Settled (seen : Bool) (d : Device) : Prop where
  sound : d.uplink.Sound
  written : ∃ written, d.uplink.Written written
  away : d.attached = false → (d.uplink.phase = .silent ↔ (seen = true → d.uplink.items ≠ []))
  there : d.attached = true → seen = true ∧ d.uplink.phase ≠ .silent

theorem act_sound (d : Device) (action : DeviceAction) (fine : action.isFault = false)
    (sound : d.uplink.Sound) : (d.act action).1.uplink.Sound := by
  cases action with
  | host action =>
    cases action with
    | failIn after =>
      cases after with
      | none => exact ⟨rfl, sound.2⟩
      | some n => cases fine
    | failNotify count =>
      cases count with
      | zero => exact ⟨sound.1, rfl⟩
      | succ n => cases fine
    | attach | detach | out | outFailed | budget => exact sound
  | pop | limit | refuse | reset => exact sound
  | send proto pieces =>
    rcases d.uplink.outbound.send_cases proto pieces with ⟨dropped, refused⟩ | ⟨channel, taken, _⟩
    · rw [act, refused]
      exact sound
    · rw [act, taken]
      exact sound

theorem turn_notice (d : Device) (action : DeviceAction) :
    (d.turn action).1.uplink.notice = d.uplink.notice := by
  obtain ⟨pipe, channel, dropped, acted, _⟩ := d.act_uplink action
  have same : (d.act action).1.uplink.notice = d.uplink.notice := by
    rw [acted]
    rfl
  exact Uplink.runs_keep (P := (·.notice = d.uplink.notice))
    (fun move kept => move.notice_eq.trans kept) (d.turn_uplink action) same

/-- While the host stays away nothing is announced. -/
theorem turn_away (d : Device) (action : DeviceAction) (away : action.leaves d.attached = false) :
    ∀ n, .notified n ∉ (d.turn action).2.sent := by
  have runs := d.turn_uplink action
  rw [away] at runs
  exact Uplink.runs_away runs

/-- With a host the turn begins with the announcement where the loop waits for one, and announces
nothing elsewhere. -/
theorem turn_there {d : Device} {action : DeviceAction} (sound : d.uplink.Sound)
    (fine : action.isFault = false) (there : action.leaves d.attached = true) :
    (d.turn action).1.uplink.phase ≠ .silent ∧
      (d.uplink.phase = .silent → ∃ rest, (d.turn action).2.sent = d.uplink.notice :: rest ∧
        ∀ n, .notified n ∉ rest) ∧
      (d.uplink.phase ≠ .silent → ∀ n, .notified n ∉ (d.turn action).2.sent) := by
  have runs := d.turn_uplink action
  rw [there] at runs
  have kept := d.act_sound action fine sound
  obtain ⟨pipe, channel, dropped, acted, _⟩ := d.act_uplink action
  rw [acted] at runs kept
  by_cases silent : d.uplink.phase = .silent
  · obtain ⟨announced, rest, sent, quiet⟩ := Uplink.runs_silent runs kept silent
    exact ⟨announced, fun _ => ⟨rest, sent, quiet⟩, fun other => absurd silent other⟩
  · obtain ⟨announced, quiet⟩ := Uplink.runs_announced runs kept silent
    exact ⟨announced, fun other => absurd other silent, fun _ => quiet⟩

theorem Settled.turn {seen : Bool} {d : Device} {action : DeviceAction} (settled : d.Settled seen)
    (fine : action.isFault = false) :
    (d.turn action).1.Settled (seen || action.leaves d.attached) := by
  obtain ⟨written, begun⟩ := settled.written
  have runs := d.turn_uplink action
  have kept := d.act_sound action fine settled.sound
  have open_attempt := (d.act_serves action begun).1.open_attempt
  obtain ⟨pipe, channel, dropped, acted, queued⟩ := d.act_uplink action
  rw [acted] at runs kept open_attempt
  refine ⟨Uplink.runs_keep Uplink.Move.sound runs kept, ?_, ?_, ?_⟩
  · obtain ⟨_, unfinished, serves, _⟩ := Uplink.runs_serve runs open_attempt
    exact ⟨unfinished, serves.open_attempt⟩
  · intro away
    rw [turn_attached] at away
    rw [away] at runs ⊢
    rw [Bool.or_false]
    cases seen with
    | false =>
      -- Before the first attach the loop stays where it is.
      have left : d.attached = false := by
        cases there : d.attached with
        | false => rfl
        | true => cases (settled.there there).1
      have silent := (settled.away left).mpr (by simp)
      obtain ⟨_, same⟩ := Uplink.runs_waiting runs (.host silent rfl)
      simp [same, silent]
    | true =>
      have held : d.uplink.phase = .silent → channel.items ≠ [] := by
        intro silent empty
        rw [queued, List.append_eq_nil_iff] at empty
        cases there : d.attached with
        | true => exact (settled.there there).2 silent
        | false => exact (settled.away there).mp silent rfl empty.1
      simpa using Uplink.runs_away_phase runs open_attempt held
  · intro there
    rw [turn_attached] at there
    exact ⟨by rw [there, Bool.or_true], (turn_there settled.sound fine there).1⟩

/-- The loop waits for a host just at the start of a period that is awaited. -/
theorem Settled.awaited {seen : Bool} {d : Device} (settled : d.Settled seen)
    (away : d.attached = false) (sent : List InEvent) :
    d.uplink.phase = .silent ↔ (Period.mk (!seen) d.uplink.items sent).IsAwaited := by
  rw [settled.away away]
  cases seen <;> simp [Period.IsAwaited]

theorem sentAttached_quiet {seen : Bool} {d : Device} (settled : d.Settled seen)
    (there : d.attached = true) (actions : List DeviceAction)
    (fine : ∀ action ∈ actions, action.isFault = false) :
    ∀ n, .notified n ∉ d.sentAttached actions := by
  induction actions generalizing seen d with
  | nil => simp [sentAttached]
  | cons action actions ih =>
    obtain ⟨fine, others⟩ := List.forall_mem_cons.mp fine
    intro n
    rw [sentAttached]
    split
    · rename_i stays
      have turn := (turn_there settled.sound fine stays).2.2 (settled.there there).2 n
      have rest := ih (settled.turn fine) ((d.turn_attached action).trans stays) others n
      simp [turn, rest]
    · simp

/-- A period that is awaited begins with the announcement, its only one; any other has none. -/
theorem periods_spec {seen : Bool} {d : Device} (settled : d.Settled seen)
    (actions : List DeviceAction) (fine : ∀ action ∈ actions, action.isFault = false) :
    ∀ p ∈ d.periods seen actions,
      (p.IsAwaited → ∃ rest, p.sent = d.uplink.notice :: rest ∧ ∀ n, .notified n ∉ rest) ∧
      (¬p.IsAwaited → ∀ n, .notified n ∉ p.sent) := by
  induction actions generalizing seen d with
  | nil => simp [periods]
  | cons action actions ih =>
    obtain ⟨fine, others⟩ := List.forall_mem_cons.mp fine
    have next := settled.turn fine
    have later := ih next others
    rw [turn_notice] at later
    rw [periods]
    split
    · rename_i attaches
      simp only [Bool.and_eq_true, Bool.not_eq_true'] at attaches
      obtain ⟨away, there⟩ := attaches
      rw [List.forall_mem_cons]
      refine ⟨?_, later⟩
      rw [← settled.awaited away, sentAttached, if_pos there]
      obtain ⟨_, announced, unannounced⟩ := turn_there settled.sound fine there
      have quiet := sentAttached_quiet next ((d.turn_attached action).trans there) actions others
      constructor
      · intro silent
        obtain ⟨tail, sent, none⟩ := announced silent
        rw [sent]
        exact ⟨_, rfl, by simp [none, quiet]⟩
      · intro other n
        simp [unannounced other n, quiet n]
    · exact later

theorem length_periods (seen : Bool) (d : Device) (actions : List DeviceAction) :
    (d.periods seen actions).length = attachments d.attached actions := by
  induction actions generalizing seen d with
  | nil => rfl
  | cons action actions ih =>
    have later := ih (seen || action.leaves d.attached) (d.turn action).1
    rw [turn_attached] at later
    rw [periods, attachments, ← later]
    split
    · rename_i attaches
      rw [attaches, List.length_cons, Bool.toNat_true, Nat.add_comm]
    · rename_i same
      rw [Bool.not_eq_true] at same
      rw [same, Bool.toNat_false, Nat.zero_add]

/-- A turn announces the connection once where an awaited period begins, and otherwise not. -/
theorem count_turn {seen : Bool} {d : Device} {action : DeviceAction} (settled : d.Settled seen)
    (fine : action.isFault = false) (sent : List InEvent) :
    (d.turn action).2.sent.count d.uplink.notice =
      (!d.attached && action.leaves d.attached &&
        decide (Period.mk (!seen) d.uplink.items sent).IsAwaited).toNat := by
  cases there : action.leaves d.attached with
  | false =>
    rw [Uplink.count_notice_eq_zero _ (d.turn_away action there), Bool.and_false, Bool.false_and]
    rfl
  | true =>
    obtain ⟨_, announced, unannounced⟩ := turn_there settled.sound fine there
    cases before : d.attached with
    | true =>
      rw [Uplink.count_notice_eq_zero _ (unannounced (settled.there before).2)]
      rfl
    | false =>
      simp only [← settled.awaited before sent]
      by_cases silent : d.uplink.phase = .silent
      · obtain ⟨rest, sent, none⟩ := announced silent
        rw [sent, List.count_cons_self, Uplink.count_notice_eq_zero _ none]
        simp [silent]
      · rw [Uplink.count_notice_eq_zero _ (unannounced silent)]
        simp [silent]

theorem count_notice {seen : Bool} {d : Device} (settled : d.Settled seen)
    (actions : List DeviceAction) (fine : ∀ action ∈ actions, action.isFault = false) :
    (d.sent actions).count d.uplink.notice =
      (d.periods seen actions).countP (decide ·.IsAwaited) := by
  induction actions generalizing seen d with
  | nil => rfl
  | cons action actions ih =>
    obtain ⟨fine, others⟩ := List.forall_mem_cons.mp fine
    have later := ih (settled.turn fine) others
    rw [turn_notice] at later
    rw [sent, history_cons, List.flatMap_cons, List.count_append,
      count_turn settled fine (d.sentAttached (action :: actions)), periods]
    have rest : (((d.turn action).1.history actions).flatMap fun entry => entry.2.sent).count
      d.uplink.notice = _ := later
    rw [rest]
    split
    · rename_i attaches
      rw [attaches, Bool.true_and, List.countP_cons, Nat.add_comm, Bool.toNat, Bool.cond_eq_ite]
    · rename_i same
      rw [Bool.not_eq_true] at same
      rw [same, Bool.false_and, Bool.toNat_false, Nat.zero_add]

theorem initial_settled (config : Config) (mtu interface inboundRoom outboundRoom : Nat) :
    (initial config mtu interface inboundRoom outboundRoom).Settled false where
  sound := ⟨rfl, rfl⟩
  written := ⟨[], rfl⟩
  away := by simp [initial]
  there := by simp [initial]

/-- Over a run of a new device in which nothing fails, just the awaited periods are announced:
the first one, and each that begins with a packet queued. So the connection is announced on every
attach where each attach after the first finds a packet. -/
theorem run_announces {settings : Settings} {strings interfaces inboundRoom outboundRoom : Nat}
    {d : Device}
    (created : create settings strings interfaces inboundRoom outboundRoom = .ok d)
    (actions : List DeviceAction) (fine : ∀ action ∈ actions, action.isFault = false) :
    let notice := InEvent.notified (connectionNotice interfaces true)
    (∀ p ∈ d.periods false actions,
      (p.IsAwaited → ∃ rest, p.sent = notice :: rest ∧ ∀ n, .notified n ∉ rest) ∧
      (¬p.IsAwaited → ∀ n, .notified n ∉ p.sent)) ∧
    (d.sent actions).count notice = (d.periods false actions).countP (decide ·.IsAwaited) ∧
    (d.Announces actions ↔ ∀ p ∈ d.periods false actions, p.IsAwaited) := by
  intro notice
  obtain ⟨config, _, _, _, rfl⟩ := create_initial created
  have settled := initial_settled config settings.mtu interfaces inboundRoom outboundRoom
  have spec := periods_spec settled actions fine
  have count := count_notice settled actions fine
  refine ⟨spec, count, ?_⟩
  rw [Announces, count, ← length_periods false, List.countP_eq_length]
  simp only [decide_eq_true_eq, and_iff_left_iff_imp]
  intro awaited p mem before transfer after split
  obtain ⟨rest, sent, _⟩ := (spec p mem).1 (awaited p mem)
  rw [split] at sent
  cases before with
  | nil => cases sent
  | cons event before =>
    rw [List.cons_append, List.cons.injEq] at sent
    rw [sent.1]
    exact List.mem_cons_self

/-- A host that goes away within a frame meets the announcement when it is back. -/
theorem run_announces_after_lost_frame :
    let config : Config := ⟨⟨0x1a, 0x55, 0x89, 0xa2, 0x69, 0x41⟩,
      ⟨0x1a, 0x55, 0x89, 0xa2, 0x69, 0x42⟩, 14, by decide, by decide⟩
    let d := initial config 1500 0 1 1
    let actions : List DeviceAction := [.host .attach, .host (.budget (some 0)),
      .send .ipv4 [[1]], .host .detach, .host .attach]
    create { maxPacket := 14 } 0 0 1 1 = .ok d ∧
      (∀ action ∈ actions, action.isFault = false) ∧
      attachments d.attached actions = 2 ∧ d.Announces actions := by
  intro config d actions
  have created : create { maxPacket := 14 } 0 0 1 1 = .ok d := rfl
  have fine : ∀ action ∈ actions, action.isFault = false := by decide
  have awaited : (d.periods false actions).all (decide ·.IsAwaited) = true := by cbv
  refine ⟨created, fine, rfl, (run_announces created actions fine).2.2.mpr ?_⟩
  simpa using awaited

/-- A replugged device with nothing to send stays unannounced. -/
theorem not_announces_replugged :
    ¬∀ (settings : Settings) (strings interfaces inboundRoom outboundRoom : Nat) (d : Device),
      create settings strings interfaces inboundRoom outboundRoom = .ok d →
      ∀ actions, (∀ action ∈ actions, action.isFault = false) → d.Announces actions := by
  intro always
  let config : Config := ⟨⟨0x1a, 0x55, 0x89, 0xa2, 0x69, 0x41⟩,
    ⟨0x1a, 0x55, 0x89, 0xa2, 0x69, 0x42⟩, 512, by decide, by decide⟩
  let d := initial config 1500 0 1 1
  let actions : List DeviceAction := [.host .attach, .host .detach, .host .attach]
  have created : create {} 0 0 1 1 = .ok d := rfl
  have announced := (always {} 0 0 1 1 d created actions (by decide)).1
  have count : (d.sent actions).count d.uplink.notice = 1 := by cbv
  rw [count] at announced
  cases announced

end Device
end UsbEthernet
