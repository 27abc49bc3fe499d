import UsbEthernet.Proofs.Act

/-! Runs of operations, cut where the interface was last built. What it counts has happened since
then, while its queues go back to the beginning. -/
namespace UsbEthernet

def Operation.isRebuild : Operation → Bool
  | rebuild _ => true
  | usb _ | stack _ => false

namespace Session

/-- What an operation comes to at the two queues. -/
def actsOf : Session → Operation → List Act
  | up nic, .usb call => call.acts nic
  | up nic, .stack call => call.acts nic
  | up _, .rebuild _ | down .., _ => []

def acts (session : Session) : List Operation → List Act
  | [] => []
  | op :: ops => session.actsOf op ++ (session.step op).1.acts ops

theorem run_cons (session : Session) (op : Operation) (ops : List Operation) :
    (session.run (op :: ops)).1 = ((session.step op).1.run ops).1 := rfl

theorem run_append (session : Session) (first second : List Operation) :
    (session.run (first ++ second)).1 = ((session.run first).1.run second).1 := by
  induction first generalizing session with
  | nil => rfl
  | cons op first ih => exact ih (session.step op).1

/-- An operation other than a build leaves the interface up and performs its acts. -/
theorem step_performs (nic : Nic) (op : Operation) (kept : op.isRebuild = false) :
    ∃ next, ((up nic).step op).1 = up next ∧ nic.Performs ((up nic).actsOf op) next := by
  cases op with
  | usb call => exact ⟨_, rfl, call.performs nic⟩
  | stack call => exact ⟨_, rfl, call.performs nic⟩
  | rebuild settings => cases kept

theorem run_performs (nic : Nic) {ops : List Operation} (kept : ∀ op ∈ ops, op.isRebuild = false) :
    ∃ last, ((up nic).run ops).1 = up last ∧ nic.Performs ((up nic).acts ops) last := by
  induction ops generalizing nic with
  | nil => exact ⟨nic, rfl, .nil⟩
  | cons op ops ih =>
    obtain ⟨first, kept⟩ := List.forall_mem_cons.mp kept
    obtain ⟨next, stepped, performed⟩ := step_performs nic op first
    obtain ⟨last, reached, rest⟩ := ih next kept
    refine ⟨last, ?_, ?_⟩
    · rw [run_cons, stepped]
      exact reached
    · rw [acts, stepped]
      exact performed.trans rest

theorem run_down (inbound outbound : Channel Packet) {ops : List Operation}
    (kept : ∀ op ∈ ops, op.isRebuild = false) :
    ((down inbound outbound).run ops).1 = down inbound outbound := by
  induction ops with
  | nil => rfl
  | cons op ops ih =>
    obtain ⟨first, later⟩ := List.forall_mem_cons.mp kept
    cases op with
    | usb | stack => exact ih later
    | rebuild settings => cases first

/-- A build succeeds on the queues there are, or leaves them without an interface. -/
theorem rebuild_cases (session : Session) (settings : Settings) :
    (∃ config nic, settings.config = .ok config ∧
      Nic.build config settings.mtu session.inboundChannel session.outboundChannel = .ok nic ∧
      (session.rebuild settings).1 = up nic) ∨
    (session.rebuild settings).1 = down session.inboundChannel session.outboundChannel := by
  unfold rebuild
  split
  · rename_i nic made
    obtain ⟨config, valid, built⟩ := Nic.ofSettings_built made
    exact .inl ⟨config, nic, valid, built, rfl⟩
  · exact .inr rfl

/-- An operation performs its acts on an interface, or leaves both queues alone. -/
theorem step_cases (session : Session) (op : Operation) :
    (∃ nic next, session = up nic ∧ (session.step op).1 = up next ∧
      nic.Performs (session.actsOf op) next) ∨
    session.actsOf op = [] ∧
      (session.step op).1.inboundChannel = session.inboundChannel ∧
      (session.step op).1.outboundChannel = session.outboundChannel := by
  cases op with
  | rebuild settings =>
    refine .inr ⟨by cases session <;> rfl, ?_⟩
    rcases session.rebuild_cases settings with ⟨config, nic, -, built, up⟩ | down
    · have stepped : (session.step (.rebuild settings)).1 = .up nic := up
      obtain ⟨-, rfl⟩ := Nic.eq_of_build built
      rw [stepped]
      exact ⟨rfl, rfl⟩
    · have stepped : (session.step (.rebuild settings)).1 = _ := down
      rw [stepped]
      exact ⟨rfl, rfl⟩
  | usb call =>
    cases session with
    | down inbound outbound => exact .inr ⟨rfl, rfl, rfl⟩
    | up nic => exact .inl ⟨nic, _, rfl, rfl, call.performs nic⟩
  | stack call =>
    cases session with
    | down inbound outbound => exact .inr ⟨rfl, rfl, rfl⟩
    | up nic => exact .inl ⟨nic, _, rfl, rfl, call.performs nic⟩

/-- In a run of the operations from `nic`, which has just been built with `settings`, `built` is
the interface as it was last built, and `after` is what was done since. -/
inductive LastBuilt (settings : Settings) (nic : Nic) :
    List Operation → Config → Nic → List Operation → Prop where
  | first : settings.config = .ok config → (∀ op ∈ after, op.isRebuild = false) →
      LastBuilt settings nic after config nic after
  | again : last.config = .ok config → (((up nic).run earlier).1.rebuild last).1 = up built →
      (∀ op ∈ after, op.isRebuild = false) →
      LastBuilt settings nic (earlier ++ .rebuild last :: after) config built after

/-- Without a rebuild the interface is as it was first built. -/
theorem LastBuilt.first_of_kept {settings : Settings} {config : Config} {nic built : Nic}
    {ops after : List Operation} (last : LastBuilt settings nic ops config built after)
    (kept : ∀ op ∈ ops, op.isRebuild = false) : settings.config = .ok config ∧ built = nic := by
  cases last with
  | first valid => exact ⟨valid, rfl⟩
  | again =>
    have rebuilt := kept (.rebuild _) (List.mem_append_right _ List.mem_cons_self)
    cases rebuilt

/-- Every run has a last rebuild or none. -/
theorem last_rebuild (ops : List Operation) :
    (∀ op ∈ ops, op.isRebuild = false) ∨
    ∃ earlier last after, ops = earlier ++ .rebuild last :: after ∧
      ∀ op ∈ after, op.isRebuild = false := by
  induction ops with
  | nil => exact .inl (by simp)
  | cons op ops ih =>
    rcases ih with kept | ⟨earlier, last, after, rfl, kept⟩
    · cases op with
      | rebuild settings => exact .inr ⟨[], settings, ops, rfl, kept⟩
      | usb | stack => exact .inl (List.forall_mem_cons.mpr ⟨rfl, kept⟩)
    · exact .inr ⟨op :: earlier, last, after, rfl, kept⟩

/-- An interface that is up was built at some time, and has performed the acts since then. -/
theorem exists_lastBuilt {settings : Settings} {inboundRoom outboundRoom : Nat} {nic current : Nic}
    (created : Nic.create settings inboundRoom outboundRoom = .ok nic) (ops : List Operation)
    (reached : ((up nic).run ops).1 = up current) :
    ∃ config built after, LastBuilt settings nic ops config built after ∧
      (∃ mtu inbound outbound, Nic.build config mtu inbound outbound = .ok built) ∧
      built.Performs ((up built).acts after) current := by
  rcases last_rebuild ops with kept | ⟨earlier, last, after, rfl, kept⟩
  · obtain ⟨config, valid, -, -, built⟩ := Nic.create_built created
    obtain ⟨_, same, performed⟩ := run_performs nic kept
    rw [same] at reached
    cases reached
    exact ⟨config, nic, ops, .first valid kept, ⟨_, _, _, built⟩, performed⟩
  · rw [run_append, run_cons] at reached
    rcases ((up nic).run earlier).1.rebuild_cases last with ⟨config, next, valid, built, up⟩ | down
    · obtain ⟨_, same, performed⟩ := run_performs next kept
      have stepped : (((Session.up nic).run earlier).1.step (.rebuild last)).1 = .up next := up
      rw [stepped, same] at reached
      cases reached
      exact ⟨config, next, after, .again valid up kept, ⟨_, _, _, built⟩, performed⟩
    · have stepped : (((up nic).run earlier).1.step (.rebuild last)).1 = _ := down
      rw [stepped, run_down _ _ kept] at reached
      cases reached

end Session
end UsbEthernet
