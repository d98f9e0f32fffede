import Scproxy.BootstrapSystem

namespace Scproxy

/-- What the supervisor uses of a command before it starts the broker, by the metadata of the
command: its listener and its probe, and a byte of its memory. -/
def probeUses (m : Metadata) (listener probe : Nat) : List BootUse :=
  [.got m.tid m.listener listener, .got m.tid m.probe probe, .tcp probe, .addfd listener probe,
    .memoryRead m.tid m.address 0x6e, .memoryWritten m.tid m.address 0x6e, .receiver listener]

def brokerUses (m : Metadata) (listener probe : Nat) : List BootUse :=
  probeUses m listener probe ++ [.broker listener]

/-- The supervisor has the metadata and has not started the broker. -/
def BootOwn.Starting (w : BootOwn) : Prop :=
  w.role = .supervisor ∧ ∃ m, w.phase = .told m

/-- Each process reads only at its own end while it has the other one closed, and waits for
another process with both closed. -/
def bootDiscipline : Discipline BootOperation BootOperation.Ret BootOwn where
  rely w v := v = w
  rely_trans _ _ _ huv hvw := hvw.trans huv
  guard
    | .forkReaper, w => w = ⟨.supervisor, true, true, .unforked, []⟩
    | .forkCommand, w => w = ⟨.reaper, false, true, .unforked, []⟩
    | .readExact .parent n, w => w = ⟨.supervisor, true, false, .early, []⟩ ∧ n = 20
    | .readExact .child n, w => (∃ m, w = ⟨.command, false, true, .told m, []⟩) ∧ n = 1
    | .writeAll .parent bytes, w => bytes = [1] ∧ ∃ m listener probe,
        w = ⟨.supervisor, true, false, .running m, brokerUses m listener probe⟩
    | .writeAll .child bytes, w =>
        w = ⟨.command, false, true, .early, []⟩ ∧ ∃ m, bytes = Metadata.encode m
    | .startBroker listener, w => ∃ m probe,
        w = ⟨.supervisor, true, false, .told m, probeUses m listener probe⟩
    | .get _ _, w | .isTcpV4 _, w | .readMemory _ _, w | .step (.probeAddfd _ _), w
    | .step (.writeMemory _ _ _), w | .step (.receiver _), w => w.Starting
    | .waitChild, w => w.role = .supervisor ∧ w.parent = false ∧ w.child = false
    | .waitTree, w => w.role = .reaper ∧ w.parent = false ∧ w.child = false
    | .step .verifyBootstrap, w | .exec _, w => ∃ m, w = ⟨.command, false, true, .ready m, []⟩
    | _, _ => True
  after op r w w' := w' = w.after op r

namespace BootShared

variable {α : Type}

def Keeps (Q : α → BootOwn → Prop) : BootProgram α → BootOwn → Prop := bootDiscipline.Spec Q

theorem keeps_perform {op : BootOperation} {next : op.Ret → BootProgram α} {w : BootOwn}
    {Q : α → BootOwn → Prop} (hguard : bootDiscipline.guard op w)
    (hnext : ∀ r, Keeps Q (next r) (w.after op r)) : Keeps Q (.perform op next) w := by
  rintro v rfl
  refine ⟨hguard, fun r v' hv' => ?_⟩
  cases hv'
  exact hnext r

theorem keeps_attempt {β : Type} {op : BootOperation} {result : op.Ret → Except IoError α}
    {contexts : List String} {f : α → Boot β} {w : BootOwn} {Q : Except AnyError β → BootOwn → Prop}
    (hguard : bootDiscipline.guard op w)
    (hok : ∀ r a, result r = .ok a → Keeps Q (f a).run (w.after op r))
    (herror : ∀ r e chain, result r = .error e → Q (.error chain) (w.after op r)) :
    Keeps Q (Boot.attempt op result contexts >>= f).run w := by
  apply Discipline.Spec.andThen
  refine keeps_perform hguard fun r => ?_
  constructor
  · intro a ha
    cases hr : result r with
    | ok b =>
      rw [hr] at ha
      cases ha
      exact hok r _ hr
    | error e =>
      rw [hr] at ha
      cases ha
  · intro chain hchain
    cases hr : result r with
    | ok b =>
      rw [hr] at hchain
      cases hchain
    | error e => exact herror r e chain hr

theorem keeps_ask {β : Type} {op : BootOperation} {f : op.Ret → Boot β} {w : BootOwn}
    {Q : Except AnyError β → BootOwn → Prop} (hguard : bootDiscipline.guard op w)
    (hok : ∀ r, Keeps Q (f r).run (w.after op r)) : Keeps Q (Boot.ask op >>= f).run w := by
  apply Discipline.Spec.andThen
  refine keeps_perform hguard fun r => ⟨?_, nofun⟩
  intro a ha
  cases ha
  exact hok r

/-- The supervisor has its own end only. -/
def Supervises (w : BootOwn) : Prop := w.role = .supervisor ∧ w.parent = true ∧ w.child = false

theorem Supervises.after {w : BootOwn} (h : Supervises w) {op : BootOperation}
    (hclose : ∀ e, op ≠ .close e) (r : op.Ret) : Supervises (w.after op r) := by
  have hadvance : Supervises (w.advance op r) := by
    unfold BootOwn.advance
    split <;> first
      | exact h
      | exact absurd rfl (hclose _)
      | (split <;> exact h)
  exact hadvance

/-- Nothing that the supervisor does on the way closes its end. -/
theorem keeps_supervised {β : Type} {op : BootOperation} {result : op.Ret → Except IoError α}
    {contexts : List String} {f : α → Boot β} {w : BootOwn} (hw : Supervises w)
    (hclose : ∀ e, op ≠ .close e) (hguard : bootDiscipline.guard op w)
    (hok : ∀ r a, result r = .ok a → Keeps (fun _ => Supervises) (f a).run (w.after op r)) :
    Keeps (fun _ => Supervises) (Boot.attempt op result contexts >>= f).run w :=
  keeps_attempt hguard hok fun r _ _ _ => hw.after hclose r

theorem keeps_serviceStart :
    Keeps (fun _ => Supervises) serviceStart.run ⟨.supervisor, true, false, .early, []⟩ := by
  refine keeps_supervised ⟨rfl, rfl, rfl⟩ nofun ⟨rfl, rfl⟩ fun r bytes hr => ?_
  cases hr
  refine keeps_supervised ⟨rfl, rfl, rfl⟩ nofun trivial fun r _ hr => ?_
  cases hr
  refine keeps_supervised ⟨rfl, rfl, rfl⟩ nofun ⟨rfl, _, rfl⟩ fun r listener hr => ?_
  cases hr
  refine keeps_supervised ⟨rfl, rfl, rfl⟩ nofun ⟨rfl, _, rfl⟩ fun r probe hr => ?_
  cases hr
  refine keeps_supervised ⟨rfl, rfl, rfl⟩ nofun ⟨rfl, _, rfl⟩ fun r tcp hr => ?_
  cases hr
  cases tcp with
  | false => exact ⟨rfl, rfl, rfl⟩
  | true =>
    refine keeps_supervised ⟨rfl, rfl, rfl⟩ nofun ⟨rfl, _, rfl⟩ fun r _ hr => ?_
    cases hr
    refine keeps_supervised ⟨rfl, rfl, rfl⟩ nofun ⟨rfl, _, rfl⟩ fun r memory hr => ?_
    cases hr
    refine keeps_supervised ⟨rfl, rfl, rfl⟩ nofun ⟨rfl, _, rfl⟩ fun r _ hr => ?_
    cases hr
    split
    next => exact ⟨rfl, rfl, rfl⟩
    next hmemory =>
      obtain rfl : memory = 0x6e := not_not.mp hmemory
      refine keeps_supervised ⟨rfl, rfl, rfl⟩ nofun trivial fun r _ hr => ?_
      cases hr
      refine keeps_supervised ⟨rfl, rfl, rfl⟩ nofun ⟨rfl, _, rfl⟩ fun r _ hr => ?_
      cases hr
      refine keeps_supervised ⟨rfl, rfl, rfl⟩ nofun ⟨_, probe, rfl⟩ fun r _ hr => ?_
      cases hr
      refine keeps_perform ⟨rfl, _, listener, probe, rfl⟩ fun r => ?_
      cases r with
      | ok _ => exact ⟨rfl, rfl, rfl⟩
      | error _ => exact ⟨rfl, rfl, rfl⟩

/-- The supervisor has closed both ends. -/
def Released (w : BootOwn) : Prop := w.role = .supervisor ∧ w.parent = false ∧ w.child = false

theorem keeps_supervise :
    Keeps (fun _ => Released) supervise ⟨.supervisor, true, false, .early, []⟩ := by
  apply Discipline.Spec.bind
  have hstarted : Keeps (fun _ => Supervises) (ExceptT.run do
      Boot.attempt (.step .runtime) id []
      Boot.attempt (.step .signalHandler) id []
      Boot.attempt (.step .signalHandler) id []
      Boot.attempt (.step .signalHandler) id []
      serviceStart) ⟨.supervisor, true, false, .early, []⟩ := by
    refine keeps_supervised ⟨rfl, rfl, rfl⟩ nofun trivial fun r _ hr => ?_
    cases hr
    refine keeps_supervised ⟨rfl, rfl, rfl⟩ nofun trivial fun r _ hr => ?_
    cases hr
    refine keeps_supervised ⟨rfl, rfl, rfl⟩ nofun trivial fun r _ hr => ?_
    cases hr
    refine keeps_supervised ⟨rfl, rfl, rfl⟩ nofun trivial fun r _ hr => ?_
    cases hr
    exact keeps_serviceStart
  refine Discipline.Spec.weaken ?_ hstarted
  rintro started ⟨role, parent, child, phase, uses⟩ ⟨rfl, rfl, rfl⟩
  refine keeps_perform trivial fun _ => ?_
  cases started with
  | error error => exact ⟨rfl, rfl, rfl⟩
  | ok _ => exact keeps_perform ⟨rfl, rfl, rfl⟩ fun _ => ⟨rfl, rfl, rfl⟩

theorem keeps_runSupervisor :
    Keeps (fun _ _ => True) runSupervisor ⟨.supervisor, true, true, .unforked, []⟩ := by
  refine keeps_perform rfl fun r => ?_
  cases r with
  | error error => trivial
  | ok _ =>
    refine keeps_perform trivial fun _ => ?_
    apply Discipline.Spec.bind
    refine Discipline.Spec.weaken ?_ keeps_supervise
    rintro result w hw
    cases result with
    | ok _ => trivial
    | error error =>
      refine keeps_perform trivial fun _ => ?_
      exact keeps_perform hw fun _ => trivial

theorem keeps_runReaper :
    Keeps (fun _ _ => True) runReaper ⟨.reaper, true, true, .unforked, []⟩ := by
  refine keeps_perform trivial fun _ => ?_
  apply Discipline.Spec.bind
  refine Discipline.Spec.weaken (R := fun _ _ => True) (fun _ _ _ => trivial) ?_
  refine keeps_attempt trivial (fun r _ hr => ?_) fun _ _ _ _ => trivial
  cases hr
  refine keeps_attempt trivial (fun r _ hr => ?_) fun _ _ _ _ => trivial
  cases hr
  refine keeps_attempt rfl (fun r _ hr => ?_) fun _ _ _ _ => trivial
  cases hr
  refine keeps_ask trivial fun _ => ?_
  refine keeps_attempt trivial (fun r _ hr => ?_) fun _ _ _ _ => trivial
  cases hr
  exact keeps_perform ⟨rfl, rfl, rfl⟩ fun _ => trivial

/-- The command is ready, if its set-up succeeds. -/
def ReadyOnSuccess (result : Except AnyError Unit) (w : BootOwn) : Prop :=
  result = .ok () → ∃ m, w = ⟨.command, false, true, .ready m, []⟩

theorem keeps_setUpCommand :
    Keeps ReadyOnSuccess setUpCommand.run ⟨.command, false, true, .early, []⟩ := by
  refine keeps_attempt trivial (fun r probe hr => ?_) fun _ _ _ _ => nofun
  cases hr
  refine keeps_attempt trivial (fun r listener hr => ?_) fun _ _ _ _ => nofun
  cases hr
  refine keeps_ask trivial fun tid => ?_
  refine keeps_ask trivial fun address => ?_
  refine keeps_attempt ⟨rfl, _, rfl⟩ (fun r _ hr => ?_) fun _ _ _ _ => nofun
  cases hr
  refine keeps_attempt ⟨⟨_, rfl⟩, rfl⟩ (fun r ready hr => ?_) fun _ _ _ _ => nofun
  cases hr
  refine keeps_ask trivial fun memory => ?_
  split
  next => exact nofun
  next h =>
    have hready : ready = [1] := by
      by_contra hne
      exact h (Or.inl hne)
    subst hready
    exact keeps_perform ⟨_, rfl⟩ fun _ _ => ⟨_, rfl⟩

theorem keeps_execCommand {command : List String} {m : Metadata} :
    Keeps (fun _ _ => True) (execCommand command) ⟨.command, false, true, .ready m, []⟩ := by
  unfold execCommand
  split
  next => trivial
  next =>
    split
    next => trivial
    next =>
      split
      next => trivial
      next => exact keeps_perform ⟨m, rfl⟩ fun _ => trivial

theorem keeps_runCommand (command : List String) :
    Keeps (fun _ _ => True) (runCommand command) ⟨.command, false, true, .early, []⟩ := by
  apply Discipline.Spec.bind
  have hready : Keeps ReadyOnSuccess (ExceptT.run do
      Boot.attempt (.step .restoreMask) id []
      setUpCommand) ⟨.command, false, true, .early, []⟩ := by
    refine keeps_attempt trivial (fun r _ hr => ?_) fun _ _ _ _ => nofun
    cases hr
    exact keeps_setUpCommand
  refine Discipline.Spec.weaken ?_ hready
  intro result w hw
  cases result with
  | error error => trivial
  | ok _ =>
    obtain ⟨m, rfl⟩ := hw rfl
    apply Discipline.Spec.bind
    exact Discipline.Spec.weaken (fun _ _ _ => trivial) keeps_execCommand

end BootShared

end Scproxy
