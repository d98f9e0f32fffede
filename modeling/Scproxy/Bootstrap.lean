import Scproxy.Exchange
import Scproxy.Interaction
import Scproxy.MessageFrame

namespace Scproxy

/-- What the command tells the supervisor about itself. -/
structure Metadata where
  tid : UInt32
  listener : UInt32
  probe : UInt32
  address : UInt64
  deriving DecidableEq

namespace Metadata

def encode (metadata : Metadata) : List UInt8 :=
  toNe 4 metadata.tid.toNat ++ toNe 4 metadata.listener.toNat ++ toNe 4 metadata.probe.toNat ++
    toNe 8 metadata.address.toNat

def decode (bytes : List UInt8) : Metadata where
  tid := UInt32.ofNat (fromNe (bytes.take 4))
  listener := UInt32.ofNat (fromNe ((bytes.drop 4).take 4))
  probe := UInt32.ofNat (fromNe ((bytes.drop 8).take 4))
  address := UInt64.ofNat (fromNe (bytes.drop 12))

end Metadata

/-- The ends of the control socket pair. -/
inductive ControlEnd
  | parent
  | child
  deriving DecidableEq

/-- Steps that only succeed or fail. -/
inductive BootStep
  | runtime
  | signalHandler
  | probeAccess
  | probeAddfd (listener probe : Nat)
  | writeMemory (tid : UInt32) (address : UInt64) (byte : UInt8)
  | diagnostics
  | receiver (listener : Nat)
  | subreaper
  | blockSignals
  | spawnLifetime
  | restoreMask
  | verifyBootstrap
  deriving DecidableEq

/-- The operations of the three processes up to the command's `execvp`. A process that
forks goes on with what `fork` returns, the new one with its own program. -/
inductive BootOperation
  | forkReaper
  | forkCommand
  | close (controlEnd : ControlEnd)
  | readExact (controlEnd : ControlEnd) (length : Nat)
  | writeAll (controlEnd : ControlEnd) (bytes : List UInt8)
  | step (step : BootStep)
  | get (tid fd : UInt32)
  | isTcpV4 (fd : Nat)
  | readMemory (tid : UInt32) (address : UInt64)
  | startBroker (listener : Nat)
  | forwardSignal
  | waitChild
  | waitTree
  | stream
  | install
  | gettid
  | address
  | memory
  | exec (command : List String)

abbrev BootOperation.Ret : BootOperation → Type
  | forkReaper | forkCommand | writeAll _ _ | step _ | startBroker _ => Except IoError Unit
  | close _ | forwardSignal => Unit
  | readExact _ _ => Except IoError (List UInt8)
  | get _ _ => Except IoError Nat
  | isTcpV4 _ => Except IoError Bool
  | readMemory _ _ => Except IoError UInt8
  | waitChild | waitTree => Except IoError Int
  | stream | install => Except IoError UInt32
  | gettid => UInt32
  | address => UInt64
  | memory => UInt8
  | exec _ => IoError

abbrev BootProgram := Interaction BootOperation BootOperation.Ret

abbrev Boot := ExceptT AnyError BootProgram

namespace Boot

variable {α : Type}

/-- An operation, the `?` after it and the contexts on the way out. -/
def attempt (op : BootOperation) (result : op.Ret → Except IoError α) (contexts : List String) :
    Boot α :=
  ExceptT.mk (.perform op fun r =>
    .done ((result r).mapError fun error => contexts.map .text ++ [.io error]))

def ask (op : BootOperation) : Boot op.Ret :=
  ExceptT.mk (.perform op fun r => .done (.ok r))

def bail (contexts : List String) : Boot α := ExceptT.mk (.done (.error (contexts.map .text)))

end Boot

open Boot

/-- `Service::start`. -/
def serviceStart : Boot Unit := do
  let bytes ← attempt (.readExact .parent 20) id
    ["start seccomp broker", "receive seccomp listener metadata"]
  let metadata := Metadata.decode bytes
  attempt (.step .probeAccess) id ["start seccomp broker", "probe pidfd capabilities"]
  let listener ← attempt (.get metadata.tid metadata.listener) id
    ["start seccomp broker", "get seccomp listener with pidfd_getfd"]
  let probe ← attempt (.get metadata.tid metadata.probe) id
    ["start seccomp broker", "access command socket"]
  let tcp ← attempt (.isTcpV4 probe) id ["start seccomp broker"]
  if ¬tcp then bail ["start seccomp broker", "socket access probe failed"] else
  attempt (.step (.probeAddfd listener probe)) id
    ["start seccomp broker", "probe seccomp ADDFD_SEND (requires Linux 5.14 or newer)"]
  let memory ← attempt (.readMemory metadata.tid metadata.address) id
    ["start seccomp broker", "read command memory"]
  attempt (.step (.writeMemory metadata.tid metadata.address memory)) id
    ["start seccomp broker", "write command memory"]
  if memory ≠ 0x6e then bail ["start seccomp broker", "memory access probe failed"] else
  attempt (.step .diagnostics) id ["start seccomp broker", "probe socket diagnostics"]
  attempt (.step (.receiver listener)) id ["start seccomp broker"]
  attempt (.startBroker listener) id ["start seccomp broker"]
  attempt (.writeAll .parent [1]) id ["start seccomp broker"]

/-- `supervise` up to the end of the command tree. The control socket is dropped after the
start, and with the other arguments if it fails. -/
def supervise : BootProgram (Except AnyError Int) := do
  let started ← ExceptT.run do
    attempt (.step .runtime) id []
    attempt (.step .signalHandler) id []
    attempt (.step .signalHandler) id []
    attempt (.step .signalHandler) id []
    serviceStart
  .perform (.close .parent) fun _ =>
    match started with
    | .error error => .done (.error error)
    | .ok () => .perform .waitChild fun status =>
      .done (status.mapError fun error => [.io error])

/-- `run` after the configuration was read and the socket pairs were made. -/
def runSupervisor : BootProgram Unit :=
  .perform .forkReaper fun
    | .error _ => .done ()
    | .ok () => .perform (.close .child) fun _ => do
      let result ← supervise
      match result with
      | .ok _ => .done ()
      | .error _ => .perform .forwardSignal fun _ => .perform .waitChild fun _ => .done ()

/-- The first child: `run_command_tree` with `ChildSetup::reaper`. -/
def runReaper : BootProgram Unit :=
  .perform (.close .parent) fun _ => do
    let _ ← ExceptT.run do
      attempt (.step .subreaper) id ["set child subreaper"]
      attempt (.step .blockSignals) id []
      attempt .forkCommand id ["fork command"]
      ask (.close .child)
      attempt (.step .spawnLifetime) id []
      attempt .waitTree id []
    .done ()

/-- `ChildSetup::command`. -/
def setUpCommand : Boot Unit := do
  let probe ← attempt .stream id []
  let listener ← attempt .install id ["install seccomp filter"]
  let tid ← ask .gettid
  let address ← ask .address
  attempt (.writeAll .child (Metadata.encode ⟨tid, listener, probe, address⟩)) id []
  let ready ← attempt (.readExact .child 1) id []
  let memory ← ask .memory
  if ready ≠ [1] ∨ memory ≠ 0x6e then bail ["seccomp startup handshake failed"] else
  attempt (.step .verifyBootstrap) id ["verify seccomp DNS configuration injection"]

/-- `exec_command`. It returns only with an error. -/
def execCommand (command : List String) : BootProgram AnyError :=
  match command with
  | [] => .done [.text "no command specified"]
  | program :: _ =>
    if program.toList.contains '\x00' then
      .done [.text "CString prog", .text "nul byte found in provided data"]
    else if command.any fun arg => arg.toList.contains '\x00' then
      .done [.text "CString arg", .text "nul byte found in provided data"]
    else .perform (.exec command) fun error => .done [.text "execvp", .io error]

/-- The second child. -/
def runCommand (command : List String) : BootProgram Unit := do
  let ready ← ExceptT.run do
    attempt (.step .restoreMask) id []
    setUpCommand
  match ready with
  | .error _ => .done ()
  | .ok () => do
    let _ ← execCommand command
    .done ()

namespace Metadata

theorem fromNe_toNe (width : Nat) {n : Nat} (h : n < 256 ^ width) : fromNe (toNe width n) = n := by
  induction width generalizing n with
  | zero =>
    have hzero : n = 0 := by simpa using h
    rw [hzero]
    rfl
  | succ width ih =>
    have hsplit : toNe (width + 1) n = UInt8.ofNat n :: toNe width (n / 256) := by
      unfold toNe
      rw [List.range_succ_eq_map, List.map_cons, List.map_map]
      refine congrArg₂ List.cons (by simp) ?_
      apply List.map_congr_left
      intro i _
      rw [Function.comp_apply, Nat.div_div_eq_div_mul, Nat.pow_succ, Nat.mul_comm]
    have hrest := ih (n := n / 256) (by rw [Nat.pow_succ] at h; omega)
    unfold fromNe at hrest ⊢
    rw [hsplit, List.map_cons, Nat.ofDigits_cons, hrest, UInt8.toNat_ofNat']
    omega

theorem encode_length (metadata : Metadata) : metadata.encode.length = 20 := by
  simp [encode, toNe_length]

/-- The supervisor reads what the command wrote. -/
theorem decode_encode (metadata : Metadata) : decode metadata.encode = metadata := by
  obtain ⟨tid, listener, probe, address⟩ := metadata
  have htid := fromNe_toNe 4 tid.toNat_lt
  have hlistener := fromNe_toNe 4 listener.toNat_lt
  have hprobe := fromNe_toNe 4 probe.toNat_lt
  have haddress := fromNe_toNe 8 address.toNat_lt
  simp [decode, encode, toNe_length, htid, hlistener, hprobe, haddress,
    List.drop_append, List.drop_eq_nil_of_le]

end Metadata

end Scproxy
