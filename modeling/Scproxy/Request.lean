import Scproxy.Engine
import Scproxy.TcpProgram

namespace Scproxy

namespace Libc

def atFdcwd : UInt32 := 0xffffff9c

def oAccmode : UInt32 := 3

def oCreat : UInt32 := 0x40

def oExcl : UInt32 := 0x80

def oTrunc : UInt32 := 0x200

def oCloexec : UInt32 := 0x80000

def oPath : UInt32 := 0x200000

end Libc

def Arch.oDirectory : Arch → UInt32
  | .x86_64 => 0x10000
  | .aarch64 => 0x4000

def Arch.oNofollow : Arch → UInt32
  | .x86_64 => 0x20000
  | .aarch64 => 0x8000

/-- What `ResolverFiles::open` asks of the kernel and of the file system. -/
inductive FileOperation
  | path (tid : UInt32) (address : UInt64)
  | workingDirectory (tid : UInt32)
  | directory (tid fd : UInt32)
  | canonicalize (path : List UInt8)
  | isSymlink (path : List UInt8)
  | openDescriptor (descriptor flags : UInt32)

/-- The operations of the task of a notification, its two ways to answer included. -/
inductive RequestOperation
  | base (op : Operation)
  | tcp (op : TcpOperation)
  | file (op : FileOperation)
  | addfdSend (source : UInt32) (cloexec : Bool)
  | respond (value : Int) (errno : Nat) (passthrough : Bool)

abbrev FileOperation.Ret : FileOperation → Type
  | path .. | workingDirectory _ | directory .. => Except IoError (List UInt8)
  | canonicalize _ => Option (List UInt8)
  | isSymlink _ => Bool
  | openDescriptor .. => Except IoError UInt32

abbrev RequestOperation.Ret : RequestOperation → Type
  | base op => op.Ret
  | tcp op => op.Ret
  | file op => op.Ret
  | addfdSend .. | respond .. => Except IoError Unit

abbrev Request := ExceptT IoError (Interaction RequestOperation RequestOperation.Ret)

namespace Request

def act {α : Type} (p : Act α) : Request α :=
  ExceptT.mk (p.run.handle fun op => .perform (.base op) .done)

def connectTcp (p : TcpProgram) : Request Reply :=
  ExceptT.mk (p.handle fun op => .perform (.tcp op) .done)

def cookie : Request UInt64 := ExceptT.mk (.perform (.tcp .cookie) .done)

def peer (cookie : UInt64) : Request (Option Peer) :=
  ExceptT.mk (.perform (.tcp (.peer cookie)) fun peer => .done (.ok peer))

def path (tid : UInt32) (address : UInt64) : Request (List UInt8) :=
  ExceptT.mk (.perform (.file (.path tid address)) .done)

def workingDirectory (tid : UInt32) : Request (List UInt8) :=
  ExceptT.mk (.perform (.file (.workingDirectory tid)) .done)

def directory (tid fd : UInt32) : Request (List UInt8) :=
  ExceptT.mk (.perform (.file (.directory tid fd)) .done)

def canonicalize (path : List UInt8) : Request (Option (List UInt8)) :=
  ExceptT.mk (.perform (.file (.canonicalize path)) fun path => .done (.ok path))

def isSymlink (path : List UInt8) : Request Bool :=
  ExceptT.mk (.perform (.file (.isSymlink path)) fun symlink => .done (.ok symlink))

def openDescriptor (descriptor flags : UInt32) : Request UInt32 :=
  ExceptT.mk (.perform (.file (.openDescriptor descriptor flags)) .done)

def addfdSend (source : UInt32) (cloexec : Bool) : Request Unit :=
  ExceptT.mk (.perform (.addfdSend source cloexec) .done)

def ofExcept {α : Type} (e : Except IoError α) : Request α := ExceptT.mk (.done e)

end Request

/-- The functions of `std::path` that are used. Paths are compared by their components. -/
structure PathStd where
  fileName : List UInt8 → Option (List UInt8)
  isAbsolute : List UInt8 → Bool
  join : List UInt8 → List UInt8 → List UInt8
  same : List UInt8 → List UInt8 → Bool

/-- A sealed file with the path that it replaces. -/
structure ConfigFile where
  path : List UInt8
  canonical : Option (List UInt8)
  descriptor : UInt32

namespace ConfigFile

/-- The path may name the file. -/
def named (std : PathStd) (path : List UInt8) (file : ConfigFile) : Bool :=
  std.fileName path == std.fileName file.path ||
    file.canonical.any fun other => std.fileName path == std.fileName other

def found (std : PathStd) (path : List UInt8) (canonical : Option (List UInt8))
    (file : ConfigFile) : Bool :=
  std.same file.path path ||
    file.canonical.any fun other => std.same other path || canonical.any (std.same other)

def reopen (arch : Arch) (flags : UInt32) (file : ConfigFile) : Request UInt32 :=
  Request.openDescriptor file.descriptor
    ((flags &&& ~~~(Libc.oCreat ||| Libc.oExcl ||| arch.oNofollow)) ||| Libc.oCloexec)

end ConfigFile

namespace ResolverFiles

def absolutePath (std : PathStd) (tid dirfd : UInt32) (path : List UInt8) :
    Request (List UInt8) := do
  if std.isAbsolute path then pure path
  else do
    let base ← (if dirfd = Libc.atFdcwd then Request.workingDirectory tid
      else Request.directory tid dirfd)
    pure (std.join base path)

def openHow (memory : Memory) (tid : UInt32) (address size : UInt64) : Except IoError UInt32 :=
  if size < 24 then .error (.os Errno.einval)
  else if 4096 < size then .error (.os Errno.e2big)
  else do
    let bytes ← memory.read tid address size.toNat
    if (bytes.drop 24).any (· != 0) then .error (.os Errno.e2big)
    else
      let flags := Message.word bytes 0
      let mode := Message.word bytes 8
      let resolve := Message.word bytes 16
      if 2 ^ 31 - 1 < flags.toNat ∨ mode &&& ~~~0xfff ≠ 0 ∨
          (mode ≠ 0 ∧ flags &&& Libc.oCreat.toUInt64 = 0) then .error (.os Errno.einval)
      else if resolve ≠ 0 then .error (.os Errno.eopnotsupp)
      else .ok flags.toUInt32

/-- What the flags of an open of a resolver file are refused with. -/
def checkFlags (arch : Arch) (spelling : List UInt8) (flags : UInt32) : Except IoError Unit :=
  if [47] <:+ spelling ∨ [47, 46] <:+ spelling then .error (.os Errno.enotdir)
  else if flags &&& arch.oDirectory ≠ 0 then .error (.os Errno.enotdir)
  else if flags &&& Libc.oPath = 0 ∧
      flags &&& (Libc.oCreat ||| Libc.oExcl) = Libc.oCreat ||| Libc.oExcl then
    .error (.os Errno.eexist)
  else if flags &&& Libc.oPath = 0 ∧
      (flags &&& Libc.oAccmode ≠ 0 ∨ flags &&& Libc.oTrunc ≠ 0) then
    .error (.os Errno.eacces)
  else .ok ()

/-- The new descriptor and the answer are sent in one step. -/
def send (arch : Arch) (flags : UInt32) (file : ConfigFile) : Request Reply := do
  let descriptor ← file.reopen arch flags
  Request.act Act.valid
  Request.addfdSend descriptor (flags &&& Libc.oCloexec != 0)
  pure .sent

/-- `ResolverFiles::open`. -/
def openFile (arch : Arch) (std : PathStd) (files : List ConfigFile) (memory : Memory)
    (request : Notification) : Request Reply := do
  let args := request.data.args
  let call := request.data.nr.toUInt32
  let relative := call == arch.number .openat || call == arch.number .openat2
  let dirfd := if relative then Data.low (args 0) else Libc.atFdcwd
  let pathArg := if relative then args 1 else args 0
  let flagsArg := if relative then args 2 else args 1
  let path ← Request.path request.pid pathArg
  if !files.any (ConfigFile.named std path) then pure .continueSyscall
  else do
    let path ← absolutePath std request.pid dirfd path
    let canonical ← Request.canonicalize path
    match files.find? (ConfigFile.found std path canonical) with
    | none => pure .continueSyscall
    | some file => do
      let flags ← Request.ofExcept <|
        if call = arch.number .openat2 then openHow memory request.pid flagsArg (args 3)
        else .ok (Data.low flagsArg)
      Request.ofExcept (checkFlags arch path flags)
      let symlink ← (if flags &&& arch.oNofollow ≠ 0 then Request.isSymlink path else pure false)
      if !symlink then send arch flags file
      else if flags &&& Libc.oPath ≠ 0 then pure .continueSyscall
      else throw (.os Errno.eloop)

end ResolverFiles

namespace Broker

/-- `tcp_target`. -/
def requestTarget (socketOption : Bool) : Request (Option SocketAddrV4) := do
  let cookie ← Request.cookie
  match ← Request.peer cookie with
  | none => pure none
  | some peer => do
    let actual ← Request.act (Interaction.attempt (Act.peerAddress socketOption))
    Request.ofExcept (tcpTarget (some peer) actual)

def tcpPeer (arch : Arch) (memory : Memory) (notification : Notification) : Request Reply := do
  let socketOption := notification.data.nr.toUInt32 == arch.number .getsockopt
  match ← requestTarget socketOption with
  | none => pure .continueSyscall
  | some target => do
    Request.act Act.valid
    Request.act (memory.peerName arch notification target)
    pure (.value 0)

/-- The branch of `dispatch` for TCP sockets. -/
def dispatchTcp (arch : Arch) (config : Config) (relay : SocketAddrV4) (memory : Memory)
    (notification : Notification) : Request Reply := do
  let call := notification.data.nr.toUInt32
  let urgent ← (if flags arch notification.data &&& Libc.msgOob ≠ 0 then requestTarget true
    else pure none)
  if urgent.isSome then throw (.os Errno.eopnotsupp)
  else if call = arch.number .connect then
    Request.connectTcp (TcpProgram.connectTcp config relay memory notification)
  else if call = arch.number .getpeername ∨ call = arch.number .getsockopt then
    tcpPeer arch memory notification
  else pure .continueSyscall

/-- `respond`. A notification that is gone needs no answer. -/
def respond (result : Except IoError Reply) : Request Unit :=
  let send (value : Int) (errno : Nat) (passthrough : Bool) : Request Unit :=
    ExceptT.mk (.perform (.respond value errno passthrough) fun
      | .error error => .done (if error = .os Errno.enoent then .ok () else .error error)
      | .ok () => .done (.ok ()))
  match result with
  | .ok .sent => pure ()
  | .ok .continueSyscall => send 0 0 true
  | .ok (.value value) => send value 0 false
  | .error error => send 0 (error.rawOsError.getD Errno.eio) false

end Broker

/-- What the request tasks share. -/
structure RequestContext where
  arch : Arch
  retries : Nat
  config : Config
  relay : SocketAddrV4
  std : PathStd
  files : List ConfigFile

/-- The handlers that `Broker.dispatch` leaves open. -/
def RequestContext.handler (context : RequestContext) (memory : Memory)
    (notification : Notification) :
    (op : Operation) → Interaction RequestOperation RequestOperation.Ret op.Ret
  | .openFile =>
    (ResolverFiles.openFile context.arch context.std context.files memory notification).run
  | .tcp =>
    (Broker.dispatchTcp context.arch context.config context.relay memory notification).run
  | op => .perform (.base op) .done

/-- The task that is spawned for a notification. -/
def RequestContext.task (context : RequestContext) (memory : Memory) (notification : Notification) :
    Interaction RequestOperation RequestOperation.Ret (Except IoError Unit) := do
  let result ← (Broker.dispatch context.arch context.retries memory notification).run.handle
    (context.handler memory notification)
  (Broker.respond result).run

end Scproxy
