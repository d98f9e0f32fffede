import Scproxy.Exchange
import Scproxy.InteractionRuns
import Scproxy.OutboundTask

namespace Scproxy

/-- An entry of the list that `getaddrinfo` returns. -/
structure AddrInfo where
  family : Nat
  address : Option Ipv4Addr
  length : Nat
  deriving DecidableEq

/-- What `getaddrinfo` returns, with `errno`. -/
structure AddrInfoAnswer where
  code : Int
  errno : Nat
  entries : List AddrInfo

abbrev Found := Except IoError (List Ipv4Addr)

namespace DirectConnector

def eaiNoname : Int := -2

def eaiAgain : Int := -3

def eaiNodata : Int := -5

def eaiAddrfamily : Int := -9

def eaiSystem : Int := -11

/-- The address of an entry that the loop takes. -/
def usable (entry : AddrInfo) : Option Ipv4Addr :=
  if entry.family = Libc.afInet.toNat ∧ 16 ≤ entry.length then entry.address else none

/-- The loop over the list. -/
def collect (addresses : List Ipv4Addr) : List AddrInfo → List Ipv4Addr
  | [] => addresses
  | entry :: rest =>
    match usable entry with
    | none => collect addresses rest
    | some ip => collect (if ip ∈ addresses then addresses else addresses ++ [ip]) rest

def found (answer : AddrInfoAnswer) : Found :=
  if answer.code = 0 then .ok (collect [] answer.entries)
  else if answer.code = eaiNoname ∨ answer.code = eaiNodata ∨ answer.code = eaiAddrfamily then
    .error (.os Errno.ehostunreach)
  else if answer.code = eaiAgain then .error (.os Errno.eagain)
  else if answer.code = eaiSystem then .error (.os answer.errno)
  else .error (.os Errno.eio)

end DirectConnector

/-- The operations of `run_lookup` and of the thread that it spawns. The thread gets the
permit and the sender, and both are dropped if it cannot be spawned. -/
inductive LookupOperation
  | acquire
  | spawn (domain : String)
  | receive
  | getaddrinfo (name : String)
  | send (result : Found)
  | dropPermit

abbrev LookupOperation.Ret : LookupOperation → Type
  | acquire => Bool
  | spawn _ => Except IoError Unit
  | receive => Waited Unit Found
  | getaddrinfo _ => AddrInfoAnswer
  | send _ => Unit
  | dropPermit => Unit

abbrev LookupProgram := Interaction LookupOperation LookupOperation.Ret

abbrev ResolvingEvent := Interaction.Event LookupOperation LookupOperation.Ret

/-- The operations of `connect_with_lookup`. The deadline may pass at each wait. -/
inductive DirectOperation
  | lookup
  | connect (address : SocketAddrV4)
  | setNodelay

abbrev DirectOperation.Ret : DirectOperation → Type
  | lookup => Waited Cause (List Ipv4Addr)
  | connect _ => Waited IoError Unit
  | setNodelay => Except IoError Unit

abbrev DirectProgram := Interaction DirectOperation DirectOperation.Ret

abbrev DirectEvent := Interaction.Event DirectOperation DirectOperation.Ret

namespace DirectConnector

def resolveIpv4 (domain : String) : LookupProgram Found :=
  if domain.isEmpty then .done (.error (.os Errno.ehostunreach))
  else if domain.toList.contains '\x00' then .done (.error (.os Errno.einval))
  else .perform (.getaddrinfo domain) fun answer => .done (found answer)

/-- What a lookup of the domain can return. -/
def Resolved (domain : String) (result : Found) : Prop :=
  ∃ trace, (resolveIpv4 domain).Runs trace result

/-- The spawned thread. The result is sent before the permit is dropped. -/
def lookupThread (domain : String) : LookupProgram Unit := do
  let result ← resolveIpv4 domain
  .perform (.send result) fun _ => .perform .dropPermit fun _ => .done ()

/-- `run_lookup` for `lookup_ipv4`. A cancelled lookup has no result. -/
def runLookup (domain : String) : LookupProgram (Option (Except Cause (List Ipv4Addr))) :=
  .perform .acquire fun
    | false => .done (some (.error (.io (.os Errno.eagain))))
    | true => .perform (.spawn domain) fun
      | .error error => .done (some (.error (.io error)))
      | .ok () => .perform .receive fun
        | .cancelled => .done none
        | .elapsed => .done (some (.error (.io (.os Errno.etimedout))))
        | .ended (.error ()) => .done (some (.error (.text "host resolver worker stopped")))
        | .ended (.ok result) => .done (some (result.mapError .io))

def timedOut : AnyError :=
  [.text "direct upstream connection timed out after 32 seconds", .text "deadline has elapsed"]

/-- The loop over the addresses. -/
def connectAddresses (port : UInt16) (last : IoError) :
    List Ipv4Addr → DirectProgram (Option (Except AnyError Unit))
  | [] => .done (some (.error [.io last]))
  | address :: rest => .perform (.connect ⟨address, port⟩) fun
    | .cancelled => .done none
    | .elapsed => .done (some (.error timedOut))
    | .ended (.error error) => connectAddresses port error rest
    | .ended (.ok ()) => .perform .setNodelay fun result =>
      .done (some (result.mapError fun error => [.io error]))

def connectWithLookup (port : UInt16) : DirectProgram (Option (Except AnyError Unit)) :=
  .perform .lookup fun
    | .cancelled => .done none
    | .elapsed => .done (some (.error timedOut))
    | .ended (.error cause) => .done (some (.error [.text "resolve direct hostname", cause]))
    | .ended (.ok addresses) => connectAddresses port (.os Errno.ehostunreach) addresses

def attempted (host : String) (port : UInt16) : String :=
  "direct TCP connection to " ++ host ++ ":" ++ toString port.toNat

def connect (host : String) (port : UInt16) : DirectProgram (Option (Except AnyError Unit)) := do
  let result ← connectWithLookup port
  .done (result.map fun result => result.mapError (.text (attempted host port) :: ·))

end DirectConnector

end Scproxy
