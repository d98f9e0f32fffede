import Scproxy.Engine

namespace Scproxy

open Discipline

/-- What a task knows: the registered servers, the address the application
named for the message at hand, and the address the datagram just received
should be reported from. -/
structure View where
  servers : Servers
  asked : Option SocketAddrV4
  expected : Option SocketAddrV4

namespace View

/-- The endpoint stands for the address the application named. -/
def Aimed (endpoint : SocketAddrV4) (v : View) : Prop :=
  ∃ r, v.asked = some r ∧ v.servers.forward.lookup r = some endpoint

/-- An answer's source stands for the address its query was sent to. -/
def Answered (source : SocketAddrV4) (v : View) : Prop :=
  ∀ e, v.expected = some e → v.servers.originalServer source = some e

def Rely (v v' : View) : Prop :=
  ServersOk v'.servers ∧ v.servers.Extends v'.servers ∧ v'.asked = v.asked ∧
    v'.expected = v.expected

def Guard : Operation → View → Prop
  | .connect address, v => v.Aimed address
  | .sendmsg destination _ _ _, v => v.Aimed destination
  | .write (.source capacity) _ _ bytes, v =>
    ∀ e, v.expected = some e → bytes = (addressBytes e).take (min capacity.toNat 16)
  | _, _ => True

def After : (op : Operation) → op.Ret → View → View → Prop
  | .domain, r, v, v' => v' = v ∧ ∀ domain, r = .ok domain → domain = Libc.afInet.toUInt32
  | .protocol, r, v, v' => v' = v ∧ ∀ protocol, r = .ok protocol → protocol = Libc.ipprotoUdp
  | .serverFor destination, r, v, v' =>
    ServersOk v'.servers ∧ v.servers.Extends v'.servers ∧ v'.asked = some destination ∧
      v'.expected = v.expected ∧
      ∀ localAddr, r = .ok localAddr → v'.servers.forward.lookup destination = some localAddr
  | .originalServer localAddr, r, v, v' => v' = v ∧ r = v.servers.originalServer localAddr
  | .peerAddress _, r, v, v' =>
    v'.servers = v.servers ∧ v'.expected = v.expected ∧ ∀ address, r = .ok address → v'.Aimed address
  | .recvmsg .., r, v, v' =>
    v'.servers = v.servers ∧ v'.asked = v.asked ∧
      ∀ received, r = .ok received → v'.Answered received.source
  | _, _, v, v' => v' = v

end View

/-- How the task of a call on a UDP socket behaves among the others. -/
def datagramDiscipline : Discipline Operation Operation.Ret View where
  rely := View.Rely
  rely_trans := by
    intro u v w huv hvw
    obtain ⟨_, hext, hasked, hexpected⟩ := huv
    obtain ⟨hok, hext', hasked', hexpected'⟩ := hvw
    exact ⟨hok, hext.trans hext', hasked'.trans hasked, hexpected'.trans hexpected⟩
  guard := View.Guard
  after := View.After

def View.Stable (P : View → Prop) : Prop := ∀ v v', View.Rely v v' → P v → P v'

theorem stable_aimed (endpoint : SocketAddrV4) : View.Stable (View.Aimed endpoint) := by
  intro v v' hv h
  obtain ⟨_, hext, hasked, _⟩ := hv
  obtain ⟨r, hr, hlookup⟩ := h
  exact ⟨r, hasked.trans hr, hext.1 r endpoint hlookup⟩

theorem stable_answered (source : SocketAddrV4) : View.Stable (View.Answered source) := by
  intro v v' hv h e he
  obtain ⟨_, hext, _, hexpected⟩ := hv
  exact hext.2 source e (h e (hexpected.symm.trans he))

theorem stable_true : View.Stable fun _ => True := fun _ _ _ _ => trivial

/-- Operations that are always allowed and tell the task nothing. -/
def Operation.quiet : Operation → Bool
  | .domain | .protocol | .serverFor _ | .originalServer _ | .connect _ | .peerAddress _
  | .sendmsg .. | .recvmsg .. | .write (.source _) .. => false
  | _ => true

section

variable {α : Type} {w : View} {P : View → Prop}

theorem safe_quiet (op : Operation) (hop : op.quiet = true) {next : op.Ret → Except IoError α}
    (hP : View.Stable P) (h : P w) :
    datagramDiscipline.Safe (fun _ v => P v)
      (ExceptT.mk (.perform op fun r => .done (next r))) w := by
  have hguard : ∀ v, View.Guard op v := by
    intro v
    unfold Operation.quiet at hop
    split at hop <;> simp_all [View.Guard]
  have hafter : ∀ r v v', View.After op r v v' → v' = v := by
    intro r v v' hr
    unfold Operation.quiet at hop
    split at hop <;> simp_all [View.After]
  intro v hv
  refine ⟨hguard v, fun r v' hr a _ => ?_⟩
  rw [hafter r v v' hr]
  exact hP w v hv h

theorem safe_ofExcept {e : Except IoError α} :
    datagramDiscipline.Safe (fun a _ => e = .ok a) (Act.ofExcept e) w :=
  fun _ h => h

theorem safe_domain :
    datagramDiscipline.Safe (fun domain _ => domain = Libc.afInet.toUInt32) Act.domain w :=
  fun _ _ => ⟨trivial, fun _ _ hr => hr.2⟩

theorem safe_protocol :
    datagramDiscipline.Safe (fun protocol _ => protocol = Libc.ipprotoUdp) Act.protocol w :=
  fun _ _ => ⟨trivial, fun _ _ hr => hr.2⟩

theorem safe_serverFor (destination : SocketAddrV4) :
    datagramDiscipline.Safe (fun localAddr v => v.Aimed localAddr ∧ destination.port = 53)
      (Act.serverFor destination) w := by
  intro v hv
  refine ⟨trivial, fun r v' hr localAddr hl => ?_⟩
  obtain ⟨hok, _, hasked, _, hlookup⟩ := hr
  have hl := hlookup localAddr hl
  exact ⟨⟨destination, hasked, hl⟩, hok.port destination localAddr hl⟩

theorem safe_originalServer (localAddr : SocketAddrV4) (hP : View.Stable P) (h : P w) :
    datagramDiscipline.Safe (fun original v => P v ∧ original = v.servers.originalServer localAddr)
      (Act.originalServer localAddr) w := by
  intro v hv
  refine ⟨trivial, fun r v' hr original horiginal => ?_⟩
  obtain ⟨heq, hr⟩ := hr
  cases horiginal
  rw [heq]
  exact ⟨hP w v hv h, hr⟩

theorem spec_peerAddress (socketOption : Bool) :
    datagramDiscipline.Spec (fun r v => ∀ address, r = .ok address → v.Aimed address)
      (Act.peerAddress socketOption).run w := by
  intro v hv
  exact ⟨trivial, fun r v' hr => hr.2.2⟩

theorem safe_connect {address : SocketAddrV4} (h : w.Aimed address) :
    datagramDiscipline.Safe (fun _ _ => True) (Act.connect address) w := by
  intro v hv
  exact ⟨stable_aimed address w v hv h, fun _ _ _ _ _ => trivial⟩

end

end Scproxy
