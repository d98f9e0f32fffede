import Scproxy.DatagramSafe

namespace Scproxy

open Discipline

theorem Arch.number_injective (arch : Arch) {a b : Syscall} (h : arch.number a = arch.number b) :
    a = b := by
  cases arch <;> cases a <;> cases b <;> first | rfl | exact absurd h (by decide)

theorem isOpen_number (arch : Arch) {call : Syscall} (h : call ≠ .openat) (h2 : call ≠ .openat2) :
    Broker.isOpen arch (arch.number call) = false := by
  cases arch <;> cases call <;> first | rfl | contradiction

/-- A send that carries an address of its own, or may carry one. -/
def AddressedSend (arch : Arch) (data : Data) : Prop :=
  data.nr.toUInt32 = arch.number .sendmsg ∨ data.nr.toUInt32 = arch.number .sendmmsg ∨
    (data.nr.toUInt32 = arch.number .sendto ∧ data.args 4 ≠ 0)

/-- The kernel reads a length of 32 bits. -/
def Disconnects (memory : Memory) (notification : Notification) : Prop :=
  memory.family notification.pid (notification.data.args 1)
    (Data.low (notification.data.args 2)).toUInt64 = .ok Libc.afUnspec

section

variable (arch : Arch) (memory : Memory) (notification : Notification)

/-- The kernel may run the call itself. -/
def Harmless : Prop :=
  notification.data.nr.toUInt32 = arch.number .socket ∨
  (notification.data.nr.toUInt32 = arch.number .connect ∧ Disconnects memory notification) ∨
  (notification.data.nr.toUInt32 ≠ arch.number .connect ∧ ¬AddressedSend arch notification.data)

/-- The message at an index names an address that no DNS server has. -/
def RefusedAt (index : Nat) : Prop :=
  ∃ header message, Datagram.headerPointer notification index = some header ∧
    Datagram.message arch memory notification header = .ok message ∧
    message.Refused memory notification.pid

/-- What every reply to a call on a UDP socket satisfies. -/
structure Outcome (reply : Reply) : Prop where
  harmless : reply = .continueSyscall → Harmless arch memory notification
  connect : notification.data.nr.toUInt32 = arch.number .connect →
    ∀ target, memory.ipv4 notification.pid (notification.data.args 1) (notification.data.args 2) =
      .ok target → target.port = 53
  send : ∀ call ∈ [Syscall.sendto, .sendmsg, .sendmmsg],
    notification.data.nr.toUInt32 = arch.number call →
    ∀ index < Datagram.count arch notification, RefusedAt arch memory notification index →
      call = .sendmmsg ∧ ∃ n ≤ index, reply = .value n

end

section

variable {w : View} {arch : Arch} {memory : Memory} {notification : Notification}

/-- A length that the broker accepts fits into 32 bits. -/
theorem low_of_family {tid : UInt32} {address length : UInt64} {family : UInt16}
    (h : memory.family tid address length = .ok family) :
    (Data.low length).toUInt64 = length := by
  have hlength : ¬(length < 2 ∨ 2 ^ 31 - 1 < length.toNat) := by
    intro hbad
    unfold Memory.family at h
    rw [if_pos hbad] at h
    cases h
  apply UInt64.toNat_inj.mp
  simp only [Data.low, UInt32.toNat_toUInt64, UInt64.toNat_toUInt32]
  omega

theorem disconnects_of_family
    (h : memory.family notification.pid (notification.data.args 1) (notification.data.args 2) =
      .ok Libc.afUnspec) : Disconnects memory notification := by
  unfold Disconnects
  rw [low_of_family h]
  exact h

/-- An address of family `AF_INET` does not disconnect. -/
theorem family_of_ipv4 {tid : UInt32} {address length : UInt64} {target : SocketAddrV4}
    (h : memory.ipv4 tid address length = .ok target) :
    memory.family tid address length = .ok Libc.afInet := by
  unfold Memory.ipv4 at h
  obtain ⟨family, hfamily, h⟩ := bind_eq_ok.mp h
  split at h
  next => cases h
  next hne =>
    rw [hfamily]
    exact congrArg Except.ok (not_not.mp hne)

/-- Nothing is asked of a reply to a call that neither connects nor sends. -/
theorem outcome_of_unrelated {reply : Reply}
    (hconnect : notification.data.nr.toUInt32 ≠ arch.number .connect)
    (hsend : ∀ call ∈ [Syscall.sendto, .sendmsg, .sendmmsg],
      notification.data.nr.toUInt32 ≠ arch.number call) :
    Outcome arch memory notification reply := by
  refine ⟨fun _ => .inr (.inr ⟨hconnect, ?_⟩), fun h => absurd h hconnect, ?_⟩
  · intro haddressed
    rcases haddressed with h | h | h
    · exact hsend .sendmsg (by simp) h
    · exact hsend .sendmmsg (by simp) h
    · exact hsend .sendto (by simp) h.1
  · intro call hcall h
    exact absurd h (hsend call hcall)

/-- A call other than those that connect or send. -/
theorem outcome_of_number {reply : Reply} {call : Syscall}
    (hnr : notification.data.nr.toUInt32 = arch.number call)
    (hcall : call ∉ [Syscall.connect, .sendto, .sendmsg, .sendmmsg]) :
    Outcome arch memory notification reply := by
  have hne : ∀ other ∈ [Syscall.connect, .sendto, .sendmsg, .sendmmsg],
      notification.data.nr.toUInt32 ≠ arch.number other := by
    intro other hother h
    rw [hnr] at h
    rw [arch.number_injective h] at hcall
    exact hcall hother
  apply outcome_of_unrelated
  · exact hne .connect (by simp)
  · intro other hother
    exact hne other (List.mem_cons_of_mem _ hother)

namespace Datagram

theorem safe_connect_reply (hnr : notification.data.nr.toUInt32 = arch.number .connect) :
    datagramDiscipline.Safe (fun reply _ => Outcome arch memory notification reply)
      (connect memory notification) w := by
  have hsend : ∀ call ∈ [Syscall.sendto, .sendmsg, .sendmmsg],
      notification.data.nr.toUInt32 ≠ arch.number call := by
    intro call hcall h
    have heq := arch.number_injective (hnr.symm.trans h)
    subst call
    simp at hcall
  unfold connect
  refine Safe.bind safe_ofExcept fun family v hfamily => ?_
  split
  next hunspec =>
    subst family
    refine Safe.pure ⟨fun _ => .inr (.inl ⟨hnr, disconnects_of_family hfamily⟩), ?_, ?_⟩
    · intro _ target htarget
      have hinet := family_of_ipv4 htarget
      rw [hfamily] at hinet
      exact absurd (Except.ok.inj hinet) (by decide)
    · intro call hcall h
      exact absurd h (hsend call hcall)
  next =>
    refine Safe.bind safe_ofExcept fun target v htarget => ?_
    refine Safe.bind (safe_serverFor target) fun localAddr v hv => ?_
    obtain ⟨haimed, hport⟩ := hv
    refine Safe.bind (safe_quiet .valid rfl (stable_aimed localAddr) haimed) fun _ v hv => ?_
    refine Safe.bind (safe_connect hv) fun _ v _ => ?_
    refine Safe.pure ⟨fun h => (nomatch h), ?_, ?_⟩
    · intro _ target' htarget'
      rw [htarget] at htarget'
      cases htarget'
      exact hport
    · intro call hcall h
      exact absurd h (hsend call hcall)

theorem safe_peerName :
    datagramDiscipline.Safe (fun _ _ => True) (peerName arch memory notification) w := by
  unfold peerName
  refine Safe.bind (R := fun _ _ => True) (Spec.weaken (fun _ _ _ _ _ => trivial)
    (spec_peerAddress _)) fun actual v _ => ?_
  refine Safe.bind (safe_originalServer actual stable_true trivial) fun original v _ => ?_
  cases original with
  | none => exact Safe.pure trivial
  | some original =>
    refine Safe.bind (safe_quiet .valid rfl stable_true trivial) fun _ v _ => ?_
    refine Safe.bind (R := fun _ _ => True) ?_ fun _ v _ => Safe.pure trivial
    unfold Memory.peerName
    refine Safe.bind safe_ofExcept fun capacity v _ => ?_
    split
    next => exact Safe.throw
    next =>
      refine Safe.bind (R := fun _ _ => True) ?_ fun _ v _ => safe_write_field rfl
      unfold Memory.putAddress
      split
      next => exact Safe.throw
      next => exact safe_write_field rfl

/-- What the loop over the messages from an index on ends with: it stops at the
first message that is refused. -/
def LoopEnd (arch : Arch) (memory : Memory) (notification : Notification)
    (index remaining : Nat) : Reply ⊕ Progress → Prop
  | .inl reply => batch arch notification = false ∧ (∃ n, reply = .value n) ∧
      (receive arch notification = false → ¬RefusedAt arch memory notification index)
  | .inr progress =>
    (receive arch notification = false → ∀ k, index ≤ k → k < index + remaining →
      RefusedAt arch memory notification k → progress.completed ≤ k) ∧
    ∀ reply, progress.result = .ok reply →
      reply = .value 0 ∧ progress.completed = index + remaining

theorem loopEnd_stopped {index remaining : Nat} {error : IoError} :
    LoopEnd arch memory notification index remaining (.inr ⟨index, .error error⟩) :=
  ⟨fun _ _ hk _ _ => hk, fun _ h => nomatch h⟩

theorem loopEnd_next {index remaining : Nat} {out : Reply ⊕ Progress}
    (hbatch : batch arch notification = true)
    (hindex : receive arch notification = false → ¬RefusedAt arch memory notification index)
    (h : LoopEnd arch memory notification (index + 1) remaining out) :
    LoopEnd arch memory notification index (remaining + 1) out := by
  cases out with
  | inl reply =>
    have hfalse := h.1
    rw [hbatch] at hfalse
    cases hfalse
  | inr progress =>
    obtain ⟨hrefused, hresult⟩ := h
    constructor
    · intro hr k hk hlt hk'
      have hne : k ≠ index := by
        intro heq
        rw [heq] at hk'
        exact hindex hr hk'
      exact hrefused hr k (by omega) (by omega) hk'
    · intro reply hreply
      obtain ⟨hvalue, hcompleted⟩ := hresult reply hreply
      exact ⟨hvalue, by omega⟩

/-- One message of the loop. -/
theorem safe_message {retries : Nat} {deadline : Option Nat} {index : Nat} {header : UInt64}
    (hheader : headerPointer notification index = some header) :
    datagramDiscipline.Safe
      (fun _ _ => receive arch notification = false → ¬RefusedAt arch memory notification index)
      (do
        let message ← Act.ofExcept (message arch memory notification header)
        transfer retries memory notification.pid message (currentFlags arch notification index)
          deadline (receive arch notification)) w := by
  refine Safe.bind safe_ofExcept fun m v hm => ?_
  refine safe_transfer.weaken ?_
  intro _ _ hr hreceive hrefused
  obtain ⟨header', m', hheader', hm', hm'refused⟩ := hrefused
  rw [hheader] at hheader'
  cases hheader'
  rw [hm] at hm'
  cases hm'
  exact hr hreceive hm'refused

theorem safe_messages {retries : Nat} {deadline : Option Nat} (remaining index : Nat) :
    datagramDiscipline.Safe (fun out _ => LoopEnd arch memory notification index remaining out)
      (messages arch retries memory notification deadline remaining index) w := by
  induction remaining generalizing index w with
  | zero =>
    apply Safe.pure
    refine ⟨fun _ k hk hlt => ?_, fun reply hreply => ?_⟩
    · omega
    · cases hreply
      exact ⟨rfl, rfl⟩
  | succ remaining ih =>
    unfold messages
    split
    next => exact Safe.throw
    next header hheader =>
      refine Safe.bind (Spec.attempt (safe_message hheader)) fun operation v hoperation => ?_
      cases operation with
      | error error => exact Safe.pure loopEnd_stopped
      | ok length =>
        have hindex := hoperation length rfl
        dsimp only
        split
        next hbatch =>
          exact Safe.pure ⟨by simpa using hbatch, ⟨length, rfl⟩, hindex⟩
        next hbatch =>
          refine Safe.bind (safe_quiet .valid rfl stable_true trivial) fun _ v _ => ?_
          refine Safe.bind (Spec.attempt (safe_write_field rfl)) fun written v _ => ?_
          cases written with
          | error error => exact Safe.pure loopEnd_stopped
          | ok _ =>
            refine (ih (index + 1)).weaken ?_
            intro out _ hout
            exact loopEnd_next (by simpa using hbatch) hindex hout

theorem safe_socketDeadline :
    datagramDiscipline.Safe (fun _ _ => True) (socketDeadline arch notification) w := by
  unfold socketDeadline
  refine Safe.bind (safe_quiet (.timeout _) rfl stable_true trivial) fun timeout v _ => ?_
  split
  next => exact Safe.pure trivial
  next =>
    refine Safe.bind (safe_quiet .now rfl stable_true trivial) fun now v _ => ?_
    exact Safe.pure trivial

theorem safe_batchDeadline :
    datagramDiscipline.Safe
      (fun deadline _ => ∀ d, deadline = some d → batch arch notification = true)
      (batchDeadline arch memory notification) w := by
  unfold batchDeadline
  dsimp only
  split
  next hcall =>
    have hbatch : batch arch notification = true := by
      unfold batch
      rw [hcall.1]
      simp
    refine Safe.bind safe_ofExcept fun bytes v _ => ?_
    split
    next => exact Safe.throw
    next =>
      refine Safe.bind (safe_quiet .now rfl stable_true trivial) fun now v _ => ?_
      split
      next => exact Safe.pure fun _ _ => hbatch
      next => exact Safe.throw
  next =>
    apply Safe.pure
    intro d hd
    cases hd

theorem safe_settleTimeout {deadline : Option Nat} {progress : Progress} :
    datagramDiscipline.Safe (fun timedOut _ => timedOut = true → ∃ d, deadline = some d)
      (settleTimeout notification deadline progress) w := by
  unfold settleTimeout
  split
  next =>
    apply Safe.pure
    intro h
    cases h
  next d =>
    refine Safe.bind (safe_quiet .valid rfl stable_true trivial) fun _ v _ => ?_
    refine Safe.bind (safe_quiet .now rfl stable_true trivial) fun now v _ => ?_
    refine Safe.bind (safe_write_field rfl) fun _ v _ => ?_
    split
    next => exact Safe.pure fun _ => ⟨d, rfl⟩
    next =>
      refine Safe.bind (safe_quiet .now rfl stable_true trivial) fun now v _ => ?_
      exact Safe.pure fun _ => ⟨d, rfl⟩

theorem safe_transferAll {retries : Nat} :
    datagramDiscipline.Safe
      (fun reply _ => reply ≠ .continueSyscall ∧ (receive arch notification = false →
        ∀ index < count arch notification, RefusedAt arch memory notification index →
          batch arch notification = true ∧ ∃ n : Nat, n ≤ index ∧ reply = .value n))
      (transferAll arch retries memory notification) w := by
  unfold transferAll
  refine Safe.bind (safe_quiet .asyncFd rfl stable_true trivial) fun _ v _ => ?_
  refine Safe.bind safe_socketDeadline fun socketDeadline v _ => ?_
  refine Safe.bind safe_batchDeadline fun batchDeadline v hdeadline => ?_
  refine Safe.bind (safe_messages (count arch notification) 0) fun out v hout => ?_
  cases out with
  | inl reply =>
    obtain ⟨hbatch, ⟨n, hn⟩, hindex⟩ := hout
    have hcount : count arch notification = 1 := by simp [count, hbatch]
    refine Safe.pure ⟨by simp [hn], ?_⟩
    intro hr index hlt hrefused
    have hzero : index = 0 := by omega
    rw [hzero] at hrefused
    exact absurd hrefused (hindex hr)
  | inr progress =>
    obtain ⟨hcompleted, hresult⟩ := hout
    refine Safe.bind safe_settleTimeout fun timedOut v htimedOut => ?_
    split
    next htrue =>
      obtain ⟨d, hd⟩ := htimedOut htrue
      refine Safe.pure ⟨by simp, ?_⟩
      intro _ index _ _
      exact ⟨hdeadline d hd, 0, Nat.zero_le _, rfl⟩
    next =>
      split
      next hpos =>
        refine Safe.pure ⟨by simp, ?_⟩
        intro hr index hlt hrefused
        have hle := hcompleted hr index (Nat.zero_le _) (by omega) hrefused
        refine ⟨?_, progress.completed, hle, rfl⟩
        by_contra hbatch
        have hcount : count arch notification = 1 := by simp [count, hbatch]
        omega
      next hpos =>
        refine safe_ofExcept.weaken ?_
        intro reply _ hreply
        obtain ⟨hvalue, hall⟩ := hresult reply hreply
        refine ⟨by simp [hvalue], ?_⟩
        intro hr index hlt hrefused
        omega

theorem receive_of_send {call : Syscall} (hcall : call ∈ [Syscall.sendto, .sendmsg, .sendmmsg])
    (hnr : notification.data.nr.toUInt32 = arch.number call) :
    receive arch notification = false := by
  unfold receive Datagram.call
  rw [hnr]
  simp only [List.mem_cons, List.not_mem_nil, or_false] at hcall
  rcases hcall with h | h | h <;> subst call <;> cases arch <;> rfl

theorem sendmmsg_of_batch {call : Syscall} (hcall : call ∈ [Syscall.sendto, .sendmsg, .sendmmsg])
    (hnr : notification.data.nr.toUInt32 = arch.number call)
    (hbatch : batch arch notification = true) : call = .sendmmsg := by
  unfold batch Datagram.call at hbatch
  rw [hnr] at hbatch
  simp only [List.mem_cons, List.not_mem_nil, or_false] at hcall
  rcases hcall with h | h | h
  · subst call
    cases arch <;> exact absurd hbatch (by decide)
  · subst call
    cases arch <;> exact absurd hbatch (by decide)
  · exact h

theorem safe_dispatch {retries : Nat} :
    datagramDiscipline.Safe (fun reply _ => Outcome arch memory notification reply)
      (dispatch arch retries memory notification) w := by
  unfold dispatch
  split
  next hnr => exact safe_connect_reply hnr
  next hconnect =>
    split
    next hnr =>
      refine safe_peerName.weaken ?_
      intro _ _ _
      rcases hnr with hnr | hnr
      · exact outcome_of_number hnr (by simp)
      · exact outcome_of_number hnr (by simp)
    next =>
      refine safe_transferAll.weaken ?_
      intro reply _ hreply
      obtain ⟨hcontinue, hrefused⟩ := hreply
      refine ⟨fun h => absurd h hcontinue, fun h => absurd h hconnect, ?_⟩
      intro call hcall hnr index hlt hat
      obtain ⟨hbatch, n, hn, hvalue⟩ := hrefused (receive_of_send hcall hnr) index hlt hat
      exact ⟨sendmmsg_of_batch hcall hnr hbatch, n, hn, hvalue⟩

end Datagram

theorem outcome_of_isOpen {reply : Reply}
    (h : Broker.isOpen arch notification.data.nr.toUInt32 = true) :
    Outcome arch memory notification reply := by
  apply outcome_of_unrelated
  · intro hnr
    rw [hnr, isOpen_number arch (by simp) (by simp)] at h
    cases h
  · intro call hcall hnr
    have hne : call ≠ .openat ∧ call ≠ .openat2 := by
      constructor
      · intro heq
        subst call
        simp at hcall
      · intro heq
        subst call
        simp at hcall
    rw [hnr, isOpen_number arch hne.1 hne.2] at h
    cases h

/-- Whatever the other tasks do, the task of a call on a UDP socket keeps to
its discipline, and its reply is a sound one. -/
theorem spec_dispatch (arch : Arch) (retries : Nat) (memory : Memory)
    (notification : Notification) (w : View) :
    datagramDiscipline.Safe (fun reply _ => Outcome arch memory notification reply)
      (Broker.dispatch arch retries memory notification) w := by
  unfold Broker.dispatch
  refine Safe.bind (safe_quiet .valid rfl stable_true trivial) fun _ v _ => ?_
  dsimp only
  split
  next hopen =>
    refine Safe.weaken (fun _ _ _ => outcome_of_isOpen hopen)
      (safe_quiet .openFile rfl stable_true trivial)
  next =>
    split
    next hnr => exact safe_ofExcept.weaken fun _ _ _ => outcome_of_number hnr (by simp)
    next =>
      split
      next => exact Safe.throw
      next =>
        refine Safe.bind (safe_quiet .get rfl stable_true trivial) fun _ v _ => ?_
        refine Safe.bind (safe_quiet .valid rfl stable_true trivial) fun _ v _ => ?_
        refine Safe.bind safe_domain fun domain v hdomain => ?_
        refine Safe.bind (R := fun _ _ => True) ?_ fun _ v _ => ?_
        · split
          next => exact safe_quiet .checkUnixConnect rfl stable_true trivial
          next => exact Safe.pure trivial
        rw [if_neg (not_not.mpr hdomain)]
        refine Safe.bind safe_protocol fun protocol v hprotocol => ?_
        rw [hprotocol, if_neg (by decide), if_pos rfl]
        exact Datagram.safe_dispatch

end

end Scproxy
