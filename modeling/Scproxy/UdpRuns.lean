import Scproxy.UdpOperations

namespace Scproxy

open Seccomp

/-- An allowed call has passed the checks of the architecture and of the blocked calls. -/
theorem of_verdict_allow {arch : Arch} {data : Data} (h : verdict arch data = retAllow) :
    data.arch = arch.nativeArch ∧
      ¬(data.nr.toUInt32.toNat.testBit 30 ∨ data.nr.toUInt32 ∈ arch.ioUring) := by
  unfold verdict at h
  by_cases harch : data.arch ≠ arch.nativeArch
  · rw [if_pos harch] at h
    exact absurd h (by decide)
  rw [if_neg harch] at h
  refine ⟨not_not.mp harch, ?_⟩
  intro hblocked
  rw [if_pos hblocked] at h
  exact absurd h (by decide)

theorem verdict_of_number {arch : Arch} {data : Data} {call : Syscall}
    (hcall : call ∈ [Syscall.connect, .sendmsg, .sendmmsg])
    (hnr : data.nr.toUInt32 = arch.number call) : verdict arch data ≠ retAllow := by
  have hnotified : arch.number call ∈ arch.notified := by
    unfold Arch.notified
    simp only [List.mem_cons, List.not_mem_nil, or_false] at hcall
    rcases hcall with h | h | h <;> simp [h]
  have hne : ∀ other ∈ [Syscall.getsockopt, .sendto, .recvfrom],
      ¬arch.number call = arch.number other := by
    intro other hother h
    rw [arch.number_injective h] at hcall
    simp only [List.mem_cons, List.not_mem_nil, or_false] at hcall hother
    rcases hother with h | h | h <;> subst other <;> simp at hcall
  intro hallow
  obtain ⟨harch, hpassed⟩ := of_verdict_allow hallow
  unfold verdict at hallow
  rw [hnr] at hpassed hallow
  rw [if_neg (not_not.mpr harch), if_neg hpassed, if_neg (hne .getsockopt (by simp)),
    if_neg (hne .sendto (by simp)), if_neg (hne .recvfrom (by simp)), if_pos hnotified] at hallow
  exact absurd hallow (by decide)

theorem verdict_of_addressed {arch : Arch} {data : Data}
    (hnr : data.nr.toUInt32 = arch.number .sendto) (haddress : data.args 4 ≠ 0) :
    verdict arch data ≠ retAllow := by
  have hne : ¬arch.number .sendto = arch.number .getsockopt := by
    intro h
    cases arch.number_injective h
  intro hallow
  obtain ⟨harch, hpassed⟩ := of_verdict_allow hallow
  unfold verdict at hallow
  rw [hnr] at hpassed hallow
  rw [if_neg (not_not.mpr harch), if_neg hpassed, if_neg hne, if_pos rfl,
    if_pos (Or.inr haddress)] at hallow
  exact absurd hallow (by decide)

/-- A call that the filter allows is a plain send at most. -/
theorem allowed_harmless {arch : Arch} {data : Data}
    (h : Bpf.execute data.word (filter arch) = some retAllow) :
    data.nr.toUInt32 ≠ arch.number .connect ∧ ¬AddressedSend arch data := by
  have hverdict : verdict arch data = retAllow := by
    rw [Bpf.execute_eq_exec, exec_filter] at h
    exact Option.some.inj h
  refine ⟨fun hnr => verdict_of_number (by simp) hnr hverdict, ?_⟩
  intro haddressed
  rcases haddressed with hnr | hnr | ⟨hnr, haddress⟩
  · exact verdict_of_number (by simp) hnr hverdict
  · exact verdict_of_number (by simp) hnr hverdict
  · exact verdict_of_addressed hnr haddress hverdict

/-- A call that a reply hands back to the kernel. -/
theorem continued_harmless {arch : Arch} {memory : Memory} {notification : Notification}
    (h : Harmless arch memory notification)
    (hsocket : notification.data.nr.toUInt32 ≠ arch.number .socket) :
    (notification.data.nr.toUInt32 = arch.number .connect → Disconnects memory notification) ∧
      ¬AddressedSend arch notification.data := by
  rcases h with h | ⟨hnr, hdisconnects⟩ | ⟨hconnect, haddressed⟩
  · exact absurd h hsocket
  · refine ⟨fun _ => hdisconnects, ?_⟩
    intro haddressed
    rcases haddressed with h | h | ⟨h, _⟩ <;>
      cases arch.number_injective (hnr.symm.trans h)
  · exact ⟨fun hnr => absurd hnr hconnect, haddressed⟩

theorem taskOk_dispatch {arch : Arch} {servers : Servers} {sent : List Packet}
    (notification : Notification) (memory : Memory) (i retries : Nat) :
    TaskOk arch servers sent ⟨notification, memory, i, none, none,
      (Broker.dispatch arch retries memory notification).run⟩ := by
  refine ⟨spec_dispatch arch retries memory notification _, ?_⟩
  intro arrival harrival
  cases harrival

theorem socketOk_arrive {servers : Servers} {sent : List Packet} {socket : UdpSocket}
    {arrival : Arrival} (h : SocketOk servers sent socket) (harrival : ArrivalOk sent arrival) :
    SocketOk servers sent (socket.arrive arrival) := by
  refine ⟨h.peer, ?_⟩
  intro a ha
  rcases List.mem_append.mp ha with hold | hnew
  · exact h.inbox a hold
  · rw [List.mem_singleton.mp hnew]
    exact harrival

/-- One step of the system. -/
theorem udpOk_step {arch : Arch} {s t : UdpSystem} (h : UdpOk arch s) (hstep : UdpStep arch s t) :
    UdpOk arch t ∧ s.servers.Extends t.servers := by
  cases hstep with
  | native hallow hsocket hcall =>
    obtain ⟨hconnect, haddressed⟩ := allowed_harmless hallow
    exact ⟨udpOk_kernelCall h ⟨fun hnr => absurd hnr hconnect, haddressed⟩ hsocket hcall, .refl _⟩
  | notify _ _ =>
    refine ⟨h.setTask ?_, .refl _⟩
    intro task htask
    cases htask
    exact taskOk_dispatch _ _ _ _
  | operate hid hprogram hr => exact udpOk_operate h hid hprogram hr
  | @proceed id task socket socket' packets hid hprogram hnr hsocket hcall =>
    have hspec := (h.tasks id task hid).program
    rw [hprogram] at hspec
    have houtcome := hspec _ rfl
    have hharmless := continued_harmless (houtcome.harmless rfl) hnr
    have hcalled := udpOk_kernelCall h hharmless hsocket hcall
    exact ⟨hcalled.setTask fun _ ht => (nomatch ht), .refl _⟩
  | create _ _ _ _ _ =>
    have hempty : SocketOk s.servers s.sent ⟨none, none, []⟩ := by
      constructor
      · intro peer hpeer
        cases hpeer
      · intro arrival harrival
        cases harrival
    exact ⟨(h.setSocket hempty).setTask fun _ ht => (nomatch ht), .refl _⟩
  | finish => exact ⟨h.setTask fun _ ht => (nomatch ht), .refl _⟩
  | @serve packet destination mapping response socket hsent hregistered hanswer hsocket =>
    have hmapped : UdpOk arch (s.setMapping mapping) := h.setMapping
    refine ⟨hmapped.setSocket (socketOk_arrive (h.sockets _ socket hsocket) ?_), .refl _⟩
    intro query hquery
    cases hquery
    exact ⟨rfl, hsent⟩
  | @stray i socket source payload hsocket =>
    refine ⟨h.setSocket (socketOk_arrive (h.sockets i socket hsocket) ?_), .refl _⟩
    intro query hquery
    cases hquery
  | @lose i socket before after arrival hsocket hinbox =>
    have hold := h.sockets i socket hsocket
    exact ⟨h.setSocket (hold.remove hinbox), .refl _⟩

theorem udpOk_initial {arch : Arch} {s : UdpSystem} (h : s.Initial) : UdpOk arch s := by
  obtain ⟨⟨os, localAddr, hfresh, hcall⟩, _, hsockets, htasks, hsent, hstored⟩ := h
  obtain ⟨hok, _, _⟩ := serverFor_preserves serversOk_empty hfresh hcall
  refine ⟨hok, ?_, ?_, ?_, ?_⟩
  · intro i socket hi
    rw [hsockets i] at hi
    cases hi
  · intro packet hp
    rw [hsent] at hp
    cases hp
  · intro id task hid
    rw [htasks id] at hid
    cases hid
  · intro entry he
    rw [hstored] at he
    cases he

theorem udpOk_reachable {arch : Arch} {s : UdpSystem} (h : (udpSystem arch).Reachable s) :
    UdpOk arch s :=
  Transition.ReachableWith.invariant (I := UdpOk arch) (fun _ hs => udpOk_initial hs)
    (fun _ _ _ hs _ hstep => (udpOk_step hs hstep).1) h

/-- Entries are kept along every run. -/
theorem extends_steps {arch : Arch} {s t : UdpSystem} (h : UdpOk arch s)
    (hsteps : (udpSystem arch).Steps s t) : s.servers.Extends t.servers :=
  Transition.Steps.relate (I := UdpOk arch) (R := fun s t => s.servers.Extends t.servers)
    (fun _ => .refl _) (fun _ _ _ hst htu => hst.trans htu)
    (fun _ _ _ hs hstep => udpOk_step hs hstep) h hsteps

end Scproxy
