import Scproxy.Confinement

namespace Scproxy

open Interaction

namespace Seccomp

open Bpf

variable {arch : Arch} {data : Data}

/-- A call that the filter does not refuse. -/
theorem native_of_verdict (h : verdict arch data = retAllow ∨ verdict arch data = retUserNotif) :
    data.arch = arch.nativeArch ∧ data.nr.toUInt32.toNat.testBit 30 = false ∧
      data.nr.toUInt32 ∉ arch.ioUring := by
  have hrefused : ∀ value, value = retKillProcess ∨ value = retErrno ||| Libc.enosys →
      ¬(value = retAllow ∨ value = retUserNotif) := by
    rintro value (rfl | rfl)
    · decide
    · decide
  unfold verdict at h
  dsimp only at h
  split at h
  next => exact absurd h (hrefused _ (Or.inl rfl))
  next harch =>
    split at h
    next => exact absurd h (hrefused _ (Or.inr rfl))
    next hcall =>
      rw [not_or, Bool.not_eq_true] at hcall
      exact ⟨not_not.mp harch, hcall⟩

theorem verdict_ne_allow {call : Syscall}
    (hcall : call ∈ [Syscall.socket, .connect, .sendmsg, .sendmmsg])
    (hnr : data.nr.toUInt32 = arch.number call) : verdict arch data ≠ retAllow := by
  have hne : ∀ other ∈ [Syscall.getsockopt, .sendto, .recvfrom],
      arch.number call ≠ arch.number other := by
    rintro other hother heq
    cases arch.number_injective heq
    simp only [List.mem_cons, List.not_mem_nil, or_false] at hcall hother
    rcases hcall with rfl | rfl | rfl | rfl
    all_goals simp at hother
  have hnotified : arch.number call ∈ arch.notified := by
    refine List.mem_append_right _ (List.mem_map_of_mem ?_)
    simp only [List.mem_cons, List.not_mem_nil, or_false] at hcall ⊢
    rcases hcall with rfl | rfl | rfl | rfl
    all_goals simp
  unfold verdict
  dsimp only
  rw [hnr, if_neg (hne _ (by simp)), if_neg (hne _ (by simp)), if_neg (hne _ (by simp)),
    if_pos hnotified]
  split
  · decide
  · split
    · decide
    · decide

theorem flags_of_verdict_sendto (hnr : data.nr.toUInt32 = arch.number .sendto)
    (h : verdict arch data = retAllow) : Broker.flags arch data &&& Libc.msgFastopen = 0 := by
  have hflags : Broker.flags arch data = Data.low (data.args 3) := by
    unfold Broker.flags
    rw [hnr]
    simp
  have hne : arch.number .sendto ≠ arch.number .getsockopt := fun heq =>
    nomatch arch.number_injective heq
  unfold verdict at h
  dsimp only at h
  rw [hnr, if_neg hne, if_pos rfl] at h
  split at h
  · exact absurd h (by decide)
  · split at h
    · exact absurd h (by decide)
    · split at h
      · exact absurd h (by decide)
      next hplain =>
        rw [not_or, not_not] at hplain
        calc Broker.flags arch data &&& Libc.msgFastopen
          _ = Data.low (data.args 3) &&& ((Libc.msgOob ||| Libc.msgFastopen) &&&
                Libc.msgFastopen) := by rw [hflags, or_and_self]
          _ = 0 &&& Libc.msgFastopen := by rw [← UInt32.and_assoc, hplain.1]
          _ = 0 := UInt32.zero_and

theorem continued_of_allow {memory : Memory} {notification : Notification}
    {past : List RequestEvent} (h : verdict arch notification.data = retAllow) :
    Continued arch memory notification past where
  socket hnr := absurd h (verdict_ne_allow (by simp) hnr)
  fastopen call hcall hnr := by
    by_cases hsendto : call = .sendto
    · subst hsendto
      exact flags_of_verdict_sendto hnr h
    · refine absurd h (verdict_ne_allow ?_ hnr)
      simp only [List.mem_cons, List.not_mem_nil, or_false] at hcall ⊢
      tauto
  unix hnr := absurd h (verdict_ne_allow (by simp) hnr)

/-- The kernel runs the call: the filter allows it, or its task answers so after these events. -/
def Executes (context : RequestContext) (memory : Memory) (notification : Notification)
    (trace : List RequestEvent) : Prop :=
  (execute notification.data.word (filter context.arch) = some retAllow ∧ trace = []) ∨
  (execute notification.data.word (filter context.arch) = some retUserNotif ∧
    Behaves (context.resolvingTask memory notification) trace ∧
    ∃ value errno r, ⟨.respond value errno true, r⟩ ∈ trace)

/-- Filter and broker together. A call that the kernel runs is made through the native table of
system calls and not through a ring, it creates no socket but Unix, netlink, TCP and UDP ones, it
sends no data with a connection request, and it connects to no resolver service. -/
theorem native_calls_confined {context : RequestContext} {memory : Memory}
    {notification : Notification} {trace : List RequestEvent}
    (h : Executes context memory notification trace) :
    notification.data.arch = context.arch.nativeArch ∧
      notification.data.nr.toUInt32.toNat.testBit 30 = false ∧
      notification.data.nr.toUInt32 ∉ context.arch.ioUring ∧
      Continued context.arch memory notification trace := by
  have hverdict : execute notification.data.word (filter context.arch) =
      some (verdict context.arch notification.data) := by
    rw [execute_eq_exec, exec_filter]
  rw [Executes, hverdict, Option.some.injEq, Option.some.injEq] at h
  rcases h with ⟨hallow, rfl⟩ | ⟨hnotify, hbehaves, value, errno, r, hmem⟩
  · obtain ⟨harch, habi, hring⟩ := native_of_verdict (Or.inl hallow)
    exact ⟨harch, habi, hring, continued_of_allow hallow⟩
  · obtain ⟨harch, habi, hring⟩ := native_of_verdict (Or.inr hnotify)
    refine ⟨harch, habi, hring, ?_⟩
    obtain ⟨before, after, rfl⟩ := List.append_of_mem hmem
    have hfollows := follows_of_spec RequestContext.spec_resolvingTask hbehaves
    obtain ⟨_, _, hcontinued⟩ := hfollows.law_at rfl
    exact hcontinued.mono (List.subset_append_left _ _)

/-- A `socket` call for a TCP socket. -/
def socketCall : Notification :=
  ⟨1, 100, ⟨41, Arch.nativeArch .x86_64, 0, fun i => if i = 0 then 2 else if i = 1 then 1 else 0⟩⟩

theorem native_calls_confined_socket : SocketConfined socketCall.data.args := by
  have hrun : Runs (RequestContext.sealedContext.resolvingTask (fun _ => none) socketCall)
      [⟨.base .valid, .ok ()⟩, ⟨.respond 0 0 true, .ok ()⟩] (.ok ()) :=
    .perform (.perform (.done _))
  have hnotify : execute socketCall.data.word (filter .x86_64) = some retUserNotif := by
    decide +kernel
  have hexecutes : Executes RequestContext.sealedContext (fun _ => none) socketCall
      [⟨.base .valid, .ok ()⟩, ⟨.respond 0 0 true, .ok ()⟩] :=
    Or.inr ⟨hnotify, Or.inl ⟨_, hrun⟩, 0, 0, .ok (), by simp⟩
  exact (native_calls_confined hexecutes).2.2.2.socket rfl

end Seccomp

end Scproxy
