import Scproxy.ConfinedCalls
import Scproxy.DispatchOutcome

namespace Scproxy

open Interaction

namespace ResolverFiles

variable {context : RequestContext} {memory : Memory} {notification : Notification}

/-- The descriptor that is sent is the one that was opened, and it cannot be written. -/
theorem confines_send {spelling : List UInt8} {flags : UInt32} {file : ConfigFile}
    (hopen : Broker.isOpen context.arch notification.data.nr.toUInt32 = true)
    (hfile : file ∈ context.files) (hflags : checkFlags context.arch spelling flags = .ok ()) :
    Confines context memory notification (send context.arch flags file).run := by
  rintro _ past rfl
  refine ⟨⟨hopen, ⟨file, hfile, rfl⟩, readsOnly_reopen hflags⟩, ?_⟩
  rintro r _ rfl
  cases r with
  | error error => exact List.subset_append_left _ _
  | ok descriptor =>
    rintro _ rfl
    refine ⟨trivial, ?_⟩
    rintro r _ rfl
    cases r with
    | error error =>
      change past ⊆ past ++ [_] ++ [_]
      rw [List.append_assoc]
      exact List.subset_append_left _ _
    | ok _ =>
      rintro _ rfl
      refine ⟨⟨hopen, file.descriptor, _,
        List.mem_append_left _ (List.mem_append_right _ (List.mem_singleton.mpr rfl))⟩, ?_⟩
      rintro r _ rfl
      have hpast : ∀ a b c : RequestEvent, past ⊆ past ++ [a] ++ [b] ++ [c] := by
        intro a b c
        rw [List.append_assoc, List.append_assoc]
        exact List.subset_append_left _ _
      cases r with
      | error error => exact hpast _ _ _
      | ok _ => exact hpast _ _ _

theorem confines_absolutePath {std : PathStd} {tid dirfd : UInt32} {path : List UInt8} :
    Confines context memory notification (absolutePath std tid dirfd path).run := by
  unfold absolutePath
  split
  · exact confines_done
  · refine Confines.bind ?_ fun _ => confines_done
    split
    · exact free_operation (.file (.workingDirectory _)) rfl
    · exact free_operation (.file (.directory ..)) rfl

theorem confines_openFile
    (hopen : Broker.isOpen context.arch notification.data.nr.toUInt32 = true) :
    Confines context memory notification
      (openFile context.arch context.std context.files memory notification).run := by
  unfold openFile
  refine (free_operation (.file (.path ..)) rfl).bind fun path => ?_
  split
  · exact confines_done
  · refine confines_absolutePath.bind fun path => ?_
    refine (free_operation (.file (.canonicalize _)) rfl).bind fun canonical => ?_
    split
    · exact confines_done
    next file hfind =>
      refine confines_done.bind fun flags => ?_
      cases hflags : checkFlags context.arch path flags with
      | error error => exact confines_done
      | ok _ =>
        refine Confines.bind confines_done fun _ => Confines.bind ?_ fun symlink => ?_
        · split
          · exact free_operation (.file (.isSymlink _)) rfl
          · exact confines_done
        · split
          · exact confines_send hopen (List.mem_of_find?_eq_some hfind) hflags
          · split
            · exact confines_done
            · exact confines_done

end ResolverFiles

namespace Broker

variable {context : RequestContext} {memory : Memory} {notification : Notification}

theorem free_requestTarget {socketOption : Bool} :
    (requestTarget socketOption).run.Performs fun op => op.free = true := by
  refine Performs.andThen ⟨rfl, fun _ => trivial⟩ fun cookie => ?_
  refine Performs.andThen ⟨rfl, fun _ => trivial⟩ fun peer => ?_
  cases peer with
  | none => trivial
  | some peer => exact Performs.andThen free_act fun _ => trivial

theorem free_dispatchTcp : (dispatchTcp context.arch context.config context.relay memory
    notification).run.Performs fun op => op.free = true := by
  unfold dispatchTcp
  refine Performs.andThen ?_ fun urgent => ?_
  · split
    · exact free_requestTarget
    · trivial
  · split
    · trivial
    · split
      · exact Performs.handle performs_true fun _ _ => ⟨rfl, fun _ => trivial⟩
      · split
        · refine Performs.andThen free_requestTarget fun target => ?_
          cases target with
          | none => trivial
          | some target => exact free_act.andThen fun _ => free_act.andThen fun _ => trivial
        · trivial

/-- What `dispatch` is told about the operations of the whole task. -/
def dispatchDiscipline (arch : Arch) (memory : Memory) (notification : Notification) :
    Discipline Operation Operation.Ret (List RequestEvent) where
  rely past past' := past' = past
  rely_trans _ _ _ huv hvw := hvw.trans huv
  guard
    | .openFile, _ => isOpen arch notification.data.nr.toUInt32 = true
    | _, _ => True
  after
    | .domain, r, past, past' => past ⊆ past' ∧ ⟨.base .domain, r⟩ ∈ past'
    | .checkUnixConnect, r, past, past' =>
      past ⊆ past' ∧ r = ResolverFiles.checkUnixConnect memory notification
    | _, _, past, past' => past ⊆ past'

variable {arch : Arch} {past : List RequestEvent}

theorem subset_of_after {op : Operation} {r : op.Ret} {past past' : List RequestEvent}
    (h : (dispatchDiscipline arch memory notification).after op r past past') : past ⊆ past' := by
  cases op with
  | domain => exact h.1
  | checkUnixConnect => exact h.1
  | _ => exact h

/-- Once a call may continue it stays so. -/
theorem continued_spec {α : Type} {p : Interaction Operation Operation.Ret α}
    (h : Continued arch memory notification past) (hp : p.Performs fun op => op ≠ .openFile) :
    (dispatchDiscipline arch memory notification).Spec
      (fun _ past' => Continued arch memory notification past') p past := by
  refine Discipline.Spec.weaken (fun _ _ h => h.2)
    (Performs.spec (I := Continued arch memory notification) ?_ ?_ hp yields_true h)
  · rintro v _ hv rfl
    exact hv
  · intro op hop v hv
    refine ⟨?_, fun r v' hafter => hv.mono (subset_of_after hafter)⟩
    cases op with
    | openFile => exact absurd rfl hop
    | _ => trivial

/-- A call with one of these numbers is not another one. -/
theorem continued_of_number {call : Syscall} (hnr : notification.data.nr.toUInt32 = arch.number call)
    (hsocket : call = .socket → SocketConfined notification.data.args) (hconnect : call ≠ .connect)
    (hsend : call ∉ [Syscall.sendto, .sendmsg, .sendmmsg]) :
    Continued arch memory notification past where
  socket heq := hsocket (arch.number_injective (hnr.symm.trans heq))
  fastopen _ hother heq :=
    absurd (arch.number_injective (hnr.symm.trans heq) ▸ hother) hsend
  unix heq := absurd (arch.number_injective (hnr.symm.trans heq)) hconnect

theorem continued_of_isOpen (h : isOpen arch notification.data.nr.toUInt32 = true) :
    Continued arch memory notification past := by
  have hother : ∀ call, call ≠ .openat → call ≠ .openat2 →
      notification.data.nr.toUInt32 ≠ arch.number call := by
    intro call hopenat hopenat2 heq
    rw [heq, isOpen_number arch hopenat hopenat2] at h
    cases h
  refine ⟨fun heq => absurd heq (hother _ (by simp) (by simp)), fun call hcall heq => ?_,
    fun heq => absurd heq (hother _ (by simp) (by simp))⟩
  refine absurd heq (hother call ?_ ?_)
  · rintro rfl
    simp at hcall
  · rintro rfl
    simp at hcall

theorem plain_ne_openFile {α : Type} {p : Act α} (hp : p.Plain) :
    p.run.Performs fun op => op ≠ .openFile := by
  refine Performs.mono hp ?_
  rintro op hop rfl
  cases hop

theorem safe_operation {α : Type} {op : Operation} {next : op.Ret → Except IoError α}
    {R : α → List RequestEvent → Prop} (hop : op ≠ .openFile)
    (h : ∀ r past', (dispatchDiscipline arch memory notification).after op r past past' →
      ∀ a, next r = .ok a → R a past') :
    (dispatchDiscipline arch memory notification).Safe R
      (ExceptT.mk (.perform op fun r => .done (next r))) past := by
  rintro _ rfl
  refine ⟨?_, fun r past' hafter a ha => h r past' hafter a ha⟩
  cases op with
  | openFile => exact absurd rfl hop
  | _ => trivial

theorem safe_any {α : Type} (op : Operation) {next : op.Ret → Except IoError α}
    (hop : op ≠ .openFile) : (dispatchDiscipline arch memory notification).Safe (fun _ _ => True)
      (ExceptT.mk (.perform op fun r => .done (next r))) past :=
  safe_operation hop fun _ _ _ _ _ => trivial

theorem fastopen_of_isFastopen (h : ¬isFastopen arch notification.data = true) :
    ∀ call ∈ [Syscall.sendto, .sendmsg, .sendmmsg],
      notification.data.nr.toUInt32 = arch.number call →
        flags arch notification.data &&& Libc.msgFastopen = 0 := by
  intro call hcall heq
  have hmem : [arch.number .sendto, arch.number .sendmsg, arch.number .sendmmsg].contains
      notification.data.nr.toUInt32 = true := by
    rw [heq, List.contains_iff_mem]
    simp only [List.mem_cons, List.not_mem_nil, or_false] at hcall
    rcases hcall with rfl | rfl | rfl
    · simp
    · simp
    · simp
  rw [isFastopen, hmem, Bool.true_and] at h
  simpa using h

/-- What is known of a call on a Unix socket that is not refused. -/
theorem safe_checkUnix {domain : UInt32} (hdomain : ⟨.base .domain, .ok domain⟩ ∈ past) :
    (dispatchDiscipline arch memory notification).Safe
      (fun _ past' => ⟨.base .domain, .ok domain⟩ ∈ past' ∧
        (domain = Libc.afUnix.toUInt32 → notification.data.nr.toUInt32 = arch.number .connect →
          ∀ path ∈ ResolverFiles.resolverSockets.map asBytes,
            ¬ResolverFiles.Names memory notification path))
      (if domain = Libc.afUnix.toUInt32 ∧ notification.data.nr.toUInt32 = arch.number .connect
        then Act.checkUnixConnect else pure ()) past := by
  split
  · refine safe_operation (by simp) fun r past' hafter _ hr => ⟨hafter.1 hdomain, ?_⟩
    intro _ _ path hpath hnames
    have hok : ResolverFiles.checkUnixConnect memory notification = .ok () := hafter.2.symm.trans hr
    exact ResolverFiles.checkUnixConnect_ne_ok hpath hnames hok
  next hother =>
    exact Discipline.Safe.pure ⟨hdomain, fun hunix hconnect => absurd ⟨hunix, hconnect⟩ hother⟩

/-- A call that `dispatch` lets the kernel run. -/
theorem safe_dispatch_continued (retries : Nat) :
    (dispatchDiscipline arch memory notification).Safe
      (fun reply past' => reply = .continueSyscall → Continued arch memory notification past')
      (dispatch arch retries memory notification) past := by
  unfold dispatch
  refine (safe_any .valid (by simp)).bind fun _ past _ => ?_
  dsimp only
  split
  next hopen =>
    rintro _ rfl
    exact ⟨hopen, fun _ _ _ _ _ _ => continued_of_isOpen hopen⟩
  next hopen =>
    split
    next hsocket =>
      rintro reply hreply rfl
      exact continued_of_number hsocket (fun _ => socketConfined_of_socket hreply) (by simp)
        (by simp)
    next hsocket =>
      split
      · exact Discipline.Safe.throw
      next hfastopen =>
        refine (safe_any .get (by simp)).bind fun _ past _ => ?_
        refine (safe_any .valid (by simp)).bind fun _ past _ => ?_
        refine Discipline.Safe.bind (R := fun domain past => ⟨.base .domain, .ok domain⟩ ∈ past)
          (safe_operation (by simp) ?_) fun domain past hdomain => ?_
        · rintro r past' hafter a rfl
          exact hafter.2
        · refine (safe_checkUnix hdomain).bind fun _ past hunix => ?_
          have hcontinued : Continued arch memory notification past :=
            ⟨fun heq => absurd heq hsocket, fastopen_of_isFastopen hfastopen,
              fun heq => ⟨domain, hunix.1, fun hdomain => hunix.2 hdomain heq⟩⟩
          refine Discipline.Spec.weaken (fun _ _ h _ _ _ => h) (continued_spec hcontinued ?_)
          split
          · trivial
          · refine Performs.andThen ⟨by simp, fun _ => trivial⟩ fun protocol => ?_
            split
            · exact ⟨by simp, fun _ => trivial⟩
            · split
              · exact plain_ne_openFile Datagram.plain_dispatch
              · trivial

end Broker

end Scproxy
