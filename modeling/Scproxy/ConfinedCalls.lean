import Scproxy.RequestAnswer
import Scproxy.ResolverConfig
import Scproxy.SeccompVerdict

namespace Scproxy

open Interaction

theorem masked_or_and {flags mask c k : UInt32} (hk : c &&& k = 0) :
    ((flags &&& ~~~mask) ||| c) &&& k = flags &&& (~~~mask &&& k) := by
  rw [← UInt32.toBitVec_inj] at *
  simp only [UInt32.toBitVec_and, UInt32.toBitVec_or, UInt32.toBitVec_not, UInt32.toBitVec_zero] at *
  ext i hi
  have hbit := congrArg (fun bits => bits.getLsbD i) hk
  simp at hbit ⊢
  grind

theorem or_and_self (flags c : UInt32) : (flags ||| c) &&& c = c := by
  rw [← UInt32.toBitVec_inj]
  simp only [UInt32.toBitVec_and, UInt32.toBitVec_or]
  ext i hi
  simp
  grind

/-- Flags with which a file that exists is opened, without a way to change it. -/
structure ReadsOnly (arch : Arch) (flags : UInt32) : Prop where
  existing : flags &&& (Libc.oCreat ||| Libc.oExcl) = 0
  regular : flags &&& arch.oDirectory = 0
  cloexec : flags &&& Libc.oCloexec ≠ 0
  access : flags &&& Libc.oPath ≠ 0 ∨ (flags &&& Libc.oAccmode = 0 ∧ flags &&& Libc.oTrunc = 0)

/-- Reopening a file keeps these flags. -/
theorem reopen_and {arch : Arch} {flags k : UInt32}
    (hk : k ∈ [arch.oDirectory, Libc.oPath, Libc.oAccmode, Libc.oTrunc]) :
    ((flags &&& ~~~(Libc.oCreat ||| Libc.oExcl ||| arch.oNofollow)) ||| Libc.oCloexec) &&& k =
      flags &&& k := by
  have hmask : Libc.oCloexec &&& k = 0 ∧
      ~~~(Libc.oCreat ||| Libc.oExcl ||| arch.oNofollow) &&& k = k := by
    simp only [List.mem_cons, List.not_mem_nil, or_false] at hk
    rcases hk with rfl | rfl | rfl | rfl
    all_goals
      cases arch with
      | x86_64 => decide
      | aarch64 => decide
  rw [masked_or_and hmask.1, hmask.2]

theorem readsOnly_reopen {arch : Arch} {spelling : List UInt8} {flags : UInt32}
    (h : ResolverFiles.checkFlags arch spelling flags = .ok ()) :
    ReadsOnly arch
      ((flags &&& ~~~(Libc.oCreat ||| Libc.oExcl ||| arch.oNofollow)) ||| Libc.oCloexec) := by
  unfold ResolverFiles.checkFlags at h
  split at h
  · cases h
  · split at h
    · cases h
    next hdirectory =>
      split at h
      · cases h
      · split at h
        · cases h
        next haccess =>
          refine ⟨?_, ?_, ?_, ?_⟩
          · have hmask : ~~~(Libc.oCreat ||| Libc.oExcl ||| arch.oNofollow) &&&
                (Libc.oCreat ||| Libc.oExcl) = 0 := by
              cases arch with
              | x86_64 => decide
              | aarch64 => decide
            rw [masked_or_and (by decide), hmask, UInt32.and_zero]
          · rw [reopen_and (by simp)]
            exact not_not.mp hdirectory
          · rw [or_and_self]
            decide
          · rw [reopen_and (by simp), reopen_and (by simp), reopen_and (by simp)]
            by_cases hpath : flags &&& Libc.oPath = 0
            · have hboth := not_and.mp haccess hpath
              rw [not_or] at hboth
              exact Or.inr ⟨not_not.mp hboth.1, not_not.mp hboth.2⟩
            · exact Or.inl hpath

/-- The sockets that an application may create: Unix and netlink sockets, and TCP and UDP sockets
of IPv4. -/
def SocketConfined (args : Fin 6 → UInt64) : Prop :=
  Data.low (args 0) = Libc.afUnix.toUInt32 ∨ Data.low (args 0) = Libc.afNetlink.toUInt32 ∨
    (Data.low (args 0) = Libc.afInet.toUInt32 ∧
      (Data.low (args 1) &&& ~~~(Libc.sockNonblock ||| Libc.sockCloexec), Data.low (args 2)) ∈
        [(Libc.sockStream, 0), (Libc.sockStream, Libc.ipprotoTcp), (Libc.sockDgram, 0),
          (Libc.sockDgram, Libc.ipprotoUdp)])

theorem socketConfined_of_socket {args : Fin 6 → UInt64}
    (h : Broker.socket args = .ok .continueSyscall) : SocketConfined args := by
  unfold Broker.socket at h
  dsimp only at h
  split at h
  next hlocal => exact hlocal.elim Or.inl fun hnetlink => Or.inr (Or.inl hnetlink)
  next =>
    split at h
    · cases h
    next hinet =>
      split at h
      next hkind =>
        refine Or.inr (Or.inr ⟨not_not.mp hinet, ?_⟩)
        rcases hkind with ⟨hkind, hprotocol | hprotocol⟩ | ⟨hkind, hprotocol | hprotocol⟩
        all_goals
          rw [hkind, hprotocol]
          simp
      · cases h

abbrev RequestEvent := Event RequestOperation RequestOperation.Ret

/-- What holds of a call that the kernel may run after its task performed these operations. -/
structure Continued (arch : Arch) (memory : Memory) (notification : Notification)
    (past : List RequestEvent) : Prop where
  socket : notification.data.nr.toUInt32 = arch.number .socket →
    SocketConfined notification.data.args
  fastopen : ∀ call ∈ [Syscall.sendto, .sendmsg, .sendmmsg],
    notification.data.nr.toUInt32 = arch.number call →
      Broker.flags arch notification.data &&& Libc.msgFastopen = 0
  unix : notification.data.nr.toUInt32 = arch.number .connect →
    ∃ domain, ⟨.base .domain, .ok domain⟩ ∈ past ∧ (domain = Libc.afUnix.toUInt32 →
      ∀ path ∈ ResolverFiles.resolverSockets.map asBytes,
        ¬ResolverFiles.Names memory notification path)

theorem Continued.mono {arch : Arch} {memory : Memory} {notification : Notification}
    {past past' : List RequestEvent} (h : Continued arch memory notification past)
    (hsub : past ⊆ past') : Continued arch memory notification past' where
  socket := h.socket
  fastopen := h.fastopen
  unix hconnect := by
    obtain ⟨domain, hmem, hnames⟩ := h.unix hconnect
    exact ⟨domain, hsub hmem, hnames⟩

namespace RequestContext

variable (context : RequestContext) (memory : Memory) (notification : Notification)

/-- What the task of a notification may do after it did this. -/
def Allowed (past : List RequestEvent) : RequestOperation → Prop
  | .file (.openDescriptor descriptor flags) =>
    Broker.isOpen context.arch notification.data.nr.toUInt32 = true ∧
      (∃ file ∈ context.files, file.descriptor = descriptor) ∧ ReadsOnly context.arch flags
  | .addfdSend source _ =>
    Broker.isOpen context.arch notification.data.nr.toUInt32 = true ∧
      ∃ descriptor flags, ⟨.file (.openDescriptor descriptor flags), .ok source⟩ ∈ past
  | .respond value errno passthrough =>
    passthrough = true → value = 0 ∧ errno = 0 ∧ Continued context.arch memory notification past
  | _ => True

/-- The handlers, with `check_unix_connect` carried out. -/
def resolving : (op : Operation) → Interaction RequestOperation RequestOperation.Ret op.Ret
  | .checkUnixConnect => .done (ResolverFiles.checkUnixConnect memory notification)
  | op => context.handler memory notification op

/-- The task that is spawned for a notification, with `check_unix_connect` carried out. -/
def resolvingTask : Interaction RequestOperation RequestOperation.Ret (Except IoError Unit) := do
  let result ← (Broker.dispatch context.arch context.retries memory notification).run.handle
    (context.resolving memory notification)
  (Broker.respond result).run

end RequestContext

/-- Operations that are always allowed. -/
def RequestOperation.free : RequestOperation → Bool
  | .file (.openDescriptor ..) | .addfdSend .. | .respond .. => false
  | _ => true

section

variable {context : RequestContext} {memory : Memory} {notification : Notification} {α : Type}

theorem allowed_of_free {op : RequestOperation} (h : op.free = true) (past : List RequestEvent) :
    context.Allowed memory notification past op := by
  cases op with
  | base op => trivial
  | tcp op => trivial
  | file op =>
    cases op with
    | openDescriptor descriptor flags => cases h
    | _ => trivial
  | addfdSend source cloexec => cases h
  | respond value errno passthrough => cases h

variable (context memory notification) in
/-- The program is allowed to do what it does, after any past. -/
def Confines (p : Interaction RequestOperation RequestOperation.Ret α) : Prop :=
  ∀ past, (historyDiscipline (context.Allowed memory notification)).Spec
    (fun _ past' => past ⊆ past') p past

theorem confines_done {a : α} : Confines context memory notification (.done a) :=
  fun past => List.Subset.refl past

theorem confines_free {p : Interaction RequestOperation RequestOperation.Ret α}
    (hp : p.Performs fun op => op.free = true) : Confines context memory notification p := by
  intro past
  refine Discipline.Spec.weaken (fun _ _ h => h.2)
    (Performs.spec (I := fun past' => past ⊆ past') ?_ ?_ hp yields_true (List.Subset.refl past))
  · rintro v _ hv rfl
    exact hv
  · intro op hop v hv
    refine ⟨allowed_of_free hop v, ?_⟩
    rintro r _ rfl
    exact List.Subset.trans hv (List.subset_append_left _ _)

theorem Confines.bind {β : Type} {p : Request α} {f : α → Request β}
    (hp : Confines context memory notification p.run)
    (hf : ∀ a, Confines context memory notification (f a).run) :
    Confines context memory notification (p >>= f).run := by
  intro past
  refine Discipline.Spec.andThen (Discipline.Spec.weaken ?_ (hp past))
  intro r v hv
  refine ⟨fun a _ => ?_, fun _ _ => hv⟩
  exact Discipline.Spec.weaken (fun _ _ h => List.Subset.trans hv h) (hf a v)

theorem free_operation (op : RequestOperation) (h : op.free = true)
    {next : op.Ret → Except IoError α} :
    Confines context memory notification
      (ExceptT.mk (.perform op fun r => .done (next r)) : Request α).run :=
  confines_free ⟨h, fun _ => trivial⟩

theorem free_act {p : Act α} : (Request.act p).run.Performs fun op => op.free = true :=
  Performs.handle performs_true fun _ _ => ⟨rfl, fun _ => trivial⟩

end

end Scproxy
