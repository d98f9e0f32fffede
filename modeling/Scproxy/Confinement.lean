import Scproxy.ConfinedDispatch

namespace Scproxy

open Interaction

namespace RequestContext

variable {context : RequestContext} {memory : Memory} {notification : Notification}

/-- Every handler does what `dispatch` is told of its operation. -/
theorem spec_resolving (op : Operation) (past : List RequestEvent)
    (hguard : (Broker.dispatchDiscipline context.arch memory notification).guard op past) :
    (historyDiscipline (context.Allowed memory notification)).Spec
      (fun r past' =>
        (Broker.dispatchDiscipline context.arch memory notification).after op r past past')
      (context.resolving memory notification op) past := by
  have hbase : ∀ (op : Operation) (P : op.Ret → List RequestEvent → Prop),
      (∀ r, P r (past ++ [⟨.base op, r⟩])) →
      (historyDiscipline (context.Allowed memory notification)).Spec P
        (.perform (.base op) .done) past := by
    rintro op P h _ rfl
    refine ⟨trivial, ?_⟩
    rintro r _ rfl
    exact h r
  cases op with
  | openFile => exact ResolverFiles.confines_openFile hguard past
  | tcp => exact confines_free Broker.free_dispatchTcp past
  | checkUnixConnect => exact ⟨List.Subset.refl past, rfl⟩
  | domain => exact hbase .domain _ fun _ => ⟨List.subset_append_left _ _, by simp⟩
  | _ => exact hbase _ _ fun _ => List.subset_append_left _ _

theorem spec_respond {result : Except IoError Reply} {past : List RequestEvent}
    (h : result = .ok .continueSyscall → Continued context.arch memory notification past) :
    (historyDiscipline (context.Allowed memory notification)).Spec (fun _ _ => True)
      (Broker.respond result).run past := by
  have hsend : ∀ (value : Int) (errno : Nat) (passthrough : Bool)
      {next : Except IoError Unit → Interaction RequestOperation RequestOperation.Ret
        (Except IoError Unit)}, (∃ a, next (.ok ()) = .done a) →
      (∀ error, ∃ a, next (.error error) = .done a) →
      (passthrough = true → value = 0 ∧ errno = 0 ∧
        Continued context.arch memory notification past) →
      (historyDiscipline (context.Allowed memory notification)).Spec (fun _ _ => True)
        (.perform (.respond value errno passthrough) next) past := by
    rintro value errno passthrough next hok herror hallowed _ rfl
    refine ⟨hallowed, fun r _ _ => ?_⟩
    obtain ⟨a, ha⟩ : ∃ a, next r = .done a := by
      cases r with
      | error error => exact herror error
      | ok _ => exact hok
    rw [ha]
    trivial
  cases result with
  | error error => exact hsend _ _ false ⟨_, rfl⟩ (fun _ => ⟨_, rfl⟩) nofun
  | ok reply =>
    cases reply with
    | sent => trivial
    | continueSyscall => exact hsend 0 0 true ⟨_, rfl⟩ (fun _ => ⟨_, rfl⟩) fun _ => ⟨rfl, rfl, h rfl⟩
    | value value => exact hsend _ _ false ⟨_, rfl⟩ (fun _ => ⟨_, rfl⟩) nofun

theorem spec_resolvingTask : (historyDiscipline (context.Allowed memory notification)).Spec
    (fun _ _ => True) (context.resolvingTask memory notification) [] := by
  have hdispatch : (Broker.dispatchDiscipline context.arch memory notification).Safe
      (fun reply past => reply = .continueSyscall →
        Continued context.arch memory notification past)
      (Broker.dispatch context.arch context.retries memory notification) [] :=
    Broker.safe_dispatch_continued context.retries
  refine Discipline.Spec.bind (Discipline.Spec.weaken ?_
    (spec_handle (fun _ => rfl) spec_resolving hdispatch))
  intro result past hresult
  exact spec_respond fun hok => hresult _ hok rfl

/-- Whatever the kernel and the other tasks answer, and wherever the task is stopped: it opens
nothing but the sealed files, and those only for reading, it sends no descriptor but one that it
opened so, and the kernel is told to run a call itself only if the call is confined. -/
theorem task_allowed {trace : List RequestEvent}
    (h : Behaves (context.resolvingTask memory notification) trace) :
    Follows (fun past event => context.Allowed memory notification past event.op) [] trace :=
  follows_of_spec spec_resolvingTask h

/-- One file is sealed, and paths are compared byte by byte. -/
def sealedContext : RequestContext where
  arch := .x86_64
  retries := 0
  config := ⟨.direct, [], ⟨none, [], .empty⟩⟩
  relay := ⟨.localhost, 4000⟩
  std := ⟨some, fun path => path.head? == some 47, fun _ path => path, fun a b => a == b⟩
  files := [⟨asBytes "/etc/resolv.conf", none, 7⟩]

/-- An `openat` call for reading. -/
def openCall : Notification :=
  ⟨1, 100, ⟨257, Arch.nativeArch .x86_64, 0, fun i => if i = 0 then 0xffffff9c else 0⟩⟩

def openTrace : List RequestEvent :=
  [⟨.base .valid, .ok ()⟩, ⟨.file (.path 100 0), .ok (asBytes "/etc/resolv.conf")⟩,
    ⟨.file (.canonicalize (asBytes "/etc/resolv.conf")), none⟩,
    ⟨.file (.openDescriptor 7 Libc.oCloexec), .ok 9⟩, ⟨.base .valid, .ok ()⟩,
    ⟨.addfdSend 9 false, .ok ()⟩]

theorem task_allowed_open :
    Follows (fun past event => sealedContext.Allowed (fun _ => none) openCall past event.op) []
      openTrace := by
  have hrun : Runs (sealedContext.resolvingTask (fun _ => none) openCall) openTrace (.ok ()) :=
    .perform (.perform (.perform (.perform (.perform (.perform (.done _))))))
  exact task_allowed (Or.inl ⟨_, hrun⟩)

end RequestContext

end Scproxy
