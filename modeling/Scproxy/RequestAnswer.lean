import Scproxy.PlainAct
import Scproxy.Request

namespace Scproxy

open Interaction

/-- `respond` takes it that the notification needs no other answer. -/
def answers : Except IoError Unit → Bool
  | .ok () => true
  | .error error => error == .os Errno.enoent

/-- Follows whether the notification has been answered. Nothing is done after that. -/
def answerDiscipline : Discipline RequestOperation RequestOperation.Ret Bool where
  rely v v' := v' = v
  rely_trans _ _ _ huv hvw := hvw.trans huv
  guard _ v := v = false
  after
    | .addfdSend .., r, _, v' => v' = r.isOk
    | .respond .., r, _, v' => v' = answers r
    | _, _, v, v' => v' = v

def RequestOperation.quiet : RequestOperation → Bool
  | .addfdSend .. | .respond .. => false
  | _ => true

/-- The reply says that an answer was sent exactly if one was. -/
def Tells (result : Except IoError Reply) (answered : Bool) : Prop :=
  result = .ok .sent ↔ answered = true

/-- The task succeeds exactly if the notification has been answered. -/
def Settles (result : Except IoError Unit) (answered : Bool) : Prop :=
  result = .ok () ↔ answered = true

namespace Request

variable {α : Type}

def Quiet (p : Request α) : Prop := p.run.Performs fun op => op.quiet = true

theorem quiet_operation (op : RequestOperation) (h : op.quiet = true)
    {next : op.Ret → Except IoError α} : Quiet (ExceptT.mk (.perform op fun r => .done (next r))) :=
  ⟨h, fun _ => trivial⟩

theorem quiet_done {r : Except IoError α} : Quiet (ExceptT.mk (.done r)) := trivial

theorem quiet_act {p : Act α} : (act p).Quiet :=
  Performs.handle performs_true fun _ _ => ⟨rfl, fun _ => trivial⟩

theorem Quiet.bind {β : Type} {p : Request α} {f : α → Request β} (hp : p.Quiet)
    (hf : ∀ a, (f a).Quiet) : (p >>= f).Quiet :=
  Performs.andThen hp hf

theorem quiet_spec {p : Interaction RequestOperation RequestOperation.Ret α} {P : α → Prop}
    (hp : p.Performs fun op => op.quiet = true) (hy : p.Yields P) :
    answerDiscipline.Spec (fun a v => P a ∧ v = false) p false := by
  refine Performs.spec ?_ ?_ hp hy rfl
  · rintro v v' rfl rfl
    rfl
  · rintro op hop v rfl
    refine ⟨rfl, fun r v' hr => ?_⟩
    cases op with
    | base op => exact hr
    | tcp op => exact hr
    | file op => exact hr
    | addfdSend source cloexec => cases hop
    | respond value errno passthrough => cases hop

theorem tells_of_unsent {result : Except IoError Reply} (h : ∀ reply, result = .ok reply → reply ≠ .sent) :
    Tells result false :=
  ⟨fun hr => absurd rfl (h _ hr), fun hv => nomatch hv⟩

/-- A quiet part that another one follows. -/
theorem tells_bind {p : Request α} {f : α → Request Reply} (hp : p.Quiet)
    (hf : ∀ a, answerDiscipline.Spec Tells (f a).run false) :
    answerDiscipline.Spec Tells (p >>= f).run false := by
  apply Discipline.Spec.bind
  refine Discipline.Spec.weaken ?_ (quiet_spec hp yields_true)
  rintro r _ ⟨_, rfl⟩
  cases r with
  | error error => exact tells_of_unsent fun _ h => nomatch h
  | ok a => exact hf a

theorem tells_quiet {p : Request Reply} (hp : p.Quiet)
    (hu : p.run.Yields fun r => ∀ reply, r = .ok reply → reply ≠ .sent) :
    answerDiscipline.Spec Tells p.run false := by
  refine Discipline.Spec.weaken ?_ (quiet_spec hp hu)
  rintro r _ ⟨h, rfl⟩
  exact tells_of_unsent h

theorem tells_pure {reply : Reply} (h : reply ≠ .sent) :
    answerDiscipline.Spec Tells (pure reply : Request Reply).run false := by
  refine tells_of_unsent ?_
  rintro _ ⟨⟩
  exact h

theorem tells_throw {error : IoError} :
    answerDiscipline.Spec Tells (throw error : Request Reply).run false :=
  tells_of_unsent fun _ h => nomatch h

end Request

open Request

namespace ResolverFiles

variable {arch : Arch} {std : PathStd} {files : List ConfigFile} {memory : Memory}
  {request : Notification}

theorem tells_send {flags : UInt32} {file : ConfigFile} :
    answerDiscipline.Spec Tells (send arch flags file).run false := by
  refine tells_bind (quiet_operation (.file (.openDescriptor ..)) rfl) fun descriptor => ?_
  refine tells_bind quiet_act fun _ => ?_
  rintro v rfl
  refine ⟨rfl, ?_⟩
  rintro r _ rfl
  cases r with
  | error error => exact tells_of_unsent fun _ h => nomatch h
  | ok _ => exact ⟨fun _ => rfl, fun _ => rfl⟩

theorem quiet_absolutePath {tid dirfd : UInt32} {path : List UInt8} :
    (absolutePath std tid dirfd path).Quiet := by
  unfold absolutePath
  split
  · exact quiet_done
  · refine Quiet.bind ?_ fun _ => quiet_done
    split
    · exact quiet_operation (.file (.workingDirectory _)) rfl
    · exact quiet_operation (.file (.directory ..)) rfl

theorem tells_openFile :
    answerDiscipline.Spec Tells (openFile arch std files memory request).run false := by
  unfold openFile
  refine tells_bind (quiet_operation (.file (.path ..)) rfl) fun path => ?_
  split
  · exact tells_pure (by simp)
  · refine tells_bind quiet_absolutePath fun path => ?_
    refine tells_bind (quiet_operation (.file (.canonicalize _)) rfl) fun canonical => ?_
    split
    · exact tells_pure (by simp)
    · refine tells_bind quiet_done fun flags => tells_bind quiet_done fun _ => ?_
      refine tells_bind ?_ fun symlink => ?_
      · split
        · exact quiet_operation (.file (.isSymlink _)) rfl
        · exact quiet_done
      · split
        · exact tells_send
        · split
          · exact tells_pure (by simp)
          · exact tells_throw

end ResolverFiles

namespace TcpProgram

/-- `connect_tcp` answers by its result only. -/
def Unsent (p : TcpProgram) : Prop := p.Yields fun r => ∀ reply, r = .ok reply → reply ≠ .sent

variable {config : Config} {relay : SocketAddrV4} {locked : Locked}

theorem unsent_release {lock : Nat} {result : Except IoError Reply}
    (h : ∀ reply, result = .ok reply → reply ≠ .sent) : (release lock result).Unsent :=
  fun _ => h

theorem unsent_failed {lock : Nat} {error : IoError} : (release lock (.error error)).Unsent :=
  unsent_release fun _ h => nomatch h

theorem unsent_continued {lock : Nat} : (release lock (.ok .continueSyscall)).Unsent := by
  refine unsent_release ?_
  rintro _ ⟨⟩
  simp

theorem unsent_value {lock : Nat} {result : Except IoError Unit} :
    (release lock (result.map fun _ => .value 0)).Unsent := by
  refine unsent_release fun reply h => ?_
  cases result with
  | error error => cases h
  | ok _ =>
    cases h
    simp

theorem unsent_releaseStopped {lock : Nat} : (releaseStopped lock).Unsent := fun _ => nofun

theorem unsent_runConnect {address : SocketAddrV4}
    {next : Option (Except IoError Unit) → TcpProgram} (hnext : ∀ r, (next r).Unsent) :
    (runConnect address next).Unsent := by
  intro r
  cases r with
  | error error => exact hnext _
  | ok _ => exact hnext

theorem unsent_redirect {service : Service} : (redirect relay locked service).Unsent := by
  rintro _ r
  cases r with
  | error error => exact fun _ => unsent_failed
  | ok port =>
    refine unsent_runConnect fun r => ?_
    cases r with
    | none => exact fun _ => unsent_releaseStopped
    | some result =>
      dsimp only
      split
      · exact fun _ => unsent_value
      · exact fun _ _ => unsent_value

theorem unsent_route {proxyTarget : ProxyTarget} :
    (route config relay locked proxyTarget).Unsent := by
  unfold route
  dsimp only
  split
  · exact unsent_releaseStopped
  · split
    · exact unsent_continued
    · intro r
      cases r with
      | false => exact unsent_failed
      | true =>
        intro r
        cases r with
        | error error => exact unsent_failed
        | ok _ => exact unsent_redirect

theorem unsent_connect : (connect config relay locked).Unsent := by
  intro _
  dsimp only
  split
  · exact unsent_route
  · intro r
    cases r with
    | error error => exact unsent_failed
    | ok proxyTarget => exact unsent_route

theorem unsent_reconnect : (reconnect locked).Unsent := by
  intro r
  cases r with
  | none => exact unsent_continued
  | some peer =>
    refine unsent_runConnect fun r => ?_
    cases r with
    | none => exact unsent_releaseStopped
    | some result => exact unsent_value

theorem unsent_checkState : (checkState config relay locked).Unsent := by
  intro r
  cases r with
  | error error => exact unsent_failed
  | ok _ =>
    intro r
    cases r with
    | error error => exact unsent_failed
    | ok state =>
      dsimp only
      split
      · exact unsent_reconnect
      · exact unsent_connect

theorem unsent_connectTcp {memory : Memory} {notification : Notification} :
    (connectTcp config relay memory notification).Unsent := by
  unfold connectTcp
  dsimp only
  split
  · exact fun _ h => nomatch h
  · split
    · rintro _ ⟨⟩
      simp
    · split
      · exact fun _ h => nomatch h
      · intro r
        cases r with
        | error error => exact fun _ h => nomatch h
        | ok cookie =>
          intro lock r
          cases r with
          | false => exact fun _ => nofun
          | true => exact unsent_checkState

end TcpProgram

namespace Broker

variable {arch : Arch} {config : Config} {relay : SocketAddrV4} {memory : Memory}
  {notification : Notification}

theorem quiet_requestTarget {socketOption : Bool} : (requestTarget socketOption).Quiet := by
  refine (quiet_operation (.tcp .cookie) rfl).bind fun cookie => ?_
  refine (quiet_operation (.tcp (.peer _)) rfl).bind fun peer => ?_
  cases peer with
  | none => exact quiet_done
  | some peer => exact quiet_act.bind fun _ => quiet_done

theorem tells_tcpPeer :
    answerDiscipline.Spec Tells (tcpPeer arch memory notification).run false := by
  refine tells_bind quiet_requestTarget fun target => ?_
  cases target with
  | none => exact tells_pure (by simp)
  | some target =>
    exact tells_bind quiet_act fun _ => tells_bind quiet_act fun _ => tells_pure (by simp)

theorem tells_dispatchTcp :
    answerDiscipline.Spec Tells (dispatchTcp arch config relay memory notification).run false := by
  unfold dispatchTcp
  refine tells_bind ?_ fun urgent => ?_
  · split
    · exact quiet_requestTarget
    · exact quiet_done
  · split
    · exact tells_throw
    · split
      · exact tells_quiet (Performs.handle performs_true fun _ _ => ⟨rfl, fun _ => trivial⟩)
          (Yields.handle TcpProgram.unsent_connectTcp)
      · split
        · exact tells_tcpPeer
        · exact tells_pure (by simp)

theorem socket_ne_sent {args : Fin 6 → UInt64} (reply : Reply) (h : socket args = .ok reply) :
    reply ≠ .sent := by
  unfold socket at h
  dsimp only at h
  split at h
  · cases h
    simp
  · split at h
    · cases h
    · split at h
      · cases h
        simp
      · cases h

/-- `respond` answers a notification that has not been answered. -/
theorem settles_respond {result : Except IoError Reply} {answered : Bool}
    (h : Tells result answered) : answerDiscipline.Spec Settles (respond result).run answered := by
  have hsend : ∀ (value : Int) (errno : Nat) (passthrough : Bool)
      {next : Except IoError Unit → Interaction RequestOperation RequestOperation.Ret
        (Except IoError Unit)}, next (.ok ()) = .done (.ok ()) →
      (∀ error, next (.error error) =
        .done (if error = .os Errno.enoent then .ok () else .error error)) →
      answerDiscipline.Spec Settles (.perform (.respond value errno passthrough) next) false := by
    rintro value errno passthrough next hok herror v rfl
    refine ⟨rfl, ?_⟩
    rintro r _ rfl
    cases r with
    | ok _ =>
      rw [hok]
      exact ⟨fun _ => rfl, fun _ => rfl⟩
    | error error =>
      rw [herror]
      change Settles _ _
      unfold Settles answers
      by_cases hgone : error = .os Errno.enoent
      · simp [hgone]
      · simp [hgone]
  cases result with
  | error error =>
    have hanswered : answered = false := by simpa [Tells] using h
    exact hanswered ▸ hsend 0 (error.rawOsError.getD Errno.eio) false rfl fun _ => rfl
  | ok reply =>
    cases reply with
    | sent => exact ⟨fun _ => h.mp rfl, fun _ => rfl⟩
    | continueSyscall =>
      have hanswered : answered = false := by simpa [Tells] using h
      exact hanswered ▸ hsend 0 0 true rfl fun _ => rfl
    | value value =>
      have hanswered : answered = false := by simpa [Tells] using h
      exact hanswered ▸ hsend value 0 false rfl fun _ => rfl

end Broker

namespace RequestContext

variable {context : RequestContext} {memory : Memory} {notification : Notification} {α : Type}

theorem quiet_plain {p : Act α} (hp : p.Plain) :
    (p.run.handle (context.handler memory notification)).Performs fun op => op.quiet = true := by
  refine Performs.handle hp fun op hop => ?_
  cases op with
  | openFile => cases hop
  | tcp => cases hop
  | _ => exact ⟨rfl, fun _ => trivial⟩

theorem tells_plain_bind {p : Act α} {f : α → Act Reply} (hp : p.Plain)
    (hf : ∀ a, answerDiscipline.Spec Tells
      ((f a).run.handle (context.handler memory notification)) false) :
    answerDiscipline.Spec Tells
      ((p >>= f).run.handle (context.handler memory notification)) false := by
  rw [handle_andThen]
  exact tells_bind (quiet_plain hp) hf

theorem tells_plain {p : Act Reply} (hp : p.Plain) (hu : p.Unsent) :
    answerDiscipline.Spec Tells (p.run.handle (context.handler memory notification)) false :=
  tells_quiet (quiet_plain hp) (Yields.handle hu)

theorem handle_openFile : Act.openFile.run.handle (context.handler memory notification) =
    (ResolverFiles.openFile context.arch context.std context.files memory notification).run :=
  bind_done _

theorem handle_tcp : Act.tcp.run.handle (context.handler memory notification) =
    (Broker.dispatchTcp context.arch context.config context.relay memory notification).run :=
  bind_done _

theorem tells_dispatch : answerDiscipline.Spec Tells
    ((Broker.dispatch context.arch context.retries memory notification).run.handle
      (context.handler memory notification)) false := by
  unfold Broker.dispatch
  refine tells_plain_bind (Act.plain_operation .valid rfl) fun _ => ?_
  dsimp only
  split
  · rw [handle_openFile]
    exact ResolverFiles.tells_openFile
  · split
    · exact tells_plain Act.plain_done Broker.socket_ne_sent
    · split
      · exact tells_plain Act.plain_done Act.unsent_throw
      · refine tells_plain_bind (Act.plain_operation .get rfl) fun _ => ?_
        refine tells_plain_bind (Act.plain_operation .valid rfl) fun _ => ?_
        refine tells_plain_bind (Act.plain_operation .domain rfl) fun domain => ?_
        refine tells_plain_bind ?_ fun _ => ?_
        · split
          · exact Act.plain_operation .checkUnixConnect rfl
          · exact Act.plain_done
        · split
          · exact tells_plain Act.plain_done (Act.unsent_pure (by simp))
          · refine tells_plain_bind (Act.plain_operation .protocol rfl) fun protocol => ?_
            split
            · rw [handle_tcp]
              exact Broker.tells_dispatchTcp
            · split
              · exact tells_plain Datagram.plain_dispatch Datagram.unsent_dispatch
              · exact tells_plain Act.plain_done Act.unsent_throw

/-- A task performs no operation once its notification is answered, and succeeds
only if it is. -/
theorem settles_task : answerDiscipline.Spec Settles (context.task memory notification) false := by
  apply Discipline.Spec.bind
  exact Discipline.Spec.weaken (fun _ _ h => Broker.settles_respond h) tells_dispatch

end RequestContext

end Scproxy
