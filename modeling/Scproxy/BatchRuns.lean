import Scproxy.BatchTimeout
import Scproxy.DatagramRetries

namespace Scproxy

open Interaction

namespace Datagram

variable {arch : Arch} {attempted : Nat} {memory : Memory} {memoryAt : Nat → Memory}
  {notification : Notification} {trace : List (Event Operation Operation.Ret)}

theorem still_asyncFd : Act.asyncFd.Still := Act.still_operation .asyncFd rfl

/-- The part of a call after its last message. -/
def report (timeout : Option Nat) (notification : Notification) : Reply ⊕ Progress → Act Reply
  | .inl reply => pure reply
  | .inr progress => do
    let timedOut ← settleTimeout notification timeout progress
    if timedOut then pure (.value 0)
    else if 0 < progress.completed then pure (.value progress.completed)
    else Act.ofExcept progress.result

/-- The descriptor or its timeout is refused before the first message. -/
def Refused (arch : Arch) (notification : Notification)
    (trace : List (Event Operation Operation.Ret)) (error : IoError) : Prop :=
  trace = [⟨.asyncFd, .error error⟩] ∨
  trace = [⟨.asyncFd, .ok ()⟩, ⟨.timeout (receives arch notification), .error error⟩]

theorem runs_socketDeadline {result : Except IoError (Option Nat)}
    (hrun : Runs (socketDeadline arch notification).run trace result) :
    (∃ error, result = .error error ∧
      trace = [⟨.timeout (receive arch notification), .error error⟩]) ∨
    ∃ socket, result = .ok socket := by
  rcases runs_andThen.mp hrun with ⟨error, hread, rfl⟩ | ⟨_, _, value, rfl, _, hrest⟩
  · exact .inl ⟨error, rfl, runs_single_iff.mp hread⟩
  · refine .inr ?_
    split at hrest
    next => exact ⟨_, (runs_done_iff.mp hrest).2⟩
    next =>
      rcases runs_andThen.mp hrest with ⟨_, hnow, _⟩ | ⟨_, _, _, _, _, hdone⟩
      · obtain ⟨_, _, heq⟩ := runs_now.mp hnow
        cases heq
      · exact ⟨_, (runs_done_iff.mp hdone).2⟩

/-- A call is refused, or it runs the loop and reports. -/
theorem runs_transferEach (hbatch : batch arch notification = true) {result : Except IoError Reply}
    (hrun : Runs (transferEach arch attempted memory memoryAt notification).run trace result)
    (htimeout : TimeoutValid arch memory notification trace) :
    (∃ error, result = .error error ∧ Refused arch notification trace error) ∨
    ∃ setup rest socket timeout, trace = setup ++ rest ∧ effects setup = [] ∧
      TimeoutFrom arch memory notification setup timeout ∧
      Runs (entries arch attempted memoryAt notification (earlier socket timeout)
        (count arch notification) 0 >>= report timeout notification).run rest result := by
  rcases runs_andThen.mp hrun with ⟨e, hfd, rfl⟩ | ⟨first, rest, _, rfl, hfd, hrest⟩
  · exact .inl ⟨e, rfl, .inl (runs_single_iff.mp hfd)⟩
  rcases runs_andThen.mp hrest with ⟨e, hsocket, rfl⟩ | ⟨second, tail, socket, rfl, hsocket, htail⟩
  · rcases runs_socketDeadline hsocket with ⟨_, heq, rfl⟩ | ⟨_, heq⟩
    · cases heq
      cases runs_single_iff.mp hfd
      rw [receive_of_batch hbatch]
      exact .inl ⟨e, rfl, .inr rfl⟩
    · cases heq
  have hdeadline : ∀ {third : List (Event Operation Operation.Ret)} {r : Except IoError (Option Nat)},
      third ⊆ tail → Runs (batchDeadline arch memory notification).run third r →
      ∃ timeout, r = .ok timeout ∧ TimeoutFrom arch memory notification third timeout := by
    intro third r hsub hthird
    refine runs_batchDeadline hthird fun hgiven => ?_
    obtain ⟨bytes, seconds, nanos, hread, hseconds, hnanos, hrange, hclock⟩ := htimeout hgiven
    refine ⟨bytes, seconds, nanos, hread, hseconds, hnanos, hrange, fun now hmem => hclock now ?_⟩
    exact List.mem_append_right _ (List.mem_append_right _ (hsub hmem))
  rcases runs_andThen.mp htail with ⟨e, hargument, _⟩ | ⟨third, last, timeout, rfl, hargument, hlast⟩
  · obtain ⟨_, heq, _⟩ := hdeadline (List.Subset.refl _) hargument
    cases heq
  · obtain ⟨_, heq, hfrom⟩ := hdeadline (List.subset_append_left _ _) hargument
    cases heq
    refine .inr ⟨first ++ (second ++ third), last, socket, timeout, ?_, ?_, ?_, hlast⟩
    · simp only [List.append_assoc]
    · rw [effects_append, effects_append, still_asyncFd.effects hfd,
        still_socketDeadline.effects hsocket, still_batchDeadline.effects hargument]
      rfl
    · refine hfrom.mono ?_
      exact List.Subset.trans (List.subset_append_right _ _) (List.subset_append_right _ _)

/-- What a call returns, by how far its loop came. -/
theorem runs_report {timeout : Option Nat} {progress : Progress} {result : Except IoError Reply}
    (hrun : Runs (report timeout notification (.inr progress)).run trace result)
    (hvalid : StaysValid trace) (hwritable : TimeoutWritable trace) :
    effects trace = [] ∧
    (0 < progress.completed → result = .ok (.value progress.completed)) ∧
    (progress.completed = 0 →
      (progress.result = .error (.os Errno.eagain) ∧ Expired timeout trace →
        result = .ok (.value 0)) ∧
      (¬(progress.result = .error (.os Errno.eagain) ∧ Expired timeout trace) →
        result = progress.result)) := by
  rcases runs_andThen.mp hrun with ⟨e, hsettle, _⟩ | ⟨front, back, timedOut, rfl, hsettle, hrest⟩
  · obtain ⟨_, heq, _⟩ := runs_settleTimeout hsettle hvalid hwritable
    cases heq
  have hlast : back = [] ∧ result = if timedOut then .ok (.value 0)
      else if 0 < progress.completed then .ok (.value progress.completed) else progress.result := by
    split at hrest
    next htimedOut => simpa [htimedOut] using runs_done_iff.mp hrest
    next htimedOut =>
      split at hrest
      next hcompleted => simpa [htimedOut, hcompleted] using runs_done_iff.mp hrest
      next hcompleted => simpa [htimedOut, hcompleted] using runs_done_iff.mp hrest
  obtain ⟨rfl, rfl⟩ := hlast
  rw [List.append_nil] at hvalid hwritable ⊢
  obtain ⟨_, heq, hfew, hexpired⟩ := runs_settleTimeout hsettle hvalid hwritable
  cases heq
  refine ⟨still_settleTimeout.effects hsettle, fun hpos => ?_, fun hzero => ⟨fun h => ?_, fun h => ?_⟩⟩
  · have htimedOut : timedOut ≠ true := fun h => by
      have := hfew h
      omega
    rw [if_neg htimedOut, if_pos hpos]
  · rw [if_pos ((hexpired hzero).mpr h)]
  · rw [if_neg (mt (hexpired hzero).mp h), if_neg (by omega)]

theorem halts_entries {deadline : Option Nat} {remaining index : Nat}
    (h : Halts (entries arch attempted memoryAt notification deadline remaining index).run trace) :
    attempted ≤ retryCount trace := by
  induction remaining generalizing index trace with
  | zero => cases h
  | succ remaining ih =>
    unfold entries at h
    split at h
    next => cases h
    next header hheader =>
      rcases halts_andThen h with hentry | ⟨front, back, outcome, rfl, _, hrest⟩
      · rcases halts_andThen (halts_attempt hentry) with hmessage | ⟨_, _, _, rfl, _, htransfer⟩
        · cases hmessage
        · have hcount := halts_transfer htransfer
          rw [retryCount_append]
          omega
      cases outcome with
      | error error => cases hrest
      | ok length =>
        dsimp only at hrest
        split at hrest
        next => cases hrest
        next =>
          rcases halts_andThen hrest with hvalid | ⟨check, tail, _, rfl, _, hwrite⟩
          · exact absurd hvalid (Act.still_operation .valid rfl).not_halts
          rcases halts_andThen hwrite with hword | ⟨word, later, answer, rfl, _, hlater⟩
          · cases halts_attempt hword with
            | stop hempty => exact absurd ⟨Except.ok ()⟩ hempty
            | perform hdone => cases hdone
          cases answer with
          | error error => cases hlater
          | ok _ =>
            have hcount := ih hlater
            simp only [retryCount_append]
            omega

theorem still_report {timeout : Option Nat} {out : Reply ⊕ Progress} :
    (report timeout notification out).Still := by
  cases out with
  | inl reply => exact Act.still_done
  | inr progress =>
    refine still_settleTimeout.bind fun _ => ?_
    split
    next => exact Act.still_done
    next =>
      split
      next => exact Act.still_done
      next => exact Act.still_done

/-- A call that never returns was asked to try again all along. -/
theorem halts_transferEach
    (h : Halts (transferEach arch attempted memory memoryAt notification).run trace) :
    attempted ≤ retryCount trace := by
  rcases halts_andThen h with hfd | ⟨first, rest, _, rfl, _, hrest⟩
  · exact absurd hfd still_asyncFd.not_halts
  rcases halts_andThen hrest with hsocket | ⟨second, tail, socket, rfl, _, htail⟩
  · exact absurd hsocket still_socketDeadline.not_halts
  rcases halts_andThen htail with htimeout | ⟨third, last, timeout, rfl, _, hlast⟩
  · exact absurd htimeout still_batchDeadline.not_halts
  rcases halts_andThen hlast with hentries | ⟨fourth, back, out, rfl, _, hback⟩
  · have hcount := halts_entries hentries
    simp only [retryCount_append]
    omega
  · have hreport : (report timeout notification out).Still := still_report
    exact absurd hback hreport.not_halts

/-- The flags that an operation hands to the kernel. -/
def passedFlags : Operation → Option UInt32
  | .sendmsg _ _ _ flags => some flags
  | .recvmsg _ _ flags => some flags
  | _ => none

def WithoutWaitforone (op : Operation) : Prop :=
  ∀ flags, passedFlags op = some flags → flags &&& Libc.msgWaitforone = 0

theorem withoutWaitforone_of_transfers {flags : UInt32} (hflags : flags &&& Libc.msgWaitforone = 0)
    {op : Operation} (h : Transfers flags op) : WithoutWaitforone op := by
  intro passed hpassed
  have hdontwait : (flags ||| Libc.msgDontwait) &&& Libc.msgWaitforone = 0 := by
    rw [or_and_distrib_right, hflags]
    decide
  cases op with
  | sendmsg destination payload control sent =>
    have hsent : sent = passed := Option.some.inj hpassed
    rw [← hsent, show sent = flags ||| Libc.msgDontwait ||| Libc.msgNosignal from h,
      or_and_distrib_right, hdontwait]
    decide
  | recvmsg capacity controlCapacity asked =>
    have hasked : asked = passed := Option.some.inj hpassed
    rw [← hasked, show asked = flags ||| Libc.msgDontwait from h, hdontwait]
  | _ => cases hpassed

theorem withoutWaitforone_entries {deadline : Option Nat} {remaining index : Nat} :
    (entries arch attempted memoryAt notification deadline remaining index).run.Performs
      WithoutWaitforone := by
  induction remaining generalizing index with
  | zero => trivial
  | succ remaining ih =>
    unfold entries
    split
    next => trivial
    next header _ =>
      have hentry : (entry arch attempted (memoryAt index) notification deadline index
          header).run.Performs (Transfers (currentFlags arch notification index)) :=
        transfers_entry
      refine Performs.andThen (Performs.attempt (hentry.mono fun _ =>
        withoutWaitforone_of_transfers (currentFlags_waitforone arch notification index)))
        fun outcome => ?_
      cases outcome with
      | error error => trivial
      | ok length =>
        dsimp only
        split
        next => trivial
        next =>
          refine Performs.andThen ⟨nofun, fun _ => trivial⟩ fun _ => ?_
          refine Performs.andThen (Performs.attempt ⟨nofun, fun _ => trivial⟩) fun written => ?_
          cases written with
          | error error => trivial
          | ok _ => exact ih

theorem withoutWaitforone_of_still {α : Type} {p : Act α} (hp : p.Still) :
    p.run.Performs WithoutWaitforone :=
  Performs.mono hp fun op hop flags hflags => by
    cases op with
    | sendmsg destination payload control flags => cases hop
    | recvmsg capacity controlCapacity flags => cases hop
    | _ => cases hflags

theorem withoutWaitforone_transferEach :
    (transferEach arch attempted memory memoryAt notification).run.Performs WithoutWaitforone := by
  refine Performs.andThen (withoutWaitforone_of_still still_asyncFd) fun _ => ?_
  refine Performs.andThen (withoutWaitforone_of_still still_socketDeadline) fun _ => ?_
  refine Performs.andThen (withoutWaitforone_of_still still_batchDeadline) fun timeout => ?_
  refine Performs.andThen withoutWaitforone_entries fun out => ?_
  have hreport : (report timeout notification out).Still := still_report
  exact withoutWaitforone_of_still hreport

end Datagram

end Scproxy
