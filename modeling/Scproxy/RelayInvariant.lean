import Scproxy.RelayBalance

namespace Scproxy.Relay

open Prog

variable {start : List UInt8}

theorem tryRead_spec (s : State) (source : Side) (space : Nat) (outcome : ReadOutcome) :
    Triple (· = s) (tryRead source space outcome)
      (fun result t => result = (s.available outcome source).copied space ∧
        t = (s.consume (result.toOption.getD []).length source).record
          (.read source space (s.available outcome source))) (Failed start) := by
  unfold tryRead
  apply Triple.get
  intro s' hs'
  subst hs'
  apply Triple.bind (R := fun _ t => t = (s'.consume
    (((s'.available outcome source).copied space).toOption.getD []).length source).record
      (.read source space (s'.available outcome source)))
  · apply Triple.modify
    intro t ht
    rw [ht]
  · intro _
    apply Triple.pure
    intro t ht
    exact ⟨rfl, ht⟩

theorem readBlock_spec (source : Side) (enabled : Bool) (outcome : ReadOutcome) :
    Triple (Balanced start) (readBlock source enabled outcome) (fun _ => Balanced start)
      (Failed start) := by
  unfold readBlock
  apply Triple.get
  intro s h
  simp only
  split
  next hc =>
    have hlt : (s.pending source.other).length < buffer := by
      have := (Bool.and_eq_true _ _ ▸ hc).2
      simpa using this
    have hspace : 0 < buffer - (s.pending source.other).length := by omega
    have hroom : (s.pending source.other).length + (buffer - (s.pending source.other).length) ≤
        buffer := by omega
    have hdraws := draws_available s source (buffer - (s.pending source.other).length) outcome
    apply Triple.bind (tryRead_spec s source _ outcome)
    intro result
    split
    next =>
      apply Triple.bind (R := fun _ => Balanced start)
      · apply Triple.modify
        intro t ht
        obtain ⟨hcopied, rfl⟩ := ht
        have hend := copied_eq_nil hspace hcopied.symm
        rw [← hcopied] at hdraws
        exact h.read_nothing hspace hroom hdraws (by rw [← hcopied]; rfl) fun _ => Or.inr hend
      · intro _
        exact Triple.pure fun _ ht => ht
    next bytes hne =>
      apply Triple.bind (R := fun _ => Balanced start)
      · apply Triple.modify
        intro t ht
        obtain ⟨hcopied, rfl⟩ := ht
        rw [← hcopied] at hdraws
        exact h.read_bytes hspace hroom hdraws (by rw [← hcopied]; rfl)
      · intro _
        exact Triple.pure fun _ ht => ht
    next error =>
      have hbalanced : ∀ t, (Except.error error =
          (s.available outcome source).copied (buffer - (s.pending source.other).length) ∧
          t = (s.consume ((Except.error error : Except IoError (List UInt8)).toOption.getD
            []).length source).record (.read source (buffer - (s.pending source.other).length)
              (s.available outcome source))) → Balanced start t := by
        intro t ht
        obtain ⟨hcopied, rfl⟩ := ht
        rw [← hcopied] at hdraws
        refine h.read_nothing hspace hroom hdraws (by rw [← hcopied]; rfl) ?_
        intro hu
        exact Or.inl ((consume_closeAfterDrain s _ source).symm.trans hu)
      split
      next => exact Triple.pure hbalanced
      next => exact Triple.fail fun t ht => ⟨hbalanced t ht, by simp⟩
  next =>
    apply Triple.pure
    intro t ht
    rw [ht]
    exact h

theorem flush_spec (target : Side) (outcome : WriteOutcome) :
    Triple (Balanced start) (flush target outcome) (fun _ => Balanced start) (Failed start) := by
  unfold flush
  apply Triple.get
  intro s h
  simp only
  split
  next => exact Triple.pure fun t ht => ht ▸ h
  next =>
    split
    next => exact Triple.fail fun t ht => ⟨ht ▸ h, by simp⟩
    next count _ =>
      apply Triple.bind (R := fun _ => Balanced start)
      · apply Triple.modify
        intro t ht
        subst ht
        exact h.wrote
      · intro _
        exact Triple.pure fun _ ht => ht
    next error =>
      split
      next => exact Triple.pure fun t ht => ht ▸ h
      next => exact Triple.fail fun t ht => ⟨ht ▸ h, by simp⟩

theorem lift_spec {α : Type} {P : State → Prop} (hP : ∀ s, P s → Balanced start s)
    (reading : Except IoError α) :
    Triple P (Prog.lift reading) (fun a s => reading = .ok a ∧ P s) (Failed start) := by
  cases reading with
  | error error => exact Triple.fail fun s hs => ⟨hP s hs, by simp⟩
  | ok a => exact Triple.pure fun s hs => ⟨rfl, hs⟩

/-- A queue length is recorded last; the rest of the state stays. -/
theorem queueLen_spec (event : Nat → Event) (hevent : ∀ n, (event n).IsQueue)
    {P : State → Prop} (hP : ∀ s, P s → Balanced start s) (reading : Except IoError Nat) :
    Triple P (queueLen event reading)
      (fun n t => Balanced start t ∧ ∃ s, P s ∧ t = s.record (event n)) (Failed start) := by
  unfold queueLen
  apply Triple.bind (lift_spec hP reading)
  intro n
  apply Triple.bind (R := fun _ t => Balanced start t ∧ ∃ s, P s ∧ t = s.record (event n))
  · apply Triple.modify
    intro s hs
    exact ⟨(hP s hs.2).queue (hevent n), s, hs.2, rfl⟩
  · intro _
    exact Triple.pure fun _ ht => ht

theorem observeReset_spec (round : Round) :
    Triple (Balanced start) (observeReset round) (fun _ => Balanced start) (Failed start) := by
  unfold observeReset
  apply Triple.get
  intro s h
  have hs : ∀ t, t = s → Balanced start t := fun t ht => ht ▸ h
  split
  next =>
    apply Triple.bind (lift_spec hs round.takeError)
    intro pending
    cases pending with
    | some error => exact Triple.fail fun t ht => ⟨ht.2 ▸ h, by simp⟩
    | none => exact Triple.pure fun t ht => ht.2 ▸ h
  next => exact Triple.pure fun t ht => ht ▸ h

/-- What holds when the relay returns `Ok`. -/
structure Drained (s : State) : Prop where
  toApplication : s.toApplication = []
  toHost : s.toHost = []
  observed : ∃ before side space, Event.read side space .eof ∈ before ∧
    s.trace = before ++ [.receiveQueue 0]

theorem drained_spec (round : Round) :
    Triple (Balanced start) (drained round)
      (fun finished s => Balanced start s ∧ (finished = true → Drained s)) (Failed start) := by
  unfold drained
  apply Triple.get
  intro s h
  have hs : ∀ t, t = s → Balanced start t := fun t ht => ht ▸ h
  split
  next hc =>
    simp only [Bool.and_eq_true, List.isEmpty_iff] at hc
    obtain ⟨⟨hclose, hAppEmpty⟩, hHostEmpty⟩ := hc
    apply Triple.bind (queueLen_spec .sendQueue (fun _ => trivial) hs round.sendQueue)
    intro unsent
    split
    next =>
      apply Triple.bind (queueLen_spec .receiveQueue (fun _ => trivial) (fun _ ht => ht.1)
        round.receiveQueue)
      intro unread
      apply Triple.pure
      intro t ht
      obtain ⟨hbalanced, s', ⟨hbalanced', s'', rfl, rfl⟩, rfl⟩ := ht
      refine ⟨hbalanced, ?_⟩
      intro hzero
      obtain ⟨side, space, heof⟩ := hbalanced'.closing hclose
      refine ⟨hAppEmpty, hHostEmpty, _, side, space, heof, ?_⟩
      rw [eq_of_beq hzero]
      rfl
    next => exact Triple.pure fun t ht => ⟨ht.1, by simp⟩
  next => exact Triple.pure fun t ht => ⟨ht ▸ h, by simp⟩

/-- Some branch of the `select!` is enabled in every state. -/
theorem branches_ne_nil (s : State) (queued : Nat) : s.branches queued ≠ [] := by
  intro hnil
  have hnone : ∀ branch ∈ [Branch.hostReadable, .applicationReadable, .hostWritable,
      .applicationWritable, .sleep], ¬s.guard queued branch = true :=
    List.filter_eq_nil_iff.mp hnil
  have hsleep := hnone .sleep (by simp)
  have hreadable := hnone .hostReadable (by simp)
  have hwritable := hnone .applicationWritable (by simp)
  simp only [State.guard, Bool.not_eq_true] at hsleep hreadable hwritable
  have hlen : buffer ≤ s.toApplication.length := by simpa [hsleep] using hreadable
  have hempty : s.toApplication = [] := by simpa using hwritable
  rw [hempty] at hlen
  exact absurd hlen (by decide)

theorem select_spec (queued : Nat) (round : Round) :
    Triple (Balanced start) (select queued round) (fun _ => Balanced start) (Failed start) := by
  unfold select
  apply Triple.get
  intro s h
  have hs : ∀ t, t = s → Balanced start t := fun t ht => ht ▸ h
  have hpos : 0 < (s.branches queued).length := List.length_pos_iff.mpr (branches_ne_nil s queued)
  simp only
  split
  next hnone =>
    have hlt := Nat.mod_lt round.fired hpos
    have hle := List.getElem?_eq_none_iff.mp hnone
    omega
  next => exact Triple.pure fun t ht => hs t ht
  next =>
    exact (lift_spec hs round.readiness).weaken (fun _ ht => ht)
      fun _ t ht => ht.2 ▸ h

theorem turn_spec (round : Round) :
    Triple (Balanced start) (turn round)
      (fun finished s => Balanced start s ∧ (finished = true → Drained s)) (Failed start) := by
  unfold turn
  apply Triple.get
  intro s h
  have hs : ∀ t, t = s → Balanced start t := fun t ht => ht ▸ h
  apply Triple.bind ((readBlock_spec .host _ round.hostRead).weaken hs fun _ _ ht => ht)
  intro hostProgress
  apply Triple.bind (flush_spec .application round.applicationWrite)
  intro applicationFlushed
  apply Triple.bind (queueLen_spec .receiveQueue (fun _ => trivial) (fun _ ht => ht) round.queued)
  intro queued
  apply Triple.get
  intro s' h'
  have hs' : ∀ t, t = s' → Balanced start t := fun t ht => ht ▸ h'.1
  apply Triple.bind ((readBlock_spec .application _ round.applicationRead).weaken
    hs' fun _ _ ht => ht)
  intro applicationProgress
  apply Triple.bind (flush_spec .host round.hostWrite)
  intro hostFlushed
  apply Triple.bind (observeReset_spec round)
  intro _
  apply Triple.bind (drained_spec round)
  intro finished
  split
  next hf => exact Triple.pure fun t ht => ⟨ht.1, fun _ => ht.2 hf⟩
  next =>
    split
    next => exact Triple.pure fun t ht => ⟨ht.1, by simp⟩
    next =>
      apply Triple.bind ((select_spec queued round).weaken (fun _ ht => ht.1) fun _ _ ht => ht)
      intro _
      exact Triple.pure fun t ht => ⟨ht, by simp⟩

theorem loop_spec (rounds : List Round) :
    Triple (Balanced start) (loop rounds)
      (fun finished s => Balanced start s ∧ (finished = true → Drained s)) (Failed start) := by
  induction rounds with
  | nil => exact Triple.pure fun t ht => ⟨ht, by simp⟩
  | cons round rounds ih =>
    unfold loop
    apply Triple.bind (turn_spec round)
    intro finished
    split
    next hf => exact Triple.pure fun t ht => ⟨ht.1, fun _ => ht.2 hf⟩
    next => exact ih.weaken (fun _ ht => ht.1) fun _ _ ht => ht

theorem balanced_start (prefetched : List UInt8) :
    Balanced prefetched (State.start prefetched) := by
  refine ⟨⟨[], (List.append_nil _).symm, fun _ => rfl⟩, ?_, ?_, ?_, ?_⟩
  · intro side
    cases side with
    | application => rfl
    | host => rfl
  · intro side
    cases side with
    | application => exact Nat.zero_le _
    | host => exact Nat.zero_le _
  · intro event hevent
    cases hevent
  · intro hclose
    cases hclose

theorem run_spec (applicationNodelay hostNodelay : Except IoError Unit) (rounds : List Round) :
    Triple (Balanced start) (run applicationNodelay hostNodelay rounds)
      (fun finished s => Balanced start s ∧ (finished = true → Drained s)) (Failed start) := by
  unfold run
  apply Triple.bind (lift_spec (fun _ ht => ht) applicationNodelay)
  intro _
  apply Triple.bind (lift_spec (fun _ ht => ht.2) hostNodelay)
  intro _
  exact (loop_spec rounds).weaken (fun _ ht => ht.2.2) fun _ _ ht => ht

/-- At every head of the loop the relay has forwarded what it read except for
its two bounded buffers, and it returns only when these are empty. What it read from
the host begins with the prefetched bytes. -/
theorem run_forwards (prefetched : List UInt8)
    (applicationNodelay hostNodelay : Except IoError Unit) (rounds : List Round) :
    let (result, s) := run applicationNodelay hostNodelay rounds (.start prefetched)
    (∀ source space outcome, .read source space outcome ∈ s.trace →
      0 < space ∧ (outcome.copied space = .ok [] → outcome = .eof)) ∧
    (∃ received, bytesRead .host s.trace ++ s.prefetched = prefetched ++ received ∧
      (s.prefetched ≠ [] → received = [])) ∧
    (∀ reason, result ≠ .error (.panic reason)) ∧
    (result = .ok false →
      bytesWritten .application s.trace ++ s.toApplication = bytesRead .host s.trace ∧
      bytesWritten .host s.trace ++ s.toHost = bytesRead .application s.trace ∧
      s.toApplication.length ≤ buffer ∧ s.toHost.length ≤ buffer) ∧
    (result = .ok true →
      bytesWritten .application s.trace = bytesRead .host s.trace ∧
      bytesWritten .host s.trace = bytesRead .application s.trace ∧
      ∃ before source space, .read source space .eof ∈ before ∧
        s.trace = before ++ [.receiveQueue 0]) := by
  have hrun := run_spec applicationNodelay hostNodelay rounds _ (balanced_start prefetched)
  generalize run applicationNodelay hostNodelay rounds (.start prefetched) = final at hrun
  rcases final with ⟨fault | finished, s⟩
  · obtain ⟨h, hne⟩ : Failed prefetched fault s := hrun
    refine ⟨fun source space outcome hmem => h.roomy _ hmem, h.prefetches, ?_, by simp, by simp⟩
    intro reason heq
    exact hne reason (Except.error.inj heq)
  · obtain ⟨h, hdrained⟩ : Balanced prefetched s ∧ (finished = true → Drained s) := hrun
    have happlication : bytesWritten .application s.trace ++ s.toApplication =
        bytesRead .host s.trace := h.forwarded .application
    have hhost : bytesWritten .host s.trace ++ s.toHost = bytesRead .application s.trace :=
      h.forwarded .host
    refine ⟨fun source space outcome hmem => h.roomy _ hmem, h.prefetches, by simp, ?_, ?_⟩
    · intro _
      exact ⟨happlication, hhost, h.bounded .application, h.bounded .host⟩
    · intro heq
      obtain ⟨hAppEmpty, hHostEmpty, hobserved⟩ := hdrained (Except.ok.inj heq)
      rw [hAppEmpty, List.append_nil] at happlication
      rw [hHostEmpty, List.append_nil] at hhost
      exact ⟨happlication, hhost, hobserved⟩

end Scproxy.Relay
