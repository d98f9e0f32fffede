import Scproxy.Descendants

namespace Scproxy

namespace CommandTree

open Interaction

/-- The list of a thread was read, or the thread was gone. -/
def TaskRead (trace : List TreeEvent) (pid : Pid) (task : String) : Prop :=
  (∃ text pids, ⟨.readChildren pid task, .ok text⟩ ∈ trace ∧ parsePids text = .ok pids) ∨
  ∃ error, ⟨.readChildren pid task, .error error⟩ ∈ trace ∧ error.isNotFound = true

/-- The lists of all threads of a process were read, or the process was gone. -/
def ProcessRead (trace : List TreeEvent) (pid : Pid) : Prop :=
  (∃ tasks : List String, ⟨.readDir pid, .ok (tasks.map .ok)⟩ ∈ trace ∧
    ∀ task ∈ tasks, TaskRead trace pid task) ∨
  ∃ error, ⟨.readDir pid, .error error⟩ ∈ trace ∧ error.isNotFound = true

/-- The root and all that was listed have been looked at, and the signal has gone to all that
was listed, the process that was listed first last. -/
structure SignallingRound (root : Pid) (signal : Sending) (trace : List TreeEvent) : Prop where
  looked : ∀ pid, pid = root ∨ pid ∈ listed (listings trace) → ProcessRead trace pid
  killed : killed trace = StackSearch.order root (listed (listings trace))
  signal : ∀ pid sent answer, ⟨.kill pid sent, answer⟩ ∈ trace → sent = signal

section

variable {pid root : Pid} {signal : Sending} {trace trace' : List TreeEvent}

theorem TaskRead.mono {task : String} (h : TaskRead trace pid task) (hsub : trace ⊆ trace') :
    TaskRead trace' pid task := by
  rcases h with ⟨text, pids, hmem, hpids⟩ | ⟨error, hmem, herror⟩
  · exact .inl ⟨text, pids, hsub hmem, hpids⟩
  · exact .inr ⟨error, hsub hmem, herror⟩

theorem ProcessRead.mono (h : ProcessRead trace pid) (hsub : trace ⊆ trace') :
    ProcessRead trace' pid := by
  rcases h with ⟨tasks, hmem, htasks⟩ | ⟨error, hmem, herror⟩
  · exact .inl ⟨tasks, hsub hmem, fun task htask => (htasks task htask).mono hsub⟩
  · exact .inr ⟨error, hsub hmem, herror⟩

theorem reads_readTask {task : Except IoError String} {children : List Pid}
    (hrun : Runs (readTask pid task).run trace (.ok children)) :
    ReadsFrom pid trace children ∧ ∃ name, task = .ok name ∧ TaskRead trace pid name := by
  cases task with
  | error error =>
    obtain ⟨_, heq⟩ := runs_done_iff.mp hrun
    cases heq
  | ok name =>
    obtain ⟨answer, rest, rfl, hrest⟩ := runs_op_andThen.mp hrun
    cases answer with
    | error error =>
      dsimp only at hrest
      split at hrest
      next hfound =>
        obtain ⟨rfl, heq⟩ := runs_done_iff.mp hrest
        cases heq
        exact ⟨⟨rfl, by simp [listings], rfl⟩, name, rfl, .inr ⟨error, by simp, hfound⟩⟩
      next =>
        obtain ⟨_, heq⟩ := runs_done_iff.mp hrest
        cases heq
    | ok text =>
      obtain ⟨rfl, hpids⟩ := runs_done_iff.mp hrest
      refine ⟨⟨?_, ?_, rfl⟩, name, rfl, .inl ⟨text, children, by simp, hpids.symm⟩⟩
      · simp [listings, listed, ← hpids, Except.toOption]
      · simp [listings, ← hpids, Except.toOption]

theorem reads_readTasks {tasks : List (Except IoError String)} {children : List Pid}
    (hrun : Runs (readTasks pid tasks).run trace (.ok children)) :
    ReadsFrom pid trace children ∧
      ∃ names : List String, tasks = names.map .ok ∧ ∀ name ∈ names, TaskRead trace pid name := by
  induction tasks generalizing trace children with
  | nil =>
    obtain ⟨rfl, heq⟩ := runs_done_iff.mp hrun
    cases heq
    exact ⟨⟨rfl, by simp [listings], rfl⟩, [], rfl, by simp⟩
  | cons task tasks ih =>
    rcases runs_andThen.mp hrun with ⟨_, _, heq⟩ | ⟨front, rest, xs, rfl, htask, hrest⟩
    · cases heq
    rcases runs_andThen.mp hrest with ⟨_, _, heq⟩ | ⟨middle, last, ys, rfl, htasks, hdone⟩
    · cases heq
    obtain ⟨rfl, heq⟩ := runs_done_iff.mp hdone
    cases heq
    rw [List.append_nil]
    obtain ⟨hreads, name, rfl, hname⟩ := reads_readTask htask
    obtain ⟨hreads', names, rfl, hnames⟩ := ih htasks
    refine ⟨hreads.append hreads', name :: names, rfl, List.forall_mem_cons.mpr ⟨?_, ?_⟩⟩
    · exact hname.mono (List.subset_append_left _ _)
    · exact fun other hother => (hnames other hother).mono (List.subset_append_right _ _)

theorem reads_readProcess {children : List Pid}
    (hrun : Runs (readProcess pid).run trace (.ok children)) :
    ReadsFrom pid trace children ∧ ProcessRead trace pid := by
  obtain ⟨answer, rest, rfl, hrest⟩ := runs_op_andThen.mp hrun
  cases answer with
  | error error =>
    dsimp only at hrest
    split at hrest
    next hfound =>
      obtain ⟨rfl, heq⟩ := runs_done_iff.mp hrest
      cases heq
      exact ⟨⟨rfl, by simp [listings], rfl⟩, .inr ⟨error, by simp, hfound⟩⟩
    next =>
      obtain ⟨_, heq⟩ := runs_done_iff.mp hrest
      cases heq
  | ok tasks =>
    obtain ⟨hreads, names, rfl, hnames⟩ := reads_readTasks hrest
    refine ⟨⟨hreads.listed, hreads.own, hreads.killed⟩, .inl ⟨names, List.mem_cons_self, ?_⟩⟩
    exact fun name hname => (hnames name hname).mono (List.subset_cons_self _ _)

/-- What a search has found in these events. -/
structure Searched (trace : List TreeEvent) (s : StackSearch root) : Prop where
  order : s.found.reverse = StackSearch.order root (listed (listings trace))
  looked : ∀ pid ∈ s.seen, pid ∉ s.pending → ProcessRead trace pid
  killed : killed trace = []

theorem searched_start (root : Pid) : Searched [] (StackSearch.start root) := by
  refine ⟨rfl, ?_, rfl⟩
  intro pid hseen hpending
  have hroot : pid = root := by simpa [StackSearch.start] using hseen
  exact absurd hroot (by simpa [StackSearch.start] using hpending)

theorem Searched.visit {s : StackSearch root} {rest children : List Pid} (h : Searched trace s)
    (hpending : s.pending = pid :: rest) (hreads : ReadsFrom pid trace' children)
    (hread : ProcessRead trace' pid) :
    Searched (trace ++ trace') (children.foldl .offer s.pop) := by
  refine ⟨?_, ?_, ?_⟩
  · have horder : s.pop.found.reverse = StackSearch.order root (listed (listings trace)) := h.order
    rw [listings_append, listed_append, hreads.listed]
    exact StackSearch.found_foldl_offer horder children
  · refine StackSearch.forall_visited_foldl_offer hpending ?_ ?_
    · exact fun other hseen hother =>
        (h.looked other hseen hother).mono (List.subset_append_left _ _)
    · exact hread.mono (List.subset_append_right _ _)
  · rw [killed_append, h.killed, hreads.killed, List.append_nil]

theorem searched_explore {s : StackSearch root} {found : List Pid} (h : Searched trace s)
    (hrun : Runs (explore s).run trace' (.ok found)) :
    ∃ t : StackSearch root, t.pending = [] ∧ t.found = found ∧ Searched (trace ++ trace') t := by
  fun_induction explore s generalizing trace trace' with
  | case1 s hpending =>
    obtain ⟨rfl, heq⟩ := runs_done_iff.mp hrun
    cases heq
    rw [List.append_nil]
    exact ⟨s, hpending, rfl, h⟩
  | case2 s pid rest hpending ih =>
    rcases runs_andThen.mp hrun with ⟨_, _, heq⟩ | ⟨front, back, children, rfl, hread, hrest⟩
    · cases heq
    obtain ⟨hreads, hlooked⟩ := reads_readProcess hread
    rw [← List.append_assoc]
    exact ih children (h.visit hpending hreads hlooked) hrest

theorem sends_forwardAll {pids : List Pid}
    (hrun : Runs (forwardAll signal pids).run trace (.ok ())) :
    killed trace = pids ∧ listings trace = [] := by
  induction pids generalizing trace with
  | nil =>
    obtain ⟨rfl, _⟩ := runs_done_iff.mp hrun
    exact ⟨rfl, rfl⟩
  | cons pid pids ih =>
    rcases runs_andThen.mp hrun with ⟨_, _, heq⟩ | ⟨front, back, _, rfl, hfirst, hrest⟩
    · cases heq
    obtain ⟨answer, rest, rfl, hdone⟩ := runs_op_andThen.mp hfirst
    have hnil : rest = [] := by
      split at hdone
      next => exact (runs_done_iff.mp hdone).1
      next => exact (runs_done_iff.mp hdone).1
    subst hnil
    obtain ⟨hkilled, hlistings⟩ := ih hrest
    rw [killed_append, listings_append, hkilled, hlistings]
    exact ⟨rfl, rfl⟩

/-- A call that ends well has made a whole round. -/
theorem round_signalDescendants
    (hrun : Runs (signalDescendants root signal).run trace (.ok ())) :
    SignallingRound root signal trace := by
  have hsearches := (searches_signalDescendants root signal).runs hrun
  rcases runs_andThen.mp hrun with ⟨_, _, heq⟩ | ⟨front, back, found, rfl, hsearch, hsend⟩
  · cases heq
  obtain ⟨t, hempty, rfl, ht⟩ := searched_explore (searched_start root) hsearch
  obtain ⟨hkilled, hlistings⟩ := sends_forwardAll hsend
  rw [List.nil_append] at ht
  refine ⟨?_, ?_, ?_⟩
  · intro pid hpid
    rw [listings_append, hlistings, List.append_nil] at hpid
    refine (ht.looked pid ?_ (by simp [hempty])).mono (List.subset_append_left _ _)
    rw [t.mem_seen, ← List.mem_reverse, ht.order, StackSearch.mem_order]
    by_cases hroot : pid = root
    · exact .inl hroot
    · exact .inr ⟨hpid.resolve_left hroot, hroot⟩
  · rw [killed_append, ht.killed, hkilled, listings_append, hlistings, List.append_nil,
      List.nil_append]
    exact ht.order
  · exact fun pid sent answer hmem => hsearches _ hmem

end

end CommandTree

end Scproxy
