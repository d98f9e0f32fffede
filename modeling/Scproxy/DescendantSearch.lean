import Scproxy.CommandTree

namespace Scproxy

open Interaction

abbrev TreeEvent := Event TreeOperation TreeOperation.Ret

/-- The threads of the processes and the children that each thread has. What has
vanished has none. -/
structure ProcessTable where
  tasks : Pid → Option (List String)
  children : Pid → String → Option (List Pid)

/-- A thread of the first process lists the second. -/
def ProcessTable.Child (table : ProcessTable) (parent child : Pid) : Prop :=
  ∃ tasks task pids, table.tasks parent = some tasks ∧ task ∈ tasks ∧
    table.children parent task = some pids ∧ child ∈ pids

/-- Among the processes under the root none has two parents, and the root has none. -/
def ProcessTable.IsTree (table : ProcessTable) (root : Pid) : Prop :=
  (∀ pid, Relation.ReflTransGen table.Child root pid → ¬table.Child pid root) ∧
  ∀ first second child, Relation.ReflTransGen table.Child root first →
    Relation.ReflTransGen table.Child root second → table.Child first child →
    table.Child second child → first = second

namespace CommandTree

theorem parsePid_toString (pid : Pid) : parsePid (toString pid.toInt) = .ok pid := by
  have hlow := pid.le_toInt
  have hhigh := pid.toInt_lt
  rw [parsePid, parseSigned_toString (by omega) (by omega)]
  exact congrArg Except.ok pid.ofInt_toInt

/-- `/proc/PID/task/TID/children`: the pids, each with a space after it. -/
def childrenText (pids : List Pid) : String :=
  String.ofList (pids.flatMap fun pid => (toString pid.toInt).toList ++ [' '])

theorem splitWhitespace_childrenText (pids : List Pid) :
    splitWhitespace (childrenText pids) = pids.map fun pid => toString pid.toInt := by
  have hsplit : (pids.flatMap fun pid => (toString pid.toInt).toList ++ [' ']).splitOnP
      isWhitespace = (pids.map fun pid => (toString pid.toInt).toList) ++ [[]] := by
    induction pids with
    | nil => rfl
    | cons pid pids ih =>
      rw [List.flatMap_cons, List.append_assoc, List.singleton_append,
        List.splitOnP_append_cons_of_forall_mem (fun _ => isWhitespace_of_mem_toString) ' ' rfl, ih]
      rfl
  have hkeep : (pids.map fun pid => (toString pid.toInt).toList).filter (· ≠ []) =
      pids.map fun pid => (toString pid.toInt).toList := by
    apply List.filter_eq_self.mpr
    intro word hword
    obtain ⟨pid, _, rfl⟩ := List.mem_map.mp hword
    simpa using toList_toString_ne_nil pid.toInt
  rw [splitWhitespace, childrenText, String.toList_ofList, hsplit, List.filter_append, hkeep]
  simp

theorem parsePids_childrenText (pids : List Pid) : parsePids (childrenText pids) = .ok pids := by
  rw [parsePids, splitWhitespace_childrenText]
  induction pids with
  | nil => rfl
  | cons pid pids ih =>
    rw [List.map_cons, List.mapM_cons, parsePid_toString, ih]
    rfl

/-- What `/proc` answers for these processes. A signal is sent, or its process is gone. -/
def Shows (table : ProcessTable) : TreeEvent → Prop
  | ⟨.readDir pid, answer⟩ =>
    match table.tasks pid with
    | some tasks => answer = .ok (tasks.map .ok)
    | none => answer = .error (.os Errno.enoent)
  | ⟨.readChildren pid task, answer⟩ =>
    match table.children pid task with
    | some pids => answer = .ok (childrenText pids)
    | none => answer = .error (.os Errno.enoent)
  | ⟨.kill .., answer⟩ => answer = .ok () ∨ answer = .error Errno.esrch
  | _ => True

/-- The pids that a signal was sent to, in this order. -/
def killed (trace : List TreeEvent) : List Pid :=
  trace.filterMap fun event =>
    match event.op with
    | .kill pid _ => some pid
    | _ => none

/-- The lists of children that were read, each with the process it belongs to. -/
def listings (trace : List TreeEvent) : List (Pid × List Pid) :=
  trace.filterMap fun
    | ⟨.readChildren pid _, .ok text⟩ => (parsePids text).toOption.map (pid, ·)
    | _ => none

/-- All pids in them. -/
def listed (entries : List (Pid × List Pid)) : List Pid := entries.flatMap Prod.snd

/-- The first list with the second pid in it is one of the first. -/
def Discovers (trace : List TreeEvent) (parent child : Pid) : Prop :=
  ∃ before pids after, listings trace = before ++ (parent, pids) :: after ∧ child ∈ pids ∧
    child ∉ listed before

theorem killed_append (front back : List TreeEvent) :
    killed (front ++ back) = killed front ++ killed back :=
  List.filterMap_append

theorem listings_append (front back : List TreeEvent) :
    listings (front ++ back) = listings front ++ listings back :=
  List.filterMap_append

theorem listed_append (front back : List (Pid × List Pid)) :
    listed (front ++ back) = listed front ++ listed back :=
  List.flatMap_append

section Runs

variable {table : ProcessTable} {pid : Pid} {trace : List TreeEvent}

/-- The children of a process were read from its lists, and no signal was sent. -/
structure ReadsFrom (pid : Pid) (trace : List TreeEvent) (children : List Pid) : Prop where
  listed : listed (listings trace) = children
  own : ∀ entry ∈ listings trace, entry.1 = pid
  killed : killed trace = []

theorem ReadsFrom.append {front back : List TreeEvent} {xs ys : List Pid}
    (hfront : ReadsFrom pid front xs) (hback : ReadsFrom pid back ys) :
    ReadsFrom pid (front ++ back) (xs ++ ys) := by
  refine ⟨?_, ?_, ?_⟩
  · rw [listings_append, listed_append, hfront.listed, hback.listed]
  · rw [listings_append]
    intro entry hentry
    rcases List.mem_append.mp hentry with hentry | hentry
    · exact hfront.own entry hentry
    · exact hback.own entry hentry
  · rw [killed_append, hfront.killed, hback.killed]
    rfl

theorem runs_op {op : TreeOperation} {result : Except TreeError op.Ret} :
    Runs (Tree.perform op).run trace result ↔
      ∃ answer, trace = [⟨op, answer⟩] ∧ result = .ok answer := by
  refine runs_perform_iff.trans ?_
  constructor
  · rintro ⟨answer, rest, rfl, hdone⟩
    obtain ⟨rfl, rfl⟩ := runs_done_iff.mp hdone
    exact ⟨answer, rfl, rfl⟩
  · rintro ⟨answer, rfl, rfl⟩
    exact ⟨answer, [], rfl, .done _⟩

/-- `runs_andThen` for a program that begins with an operation. -/
theorem runs_op_andThen {α : Type} {op : TreeOperation} {f : op.Ret → Tree α}
    {result : Except TreeError α} :
    Runs (Tree.perform op >>= f).run trace result ↔
      ∃ answer rest, trace = ⟨op, answer⟩ :: rest ∧ Runs (f answer).run rest result := by
  rw [runs_andThen]
  constructor
  · rintro (⟨e, hop, _⟩ | ⟨front, back, answer, rfl, hop, hrest⟩)
    · obtain ⟨_, _, heq⟩ := runs_op.mp hop
      cases heq
    · obtain ⟨_, rfl, heq⟩ := runs_op.mp hop
      cases heq
      exact ⟨answer, back, rfl, hrest⟩
  · rintro ⟨answer, rest, rfl, hrest⟩
    exact Or.inr ⟨[⟨op, answer⟩], rest, answer, rfl, runs_op.mpr ⟨answer, rfl, rfl⟩, hrest⟩

theorem runs_readTask {task : String} {result : Except TreeError (List Pid)}
    (hrun : Runs (readTask pid (.ok task)).run trace result)
    (hshows : ∀ event ∈ trace, Shows table event) :
    result = .ok ((table.children pid task).getD []) ∧
      ReadsFrom pid trace ((table.children pid task).getD []) := by
  obtain ⟨answer, rest, rfl, hrest⟩ := runs_op_andThen.mp hrun
  have hanswer := hshows _ (List.mem_cons_self ..)
  simp only [Shows] at hanswer
  split at hanswer
  next pids hpids =>
    cases hanswer
    obtain ⟨rfl, rfl⟩ := runs_done_iff.mp hrest
    rw [hpids, parsePids_childrenText]
    refine ⟨rfl, ?_, ?_, rfl⟩
    · simp [listings, parsePids_childrenText, listed, Except.toOption]
    · simp [listings, parsePids_childrenText, Except.toOption]
  next hnone =>
    cases hanswer
    obtain ⟨rfl, rfl⟩ := runs_done_iff.mp hrest
    rw [hnone]
    exact ⟨rfl, rfl, by simp [listings], rfl⟩

theorem runs_readTasks {tasks : List String} {result : Except TreeError (List Pid)}
    (hrun : Runs (readTasks pid (tasks.map .ok)).run trace result)
    (hshows : ∀ event ∈ trace, Shows table event) :
    ∃ children, result = .ok children ∧ ReadsFrom pid trace children ∧
      ∀ child, child ∈ children ↔ ∃ task pids, task ∈ tasks ∧
        table.children pid task = some pids ∧ child ∈ pids := by
  induction tasks generalizing trace result with
  | nil =>
    obtain ⟨rfl, rfl⟩ := runs_done_iff.mp hrun
    exact ⟨[], rfl, ⟨rfl, by simp [listings], rfl⟩, by simp⟩
  | cons task tasks ih =>
    rcases runs_andThen.mp hrun with ⟨e, htask, _⟩ | ⟨front, rest, xs, rfl, htask, hrest⟩
    · cases (runs_readTask htask hshows).1
    obtain ⟨hfront, hback⟩ := List.forall_mem_append.mp hshows
    obtain ⟨heq, hreads⟩ := runs_readTask htask hfront
    cases heq
    rcases runs_andThen.mp hrest with ⟨e, hlater, _⟩ | ⟨middle, last, ys, rfl, hlater, hdone⟩
    · obtain ⟨_, heq, _⟩ := ih hlater hback
      cases heq
    obtain ⟨rfl, rfl⟩ := runs_done_iff.mp hdone
    rw [List.append_nil] at hback ⊢
    obtain ⟨_, heq, hreads', hmem⟩ := ih hlater hback
    cases heq
    refine ⟨_, rfl, hreads.append hreads', fun child => ?_⟩
    rw [List.mem_append, hmem]
    constructor
    · rintro (hchild | ⟨other, pids, hother, hpids, hchild⟩)
      · cases hpids : table.children pid task with
        | none => simp [hpids] at hchild
        | some pids =>
          rw [hpids] at hchild
          exact ⟨task, pids, List.mem_cons_self .., hpids, hchild⟩
      · exact ⟨other, pids, List.mem_cons_of_mem _ hother, hpids, hchild⟩
    · rintro ⟨other, pids, hother, hpids, hchild⟩
      rcases List.mem_cons.mp hother with rfl | hother
      · rw [hpids]
        exact Or.inl hchild
      · exact Or.inr ⟨other, pids, hother, hpids, hchild⟩

theorem runs_readProcess {result : Except TreeError (List Pid)}
    (hrun : Runs (readProcess pid).run trace result)
    (hshows : ∀ event ∈ trace, Shows table event) :
    ∃ children, result = .ok children ∧ ReadsFrom pid trace children ∧
      ∀ child, child ∈ children ↔ table.Child pid child := by
  obtain ⟨answer, rest, rfl, hrest⟩ := runs_op_andThen.mp hrun
  obtain ⟨hanswer, hlater⟩ := List.forall_mem_cons.mp hshows
  have hskip : ∀ children, ReadsFrom pid rest children →
      ReadsFrom pid (⟨.readDir pid, answer⟩ :: rest) children :=
    fun _ h => ⟨h.listed, h.own, h.killed⟩
  simp only [Shows] at hanswer
  split at hanswer
  next tasks htasks =>
    cases hanswer
    obtain ⟨children, rfl, hreads, hmem⟩ := runs_readTasks hrest hlater
    refine ⟨children, rfl, hskip _ hreads, fun child => (hmem child).trans ?_⟩
    constructor
    · rintro ⟨task, pids, htask, hpids, hchild⟩
      exact ⟨tasks, task, pids, htasks, htask, hpids, hchild⟩
    · rintro ⟨tasks', task, pids, htasks', htask, hpids, hchild⟩
      cases htasks.symm.trans htasks'
      exact ⟨task, pids, htask, hpids, hchild⟩
  next hnone =>
    cases hanswer
    obtain ⟨rfl, rfl⟩ := runs_done_iff.mp hrest
    refine ⟨[], rfl, hskip _ ⟨rfl, by simp [listings], rfl⟩, fun child => ?_⟩
    simp only [List.not_mem_nil, ProcessTable.Child, hnone, reduceCtorEq, false_and, exists_false]

/-- What holds of a search after these lists: it has found what they list, each list
belongs to a process that was found before, and a process that is no longer pending
has been read. -/
structure Explored (table : ProcessTable) {root : Pid} (entries : List (Pid × List Pid))
    (s : StackSearch root) : Prop where
  order : s.found.reverse = StackSearch.order root (listed entries)
  child : ∀ entry ∈ entries, ∀ pid ∈ entry.2, table.Child entry.1 pid
  reachable : ∀ pid ∈ listed entries, Relation.TransGen table.Child root pid
  source : ∀ before entry after, entries = before ++ entry :: after →
    entry.1 = root ∨ entry.1 ∈ listed before
  closed : ∀ pid ∈ s.seen, pid ∉ s.pending → ∀ child, table.Child pid child → child ∈ listed entries

theorem explored_start (root : Pid) : Explored table [] (StackSearch.start root) := by
  refine ⟨rfl, by simp, by simp [listed], ?_, ?_⟩
  · intro before entry after heq
    simp at heq
  · intro pid hseen hpending
    have hroot : pid = root := by simpa [StackSearch.start] using hseen
    exact absurd hroot (by simpa [StackSearch.start] using hpending)

theorem Explored.mem_seen {root : Pid} {entries : List (Pid × List Pid)} {s : StackSearch root}
    (h : Explored table entries s) : pid ∈ s.seen ↔ pid = root ∨ pid ∈ listed entries := by
  rw [s.mem_seen, ← List.mem_reverse, h.order, StackSearch.mem_order]
  by_cases hroot : pid = root
  · simp [hroot]
  · simp [hroot]

/-- One turn of the search. -/
theorem Explored.visit {root : Pid} {entries : List (Pid × List Pid)} {s : StackSearch root}
    {rest children : List Pid} (h : Explored table entries s) (hpending : s.pending = pid :: rest)
    (hreads : ReadsFrom pid trace children)
    (hmem : ∀ child, child ∈ children ↔ table.Child pid child) :
    Explored table (entries ++ listings trace) (children.foldl .offer s.pop) := by
  have hsource : pid = root ∨ pid ∈ listed entries :=
    h.mem_seen.mp (s.pending_seen pid (hpending ▸ List.mem_cons_self ..))
  have hlisted : listed (entries ++ listings trace) = listed entries ++ children := by
    rw [listed_append, hreads.listed]
  refine ⟨?_, ?_, ?_, ?_, ?_⟩
  · have horder : s.pop.found.reverse = StackSearch.order root (listed entries) := h.order
    rw [hlisted]
    exact StackSearch.found_foldl_offer horder children
  · intro entry hentry child hchild
    rcases List.mem_append.mp hentry with hentry | hentry
    · exact h.child entry hentry child hchild
    · rw [hreads.own entry hentry, ← hmem, ← hreads.listed]
      exact List.mem_flatMap.mpr ⟨entry, hentry, hchild⟩
  · rw [hlisted]
    intro child hchild
    rcases List.mem_append.mp hchild with hchild | hchild
    · exact h.reachable child hchild
    · have hstep := (hmem child).mp hchild
      rcases hsource with rfl | hsource
      · exact .single hstep
      · exact .tail (h.reachable pid hsource) hstep
  · intro before entry after heq
    rcases List.append_eq_append_iff.mp heq with ⟨middle, rfl, hlater⟩ | ⟨middle, rfl, hlater⟩
    · have hown : entry.1 = pid := hreads.own entry (by rw [hlater]; simp)
      rw [hown, listed_append]
      exact hsource.imp_right (List.mem_append_left _)
    · cases middle with
      | nil =>
        have hmem : entry ∈ listings trace := by
          rw [← List.nil_append (listings trace)]
          simp [← hlater]
        have hown : entry.1 = pid := hreads.own entry hmem
        rw [hown]
        simpa using hsource
      | cons first middle =>
        obtain ⟨rfl, rfl⟩ := List.cons.inj hlater
        exact h.source before entry middle rfl
  · refine StackSearch.forall_visited_foldl_offer hpending ?_ ?_
    · intro other hseen hother child hchild
      rw [hlisted]
      exact List.mem_append_left _ (h.closed other hseen hother child hchild)
    · intro child hchild
      rw [hlisted]
      exact List.mem_append_right _ ((hmem child).mpr hchild)

/-- A whole search. -/
theorem runs_explore {root : Pid} {entries : List (Pid × List Pid)} {s : StackSearch root}
    {result : Except TreeError (List Pid)} (hrun : Runs (explore s).run trace result)
    (hshows : ∀ event ∈ trace, Shows table event) (h : Explored table entries s) :
    killed trace = [] ∧ ∃ t : StackSearch root, t.pending = [] ∧ result = .ok t.found ∧
      Explored table (entries ++ listings trace) t := by
  fun_induction explore s generalizing trace entries with
  | case1 s hpending =>
    obtain ⟨rfl, rfl⟩ := runs_done_iff.mp hrun
    refine ⟨rfl, s, hpending, rfl, ?_⟩
    rwa [show listings [] = [] from rfl, List.append_nil]
  | case2 s pid rest hpending ih =>
    rcases runs_andThen.mp hrun with ⟨e, hread, _⟩ | ⟨front, back, children, rfl, hread, hrest⟩
    · obtain ⟨_, heq, _⟩ := runs_readProcess hread hshows
      cases heq
    obtain ⟨hfront, hback⟩ := List.forall_mem_append.mp hshows
    obtain ⟨_, heq, hreads, hmem⟩ := runs_readProcess hread hfront
    cases heq
    obtain ⟨hkilled, t, hempty, hresult, ht⟩ :=
      ih children hrest hback (h.visit hpending hreads hmem)
    rw [killed_append, hreads.killed, hkilled, listings_append, ← List.append_assoc]
    exact ⟨rfl, t, hempty, hresult, ht⟩

theorem forwardSignal_ok {answer : Except Nat Unit}
    (h : answer = .ok () ∨ answer = .error Errno.esrch) : forwardSignal answer = .ok () := by
  rcases h with rfl | rfl
  · rfl
  · rfl

theorem runs_forwardAll {signal : Sending} {pids : List Pid} {result : Except TreeError Unit}
    (hrun : Runs (forwardAll signal pids).run trace result)
    (hshows : ∀ event ∈ trace, Shows table event) :
    result = .ok () ∧ killed trace = pids ∧ listings trace = [] := by
  induction pids generalizing trace with
  | nil =>
    obtain ⟨rfl, rfl⟩ := runs_done_iff.mp hrun
    exact ⟨rfl, rfl, rfl⟩
  | cons pid pids ih =>
    have hforward : ∀ {front : List TreeEvent} {r : Except TreeError Unit},
        Runs (forward pid signal).run front r → (∀ event ∈ front, Shows table event) →
        r = .ok () ∧ killed front = [pid] ∧ listings front = [] := by
      intro front r hfirst hfront
      obtain ⟨answer, rest, rfl, hrest⟩ := runs_op_andThen.mp hfirst
      have hanswer : answer = .ok () ∨ answer = .error Errno.esrch :=
        hfront _ (List.mem_cons_self ..)
      rw [forwardSignal_ok hanswer] at hrest
      obtain ⟨rfl, rfl⟩ := runs_done_iff.mp hrest
      exact ⟨rfl, rfl, rfl⟩
    rcases runs_andThen.mp hrun with ⟨e, hfirst, _⟩ | ⟨front, back, _, rfl, hfirst, hrest⟩
    · cases (hforward hfirst hshows).1
    obtain ⟨hfront, hback⟩ := List.forall_mem_append.mp hshows
    obtain ⟨_, hkilled, hlistings⟩ := hforward hfirst hfront
    obtain ⟨hresult, hkilled', hlistings'⟩ := ih hrest hback
    rw [killed_append, hkilled, hkilled', listings_append, hlistings, hlistings']
    exact ⟨hresult, rfl, rfl⟩

/-- The signals go to what the lists have, the process that was found last first. -/
theorem runs_signalDescendants {root : Pid} {signal : Sending} {result : Except TreeError Unit}
    (hrun : Runs (signalDescendants root signal).run trace result)
    (hshows : ∀ event ∈ trace, Shows table event) :
    result = .ok () ∧ killed trace = StackSearch.order root (listed (listings trace)) ∧
      ∃ t : StackSearch root, t.pending = [] ∧ Explored table (listings trace) t := by
  rcases runs_andThen.mp hrun with ⟨e, hsearch, _⟩ | ⟨front, back, found, rfl, hsearch, hrest⟩
  · obtain ⟨_, _, _, heq, _⟩ := runs_explore hsearch hshows (explored_start root)
    cases heq
  obtain ⟨hfront, hback⟩ := List.forall_mem_append.mp hshows
  obtain ⟨hquiet, t, hempty, heq, ht⟩ := runs_explore hsearch hfront (explored_start root)
  cases heq
  obtain ⟨hresult, hkilled, hlistings⟩ := runs_forwardAll hrest hback
  rw [killed_append, hquiet, hkilled, listings_append, hlistings, List.append_nil]
  exact ⟨hresult, ht.order, t, hempty, ht⟩

end Runs

end CommandTree

end Scproxy
