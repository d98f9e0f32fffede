import Mathlib.Data.List.TakeWhile
import Mathlib.Logic.Function.Basic
import Scproxy.HttpConnect
import Scproxy.InteractionRuns
import Scproxy.Request
import Scproxy.TextLines

namespace Scproxy

open Interaction

/-- The flags `F_SEAL_SEAL`, `F_SEAL_SHRINK`, `F_SEAL_GROW` and `F_SEAL_WRITE`. -/
def Libc.seals : UInt32 := 1 ||| 2 ||| 4 ||| 8

def Libc.sealWrite : UInt32 := 8

/-- What `ResolverFiles::new` asks of the kernel and of the file system. -/
inductive SetupOperation
  | readToString (path : String)
  | memfdCreate
  | writeAll (descriptor : UInt32) (bytes : List UInt8)
  | fchmod (descriptor mode : UInt32)
  | addSeals (descriptor seals : UInt32)
  | canonicalize (path : String)

abbrev SetupOperation.Ret : SetupOperation → Type
  | readToString _ => Except IoError String
  | memfdCreate => Except IoError UInt32
  | writeAll .. | fchmod .. | addSeals .. => Except IoError Unit
  | canonicalize _ => Option (List UInt8)

abbrev Setup := ExceptT IoError (Interaction SetupOperation SetupOperation.Ret)

namespace Setup

def readToString (path : String) : Setup (Except IoError String) :=
  ExceptT.mk (.perform (.readToString path) fun answer => .done (.ok answer))

def memfdCreate : Setup UInt32 := ExceptT.mk (.perform .memfdCreate .done)

def writeAll (descriptor : UInt32) (bytes : List UInt8) : Setup Unit :=
  ExceptT.mk (.perform (.writeAll descriptor bytes) .done)

def fchmod (descriptor mode : UInt32) : Setup Unit :=
  ExceptT.mk (.perform (.fchmod descriptor mode) .done)

def addSeals (descriptor seals : UInt32) : Setup Unit :=
  ExceptT.mk (.perform (.addSeals descriptor seals) .done)

def canonicalize (path : String) : Setup (Option (List UInt8)) :=
  ExceptT.mk (.perform (.canonicalize path) fun path => .done (.ok path))

end Setup

def resolvConf : String := "nameserver " ++ dnsAddr.fmt ++ "\n"

/-- The line is about the database of host names. -/
def isHosts (line : String) : Bool :=
  (splitOnce ':' line).any fun (name, _) => trim name == "hosts"

def nsswitchConf (original : String) : String :=
  joinWith '\n' ((textLines original).filter (!isHosts ·) ++ ["hosts: files dns"]) ++ "\n"

def ConfigFile.new (path contents : String) : Setup ConfigFile := do
  let descriptor ← Setup.memfdCreate
  Setup.writeAll descriptor (asBytes contents)
  Setup.fchmod descriptor 0o444
  Setup.addSeals descriptor Libc.seals
  let canonical ← Setup.canonicalize path
  pure ⟨asBytes path, canonical, descriptor⟩

namespace ResolverFiles

def new : Setup (List ConfigFile) := do
  let original ← Setup.readToString "/etc/nsswitch.conf"
  let nss := nsswitchConf (original.toOption.getD "")
  let resolv ← ConfigFile.new "/etc/resolv.conf" resolvConf
  let nsswitch ← ConfigFile.new "/etc/nsswitch.conf" nss
  pure [resolv, nsswitch]

/-- The sockets of the resolver services of the host. -/
def resolverSockets : List String :=
  ["/run/nscd/socket", "/var/run/nscd/socket", "/run/systemd/resolve/io.systemd.Resolve",
    "/var/run/systemd/resolve/io.systemd.Resolve"]

def resolverSocket (path : List UInt8) : Bool := (resolverSockets.map asBytes).contains path

/-- The size of `struct sockaddr_un`. -/
def sockaddrUn : UInt64 := 110

def checkUnixConnect (memory : Memory) (request : Notification) : Except IoError Unit := do
  let args := request.data.args
  let family ← memory.family request.pid (args 1) (args 2)
  if family ≠ Libc.afUnix then .ok ()
  else if sockaddrUn < args 2 then .error (.os Errno.einval)
  else do
    let bytes ← memory.read request.pid (args 1 + 2) ((args 2).toNat - 2)
    if bytes.head?.all (· == 0) then .ok ()
    else if resolverSocket (bytes.takeWhile (· != 0)) then .error (.os Errno.econnrefused)
    else .ok ()

/-- The address of the call is the name of a Unix socket, which ends at a zero byte or with the
address. -/
def Names (memory : Memory) (request : Notification) (path : List UInt8) : Prop :=
  memory.family request.pid (request.data.args 1) (request.data.args 2) = .ok Libc.afUnix ∧
    ∃ bytes, memory.read request.pid (request.data.args 1 + 2)
      ((request.data.args 2).toNat - 2) = .ok bytes ∧ (bytes = path ∨ ∃ rest, bytes = path ++ 0 :: rest)

theorem resolverSockets_plain :
    ∀ path ∈ resolverSockets.map asBytes, path ≠ [] ∧ 0 ∉ path := by
  decide +kernel

theorem checkUnixConnect_ne_ok {memory : Memory} {request : Notification} {path : List UInt8}
    (hpath : path ∈ resolverSockets.map asBytes) (h : Names memory request path) :
    checkUnixConnect memory request ≠ .ok () := by
  obtain ⟨hfamily, bytes, hread, hbytes⟩ := h
  obtain ⟨hne, hzero⟩ := resolverSockets_plain path hpath
  have hkeep : ∀ b ∈ path, (b != 0) = true := fun b hb => bne_iff_ne.mpr fun heq => hzero (heq ▸ hb)
  have htake : bytes.takeWhile (· != 0) = path := by
    rcases hbytes with rfl | ⟨rest, rfl⟩
    · exact List.takeWhile_eq_self_iff.mpr hkeep
    · rw [List.takeWhile_append_of_pos hkeep]
      simp
  have hfirst : bytes.head?.all (· == 0) = false := by
    obtain ⟨first, path', rfl⟩ := List.exists_cons_of_ne_nil hne
    have hhead : bytes.head? = some first := by
      rcases hbytes with rfl | ⟨rest, rfl⟩
      · rfl
      · rfl
    rw [hhead]
    simpa using hkeep first (by simp)
  have hsocket : resolverSocket path = true := List.contains_iff_mem.mpr hpath
  intro hok
  simp only [checkUnixConnect, hfamily, hread, htake, hfirst, hsocket, Bind.bind, Except.bind] at hok
  split at hok
  next hother => exact hother rfl
  next =>
    split at hok
    next => cases hok
    next => cases hok

end ResolverFiles

/-- The service list that a line gives to a database. -/
def serviceLine (database line : String) : Option String :=
  (splitOnce ':' line).bind fun (name, list) =>
    if trim name = database then some (trim list) else none

/-- The service lists of a database. -/
def services (database text : String) : List String :=
  (textLines text).filterMap (serviceLine database)

theorem serviceLine_stripReturn (database line : String) :
    serviceLine database (String.ofList (stripReturn line.toList)) = serviceLine database line := by
  cases hsplit : splitOnce ':' line with
  | none =>
    have hcolon := splitOnce_eq_none.mp hsplit
    have hnone : splitOnce ':' (String.ofList (stripReturn line.toList)) = none := by
      rw [splitOnce_eq_none, String.toList_ofList]
      rcases stripReturn_cases line.toList with heq | heq
      · rwa [heq]
      · rw [heq, List.mem_append, not_or] at hcolon
        exact hcolon.1
    rw [serviceLine, serviceLine, hnone, hsplit]
  | some parts =>
    obtain ⟨name, list⟩ := parts
    obtain ⟨hline, hname⟩ := splitOnce_eq_some.mp hsplit
    have hsome : splitOnce ':' (String.ofList (stripReturn line.toList)) =
        some (name, String.ofList (stripReturn list.toList)) := by
      rw [splitOnce_eq_some, String.toList_ofList, String.toList_ofList, hline,
        stripReturn_append_cons _ (by decide)]
      exact ⟨rfl, hname⟩
    rw [serviceLine, serviceLine, hsome, hsplit]
    simp only [Option.bind_some, trim_stripReturn]

theorem serviceLine_of_isHosts {database line : String} (h : isHosts line = true)
    (hother : database ≠ "hosts") : serviceLine database line = none := by
  cases hsplit : splitOnce ':' line with
  | none => simp [serviceLine, hsplit]
  | some parts =>
    have hname : trim parts.1 = "hosts" := by simpa [isHosts, hsplit] using h
    simp [serviceLine, hsplit, hname, hother.symm]

theorem serviceLine_hosts_eq_none {line : String} (h : isHosts line = false) :
    serviceLine "hosts" line = none := by
  cases hsplit : splitOnce ':' line with
  | none => simp [serviceLine, hsplit]
  | some parts =>
    have hname : trim parts.1 ≠ "hosts" := by simpa [isHosts, hsplit] using h
    simp [serviceLine, hsplit, hname]

/-- A database is read from the lines that are kept and from the new one. -/
theorem services_nsswitchConf (database original : String) :
    services database (nsswitchConf original) =
      ((textLines original).filter (!isHosts ·)).filterMap (serviceLine database) ++
        ["hosts: files dns"].filterMap (serviceLine database) := by
  have hplain : ∀ line ∈ (textLines original).filter (!isHosts ·) ++ ["hosts: files dns"],
      '\n' ∉ line.toList := by
    intro line hline
    rcases List.mem_append.mp hline with hline | hline
    · exact newline_not_mem_textLines (List.mem_filter.mp hline).1
    · rw [List.mem_singleton.mp hline]
      decide
  rw [services, nsswitchConf, textLines_joinWith (by simp) hplain, List.filterMap_map]
  have hread : serviceLine database ∘ (fun line => String.ofList (stripReturn line.toList)) =
      serviceLine database := funext (serviceLine_stripReturn database)
  rw [hread, List.filterMap_append]

theorem services_nsswitchConf_hosts (original : String) :
    services "hosts" (nsswitchConf original) = ["files dns"] := by
  have hkept : ((textLines original).filter (!isHosts ·)).filterMap (serviceLine "hosts") = [] := by
    rw [List.filterMap_eq_nil_iff]
    intro line hline
    have hnot := (List.mem_filter.mp hline).2
    exact serviceLine_hosts_eq_none (by simpa using hnot)
  have hnew : serviceLine "hosts" "hosts: files dns" = some "files dns" := by decide
  rw [services_nsswitchConf, hkept, List.filterMap_cons_some hnew]
  rfl

theorem services_nsswitchConf_of_ne {database : String} (hother : database ≠ "hosts")
    (original : String) : services database (nsswitchConf original) = services database original := by
  have hnew : serviceLine database "hosts: files dns" = none :=
    serviceLine_of_isHosts (by decide) hother
  rw [services_nsswitchConf, List.filterMap_cons_none hnew, List.filterMap_nil, List.append_nil,
    services, List.filterMap_filter]
  refine List.filterMap_congr fun line _ => ?_
  cases hhosts : isHosts line with
  | false => rfl
  | true => simp [serviceLine_of_isHosts hhosts hother]

/-- An anonymous file. -/
structure Memfd where
  contents : List UInt8
  mode : UInt32
  seals : UInt32

/-- What a call that succeeds does to the anonymous files. A call that fails ends the setup. -/
def SetupOperation.store (files : UInt32 → Option Memfd) :
    Event SetupOperation SetupOperation.Ret → UInt32 → Option Memfd
  | ⟨.memfdCreate, .ok descriptor⟩ => Function.update files descriptor (some ⟨[], 0o777, 0⟩)
  | ⟨.writeAll descriptor bytes, .ok ()⟩ =>
    Function.update files descriptor ((files descriptor).map fun file =>
      if file.seals &&& Libc.sealWrite = 0 then { file with contents := file.contents ++ bytes }
      else file)
  | ⟨.fchmod descriptor mode, .ok ()⟩ =>
    Function.update files descriptor ((files descriptor).map ({ · with mode }))
  | ⟨.addSeals descriptor seals, .ok ()⟩ =>
    Function.update files descriptor
      ((files descriptor).map fun file => { file with seals := file.seals ||| seals })
  | _ => files

def memfds (trace : List (Event SetupOperation SetupOperation.Ret)) : UInt32 → Option Memfd :=
  trace.foldl SetupOperation.store fun _ => none

/-- The descriptors that the kernel gave out. They are open until the broker ends. -/
def created (trace : List (Event SetupOperation SetupOperation.Ret)) : List UInt32 :=
  trace.filterMap fun
    | ⟨.memfdCreate, .ok descriptor⟩ => some descriptor
    | _ => none

/-- A sealed file that nobody can write. -/
def sealed (contents : String) : Memfd := ⟨asBytes contents, 0o444, Libc.seals⟩

theorem runs_new_file {path contents : String} {file : ConfigFile}
    {trace : List (Event SetupOperation SetupOperation.Ret)}
    (h : Runs (ConfigFile.new path contents).run trace (.ok file)) :
    file.path = asBytes path ∧ created trace = [file.descriptor] ∧
      ∀ files, trace.foldl SetupOperation.store files =
        Function.update files file.descriptor (some (sealed contents)) := by
  unfold ConfigFile.new at h
  obtain ⟨e, _, hbad⟩ | ⟨_, _, descriptor, rfl, hcreate, h⟩ := runs_andThen.mp h
  · cases hbad
  obtain ⟨e, _, hbad⟩ | ⟨_, _, _, rfl, hwrite, h⟩ := runs_andThen.mp h
  · cases hbad
  obtain ⟨e, _, hbad⟩ | ⟨_, _, _, rfl, hmode, h⟩ := runs_andThen.mp h
  · cases hbad
  obtain ⟨e, _, hbad⟩ | ⟨_, _, _, rfl, hseal, h⟩ := runs_andThen.mp h
  · cases hbad
  obtain ⟨e, _, hbad⟩ | ⟨_, _, canonical, rfl, hask, h⟩ := runs_andThen.mp h
  · cases hbad
  obtain ⟨rfl, hfile⟩ := runs_done_iff.mp h
  cases hfile
  obtain ⟨_, _, rfl, hdone⟩ := runs_perform_iff.mp hask
  obtain ⟨rfl, _⟩ := runs_done_iff.mp hdone
  rw [runs_single_iff.mp hcreate, runs_single_iff.mp hwrite, runs_single_iff.mp hmode,
    runs_single_iff.mp hseal]
  refine ⟨rfl, rfl, fun files => ?_⟩
  have hopen : (0 : UInt32) &&& Libc.sealWrite = 0 := rfl
  have hall : (0 : UInt32) ||| Libc.seals = Libc.seals := rfl
  simp [SetupOperation.store, sealed, hopen, hall]

/-- In every run that succeeds, both files have their contents and are sealed when they are handed
out: the only name server is the broker's, host names are looked up in files and by DNS, and every
other database is looked up as before. -/
theorem resolver_files_installed {files : List ConfigFile}
    {trace : List (Event SetupOperation SetupOperation.Ret)}
    (h : Runs ResolverFiles.new.run trace (.ok files)) (hfresh : (created trace).Nodup) :
    ∃ original resolv nsswitch text, ⟨.readToString "/etc/nsswitch.conf", original⟩ ∈ trace ∧
      files = [resolv, nsswitch] ∧ resolv.path = asBytes "/etc/resolv.conf" ∧
      nsswitch.path = asBytes "/etc/nsswitch.conf" ∧
      memfds trace resolv.descriptor = some (sealed resolvConf) ∧
      memfds trace nsswitch.descriptor = some (sealed text) ∧
      services "hosts" text = ["files dns"] ∧
      ∀ database, database ≠ "hosts" →
        services database text = services database (original.toOption.getD "") := by
  unfold ResolverFiles.new at h
  obtain ⟨e, _, hbad⟩ | ⟨_, _, original, rfl, hread, h⟩ := runs_andThen.mp h
  · cases hbad
  obtain ⟨e, _, hbad⟩ | ⟨first, _, resolv, rfl, hresolv, h⟩ := runs_andThen.mp h
  · cases hbad
  obtain ⟨e, _, hbad⟩ | ⟨second, _, nsswitch, rfl, hnsswitch, h⟩ := runs_andThen.mp h
  · cases hbad
  obtain ⟨rfl, hfiles⟩ := runs_done_iff.mp h
  cases hfiles
  obtain ⟨answer, _, rfl, hdone⟩ := runs_perform_iff.mp hread
  obtain ⟨rfl, hanswer⟩ := runs_done_iff.mp hdone
  cases hanswer
  obtain ⟨hpath, hcreated, hstore⟩ := runs_new_file hresolv
  obtain ⟨hpath', hcreated', hstore'⟩ := runs_new_file hnsswitch
  have hne : resolv.descriptor ≠ nsswitch.descriptor := by
    have hboth : created ([⟨.readToString "/etc/nsswitch.conf", original⟩] ++
        (first ++ (second ++ []))) = [resolv.descriptor, nsswitch.descriptor] := by
      rw [List.append_nil, created, List.filterMap_append, List.filterMap_append]
      exact congrArg₂ (fun a b => a ++ b) hcreated hcreated'
    rw [hboth] at hfresh
    simpa using hfresh
  have hmemfds : memfds ([⟨.readToString "/etc/nsswitch.conf", original⟩] ++
      (first ++ (second ++ []))) = Function.update
        (Function.update (fun _ => none) resolv.descriptor (some (sealed resolvConf)))
        nsswitch.descriptor (some (sealed (nsswitchConf (original.toOption.getD "")))) := by
    rw [List.append_nil, memfds, List.foldl_append, List.foldl_append, hstore, hstore']
    rfl
  refine ⟨original, resolv, nsswitch, nsswitchConf (original.toOption.getD ""), by simp, rfl, hpath,
    hpath', ?_, ?_, services_nsswitchConf_hosts _, fun database hother =>
      services_nsswitchConf_of_ne hother _⟩
  · rw [hmemfds, Function.update_of_ne hne, Function.update_self]
  · rw [hmemfds, Function.update_self]

/-- A file with a list of its own for host names and with a carriage return. -/
def hostNsswitch : String := "passwd: files systemd\r\n hosts : resolve dns\ngroup:files"

/-- What `ConfigFile::new` does with a descriptor. -/
def fileTrace (descriptor : UInt32) (path contents : String) :
    List (Event SetupOperation SetupOperation.Ret) :=
  [⟨.memfdCreate, .ok descriptor⟩, ⟨.writeAll descriptor (asBytes contents), .ok ()⟩,
    ⟨.fchmod descriptor 0o444, .ok ()⟩, ⟨.addSeals descriptor Libc.seals, .ok ()⟩,
    ⟨.canonicalize path, none⟩]

def hostTrace : List (Event SetupOperation SetupOperation.Ret) :=
  ⟨.readToString "/etc/nsswitch.conf", .ok hostNsswitch⟩ ::
    (fileTrace 7 "/etc/resolv.conf" resolvConf ++
      fileTrace 8 "/etc/nsswitch.conf" (nsswitchConf hostNsswitch))

theorem resolver_files_installed_host : ∃ text, memfds hostTrace 8 = some (sealed text) ∧
    services "hosts" text = ["files dns"] ∧ services "passwd" text = ["files systemd"] ∧
    services "group" text = ["files"] := by
  have hrun : Runs ResolverFiles.new.run hostTrace (.ok
      [⟨asBytes "/etc/resolv.conf", none, 7⟩, ⟨asBytes "/etc/nsswitch.conf", none, 8⟩]) :=
    .perform (.perform (.perform (.perform (.perform (.perform (.perform (.perform (.perform
      (.perform (.perform (.done _)))))))))))
  obtain ⟨original, resolv, nsswitch, text, hread, hfiles, _, _, _, hmemfd, hhosts, hother⟩ :=
    resolver_files_installed hrun (by decide)
  have horiginal : original = .ok hostNsswitch := by
    simpa [hostTrace, fileTrace] using hread
  cases hfiles
  cases horiginal
  have hpasswd : services "passwd" hostNsswitch = ["files systemd"] := by decide +kernel
  have hgroup : services "group" hostNsswitch = ["files"] := by decide +kernel
  exact ⟨text, hmemfd, hhosts, (hother _ (by decide)).trans hpasswd,
    (hother _ (by decide)).trans hgroup⟩

end Scproxy
