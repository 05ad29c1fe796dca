/-
# Manager.Script -- `scripts/microvmd.sh`

The manager's script, a definition for each of its functions and for each stretch
of a `case` branch, under the script's names and messages.  A `Shell` is a piece of
script: it ends, or leaves with one of the three ways out in `Exit`.  `demand` is a
command under `set -e`, `require` one with `|| error` behind it.

`manager` is a whole run: a request line, or what the traps do when a signal ends
the shell.
-/
import Luhmen.Manager.Request
import Luhmen.Manager.World

set_option autoImplicit false

namespace Luhmen.Manager

open Luhmen.Theory

/-- How the shell exits: behind `ok`, behind `error`, or with a failing command. -/
inductive Exit where
  | ok
  | error
  | failed
deriving DecidableEq, Repr

abbrev Shell := Fallible Exit Commands

def ask (command : Command) : Shell command.Reply :=
  Fallible.perform (I := Commands) command

def demand (command : Shell Bool) : Shell Unit := do
  if ← command then pure () else throw .failed

/-! ## Texts and numbers -/

def MICROVM_UID_BASE : Nat := 60000
def MICROVM_UIDS : Nat := 1000
def MEMORY_RESERVE_MIB : Nat := 512
def VMM_MEMORY_MIB : Nat := 128

def number (text : Bytes) : Bool :=
  text ≠ [] && text.all isDigit

/-- `number "$1" && [ "$1" -ge low ] && [ "$1" -le high ]`. -/
def inRange (text : Bytes) (low high : Nat) : Bool :=
  number text && decide (low ≤ value text) && decide (value text ≤ high)

/-- What digits mean to `$((..))`: with a leading zero they are octal, or wrong. -/
def arith (text : Bytes) : Option Nat :=
  match text with
  | 0x30 :: rest =>
    if rest.all fun b => 0x30 ≤ b && b ≤ 0x37 then
      some (rest.foldl (fun sum b => 8 * sum + (b.toNat - 0x30)) 0)
    else none
  | _ => some (value text)

def spaceByte (b : UInt8) : Bool :=
  b == 0x20 || (0x09 ≤ b && b ≤ 0x0d)

def validPath (text : Bytes) : Bool :=
  text.head? = some 0x2f && !text.any spaceByte && !decide (ascii ".." <:+: text)

def jailPath (id : Id) : Bytes :=
  ascii "/var/lib/luhmen/microvm-jails/firecracker/" ++ id

def parentCgroup (own : Bytes) : Bytes :=
  let path := if (ascii "/main").isSuffixOf own then own.take (own.length - 5) else own
  if path.head? = some 0x2f then path.drop 1 else path

def validParentCgroup (text : Bytes) : Bool :=
  text ≠ [] && text.head? ≠ some 0x2f && !decide (ascii ".." <:+: text) &&
    text.all fun b => idByte b || b == 0x2f

/-- `/$cgroup_parent/firecracker/$id`. -/
def cgroupPath (parent : Bytes) (id : Id) : Bytes :=
  ascii "/" ++ parent ++ ascii "/firecracker/" ++ id

def errorText (message : String) : Bytes :=
  ascii "\x7b\"version\":1,\"ok\":false,\"error\":\"" ++ ascii message ++ ascii "\"\x7d\n"

def okText (data : Bytes) : Bytes :=
  ascii "\x7b\"version\":1,\"ok\":true,\"data\":" ++ data ++ ascii "\x7d\n"

def vmText (id status pid uid gid vcpus memoryMib : Bytes) : Bytes :=
  ascii "\x7b\"id\":\"" ++ id ++ ascii "\",\"status\":\"" ++ status ++ ascii "\",\"pid\":" ++ pid ++
    ascii ",\"uid\":" ++ uid ++ ascii ",\"gid\":" ++ gid ++ ascii ",\"vcpus\":" ++ vcpus ++
    ascii ",\"memory_mib\":" ++ memoryMib ++ ascii "\x7d"

/-! ## Conditions and loops -/

variable {α : Type}

/-- `if test; then body; fi`. -/
def provided (test : Bool) (body : Shell Unit) : Shell Unit :=
  if test then body else pure ()

/-- `if [ -n "$value" ]; then body; fi`. -/
def forSome (value : Option α) (body : α → Shell Unit) : Shell Unit :=
  match value with
  | none => pure ()
  | some value => body value

/-- `first && second`. -/
def andAlso (first : Bool) (second : Shell Bool) : Shell Bool :=
  if first then second else pure false

def each (items : List α) (body : α → Shell Unit) : Shell Unit :=
  match items with
  | [] => pure ()
  | item :: rest => do
    body item
    each rest body

/-- `for attempt in $(seq 1 n)`, left once the body says so. -/
def attempts (n : Nat) (body : Shell Bool) : Shell Bool :=
  match n with
  | 0 => pure false
  | n + 1 => do
    if ← body then pure true else attempts n body

/-! ## Cleaning up -/

def signalCgroup (recorded : Bool) (signal : Signal) (path : Bytes) (self : Pid) :
    Shell Unit := do
  let pids ← ask (.cgroupPids path)
  each pids fun pid =>
    if pid = self then pure () else ask (.signalCgroup recorded signal pid)

def terminateCgroup (recorded : Bool) (path : Bytes) (self : Pid) : Shell Bool := do
  if path = [] then pure true
  else if ← ask (.probe (.cgroupProcs path)) then
    signalCgroup recorded .term path self
    let _ ← attempts 20 (do
      let pids ← ask (.cgroupPids path)
      if (pids : List Pid) = [] then pure true
      else
        ask .sleep
        pure false)
    signalCgroup recorded .kill path self
    attempts 20 (do
      if ← ask (.rmdirCgroup path) then pure true
      else if ← ask (.probe (.cgroupDir path)) then
        ask .sleep
        pure false
      else pure true)
  else pure true

/-- What `cleanup_start` does with the process it started. -/
def cleanupProcess (pid : Pid) (startTime : Bytes) : Shell Unit := do
  if ← ask (.matchesStarted pid startTime) then
    ask (.signal .term pid)
    let _ ← attempts 20 (do
      if ← ask (.alive pid) then
        ask .sleep
        pure false
      else pure true)
    let alive ← ask (.alive pid)
    let still ← andAlso alive (ask (.matchesStarted pid startTime))
    provided still (ask (.signal .kill pid))
  else pure ()

def cleanupFiles (vars : Vars) : Shell Unit := do
  forSome vars.overlay fun vm => demand (ask (.removeStaged vm))
  forSome vars.logPipe fun vm => demand (ask (.removePipe vm))
  forSome vars.jail fun vm => provided (decide (vm = vars.id)) (demand (ask (.removeJail vm)))

def cleanupStart : Shell Unit := do
  let vars ← ask .vars
  forSome (vars : Vars).pid fun pid => cleanupProcess pid vars.startTime
  let _ ← terminateCgroup false vars.cgroup vars.self
  forSome (vars : Vars).logger fun pid => ask (.signal .term pid)
  cleanupFiles vars
  ask (.assign fun vars => { vars with
    pid := none
    startTime := []
    jail := none
    cgroup := []
    logger := none
    overlay := none
    logPipe := none })

def errorReply (message : String) : Shell α := do
  cleanupStart
  ask (.print (errorText message))
  throw .error

def okReply (data : Bytes) : Shell α := do
  ask (.print (okText data))
  throw .ok

def require (test : Shell Bool) (message : String) : Shell Unit := do
  if ← test then pure () else errorReply message

def onExit (failed : Bool) : Shell Unit := do
  cleanupStart
  provided failed (ask (.print (errorText "microVM manager operation failed")))

/-! ## Records -/

def writeState (id : Id) (fields : List (Key × Bytes)) : Shell Unit := do
  demand (ask (.writeTemporary id (render fields)))
  demand (ask (.chmodTemporary id))
  demand (ask (.renameState id))

/-- `[ "$status" = running ] && matches_firecracker "$pid" "$start_time"`. -/
def runs (status pid startTime : Bytes) : Shell Bool := do
  if status = ascii "running" then ask (.matchesFirecracker pid startTime) else pure false

def orNull (text : Bytes) : Bytes :=
  if text = [] then ascii "null" else text

def jsonVm (id : Id) : Shell Bytes := do
  let status ← ask (.stateValue .status id)
  let pid ← ask (.stateValue .pid id)
  let startTime ← ask (.stateValue .startTime id)
  let uid ← ask (.stateValue .uid id)
  let gid ← ask (.stateValue .gid id)
  let running ← runs status pid startTime
  let vcpus ← ask (.stateValue .vcpus id)
  let memoryMib ← ask (.stateValue .memoryMib id)
  let shown := if status = ascii "running" ∧ running = false then ascii "stale" else status
  pure (vmText id shown (orNull pid) (orNull uid) (orNull gid) vcpus memoryMib)

/-! ## Resources -/

/-- What a microVM whose VMM runs adds to `running_resources`. -/
def recordedResources (candidate : Id) : Shell (Nat × Nat) := do
  let vcpus ← ask (.stateValue .vcpus candidate)
  let memoryMib ← ask (.stateValue .memoryMib candidate)
  if number vcpus && number memoryMib then
    match arith vcpus, arith memoryMib with
    | some vcpus, some memoryMib => pure (vcpus, memoryMib + VMM_MEMORY_MIB)
    | _, _ => throw .failed
  else pure (0, 0)

/-- What one directory adds. -/
def candidateResources (candidate : Id) : Shell (Nat × Nat) := do
  if ← ask (.hasState candidate) then
    let status ← ask (.stateValue .status candidate)
    if status = ascii "running" then
      let pid ← ask (.stateValue .pid candidate)
      let startTime ← ask (.stateValue .startTime candidate)
      if ← ask (.matchesFirecracker pid startTime) then recordedResources candidate
      else pure (0, 0)
    else pure (0, 0)
  else pure (0, 0)

def runningResources : List Id → Nat × Nat → Shell (Nat × Nat)
  | [], used => pure used
  | candidate :: rest, used => do
    let added ← candidateResources candidate
    runningResources rest (used.1 + added.1, used.2 + added.2)

structure Capacity where
  parentCpus : Bytes
  parentMemoryMib : Bytes
  usedVcpus : Nat
  usedMemoryMib : Nat
deriving DecidableEq, Repr

def Capacity.availableVcpus (capacity : Capacity) : Int :=
  value capacity.parentCpus - capacity.usedVcpus

def Capacity.availableMemoryMib (capacity : Capacity) : Int :=
  value capacity.parentMemoryMib - MEMORY_RESERVE_MIB - capacity.usedMemoryMib

def resourceCapacity : Shell (Option Capacity) := do
  let parentCpus ← ask .cpuCount
  let parentMemoryMib ← ask .memTotal
  if number parentCpus && decide (1 ≤ value parentCpus) && number parentMemoryMib &&
      decide (1 ≤ value parentMemoryMib) then
    let candidates ← ask .listVms
    let used ← runningResources candidates (0, 0)
    pure (some ⟨parentCpus, parentMemoryMib, used.1, used.2⟩)
  else pure none

def checkStartResources (vcpus memoryMib : Bytes) : Shell Unit := do
  match ← resourceCapacity with
  | none => errorReply "could not determine parent VM resources"
  | some capacity =>
    require (pure (decide ((value vcpus : Int) ≤ capacity.availableVcpus)))
      "microVM vcpus exceed available parent CPU capacity"
    match arith memoryMib with
    | none => throw .failed
    | some memoryMib =>
      require (pure (decide ((memoryMib + VMM_MEMORY_MIB : Int) ≤ capacity.availableMemoryMib)))
        "microVM memory would exceed available parent memory"

/-! ## Identities -/

def recordedIdentity (uid : Bytes) : List Id → Shell Bool
  | [] => pure false
  | candidate :: rest => do
    if ← ask (.hasState candidate) then
      let recorded ← ask (.stateValue .uid candidate)
      if recorded = uid then pure true else recordedIdentity uid rest
    else recordedIdentity uid rest

def identityInUse (uid : Nat) : Shell Bool := do
  if ← ask (.probe (.identity uid)) then pure true
  else
    let candidates ← ask .listVms
    recordedIdentity (decimal uid) candidates

def firstFree : List Nat → Shell (Option Nat)
  | [] => pure none
  | uid :: rest => do
    if ← identityInUse uid then firstFree rest else pure (some uid)

def allocateIdentity : Shell Nat := do
  match ← firstFree (List.range' MICROVM_UID_BASE MICROVM_UIDS) with
  | some uid => pure uid
  | none => errorReply "no free per-microVM jailer identity is available"

/-! ## Actions -/

def create (fields : Fields) : Shell Unit := do
  require (pure (validId fields.id)) "invalid microVM id"
  require (pure (validPath fields.kernel)) "kernel must be an absolute path without traversal"
  require (pure (validPath fields.rootfs)) "rootfs must be an absolute path without traversal"
  require (pure (inRange fields.vcpus 1 16)) "vcpus must be between 1 and 16"
  require (pure (inRange fields.memoryMib 128 16384)) "memory_mib must be between 128 and 16384"
  require (ask (.probe (.image fields.kernel))) "kernel must be a regular non-symlink file"
  require (ask (.probe (.image fields.rootfs))) "rootfs must be a regular non-symlink file"
  let uid ← allocateIdentity
  require (do pure !(← ask (.isVm fields.id))) "microVM already exists"
  demand (ask (.mkdirVm fields.id))
  writeState fields.id
    [(.status, ascii "created"), (.kernel, fields.kernel), (.rootfs, fields.rootfs),
      (.vcpus, fields.vcpus), (.memoryMib, fields.memoryMib), (.uid, decimal uid),
      (.gid, decimal uid)]
  okReply (← jsonVm fields.id)

/-- `preflight`, with the `cgroup_parent` it sets. -/
def preflight : Shell Bytes := do
  require (ask (.probe .kvm)) "KVM unavailable: /dev/kvm must be readable and writable"
  require (ask (.probe .cgroupV2)) "cgroup v2 unavailable: /sys/fs/cgroup is not a cgroup v2 hierarchy"
  require (ask (.probe .firecracker)) "Firecracker binary is unavailable"
  require (ask (.probe .jailer)) "Firecracker jailer is unavailable"
  let own ← ask .ownCgroup
  let parent := parentCgroup own
  require (pure (validParentCgroup parent)) "delegated cgroup parent is unavailable"
  require (ask (.probe .cgroupParent)) "delegated cgroup parent directory is unavailable"
  require (ask (.probe (.controller (ascii "cpu")))) "delegated cgroup controller is unavailable: cpu"
  require (ask (.probe (.controller (ascii "memory"))))
    "delegated cgroup controller is unavailable: memory"
  require (ask (.probe (.controller (ascii "pids")))) "delegated cgroup controller is unavailable: pids"
  pure parent

/-- The identity in a record, or a new one for a record without. -/
def startIdentity (id : Id) (status kernel rootfs vcpus memoryMib : Bytes) :
    Shell (Bytes × Bytes) := do
  let uid ← ask (.stateValue .uid id)
  let gid ← ask (.stateValue .gid id)
  if number uid && number gid && decide (uid = gid) then pure (uid, gid)
  else
    let uid ← allocateIdentity
    writeState id
      [(.status, status), (.kernel, kernel), (.rootfs, rootfs), (.vcpus, vcpus),
        (.memoryMib, memoryMib), (.uid, decimal uid), (.gid, decimal uid)]
    pure (decimal uid, decimal uid)

def startDisk (rootfs : Bytes) (id : Id) : Shell Unit := do
  let there ← ask (.hasDisk id)
  provided (!there) do
    ask (.assign fun vars => { vars with overlay := some id })
    require (ask (.copyDisk rootfs id)) "could not copy the initial rootfs"
    demand (ask (.renameDisk id))
    ask (.assign fun vars => { vars with overlay := none })
  require (ask (.hasDisk id)) "microVM overlay must be a regular file"

def startJail (kernel uid gid : Bytes) (id : Id) : Shell Unit := do
  demand (ask (.removeJail id))
  demand (ask (.makeJail id))
  ask (.assign fun vars => { vars with jail := some id })
  require (ask (.copyKernel kernel id)) "could not copy the guest kernel"
  require (ask (.linkDisk id)) "persistent disk and jail must share a filesystem"
  demand (ask (.permit id uid gid))

def startLog (parent : Bytes) (id : Id) : Shell Unit := do
  ask (.assign fun vars => { vars with cgroup := ascii "/sys/fs/cgroup" ++ cgroupPath parent id })
  let there ← ask (.probe .log)
  provided there (require (ask (.probe .logUsable)) "microVM log must be a regular file")
  demand (ask (.truncateLog id))
  demand (ask (.removePipe id))
  demand (ask (.makePipe id))
  ask (.assign fun vars => { vars with logPipe := some id })
  match ← ask (.spawnLogger id) with
  | none => throw .failed
  | some pid => ask (.assign fun vars => { vars with logger := some pid })

/-- The launch, with the PID and the start time that are found. -/
def launch (uid gid vcpus memoryMib : Bytes) (id : Id) : Shell (Pid × Bytes) := do
  match ← ask (.spawnJailer id uid gid vcpus memoryMib) with
  | none => throw .failed
  | some pid =>
    ask (.assign fun vars => { vars with pid := some pid })
    let startTime ← ask (.startTime pid)
    ask (.assign fun vars => { vars with startTime })
    require (pure (decide ((startTime : Bytes) ≠ []))) "could not identify the jailed VMM process"
    pure (pid, startTime)

/-- The wait for the cgroup; the last one that was seen. -/
def awaitCgroup (pid : Pid) (startTime expected : Bytes) : Nat → Bytes → Shell Bytes
  | 0, seen => pure seen
  | n + 1, _ => do
    let seen ← ask (.processCgroup pid)
    if seen = expected then pure seen
    else
      require (ask (.matchesStarted pid startTime)) "jailer exited before entering its cgroup"
      ask .sleep
      awaitCgroup pid startTime expected n seen

def awaitSocket (pid : Pid) (startTime : Bytes) : Shell Unit := do
  let _ ← attempts 100 (do
    if ← ask (.probe .socket) then pure true
    else
      require (ask (.matchesFirecracker (decimal pid) startTime))
        "Firecracker exited before opening its API socket"
      ask .sleep
      pure false)
  require (ask (.probe .socket)) "Firecracker API socket did not appear"

def configure (vcpus memoryMib : Bytes) : Shell Unit := do
  let rejected := "Firecracker rejected the startup configuration"
  require (ask (.api "/boot-source"
    (ascii "\x7b\"kernel_image_path\":\"/vmlinux\",\"boot_args\":\"keep_bootcon console=ttyS0 reboot=k panic=1\"\x7d")))
    rejected
  require (ask (.api "/drives/rootfs"
    (ascii "\x7b\"drive_id\":\"rootfs\",\"path_on_host\":\"/rootfs.ext4\",\"is_root_device\":true,\"is_read_only\":false\x7d")))
    rejected
  require (ask (.api "/machine-config"
    (ascii "\x7b\"vcpu_count\":" ++ vcpus ++ ascii ",\"mem_size_mib\":" ++ memoryMib ++ ascii "\x7d")))
    rejected
  require (ask (.api "/actions" (ascii "\x7b\"action_type\":\"InstanceStart\"\x7d"))) rejected

def publish (id : Id) (pid : Pid) (startTime cgroup vcpus memoryMib uid gid : Bytes) :
    Shell Unit := do
  let kernel ← ask (.stateValue .kernel id)
  let rootfs ← ask (.stateValue .rootfs id)
  writeState id
    [(.status, ascii "running"), (.pid, decimal pid), (.startTime, startTime),
      (.socket, jailPath id ++ ascii "/root/run/fc.sock"), (.jail, jailPath id), (.cgroup, cgroup),
      (.kernel, kernel), (.rootfs, rootfs), (.vcpus, vcpus), (.memoryMib, memoryMib), (.uid, uid),
      (.gid, gid)]
  ask (.assign fun vars => { vars with
    pid := none
    startTime := []
    jail := none
    cgroup := []
    logger := none })
  demand (ask (.removePipe id))
  ask (.assign fun vars => { vars with logPipe := none })

/-- From the launch to the record of it. -/
def boot (parent uid gid vcpus memoryMib : Bytes) (id : Id) : Shell Unit := do
  let (pid, startTime) ← launch uid gid vcpus memoryMib id
  let cgroup ← awaitCgroup pid startTime (cgroupPath parent id) 100 []
  require (pure (decide (cgroup = cgroupPath parent id)))
    "jailer did not create the expected per-VM cgroup"
  require (ask (.probe .limits)) "per-VM cgroup limits are unavailable"
  awaitSocket pid startTime
  configure vcpus memoryMib
  publish id pid startTime cgroup vcpus memoryMib uid gid

def start (id : Id) : Shell Unit := do
  require (pure (validId id)) "invalid microVM id"
  require (ask (.isVm id)) "microVM does not exist"
  require (ask (.hasState id)) "microVM state is missing"
  let status ← ask (.stateValue .status id)
  let pid ← ask (.stateValue .pid id)
  let startTime ← ask (.stateValue .startTime id)
  let running ← runs status pid startTime
  provided running do
    okReply (← jsonVm id)
  let parent ← preflight
  let kernel ← ask (.stateValue .kernel id)
  let rootfs ← ask (.stateValue .rootfs id)
  let vcpus ← ask (.stateValue .vcpus id)
  let memoryMib ← ask (.stateValue .memoryMib id)
  require (pure (inRange vcpus 1 16)) "stored vcpus value is invalid"
  require (pure (inRange memoryMib 128 16384)) "stored memory_mib value is invalid"
  let (uid, gid) ← startIdentity id status kernel rootfs vcpus memoryMib
  require (ask (.probe (.image kernel))) "configured kernel is unavailable"
  require (ask (.probe (.image rootfs))) "configured rootfs is unavailable"
  checkStartResources vcpus memoryMib
  startDisk rootfs id
  startJail kernel uid gid id
  startLog parent id
  boot parent uid gid vcpus memoryMib id
  okReply (← jsonVm id)

/-- The signals of `stop` to the recorded process. -/
def stopProcess (pid startTime : Bytes) (force : Bool) : Shell Unit := do
  if ← ask (.matchesFirecracker pid startTime) then
    if force then ask (.signalRecorded .kill pid)
    else
      ask (.signalRecorded .term pid)
      let _ ← attempts 40 (do
        if ← ask (.matchesFirecracker pid startTime) then
          ask .sleep
          pure false
        else pure true)
      let still ← ask (.matchesFirecracker pid startTime)
      provided still (ask (.signalRecorded .kill pid))
  else pure ()

def stopCgroup (cgroup : Bytes) (id : Id) : Shell Unit := do
  let own ← ask .ownCgroup
  let parent := parentCgroup own
  provided (validParentCgroup parent && decide (cgroup = cgroupPath parent id)) do
    let vars ← ask .vars
    require (terminateCgroup true (ascii "/sys/fs/cgroup" ++ cgroup) (vars : Vars).self)
      "microVM cgroup is still occupied"

def stop (id force : Bytes) : Shell Unit := do
  require (pure (validId id)) "invalid microVM id"
  require (pure (decide (force = ascii "0" ∨ force = ascii "1"))) "force must be 0 or 1"
  require (ask (.isVm id)) "microVM does not exist"
  require (ask (.hasState id)) "microVM state is missing"
  let pid ← ask (.stateValue .pid id)
  let startTime ← ask (.stateValue .startTime id)
  let jail ← ask (.stateValue .jail id)
  let cgroup ← ask (.stateValue .cgroup id)
  stopProcess pid startTime (decide (force = ascii "1"))
  stopCgroup cgroup id
  provided (decide ((jail : Bytes) ≠ [] ∧ jail = jailPath id)) (demand (ask (.removeJail id)))
  let kernel ← ask (.stateValue .kernel id)
  let rootfs ← ask (.stateValue .rootfs id)
  let vcpus ← ask (.stateValue .vcpus id)
  let memoryMib ← ask (.stateValue .memoryMib id)
  let uid ← ask (.stateValue .uid id)
  let gid ← ask (.stateValue .gid id)
  writeState id
    [(.status, ascii "stopped"), (.kernel, kernel), (.rootfs, rootfs), (.vcpus, vcpus),
      (.memoryMib, memoryMib), (.uid, uid), (.gid, gid)]
  okReply (← jsonVm id)

/-- The loop of `inspect` without an id; `first` is what the script calls so. -/
def inspectEach : List Id → Bool → Shell Unit
  | [], _ => pure ()
  | id :: rest, first => do
    if ← ask (.isVm id) then
      require (ask (.hasState id)) "microVM state is missing"
      provided (!first) (ask (.print (ascii ",")))
      ask (.print (← jsonVm id))
      inspectEach rest false
    else inspectEach rest first

def inspect (id : Id) : Shell Unit := do
  if id ≠ [] then
    require (pure (validId id)) "invalid microVM id"
    require (ask (.isVm id)) "microVM does not exist"
    require (ask (.hasState id)) "microVM state is missing"
    okReply (← jsonVm id)
  else
    ask (.print (ascii "\x7b\"version\":1,\"ok\":true,\"data\":["))
    let ids ← ask .listVms
    inspectEach ids true
    ask (.print (ascii "]\x7d\n"))

/-! ## Capabilities -/

/-- A field of the capabilities and what is wrong with it, if anything is. -/
def capability (name : String) (works : Bool) (problem : String) : Bytes :=
  ascii ("\"" ++ name ++ "\":") ++ (if works then ascii "true" else ascii "false") ++
    ascii (",\"" ++ name ++ "_error\":") ++
    (if works then ascii "null" else ascii ("\"" ++ problem ++ "\""))

def integerText (n : Int) : Bytes :=
  match n with
  | .ofNat n => decimal n
  | .negSucc n => 0x2d :: decimal (n + 1)

/-- What is wrong with the delegated cgroup, if anything is. -/
def delegation : Shell (Option String) := do
  let own ← ask .ownCgroup
  if validParentCgroup (parentCgroup own) then
    if ← ask (.probe .cgroupParent) then
      let cpu ← ask (.probe (.controller (ascii "cpu")))
      let memory ← andAlso cpu (ask (.probe (.controller (ascii "memory"))))
      let pids ← andAlso memory (ask (.probe (.controller (ascii "pids"))))
      pure (if pids then none else some "delegated cgroup v2 controllers are unavailable")
    else pure (some "delegated cgroup parent directory is unavailable")
  else pure (some "delegated cgroup parent is unavailable")

def Capacity.ready (capacity : Capacity) : Bool :=
  decide (1 ≤ capacity.availableVcpus) &&
    decide ((128 + VMM_MEMORY_MIB : Int) ≤ capacity.availableMemoryMib)

def resourcesText (capacity : Option Capacity) : Bytes :=
  let show' (text : Capacity → Bytes) : Bytes := (capacity.map text).getD (ascii "null")
  ascii "\"parent_cpus\":" ++ show' Capacity.parentCpus ++
    ascii ",\"parent_memory_mib\":" ++ show' Capacity.parentMemoryMib ++
    ascii ",\"used_vcpus\":" ++ show' (decimal ·.usedVcpus) ++
    ascii ",\"used_memory_mib\":" ++ show' (decimal ·.usedMemoryMib) ++
    ascii ",\"available_vcpus\":" ++ show' (integerText ·.availableVcpus) ++
    ascii ",\"available_memory_mib\":" ++ show' (integerText ·.availableMemoryMib)

def boolText (b : Bool) : Bytes :=
  if b then ascii "true" else ascii "false"

def capabilitiesText (ready kvm tun cgroupV2 : Bool) (delegated : Option String)
    (firecracker jailer : Bool) (capacity : Option Capacity) (resourcesReady : Bool) : Bytes :=
  ascii "\x7b\"ready\":" ++ boolText ready ++ ascii "," ++
    capability "kvm" kvm "/dev/kvm is missing or not readable and writable" ++ ascii "," ++
    capability "tun" tun "/dev/net/tun is unavailable" ++ ascii "," ++
    capability "cgroup_v2" cgroupV2 "cgroup v2 is unavailable" ++ ascii "," ++
    capability "delegated_cgroup" delegated.isNone (delegated.getD "") ++ ascii "," ++
    capability "firecracker" firecracker "Firecracker binary is unavailable" ++ ascii "," ++
    capability "jailer" jailer "Firecracker jailer is unavailable" ++ ascii "," ++
    resourcesText capacity ++ ascii ",\"resources_ready\":" ++ boolText resourcesReady ++
    ascii ",\"networking\":false,\"guest_agent\":false\x7d"

def capabilities : Shell Unit := do
  let kvm ← ask (.probe .kvm)
  let tun ← ask (.probe .tun)
  let cgroupV2 ← ask (.probe .cgroupV2)
  let delegated ← delegation
  let firecracker ← ask (.probe .firecracker)
  let jailer ← ask (.probe .jailer)
  let capacity ← resourceCapacity
  let resourcesReady := capacity.any Capacity.ready
  let ready := kvm && cgroupV2 && delegated.isNone && firecracker && jailer && resourcesReady
  okReply (capabilitiesText ready kvm tun cgroupV2 delegated firecracker jailer capacity
    resourcesReady)

/-! ## A run of the manager -/

def act (action : Action) (fields : Fields) : Shell Unit :=
  match action with
  | .capabilities => capabilities
  | .create => create fields
  | .start => start fields.id
  | .stop => stop fields.id fields.force
  | .inspect => inspect fields.id

def session (request : Bytes) : Shell Unit :=
  match parseRequest request with
  | .error message => errorReply message
  | .ok (action, fields) => do
    ask (.assign fun vars => { vars with id := fields.id })
    demand (ask (.probe .lockFile))
    require (ask .lock) "microVM manager is busy; retry the request"
    act action fields

inductive Call where
  | request (self : Pid) (request : Bytes)
  | signalled
deriving DecidableEq, Repr

/-- Behind the script comes `on_exit`. -/
def finish (body : Shell Unit) : Program Commands Exit := do
  let result ← body.run
  let exit := match result with
    | .ok () => Exit.ok
    | .error exit => exit
  let last ← (onExit (decide (exit = .failed))).run
  match last with
  | .ok () => pure exit
  | .error exit => pure exit

/-- A shell that reads a request, and what is left to one that a signal ends. -/
def manager : Call → Program Commands Exit
  | .request self request => finish do
    ask (.shell self)
    session request
  | .signalled => finish do
    cleanupStart
    throw .failed

end Luhmen.Manager
