import TmuxMemCpuLoad.CpuBackends
import TmuxMemCpuLoad.Dialogue
import TmuxMemCpuLoad.MemorySizes
import TmuxMemCpuLoad.PageClasses
import TmuxMemCpuLoad.StatusLine

/-!
# The system calls of the BSD versions

On the BSD systems each metric comes from calls of `sysctl` or `sysctlbyname`,
and a call that fails ends the program: `getsysctl` and `error` write to
`std::cerr` what failed and call `exit`.
-/

namespace TmuxMemCpuLoad

open StandardCxx Dialogue

/-! ## What is asked -/

/-- The values that are read by name with `GETSYSCTL`; `longWidth` is that of
the elements of the array of counters. -/
inductive SysctlName
  | hwNcpu
  | kernCpTime (longWidth : Nat)
  | vPageCount
  | vWireCount
  | vActiveCount
  deriving DecidableEq, Repr

namespace SysctlName

def text : SysctlName → List Char
  | .hwNcpu => "hw.ncpu".toList
  | .kernCpTime _ => "kern.cp_time".toList
  | .vPageCount => "vm.stats.vm.v_page_count".toList
  | .vWireCount => "vm.stats.vm.v_wire_count".toList
  | .vActiveCount => "vm.stats.vm.v_active_count".toList

/-- `CP_STATES` on FreeBSD and NetBSD. -/
def cpStates : Nat := 5

/-- The size of the variable that the value is read into, in bytes. -/
def size : SysctlName → Nat
  | .kernCpTime longWidth => cpStates * (longWidth / 8)
  | _ => 4

def Content : SysctlName → Type
  | .kernCpTime longWidth => Nat → BitVec longWidth
  | _ => BitVec 32

end SysctlName

/-- The values that are read by number with `sysctl`. -/
inductive Mib
  | hwNcpuonline
  | kernCptime (longWidth : Nat)
  | hwPagesize
  | vmUvmexp
  | vfsBcachestat
  | vmUvmexp2
  deriving DecidableEq, Repr

/-- The fields of `struct uvmexp` that `mem_status` reads on OpenBSD. -/
structure OpenBsd.PageCounters where
  npages : Int
  free : Int
  pageshift : Nat
  deriving DecidableEq, Repr

def Mib.Content : Mib → Type
  | .kernCptime longWidth => Nat → BitVec longWidth
  | .hwNcpuonline | .hwPagesize => BitVec 32
  | .vmUvmexp => OpenBsd.PageCounters
  | .vfsBcachestat => Int
  | .vmUvmexp2 => NetBsd.Uvmexp

/-- A call; a call by number comes with what the program says if it fails. -/
inductive SystemCall
  | byName (name : SysctlName)
  | byNumber (mib : Mib) (purpose : List Char)
  deriving DecidableEq, Repr

/-- What a call returns, the text of `strerror( errno )` and the size and the
content that the call leaves in the variables. -/
structure Reply (Content : Type) where
  result : Int
  errorText : List Char
  size : Nat
  content : Content

def SystemCall.Answer : SystemCall → Type
  | .byName name => Reply name.Content
  | .byNumber mib _ => Reply mib.Content

abbrev Kernel := Environment SystemCall.Answer

abbrev KernelExchange := Exchange SystemCall.Answer

/-! ## The streams -/

/-- The text that `std::cout` has passed on, the text it still holds and the
text written to `std::cerr`. -/
structure Console where
  cout : List Char
  held : List Char
  cerr : List Char
  deriving DecidableEq, Repr

namespace Console

def empty : Console := ⟨[], [], []⟩

def insertCout (text : List Char) (console : Console) : Console :=
  { console with held := console.held ++ text }

def flush (console : Console) : Console :=
  { console with cout := console.cout ++ console.held, held := [] }

/-- `std::cerr` is tied to `std::cout`, which is flushed before. -/
def insertCerr (text : List Char) (console : Console) : Console :=
  { console.flush with cerr := console.flush.cerr ++ text }

end Console

/-- How a program ends before its last line. -/
inductive Stop
  | exited (status : Nat)
  | faulted (fault : Fault)
  deriving DecidableEq, Repr

abbrev Calling := Program SystemCall.Answer Console Stop

def errorMessage (purpose errorText : List Char) : List Char :=
  purpose ++ ':' :: ' ' :: errorText ++ ['\n']

/-- `error`: the message and `exit( EXIT_FAILURE )`. -/
def error {Value : Type} (purpose errorText : List Char) : Calling Value := do
  onScreen (Console.insertCerr (errorMessage purpose errorText))
  throw (.exited exitFailure)

def sysctlText : List Char := "sysctl(".toList

def failedText : List Char := "...) failed: ".toList

def expectedText : List Char := "...) expected ".toList

def gotText : List Char := " bytes, got ".toList

def bytesText : List Char := " bytes".toList

def failedMessage (name : SysctlName) (errorText : List Char) : List Char :=
  sysctlText ++ name.text ++ failedText ++ errorText ++ ['\n']

def sizeMessage (name : SysctlName) (size : Nat) : List Char :=
  sysctlText ++ name.text ++ expectedText ++ Nat.toDigits 10 name.size ++ gotText ++
    Nat.toDigits 10 size ++ bytesText ++ ['\n']

/-- `getsysctl`: a wrong size is reported and the value is used all the same. -/
def getsysctl (kernel : Kernel) (name : SysctlName) : Calling name.Content := do
  let reply ← ask kernel (.byName name)
  if reply.result = -1 then do
    onScreen (Console.insertCerr (failedMessage name reply.errorText))
    throw (.exited exitFailure)
  else if reply.size ≠ name.size then do
    onScreen (Console.insertCerr (sizeMessage name reply.size))
    pure reply.content
  else pure reply.content

/-- `sysctl` with a call of `error` where it is negative. -/
def sysctlOrError (kernel : Kernel) (mib : Mib) (purpose : List Char) :
    Calling mib.Content := do
  let reply ← ask kernel (.byNumber mib purpose)
  if reply.result < 0 then error purpose reply.errorText else pure reply.content

/-! ## Calls one after the other -/

/-- Only -1 counts in `getsysctl`. -/
def Fails : KernelExchange → Prop
  | ⟨.byName _, reply⟩ => reply.result = -1
  | ⟨.byNumber _ _, reply⟩ => reply.result < 0

instance : DecidablePred Fails
  | ⟨.byName _, reply⟩ => inferInstanceAs (Decidable (reply.result = -1))
  | ⟨.byNumber _ _, reply⟩ => inferInstanceAs (Decidable (reply.result < 0))

/-- What the program writes to `std::cerr` about a call. -/
def complaint : KernelExchange → List Char
  | ⟨.byName name, reply⟩ =>
      if reply.result = -1 then failedMessage name reply.errorText
      else if reply.size ≠ name.size then sizeMessage name reply.size
      else []
  | ⟨.byNumber _ purpose, reply⟩ =>
      if reply.result < 0 then errorMessage purpose reply.errorText else []

/-- The console after a call, which is left alone where there is nothing to
say. -/
def reportCall (exchange : KernelExchange) (console : Console) : Console :=
  if complaint exchange = [] then console else console.insertCerr (complaint exchange)

def conduct : Conduct SystemCall.Answer Console Stop where
  failed := Fails
  report := reportCall
  stop := .exited exitFailure

theorem failedMessage_ne_nil (name : SysctlName) (errorText : List Char) :
    failedMessage name errorText ≠ [] :=
  List.append_ne_nil_of_right_ne_nil _ (List.cons_ne_nil _ _)

theorem sizeMessage_ne_nil (name : SysctlName) (size : Nat) : sizeMessage name size ≠ [] :=
  List.append_ne_nil_of_right_ne_nil _ (List.cons_ne_nil _ _)

theorem errorMessage_ne_nil (purpose errorText : List Char) :
    errorMessage purpose errorText ≠ [] :=
  List.append_ne_nil_of_right_ne_nil _ (List.cons_ne_nil _ _)

theorem reported_of_silent {exchange : KernelExchange} (silent : complaint exchange = [])
    (state : State SystemCall.Answer Console) : state.reported conduct exchange = state := by
  show { state with screen := reportCall exchange state.screen } = state
  rw [reportCall, if_pos silent]

theorem onScreen_of_complaint {exchange : KernelExchange} {text : List Char}
    (equal : complaint exchange = text) (something : text ≠ [])
    (state : State SystemCall.Answer Console) :
    onScreen (Console.insertCerr text) state =
      (.ok () (state.reported conduct exchange) :
        EStateM.Result Stop (State SystemCall.Answer Console) Unit) := by
  show EStateM.Result.ok () { state with screen := state.screen.insertCerr text } =
    EStateM.Result.ok () { state with screen := reportCall exchange state.screen }
  rw [reportCall, equal, if_neg something]

theorem getsysctl_follows (kernel : Kernel) (name : SysctlName) :
    Follows kernel conduct (getsysctl kernel name) [.byName name]
      fun made content => ∃ reply : Reply name.Content,
        made = [⟨.byName name, reply⟩] ∧ content = reply.content := by
  apply Follows.ask_bind
  · intro reply state succeeds
    have works : reply.result ≠ -1 := succeeds
    rw [if_neg works]
    by_cases right : reply.size = name.size
    · have silent : complaint ⟨.byName name, reply⟩ = [] := by
        simp [complaint, works, right]
      rw [if_neg (not_not.mpr right), reported_of_silent silent]
      rfl
    · have equal : complaint ⟨.byName name, reply⟩ = sizeMessage name reply.size := by
        simp [complaint, works, right]
      rw [if_pos right, bind_ok (onScreen_of_complaint equal (sizeMessage_ne_nil _ _) state)]
      rfl
  · intro reply state fails
    have minusOne : reply.result = -1 := fails
    have equal : complaint ⟨.byName name, reply⟩ = failedMessage name reply.errorText := by
      simp [complaint, minusOne]
    rw [if_pos minusOne, bind_ok (onScreen_of_complaint equal (failedMessage_ne_nil _ _) state)]
    rfl

theorem sysctlOrError_follows (kernel : Kernel) (mib : Mib) (purpose : List Char) :
    Follows kernel conduct (sysctlOrError kernel mib purpose) [.byNumber mib purpose]
      fun made content => ∃ reply : Reply mib.Content,
        made = [⟨.byNumber mib purpose, reply⟩] ∧ content = reply.content := by
  apply Follows.ask_bind
  · intro reply state succeeds
    have works : ¬ reply.result < 0 := succeeds
    have silent : complaint ⟨.byNumber mib purpose, reply⟩ = [] := by
      simp [complaint, works]
    rw [if_neg works, reported_of_silent silent]
    rfl
  · intro reply state fails
    have negative : reply.result < 0 := fails
    have equal : complaint ⟨.byNumber mib purpose, reply⟩ =
        errorMessage purpose reply.errorText := by
      simp [complaint, negative]
    rw [if_pos negative, error,
      bind_ok (onScreen_of_complaint equal (errorMessage_ne_nil _ _) state)]
    rfl

/-! ## The functions of the platforms -/

namespace FreeBsd

def getCpuCount (kernel : Kernel) : Calling Nat := do
  let cpuCount ← getsysctl kernel .hwNcpu
  pure (BitVec.toNat cpuCount)

def readCpuPercentage (kernel : Kernel) (longWidth : Nat) : Calling ExactFloat := do
  let load1 ← getsysctl kernel (.kernCpTime longWidth)
  let load2 ← getsysctl kernel (.kernCpTime longWidth)
  pure (cpuPercentage load1 load2)

/-- `mem_status`; the page size is that of `getpagesize()`. -/
def readMemStatus (kernel : Kernel) (pageSize : BitVec 32) : Calling MemoryStatus := do
  let pageCount ← getsysctl kernel .vPageCount
  let wired ← getsysctl kernel .vWireCount
  let active ← getsysctl kernel .vActiveCount
  pure (memStatus ⟨pageSize, pageCount, wired, active⟩)

end FreeBsd

def vmStatsPurpose : List Char := "memory: error getting vm memory stats".toList

namespace NetBsd

def getCpuCount (kernel : Kernel) : Calling Nat := do
  let cpuCount ← getsysctl kernel .hwNcpu
  pure (BitVec.toNat cpuCount)

def readCpuPercentage (kernel : Kernel) : Calling ExactFloat := do
  let load1 ← getsysctl kernel (.kernCpTime 64)
  let load2 ← getsysctl kernel (.kernCpTime 64)
  pure (cpuPercentage load1 load2)

def readMemStatus (kernel : Kernel) : Calling MemoryStatus := do
  let mem ← sysctlOrError kernel .vmUvmexp2 vmStatsPurpose
  pure (memStatus mem)

end NetBsd

namespace OpenBsd

def cpuCountPurpose : List Char := "sysctl: error getting cpu count".toList

def initialPurpose : List Char := "sysctl: error getting initial cpu stats".toList

def updatedPurpose : List Char := "sysctl: error getting updated cpu stats".toList

def pageSizePurpose : List Char := "memory: error getting page size".toList

def cachedPurpose : List Char := "memory: error getting cached memory size".toList

def getCpuCount (kernel : Kernel) : Calling Nat := do
  let cpuCount ← sysctlOrError kernel .hwNcpuonline cpuCountPurpose
  pure (BitVec.toNat cpuCount)

def readCpuPercentage (kernel : Kernel) (longWidth : Nat) (cpuLayout : CpuLayout) :
    Calling ExactFloat := do
  let load1 ← sysctlOrError kernel (.kernCptime longWidth) initialPurpose
  let load2 ← sysctlOrError kernel (.kernCptime longWidth) updatedPurpose
  pure (cpuPercentage cpuLayout load1 load2)

/-- The counters and the pages of the cache, as `mem_status` computes with
them. -/
def PageCounters.uvmexp (counters : PageCounters) (numbufpages : Int) : Uvmexp :=
  ⟨counters.npages, counters.free, counters.pageshift, numbufpages⟩

/-- `mem_status`; the page size is read and not used. -/
def readMemStatus (kernel : Kernel) : Calling MemoryStatus := do
  let _ ← sysctlOrError kernel .hwPagesize pageSizePurpose
  let counters ← sysctlOrError kernel .vmUvmexp vmStatsPurpose
  let numbufpages ← sysctlOrError kernel .vfsBcachestat cachedPurpose
  pure (memStatus (PageCounters.uvmexp counters numbufpages))

end OpenBsd

/-- The BSD versions, with what their functions know without a call. -/
inductive BsdSystem
  | freeBsd (longWidth : Nat) (pageSize : BitVec 32)
  | netBsd
  | openBsd (longWidth : Nat) (cpuLayout : CpuLayout)
  deriving DecidableEq, Repr

namespace BsdSystem

def getCpuCount (kernel : Kernel) : BsdSystem → Calling Nat
  | .freeBsd _ _ => FreeBsd.getCpuCount kernel
  | .netBsd => NetBsd.getCpuCount kernel
  | .openBsd _ _ => OpenBsd.getCpuCount kernel

def cpuPercentage (kernel : Kernel) : BsdSystem → Calling ExactFloat
  | .freeBsd longWidth _ => FreeBsd.readCpuPercentage kernel longWidth
  | .netBsd => NetBsd.readCpuPercentage kernel
  | .openBsd longWidth cpuLayout => OpenBsd.readCpuPercentage kernel longWidth cpuLayout

def memStatus (kernel : Kernel) : BsdSystem → Calling MemoryStatus
  | .freeBsd _ pageSize => FreeBsd.readMemStatus kernel pageSize
  | .netBsd => NetBsd.readMemStatus kernel
  | .openBsd _ _ => OpenBsd.readMemStatus kernel

/-! ## What they ask, and what the replies say -/

def cpuCountCalls : BsdSystem → List SystemCall
  | .freeBsd _ _ | .netBsd => [.byName .hwNcpu]
  | .openBsd _ _ => [.byNumber .hwNcpuonline OpenBsd.cpuCountPurpose]

def cpuPercentageCalls : BsdSystem → List SystemCall
  | .freeBsd longWidth _ => [.byName (.kernCpTime longWidth), .byName (.kernCpTime longWidth)]
  | .netBsd => [.byName (.kernCpTime 64), .byName (.kernCpTime 64)]
  | .openBsd longWidth _ =>
      [.byNumber (.kernCptime longWidth) OpenBsd.initialPurpose,
        .byNumber (.kernCptime longWidth) OpenBsd.updatedPurpose]

def memStatusCalls : BsdSystem → List SystemCall
  | .freeBsd _ _ => [.byName .vPageCount, .byName .vWireCount, .byName .vActiveCount]
  | .netBsd => [.byNumber .vmUvmexp2 vmStatsPurpose]
  | .openBsd _ _ =>
      [.byNumber .hwPagesize OpenBsd.pageSizePurpose, .byNumber .vmUvmexp vmStatsPurpose,
        .byNumber .vfsBcachestat OpenBsd.cachedPurpose]

/-- The replies report a number of processors. -/
inductive ReportsCount : BsdSystem → List KernelExchange → Nat → Prop
  | freeBsd {longWidth : Nat} {pageSize : BitVec 32} (reply : Reply (BitVec 32)) :
      ReportsCount (.freeBsd longWidth pageSize) [⟨.byName .hwNcpu, reply⟩] reply.content.toNat
  | netBsd (reply : Reply (BitVec 32)) :
      ReportsCount .netBsd [⟨.byName .hwNcpu, reply⟩] reply.content.toNat
  | openBsd {longWidth : Nat} {cpuLayout : CpuLayout} (reply : Reply (BitVec 32)) :
      ReportsCount (.openBsd longWidth cpuLayout)
        [⟨.byNumber .hwNcpuonline OpenBsd.cpuCountPurpose, reply⟩] reply.content.toNat

/-- The replies report the counters before and after the delay. -/
inductive ReportsPercentage : BsdSystem → List KernelExchange → ExactFloat → Prop
  | freeBsd {longWidth : Nat} {pageSize : BitVec 32}
      (first second : Reply (Nat → BitVec longWidth)) :
      ReportsPercentage (.freeBsd longWidth pageSize)
        [⟨.byName (.kernCpTime longWidth), first⟩, ⟨.byName (.kernCpTime longWidth), second⟩]
        (FreeBsd.cpuPercentage first.content second.content)
  | netBsd (first second : Reply (Nat → BitVec 64)) :
      ReportsPercentage .netBsd
        [⟨.byName (.kernCpTime 64), first⟩, ⟨.byName (.kernCpTime 64), second⟩]
        (NetBsd.cpuPercentage first.content second.content)
  | openBsd {longWidth : Nat} {cpuLayout : CpuLayout}
      (first second : Reply (Nat → BitVec longWidth)) :
      ReportsPercentage (.openBsd longWidth cpuLayout)
        [⟨.byNumber (.kernCptime longWidth) OpenBsd.initialPurpose, first⟩,
          ⟨.byNumber (.kernCptime longWidth) OpenBsd.updatedPurpose, second⟩]
        (OpenBsd.cpuPercentage cpuLayout first.content second.content)

inductive ReportsStatus : BsdSystem → List KernelExchange → MemoryStatus → Prop
  | freeBsd {longWidth : Nat} {pageSize : BitVec 32}
      (pageCount wired active : Reply (BitVec 32)) :
      ReportsStatus (.freeBsd longWidth pageSize)
        [⟨.byName .vPageCount, pageCount⟩, ⟨.byName .vWireCount, wired⟩,
          ⟨.byName .vActiveCount, active⟩]
        (FreeBsd.memStatus ⟨pageSize, pageCount.content, wired.content, active.content⟩)
  | netBsd (mem : Reply NetBsd.Uvmexp) :
      ReportsStatus .netBsd [⟨.byNumber .vmUvmexp2 vmStatsPurpose, mem⟩]
        (NetBsd.memStatus mem.content)
  | openBsd {longWidth : Nat} {cpuLayout : CpuLayout} (pageSize : Reply (BitVec 32))
      (counters : Reply OpenBsd.PageCounters) (numbufpages : Reply Int) :
      ReportsStatus (.openBsd longWidth cpuLayout)
        [⟨.byNumber .hwPagesize OpenBsd.pageSizePurpose, pageSize⟩,
          ⟨.byNumber .vmUvmexp vmStatsPurpose, counters⟩,
          ⟨.byNumber .vfsBcachestat OpenBsd.cachedPurpose, numbufpages⟩]
        (OpenBsd.memStatus (counters.content.uvmexp numbufpages.content))

variable (kernel : Kernel) (system : BsdSystem)

theorem getCpuCount_follows :
    Follows kernel conduct (system.getCpuCount kernel) system.cpuCountCalls
      (ReportsCount system) := by
  cases system with
  | freeBsd longWidth pageSize =>
      apply ((getsysctl_follows kernel .hwNcpu).bind fun cpuCount => .pure _).mono
      rintro made count ⟨_, content, _, rfl, ⟨reply, rfl, rfl⟩, rfl, rfl⟩
      exact .freeBsd reply
  | netBsd =>
      apply ((getsysctl_follows kernel .hwNcpu).bind fun cpuCount => .pure _).mono
      rintro made count ⟨_, content, _, rfl, ⟨reply, rfl, rfl⟩, rfl, rfl⟩
      exact .netBsd reply
  | openBsd longWidth cpuLayout =>
      apply ((sysctlOrError_follows kernel .hwNcpuonline _).bind fun cpuCount => .pure _).mono
      rintro made count ⟨_, content, _, rfl, ⟨reply, rfl, rfl⟩, rfl, rfl⟩
      exact .openBsd reply

theorem cpuPercentage_follows :
    Follows kernel conduct (system.cpuPercentage kernel) system.cpuPercentageCalls
      (ReportsPercentage system) := by
  cases system with
  | freeBsd longWidth pageSize =>
      apply ((getsysctl_follows kernel (.kernCpTime longWidth)).bind fun load1 =>
        (getsysctl_follows kernel (.kernCpTime longWidth)).bind fun load2 => .pure _).mono
      rintro made percentage ⟨_, _, _, rfl, ⟨first, rfl, rfl⟩, _, _, _, rfl,
        ⟨second, rfl, rfl⟩, rfl, rfl⟩
      exact .freeBsd first second
  | netBsd =>
      apply ((getsysctl_follows kernel (.kernCpTime 64)).bind fun load1 =>
        (getsysctl_follows kernel (.kernCpTime 64)).bind fun load2 => .pure _).mono
      rintro made percentage ⟨_, _, _, rfl, ⟨first, rfl, rfl⟩, _, _, _, rfl,
        ⟨second, rfl, rfl⟩, rfl, rfl⟩
      exact .netBsd first second
  | openBsd longWidth cpuLayout =>
      apply ((sysctlOrError_follows kernel (.kernCptime longWidth) _).bind fun load1 =>
        (sysctlOrError_follows kernel (.kernCptime longWidth) _).bind fun load2 => .pure _).mono
      rintro made percentage ⟨_, _, _, rfl, ⟨first, rfl, rfl⟩, _, _, _, rfl,
        ⟨second, rfl, rfl⟩, rfl, rfl⟩
      exact .openBsd first second

theorem memStatus_follows :
    Follows kernel conduct (system.memStatus kernel) system.memStatusCalls
      (ReportsStatus system) := by
  cases system with
  | freeBsd longWidth pageSize =>
      apply ((getsysctl_follows kernel .vPageCount).bind fun pageCount =>
        (getsysctl_follows kernel .vWireCount).bind fun wired =>
          (getsysctl_follows kernel .vActiveCount).bind fun active => .pure _).mono
      rintro made status ⟨_, _, _, rfl, ⟨pageCount, rfl, rfl⟩, _, _, _, rfl,
        ⟨wired, rfl, rfl⟩, _, _, _, rfl, ⟨active, rfl, rfl⟩, rfl, rfl⟩
      exact .freeBsd pageCount wired active
  | netBsd =>
      apply ((sysctlOrError_follows kernel .vmUvmexp2 _).bind fun mem => .pure _).mono
      rintro made status ⟨_, _, _, rfl, ⟨mem, rfl, rfl⟩, rfl, rfl⟩
      exact .netBsd mem
  | openBsd longWidth cpuLayout =>
      apply ((sysctlOrError_follows kernel .hwPagesize _).bind fun _ =>
        (sysctlOrError_follows kernel .vmUvmexp _).bind fun counters =>
          (sysctlOrError_follows kernel .vfsBcachestat _).bind fun numbufpages => .pure _).mono
      rintro made status ⟨_, _, _, rfl, ⟨pageSize, rfl, rfl⟩, _, _, _, rfl,
        ⟨counters, rfl, rfl⟩, _, _, _, rfl, ⟨numbufpages, rfl, rfl⟩, rfl, rfl⟩
      exact .openBsd pageSize counters numbufpages

end BsdSystem

end TmuxMemCpuLoad
