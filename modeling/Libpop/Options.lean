import Libpop.CommandLine
import Libpop.Bench
import Libpop.Generator
import Libpop.NvgenMain
import Libpop.Store

/-!
# The option parsers

Embedding of the option loops at the start of `main` in `apps/generator.c`, `apps/bench-nvme.c`,
`apps/nvgen.c` and `apps/store.c`, with the checks made between the loop and the first device that
is opened. `online` is what `count_online_cpus` returns, `-1` when it fails.
-/

namespace Libpop
open CommandLine

/-- The memory that `-p` or `-P` selects: `NULL` stands for hugepages. -/
def memArg (arg : List Char) : Option (List Char) :=
  if startsWith arg "hugepage".toList 8 then none else some arg

namespace Generator

/-- The part of `struct generator` that the options set. -/
structure GenOptions where
  pci : Option (List Char)
  nvme : Option (List Char)
  port : Option (List Char)
  ncpus : BitVec 32
  batch : BitVec 32
  nvbatch : BitVec 32
  walk : Walk
  lbaStart : BitVec 64
  lbaEnd : BitVec 64
  fakePacket : Bool
  hexDump : Bool
  interval : BitVec 32
  verbose : BitVec 32
  timeout : BitVec 32

def GenOptions.default : GenOptions :=
  ⟨none, none, none, 1, 1, 1, .seq, 0, 0x40000, false, false, 0, 0, 0⟩

def walkWords : List (String × Nat × Walk) :=
  [("seq", 3, .seq), ("random", 5, .random)]

def generatorOption (maxCpu : Int) (g : GenOptions) (o : Opt) : Except Refusal GenOptions :=
  match o.ch with
  | 'p' => .ok { g with pci := memArg o.arg }
  | 'u' => .ok { g with nvme := some o.arg }
  | 'i' => .ok { g with port := some o.arg }
  | 'n' => (intArg (fun n => 1 ≤ n ∧ n ≤ maxCpu) (complaint "invalid cpu num " o.arg) o.arg).map
      fun n => { g with ncpus := n }
  | 'b' => (intArg (fun n => 1 ≤ n ∧ n ≤ 32) (complaint "invalid batch size " o.arg) o.arg).map
      fun n => { g with batch := n }
  | 'B' => (intArg (fun n => 1 ≤ n ∧ n ≤ 64) (complaint "invalid nvbatch size " o.arg) o.arg).map
      fun n => { g with nvbatch := n }
  | 'w' => (wordArg (complaint "invalid walk mode " o.arg) o.arg walkWords).map fun w => { g with walk := w }
  | 's' =>
    (lxArg (complaint "invalid start lba " o.arg) o.arg).map fun n => { g with lbaStart := n }
  | 'e' => (lxArg (complaint "invalid end lba " o.arg) o.arg).map fun n => { g with lbaEnd := n }
  | 'I' => .ok { g with interval := atoi o.arg * 1000 }
  | 'v' => .ok { g with verbose := g.verbose + 1 }
  | 'F' => .ok { g with fakePacket := true }
  | 'H' => .ok { g with hexDump := true }
  | 'T' => .ok { g with timeout := atoi o.arg }
  | _ => .error ⟨[], true⟩

/-- `max_cpu`, with `MAX_CPUS` of 32. -/
def maxCpu (online : Int) : Int :=
  if online > 32 then 32 else online

def generatorOptions (online : Int) (opts : List Opt) : Except Refusal GenOptions :=
  match parse (generatorOption (maxCpu online)) GenOptions.default opts with
  | .error e => .error e
  | .ok g =>
    if g.nvme = none then .error ⟨"-u nvme must be specified\n".toList, false⟩
    else if g.port = none then .error ⟨"-i port must be spcified\n".toList, false⟩
    else .ok g

/-- The options are those of `p`, which also has what is read from the device. -/
structure GenOptions.Gives (g : GenOptions) (p : GenParam) : Prop where
  ncpus : g.ncpus.toInt = p.ncpus
  batch : g.batch.toInt = p.batch
  nvbatch : g.nvbatch.toInt = p.nvbatch
  walk : g.walk = p.walk
  lbaStart : g.lbaStart = p.lbaStart
  lbaEnd : g.lbaEnd = p.lbaEnd
  fakePacket : g.fakePacket = p.fakePacket

end Generator

namespace BenchNvme

/-- The part of `struct bench_param` that the options set, with what the loop has printed. -/
structure BenchOptions where
  mode : Mode
  walk : WalkMode
  split : Split
  size : BitVec 32
  batch : BitVec 32
  ncpus : BitVec 32
  time : BitVec 32
  nvme : Option (List Char)
  p2p : Option (List Char)
  lbaEnd : BitVec 64
  interval : BitVec 32
  verboseLevel : BitVec 32
  printed : List Char

def BenchOptions.default : BenchOptions :=
  ⟨.read, .random, .equal, 64, 1, 1, 1, none, none, 0xe8e088b0, 250000, 0, []⟩

def modeWords : List (String × Nat × Mode) :=
  [("read", 4, .read), ("write", 5, .write)]

def walkWords : List (String × Nat × WalkMode) :=
  [("random", 6, .random), ("seq", 3, .seq), ("same", 4, .same)]

def splitWords : List (String × Nat × Split) :=
  [("equal", 5, .equal), ("nosplit", 7, .nosplit)]

/-- A negative time is complained about and kept. `usec` is the conversion `%f` followed by the
product with 1000000. -/
def benchOption (online : Int) (usec : List Char → Option (BitVec 32)) (p : BenchOptions)
    (o : Opt) : Except Refusal BenchOptions :=
  match o.ch with
  | 'm' =>
    (wordArg (complaint "invalid mode: " o.arg).withUsage o.arg modeWords).map fun m => { p with mode := m }
  | 'w' =>
    (wordArg (complaint "invalid walk mode: " o.arg).withUsage o.arg walkWords).map
      fun w => { p with walk := w }
  | 'S' =>
    (wordArg (complaint "invalid split: " o.arg).withUsage o.arg splitWords).map
      fun s => { p with split := s }
  | 's' =>
    (intArg (fun n => 0 ≤ n) (complaint "invalid size: " o.arg) o.arg).map fun n => { p with size := n }
  | 'b' => (intArg (fun n => 0 ≤ n ∧ n ≤ 64) (complaint "invalid batch size: " o.arg) o.arg).map
      fun n => { p with batch := n }
  | 'n' => (intArg (fun n => 1 ≤ n ∧ n ≤ online) (complaint "invalid cpu number: " o.arg) o.arg).map
      fun n => { p with ncpus := n }
  | 'e' => (lxArg (complaint "invalid end lba: " o.arg) o.arg).map fun n => { p with lbaEnd := n }
  | 't' => .ok { p with
      time := atoi o.arg
      printed := p.printed ++ if (atoi o.arg).toInt < 0 then (complaint "invalid time: " o.arg).text else [] }
  | 'i' => match usec o.arg with
    | none => .error (complaint "invalid interval: " o.arg)
    | some n => .ok { p with interval := n }
  | 'u' => .ok { p with nvme := some o.arg }
  | 'p' => .ok { p with p2p := memArg o.arg }
  | 'v' => .ok { p with verboseLevel := p.verboseLevel + 1 }
  | _ => .error ⟨[], true⟩

def benchOptions (online : Int) (usec : List Char → Option (BitVec 32)) (opts : List Opt) :
    Except Refusal BenchOptions :=
  match parse (benchOption online usec) BenchOptions.default opts with
  | .error e => .error e
  | .ok p =>
    if p.nvme = none then .error ⟨"-u nvme device must be specified\n".toList, false⟩ else .ok p

/-- The options are those of `q`, which also has what is read from the device. -/
structure BenchOptions.Gives (p : BenchOptions) (q : BenchParam) : Prop where
  mode : p.mode = q.mode
  walk : p.walk = q.walk
  split : p.split = q.split
  size : p.size.toInt = q.size
  batch : p.batch.toInt = q.batch
  ncpus : p.ncpus.toInt = q.ncpus
  lbaEnd : p.lbaEnd = q.lbaEnd

end BenchNvme

namespace NvgenMain

/-- The part of `struct nvgen` that the options set. -/
structure NvgenOptions where
  pci : Option (List Char)
  mode : Mode
  ncpus : BitVec 32
  port : Option (List Char)
  batch : BitVec 32
  nvme : Option (List Char)
  nvbatch : BitVec 32
  walk : WalkMode
  lbaEnd : BitVec 64
  timeout : BitVec 32

def NvgenOptions.default : NvgenOptions :=
  ⟨none, .tx, 1, none, 1, none, 1, .seq, 0xF0000, 0⟩

def modeWords : List (String × Nat × Mode) :=
  [("tx", 2, .tx), ("rx", 2, .rx)]

def walkWords : List (String × Nat × WalkMode) :=
  [("seq", 3, .seq), ("random", 6, .random)]

/-- The numbers are checked from above only. The interval of `-i`, a `float` that only the report
thread reads, is left out. -/
def nvgenOption (g : NvgenOptions) (o : Opt) : Except Refusal NvgenOptions :=
  match o.ch with
  | 'p' => .ok { g with port := some o.arg }
  | 'P' => .ok { g with pci := memArg o.arg }
  | 'u' => .ok { g with nvme := some o.arg }
  | 'm' =>
    (wordArg (complaint "invalid mode " o.arg) o.arg modeWords).map fun m => { g with mode := m }
  | 'n' => (intArg (fun n => n ≤ 32) ⟨"too many cpus (> 32)\n".toList, false⟩ o.arg).map
      fun n => { g with ncpus := n }
  | 'b' => (intArg (fun n => n ≤ 64) ⟨"too large batch (> 64)\n".toList, false⟩ o.arg).map
      fun n => { g with batch := n }
  | 'e' => (lxArg (complaint "invalid end lba: " o.arg) o.arg).map fun n => { g with lbaEnd := n }
  | 'B' => (intArg (fun n => n ≤ 128) ⟨"too large nvbatch (> 128)\n".toList, false⟩ o.arg).map
      fun n => { g with nvbatch := n }
  | 'w' => (wordArg (complaint "invalid walk mode: " o.arg) o.arg walkWords).map fun w => { g with walk := w }
  | 'i' => .ok g
  | 't' => .ok { g with timeout := atoi o.arg }
  | _ => .error ⟨[], true⟩

/-- In receive mode the number of CPUs is replaced after it has been checked. -/
def nvgenOptions (online : Int) (opts : List Opt) : Except Refusal NvgenOptions :=
  match parse nvgenOption NvgenOptions.default opts with
  | .error e => .error e
  | .ok g =>
    if g.port = none then .error ⟨"-p port must be specified\n".toList, false⟩
    else if g.nvme = none then .error ⟨"-u unvme device must be specified\n".toList, false⟩
    else if (g.ncpus * 2).toInt > online then
      .error (complaint "ncpus must be < " (printInt (BitVec.ofInt 32 online)))
    else match g.mode with
      | .tx => .ok g
      | .rx => .ok { g with ncpus := BitVec.ofInt 32 online }

/-- The options are those of `p`. -/
structure NvgenOptions.Gives (g : NvgenOptions) (p : NvgenParam) : Prop where
  batch : g.batch = p.batch
  nvbatch : g.nvbatch = p.nvbatch
  walk : g.walk = p.walk
  ncpus : g.ncpus.toInt = p.ncpus
  lbaEnd : g.lbaEnd = p.lbaEnd

end NvgenMain

namespace Store

/-- The variables of `main` that the options set. -/
structure StoreOptions where
  nvme : Option (List Char)
  pktlen : BitVec 32
  batch : BitVec 32
  lbaStart : BitVec 64
  lbaEnd : BitVec 64

def StoreOptions.default : StoreOptions :=
  ⟨none, 64, 512, 0, 0⟩

def storeOption (s : StoreOptions) (o : Opt) : Except Refusal StoreOptions :=
  match o.ch with
  | 'u' => .ok { s with nvme := some o.arg }
  | 'l' => (intArg (fun n => 64 ≤ n ∧ n ≤ 1500) (complaint "invalid pkt len " o.arg) o.arg).map
      fun n => { s with pktlen := n }
  | 'b' =>
    (intArg (fun n => 0 ≤ n) (complaint "invalid batch size " o.arg) o.arg).map fun n => { s with batch := n }
  | 's' =>
    (lxArg (complaint "invalid start lba " o.arg) o.arg).map fun n => { s with lbaStart := n }
  | 'e' => (lxArg (complaint "invalid end lba " o.arg) o.arg).map fun n => { s with lbaEnd := n }
  | _ => .error ⟨[], true⟩

/-- Nothing is checked after the loop. -/
def storeOptions (opts : List Opt) : Except Refusal StoreOptions :=
  parse storeOption StoreOptions.default opts

/-- The options are those of `p`, which also has what is read from the device. -/
structure StoreOptions.Gives (s : StoreOptions) (p : StoreParam) : Prop where
  pktlen : s.pktlen.toInt = p.pktlen
  batch : s.batch = p.batch
  lbaStart : s.lbaStart = p.lbaStart
  lbaEnd : s.lbaEnd = p.lbaEnd

end Store
end Libpop
