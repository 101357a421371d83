import Libpop.Nvgen

/-!
# The frames of nvgen and the NIC

The sender threads of nvgen with the packet buffer that they share with the NVMe device and
the NIC. The data of a read arrives some time after the command, and a poll that succeeds
finds it there. The netmap thread hands its slots over when it moves the head of the netmap
ring, and the NIC transmits them in order at any later time, straight from the packet buffer.
-/

namespace Libpop

/-- The 2 KiB slots of the packet buffer that a read writes; it goes on in memory and does not
wrap around. -/
def Aread.target (read : Aread) : List Nat :=
  ((List.range (2 * read.nblocks.toNat)).map (read.slot.toNat + ·)).filter (· < slotNum)

/-- The two threads, how many of the handed slots the netmap ring covers and how many of these
were transmitted, the read commands counted from 0 on and those whose data has not arrived,
the contents of the slots, what each frame contained when it was handed over and when it was
transmitted, and the handed and untransmitted slots that a read was issued into. -/
structure TxState (α : Type) where
  threads : RingState
  posted : Nat
  transmitted : Nat
  commands : Nat
  outstanding : List (Nat × Aread)
  frames : Nat → α
  handedOver : List α
  sent : List α
  overwritten : List Nat

namespace TxState

variable {α : Type}

/-- The slots between the position of the NIC and the head of the netmap ring. -/
def queued (s : TxState α) : List Nat :=
  (s.threads.handed.take s.posted).drop s.transmitted

/-- A successful poll of command `b` of a pass finds its data there. -/
def PollOk (s : TxState α) : UnvmeOp → Prop
  | .apoll ret => ret = 0 →
      ∀ c ∈ s.outstanding, c.1 + s.threads.unvme.batch.toNat ≠ s.commands + s.threads.unvme.b.toNat
  | _ => True

/-- The netmap ring has room for what is queued and the space it reports, and its head is moved
before the slots are released. -/
def SyncOk (numSlots : Nat) (s : TxState α) : NetmapOp → Prop
  | .load (some space) => space.toNat + (s.posted - s.transmitted) < numSlots
  | .publish => s.posted = s.threads.handed.length
  | _ => True

instance (s : TxState α) (op : UnvmeOp) : Decidable (s.PollOk op) := by
  unfold PollOk
  split <;> infer_instance

instance (numSlots : Nat) (s : TxState α) (op : NetmapOp) : Decidable (s.SyncOk numSlots op) := by
  unfold SyncOk
  split <;> infer_instance

/-- The NVMe thread has taken a step, with the read that it issued. -/
def issue (s : TxState α) (threads : RingState) : Option Aread → TxState α
  | none => { s with threads := threads }
  | some read => { s with
      threads := threads, commands := s.commands + 1,
      outstanding := s.outstanding ++ [(s.commands, read)]
      overwritten := s.overwritten ++ read.target.filter (· ∈ s.queued) }

end TxState

def txInit {α : Type} (conf : NvgenConf) (frames : Nat → α) : TxState α :=
  ⟨ringInit conf, 0, 0, 0, [], frames, [], [], []⟩

/-- `post` is `ring->head = ring->cur = head` of the netmap thread. -/
inductive TxOp (α : Type)
  | unvme (op : UnvmeOp)
  | arrive (i : Nat) (data : Nat → α)
  | netmap (op : NetmapOp)
  | post
  | transmit

/-- The read that a step of the NVMe thread issues. -/
def issuedBy (conf : NvgenConf) (s : RingState) (op : UnvmeOp) : Option Aread :=
  match unvmeStep conf s.ring s.unvme op with
  | none => none
  | some (_, _, read) => read

/-- The next step of a thread, of the NVMe device or of the NIC. -/
def txStep {α : Type} (conf : NvgenConf) (numSlots : Nat) (s : TxState α) :
    TxOp α → Option (TxState α)
  | .unvme op =>
    if s.PollOk op then match ringStep conf s.threads (.unvme op) with
      | none => none
      | some threads => some (s.issue threads (issuedBy conf s.threads op))
    else none
  | .arrive i data => match s.outstanding[i]? with
    | none => none
    | some (_, read) => some { s with
        outstanding := s.outstanding.eraseIdx i
        frames := fun x => if x ∈ read.target then data x else s.frames x }
  | .netmap op =>
    if s.SyncOk numSlots op then match ringStep conf s.threads (.netmap op) with
      | none => none
      | some threads => some { s with threads := threads }
    else none
  | .post =>
    if s.threads.netmap.pc = .publish then some { s with
      posted := s.threads.handed.length
      handedOver := s.handedOver ++ (s.threads.handed.drop s.posted).map s.frames }
    else none
  | .transmit => match s.queued with
    | [] => none
    | x :: _ => some { s with transmitted := s.transmitted + 1, sent := s.sent ++ [s.frames x] }

end Libpop
