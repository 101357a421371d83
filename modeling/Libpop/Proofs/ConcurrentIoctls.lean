import Mathlib.Algebra.BigOperators.Group.List.Basic
import Mathlib.Algebra.Order.Group.Multiset
import Libpop.Execution
import Libpop.KmodCalls
import Libpop.Proofs.IoctlExits
import Libpop.Table

/-!
# Registrations that race

Registrations may race with each other, also of the same device: the second `misc_register` of
a name fails, so one of them enters the list and the others give their memory back. The removal
of a device must not race with another call on it. Calls that keep to this leave one entry for
each device at all times, and no block of peer-to-peer memory is lost or given back twice.
-/

namespace Libpop.Proofs
open Execution

/-! ### A call by itself -/

section Alone

variable {env : KernelEnv} {r r' : Registry} {pdev : PciDev} {calls : List Call} {pc pc' : CallPc}

lemma reaches_callStep (h : callStep env.pciName env r pdev pc = some (r', pc')) :
    Reaches (callsStep env.pciName) ⟨r, calls ++ [⟨pdev, pc⟩]⟩ ⟨r', calls ++ [⟨pdev, pc'⟩]⟩ := by
  apply Reaches.of_step (i := .step calls.length env)
  simp [callsStep, h]

/-- The steps of a registration that nothing interrupts are those of `pop_register_p2pmem`. -/
lemma RegisterExit.reaches {size : BitVec 64} {res : RegisterResult}
    (h : RegisterExit env r pdev size res)
    (hnode : env.miscRegister = 0 → nodeName env.pciName pdev ∉ r.miscs.map Prod.snd) :
    Reaches (callsStep env.pciName) ⟨r, calls ++ [⟨pdev, .find size⟩]⟩
      ⟨res.registry, calls ++ [⟨pdev, .report res.ret⟩]⟩ := by
  cases h with
  | already ppdev hf =>
    apply reaches_callStep
    simp only [callStep, hf]
  | noAlloc hf ha =>
    apply Reaches.trans (reaches_callStep (by simp only [callStep, hf]; rfl))
    apply reaches_callStep
    simp only [callStep, ha]
  | noObject p2pmem hf ha hk =>
    apply Reaches.trans (reaches_callStep (by simp only [callStep, hf]; rfl))
    apply Reaches.trans (reaches_callStep (by simp only [callStep, ha]; rfl))
    apply reaches_callStep
    simp only [callStep, hk, Bool.false_eq_true, if_false]
  | noNode p2pmem hf ha hk hm =>
    apply Reaches.trans (reaches_callStep (by simp only [callStep, hf]; rfl))
    apply Reaches.trans (reaches_callStep (by simp only [callStep, ha]; rfl))
    apply Reaches.trans (reaches_callStep (by simp only [callStep, hk, if_true]; rfl))
    apply reaches_callStep
    simp only [callStep, hm, if_false]
    rfl
  | published p2pmem hf ha hk hm =>
    apply Reaches.trans (reaches_callStep (by simp only [callStep, hf]; rfl))
    generalize requestSize env pdev size = n at ha ⊢
    apply Reaches.trans (reaches_callStep (by simp only [callStep, ha]; rfl))
    apply Reaches.trans (reaches_callStep (by simp only [callStep, hk, if_true]; rfl))
    have hstep (t : Registry) (ppdev : PopDev) (hfree : ppdev.devname ∉ t.miscs.map Prod.snd) :
        callStep env.pciName env t pdev (.miscRegister ppdev) =
          some (t.miscRegister ppdev, .listAdd ppdev) := by
      simp only [callStep, hm, if_true]
      rw [if_neg hfree]
    apply Reaches.trans (reaches_callStep (hstep _ _ (hnode hm)))
    exact reaches_callStep rfl

lemma reaches_regReport (reg : P2pmemReg) (res : RegisterResult) :
    Reaches (callsStep env.pciName) ⟨res.registry, calls ++ [⟨pdev, .report res.ret⟩]⟩
      ⟨(regReport env reg pdev res).registry, calls ++ [⟨pdev, .done (regReport env reg pdev res).ret⟩]⟩ := by
  unfold regReport
  by_cases hret : res.ret < 0
  · rw [if_pos hret]
    exact .trans (reaches_callStep (if_pos hret)) (reaches_callStep rfl)
  · rw [if_neg hret]
    by_cases hcopy : env.copyToUser = true
    · rw [if_pos hcopy]
      exact reaches_callStep ((if_neg hret).trans (if_pos hcopy))
    · rw [if_neg hcopy]
      exact .trans (reaches_callStep ((if_neg hret).trans (if_neg hcopy))) (reaches_callStep rfl)

/-- A call that nothing interrupts does what `pop_ioctl` does in one step. -/
theorem reaches_popIoctl (env : KernelEnv) (s : CallState) (cmd : IoctlCmd) (reg : P2pmemReg)
    {call : Call} (hcall : callEntry env cmd reg = some call)
    (hnode : env.miscRegister = 0 → nodeName env.pciName call.pdev ∉ s.registry.miscs.map Prod.snd) :
    Reaches (callsStep env.pciName) s
      ⟨(popIoctl env s.registry cmd reg).registry,
        s.calls ++ [⟨call.pdev, .done (popIoctl env s.registry cmd reg).ret⟩]⟩ := by
  have henter :
      Reaches (callsStep env.pciName) s ⟨s.registry.pciDevGet call.pdev, s.calls ++ [call]⟩ := by
    apply Reaches.of_step (i := .enter env cmd reg)
    simp only [callsStep, hcall]
  apply henter.trans
  unfold callEntry at hcall
  cases cmd with
  | p2pmemReg =>
    have hexit := popIoctl_reg_exit env s.registry reg
    generalize popIoctl env s.registry .p2pmemReg reg = res at hexit
    cases hexit with
    | noCopy hc => simp [hc] at hcall
    | noDevice hc hd => simp [hc, hd] at hcall
    | noP2pmem pdev hc hd hp =>
      simp only [hc, hd, hp, Bool.false_eq_true, if_true, if_false, Option.some.injEq] at hcall
      subst hcall
      exact reaches_callStep rfl
    | report pdev res hc hd hp hres =>
      simp only [hc, hd, hp, if_true, Option.some.injEq] at hcall
      subst hcall
      exact .trans (hres.reaches hnode) (reaches_regReport reg res)
  | p2pmemUnreg =>
    have hexit := popIoctl_unreg_exit env s.registry reg
    generalize popIoctl env s.registry .p2pmemUnreg reg = res at hexit
    cases hexit with
    | noCopy hc => simp [hc] at hcall
    | noDevice hc hd => simp [hc, hd] at hcall
    | notRegistered pdev hc hd hf =>
      simp only [hc, hd, if_true, Option.some.injEq] at hcall
      subst hcall
      have hf' : popFindDev (s.registry.pciDevGet pdev) pdev = none := hf
      apply Reaches.trans (reaches_callStep (by simp only [callStep, hf']; rfl))
      exact reaches_callStep rfl
    | unregistered pdev ppdev hc hd hf =>
      simp only [hc, hd, if_true, Option.some.injEq] at hcall
      subst hcall
      have hf' : popFindDev (s.registry.pciDevGet pdev) pdev = some ppdev := hf
      apply Reaches.trans (reaches_callStep (by simp only [callStep, hf']; rfl))
      apply Reaches.trans (reaches_callStep rfl)
      apply Reaches.trans (reaches_callStep rfl)
      apply Reaches.trans (reaches_callStep rfl)
      apply Reaches.trans (reaches_callStep rfl)
      exact reaches_callStep rfl
  | other code => simp at hcall

end Alone

/-! ### Calls in flight -/

/-- The object that a call has a pointer to. -/
def objOf : CallPc → Option PopDev
  | .miscRegister ppdev | .listAdd ppdev | .miscDeregister ppdev | .free ppdev | .put ppdev | .listDel ppdev
  | .kfree ppdev => some ppdev
  | _ => none

/-- A registration that may still change the list. -/
def registering : CallPc → Bool
  | .find _ | .alloc _ | .kmalloc _ | .miscRegister _ | .listAdd _ => true
  | _ => false

/-- A removal that has not ended. -/
def unregistering : CallPc → Bool
  | .findUnreg | .miscDeregister _ | .free _ | .put _ | .listDel _ | .kfree _ => true
  | _ => false

/-- Two calls on one device: neither removes it while the other is about to register or remove it. -/
structure Compatible (pc pc' : CallPc) : Prop where
  left : unregistering pc → ¬registering pc' ∧ ¬unregistering pc'
  right : unregistering pc' → ¬registering pc ∧ ¬unregistering pc

lemma Compatible.symm {pc pc' : CallPc} (h : Compatible pc pc') : Compatible pc' pc :=
  ⟨h.right, h.left⟩

instance decidableCompatible (pc pc' : CallPc) : Decidable (Compatible pc pc') :=
  decidable_of_iff ((unregistering pc → ¬registering pc' ∧ ¬unregistering pc') ∧
    (unregistering pc' → ¬registering pc ∧ ¬unregistering pc))
    ⟨fun h => ⟨h.1, h.2⟩, fun h => ⟨h.left, h.right⟩⟩

/-- A call that goes on stays compatible as long as it does not become another kind of call. -/
lemma Compatible.mono {pc pc' next : CallPc} (h : Compatible pc pc')
    (hreg : registering next → registering pc)
    (hunreg : unregistering next → unregistering pc) : Compatible next pc' := by
  refine ⟨fun hu => h.left (hunreg hu), fun hu => ?_⟩
  obtain ⟨hnreg, hnunreg⟩ := h.right hu
  exact ⟨fun hr => hnreg (hreg hr), fun hr => hnunreg (hunreg hr)⟩

/-- A call enters only if it is compatible with the calls in flight on its device. -/
def EntersCompatible (s : CallState) : CallOp → Prop
  | .enter env cmd reg =>
    ∀ call ∈ callEntry env cmd reg, ∀ c ∈ s.calls, c.pdev = call.pdev → Compatible c.pc call.pc
  | .step _ _ => True

instance decidableEntersCompatible (s : CallState) : ∀ op, Decidable (EntersCompatible s op)
  | .enter env cmd reg => inferInstanceAs
    (Decidable (∀ call ∈ callEntry env cmd reg, ∀ c ∈ s.calls, c.pdev = call.pdev → Compatible c.pc call.pc))
  | .step _ _ => .isTrue trivial

section Calls

variable (pciName : PciDev → List Char)

/-- What a call on `pdev` knows about its object: it is new and not on the list, has its node, is on
the list, or has been taken off it. -/
def CallOk (r : Registry) (pdev : PciDev) : CallPc → Prop
  | .kmalloc block => block.pdev = pdev
  | .miscRegister ppdev =>
    ppdev.pdev = pdev ∧ ppdev.devname = nodeName pciName pdev ∧ ppdev.id ∈ r.objs ∧
      ppdev.id ∉ r.devList.map PopDev.id
  | .listAdd ppdev =>
    ppdev.pdev = pdev ∧ ppdev.devname = nodeName pciName pdev ∧ ppdev.id ∈ r.objs ∧
      ppdev.id ∉ r.devList.map PopDev.id ∧ (ppdev.id, ppdev.devname) ∈ r.miscs
  | .miscDeregister ppdev | .free ppdev | .put ppdev | .listDel ppdev => ppdev.pdev = pdev ∧ ppdev ∈ r.devList
  | .kfree ppdev => ppdev.pdev = pdev ∧ ppdev.id ∈ r.objs ∧ ppdev.id ∉ r.devList.map PopDev.id
  | _ => True

/-- The call has removed the node of the device and not yet its entry. -/
def Dropping (ppdev : PopDev) (pc : CallPc) : Prop :=
  pc = .free ppdev ∨ pc = .put ppdev ∨ pc = .listDel ppdev

/-- What the list and the nodes keep at all times. -/
structure ListInv (r : Registry) : Prop where
  pdevs : (r.devList.map PopDev.pdev).Nodup
  ids : (r.devList.map PopDev.id).Nodup
  live : ∀ d ∈ r.devList, d.id ∈ r.objs
  names : ∀ d ∈ r.devList, d.devname = nodeName pciName d.pdev
  nodes : (r.miscs.map Prod.snd).Nodup

structure CallsInv (s : CallState) : Prop where
  list : ListInv pciName s.registry
  listed : ∀ d ∈ s.registry.devList, (∀ c ∈ s.calls, ¬Dropping d c.pc) → (d.id, d.devname) ∈ s.registry.miscs
  ok : ∀ c ∈ s.calls, CallOk pciName s.registry c.pdev c.pc
  apart : ∀ (i j : Nat) (c c' : Call), i ≠ j → s.calls[i]? = some c → s.calls[j]? = some c' →
    ∀ p ∈ objOf c.pc, ∀ q ∈ objOf c'.pc, p.id ≠ q.id
  compatible : ∀ (i j : Nat) (c c' : Call), i ≠ j → s.calls[i]? = some c → s.calls[j]? = some c' →
    c.pdev = c'.pdev → Compatible c.pc c'.pc

end Calls

/-! ### What a step of a call does -/

/-- The steps of a call on `pdev`, with what is left of their guards. -/
inductive CallMoves (pciName : PciDev → List Char) (r : Registry) (pdev : PciDev) :
    CallPc → Registry → CallPc → Prop
  | registered (size : BitVec 64) (v : Int) : CallMoves pciName r pdev (.find size) r (.report v)
  | unknown (size size' : BitVec 64) : CallMoves pciName r pdev (.find size) r (.alloc size')
  | noMemory (size : BitVec 64) (v : Int) : CallMoves pciName r pdev (.alloc size) r (.report v)
  | taken (size : BitVec 64) (block : P2pBlock) (hpdev : block.pdev = pdev) :
      CallMoves pciName r pdev (.alloc size) (r.pciAllocP2pmem block) (.kmalloc block)
  | noObject (block : P2pBlock) (v : Int) :
      CallMoves pciName r pdev (.kmalloc block) (r.pciFreeP2pmem block) (.report v)
  | built (block : P2pBlock) (ppdev : PopDev) (hid : ppdev.id ∉ r.objs) (hpdev : ppdev.pdev = pdev)
      (hname : ppdev.devname = nodeName pciName pdev) (hblock : block.pdev = pdev → ppdev.block = block) :
      CallMoves pciName r pdev (.kmalloc block) (r.kmalloc ppdev.id) (.miscRegister ppdev)
  | noNode (ppdev : PopDev) (v : Int) :
      CallMoves pciName r pdev (.miscRegister ppdev) (r.pciFreeP2pmem ppdev.block) (.report v)
  | node (ppdev : PopDev) (hfree : ppdev.devname ∉ r.miscs.map Prod.snd) :
      CallMoves pciName r pdev (.miscRegister ppdev) (r.miscRegister ppdev) (.listAdd ppdev)
  | linked (ppdev : PopDev) (v : Int) :
      CallMoves pciName r pdev (.listAdd ppdev) (r.listAddTail ppdev) (.report v)
  | reported (v : Int) : CallMoves pciName r pdev (.report v) r (.done 0)
  | failed (v ret : Int) : CallMoves pciName r pdev (.report v) r (.devPut ret)
  | missing (ret : Int) : CallMoves pciName r pdev .findUnreg r (.devPut ret)
  | found (ppdev : PopDev) (hfind : popFindDev r pdev = some ppdev) :
      CallMoves pciName r pdev .findUnreg r (.miscDeregister ppdev)
  | noNodeLeft (ppdev : PopDev) :
      CallMoves pciName r pdev (.miscDeregister ppdev) (r.miscDeregister ppdev) (.free ppdev)
  | givenBack (ppdev : PopDev) :
      CallMoves pciName r pdev (.free ppdev) (r.pciFreeP2pmem ppdev.block) (.put ppdev)
  | released (ppdev : PopDev) :
      CallMoves pciName r pdev (.put ppdev) (r.pciDevPut ppdev.pdev) (.listDel ppdev)
  | unlinked (ppdev : PopDev) :
      CallMoves pciName r pdev (.listDel ppdev) (r.listDel ppdev) (.kfree ppdev)
  | freed (ppdev : PopDev) : CallMoves pciName r pdev (.kfree ppdev) (r.kfree ppdev.id) (.done 0)
  | dropped (ret : Int) : CallMoves pciName r pdev (.devPut ret) (r.pciDevPut pdev) (.done ret)

lemma callStep_moves {pciName : PciDev → List Char} {env : KernelEnv} {r r' : Registry}
    {pdev : PciDev} {pc pc' : CallPc} (h : callStep pciName env r pdev pc = some (r', pc')) :
    CallMoves pciName r pdev pc r' pc' := by
  cases pc with
  | find size =>
    simp only [callStep] at h
    split at h <;> cases h
    · exact .registered _ _
    · exact .unknown _ _
  | alloc size =>
    simp only [callStep] at h
    split at h <;> cases h
    · exact .noMemory _ _
    · exact .taken _ _ rfl
  | kmalloc block =>
    simp only [callStep] at h
    split at h <;> cases h
    · have hid := (env.kmallocAddr r.objs).property
      refine .built block ⟨_, pdev, nodeName pciName pdev, block.p2pmem, block.size, 0⟩ hid rfl rfl
        fun hpdev => ?_
      rw [← hpdev]
      rfl
    · exact .noObject _ _
  | miscRegister ppdev =>
    simp only [callStep] at h
    split at h
    · split at h
      · cases h
      next hfree =>
        cases h
        exact .node ppdev hfree
    · cases h
      exact .noNode _ _
  | listAdd ppdev =>
    cases h
    exact .linked _ _
  | report size =>
    simp only [callStep] at h
    split at h
    · cases h
      exact .failed _ _
    · split at h <;> cases h
      · exact .reported _
      · exact .failed _ _
  | findUnreg =>
    simp only [callStep] at h
    split at h
    · cases h
      exact .missing _
    next ppdev hfind =>
      cases h
      exact .found ppdev hfind
  | miscDeregister ppdev =>
    cases h
    exact .noNodeLeft _
  | free ppdev =>
    cases h
    exact .givenBack _
  | put ppdev =>
    cases h
    exact .released _
  | listDel ppdev =>
    cases h
    exact .unlinked _
  | kfree ppdev =>
    cases h
    exact .freed _
  | devPut ret =>
    cases h
    exact .dropped _
  | done ret => cases h

/-- A call neither becomes a registration nor a removal on its way. -/
lemma CallMoves.kind {pciName : PciDev → List Char} {r r' : Registry} {pdev : PciDev}
    {pc pc' : CallPc} (h : CallMoves pciName r pdev pc r' pc') :
    (registering pc' → registering pc) ∧ (unregistering pc' → unregistering pc) := by
  cases h <;> simp [registering, unregistering]

section Moves

variable {pciName : PciDev → List Char} {s : CallState} {r : Registry} {i : Nat}
  {c : Call} {pc : CallPc}

lemma ListInv.congr {t : Registry} (h : ListInv pciName t) (hlist : r.devList = t.devList)
    (hmiscs : r.miscs = t.miscs) (hobjs : r.objs = t.objs) : ListInv pciName r := by
  obtain ⟨hpdevs, hids, hlive, hnames, hnodes⟩ := h
  refine ⟨?_, ?_, ?_, ?_, ?_⟩
  · rwa [hlist]
  · rwa [hlist]
  · rwa [hlist, hobjs]
  · rwa [hlist]
  · rwa [hmiscs]

lemma CallOk.congr {t : Registry} {pdev : PciDev} (h : CallOk pciName t pdev pc)
    (hlist : r.devList = t.devList) (hmiscs : r.miscs = t.miscs) (hobjs : r.objs = t.objs) :
    CallOk pciName r pdev pc := by
  unfold CallOk at h ⊢
  rwa [hlist, hmiscs, hobjs]

/-- The object of a call has not been freed. -/
lemma CallOk.live {pdev : PciDev} {p : PopDev} (h : CallOk pciName r pdev pc)
    (hlist : ListInv pciName r) (hp : p ∈ objOf pc) : p.id ∈ r.objs := by
  cases pc <;> simp only [objOf, Option.mem_def, Option.some.injEq, reduceCtorEq] at hp <;> subst hp
  case miscRegister => exact h.2.2.1
  case listAdd => exact h.2.2.1
  case kfree => exact h.2.1
  all_goals exact hlist.live _ h.2

/-- What a call knows of its object is not changed by what happens to others. -/
lemma CallOk.frame {t : Registry} {pdev : PciDev} {p : PopDev} (h : CallOk pciName t pdev pc)
    (hne : ∀ q ∈ objOf pc, p.id ≠ q.id) (hlive : ∀ id ∈ t.objs, id ≠ p.id → id ∈ r.objs)
    (hmem : ∀ d, d.id ≠ p.id → (d ∈ r.devList ↔ d ∈ t.devList))
    (hmiscs : ∀ m ∈ t.miscs, m.1 ≠ p.id → m ∈ r.miscs) : CallOk pciName r pdev pc := by
  have hids : ∀ q ∈ objOf pc, q.id ∉ t.devList.map PopDev.id → q.id ∉ r.devList.map PopDev.id := by
    intro q hq hnot hin
    obtain ⟨d, hd, hid⟩ := List.mem_map.mp hin
    have hdp : d.id ≠ p.id := fun he => hne q hq (he.symm.trans hid)
    exact hnot (hid ▸ List.mem_map_of_mem ((hmem d hdp).mp hd))
  cases pc with
  | miscRegister q =>
    obtain ⟨hpdev, hname, hold, hnot⟩ := h
    exact ⟨hpdev, hname, hlive _ hold (hne q rfl).symm, hids q rfl hnot⟩
  | listAdd q =>
    obtain ⟨hpdev, hname, hold, hnot, hnode⟩ := h
    have hne' := (hne q rfl).symm
    exact ⟨hpdev, hname, hlive _ hold hne', hids q rfl hnot, hmiscs _ hnode hne'⟩
  | kfree q =>
    obtain ⟨hpdev, hold, hnot⟩ := h
    exact ⟨hpdev, hlive _ hold (hne q rfl).symm, hids q rfl hnot⟩
  | miscDeregister q => exact ⟨h.1, (hmem q (hne q rfl).symm).mpr h.2⟩
  | free q => exact ⟨h.1, (hmem q (hne q rfl).symm).mpr h.2⟩
  | put q => exact ⟨h.1, (hmem q (hne q rfl).symm).mpr h.2⟩
  | listDel q => exact ⟨h.1, (hmem q (hne q rfl).symm).mpr h.2⟩
  | kmalloc block => exact h
  | find _ | alloc _ | report _ | findUnreg | devPut _ | done _ => trivial

/-- What is left to show for a step of one call. -/
lemma CallsInv.move (h : CallsInv pciName s) (hi : s.calls[i]? = some c) (hlist : ListInv pciName r)
    (hlisted : ∀ d ∈ r.devList, ¬Dropping d pc →
      (∀ (j : Nat) (c' : Call), j ≠ i → s.calls[j]? = some c' → ¬Dropping d c'.pc) →
        (d.id, d.devname) ∈ r.miscs)
    (hself : CallOk pciName r c.pdev pc)
    (hothers : ∀ (j : Nat) (c' : Call), j ≠ i → s.calls[j]? = some c' → CallOk pciName r c'.pdev c'.pc)
    (hobj : ∀ (j : Nat) (c' : Call), j ≠ i → s.calls[j]? = some c' →
      ∀ p ∈ objOf pc, ∀ q ∈ objOf c'.pc, p.id ≠ q.id)
    (hkind : (registering pc → registering c.pc) ∧ (unregistering pc → unregistering c.pc)) :
    CallsInv pciName ⟨r, s.calls.set i { c with pc := pc }⟩ := by
  refine ⟨hlist, ?_, ?_, ?_, ?_⟩
  · intro d hd hno
    apply hlisted d hd
    · exact hno { c with pc := pc } (List.mem_of_getElem? (Table.getElem?_set_self_of_some hi _))
    · intro j c' hj hc'
      apply hno c'
      have hset : (s.calls.set i { c with pc := pc })[j]? = some c' := by
        rw [List.getElem?_set_ne fun he => hj he.symm, hc']
      exact List.mem_of_getElem? hset
  · intro c' hc'
    obtain ⟨j, hj⟩ := List.mem_iff_getElem?.mp hc'
    rcases Table.getElem?_set_cases hj with ⟨-, rfl⟩ | ⟨hne, hold⟩
    · exact hself
    · exact hothers j c' hne hold
  · intro j k c' c'' hne hj hk
    rcases Table.getElem?_set_cases hj with ⟨rfl, rfl⟩ | ⟨hji, hj'⟩
    · rcases Table.getElem?_set_cases hk with ⟨rfl, -⟩ | ⟨hki, hk'⟩
      · exact absurd rfl hne
      · exact hobj k c'' hki hk'
    · rcases Table.getElem?_set_cases hk with ⟨rfl, rfl⟩ | ⟨hki, hk'⟩
      · intro p hp q hq he
        exact hobj j c' hji hj' q hq p hp he.symm
      · exact h.apart j k c' c'' hne hj' hk'
  · intro j k c' c'' hne hj hk hpdev
    rcases Table.getElem?_set_cases hj with ⟨rfl, rfl⟩ | ⟨hji, hj'⟩
    · rcases Table.getElem?_set_cases hk with ⟨rfl, -⟩ | ⟨hki, hk'⟩
      · exact absurd rfl hne
      · exact (h.compatible j k c c'' hne hi hk' hpdev).mono hkind.1 hkind.2
    · rcases Table.getElem?_set_cases hk with ⟨rfl, rfl⟩ | ⟨hki, hk'⟩
      · exact ((h.compatible k j c c' hne.symm hi hj' hpdev.symm).mono hkind.1 hkind.2).symm
      · exact h.compatible j k c' c'' hne hj' hk' hpdev

/-- A step that changes neither the list nor the nodes nor the live objects, and goes on with the
object that the call has. -/
lemma CallsInv.quiet (h : CallsInv pciName s) (hi : s.calls[i]? = some c)
    (hlist : r.devList = s.registry.devList) (hmiscs : r.miscs = s.registry.miscs)
    (hobjs : r.objs = s.registry.objs) (hdrop : ∀ d, Dropping d c.pc → Dropping d pc)
    (hself : CallOk pciName r c.pdev pc) (hobj : ∀ p ∈ objOf pc, p ∈ objOf c.pc)
    (hkind : (registering pc → registering c.pc) ∧ (unregistering pc → unregistering c.pc)) :
    CallsInv pciName ⟨r, s.calls.set i { c with pc := pc }⟩ := by
  refine h.move hi (h.list.congr hlist hmiscs hobjs) ?_ hself ?_ ?_ hkind
  · intro d hd hnew hothers
    rw [hmiscs]
    apply h.listed d (hlist ▸ hd)
    intro c' hc' hdropping
    obtain ⟨j, hj⟩ := List.mem_iff_getElem?.mp hc'
    by_cases hji : j = i
    · subst hji
      rw [hi, Option.some.injEq] at hj
      subst hj
      exact hnew (hdrop d hdropping)
    · exact hothers j c' hji hj hdropping
  · intro j c' _ hj
    exact (h.ok c' (List.mem_of_getElem? hj)).congr hlist hmiscs hobjs
  · intro j c' hji hj p hp
    exact h.apart i j c c' hji.symm hi hj p (hobj p hp)

lemma nodup_map_concat {α β : Type*} {l : List α} {f : α → β} {a : α} (h : (l.map f).Nodup)
    (ha : f a ∉ l.map f) : ((l ++ [a]).map f).Nodup := by
  rw [List.map_append, List.map_singleton, ← List.concat_eq_append]
  exact h.concat ha

/-- No other call has an object that a call has. -/
lemma CallsInv.other_ne (h : CallsInv pciName s) (hi : s.calls[i]? = some c) {p : PopDev}
    (hp : p ∈ objOf c.pc) {j : Nat} {c' : Call} (hji : j ≠ i) (hj : s.calls[j]? = some c') :
    ∀ q ∈ objOf c'.pc, p.id ≠ q.id :=
  h.apart i j c c' hji.symm hi hj p hp

/-- A device on the list has its node as long as no other call is removing it. -/
lemma CallsInv.node_of_listed (h : CallsInv pciName s) (hi : s.calls[i]? = some c) {d : PopDev}
    (hd : d ∈ s.registry.devList) (hself : ¬Dropping d c.pc)
    (hothers : ∀ (j : Nat) (c' : Call), j ≠ i → s.calls[j]? = some c' → ¬Dropping d c'.pc) :
    (d.id, d.devname) ∈ s.registry.miscs := by
  apply h.listed d hd
  intro c' hc'
  obtain ⟨j, hj⟩ := List.mem_iff_getElem?.mp hc'
  by_cases hji : j = i
  · subst hji
    rw [hi, Option.some.injEq] at hj
    exact hj ▸ hself
  · exact hothers j c' hji hj

lemma ListInv.eq_of_id (h : ListInv pciName r) {d d' : PopDev} (hd : d ∈ r.devList)
    (hd' : d' ∈ r.devList) (hid : d.id = d'.id) : d = d' :=
  List.inj_on_of_nodup_map h.ids hd hd' hid

lemma callsInv_built (h : CallsInv pciName s) {block : P2pBlock} {ppdev : PopDev}
    (hi : s.calls[i]? = some c) (hpc : c.pc = .kmalloc block) (hid : ppdev.id ∉ s.registry.objs)
    (hpdev : ppdev.pdev = c.pdev) (hname : ppdev.devname = nodeName pciName c.pdev) :
    CallsInv pciName ⟨s.registry.kmalloc ppdev.id, s.calls.set i { c with pc := .miscRegister ppdev }⟩ := by
  have hgrown : ∀ id ∈ s.registry.objs, id ∈ (s.registry.kmalloc ppdev.id).objs :=
    fun id hmem => List.mem_append_left _ hmem
  have hlist : ListInv pciName (s.registry.kmalloc ppdev.id) := by
    obtain ⟨hpdevs, hids, hlive, hnames, hnodes⟩ := h.list
    exact ⟨hpdevs, hids, fun d hd => hgrown _ (hlive d hd), hnames, hnodes⟩
  have hother : ∀ (j : Nat) (c' : Call), s.calls[j]? = some c' →
      ∀ q ∈ objOf c'.pc, ppdev.id ≠ q.id := by
    intro j c' hj q hq he
    exact hid (he ▸ (h.ok c' (List.mem_of_getElem? hj)).live h.list hq)
  refine h.move hi hlist ?_ ?_ ?_ ?_ ?_
  · intro d hd _ hothers
    exact h.node_of_listed hi hd (by simp [hpc, Dropping]) hothers
  · refine ⟨hpdev, hname, List.mem_append_right _ (List.mem_singleton_self _), ?_⟩
    intro hin
    obtain ⟨d, hd, hdid⟩ := List.mem_map.mp hin
    exact hid (hdid ▸ h.list.live d hd)
  · intro j c' _ hj
    exact (h.ok c' (List.mem_of_getElem? hj)).frame (hother j c' hj)
      (fun id hmem _ => hgrown id hmem) (fun _ _ => Iff.rfl) fun m hm _ => hm
  · intro j c' _ hj p hp
    cases hp
    exact hother j c' hj
  · simp [hpc, registering, unregistering]

lemma callsInv_node (h : CallsInv pciName s) {ppdev : PopDev} (hi : s.calls[i]? = some c)
    (hpc : c.pc = .miscRegister ppdev) (hfree : ppdev.devname ∉ s.registry.miscs.map Prod.snd) :
    CallsInv pciName ⟨s.registry.miscRegister ppdev, s.calls.set i { c with pc := .listAdd ppdev }⟩ := by
  have hobj : ppdev ∈ objOf c.pc := by rw [hpc]; rfl
  have hok := h.ok c (List.mem_of_getElem? hi)
  rw [hpc] at hok
  obtain ⟨hpdev, hname, hold, hnot⟩ := hok
  have hlist : ListInv pciName (s.registry.miscRegister ppdev) := by
    obtain ⟨hpdevs, hids, hlive, hnames, hnodes⟩ := h.list
    exact ⟨hpdevs, hids, hlive, hnames, nodup_map_concat hnodes hfree⟩
  refine h.move hi hlist ?_ ?_ ?_ ?_ ?_
  · intro d hd _ hothers
    exact List.mem_append_left _ (h.node_of_listed hi hd (by simp [hpc, Dropping]) hothers)
  · exact ⟨hpdev, hname, hold, hnot, List.mem_append_right _ (List.mem_singleton_self _)⟩
  · intro j c' hji hj
    exact (h.ok c' (List.mem_of_getElem? hj)).frame (h.other_ne hi hobj hji hj)
      (fun _ hmem _ => hmem) (fun _ _ => Iff.rfl) fun m hm _ => List.mem_append_left _ hm
  · intro j c' hji hj p hp
    cases hp
    exact h.other_ne hi hobj hji hj
  · simp [hpc, registering, unregistering]

/-- A registration that has its node is the only one of its device: a device on the list has the
node of the same name, and nobody is removing it. -/
lemma CallsInv.pdev_not_listed (h : CallsInv pciName s) {ppdev : PopDev} (hi : s.calls[i]? = some c)
    (hpc : c.pc = .listAdd ppdev) : ppdev.pdev ∉ s.registry.devList.map PopDev.pdev := by
  have hok := h.ok c (List.mem_of_getElem? hi)
  rw [hpc] at hok
  obtain ⟨hpdev, hname, -, hnot, hnode⟩ := hok
  intro hin
  obtain ⟨d, hd, hdpdev⟩ := List.mem_map.mp hin
  have hkept : ∀ (j : Nat) (c' : Call), j ≠ i → s.calls[j]? = some c' → ¬Dropping d c'.pc := by
    intro j c' hji hj hdrop
    have hok' := h.ok c' (List.mem_of_getElem? hj)
    have hsame : d.pdev = c'.pdev := by
      rcases hdrop with he | he | he
      all_goals
        rw [he] at hok'
        exact hok'.1
    have hcomp := h.compatible i j c c' hji.symm hi hj (hpdev.symm.trans (hdpdev.symm.trans hsame))
    have hunreg : unregistering c'.pc := by
      rcases hdrop with he | he | he
      all_goals
        rw [he]
        rfl
    have hnreg := (hcomp.right hunreg).1
    rw [hpc] at hnreg
    exact hnreg rfl
  have hdnode := h.node_of_listed hi hd (by simp [hpc, Dropping]) hkept
  have hdname : d.devname = ppdev.devname := by
    rw [h.list.names d hd, hname, hdpdev, hpdev]
  have heq := List.inj_on_of_nodup_map h.list.nodes hdnode hnode hdname
  exact hnot ((Prod.mk.inj heq).1 ▸ List.mem_map_of_mem hd)

lemma callsInv_linked (h : CallsInv pciName s) {ppdev : PopDev} {v : Int}
    (hi : s.calls[i]? = some c) (hpc : c.pc = .listAdd ppdev) :
    CallsInv pciName ⟨s.registry.listAddTail ppdev, s.calls.set i { c with pc := .report v }⟩ := by
  have hobj : ppdev ∈ objOf c.pc := by rw [hpc]; rfl
  have hnew := h.pdev_not_listed hi hpc
  have hok := h.ok c (List.mem_of_getElem? hi)
  rw [hpc] at hok
  obtain ⟨hpdev, hname, hold, hnot, hnode⟩ := hok
  have hlist : ListInv pciName (s.registry.listAddTail ppdev) := by
    obtain ⟨hpdevs, hids, hlive, hnames, hnodes⟩ := h.list
    refine ⟨nodup_map_concat hpdevs hnew, nodup_map_concat hids hnot, ?_, ?_, hnodes⟩
    · intro d hd
      rcases List.mem_append.mp hd with hd | hd
      · exact hlive d hd
      · cases List.mem_singleton.mp hd
        exact hold
    · intro d hd
      rcases List.mem_append.mp hd with hd | hd
      · exact hnames d hd
      · cases List.mem_singleton.mp hd
        rw [hname, hpdev]
  refine h.move hi hlist ?_ trivial ?_ ?_ ?_
  · intro d hd _ hothers
    rcases List.mem_append.mp hd with hd | hd
    · exact h.node_of_listed hi hd (by simp [hpc, Dropping]) hothers
    · cases List.mem_singleton.mp hd
      exact hnode
  · intro j c' hji hj
    refine (h.ok c' (List.mem_of_getElem? hj)).frame (h.other_ne hi hobj hji hj)
      (fun _ hmem _ => hmem) ?_ fun m hm _ => hm
    intro d hd
    have hdne : d ≠ ppdev := fun he => hd (congrArg PopDev.id he)
    simp [hdne]
  · intro j c' _ _ p hp
    cases hp
  · simp [registering, unregistering]

/-- The device that a removal finds is not in the hands of another call. -/
lemma callsInv_found (h : CallsInv pciName s) {ppdev : PopDev} (hi : s.calls[i]? = some c)
    (hpc : c.pc = .findUnreg) (hfind : popFindDev s.registry c.pdev = some ppdev) :
    CallsInv pciName ⟨s.registry, s.calls.set i { c with pc := .miscDeregister ppdev }⟩ := by
  obtain ⟨hmem, hpdev⟩ := popFindDev_some hfind
  refine h.move hi h.list ?_ ⟨hpdev, hmem⟩ ?_ ?_ ?_
  · intro d hd _ hothers
    exact h.node_of_listed hi hd (by simp [hpc, Dropping]) hothers
  · intro j c' _ hj
    exact h.ok c' (List.mem_of_getElem? hj)
  · intro j c' hji hj p hp q hq hid
    cases hp
    have hok := h.ok c' (List.mem_of_getElem? hj)
    have hlisted : ppdev.id ∈ s.registry.devList.map PopDev.id := List.mem_map_of_mem hmem
    rw [hid] at hlisted
    -- an object that is on the list is known to removals only, and those exclude each other
    have hclash : q ∈ s.registry.devList → q.pdev = c'.pdev → ¬unregistering c'.pc := by
      intro hqmem hqpdev
      have hsame : c.pdev = c'.pdev := by
        rw [← hpdev, ← hqpdev, h.list.eq_of_id hmem hqmem hid]
      have hcomp := h.compatible i j c c' hji.symm hi hj hsame
      rw [hpc] at hcomp
      exact (hcomp.left rfl).2
    cases hc' : c'.pc <;> rw [hc'] at hok hq hclash <;>
      simp only [objOf, Option.mem_def, Option.some.injEq, reduceCtorEq] at hq <;> subst hq
    case miscRegister => exact hok.2.2.2 hlisted
    case listAdd => exact hok.2.2.2.1 hlisted
    case kfree => exact hok.2.2 hlisted
    all_goals exact hclash hok.2 hok.1 rfl
  · simp [hpc, registering, unregistering]

lemma callsInv_noNodeLeft (h : CallsInv pciName s) {ppdev : PopDev} (hi : s.calls[i]? = some c)
    (hpc : c.pc = .miscDeregister ppdev) :
    CallsInv pciName ⟨s.registry.miscDeregister ppdev, s.calls.set i { c with pc := .free ppdev }⟩ := by
  have hobj : ppdev ∈ objOf c.pc := by rw [hpc]; rfl
  have hok := h.ok c (List.mem_of_getElem? hi)
  rw [hpc] at hok
  obtain ⟨hpdev, hmem⟩ := hok
  have hkept : ∀ m ∈ s.registry.miscs, m.1 ≠ ppdev.id →
      m ∈ (s.registry.miscDeregister ppdev).miscs := by
    intro m hm hne
    exact List.mem_filter.mpr ⟨hm, by simpa using hne⟩
  have hlist : ListInv pciName (s.registry.miscDeregister ppdev) := by
    obtain ⟨hpdevs, hids, hlive, hnames, hnodes⟩ := h.list
    exact ⟨hpdevs, hids, hlive, hnames, hnodes.sublist (List.filter_sublist.map _)⟩
  refine h.move hi hlist ?_ ⟨hpdev, hmem⟩ ?_ ?_ ?_
  · intro d hd hdrop hothers
    have hne : d.id ≠ ppdev.id := by
      intro he
      cases h.list.eq_of_id hd hmem he
      exact hdrop (.inl rfl)
    exact hkept _ (h.node_of_listed hi hd (by simp [hpc, Dropping]) hothers) hne
  · intro j c' hji hj
    exact (h.ok c' (List.mem_of_getElem? hj)).frame (h.other_ne hi hobj hji hj)
      (fun _ hmem _ => hmem) (fun _ _ => Iff.rfl) hkept
  · intro j c' hji hj p hp
    cases hp
    exact h.other_ne hi hobj hji hj
  · simp [hpc, registering, unregistering]

lemma callsInv_unlinked (h : CallsInv pciName s) {ppdev : PopDev} (hi : s.calls[i]? = some c)
    (hpc : c.pc = .listDel ppdev) :
    CallsInv pciName ⟨s.registry.listDel ppdev, s.calls.set i { c with pc := .kfree ppdev }⟩ := by
  have hobj : ppdev ∈ objOf c.pc := by rw [hpc]; rfl
  have hok := h.ok c (List.mem_of_getElem? hi)
  rw [hpc] at hok
  obtain ⟨hpdev, hmem⟩ := hok
  have hkeep : ∀ d, d ∈ (s.registry.listDel ppdev).devList ↔
      d ∈ s.registry.devList ∧ d.id ≠ ppdev.id := by
    intro d
    simp
  have hlist : ListInv pciName (s.registry.listDel ppdev) := by
    obtain ⟨hpdevs, hids, hlive, hnames, hnodes⟩ := h.list
    refine ⟨hpdevs.sublist (List.filter_sublist.map _), hids.sublist (List.filter_sublist.map _),
      ?_, ?_, hnodes⟩
    · intro d hd
      exact hlive d ((hkeep d).mp hd).1
    · intro d hd
      exact hnames d ((hkeep d).mp hd).1
  refine h.move hi hlist ?_ ⟨hpdev, h.list.live ppdev hmem, ?_⟩ ?_ ?_ ?_
  · intro d hd _ hothers
    obtain ⟨hd, hne⟩ := (hkeep d).mp hd
    refine h.node_of_listed hi hd ?_ hothers
    intro hdrop
    rw [hpc] at hdrop
    rcases hdrop with he | he | he <;> cases he
    exact hne rfl
  · intro hin
    obtain ⟨d, hd, hid⟩ := List.mem_map.mp hin
    exact ((hkeep d).mp hd).2 hid
  · intro j c' hji hj
    refine (h.ok c' (List.mem_of_getElem? hj)).frame (h.other_ne hi hobj hji hj)
      (fun _ hmem _ => hmem) ?_ fun m hm _ => hm
    intro d hd
    rw [hkeep]
    exact and_iff_left hd
  · intro j c' hji hj p hp
    cases hp
    exact h.other_ne hi hobj hji hj
  · simp [hpc, registering, unregistering]

/-- The object that is freed is neither on the list nor known to another call. -/
lemma callsInv_freed (h : CallsInv pciName s) {ppdev : PopDev} (hi : s.calls[i]? = some c)
    (hpc : c.pc = .kfree ppdev) :
    CallsInv pciName ⟨s.registry.kfree ppdev.id, s.calls.set i { c with pc := .done 0 }⟩ := by
  have hobj : ppdev ∈ objOf c.pc := by rw [hpc]; rfl
  have hok := h.ok c (List.mem_of_getElem? hi)
  rw [hpc] at hok
  have hkept : ∀ id ∈ s.registry.objs, id ≠ ppdev.id → id ∈ (s.registry.kfree ppdev.id).objs :=
    fun id hmem hne => (List.mem_erase_of_ne hne).mpr hmem
  have hlist : ListInv pciName (s.registry.kfree ppdev.id) := by
    obtain ⟨hpdevs, hids, hlive, hnames, hnodes⟩ := h.list
    refine ⟨hpdevs, hids, fun d hd => hkept _ (hlive d hd) ?_, hnames, hnodes⟩
    intro he
    exact hok.2.2 (he ▸ List.mem_map_of_mem hd)
  refine h.move hi hlist ?_ trivial ?_ ?_ ?_
  · intro d hd _ hothers
    exact h.node_of_listed hi hd (by simp [hpc, Dropping]) hothers
  · intro j c' hji hj
    exact (h.ok c' (List.mem_of_getElem? hj)).frame (h.other_ne hi hobj hji hj) hkept
      (fun _ _ => Iff.rfl) fun m hm _ => hm
  · intro j c' _ _ p hp
    cases hp
  · simp [registering, unregistering]

theorem callsInv_moves (h : CallsInv pciName s) (hi : s.calls[i]? = some c)
    (hmoves : CallMoves pciName s.registry c.pdev c.pc r pc) :
    CallsInv pciName ⟨r, s.calls.set i { c with pc := pc }⟩ := by
  have hkind := hmoves.kind
  have hok := h.ok c (List.mem_of_getElem? hi)
  generalize hpc : c.pc = cur at hmoves hok
  cases hmoves with
  | built block ppdev hid hpdev hname _ => exact callsInv_built h hi hpc hid hpdev hname
  | node ppdev hfree => exact callsInv_node h hi hpc hfree
  | linked ppdev v => exact callsInv_linked h hi hpc
  | found ppdev hfind => exact callsInv_found h hi hpc hfind
  | noNodeLeft ppdev => exact callsInv_noNodeLeft h hi hpc
  | unlinked ppdev => exact callsInv_unlinked h hi hpc
  | freed ppdev => exact callsInv_freed h hi hpc
  | givenBack ppdev =>
    exact h.quiet hi rfl rfl rfl (by simp [hpc, Dropping]) hok (by simp [hpc, objOf]) hkind
  | released ppdev =>
    exact h.quiet hi rfl rfl rfl (by simp [hpc, Dropping]) hok (by simp [hpc, objOf]) hkind
  | taken size block hpdev =>
    exact h.quiet hi rfl rfl rfl (by simp [hpc, Dropping]) hpdev (by simp [objOf]) hkind
  | registered | unknown | noMemory | noObject | noNode | reported | failed | missing | dropped =>
    exact h.quiet hi rfl rfl rfl (by simp [hpc, Dropping]) trivial (by simp [objOf]) hkind

lemma callEntry_pc {env : KernelEnv} {cmd : IoctlCmd} {reg : P2pmemReg} {call : Call}
    (h : callEntry env cmd reg = some call) :
    (∃ size, call.pc = .find size) ∨ (∃ ret, call.pc = .devPut ret) ∨ call.pc = .findUnreg := by
  unfold callEntry at h
  split at h
  · split at h
    · rw [Option.some.injEq] at h
      subst h
      dsimp only
      split
      · exact .inl ⟨_, rfl⟩
      · exact .inr (.inl ⟨_, rfl⟩)
    · rw [Option.some.injEq] at h
      subst h
      exact .inr (.inr rfl)
    · cases h
  · cases h

lemma callsInv_enter (h : CallsInv pciName s) {env : KernelEnv} {cmd : IoctlCmd} {reg : P2pmemReg}
    {call : Call} (hcall : callEntry env cmd reg = some call)
    (hguard : EntersCompatible s (.enter env cmd reg)) :
    CallsInv pciName ⟨s.registry.pciDevGet call.pdev, s.calls ++ [call]⟩ := by
  have hobj : objOf call.pc = none ∧ CallOk pciName s.registry call.pdev call.pc := by
    rcases callEntry_pc hcall with ⟨size, he⟩ | ⟨ret, he⟩ | he
    all_goals
      rw [he]
      exact ⟨rfl, trivial⟩
  refine ⟨h.list.congr rfl rfl rfl, ?_, ?_, ?_, ?_⟩
  · intro d hd hno
    exact h.listed d hd fun c' hc' => hno c' (List.mem_append_left _ hc')
  · intro c' hc'
    rcases List.mem_append.mp hc' with hc' | hc'
    · exact (h.ok c' hc').congr rfl rfl rfl
    · rw [List.mem_singleton.mp hc']
      exact hobj.2.congr rfl rfl rfl
  · intro j k c' c'' hne hj hk p hp q hq
    rcases Table.getElem?_concat_cases hj with hj | ⟨-, rfl⟩
    · rcases Table.getElem?_concat_cases hk with hk | ⟨-, rfl⟩
      · exact h.apart j k c' c'' hne hj hk p hp q hq
      · simp [hobj.1] at hq
    · simp [hobj.1] at hp
  · intro j k c' c'' hne hj hk hpdev
    rcases Table.getElem?_concat_cases hj with hj' | ⟨rfl, rfl⟩
    · rcases Table.getElem?_concat_cases hk with hk' | ⟨-, rfl⟩
      · exact h.compatible j k c' c'' hne hj' hk' hpdev
      · exact hguard c'' hcall c' (List.mem_of_getElem? hj') hpdev
    · rcases Table.getElem?_concat_cases hk with hk' | ⟨rfl, -⟩
      · exact (hguard c' hcall c'' (List.mem_of_getElem? hk') hpdev.symm).symm
      · exact absurd rfl hne

end Moves

/-- The steps of the module: a call that finds no device, one that starts, one that goes on. -/
lemma callsStep_cases {pciName : PciDev → List Char} {s t : CallState} {op : CallOp}
    (h : callsStep pciName s op = some t) :
    t = s ∨
    (∃ env cmd reg call, op = .enter env cmd reg ∧ callEntry env cmd reg = some call ∧
      t = ⟨s.registry.pciDevGet call.pdev, s.calls ++ [call]⟩) ∨
    ∃ i c r pc, s.calls[i]? = some c ∧ CallMoves pciName s.registry c.pdev c.pc r pc ∧
      t = ⟨r, s.calls.set i { c with pc := pc }⟩ := by
  cases op with
  | enter env cmd reg =>
    simp only [callsStep] at h
    split at h
    · cases h
      exact .inl rfl
    next call hcall =>
      cases h
      exact .inr (.inl ⟨env, cmd, reg, call, rfl, hcall, rfl⟩)
  | step i env =>
    simp only [callsStep] at h
    split at h
    · cases h
    next c hc =>
      split at h
      · cases h
      next r pc hstep =>
        cases h
        exact .inr (.inr ⟨i, c, r, pc, hc, callStep_moves hstep, rfl⟩)

lemma callsInv_step {pciName : PciDev → List Char} (s : CallState) (op : CallOp) (t : CallState)
    (h : CallsInv pciName s) (hguard : EntersCompatible s op)
    (hstep : callsStep pciName s op = some t) : CallsInv pciName t := by
  rcases callsStep_cases hstep with
    rfl | ⟨env, cmd, reg, call, rfl, hcall, rfl⟩ | ⟨i, c, r, pc, hi, hmoves, rfl⟩
  · exact h
  · exact callsInv_enter h hcall hguard
  · exact callsInv_moves h hi hmoves

lemma callsInv_init (pciName : PciDev → List Char) : CallsInv pciName callsInit where
  list := ⟨List.nodup_nil, List.nodup_nil, by simp [callsInit, popInit], by simp [callsInit, popInit],
    List.nodup_nil⟩
  listed := by simp [callsInit, popInit]
  ok := by simp [callsInit]
  apart := by simp [callsInit]
  compatible := by simp [callsInit]

/-! ### The blocks of peer-to-peer memory -/

/-- What a registration has taken and not yet published. -/
def held : CallPc → Multiset P2pBlock
  | .kmalloc block => {block}
  | .miscRegister ppdev | .listAdd ppdev => {ppdev.block}
  | _ => 0

/-- What a removal has given back while its device is still on the list. -/
def owed : CallPc → Multiset P2pBlock
  | .put ppdev | .listDel ppdev => {ppdev.block}
  | _ => 0

def listedBlocks (r : Registry) : Multiset P2pBlock :=
  r.devList.map PopDev.block

/-- Every block that was taken has been given back, is on the list or is in the hands of a call. -/
def BlocksInv (s : CallState) : Prop :=
  (s.registry.allocs : Multiset P2pBlock) + (s.calls.map fun c => owed c.pc).sum =
    s.registry.frees + listedBlocks s.registry + (s.calls.map fun c => held c.pc).sum

lemma listedBlocks_listDel {r : Registry} {ppdev : PopDev} (hids : (r.devList.map PopDev.id).Nodup)
    (hmem : ppdev ∈ r.devList) :
    listedBlocks r = {ppdev.block} + listedBlocks (r.listDel ppdev) := by
  have hperm := (perm_cons_filter_id hids hmem).map PopDev.block
  exact Multiset.coe_eq_coe.mpr hperm

/-- The balance of a single step. -/
lemma CallMoves.balance {pciName : PciDev → List Char} {r r' : Registry} {pdev : PciDev}
    {pc pc' : CallPc} (h : CallMoves pciName r pdev pc r' pc') (hlist : ListInv pciName r)
    (hok : CallOk pciName r pdev pc) :
    (r'.allocs : Multiset P2pBlock) + owed pc' + (r.frees + listedBlocks r + held pc) =
      r.allocs + owed pc + (r'.frees + listedBlocks r' + held pc') := by
  cases h with
  | taken size block hpdev =>
    simp [owed, held, listedBlocks, ← Multiset.coe_add]
    abel
  | built block ppdev hid hpdev hname hblock => simp [owed, held, listedBlocks, hblock hok]
  | unlinked ppdev =>
    have hsplit := listedBlocks_listDel hlist.ids hok.2
    change (r.allocs : Multiset P2pBlock) + 0 + (r.frees + listedBlocks r + 0) =
      r.allocs + {ppdev.block} + (r.frees + listedBlocks (r.listDel ppdev) + 0)
    rw [hsplit]
    abel
  | noObject | noNode | linked | givenBack =>
    simp [owed, held, listedBlocks, ← Multiset.coe_add]
    abel
  | registered | unknown | noMemory | node | reported | failed | missing | found | noNodeLeft
  | released | freed
  | dropped => rfl

lemma blocksInv_moves {pciName : PciDev → List Char} {s : CallState} {r : Registry} {i : Nat}
    {c : Call} {pc : CallPc} (h : BlocksInv s) (hinv : CallsInv pciName s)
    (hi : s.calls[i]? = some c) (hmoves : CallMoves pciName s.registry c.pdev c.pc r pc) :
    BlocksInv ⟨r, s.calls.set i { c with pc := pc }⟩ := by
  have hstep := hmoves.balance hinv.list (hinv.ok c (List.mem_of_getElem? hi))
  have howed := Table.sum_map_set (fun c : Call => owed c.pc) hi { c with pc := pc }
  have hheld := Table.sum_map_set (fun c : Call => held c.pc) hi { c with pc := pc }
  unfold BlocksInv at h ⊢
  ext block
  -- the four equations, counted at one block
  have hstep := congrArg (Multiset.count block) hstep
  have howed := congrArg (Multiset.count block) howed
  have hheld := congrArg (Multiset.count block) hheld
  have h := congrArg (Multiset.count block) h
  simp only [Multiset.count_add] at hstep howed hheld h ⊢
  omega

lemma blocksInv_step {pciName : PciDev → List Char} {s t : CallState} {op : CallOp}
    (h : BlocksInv s) (hinv : CallsInv pciName s)
    (hstep : callsStep pciName s op = some t) : BlocksInv t := by
  rcases callsStep_cases hstep with
    rfl | ⟨env, cmd, reg, call, rfl, hcall, rfl⟩ | ⟨i, c, r, pc, hi, hmoves, rfl⟩
  · exact h
  · have hnone : owed call.pc = 0 ∧ held call.pc = 0 := by
      rcases callEntry_pc hcall with ⟨size, he⟩ | ⟨ret, he⟩ | he
      all_goals
        rw [he]
        exact ⟨rfl, rfl⟩
    unfold BlocksInv at h ⊢
    simpa [hnone, listedBlocks] using h
  · exact blocksInv_moves h hinv hi hmoves

/-- All calls have returned. -/
def Quiescent (s : CallState) : Prop :=
  ∀ c ∈ s.calls, ∃ ret, c.pc = .done ret

lemma BlocksInv.perm {s : CallState} (h : BlocksInv s) (hq : Quiescent s) :
    s.registry.allocs.Perm (s.registry.frees ++ s.registry.devList.map PopDev.block) := by
  have hzero : ∀ f : CallPc → Multiset P2pBlock, (∀ ret, f (.done ret) = 0) →
      (s.calls.map fun c => f c.pc).sum = 0 := by
    intro f hf
    apply List.sum_eq_zero
    intro x hx
    obtain ⟨c, hc, rfl⟩ := List.mem_map.mp hx
    obtain ⟨ret, hret⟩ := hq c hc
    rw [hret, hf]
  unfold BlocksInv at h
  rw [hzero owed fun _ => rfl, hzero held fun _ => rfl, add_zero, add_zero] at h
  exact Multiset.coe_eq_coe.mp h

/-- Ioctls of any number of processes, interleaved between any two list operations and external
calls, each of them atomic: when no removal of a device overlaps with another registration or removal
of it, each device is on the list once, and between the calls every device on the list has its node
and every block that was taken from a pool either belongs to a device on the list or was given back,
once. -/
theorem concurrent_ioctls_balanced {pciName : PciDev → List Char} {ops : List CallOp}
    {s : CallState} (hrun : exec (callsStep pciName) callsInit ops = some s)
    (hguard : Guarded (callsStep pciName) EntersCompatible callsInit ops) :
    (s.registry.devList.map PopDev.pdev).Nodup ∧
      (Quiescent s →
        (∀ d ∈ s.registry.devList, (d.id, d.devname) ∈ s.registry.miscs) ∧
          s.registry.allocs.Perm (s.registry.frees ++ s.registry.devList.map PopDev.block)) := by
  have hinv : Throughout (callsStep pciName) (fun s => CallsInv pciName s ∧ BlocksInv s)
      callsInit ops := by
    refine throughout_of_guarded (fun _ h => h) ?_ ⟨callsInv_init pciName, rfl⟩ hguard
    intro s op t h hop hstep
    exact ⟨callsInv_step s op t h.1 hop hstep, blocksInv_step h.2 h.1 hstep⟩
  obtain ⟨hcalls, hblocks⟩ := hinv.last hrun
  refine ⟨hcalls.list.pdevs, fun hq => ⟨?_, hblocks.perm hq⟩⟩
  intro d hd
  apply hcalls.listed d hd
  intro c hc hdrop
  obtain ⟨ret, hret⟩ := hq c hc
  rw [hret] at hdrop
  rcases hdrop with he | he | he <;> cases he

/-- What the loser of a race for one device gets: other memory, and no second node of that name. -/
def loserEnv : KernelEnv :=
  { cardEnv with pciAllocP2pmem := fun _ _ => some 0xffff888380010000, miscRegister := -17 }

/-- Two processes register one card at the same time; both find it unregistered. -/
def registrationRace : List CallOp :=
  [.enter cardEnv .p2pmemReg cardReg, .enter loserEnv .p2pmemReg cardReg, .step 0 cardEnv, .step 1 loserEnv,
    .step 1 loserEnv, .step 0 cardEnv, .step 0 cardEnv, .step 1 loserEnv, .step 0 cardEnv,
    .step 1 loserEnv, .step 0 cardEnv, .step 0 cardEnv, .step 1 loserEnv, .step 1 loserEnv]

theorem registration_race_balanced :
    ∃ s, exec (callsStep cardEnv.pciName) callsInit registrationRace = some s ∧
      s.registry.allocs.length = 2 ∧
      s.registry.devList.length = 1 ∧
      s.registry.allocs.Perm (s.registry.frees ++ s.registry.devList.map PopDev.block) := by
  have hseen : (exec (callsStep cardEnv.pciName) callsInit registrationRace).map (fun s =>
      (s.registry.allocs.length, s.registry.devList.length, s.calls.map Call.pc)) =
      some (2, 1, [.done 0, .done 0]) := rfl
  obtain ⟨s, hs, hobs⟩ := Option.map_eq_some_iff.mp hseen
  obtain ⟨hallocs, hlist, hcalls⟩ : s.registry.allocs.length = 2 ∧ s.registry.devList.length = 1 ∧
      s.calls.map Call.pc = [.done 0, .done 0] := by simpa only [Prod.mk.injEq] using hobs
  have hq : Quiescent s := by
    intro c hc
    have hpc : c.pc ∈ [CallPc.done 0, .done 0] := hcalls ▸ List.mem_map_of_mem hc
    exact ⟨0, by simpa using hpc⟩
  exact ⟨s, hs, hallocs, hlist, ((concurrent_ioctls_balanced hs (by decide)).2 hq).2⟩

-- Two removals of one device are not compatible: both find it and give its memory back.
example : (exec (callsStep cardEnv.pciName) callsInit
    (.enter cardEnv .p2pmemReg cardReg :: List.replicate 6 (.step 0 cardEnv) ++
      [.enter cardEnv .p2pmemUnreg cardReg, .enter cardEnv .p2pmemUnreg cardReg,
        .step 1 cardEnv, .step 2 cardEnv, .step 1 cardEnv, .step 2 cardEnv, .step 1 cardEnv,
        .step 2 cardEnv])).map
      (fun s => (s.registry.allocs.length, s.registry.frees.length)) = some (1, 2) := rfl

end Libpop.Proofs
