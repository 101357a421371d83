import Libpop.PopDevice
import Libpop.Proofs.IoctlExits

/-!
# Lifetime of device objects

An open node and its mappings hold a pointer to the `pop_dev`. Unregistration frees the
object without a look at `refcnt`, so the pointers stay good along a run exactly when no
unregistration hits a device that somebody has open.
-/

namespace Libpop.Proofs
open Execution

/-! ### What one operation does -/

/-- The lists differ in reference counts only, and the same objects are live. -/
def SameDevices (r s : Registry) : Prop :=
  s.devList.map (fun d => { d with refcnt := 0 }) = r.devList.map (fun d => { d with refcnt := 0 }) ∧
    s.objs = r.objs

lemma SameDevices.mem {r s : Registry} (h : SameDevices r s) {d : PopDev} (hd : d ∈ s.devList) :
    ∃ d' ∈ r.devList, d'.id = d.id ∧ d'.pdev = d.pdev ∧ d'.size = d.size := by
  have hm : { d with refcnt := 0 } ∈ r.devList.map (fun d => { d with refcnt := 0 }) := by
    rw [← h.1]
    exact List.mem_map_of_mem hd
  obtain ⟨d', hd', he⟩ := List.mem_map.mp hm
  injection he with hid hpdev _ _ hsize _
  exact ⟨d', hd', hid, hpdev, hsize⟩

lemma SameDevices.symm {r s : Registry} (h : SameDevices r s) : SameDevices s r :=
  ⟨h.1.symm, h.2.symm⟩

lemma SameDevices.trans {r s t : Registry} (h : SameDevices r s)
    (h' : SameDevices s t) : SameDevices r t :=
  ⟨h'.1.trans h.1, h'.2.trans h.2⟩

lemma SameDevices.refl (r : Registry) : SameDevices r r :=
  ⟨rfl, rfl⟩

lemma sameDevices_updateRefcnt (r : Registry) (id : PopDevId) (f : BitVec 32 → BitVec 32) :
    SameDevices r (r.updateRefcnt id f) := by
  refine ⟨?_, rfl⟩
  unfold Registry.updateRefcnt
  rw [List.map_map]
  apply List.map_congr_left
  intro d _
  dsimp only [Function.comp]
  split <;> rfl

lemma SameDevices.ids {r s : Registry} (h : SameDevices r s) :
    s.devList.map PopDev.id = r.devList.map PopDev.id := by
  have hmap := congrArg (List.map PopDev.id) h.1
  simpa [List.map_map, Function.comp_def] using hmap

lemma RegistryInv.sameDevices {r s : Registry} (h : RegistryInv r) (hr : SameDevices r s) :
    RegistryInv s where
  pdevs_nodup := by
    have hmap := congrArg (List.map PopDev.pdev) hr.1
    simp only [List.map_map, Function.comp_def] at hmap
    exact hmap ▸ h.pdevs_nodup
  ids_nodup := hr.ids ▸ h.ids_nodup
  ids_live := by
    intro d hd
    obtain ⟨d', hd', hid, -⟩ := hr.mem hd
    rw [hr.2, ← hid]
    exact h.ids_live d' hd'
  pages := by
    intro d hd
    obtain ⟨d', hd', -, -, hsize⟩ := hr.mem hd
    exact hsize ▸ h.pages d' hd'

lemma popDevAt_some {r : Registry} {id : PopDevId} {ppdev : PopDev}
    (h : r.popDevAt id = some ppdev) : ppdev ∈ r.devList ∧ ppdev.id = id :=
  ⟨List.mem_of_find?_eq_some h, by simpa using List.find?_some h⟩

lemma popDevAt_none_iff {r : Registry} {id : PopDevId} :
    r.popDevAt id = none ↔ id ∉ r.devList.map PopDev.id := by
  simp [Registry.popDevAt, List.find?_eq_none]

/-- Mappings that an operation may add to a file: one that the driver accepted, or one grown
without asking it. -/
inductive NewMap (s : DeviceState) (i : Nat) (file : OpenFile) : DeviceOp → Vma → Prop
  | accepted (vma : Vma) (ppdev : PopDev) (hw : vma.WellFormed) (hp : file.privateData = some ppdev.id)
      (hm : ppdev ∈ s.registry.devList) (hok : popDevMmap (some ppdev) vma = 0) :
      NewMap s i file (.mmap i vma) vma
  | grown (j : Nat) (vma : Vma) (newStart newEnd : BitVec 64) (hj : file.maps[j]? = some vma)
      (ha : (Vma.mk newStart newEnd vma.vmPgoff).Aligned) :
      NewMap s i file (.mremap i j newStart newEnd) ⟨newStart, newEnd, vma.vmPgoff⟩

/-- Every effect of a device operation. A file is open in each of those that go through one. -/
inductive DeviceMove (s : DeviceState) : DeviceOp → DeviceState → Prop
  | ioctl (env : KernelEnv) (cmd : IoctlCmd) (reg : P2pmemReg) :
      DeviceMove s (.ioctl env cmd reg) { s with registry := (popIoctl env s.registry cmd reg).registry }
  | idle (op : DeviceOp) (r : Registry) (hop : ∀ env cmd reg, op ≠ .ioctl env cmd reg)
      (hr : SameDevices s.registry r) : DeviceMove s op { s with registry := r }
  | opened (env : KernelEnv) (name : List Char) (r : Registry) (ppdev : PopDev)
      (hm : ppdev ∈ s.registry.devList) (hr : SameDevices s.registry r) :
      DeviceMove s (.open env name)
        { s with registry := r, files := s.files ++ [⟨some ppdev.id, true, []⟩] }
  | stale (op : DeviceOp) (files : List OpenFile) (file : OpenFile) (id : PopDevId)
      (hop : ∀ env cmd reg, op ≠ .ioctl env cmd reg)
      (hi : file ∈ s.files) (ho : file.isOpen = true) (hp : file.privateData = some id)
      (hn : s.registry.popDevAt id = none)
      (hfs : ∀ f ∈ files, f ∈ s.files ∨ f.privateData = none ∧ f.isOpen = false) :
      DeviceMove s op { s with files := files, staleUses := s.staleUses ++ [id] }
  | kept (op : DeviceOp) (i : Nat) (file file' : OpenFile) (hop : ∀ env cmd reg, op ≠ .ioctl env cmd reg)
      (hi : s.files[i]? = some file) (ho : file.isOpen = true) (hp : file'.privateData = file.privateData)
      (hmaps : ∀ vma ∈ file'.maps, vma ∈ file.maps ∨ NewMap s i file op vma) :
      DeviceMove s op (s.setFile i file')
  | faulted (i j : Nat) (addr : BitVec 64) (env : FaultEnv) (file : OpenFile) (vma : Vma) (ppdev : PopDev)
      (hi : s.files[i]? = some file) (hj : file.maps[j]? = some vma) (ha : vma.Contains addr)
      (hp : file.privateData = some ppdev.id) (hm : ppdev ∈ s.registry.devList) :
      DeviceMove s (.fault i j addr env)
        { s with installed := s.installed ++ [⟨ppdev, vma.pgoffAt addr⟩] }
  | released (op : DeviceOp) (i : Nat) (file' : OpenFile) (r : Registry)
      (hop : ∀ env cmd reg, op ≠ .ioctl env cmd reg) (hp : file'.privateData = none)
      (ho : file'.isOpen = false) (hr : SameDevices s.registry r) :
      DeviceMove s op { s.setFile i file' with registry := r }

lemma withPopDev_cases (s : DeviceState) (file : OpenFile) (k : Option PopDev → DeviceState) :
    (file.privateData = none ∧ s.withPopDev file k = k none) ∨
      (∃ id, file.privateData = some id ∧ s.registry.popDevAt id = none ∧
        s.withPopDev file k = { s with staleUses := s.staleUses ++ [id] }) ∨
      ∃ ppdev ∈ s.registry.devList, file.privateData = some ppdev.id ∧
        s.withPopDev file k = k (some ppdev) := by
  unfold DeviceState.withPopDev
  cases hp : file.privateData with
  | none => exact .inl ⟨rfl, rfl⟩
  | some id =>
    right
    cases ha : s.registry.popDevAt id with
    | none => exact .inl ⟨id, rfl, ha, by simp only [ha]⟩
    | some ppdev =>
      obtain ⟨hm, rfl⟩ := popDevAt_some ha
      exact .inr ⟨ppdev, hm, rfl, by simp only [ha]⟩

lemma DeviceMove.same {s : DeviceState} {op : DeviceOp}
    (hop : ∀ env cmd reg, op ≠ .ioctl env cmd reg) : DeviceMove s op s :=
  .idle op s.registry hop (.refl _)

/-- An operation that goes through an open file uses a freed object, or goes on with the
object that the file refers to. -/
lemma withPopDev_move {s : DeviceState} {op : DeviceOp} {i : Nat} {file : OpenFile}
    {k : Option PopDev → DeviceState} (hop : ∀ env cmd reg, op ≠ .ioctl env cmd reg)
    (hi : s.files[i]? = some file) (ho : file.isOpen = true) (hnone : DeviceMove s op (k none))
    (hsome : ∀ ppdev ∈ s.registry.devList, file.privateData = some ppdev.id →
      DeviceMove s op (k (some ppdev))) : DeviceMove s op (s.withPopDev file k) := by
  rcases withPopDev_cases s file k with ⟨-, he⟩ | ⟨id, hp, hn, he⟩ | ⟨ppdev, hm, hp, he⟩
  · exact he ▸ hnone
  · rw [he]
    exact .stale op s.files file id hop (List.mem_of_getElem? hi) ho hp hn fun f hf => .inl hf
  · exact he ▸ hsome ppdev hm hp

lemma isOpen_of_fd {file : OpenFile} (h : file.fd = true) : file.isOpen = true := by
  simp [OpenFile.isOpen, h]

lemma isOpen_of_getElem? {file : OpenFile} {j : Nat} {vma : Vma} (h : file.maps[j]? = some vma) :
    file.isOpen = true := by
  have hne : file.maps ≠ [] := List.ne_nil_of_mem (List.mem_of_getElem? h)
  simp [OpenFile.isOpen, hne]

/-- The closed slot of a file whose last reference is gone. -/
lemma mem_set_closed {s : DeviceState} {i : Nat} {file' : OpenFile} (hp : file'.privateData = none)
    (ho : file'.isOpen = false) :
    ∀ f ∈ (s.setFile i file').files, f ∈ s.files ∨ f.privateData = none ∧ f.isOpen = false := by
  intro f hf
  rcases List.mem_or_eq_of_mem_set hf with h | rfl
  · exact .inl h
  · exact .inr ⟨hp, ho⟩

lemma fput_move {s : DeviceState} {op : DeviceOp} {i : Nat} {file file' : OpenFile}
    (hop : ∀ env cmd reg, op ≠ .ioctl env cmd reg) (hi : s.files[i]? = some file)
    (ho : file.isOpen = true) (hp : file'.privateData = file.privateData)
    (hsub : ∀ vma ∈ file'.maps, vma ∈ file.maps) : DeviceMove s op (s.fput i file') := by
  unfold DeviceState.fput
  by_cases hopen : file'.isOpen = true
  · rw [if_pos hopen]
    exact .kept op i file file' hop hi ho hp fun vma hv => .inl (hsub vma hv)
  · rw [if_neg hopen]
    dsimp only
    have hclosed : ({ file' with privateData := none } : OpenFile).isOpen = false := by
      simpa [OpenFile.isOpen] using hopen
    rcases withPopDev_cases (s.setFile i { file' with privateData := none }) file' _ with
      ⟨-, he⟩ | ⟨id, hid, hn, he⟩ | ⟨ppdev, -, -, he⟩
    · rw [he]
      exact .released op i _ s.registry hop rfl hclosed (.refl _)
    · rw [he]
      exact .stale op _ file id hop (List.mem_of_getElem? hi) ho (hp ▸ hid) hn
        (mem_set_closed rfl hclosed)
    · rw [he]
      exact .released op i _ _ hop rfl hclosed (sameDevices_updateRefcnt _ _ _)

/-- The card that the kernel finds behind the name of a node. -/
def nodeCard (env : KernelEnv) (name : List Char) : Option PciDev :=
  match Scan.sscanf Scan.kernelHex Scan.fullSlot name with
  | [domain, bus, slot, func] =>
    env.pciGetDomainBusAndSlot (.ofNat 32 domain) (.ofNat 32 bus)
      (pciDevfn (.ofNat 32 slot) (.ofNat 32 func))
  | _ => none

lemma popFindDevByBusAndSlot_spec (env : KernelEnv) (r : Registry) (domain bus devfn : BitVec 32) :
    SameDevices r (popFindDevByBusAndSlot env r domain bus devfn).1 ∧
      (popFindDevByBusAndSlot env r domain bus devfn).2 =
        (env.pciGetDomainBusAndSlot domain bus devfn).bind (popFindDev r) := by
  unfold popFindDevByBusAndSlot
  cases env.pciGetDomainBusAndSlot domain bus devfn with
  | none => exact ⟨.refl r, rfl⟩
  | some pdev => exact ⟨.refl r, rfl⟩

/-- The open of a node goes to the listed device of the card behind its name. -/
lemma popDevOpen_cases (env : KernelEnv) (r : Registry) (name : List Char) :
    SameDevices r (popDevOpen env r name).registry ∧
      ((nodeCard env name).bind (popFindDev r) = none ∧ (popDevOpen env r name).ret = -einval ∨
        ∃ ppdev, (nodeCard env name).bind (popFindDev r) = some ppdev ∧
          (popDevOpen env r name).ret = 0 ∧
            (popDevOpen env r name).privateData = some ppdev.id) := by
  unfold popDevOpen nodeCard
  generalize Scan.sscanf Scan.kernelHex Scan.fullSlot name = values
  -- both functions look for exactly four numbers
  rcases values with _ | ⟨domain, _ | ⟨bus, _ | ⟨slot, _ | ⟨func, _ | ⟨more, rest⟩⟩⟩⟩⟩
  · exact ⟨.refl r, .inl ⟨rfl, rfl⟩⟩
  · exact ⟨.refl r, .inl ⟨rfl, rfl⟩⟩
  · exact ⟨.refl r, .inl ⟨rfl, rfl⟩⟩
  · exact ⟨.refl r, .inl ⟨rfl, rfl⟩⟩
  · obtain ⟨hr, hfound⟩ := popFindDevByBusAndSlot_spec env r (.ofNat 32 domain) (.ofNat 32 bus)
      (pciDevfn (.ofNat 32 slot) (.ofNat 32 func))
    dsimp only
    rw [← hfound]
    generalize popFindDevByBusAndSlot env r (.ofNat 32 domain) (.ofNat 32 bus)
      (pciDevfn (.ofNat 32 slot) (.ofNat 32 func)) = found at hr
    obtain ⟨r', ppdev⟩ := found
    cases ppdev with
    | none => exact ⟨hr, .inl ⟨rfl, rfl⟩⟩
    | some ppdev => exact ⟨hr.trans (sameDevices_updateRefcnt _ _ _), .inr ⟨ppdev, rfl, rfl, rfl⟩⟩
  · exact ⟨.refl r, .inl ⟨rfl, rfl⟩⟩

/-- A node of this name is registered, and its card is that of the listed device. -/
def NodeOf (env : KernelEnv) (r : Registry) (name : List Char) (ppdev : PopDev) : Prop :=
  "pop/".toList ++ name ∈ r.miscs.map Prod.snd ∧ (nodeCard env name).bind (popFindDev r) = some ppdev

lemma NodeOf.find {env : KernelEnv} {r : Registry} {name : List Char} {ppdev : PopDev}
    (h : NodeOf env r name ppdev) : nodeCard env name = some ppdev.pdev ∧ ppdev ∈ r.devList := by
  obtain ⟨pdev, hcard, hfind⟩ := Option.bind_eq_some_iff.mp h.2
  obtain ⟨hmem, rfl⟩ := popFindDev_some hfind
  exact ⟨hcard, hmem⟩

lemma deviceStep_open_cases (s : DeviceState) (env : KernelEnv) (name : List Char) :
    ∃ r, SameDevices s.registry r ∧
      ((∀ ppdev, ¬NodeOf env s.registry name ppdev) ∧
          deviceStep s (.open env name) = some { s with registry := r } ∨
        ∃ ppdev, NodeOf env s.registry name ppdev ∧ deviceStep s (.open env name) =
          some { s with registry := r, files := s.files ++ [⟨some ppdev.id, true, []⟩] }) := by
  have hnode : s.registry.miscs.any (fun m => m.2 = "pop/".toList ++ name) = true ↔
      "pop/".toList ++ name ∈ s.registry.miscs.map Prod.snd := by
    simp only [List.any_eq_true, List.mem_map, decide_eq_true_eq]
  simp only [deviceStep]
  split
  next hany =>
    obtain ⟨hr, ⟨hnone, hret⟩ | ⟨ppdev, hsome, hret, hp⟩⟩ := popDevOpen_cases env s.registry name
    · rw [if_neg (by rw [hret]; decide)]
      refine ⟨_, hr, .inl ⟨fun ppdev hof => ?_, rfl⟩⟩
      rw [hof.2] at hnone
      cases hnone
    · rw [if_pos hret, hp]
      exact ⟨_, hr, .inr ⟨ppdev, ⟨hnode.mp hany, hsome⟩, rfl⟩⟩
  next hany =>
    exact ⟨s.registry, .refl _, .inl ⟨fun ppdev hof => hany (hnode.mpr hof.1), rfl⟩⟩

section Operations

variable {s t : DeviceState} {i : Nat}

lemma open_move {env : KernelEnv} {name : List Char} (h : deviceStep s (.open env name) = some t) :
    DeviceMove s (.open env name) t := by
  obtain ⟨r, hr, ⟨-, he⟩ | ⟨ppdev, hnode, he⟩⟩ := deviceStep_open_cases s env name
  · rw [he, Option.some.injEq] at h
    exact h ▸ .idle _ r (by simp) hr
  · rw [he, Option.some.injEq] at h
    exact h ▸ .opened env name r ppdev hnode.find.2 hr

lemma llseek_move {whence : BitVec 32} (h : deviceStep s (.llseek i whence) = some t) :
    DeviceMove s (.llseek i whence) t := by
  have hsame : DeviceMove s (.llseek i whence) s := .same (by simp)
  simp only [deviceStep] at h
  split at h
  · cases h
  next file hi =>
    split at h
    next hfd =>
      rw [Option.some.injEq] at h
      rw [← h]
      split
      · exact withPopDev_move (by simp) hi (isOpen_of_fd hfd) hsame fun _ _ _ => hsame
      · exact hsame
    · cases h

lemma mmap_move {vma : Vma} (h : deviceStep s (.mmap i vma) = some t) :
    DeviceMove s (.mmap i vma) t := by
  have hsame : DeviceMove s (.mmap i vma) s := .same (by simp)
  simp only [deviceStep] at h
  split at h
  · cases h
  next file hi =>
    split at h
    next hw =>
      rw [Option.some.injEq] at h
      rw [← h]
      apply withPopDev_move (by simp) hi (isOpen_of_fd hw.1) hsame
      intro ppdev hm hp
      split
      next hok =>
        refine .kept _ i file _ (by simp) hi (isOpen_of_fd hw.1) rfl ?_
        intro v hv
        rcases List.mem_append.mp hv with hv | hv
        · exact .inl hv
        · rw [List.mem_singleton.mp hv]
          exact .inr (.accepted vma ppdev hw.2 hp hm hok)
      · exact hsame
    · cases h

lemma mremap_move {j : Nat} {newStart newEnd : BitVec 64}
    (h : deviceStep s (.mremap i j newStart newEnd) = some t) :
    DeviceMove s (.mremap i j newStart newEnd) t := by
  simp only [deviceStep] at h
  split at h
  · cases h
  next file hi =>
    split at h
    · cases h
    next vma hj =>
      split at h
      next hg =>
        rw [Option.some.injEq] at h
        rw [← h]
        refine .kept _ i file _ (by simp) hi (isOpen_of_getElem? hj) rfl ?_
        intro v hv
        rcases List.mem_or_eq_of_mem_set hv with hv | rfl
        · exact .inl hv
        · exact .inr (.grown j vma newStart newEnd hj hg.1)
      · cases h

lemma fault_move {j : Nat} {addr : BitVec 64} {env : FaultEnv}
    (h : deviceStep s (.fault i j addr env) = some t) : DeviceMove s (.fault i j addr env) t := by
  have hsame : DeviceMove s (.fault i j addr env) s := .same (by simp)
  simp only [deviceStep] at h
  split at h
  · cases h
  next file hi =>
    split at h
    · cases h
    next vma hj =>
      split at h
      next ha =>
        rw [Option.some.injEq] at h
        rw [← h]
        apply withPopDev_move (by simp) hi (isOpen_of_getElem? hj) hsame
        intro ppdev hm hp
        split
        next he _ =>
          rw [Option.some.injEq] at he
          exact he ▸ .faulted i j addr env file vma ppdev hi hj ha hp hm
        · exact hsame
      · cases h

lemma munmap_move {j : Nat} (h : deviceStep s (.munmap i j) = some t) :
    DeviceMove s (.munmap i j) t := by
  simp only [deviceStep] at h
  split at h
  · cases h
  next file hi =>
    split at h
    next hj =>
      rw [Option.some.injEq] at h
      have hopen := isOpen_of_getElem? (List.getElem?_eq_getElem hj)
      exact h ▸ fput_move (by simp) hi hopen rfl fun vma hv => List.mem_of_mem_eraseIdx hv
    · cases h

lemma close_move (h : deviceStep s (.close i) = some t) : DeviceMove s (.close i) t := by
  simp only [deviceStep] at h
  split at h
  · cases h
  next file hi =>
    split at h
    next hfd =>
      rw [Option.some.injEq] at h
      exact h ▸ fput_move (by simp) hi (isOpen_of_fd hfd) rfl fun vma hv => hv
    · cases h

theorem deviceStep_move {op : DeviceOp} (h : deviceStep s op = some t) : DeviceMove s op t := by
  cases op with
  | ioctl env cmd reg =>
    simp only [deviceStep, Option.some.injEq] at h
    exact h ▸ .ioctl env cmd reg
  | «open» env name => exact open_move h
  | llseek i whence => exact llseek_move h
  | mmap i vma => exact mmap_move h
  | mremap i j newStart newEnd => exact mremap_move h
  | fault i j addr env => exact fault_move h
  | munmap i j => exact munmap_move h
  | close i => exact close_move h

end Operations

/-! ### Open files and live objects -/

/-- Every open file, and with it every mapping, refers to a listed device, and no operation
has used a freed one. -/
def DeviceSafe (s : DeviceState) : Prop :=
  (∀ file ∈ s.files, file.isOpen = true → ∃ ppdev ∈ s.registry.devList, file.privateData = some ppdev.id) ∧
    s.staleUses = []

/-- An operation that pulls no device from under an open file. Nothing but an unregistration
can: it has to miss the list, or to find a device that nobody has open. -/
def SparesOpenFiles (s : DeviceState) : DeviceOp → Prop
  | .ioctl env .p2pmemUnreg reg =>
      ∀ pdev, env.copyFromUser = true → env.lookup reg = some pdev →
        ∀ ppdev, popFindDev s.registry pdev = some ppdev →
          ∀ file ∈ s.files, file.isOpen = true → file.privateData ≠ some ppdev.id
  | _ => True

lemma sparesOpenFiles_of_ne {s : DeviceState} {op : DeviceOp}
    (h : ∀ env cmd reg, op ≠ .ioctl env cmd reg) : SparesOpenFiles s op := by
  cases op with
  | ioctl env cmd reg => exact absurd rfl (h env cmd reg)
  | _ => trivial

/-- Safety looks at the addresses on the list only. -/
lemma DeviceSafe.registry {s : DeviceState} (h : DeviceSafe s) {r : Registry}
    (hids : ∀ id ∈ s.registry.devList.map PopDev.id, id ∈ r.devList.map PopDev.id) :
    DeviceSafe { s with registry := r } := by
  refine ⟨?_, h.2⟩
  intro file hfile ho
  obtain ⟨ppdev, hm, hp⟩ := h.1 file hfile ho
  obtain ⟨d, hd, he⟩ := List.mem_map.mp (hids _ (List.mem_map_of_mem hm))
  exact ⟨d, hd, he ▸ hp⟩

lemma DeviceSafe.sameDevices {s : DeviceState} (h : DeviceSafe s) {r : Registry}
    (hr : SameDevices s.registry r) : DeviceSafe { s with registry := r } := by
  apply h.registry
  intro id hid
  rwa [hr.ids]

lemma DeviceSafe.setFile {s : DeviceState} (h : DeviceSafe s) {i : Nat} {file' : OpenFile}
    (hf : file'.isOpen = true → ∃ ppdev ∈ s.registry.devList, file'.privateData = some ppdev.id) :
    DeviceSafe (s.setFile i file') := by
  refine ⟨?_, h.2⟩
  intro file hfile ho
  rcases List.mem_or_eq_of_mem_set hfile with hm | rfl
  · exact h.1 file hm ho
  · exact hf ho

lemma regReport_devList (env : KernelEnv) (reg : P2pmemReg) (pdev : PciDev) (res : RegisterResult) :
    (regReport env reg pdev res).registry.devList = res.registry.devList := by
  rcases regReport_registry env reg pdev res with he | he
  · rw [he]
  · rw [he]
    rfl

/-- Registration leaves the list alone, or adds one device that was not on it. -/
lemma devList_reg (env : KernelEnv) (r : Registry) (reg : P2pmemReg) :
    (popIoctl env r .p2pmemReg reg).registry.devList = r.devList ∧
      (∀ pdev, ¬Registers env r reg pdev) ∨
      ∃ pdev p2pmem, Registers env r reg pdev ∧ (popIoctl env r .p2pmemReg reg).registry.devList =
        r.devList ++ [newPopDev env (r.pciDevGet pdev) pdev p2pmem (requestSize env pdev reg.size)] := by
  by_cases hadds : ∃ pdev, Registers env r reg pdev
  · obtain ⟨pdev, hreg⟩ := hadds
    obtain ⟨p2pmem, heq⟩ := hreg.popIoctl_eq
    refine .inr ⟨pdev, p2pmem, hreg, ?_⟩
    rw [heq, regReport_devList]
    rfl
  · refine .inl ⟨?_, fun pdev hreg => hadds ⟨pdev, hreg⟩⟩
    have hx := popIoctl_reg_exit env r reg
    generalize popIoctl env r .p2pmemReg reg = res at hx ⊢
    cases hx with
    | noCopy hc => rfl
    | noDevice hc hd => rfl
    | noP2pmem pdev hc hd hp => rfl
    | report pdev res hc hd hp hres =>
      rw [regReport_devList env reg pdev res]
      cases hres with
      | published p2pmem hf ha hk hm =>
        exact absurd ⟨pdev, hc, hd, hp, hf, by rw [ha]; rfl, hk, hm⟩ hadds
      | _ => rfl

/-- Registration takes nothing off the list. -/
lemma devList_prefix_reg (env : KernelEnv) (r : Registry) (reg : P2pmemReg) :
    r.devList <+: (popIoctl env r .p2pmemReg reg).registry.devList := by
  rcases devList_reg env r reg with ⟨he, -⟩ | ⟨pdev, p2pmem, -, he⟩
  · exact he ▸ List.prefix_rfl
  · rw [he]
    exact List.prefix_append _ _

lemma deviceSafe_unreg_iff {s : DeviceState} (h : DeviceSafe s) (env : KernelEnv)
    (reg : P2pmemReg) :
    DeviceSafe { s with registry := (popIoctl env s.registry .p2pmemUnreg reg).registry } ↔
      SparesOpenFiles s (.ioctl env .p2pmemUnreg reg) := by
  have hx := popIoctl_unreg_exit env s.registry reg
  generalize popIoctl env s.registry .p2pmemUnreg reg = res at hx ⊢
  dsimp only [SparesOpenFiles]
  cases hx with
  | noCopy hc => simp [hc, h]
  | noDevice hc hd => simp [hd, h]
  | notRegistered pdev hc hd hf =>
    rw [forall_lookup_iff hc hd]
    exact iff_of_true (h.registry fun _ hid => hid) (by simp [hf])
  | unregistered pdev ppdev hc hd hf =>
    rw [forall_lookup_iff hc hd]
    have hlist : (popUnregisterP2pmem (s.registry.pciDevGet pdev) ppdev).devList =
        s.registry.devList.filter (fun d => d.id != ppdev.id) := rfl
    constructor
    · intro hsafe d hd' file hfile ho hp
      rw [hf, Option.some.injEq] at hd'
      obtain ⟨e, he, hpe⟩ := hsafe.1 file hfile ho
      rw [hlist, List.mem_filter] at he
      have hid : e.id = ppdev.id := by
        rw [hp, Option.some.injEq, ← hd'] at hpe
        exact hpe.symm
      simp [hid] at he
    · intro hspares
      refine ⟨?_, h.2⟩
      intro file hfile ho
      obtain ⟨e, he, hpe⟩ := h.1 file hfile ho
      have hne : e.id ≠ ppdev.id := fun hid => hspares ppdev hf file hfile ho (hid ▸ hpe)
      refine ⟨e, ?_, hpe⟩
      rw [hlist, List.mem_filter]
      exact ⟨he, by simpa using hne⟩

lemma deviceSafe_step_iff (s : DeviceState) (op : DeviceOp) (t : DeviceState) (h : DeviceSafe s)
    (hs : deviceStep s op = some t) : DeviceSafe t ↔ SparesOpenFiles s op := by
  cases deviceStep_move hs with
  | ioctl env cmd reg =>
    cases cmd with
    | p2pmemReg =>
      refine iff_of_true (h.registry fun id hid => ?_) trivial
      exact ((devList_prefix_reg env s.registry reg).map PopDev.id).subset hid
    | p2pmemUnreg => exact deviceSafe_unreg_iff h env reg
    | other cmd => exact iff_of_true (h.registry fun id hid => hid) trivial
  | idle _ r hop hr => exact iff_of_true (h.sameDevices hr) (sparesOpenFiles_of_ne hop)
  | opened env name r ppdev hm hr =>
    refine iff_of_true ⟨?_, h.2⟩ trivial
    intro file hfile ho
    rcases List.mem_append.mp hfile with hold | hnew
    · exact (h.sameDevices hr).1 file hold ho
    · obtain ⟨d, hd, hid, -⟩ := hr.symm.mem hm
      rw [List.mem_singleton.mp hnew]
      exact ⟨d, hd, by rw [hid]⟩
  | stale _ files file id hop hi ho hp hn hfs =>
    -- a safe state has no freed object that an open file refers to
    obtain ⟨ppdev, hm, hp'⟩ := h.1 file hi ho
    rw [hp, Option.some.injEq] at hp'
    exact absurd (hp' ▸ List.mem_map_of_mem hm) (popDevAt_none_iff.mp hn)
  | kept _ i file file' hop hi ho hp hmaps =>
    refine iff_of_true (h.setFile fun _ => ?_) (sparesOpenFiles_of_ne hop)
    rw [hp]
    exact h.1 file (List.mem_of_getElem? hi) ho
  | faulted i j addr env file vma ppdev hi hj ha hp hm => exact iff_of_true ⟨h.1, h.2⟩ trivial
  | released _ i file' r hop hp ho hr =>
    have hclosed : DeviceSafe (s.setFile i file') := h.setFile fun hopen => by simp [ho] at hopen
    exact iff_of_true (hclosed.sameDevices hr) (sparesOpenFiles_of_ne hop)

/-- Along a run every open file and every mapping refers to a live device, and no freed one
is used, exactly when every unregistration finds a device that nobody has open. -/
theorem open_files_live_iff (ops : List DeviceOp) :
    Throughout deviceStep DeviceSafe deviceInit ops ↔
      Guarded deviceStep SparesOpenFiles deviceInit ops := by
  have hinit : DeviceSafe deviceInit := ⟨by simp [deviceInit], rfl⟩
  have hinv : ∀ s op t, True → deviceStep s op = some t → True := fun _ _ _ _ _ => trivial
  apply throughout_iff_guarded hinv
  · intro s op t _ h hs
    exact deviceSafe_step_iff s op t h hs
  · trivial
  · exact hinit

/-- The order of `pop_mem_exit`: the card is unregistered while its node is open. -/
def unregThenClose : List DeviceOp :=
  [.ioctl cardEnv .p2pmemReg cardReg, .open cardEnv "0000:17:00.0".toList,
    .ioctl cardEnv .p2pmemUnreg cardReg, .close 0]

/-- The close uses the object that the unregistration freed. -/
theorem release_after_unreg_uses_freed_object :
    (exec deviceStep deviceInit unregThenClose).map
      (fun s => (s.registry.devList, s.registry.frees.length, s.staleUses)) = some ([], 1, [0]) ∧
    ¬Throughout deviceStep DeviceSafe deviceInit unregThenClose := by
  have hrun : (exec deviceStep deviceInit unregThenClose).map
      (fun s => (s.registry.devList, s.registry.frees.length, s.staleUses)) = some ([], 1, [0]) := by
    decide
  refine ⟨hrun, not_throughout_of_map hrun ?_⟩
  intro s hobs hsafe
  simp [hsafe.2] at hobs

end Libpop.Proofs
