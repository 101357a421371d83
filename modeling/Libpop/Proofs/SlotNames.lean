import Libpop.Context
import Libpop.Proofs.DeviceLifetime

/-!
# Names of PCI slots

A slot is written and read in three places: the library parses the name it is given and
prints the path of the node, the module prints the name of the node, and the open of the
node parses the last component of its path. All of them agree on every slot, although the
library reads a name without a domain only after a first scan has written to the fields.
-/

namespace Libpop.Proofs
open Scan Print

/-- The text of `%02x:%02x.%x`, a name without a domain. -/
def shortName (bus slot func : Nat) : List Char :=
  hexPad 2 bus ++ ':' :: (hexPad 2 slot ++ '.' :: hex func)

/-- The text of `%04x:%02x:%02x.%d`, which the kernel prints for `pci_name`. -/
def pciNameText (domain bus slot func : Nat) : List Char :=
  hexPad 4 domain ++ ':' :: (hexPad 2 bus ++ ':' :: (hexPad 2 slot ++ '.' :: dec func))

/-- The request for a slot. -/
def slotReg (domain bus slot func : Nat) (size : BitVec 64) : P2pmemReg :=
  ⟨.ofNat 32 domain, .ofNat 32 bus, .ofNat 32 slot, .ofNat 32 func, size⟩

/-! ### Reading -/

section Reading

variable {α : Type} {convert : List Char → Option (α × List Char)} {read : Nat → α}
  {domain bus slot func : Nat}

/-- The conversion reads back a printed number, up to what may stand in an `int`. -/
def ReadsBack (convert : List Char → Option (α × List Char)) (read : Nat → α) : Prop :=
  ∀ width n, n < 2 ^ 32 → ∀ rest, Stops rest → convert (hexPad width n ++ rest) = some (read n, rest)

lemma readsBack_kernelHex : ReadsBack kernelHex id :=
  fun width n _ _ h => kernelHex_hexPad width n h

lemma readsBack_scanUl : ReadsBack scanUl (BitVec.ofNat 64) :=
  fun width _ hn _ h => scanUl_hexPad width (by omega) h

variable (h : ReadsBack convert read) (hb : bus < 2 ^ 32) (hs : slot < 2 ^ 32)

include h

lemma ReadsBack.hex {n : Nat} (hn : n < 2 ^ 32) : convert (hex n) = some (read n, []) := by
  simpa using h 0 n hn [] stops_nil

include hb hs

lemma sscanf_slotName (hd : domain < 2 ^ 32) (hf : func < 2 ^ 32) :
    sscanf convert fullSlot (slotName domain bus slot func) =
      [read domain, read bus, read slot, read func] := by
  simp [fullSlot, slotName, sscanf, h 4 domain hd _ (stops_colon _), h 2 bus hb _ (stops_colon _),
    h 2 slot hs _ (stops_dot _), h.hex hf]

/-- The scan for a full name takes the bus for the domain and the slot for the bus, and then
meets the dot. -/
lemma sscanf_full_shortName :
    sscanf convert fullSlot (shortName bus slot func) = [read bus, read slot] := by
  simp [fullSlot, shortName, sscanf, h 2 bus hb _ (stops_colon _), h 2 slot hs _ (stops_dot _)]

lemma sscanf_shortName (hf : func < 2 ^ 32) :
    sscanf convert shortSlot (shortName bus slot func) = [read bus, read slot, read func] := by
  simp [shortSlot, shortName, sscanf, h 2 bus hb _ (stops_colon _), h 2 slot hs _ (stops_dot _),
    h.hex hf]

end Reading

section Parse

variable (reg : P2pmemReg) {domain bus slot func : Nat} (hb : bus < 2 ^ 32) (hs : slot < 2 ^ 32)
  (hf : func < 2 ^ 32)

include hb hs hf

lemma parseSlot_slotName (hd : domain < 2 ^ 32) :
    parseSlot reg (slotName domain bus slot func) =
      some (slotReg domain bus slot func reg.size) := by
  simp [parseSlot, sscanf_slotName readsBack_scanUl hb hs hd hf, scannedInt, slotReg,
    BitVec.setWidth_ofNat_of_le]

lemma parseSlot_shortName :
    parseSlot reg (shortName bus slot func) = some (slotReg 0 bus slot func reg.size) := by
  simp [parseSlot, sscanf_full_shortName readsBack_scanUl hb hs,
    sscanf_shortName readsBack_scanUl hb hs hf, scannedInt, slotReg, BitVec.setWidth_ofNat_of_le]

end Parse

/-! ### Writing -/

lemma length_slotName_le {domain bus slot func : Nat} (hd : domain < 2 ^ 31) (hb : bus ≤ 255)
    (hs : slot ≤ 31) (hf : func ≤ 7) : (slotName domain bus slot func).length ≤ 16 := by
  have hld : (hexPad 4 domain).length ≤ 8 := length_hexPad_le (by decide) (by decide) (by omega)
  have hlb : (hexPad 2 bus).length ≤ 2 := length_hexPad_le (by decide) (by decide) (by omega)
  have hls : (hexPad 2 slot).length ≤ 2 := length_hexPad_le (by decide) (by decide) (by omega)
  have hlf : (hex func).length ≤ 1 := length_hex_le (by decide) (by omega)
  simp only [slotName, List.length_append, List.length_cons]
  omega

lemma pciNameText_eq {func : Nat} (hf : func ≤ 7) (domain bus slot : Nat) :
    pciNameText domain bus slot func = slotName domain bus slot func := by
  rw [pciNameText, dec_eq_hex (by omega), slotName]

lemma notMem_slash_slotName (domain bus slot func : Nat) :
    ∀ c ∈ slotName domain bus slot func, c ≠ '/' := by
  rintro c hc rfl
  have hv : ∀ width n, '/' ∉ hexPad width n :=
    fun width n h => absurd (mem_hexPad_isSome h) (by decide)
  have hx : '/' ∉ hex func := fun h => absurd (mem_hex_isSome h) (by decide)
  simp [slotName, hv, hx] at hc

lemma lastComponent_append {name : List Char} (h : ∀ c ∈ name, c ≠ '/') :
    lastComponent ("/dev/pop/".toList ++ name) = name := by
  rw [lastComponent, List.rtakeWhile, List.reverse_append,
    List.takeWhile_append_of_pos (by simpa using h)]
  simp

/-- The path fits its buffer, so it ends in the name of the slot. -/
lemma popdevPath_eq {domain bus slot func : Nat} (hd : domain < 2 ^ 31) (hb : bus ≤ 255)
    (hs : slot ≤ 31) (hf : func ≤ 7) (size : BitVec 64) :
    popdevPath (slotReg domain bus slot func size) =
      "/dev/pop/".toList ++ slotName domain bus slot func := by
  have hl := length_slotName_le hd hb hs hf
  simp only [popdevPath, slotReg, BitVec.toNat_ofNat]
  rw [Nat.mod_eq_of_lt (by omega), Nat.mod_eq_of_lt (by omega), Nat.mod_eq_of_lt (by omega),
    Nat.mod_eq_of_lt (by omega), snprintf_of_length_lt]
  have h9 : "/dev/pop/".toList.length = 9 := by decide
  rw [List.length_append, h9, popdevLen]
  omega

/-! ### Agreement -/

/-- Every device that a registration adds has the name that the kernel has for it. -/
lemma devname_reg (env : KernelEnv) (r : Registry) (reg : P2pmemReg) :
    ∀ ppdev ∈ (popIoctl env r .p2pmemReg reg).registry.devList, ppdev ∈ r.devList ∨
      ∃ pdev, env.lookup reg = some pdev ∧
        ppdev.devname = ("pop/".toList ++ env.pciName pdev).take (devnamelen - 1) := by
  intro ppdev hm
  rcases devList_reg env r reg with ⟨he, -⟩ | ⟨pdev, p2pmem, hreg, he⟩
  · exact .inl (he ▸ hm)
  · rw [he, List.mem_append, List.mem_singleton] at hm
    rcases hm with hm | rfl
    · exact .inl hm
    · exact .inr ⟨pdev, hreg.found, rfl⟩

lemma popDevOpen_slotName (env : KernelEnv) (r : Registry) {domain bus slot func : Nat}
    (hd : domain < 2 ^ 32) (hb : bus < 2 ^ 32) (hs : slot < 2 ^ 32) (hf : func < 2 ^ 32)
    (size : BitVec 64) :
    (popDevOpen env r (slotName domain bus slot func)).privateData =
      ((env.lookup (slotReg domain bus slot func size)).bind (popFindDev r)).map PopDev.id := by
  rw [popDevOpen, sscanf_slotName readsBack_kernelHex hb hs hd hf]
  simp only [popFindDevByBusAndSlot, KernelEnv.lookup, slotReg, id]
  cases env.pciGetDomainBusAndSlot (.ofNat 32 domain) (.ofNat 32 bus)
      (pciDevfn (.ofNat 32 slot) (.ofNat 32 func)) with
  | none => rfl
  | some pdev =>
    have hf : popFindDev (r.pciDevGet pdev) pdev = popFindDev r pdev := rfl
    simp only [hf, Option.bind_some]
    cases popFindDev r pdev <;> rfl

/-- For every slot: both names parse to it, the path that is then built is the node the
module makes for it, with neither text cut, and the open of that node goes to the device
that the ioctl looks up. -/
theorem slot_names_agree (domain bus slot func : Nat) (hd : domain < 2 ^ 31) (hb : bus ≤ 255)
    (hs : slot ≤ 31) (hf : func ≤ 7) (size : BitVec 64) :
    (∀ reg : P2pmemReg, reg.size = size →
      parseSlot reg (slotName domain bus slot func) = some (slotReg domain bus slot func size) ∧
        (domain = 0 →
          parseSlot reg (shortName bus slot func) = some (slotReg domain bus slot func size))) ∧
    (∀ (env : KernelEnv) (r : Registry),
      (∀ pdev, env.lookup (slotReg domain bus slot func size) = some pdev →
        env.pciName pdev = pciNameText domain bus slot func) →
      ∀ ppdev ∈ (popIoctl env r .p2pmemReg (slotReg domain bus slot func size)).registry.devList,
        ppdev ∉ r.devList →
          popdevPath (slotReg domain bus slot func size) = "/dev/".toList ++ ppdev.devname ∧
            ppdev.devname = "pop/".toList ++ slotName domain bus slot func) ∧
    ∀ (env : KernelEnv) (r : Registry),
      (popDevOpen env r
        (lastComponent (popdevPath (slotReg domain bus slot func size)))).privateData =
          ((env.lookup (slotReg domain bus slot func size)).bind (popFindDev r)).map PopDev.id := by
  have hpath := popdevPath_eq hd hb hs hf size
  have hd' : domain < 2 ^ 32 := by omega
  have hb' : bus < 2 ^ 32 := by omega
  have hs' : slot < 2 ^ 32 := by omega
  have hf' : func < 2 ^ 32 := by omega
  refine ⟨?_, ?_, ?_⟩
  · rintro reg rfl
    refine ⟨parseSlot_slotName reg hb' hs' hf' hd', ?_⟩
    rintro rfl
    exact parseSlot_shortName reg hb' hs' hf'
  · intro env r hname ppdev hm hnew
    obtain ⟨pdev, hl, hdev⟩ := (devname_reg env r _ ppdev hm).resolve_left hnew
    have hlen := length_slotName_le hd hb hs hf
    have h4 : "pop/".toList.length = 4 := by decide
    have hcut : ppdev.devname = "pop/".toList ++ slotName domain bus slot func := by
      rw [hdev, hname pdev hl, pciNameText_eq hf]
      apply List.take_of_length_le
      rw [List.length_append, h4, devnamelen]
      omega
    refine ⟨?_, hcut⟩
    rw [hpath, hcut, ← List.append_assoc]
    congr 1
  · intro env r
    rw [hpath, lastComponent_append (notMem_slash_slotName domain bus slot func)]
    exact popDevOpen_slotName env r hd' hb' hs' hf' size

/-- The card of the concrete runs, asked for under its short name and registered. -/
theorem slot_names_agree_card :
    parseSlot zeroReg (shortName 0x17 0 0) = some cardReg ∧
      (∀ ppdev ∈ (popIoctl cardEnv popInit .p2pmemReg cardReg).registry.devList,
        popdevPath cardReg = "/dev/".toList ++ ppdev.devname) ∧
      (popDevOpen cardEnv (popIoctl cardEnv popInit .p2pmemReg cardReg).registry
        (lastComponent (popdevPath cardReg))).privateData = some 0 := by
  have h := slot_names_agree 0 0x17 0 0 (by decide) (by decide) (by decide) (by decide) 0
  refine ⟨(h.1 zeroReg rfl).2 rfl, ?_, ?_⟩
  · intro ppdev hm
    exact (h.2.1 cardEnv popInit (fun _ _ => rfl) ppdev hm (by simp [popInit])).1
  · exact h.2.2 cardEnv _

end Libpop.Proofs
