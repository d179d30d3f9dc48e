import Mac802154.MrfIo.Theorems

namespace Mac802154

open Library

abbrev RegisterWrite := UInt16 × UInt8

-- What a register was last set to by a sequence of writes; it is not known
-- before the first one, nor after one that sets all registers anew.
def writtenLast (resets : RegisterWrite → Bool) (writes : List RegisterWrite) :
    UInt16 → Option UInt8 :=
  writes.foldl (fun known write => if resets write then fun _ => none
    else fun address => if address = write.1 then some write.2 else known address) fun _ => none

theorem writtenLast_append (resets : RegisterWrite → Bool) (writes : List RegisterWrite)
    (write : RegisterWrite) (address : UInt16) :
    writtenLast resets (writes ++ [write]) address =
      if resets write then none
      else if address = write.1 then some write.2 else writtenLast resets writes address := by
  simp only [writtenLast, List.foldl_append, List.foldl_cons, List.foldl_nil]
  split <;> rfl

theorem writtenLast_append_of_not_mem (resets : RegisterWrite → Bool)
    (writes more : List RegisterWrite) (address : UInt16)
    (h : ∀ write ∈ more, resets write = false ∧ address ≠ write.1) :
    writtenLast resets (writes ++ more) address = writtenLast resets writes address := by
  induction more using List.reverseRecOn with
  | nil => rw [List.append_nil]
  | append_singleton more write ih =>
      obtain ⟨hreset, hne⟩ := h write (List.mem_append_right _ List.mem_cons_self)
      rw [← List.append_assoc, writtenLast_append, hreset, if_neg Bool.false_ne_true, if_neg hne]
      exact ih fun w hw => h w (List.mem_append_left _ hw)

def Device.writeAll {σ : Type} (device : Device σ) (writes : List RegisterWrite) (s : σ) : σ :=
  writes.foldl (fun s write => device.write write.1 write.2 s) s

section Performs

variable {σ ε : Type} (device : Device σ) (occur : ε → σ → σ)

-- The program sets these registers, one after the other, and returns a result
-- with `R`: it keeps up whatever each of the writes keeps up, and is told
-- about the writes that came before.
def Performs {α : Type} (p : Driver α) (writes : List RegisterWrite) (R : α → Prop) : Prop :=
  ∀ (I : σ → Prop) (P : List RegisterWrite → σ → Prop),
    (∀ before s, P before s → I s) → (∀ before s e, P before s → P before (occur e s)) →
    (∀ before write s, write ∈ writes → P before s →
      P (before ++ [write]) (device.write write.1 write.2 s)) →
    ∀ before, (device.machine occur).Triple (OnDevice I) (OnDevice (P before)) p
      fun a => OnDevice fun s => P (before ++ writes) s ∧ R a

variable {device occur} {α β : Type} {R : α → Prop}

namespace Performs

theorem ret {a : α} (h : R a) : Performs device occur (.ret a) [] R := by
  intro I P hI _ _ before
  rw [List.append_nil]
  exact .ret (fun bus hbus => hI before bus.device hbus) fun bus hbus => ⟨hbus, h⟩

theorem mono {p : Driver α} {writes : List RegisterWrite} {R' : α → Prop}
    (hp : Performs device occur p writes R) (h : ∀ a, R a → R' a) :
    Performs device occur p writes R' :=
  fun I P hI hstable hwrite before => (hp I P hI hstable hwrite before).consequence
    (fun _ hbus => hbus) fun a _ hbus => ⟨hbus.1, h a hbus.2⟩

theorem bind {p : Driver α} {f : α → Driver β} {writes writes' : List RegisterWrite}
    {R' : β → Prop} (hp : Performs device occur p writes R)
    (hf : ∀ a, R a → Performs device occur (f a) writes' R') :
    Performs device occur (p.bind f) (writes ++ writes') R' := by
  intro I P hI hstable hwrite before
  refine (hp I P hI hstable (fun before write s hw => hwrite before write s
    (List.mem_append_left _ hw)) before).bind fun a => .lift fun ha => ?_
  rw [← List.append_assoc]
  exact hf a ha I P hI hstable (fun before write s hw => hwrite before write s
    (List.mem_append_right _ hw)) (before ++ writes)

theorem bind_cons {p : Driver α} {f : α → Driver β} {write : RegisterWrite}
    {writes : List RegisterWrite} {R' : β → Prop} (hp : Performs device occur p [write] R)
    (hf : ∀ a, R a → Performs device occur (f a) writes R') :
    Performs device occur (p.bind f) (write :: writes) R' :=
  hp.bind hf

-- What follows writes no registers.
theorem bind_nil {p : Driver α} {f : α → Driver β} {writes : List RegisterWrite} {R' : β → Prop}
    (hp : Performs device occur p writes R) (hf : ∀ a, R a → Performs device occur (f a) [] R') :
    Performs device occur (p.bind f) writes R' := by
  have := hp.bind hf
  rwa [List.append_nil] at this

theorem delay (amount : UInt16) {a : α} (h : R a) :
    Performs device occur (.perform (.delay_microseconds amount) fun _ => .ret a) [] R := by
  intro I P hI hstable _ before
  rw [List.append_nil]
  have hret (_ : Unit) : (device.machine occur).Triple (OnDevice I) (OnDevice (P before)) (.ret a)
      fun a => OnDevice fun s => P before s ∧ R a :=
    .ret (fun bus hbus => hI before bus.device hbus) fun bus hbus => ⟨hbus, h⟩
  exact .perform (fun bus hbus => hI before bus.device hbus) (OnDevice.stable (hstable before))
    (fun _ hbus => hbus) hret

theorem of_transacts {p : Driver α} {write : RegisterWrite}
    (h : ∀ (I : σ → Prop) s, I s → I (device.write write.1 write.2 s) →
      ∃ a, Transacts device occur I p s a (device.write write.1 write.2 s)) :
    Performs device occur p [write] fun _ => True := by
  intro I P hI hstable hwrite before
  refine Transacts.triple (hI before) (hstable before) fun s hs => ?_
  have hnext := hwrite before write s List.mem_cons_self hs
  obtain ⟨a, ha⟩ := h I s (hI before s hs) (hI _ _ hnext)
  exact ⟨a, _, ha, hnext, trivial⟩

theorem setControlRegister (mrf : MrfIo) (address : UInt16) (value : UInt8)
    (haddress : address.toNat < 1024) :
    Performs device occur (mrf.setControlRegister address value) [(address, value)] fun _ => True :=
  of_transacts fun _ _ hI hI' => MrfIo.setControlRegister_transacts device occur mrf address value haddress hI hI'

-- A register that may be read without any effect on the device.
theorem readControlRegister (mrf : MrfIo) (address : UInt16) (haddress : address.toNat < 1024)
    (hread : ∀ s, (device.read address s).2 = s) :
    Performs device occur (mrf.readControlRegister address) [] fun _ => True := by
  intro I P hI hstable _ before
  refine Transacts.triple (hI before) (hstable before) fun s hs => ?_
  have hnext : P before (device.read address s).2 := by rwa [hread]
  obtain ⟨io, hio⟩ := MrfIo.readControlRegister_transacts device occur mrf address haddress
    (hI before s hs) (hI before _ hnext)
  refine ⟨_, _, hio, ?_, trivial⟩
  rwa [List.append_nil]

theorem foldlM {f : β → α → Driver β} {writes : α → List RegisterWrite} (xs : List α)
    (h : ∀ x ∈ xs, ∀ b, Performs device occur (f b x) (writes x) fun _ => True) (b : β) :
    Performs device occur (xs.foldlM f b) (xs.flatMap writes) fun _ => True := by
  induction xs generalizing b with
  | nil => exact ret trivial
  | cons x xs ih =>
      rw [List.foldlM_cons, List.flatMap_cons]
      exact (h x List.mem_cons_self b).bind fun b' _ =>
        ih (fun y hy => h y (List.mem_cons_of_mem x hy)) b'

theorem writeBlockingToShortAddress (mrf : MrfIo) (payload : BytePointer) (size address : UInt8)
    (haddress : address.toNat + size.toNat ≤ 64) :
    Performs device occur (mrf.writeBlockingToShortAddress payload size address)
      ((List.range size.toNat).map fun i => (UInt16.ofNat (address.toNat + i), payload i))
      fun _ => True := by
  rw [← List.flatMap_pure_eq_map]
  refine foldlM _ (fun i hi mrf => of_transacts fun I s hI hI' => ?_) mrf
  have hi : i < size.toNat := List.mem_range.mp hi
  have hnat : (UInt16.ofNat (address.toNat + i)).toNat = address.toNat + i :=
    UInt16.toNat_ofNat_of_lt' (by unfold UInt16.size; omega)
  have hshort : isLongAddress (UInt16.ofNat (address.toNat + i)) = false := by
    have hlast : (0x3F : UInt16).toNat = 63 := rfl
    simp only [isLongAddress, gt_iff_lt, decide_eq_false_iff_not, UInt16.lt_iff_toNat_lt, hnat]
    omega
  have hwrite : device.write (UInt16.ofNat (address.toNat + i)) (payload i) s =
      device.writeShort (address.toNat + i) (payload i) s := by
    rw [Device.write, hshort, hnat]
    rfl
  rw [hwrite] at hI' ⊢
  exact MrfIo.writeShortByte_transacts device occur mrf payload address i (by omega) hI hI'

-- Undisturbed, the program has no other effect than its writes.
theorem returns {p : Driver α} {writes : List RegisterWrite}
    (hp : Performs device (fun e : Empty => e.elim) p writes R) (htame : p.Tame false)
    (bus : Bus σ) : ∃ ops a last, (device.machine occur).Returns p bus ops a last ∧
      last.device = device.writeAll writes bus.device ∧ R a := by
  obtain ⟨ops, a, last, hr⟩ := Machine.Returns.of_tame (M := device.machine fun e : Empty => e.elim)
    htame bus
  have htriple := hp (fun _ => True) (fun before s => s = device.writeAll before bus.device)
    (fun _ _ _ => trivial) (fun _ _ e => e.elim) (fun before write s _ hs => by
      rw [hs, Device.writeAll, Device.writeAll, List.foldl_append, List.foldl_cons, List.foldl_nil]) []
  obtain ⟨hlast, ha⟩ := hr.of_triple htriple rfl
  have he : (device.machine occur).perform = (device.machine fun e : Empty => e.elim).perform := rfl
  exact ⟨ops, a, last, hr.of_perform_eq he, hlast, ha⟩

end Performs

end Performs

end Mac802154
