import Mac802154.MrfIo
import Mac802154.Library.Program.Rules

namespace Mac802154

open Library

namespace Device

variable {σ ε : Type} (device : Device σ)

-- A register access as the driver means it.
def write (address : UInt16) (value : UInt8) (s : σ) : σ :=
  if isLongAddress address then device.writeLong address.toNat value s
  else device.writeShort address.toNat value s

def read (address : UInt16) (s : σ) : UInt8 × σ :=
  if isLongAddress address then device.readLong address.toNat s
  else device.readShort address.toNat s

-- The four commands, for every address that fits into them.
private theorem decode_short : ∀ address < 64,
    (MRF_writeShortCommand (UInt8.ofNat address) < 0x80 ∧
      ((MRF_writeShortCommand (UInt8.ofNat address) >>> 1) &&& 0x3F).toNat = address ∧
      MRF_writeShortCommand (UInt8.ofNat address) &&& 1 = 1) ∧
    (MRF_readShortCommand (UInt8.ofNat address) < 0x80 ∧
      ((MRF_readShortCommand (UInt8.ofNat address) >>> 1) &&& 0x3F).toNat = address ∧
      ¬MRF_readShortCommand (UInt8.ofNat address) &&& 1 = 1) := by
  decide +kernel

private def longWord (first second : UInt8) : UInt16 :=
  first.toUInt16 <<< 8 ||| second.toUInt16

private theorem decode_long : ∀ address < 1024,
    (¬MRF_writeLongCommandFirstByte (UInt16.ofNat address) < 0x80 ∧
      ((longWord (MRF_writeLongCommandFirstByte (UInt16.ofNat address))
        (MRF_writeLongCommandSecondByte (UInt16.ofNat address)) >>> 5) &&& 0x3FF).toNat = address ∧
      longWord (MRF_writeLongCommandFirstByte (UInt16.ofNat address))
        (MRF_writeLongCommandSecondByte (UInt16.ofNat address)) &&& 0x10 = 0x10) ∧
    (¬MRF_readLongCommandFirstByte (UInt16.ofNat address) < 0x80 ∧
      ((longWord (MRF_readLongCommandFirstByte (UInt16.ofNat address))
        (MRF_readLongCommandSecondByte (UInt16.ofNat address)) >>> 5) &&& 0x3FF).toNat = address ∧
      ¬longWord (MRF_readLongCommandFirstByte (UInt16.ofNat address))
        (MRF_readLongCommandSecondByte (UInt16.ofNat address)) &&& 0x10 = 0x10) := by
  decide +kernel

variable (s : σ)

theorem receive_writeShortCommand (address : Nat) (h : address < 64) :
    device.receiveByte ⟨.command, s⟩ (MRF_writeShortCommand (UInt8.ofNat address)) =
      ⟨.shortWrite address, s⟩ := by
  obtain ⟨⟨hshort, haddress, hwrite⟩, -⟩ := decode_short address h
  simp only [receiveByte, hshort, haddress, hwrite, ite_true]

theorem receive_readShortCommand (address : Nat) (h : address < 64) :
    device.receiveByte ⟨.command, s⟩ (MRF_readShortCommand (UInt8.ofNat address)) =
      ⟨.shortRead address, s⟩ := by
  obtain ⟨-, hshort, haddress, hread⟩ := decode_short address h
  simp only [receiveByte, hshort, haddress, hread, ite_true, ite_false]

theorem receive_writeLongCommand (address : Nat) (h : address < 1024) :
    [MRF_writeLongCommandFirstByte (UInt16.ofNat address),
      MRF_writeLongCommandSecondByte (UInt16.ofNat address)].foldl device.receiveByte
        ⟨.command, s⟩ = ⟨.longWrite address, s⟩ := by
  obtain ⟨⟨hlong, haddress, hwrite⟩, -⟩ := decode_long address h
  simp only [longWord] at haddress hwrite
  simp only [List.foldl_cons, List.foldl_nil, receiveByte, hlong, haddress, hwrite, ite_true,
    ite_false]

theorem receive_readLongCommand (address : Nat) (h : address < 1024) :
    [MRF_readLongCommandFirstByte (UInt16.ofNat address),
      MRF_readLongCommandSecondByte (UInt16.ofNat address)].foldl device.receiveByte
        ⟨.command, s⟩ = ⟨.longRead address, s⟩ := by
  obtain ⟨-, hlong, haddress, hread⟩ := decode_long address h
  simp only [longWord] at haddress hread
  simp only [List.foldl_cons, List.foldl_nil, receiveByte, hlong, haddress, hread, ite_false]

theorem receive_longWrite (address : Nat) (bytes : List UInt8) :
    bytes.foldl device.receiveByte ⟨.longWrite address, s⟩ =
      ⟨.longWrite (address + bytes.length), device.writeLongs address bytes s⟩ := by
  induction bytes generalizing address s with
  | nil => rfl
  | cons byte bytes ih =>
      rw [List.foldl_cons, receiveByte, ih, List.length_cons, writeLongs]
      congr 2
      omega

theorem transmit_longRead (address n : Nat) :
    device.transmitBytes n ⟨.longRead address, s⟩ =
      ((device.readLongs address n s).1,
        ⟨.longRead (address + n), (device.readLongs address n s).2⟩) := by
  induction n generalizing address s with
  | zero => rfl
  | succ n ih =>
      simp only [transmitBytes, transmitByte, readLongs, ih]
      congr 3
      omega

end Device

section Transactions

variable {σ ε : Type} (device : Device σ) (occur : ε → σ → σ) (I : σ → Prop)

-- One transaction: it selects the device, ends with it deselected, and takes
-- the device from `s` to `s'` in between.
def Transacts {α : Type} (p : Driver α) (s : σ) (a : α) (s' : σ) : Prop :=
  ∃ next ops, p = .perform .selectPeripheral next ∧
    PeripheralOp.Transaction (.selectPeripheral :: ops) ∧
    (device.machine occur).Atomic (fun bus => I bus.device) (next ()) ⟨.command, s⟩ ops a
      ⟨.deselected, s'⟩

variable {device occur I}

theorem writeBlockingWithCommand_transacts (mrf : MrfIo) (payload : BytePointer) (size : UInt8)
    {s s' : σ} {phase last : Phase}
    (hcommand : mrf.commandBytes.foldl device.receiveByte ⟨.command, s⟩ = ⟨phase, s⟩)
    (hpayload : (payload.bytes size).foldl device.receiveByte ⟨phase, s⟩ = ⟨last, s'⟩)
    (hphase : phase ≠ .deselected) (hlast : last ≠ .deselected) (hI : I s) (hI' : I s') :
    Transacts device occur I (mrf.writeBlockingWithCommand payload size) s () s' := by
  refine ⟨_, _, rfl, .write mrf.commandBytes (payload.bytes size), ?_⟩
  refine .perform rfl hI ?_
  simp only [Device.machine, Device.perform, hcommand]
  refine .perform (by simpa using hphase) hI ?_
  simp only [Device.perform, hpayload]
  refine .perform (by simpa using hlast) hI' ?_
  exact .ret () _ hI'

theorem readBlockingWithCommand_transacts (mrf : MrfIo) (size : UInt8) {s s' : σ}
    {phase last : Phase} {payload : List UInt8}
    (hcommand : mrf.commandBytes.foldl device.receiveByte ⟨.command, s⟩ = ⟨phase, s⟩)
    (hpayload : device.transmitBytes size.toNat ⟨phase, s⟩ = (payload, ⟨last, s'⟩))
    (hphase : phase ≠ .deselected) (hlast : last ≠ .deselected) (hI : I s) (hI' : I s') :
    Transacts device occur I (mrf.readBlockingWithCommand size) s payload s' := by
  refine ⟨_, _, rfl, .read mrf.commandBytes size, ?_⟩
  refine .perform rfl hI ?_
  simp only [Device.machine, Device.perform, hcommand]
  refine .perform (by simpa using hphase) hI ?_
  simp only [Device.perform, hpayload]
  refine .perform (by simpa using hlast) hI' ?_
  exact .ret payload _ hI'

theorem Transacts.map {α β : Type} {p : Driver α} {s s' : σ} {a : α}
    (h : Transacts device occur I p s a s') (f : α → β) :
    Transacts device occur I (p.bind fun a => .ret (f a)) s (f a) s' := by
  obtain ⟨next, ops, rfl, ht, hatomic⟩ := h
  refine ⟨_, ops, rfl, ht, ?_⟩
  have := hatomic.bind (f := fun a => .ret (f a)) (.ret (f a) _ hatomic.finish)
  rwa [List.append_nil] at this

-- Selecting the device starts anew, however far it was.
theorem Transacts.returns {α : Type} {p : Driver α} {s s' : σ} {a : α}
    (h : Transacts device occur I p s a s') (phase : Phase) :
    ∃ ops, PeripheralOp.Transaction ops ∧
      (device.machine occur).Returns p ⟨phase, s⟩ ops a ⟨.deselected, s'⟩ := by
  obtain ⟨next, ops, rfl, ht, hatomic⟩ := h
  exact ⟨_, ht, .perform hatomic.returns⟩

-- A predicate of the device, however far it is with a transaction.
def OnDevice (P : σ → Prop) (bus : Bus σ) : Prop :=
  P bus.device

theorem OnDevice.stable {P : σ → Prop} (h : ∀ s e, P s → P (occur e s)) :
    (device.machine occur).Stable (OnDevice P) :=
  fun bus e hbus _ => h bus.device e hbus

-- What no access to the address spaces takes away.
structure Device.Keeps (device : Device σ) (P : σ → Prop) : Prop where
  readShort : ∀ address s, P s → P (device.readShort address s).2
  writeShort : ∀ address value s, P s → P (device.writeShort address value s)
  readLong : ∀ address s, P s → P (device.readLong address s).2
  writeLong : ∀ address value s, P s → P (device.writeLong address value s)

namespace Device.Keeps

variable {P : σ → Prop} (h : device.Keeps P)

include h

private theorem receiveByte (byte : UInt8) (bus : Bus σ) (hs : P bus.device) :
    P (device.receiveByte bus byte).device := by
  obtain ⟨phase, s⟩ := bus
  cases phase with
  | command =>
      simp only [Device.receiveByte]
      split <;> exact hs
  | shortWrite address => exact h.writeShort address byte s hs
  | longWrite address => exact h.writeLong address byte s hs
  | _ => exact hs

private theorem transmitBytes (n : Nat) (bus : Bus σ) (hs : P bus.device) :
    P (device.transmitBytes n bus).2.device := by
  induction n generalizing bus with
  | zero => exact hs
  | succ n ih =>
      obtain ⟨phase, s⟩ := bus
      cases phase with
      | shortRead address => exact ih ⟨.finished, _⟩ (h.readShort address s hs)
      | longRead address => exact ih ⟨.longRead (address + 1), _⟩ (h.readLong address s hs)
      | _ => exact ih ⟨_, s⟩ hs

-- Then no operation takes it away.
theorem perform (op : PeripheralOp) (bus : Bus σ) (hs : OnDevice P bus) :
    OnDevice P (device.perform op bus).2 := by
  cases op with
  | writeBlocking bytes =>
      simp only [Device.perform]
      induction bytes generalizing bus with
      | nil => exact hs
      | cons byte bytes ih => exact ih _ (h.receiveByte byte bus hs)
  | readBlocking size => exact h.transmitBytes size.toNat bus hs
  | _ => exact hs

end Device.Keeps

theorem Transacts.triple {α : Type} {p : Driver α} {P : σ → Prop} {Q : α → σ → Prop}
    (hI : ∀ s, P s → I s) (hstable : ∀ s e, P s → P (occur e s))
    (h : ∀ s, P s → ∃ a s', Transacts device occur I p s a s' ∧ Q a s') :
    (device.machine occur).Triple (OnDevice I) (OnDevice P) p fun a => OnDevice (Q a) := by
  by_cases hp : ∃ s, P s
  · obtain ⟨s, hs⟩ := hp
    obtain ⟨-, -, ⟨next, -, rfl, -⟩, -⟩ := h s hs
    refine Machine.Triple.transaction (fun bus hbus => hI bus.device hbus) (OnDevice.stable hstable) ?_
    rintro ⟨phase, s⟩ hs
    obtain ⟨a, s', ⟨next', ops, hnext, -, hatomic⟩, hq⟩ := h s hs
    cases hnext
    exact ⟨ops, a, _, hatomic, hq⟩
  · exact fun bus hbus => absurd ⟨bus.device, hbus⟩ hp

end Transactions

namespace MrfIo

theorem commandBytes_setWriteLongCommand (mrf : MrfIo) (address : UInt16) :
    (mrf.setWriteLongCommand address).commandBytes =
      [MRF_writeLongCommandFirstByte address, MRF_writeLongCommandSecondByte address] := by
  obtain ⟨⟨⟨list⟩, hlist⟩, command_size⟩ := mrf
  match list, hlist with
  | [a, b], _ => rfl

theorem commandBytes_setReadLongCommand (mrf : MrfIo) (address : UInt16) :
    (mrf.setReadLongCommand address).commandBytes =
      [MRF_readLongCommandFirstByte address, MRF_readLongCommandSecondByte address] := by
  obtain ⟨⟨⟨list⟩, hlist⟩, command_size⟩ := mrf
  match list, hlist with
  | [a, b], _ => rfl

theorem commandBytes_setWriteShortCommand (mrf : MrfIo) (address : UInt8) :
    (mrf.setWriteShortCommand address).commandBytes = [MRF_writeShortCommand address] := by
  obtain ⟨⟨⟨list⟩, hlist⟩, command_size⟩ := mrf
  match list, hlist with
  | [a, b], _ => rfl

theorem commandBytes_setReadShortCommand (mrf : MrfIo) (address : UInt8) :
    (mrf.setReadShortCommand address).commandBytes = [MRF_readShortCommand address] := by
  obtain ⟨⟨⟨list⟩, hlist⟩, command_size⟩ := mrf
  match list, hlist with
  | [a, b], _ => rfl

section Operations

variable {σ ε : Type} (device : Device σ) (occur : ε → σ → σ) {I : σ → Prop} {s : σ}

theorem writeBlockingToLongAddress_transacts (mrf : MrfIo) (payload : BytePointer) (size : UInt8)
    (address : UInt16) (haddress : address.toNat < 1024) (hI : I s)
    (hI' : I (device.writeLongs address.toNat (payload.bytes size) s)) :
    Transacts device occur I (mrf.writeBlockingToLongAddress payload size address) s
      (mrf.setWriteLongCommand address)
      (device.writeLongs address.toNat (payload.bytes size) s) := by
  have hcommand := Device.receive_writeLongCommand device s address.toNat haddress
  rw [UInt16.ofNat_toNat, ← commandBytes_setWriteLongCommand mrf] at hcommand
  exact (writeBlockingWithCommand_transacts (mrf.setWriteLongCommand address) payload size hcommand
    (Device.receive_longWrite device s address.toNat (payload.bytes size)) (by simp) (by simp) hI hI').map
    fun _ => mrf.setWriteLongCommand address

theorem readBlockingFromLongAddress_transacts (mrf : MrfIo) (register_address : UInt16)
    (length : UInt8) (haddress : register_address.toNat < 1024) (hI : I s)
    (hI' : I (device.readLongs register_address.toNat length.toNat s).2) :
    Transacts device occur I (mrf.readBlockingFromLongAddress register_address length) s
      (mrf.setReadLongCommand register_address,
        (device.readLongs register_address.toNat length.toNat s).1)
      (device.readLongs register_address.toNat length.toNat s).2 := by
  have hcommand := Device.receive_readLongCommand device s register_address.toNat haddress
  rw [UInt16.ofNat_toNat, ← commandBytes_setReadLongCommand mrf] at hcommand
  exact (readBlockingWithCommand_transacts (mrf.setReadLongCommand register_address) length hcommand
    (Device.transmit_longRead device s register_address.toNat length.toNat) (by simp) (by simp) hI hI').map
    fun buffer => (mrf.setReadLongCommand register_address, buffer)

private theorem lt_of_not_isLongAddress {address : UInt16} (h : ¬isLongAddress address) :
    address.toNat < 64 := by
  simp only [isLongAddress, gt_iff_lt, decide_eq_true_eq, UInt16.lt_iff_toNat_lt] at h
  have hlast : (0x3F : UInt16).toNat = 63 := rfl
  omega

private theorem bytes_one (payload : BytePointer) : payload.bytes 1 = [payload 0] := rfl

private theorem toUInt8_eq_ofNat (address : UInt16) : address.toUInt8 = UInt8.ofNat address.toNat := by
  apply UInt8.toNat_inj.mp
  simp

theorem writeShort_transacts (mrf : MrfIo) (payload : BytePointer) (address : Nat)
    (haddress : address < 64) (hI : I s) (hI' : I (device.writeShort address (payload 0) s)) :
    Transacts device occur I
      ((mrf.setWriteShortCommand (UInt8.ofNat address)).writeBlockingWithCommand payload 1) s ()
      (device.writeShort address (payload 0) s) := by
  have hcommand : ((mrf.setWriteShortCommand (UInt8.ofNat address)).commandBytes).foldl
      device.receiveByte ⟨.command, s⟩ = ⟨.shortWrite address, s⟩ := by
    rw [commandBytes_setWriteShortCommand, List.foldl_cons,
      Device.receive_writeShortCommand device s address haddress]
    rfl
  have hpayload : (payload.bytes 1).foldl device.receiveByte ⟨.shortWrite address, s⟩ =
      ⟨.finished, device.writeShort address (payload 0) s⟩ := by
    rw [bytes_one]
    rfl
  exact writeBlockingWithCommand_transacts _ payload 1 hcommand hpayload (by simp) (by simp) hI hI'

theorem setControlRegister_transacts (mrf : MrfIo) (address : UInt16) (value : UInt8)
    (haddress : address.toNat < 1024) (hI : I s) (hI' : I (device.write address value s)) :
    ∃ mrf', Transacts device occur I (mrf.setControlRegister address value) s mrf'
      (device.write address value s) := by
  unfold Device.write at hI' ⊢
  unfold setControlRegister
  split at hI'
  · rename_i hlong
    have hcommand := Device.receive_writeLongCommand device s address.toNat haddress
    rw [UInt16.ofNat_toNat, ← commandBytes_setWriteLongCommand mrf] at hcommand
    simp only [hlong, ite_true]
    exact ⟨_, (writeBlockingWithCommand_transacts (mrf.setWriteLongCommand address) (fun _ => value) 1
      hcommand (Device.receive_longWrite device s address.toNat [value]) (by simp) (by simp) hI hI').map
      fun _ => mrf.setWriteLongCommand address⟩
  · rename_i hshort
    have hwrite := writeShort_transacts device occur mrf (fun _ => value)
      address.toNat (lt_of_not_isLongAddress hshort) hI hI'
    rw [← toUInt8_eq_ofNat] at hwrite
    simp only [hshort]
    exact ⟨_, hwrite.map fun _ => mrf.setWriteShortCommand address.toUInt8⟩

theorem readControlRegister_transacts (mrf : MrfIo) (address : UInt16)
    (haddress : address.toNat < 1024) (hI : I s) (hI' : I (device.read address s).2) :
    ∃ mrf', Transacts device occur I (mrf.readControlRegister address) s
      (mrf', (device.read address s).1) (device.read address s).2 := by
  unfold Device.read at hI' ⊢
  unfold readControlRegister
  split at hI'
  · rename_i hlong
    have hcommand := Device.receive_readLongCommand device s address.toNat haddress
    rw [UInt16.ofNat_toNat, ← commandBytes_setReadLongCommand mrf] at hcommand
    simp only [hlong, ite_true]
    exact ⟨_, (readBlockingWithCommand_transacts (mrf.setReadLongCommand address) 1 hcommand
      (Device.transmit_longRead device s address.toNat 1) (by simp) (by simp) hI hI').map
      fun value => (mrf.setReadLongCommand address, value.headD 0)⟩
  · rename_i hshort
    have hdecode := Device.receive_readShortCommand device s address.toNat
      (lt_of_not_isLongAddress hshort)
    rw [← toUInt8_eq_ofNat] at hdecode
    have hcommand : ((mrf.setReadShortCommand address.toUInt8).commandBytes).foldl
        device.receiveByte ⟨.command, s⟩ = ⟨.shortRead address.toNat, s⟩ := by
      rw [commandBytes_setReadShortCommand, List.foldl_cons, hdecode]
      rfl
    have hpayload : device.transmitBytes (1 : UInt8).toNat ⟨.shortRead address.toNat, s⟩ =
        ([(device.readShort address.toNat s).1],
          ⟨.finished, (device.readShort address.toNat s).2⟩) := rfl
    simp only [hshort]
    exact ⟨mrf.setReadShortCommand address.toUInt8,
      (readBlockingWithCommand_transacts (mrf.setReadShortCommand address.toUInt8) 1 hcommand
        hpayload (by simp) (by simp) hI hI').map
      fun value => (mrf.setReadShortCommand address.toUInt8, value.headD 0)⟩

theorem writeShortByte_transacts (mrf : MrfIo) (payload : BytePointer) (address : UInt8) (i : Nat)
    (haddress : address.toNat + i < 64) (hI : I s)
    (hI' : I (device.writeShort (address.toNat + i) (payload i) s)) :
    ∃ mrf', Transacts device occur I (writeShortByte payload address mrf i) s mrf'
      (device.writeShort (address.toNat + i) (payload i) s) := by
  have hbyte : address + UInt8.ofNat i = UInt8.ofNat (address.toNat + i) := by
    rw [UInt8.ofNat_add, UInt8.ofNat_toNat]
  have hwrite := writeShort_transacts device occur mrf
    (fun j => payload (i + j)) (address.toNat + i) haddress hI hI'
  rw [← hbyte] at hwrite
  exact ⟨_, hwrite.map fun _ => mrf.setWriteShortCommand (address + UInt8.ofNat i)⟩

-- The induction is on the number of bytes left; the loop has written `i`.
private theorem writeShortBytes_returns (payload : BytePointer) (address : UInt8) (n i : Nat)
    (haddress : address.toNat + i + n ≤ 64) (mrf : MrfIo) (s : σ) :
    ∃ ops mrf', PeripheralOp.Transactions ops ∧ (device.machine occur).Returns
      ((List.range' i n).foldlM (writeShortByte payload address) mrf) ⟨.deselected, s⟩ ops mrf'
      ⟨.deselected, device.writeShorts (address.toNat + i) ((List.range' i n).map payload) s⟩ := by
  induction n generalizing i mrf s with
  | zero => exact ⟨[], mrf, .nil, .ret mrf _⟩
  | succ n ih =>
      obtain ⟨mrf', hbyte⟩ := writeShortByte_transacts device occur
        (I := fun _ => True) (s := s) mrf payload address i (by omega) trivial trivial
      obtain ⟨ops, ht, hr⟩ := hbyte.returns .deselected
      obtain ⟨ops', mrf'', ht', hr'⟩ := ih (i + 1) (by omega) mrf'
        (device.writeShort (address.toNat + i) (payload i) s)
      exact ⟨ops ++ ops', mrf'', .append ht ht', hr.bind hr'⟩

theorem writeBlockingToShortAddress_returns (mrf : MrfIo) (payload : BytePointer)
    (size address : UInt8) (haddress : address.toNat + size.toNat ≤ 64) (s : σ) :
    ∃ ops mrf', PeripheralOp.Transactions ops ∧ (device.machine occur).Returns
      (mrf.writeBlockingToShortAddress payload size address) ⟨.deselected, s⟩ ops mrf'
      ⟨.deselected, device.writeShorts address.toNat (payload.bytes size) s⟩ := by
  have h := writeShortBytes_returns device occur payload address size.toNat 0 (by omega) mrf s
  rwa [← List.range_eq_range'] at h

end Operations

section Tame

variable {loops : Bool}

theorem writeBlockingWithCommand_tame (mrf : MrfIo) (payload : BytePointer) (size : UInt8) :
    (mrf.writeBlockingWithCommand payload size).Tame loops :=
  .perform fun _ => .perform fun _ => .perform fun _ => .perform fun _ => .ret ()

theorem writeBlockingToLongAddress_tame (mrf : MrfIo) (payload : BytePointer) (size : UInt8)
    (address : UInt16) : (mrf.writeBlockingToLongAddress payload size address).Tame loops :=
  (writeBlockingWithCommand_tame _ payload size).bind fun _ => .ret _

theorem writeBlockingToShortAddress_tame (mrf : MrfIo) (payload : BytePointer)
    (size address : UInt8) : (mrf.writeBlockingToShortAddress payload size address).Tame loops :=
  Program.Tame.foldlM (fun _ _ => (writeBlockingWithCommand_tame _ _ 1).bind fun _ => .ret _) _ mrf

theorem setControlRegister_tame (mrf : MrfIo) (address : UInt16) (value : UInt8) :
    (mrf.setControlRegister address value).Tame loops :=
  (writeBlockingWithCommand_tame _ _ 1).bind fun _ => .ret _

theorem readControlRegister_tame (mrf : MrfIo) (address : UInt16) :
    (mrf.readControlRegister address).Tame loops :=
  (Program.Tame.perform fun _ => .perform fun _ => .perform fun _ => .perform fun _ => .ret _).bind
    fun _ => .ret _

end Tame

end MrfIo

end Mac802154
