import Mac802154.TransmitImage

namespace Mac802154

open Library

namespace Device

variable {σ : Type} (device : Device σ)

-- A device that keeps, besides, the bytes that are written to its long
-- addresses: each with the address, in the order they come.
def recording : Device (σ × List (UInt8 × Nat)) where
  readShort address s := ((device.readShort address s.1).1, (device.readShort address s.1).2, s.2)
  writeShort address value s := (device.writeShort address value s.1, s.2)
  readLong address s := ((device.readLong address s.1).1, (device.readLong address s.1).2, s.2)
  writeLong address value s := (device.writeLong address value s.1, s.2 ++ [(value, address)])

theorem writeLongs_recording (address : Nat) (bytes : List UInt8) (s : σ × List (UInt8 × Nat)) :
    device.recording.writeLongs address bytes s =
      (device.writeLongs address bytes s.1, s.2 ++ bytes.zipIdx address) := by
  induction bytes generalizing address s with
  | nil => simp only [writeLongs, List.zipIdx_nil, List.append_nil]
  | cons byte bytes ih =>
      rw [writeLongs, ih, List.zipIdx_cons, writeLongs]
      simp only [recording, List.append_assoc, List.singleton_append]

theorem write_recording (address : UInt16) (value : UInt8) (s : σ × List (UInt8 × Nat))
    (h : isLongAddress address = false) :
    device.recording.write address value s = (device.write address value s.1, s.2) := by
  simp only [write, h, Bool.false_eq_true, ite_false, recording]

theorem read_recording (address : UInt16) (s : σ × List (UInt8 × Nat)) :
    (device.recording.read address s).2 = ((device.read address s.1).2, s.2) := by
  unfold read
  split <;> rfl

end Device

-- What may be written for a message of `m` bytes of header and `n` of payload:
-- all of a payload that fits, nothing behind the TX FIFO, and as the length of
-- the frame no other than its length, which goes for the frame on air too.
structure Contained (m n : Nat) (payload : BytePointer) (s : Chip × List (UInt8 × Nat)) : Prop where
  whole : 2 + m + n ≤ mrf_tx_normal_fifo_length → s.1.Sent → ∀ i < n, (payload i, 2 + m + i) ∈ s.2
  inside : ∀ write ∈ s.2, write.2 < mrf_tx_normal_fifo_length
  frame_length : ∀ value, (value, 1) ∈ s.2 → value.toNat = m + n
  sent_length : ∀ long, .transmission long ∈ s.1.history → (long 1).toNat = m + n

namespace Chip

def recordingMachine (softwareReset : Chip → Memories) :
    Machine PeripheralOp PeripheralOp.Response ChipEvent (Bus (Chip × List (UInt8 × Nat))) :=
  (device softwareReset).recording.machine fun e s => (occur e s.1, s.2)

-- How far sendBlocking has got, and what it has written until then.
def Writing (header image : List UInt8) (i : Nat) (s : Chip × List (UInt8 × Nat)) : Prop :=
  Sending header image Silent (Transmitted image) i s.1 ∧
    s.2 = if i = 0 then [] else if i = 1 then header.zipIdx else image.zipIdx

-- Nothing but this image is written, and all of it before it is sent.
structure Writes (image : List UInt8) (s : Chip × List (UInt8 × Nat)) : Prop where
  transmitted : s.1.Transmitted image
  inside : ∀ write ∈ s.2, write ∈ image.zipIdx
  all : s.1.Sent → s.2 = image.zipIdx

theorem Writing.writes {header payload : List UInt8} {i : Nat} {s : Chip × List (UInt8 × Nat)}
    (h : Writing header (header ++ payload) i s) : Writes (header ++ payload) s := by
  obtain ⟨hstage, hlog⟩ := h
  refine ⟨?_, fun write hw => ?_, fun hsent => ?_⟩
  · rcases i with _ | _ | _ | i
    · exact Silent.transmitted hstage
    · exact hstage.1.transmitted
    · exact hstage.1.transmitted
    · exact hstage
  · rw [hlog] at hw
    rcases i with _ | _ | i
    · cases hw
    · rw [List.zipIdx_append]
      exact List.mem_append_left _ hw
    · exact hw
  · obtain ⟨long, hlong⟩ := hsent
    rcases i with _ | _ | _ | i
    · exact absurd hlong (hstage long)
    · exact absurd hlong (hstage.1 long)
    · exact hlog
    · exact hlog

section Contained

variable {fields : HeaderFields} {payload : BytePointer} {n : Nat} {s : Chip × List (UInt8 × Nat)}

theorem Writes.contained (h : Writes (image fields payload (n % 256)) s)
    (hfit : 2 + fields.toBytes.length + n ≤ mrf_tx_normal_fifo_length) :
    Contained fields.toBytes.length n payload s := by
  have hfifo : mrf_tx_normal_fifo_length = 128 := rfl
  have hn : n % 256 = n := Nat.mod_eq_of_lt (by omega)
  rw [hn] at h
  have hexact : (UInt8.ofNat (fields.toBytes.length + n)).toNat = fields.toBytes.length + n :=
    UInt8.toNat_ofNat_of_lt' (by unfold UInt8.size; omega)
  refine ⟨fun _ hsent i hi => ?_, fun write hw => ?_, fun value hv => ?_, fun long hlong => ?_⟩
  · rw [h.all hsent, List.mem_zipIdx_iff_getElem?, Nat.add_comm 2]
    exact getElem?_image_payload fields payload hi
  · have hlt := List.snd_lt_of_mem_zipIdx (h.inside write hw)
    rw [length_image] at hlt
    omega
  · have hone := List.mem_zipIdx_iff_getElem?.mp (h.inside _ hv)
    obtain rfl : UInt8.ofNat (fields.toBytes.length + n) = value := Option.some.inj hone
    exact hexact
  · have hone := congrArg (fun bytes : List UInt8 => bytes[1]?) (h.transmitted long hlong)
    obtain he : long 1 = UInt8.ofNat (fields.toBytes.length + n) := Option.some.inj hone
    rw [he, hexact]

-- The image that has been sent shows both lengths, and they show whether the
-- payload fitted.
theorem Writes.fits (h : Writes (image fields payload (n % 256)) s) (hsent : s.1.Sent)
    (hcontained : Contained fields.toBytes.length n payload s) :
    2 + fields.toBytes.length + n ≤ mrf_tx_normal_fifo_length := by
  have hlog := h.all hsent
  have hlength := length_image fields payload (n % 256)
  have hframe : (UInt8.ofNat (fields.toBytes.length + n)).toNat = fields.toBytes.length + n := by
    refine hcontained.frame_length _ ?_
    have hcut : UInt8.ofNat (fields.toBytes.length + n % 256) =
        UInt8.ofNat (fields.toBytes.length + n) := by
      rw [← UInt8.toNat_inj, UInt8.toNat_ofNat', UInt8.toNat_ofNat']
      omega
    rw [hlog, List.mem_zipIdx_iff_getElem?, ← hcut]
    rfl
  have hlt := (UInt8.ofNat (fields.toBytes.length + n)).toNat_lt
  have hn : n % 256 = n := Nat.mod_eq_of_lt (by omega)
  obtain ⟨last, hlast⟩ : ∃ last, (image fields payload (n % 256))[1 + fields.toBytes.length + n]? = some last :=
    ⟨_, List.getElem?_eq_getElem (by omega)⟩
  have hmem : (last, 1 + fields.toBytes.length + n) ∈ s.2 := by
    rw [hlog, List.mem_zipIdx_iff_getElem?]
    exact hlast
  have hinside := hcontained.inside _ hmem
  omega

end Contained

end Chip

namespace Mrf

variable {softwareReset : Chip → Memories}

-- What sendBlocking writes, whatever the message is and in every run.
theorem sendBlocking_writes (impl : Mrf) :
    (Chip.recordingMachine softwareReset).Triple
      (OnDevice (Chip.Writes
        (impl.state.getFullHeaderField.bytes ++ impl.state.getPayloadField.bytes)))
      (OnDevice fun s => s.1.Silent ∧ s.2 = []) impl.sendBlocking
      fun _ => OnDevice (Chip.Writes
        (impl.state.getFullHeaderField.bytes ++ impl.state.getPayloadField.bytes)) := by
  have haddress : impl.state.getFullHeaderField.bytes.length = impl.state.getFullHeaderLength.toNat :=
    impl.state.getFullHeaderField.length_bytes
  have hheader := impl.state.getFullHeaderField.length_bytes_lt
  have hpayload := impl.state.getPayloadField.length_bytes_lt
  have hfifo : mrf_rx_fifo_start.toNat = 768 := rfl
  have hwrite (chip : Chip) (address : Nat) (bytes : List UInt8) (hs : chip.Silent) :
      ((Chip.device softwareReset).writeLongs address bytes chip).Silent := by
    rw [Chip.writeLongs_eq]
    exact hs
  refine (impl.sendBlocking_triple (Chip.device softwareReset).recording
    (fun e s => (Chip.occur e s.1, s.2))
    (P := Chip.Writing impl.state.getFullHeaderField.bytes
      (impl.state.getFullHeaderField.bytes ++ impl.state.getPayloadField.bytes))
    (fun _ _ hs => hs.writes) (fun i s e hs => ⟨hs.1.occur (fun _ e hs => hs.occur e) (fun _ e hs => hs.occur e) ?_ ?_ e, hs.2⟩)
    (fun s hs => ?_) (fun s hs => ?_) (fun s hs => ?_) (fun s hs => ?_)).consequence
    (fun bus hbus => hbus) fun _ _ hbus => Chip.Writing.writes hbus.1
  · omega
  · rw [List.length_append]
    omega
  · rw [Device.writeLongs_recording, hs.2]
    have hempty : s.1.Stores [] := rfl
    exact ⟨⟨hwrite s.1 0 _ hs.1, hempty.writeLongs softwareReset _⟩, rfl⟩
  · rw [Device.writeLongs_recording, hs.2, ← haddress]
    exact ⟨⟨hwrite s.1 _ _ hs.1.1, hs.1.2.writeLongs softwareReset _⟩,
      by rw [List.zipIdx_append, Nat.zero_add]; rfl⟩
  · rw [Device.write_recording _ _ _ _ rfl]
    exact ⟨hs.1.1.write_trigger softwareReset hs.1.2, hs.2⟩
  · rw [Device.read_recording, Chip.read_status]
    exact ⟨Chip.Transmitted.read_status hs.1, hs.2⟩

theorem sendBlocking_sends (impl : Mrf) (bus : Bus (Chip × List (UInt8 × Nat))) :
    ∃ ms, OnDevice (fun s => Chip.Sent s.1)
      ((Chip.recordingMachine softwareReset).run impl.sendBlocking bus ms).2 := by
  refine impl.sendBlocking_exists_run _ _ (fun s => ?_) bus
  rw [Device.write_recording _ _ _ _ rfl]
  exact ⟨s.1.memories.long, List.mem_cons_self⟩

theorem sendBlocking_contained_iff {impl : Mrf} {fields : HeaderFields} {payload : BytePointer}
    {n : Nat} (h : impl.state.Holds ⟨fields, payload, UInt8.ofNat n, fields.toBytes.length⟩)
    (phase : Phase) {chip : Chip} (hchip : chip.Silent) :
    (∀ ms, OnDevice (Contained fields.toBytes.length n payload)
      ((Chip.recordingMachine softwareReset).run impl.sendBlocking ⟨phase, chip, []⟩ ms).2) ↔
      2 + fields.toBytes.length + n ≤ mrf_tx_normal_fifo_length := by
  have hinit : OnDevice (fun s : Chip × List (UInt8 × Nat) => s.1.Silent ∧ s.2 = [])
      ⟨phase, chip, []⟩ := ⟨hchip, rfl⟩
  have hwrites (ms : List (Move ChipEvent)) : OnDevice (Chip.Writes (image fields payload (n % 256)))
      ((Chip.recordingMachine softwareReset).run impl.sendBlocking ⟨phase, chip, []⟩ ms).2 := by
    rw [← h.image_eq]
    exact (sendBlocking_writes impl).invariant _ hinit ms
  refine ⟨fun hall => ?_, fun hfit ms => (hwrites ms).contained hfit⟩
  obtain ⟨ms, hsent⟩ := impl.sendBlocking_sends ⟨phase, chip, []⟩
  exact Chip.Writes.fits (hwrites ms) hsent (hall ms)

variable [BitManipulation]

theorem prepared_holds {impl prepared : Mrf} {memories : Memories} {config : Mac802154Config}
    {calls : List SetterCall} {payload : BytePointer} {n : Nat} {before : List (Move ChipEvent)}
    {bus : Bus Chip} (hprepared : (Chip.machine softwareReset).run
      (impl.prepare config (calls ++ [.setPayload payload n])) ⟨.deselected, ⟨memories, []⟩⟩ before =
        (.ret prepared, bus)) :
    bus.device.Silent ∧ prepared.state.Holds
      ⟨selectedFields config calls, payload, UInt8.ofNat n,
        (selectedFields config calls).toBytes.length⟩ := by
  have hinit : OnDevice Chip.Silent ⟨.deselected, ⟨memories, []⟩⟩ := fun _ => List.not_mem_nil
  have htriple : (Chip.machine softwareReset).Triple (OnDevice fun _ => True) _
      (impl.prepare config (calls ++ [.setPayload payload n])) _ :=
    impl.prepare_triple config calls payload n fun _ _ => trivial
  have hmeets := htriple _ hinit before
  rw [hprepared] at hmeets
  exact hmeets.2

theorem prepare_returns (impl : Mrf) (config : Mac802154Config) (calls : List SetterCall)
    (bus : Bus Chip) : ∃ before prepared last,
      (Chip.machine softwareReset).run (impl.prepare config calls) bus before =
        (.ret prepared, last) := by
  obtain ⟨ops, prepared, last, hr⟩ := Machine.Returns.of_tame
    (M := Chip.machine softwareReset) (impl.prepare_tame config calls) bus
  obtain ⟨before, hrun⟩ := hr.run_eq
  exact ⟨before, prepared, last, hrun⟩

-- However a message has been put together, what sending it writes is as the
-- TX FIFO and the frame length allow exactly if it fits; and it is always sent.
theorem payload_contained_iff (impl : Mrf) (memories : Memories) (config : Mac802154Config)
    (calls : List SetterCall) (payload : BytePointer) (n : Nat) (before : List (Move ChipEvent))
    (prepared : Mrf) (bus : Bus Chip) (hprepared : (Chip.machine softwareReset).run
      (impl.prepare config (calls ++ [.setPayload payload n])) ⟨.deselected, ⟨memories, []⟩⟩ before =
        (.ret prepared, bus)) :
    let m := (selectedFields config calls).toBytes.length
    let sent (ms : List (Move ChipEvent)) := ((Chip.recordingMachine softwareReset).run
      prepared.sendBlocking ⟨bus.phase, bus.device, []⟩ ms).2.device
    ((∀ ms, Contained m n payload (sent ms)) ↔ 2 + m + n ≤ mrf_tx_normal_fifo_length) ∧
      ∃ ms, (sent ms).1.Sent := by
  intro m sent
  obtain ⟨hchip, hholds⟩ := prepared_holds hprepared
  exact ⟨sendBlocking_contained_iff hholds bus.phase hchip,
    prepared.sendBlocking_sends ⟨bus.phase, bus.device, []⟩⟩

omit [BitManipulation] in
theorem payload_contained_hi :
    ∃ before prepared bus, (Chip.machine fun _ => ⟨fun _ => 0, fun _ => 0⟩).run
        (@prepare BitManipulation.reference
          zeroed ⟨#v[0xAA, 0xAA], #v[8, 7, 6, 5, 4, 3, 2, 1], #v[0xCC, 0xDD], 12⟩
          [.setShortDestinationAddress #v[1, 2], .setPayload (fun i => [0x68, 0x69].getD i 0) 2])
        ⟨.deselected, ⟨⟨fun _ => 0xFF, fun _ => 0xFF⟩, []⟩⟩ before = (.ret prepared, bus) ∧
      ∀ ms, Contained 9 2 (fun i => [0x68, 0x69].getD i 0)
        ((Chip.recordingMachine fun _ => ⟨fun _ => 0, fun _ => 0⟩).run prepared.sendBlocking
          ⟨bus.phase, bus.device, []⟩ ms).2.device := by
  obtain ⟨before, prepared, bus, hrun⟩ := @prepare_returns (fun _ => ⟨fun _ => 0, fun _ => 0⟩)
    BitManipulation.reference zeroed
    ⟨#v[0xAA, 0xAA], #v[8, 7, 6, 5, 4, 3, 2, 1], #v[0xCC, 0xDD], 12⟩
    [.setShortDestinationAddress #v[1, 2], .setPayload (fun i => [0x68, 0x69].getD i 0) 2]
    ⟨.deselected, ⟨⟨fun _ => 0xFF, fun _ => 0xFF⟩, []⟩⟩
  obtain ⟨hiff, -⟩ := @payload_contained_iff _ BitManipulation.reference _ _
    ⟨#v[0xAA, 0xAA], #v[8, 7, 6, 5, 4, 3, 2, 1], #v[0xCC, 0xDD], 12⟩
    [.setShortDestinationAddress #v[1, 2]] _ 2 before prepared bus hrun
  exact ⟨before, prepared, bus, hrun, hiff.mpr (by decide)⟩

omit [BitManipulation] in
-- Of 256 bytes none is left, and the frame that is sent has the length of its header.
theorem payload_of_256_not_contained :
    ∃ before prepared bus, (Chip.machine fun _ => ⟨fun _ => 0, fun _ => 0⟩).run
        (@prepare BitManipulation.reference
          zeroed ⟨#v[0xAA, 0xAA], #v[8, 7, 6, 5, 4, 3, 2, 1], #v[0xCC, 0xDD], 12⟩
          [.setShortDestinationAddress #v[1, 2], .setPayload UInt8.ofNat 256])
        ⟨.deselected, ⟨⟨fun _ => 0xFF, fun _ => 0xFF⟩, []⟩⟩ before = (.ret prepared, bus) ∧
      ¬∀ ms, Contained 9 256 UInt8.ofNat
        ((Chip.recordingMachine fun _ => ⟨fun _ => 0, fun _ => 0⟩).run prepared.sendBlocking
          ⟨bus.phase, bus.device, []⟩ ms).2.device := by
  obtain ⟨before, prepared, bus, hrun⟩ := @prepare_returns (fun _ => ⟨fun _ => 0, fun _ => 0⟩)
    BitManipulation.reference zeroed
    ⟨#v[0xAA, 0xAA], #v[8, 7, 6, 5, 4, 3, 2, 1], #v[0xCC, 0xDD], 12⟩
    [.setShortDestinationAddress #v[1, 2], .setPayload UInt8.ofNat 256]
    ⟨.deselected, ⟨⟨fun _ => 0xFF, fun _ => 0xFF⟩, []⟩⟩
  have hprepared : bus.device.Silent ∧ prepared.state.Holds
      ⟨selectedFields ⟨#v[0xAA, 0xAA], #v[8, 7, 6, 5, 4, 3, 2, 1], #v[0xCC, 0xDD], 12⟩
        [.setShortDestinationAddress #v[1, 2]], UInt8.ofNat, UInt8.ofNat 256, 9⟩ :=
    @prepared_holds _ BitManipulation.reference _ _ _ _
      [.setShortDestinationAddress #v[1, 2]] _ _ _ _ hrun
  refine ⟨before, prepared, bus, hrun, fun hall => ?_⟩
  have hfits := (sendBlocking_contained_iff hprepared.2 bus.phase hprepared.1).mp hall
  exact absurd hfits (by decide)

end Mrf

end Mac802154
