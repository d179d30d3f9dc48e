import Mac802154.Mac802154MRFImpl.Sending

namespace Mac802154

open Library

theorem Message.fields_foldl (config : Mac802154Config) (calls before : List SetterCall)
    (message : Message) (h : message.fields = selectedFields config before) :
    ((calls.map (SetterCall.stateSetter config)).foldl update message).fields =
      selectedFields config (before ++ calls) := by
  induction calls generalizing before message with
  | nil =>
      rw [List.append_nil]
      exact h
  | cons call calls ih =>
      have hnext := selectedFields_append config before message h call
      have := ih (before ++ [call]) _ hnext
      rwa [List.append_assoc] at this

-- The payload is set last, so its header is the one that is sent.
theorem Message.update_setPayload (config : Mac802154Config) (calls : List SetterCall)
    (prior payload : BytePointer) (n : Nat) :
    ((calls ++ [SetterCall.setPayload payload n]).map (SetterCall.stateSetter config)).foldl update
        (configured config prior) =
      { fields := selectedFields config calls
        payload
        payload_length := UInt8.ofNat n
        headerSizeAtPayload := (selectedFields config calls).toBytes.length } := by
  have hfields := fields_foldl config calls [] (configured config prior) rfl
  rw [List.nil_append] at hfields
  rw [List.map_append, List.foldl_append]
  simp only [List.map_cons, List.map_nil, List.foldl_cons, List.foldl_nil, SetterCall.stateSetter,
    update, headerSize, hfields]

namespace MrfState

-- The two fields that are sent, one behind the other. The length of the payload
-- has been cut down to a byte.
theorem Holds.image_eq {mrf : MrfState} {fields : HeaderFields} {payload : BytePointer} {n : Nat}
    (h : mrf.Holds ⟨fields, payload, UInt8.ofNat n, fields.toBytes.length⟩) :
    mrf.getFullHeaderField.bytes ++ mrf.getPayloadField.bytes = image fields payload (n % 256) := by
  rw [h.sentBytes_eq, Message.sentBytes_of_kept rfl, Message.image, UInt8.toNat_ofNat']

end MrfState

namespace Chip

def Silent (chip : Chip) : Prop :=
  ∀ long, .transmission long ∉ chip.history

-- Whatever has been sent started with these bytes.
def Transmitted (bytes : List UInt8) (chip : Chip) : Prop :=
  ∀ long, .transmission long ∈ chip.history → long.StartsWith bytes

def Sent (chip : Chip) : Prop :=
  ∃ long, .transmission long ∈ chip.history

theorem Silent.transmitted {bytes : List UInt8} {chip : Chip} (h : chip.Silent) :
    chip.Transmitted bytes :=
  fun long hlong => absurd hlong (h long)

theorem transmission_occur (e : ChipEvent) (chip : Chip) (long : Memory) :
    .transmission long ∈ (occur e chip).history ↔ .transmission long ∈ chip.history := by
  cases e with
  | arrival frame =>
      simp only [occur]
      split
      · exact ⟨fun h => (List.mem_cons.mp h).resolve_left (by simp), List.mem_cons_of_mem _⟩
      · rfl
  | transmissionFinished =>
      exact ⟨fun h => (List.mem_cons.mp h).resolve_left (by simp), List.mem_cons_of_mem _⟩

theorem Silent.occur {chip : Chip} (h : chip.Silent) (e : ChipEvent) : (Chip.occur e chip).Silent :=
  fun long hlong => h long ((transmission_occur e chip long).mp hlong)

theorem Transmitted.occur {bytes : List UInt8} {chip : Chip} (h : chip.Transmitted bytes)
    (e : ChipEvent) : (Chip.occur e chip).Transmitted bytes :=
  fun long hlong => h long ((transmission_occur e chip long).mp hlong)

section Device

variable (softwareReset : Chip → Memories) {bytes : List UInt8} {chip : Chip}

theorem Silent.write_trigger (h : chip.Silent) (hstores : chip.Stores bytes) :
    ((device softwareReset).write mrf_register_tx_normal_fifo_control.toUInt16 1 chip).Transmitted
      bytes := by
  rw [Chip.write_trigger]
  intro long hlong
  rcases List.mem_cons.mp hlong with he | hmem
  · cases he
    exact hstores
  · exact absurd hmem (h long)

theorem Transmitted.read_status (h : chip.Transmitted bytes) :
    (Chip.log { chip with memories := setStatus chip.memories 0 } .statusRead).Transmitted bytes :=
  fun long hlong => h long ((List.mem_cons.mp hlong).resolve_left (by simp))

theorem Silent.write (h : chip.Silent) (write : RegisterWrite)
    (hne : write.1 ≠ mrf_register_tx_normal_fifo_control.toUInt16) :
    ((device softwareReset).write write.1 write.2 chip).Silent := by
  intro long hlong
  rcases write_cases softwareReset write chip with ⟨-, he⟩ | ⟨-, he⟩ | ⟨-, htrigger, -⟩
  · rw [he] at hlong
    exact h long ((List.mem_cons.mp hlong).resolve_left (by simp))
  · rw [he] at hlong
    exact h long hlong
  · exact hne htrigger

end Device

end Chip

namespace Mrf

variable [BitManipulation]

-- A message is put together after a configure, and sent.
def transmit (impl : Mrf) (config : Mac802154Config) (calls : List SetterCall) : Driver Mrf := do
  let impl ← impl.reconfigure config
  let impl ← calls.foldlM SetterCall.apply impl
  impl.sendBlocking

variable {softwareReset : Chip → Memories}

omit [BitManipulation] in
theorem sendBlocking_transmits (impl : Mrf) :
    let bytes := impl.state.getFullHeaderField.bytes ++ impl.state.getPayloadField.bytes
    (Chip.machine softwareReset).Triple (OnDevice (Chip.Transmitted bytes)) (OnDevice Chip.Silent)
      impl.sendBlocking fun _ => OnDevice (Chip.Transmitted bytes) := by
  intro bytes
  refine (impl.sendBlocking_stores (P := Chip.Silent) (Q := Chip.Transmitted bytes)
    (R := Chip.Transmitted bytes) (fun _ hs => hs.transmitted) (fun _ hs => hs) (fun _ hs => hs)
    (fun _ e hs => hs.occur e) (fun _ e hs => hs.occur e) (fun _ _ hs => hs)
    (fun _ hs hstores => hs.write_trigger softwareReset hstores)
    (fun _ hs => by split <;> exact hs.read_status)).consequence (fun _ hbus => hbus)
    fun _ _ hbus => hbus.1

-- What puts a message together, ready to be sent.
def prepare (impl : Mrf) (config : Mac802154Config) (calls : List SetterCall) : Driver Mrf := do
  let impl ← impl.reconfigure config
  calls.foldlM SetterCall.apply impl

theorem transmit_eq (impl : Mrf) (config : Mac802154Config) (calls : List SetterCall) :
    impl.transmit config calls = (impl.prepare config calls).bind sendBlocking := by
  rw [prepare, Program.bind_eq, Program.bind_assoc]
  rfl

theorem prepare_tame {loops : Bool} (impl : Mrf) (config : Mac802154Config)
    (calls : List SetterCall) : (impl.prepare config calls).Tame loops :=
  (impl.reconfigure_tame config).bind fun impl =>
    Program.Tame.foldlM (fun impl call => impl.setter_tame call) calls impl

theorem prepare_triple (impl : Mrf) (config : Mac802154Config) (calls : List SetterCall)
    (payload : BytePointer) (n : Nat) {I : Chip → Prop} (hI : ∀ chip, chip.Silent → I chip) :
    (Chip.machine softwareReset).Triple (OnDevice I) (OnDevice Chip.Silent)
      (impl.prepare config (calls ++ [.setPayload payload n]))
      fun next => OnDevice fun chip => chip.Silent ∧ next.state.Holds
        ⟨selectedFields config calls, payload, UInt8.ofNat n,
          (selectedFields config calls).toBytes.length⟩ := by
  have hperforms : Performs (Chip.device softwareReset) Chip.occur _ (configureWrites config) _ :=
    impl.reconfigure_performs config
  have hconfigure := hperforms I (fun _ => Chip.Silent) (fun _ => hI)
    (fun _ _ e hs => hs.occur e)
    (fun _ write _ hw hs => hs.write softwareReset write (configureWrites_address _ hw).2) []
  refine hconfigure.bind fun configured => .lift fun ⟨hconfig, hholds⟩ => ?_
  obtain ⟨state, hstate, hlast⟩ := setters_return hholds (calls ++ [.setPayload payload n])
  rw [hconfig, Message.update_setPayload] at hlast
  rw [hstate]
  exact .ret (fun bus hbus => hI bus.device hbus) fun bus hbus => ⟨hbus, hlast⟩

theorem transmit_transmits (impl : Mrf) (config : Mac802154Config) (calls : List SetterCall)
    (payload : BytePointer) (n : Nat)
    (hfit : 2 + (selectedFields config calls).toBytes.length + n ≤ 128) :
    (Chip.machine softwareReset).Triple
      (OnDevice (Chip.Transmitted (image (selectedFields config calls) payload n)))
      (OnDevice Chip.Silent) (impl.transmit config (calls ++ [.setPayload payload n]))
      fun _ => OnDevice (Chip.Transmitted (image (selectedFields config calls) payload n)) := by
  rw [transmit_eq]
  refine (impl.prepare_triple config calls payload n fun _ hs => hs.transmitted).bind
    fun prepared => .lift fun hholds => ?_
  have himage := hholds.image_eq
  rw [Nat.mod_eq_of_lt (by omega)] at himage
  rw [← himage]
  exact prepared.sendBlocking_transmits

theorem transmit_sends (impl : Mrf) (config : Mac802154Config) (calls : List SetterCall)
    (bus : Bus Chip) : ∃ ms, OnDevice Chip.Sent
      ((Chip.machine softwareReset).run (impl.transmit config calls) bus ms).2 := by
  rw [transmit_eq]
  refine Machine.Returns.exists_run_of_tame (impl.prepare_tame config calls) (fun impl bus => ?_) bus
  exact impl.sendBlocking_exists_run _ _ (fun chip => ⟨chip.memories.long, List.mem_cons_self⟩) bus

-- What every run of a sender has written when it triggers the transmission.
theorem transmit_image (impl : Mrf) (memories : Memories) (config : Mac802154Config)
    (calls : List SetterCall) (payload : BytePointer) (n : Nat)
    (hfit : 2 + (selectedFields config calls).toBytes.length + n ≤ 128) (ms : List (Move ChipEvent))
    (long : Memory) (hsent : .transmission long ∈ ((Chip.machine softwareReset).run
      (impl.transmit config (calls ++ [.setPayload payload n]))
      ⟨.deselected, ⟨memories, []⟩⟩ ms).2.device.history) :
    long.StartsWith (image (selectedFields config calls) payload n) := by
  have hinit : OnDevice Chip.Silent ⟨.deselected, ⟨memories, []⟩⟩ := fun _ => List.not_mem_nil
  exact (impl.transmit_transmits config calls payload n hfit).invariant _ hinit ms long hsent

-- Whatever the driver and the chip were before, and whatever the chip does in
-- between, the message is sent as it was put together; and sent it is.
theorem transmission_image (impl : Mrf) (memories : Memories) (config : Mac802154Config)
    (calls : List SetterCall) (payload : BytePointer) (n : Nat)
    (hfit : 2 + (selectedFields config calls).toBytes.length + n ≤ 128) :
    let destination := selectedDestination calls
    let source := selectedSource config calls
    let header := (selectedFields config calls).toBytes
    let m := header.length
    let sent (ms : List (Move ChipEvent)) := ((Chip.machine softwareReset).run
      (impl.transmit config (calls ++ [.setPayload payload n]))
      ⟨.deselected, ⟨memories, []⟩⟩ ms).2.device.history
    (∀ ms long, .transmission long ∈ sent ms → long.contents 0 (2 + m + n) =
      UInt8.ofNat m :: UInt8.ofNat (m + n) :: (header ++ (List.range n).map payload)) ∧
    header = (0x01 + if destination.isExtended && source.isExtended then 0 else 0x40) ::
      (0x20 + 4 * destination.mode + 64 * source.mode) :: 0 ::
      (config.pan_id.toList ++ destination.toList ++ source.toList) ∧
    ∃ ms long, .transmission long ∈ sent ms := by
  intro destination source header m sent
  refine ⟨fun ms long hlong => ?_, ?_, ?_⟩
  · have himage := impl.transmit_image memories config calls payload n hfit ms long hlong
    rwa [Memory.StartsWith, length_image] at himage
  · rfl
  · exact impl.transmit_sends config _ _

omit [BitManipulation] in
theorem transmission_image_hi :
    ∃ ms long, .transmission long ∈ ((Chip.machine fun _ => ⟨fun _ => 0, fun _ => 0⟩).run
        (@transmit BitManipulation.reference
          zeroed ⟨#v[0xAA, 0xAA], #v[8, 7, 6, 5, 4, 3, 2, 1], #v[0xCC, 0xDD], 12⟩
          [.setShortDestinationAddress #v[1, 2], .useExtendedSourceAddress,
            .setPayload (fun i => [0x68, 0x69].getD i 0) 2])
        ⟨.deselected, ⟨⟨fun _ => 0xFF, fun _ => 0xFF⟩, []⟩⟩ ms).2.device.history ∧
      long.contents 0 19 = [15, 17, 0x41, 0xE8, 0, 0xCC, 0xDD, 1, 2, 8, 7, 6, 5, 4, 3, 2, 1,
        0x68, 0x69] := by
  obtain ⟨himage, -, ms, long, hlong⟩ := @transmission_image BitManipulation.reference _ _ _
    ⟨#v[0xAA, 0xAA], #v[8, 7, 6, 5, 4, 3, 2, 1], #v[0xCC, 0xDD], 12⟩
    [.setShortDestinationAddress #v[1, 2], .useExtendedSourceAddress] _ 2 (by decide)
  exact ⟨ms, long, hlong, himage ms long hlong⟩

end Mrf

end Mac802154
