import Mac802154.Mac802154MRFImpl.Theorems
import Mac802154.MRF24J40.Theorems

namespace Mac802154

open Library FrameHeader802154

-- The size that a header has by its two control bytes.
def headerSizeOf (first second : UInt8) : Nat :=
  2 + (if second.toBitVec.getLsbD 0 then 0 else 1) +
    (if extractBits second 0b11 6 = ADDRESSING_MODE_EXTENDED_ADDRESS ∧
        extractBits second 0b11 2 = ADDRESSING_MODE_EXTENDED_ADDRESS ∨
        first.toBitVec.getLsbD 6 then 2 else 0) +
    (getAddressSize (extractBits second 0b11 6)).toNat +
    (getAddressSize (extractBits second 0b11 2)).toNat

theorem two_le_headerSizeOf (first second : UInt8) : 2 ≤ headerSizeOf first second := by
  unfold headerSizeOf
  omega

section Packet

theorem toList_headerAt (packet : BytePointer) (distance : UInt8) :
    (headerAt packet distance).data.toList =
      Memory.contents packet distance.toNat MAXIMUM_HEADER_SIZE := by
  apply List.ext_getElem
  · simp
  · intro i hi hi'
    simp [headerAt, Memory.contents]

-- A header whose bytes stand in a packet can be read there.
theorem headerAt_represents {packet : BytePointer} {fields : HeaderFields} (distance : UInt8)
    (h : Memory.contents packet distance.toNat fields.toBytes.length = fields.toBytes) :
    (headerAt packet distance).Represents fields := by
  have hlength : MAXIMUM_HEADER_SIZE =
      fields.toBytes.length + (MAXIMUM_HEADER_SIZE - fields.toBytes.length) := by
    have := fields.length_toBytes_le
    omega
  rw [Represents, toList_headerAt, hlength, Memory.contents_append, h]
  exact List.prefix_append _ _

variable [BitManipulation] (packet : BytePointer)

theorem panIdIsPresent_headerAt : (headerAt packet 1).panIdIsPresent = true ↔
    extractBits (packet 2) 0b11 6 = ADDRESSING_MODE_EXTENDED_ADDRESS ∧
      extractBits (packet 2) 0b11 2 = ADDRESSING_MODE_EXTENDED_ADDRESS ∨
      (packet 1).toBitVec.getLsbD 6 := by
  have hl : (headerAt packet 1).data.toList =
      packet 1 :: packet 2 :: Memory.contents packet 3 (MAXIMUM_HEADER_SIZE - 2) :=
    toList_headerAt packet 1
  rw [panIdIsPresent, getSourceAddressingMode_eq hl, getDestinationAddressingMode_eq hl,
    panIdCompressionIsEnabled_eq hl]
  simp

theorem getHeaderSize_headerAt :
    (headerAt packet 1).getHeaderSize.toNat = headerSizeOf (packet 1) (packet 2) := by
  have hl : (headerAt packet 1).data.toList =
      packet 1 :: packet 2 :: Memory.contents packet 3 (MAXIMUM_HEADER_SIZE - 2) :=
    toList_headerAt packet 1
  have hsequence : (headerAt packet 1).getSequenceNumberSize.toNat =
      if (packet 2).toBitVec.getLsbD 0 then 0 else 1 := by
    rw [getSequenceNumberSize, sequenceNumberIsPresent_eq hl]
    cases (packet 2).toBitVec.getLsbD 0 <;> rfl
  rw [toNat_getHeaderSize, getPanIdSize_eq, hsequence, getSourceAddressSize,
    getDestinationAddressSize, getSourceAddressingMode_eq hl, getDestinationAddressingMode_eq hl,
    if_congr (panIdIsPresent_headerAt packet) rfl rfl]
  rfl

-- The payload begins where the source address ends, for either of its forms.
structure Adjoins : Prop where
  tiles : (headerAt packet 1).Tiles
  short : getPacketPayload packet =
    getPacketShortSourceAddress packet + (getPacketSourceAddressSize packet).toNat
  extended : getPacketPayload packet =
    getPacketExtendedSourceAddress packet + (getPacketSourceAddressSize packet).toNat
  disjoint : ∀ i < getPacketPayload packet + (getPacketPayloadSize packet).toNat,
    getPacketPayload packet ≤ i →
      (i < getPacketShortSourceAddress packet ∨
        getPacketShortSourceAddress packet + (getPacketSourceAddressSize packet).toNat ≤ i) ∧
      (i < getPacketExtendedSourceAddress packet ∨
        getPacketExtendedSourceAddress packet + (getPacketSourceAddressSize packet).toNat ≤ i)

-- A packet's fields adjoin exactly if its two addressing modes or its
-- compression bit say that there is a pan id.
theorem fields_adjoin_iff : Adjoins packet ↔
    extractBits (packet 2) 0b11 6 = ADDRESSING_MODE_EXTENDED_ADDRESS ∧
      extractBits (packet 2) 0b11 2 = ADDRESSING_MODE_EXTENDED_ADDRESS ∨
      (packet 1).toBitVec.getLsbD 6 := by
  rw [← panIdIsPresent_headerAt, ← tiles_iff]
  constructor
  · exact Adjoins.tiles
  · intro h
    have hone : frame_length_field_size.toNat = 1 := rfl
    have hsize := h.size
    have hpayload : getPacketPayload packet =
        getPacketShortSourceAddress packet + (getPacketSourceAddressSize packet).toNat := by
      change frame_length_field_size.toNat + (headerAt packet 1).getHeaderSize.toNat =
        1 + (headerAt packet 1).getSourceAddressOffset.toNat +
          (headerAt packet 1).getSourceAddressSize.toNat
      omega
    refine ⟨h, hpayload, hpayload, fun i _ hi => ?_⟩
    rw [hpayload] at hi
    exact ⟨.inr hi, .inr hi⟩

omit [BitManipulation] in
-- Two short addresses, and a pan id for each of them.
theorem fields_do_not_adjoin : ¬∀ packet, @Adjoins BitManipulation.reference packet := by
  intro h
  let received : List UInt8 := [14, 0x01, 0xA8, 7, 1, 2, 3, 4, 5, 6, 8, 9, 10, 0xAB, 0xCD]
  have hadjacent := @Adjoins.short BitManipulation.reference _ (h fun i => received.getD i 0)
  revert hadjacent
  decide +kernel

-- The source address is looked for as if there were a pan id, the payload is not.
theorem sourceAddress_end_le :
    getPacketShortSourceAddress packet + (getPacketSourceAddressSize packet).toNat ≤
      getPacketPayload packet + 2 := by
  have hone : frame_length_field_size.toNat = 1 := rfl
  have hsize := toNat_getHeaderSize (headerAt packet 1)
  have hoffset := toNat_getSourceAddressOffset (headerAt packet 1)
  change 1 + (headerAt packet 1).getSourceAddressOffset.toNat +
      (headerAt packet 1).getSourceAddressSize.toNat ≤
    frame_length_field_size.toNat + (headerAt packet 1).getHeaderSize.toNat + 2
  omega

-- What a caller takes for granted when it looks into a packet of `size` bytes:
-- these are all of them, the payload ends at the check sequence, the source
-- address inside the packet, and the payload's size is a difference.
structure Inspectable (length size : UInt8) : Prop where
  size_eq : size.toNat = length.toNat + 1
  payload_le : getPacketPayload packet + (getPacketPayloadSize packet).toNat +
    frame_check_sequence_size.toNat ≤ size.toNat
  shortSource_le :
    getPacketShortSourceAddress packet + (getPacketSourceAddressSize packet).toNat ≤ size.toNat
  extendedSource_le :
    getPacketExtendedSourceAddress packet + (getPacketSourceAddressSize packet).toNat ≤ size.toNat
  payloadSize_eq : (getPacketPayloadSize packet).toNat =
    ((packet 0).toNat : Int) - (headerAt packet 1).getHeaderSize.toNat -
      frame_check_sequence_size.toNat

theorem toNat_getPacketPayloadSize
    (h : (headerAt packet 1).getHeaderSize.toNat + 2 ≤ (packet 0).toNat) :
    (getPacketPayloadSize packet).toNat =
      (packet 0).toNat - (headerAt packet 1).getHeaderSize.toNat - 2 := by
  have htwo : frame_check_sequence_size.toNat = 2 := rfl
  have hheader : (packet 0 - (headerAt packet 1).getHeaderSize).toNat =
      (packet 0).toNat - (headerAt packet 1).getHeaderSize.toNat :=
    UInt8.toNat_sub_of_le _ _ (UInt8.le_iff_toNat_le.mpr (by omega))
  have hcheck : frame_check_sequence_size ≤ packet 0 - (headerAt packet 1).getHeaderSize :=
    UInt8.le_iff_toNat_le.mpr (by omega)
  rw [getPacketPayloadSize, UInt8.toNat_sub_of_le _ _ hcheck, hheader, htwo]

-- The packet can be inspected exactly if its length byte counts what its
-- control bytes ask for, and the whole packet with the length byte fits into
-- a uint8_t.
theorem inspectable_iff {received : BytePointer}
    (h : ∀ i < (received 0 + 1).toNat, packet i = received i) :
    Inspectable packet (received 0) (received 0 + 1) ↔ received 0 ≠ 255 ∧
      headerSizeOf (received 1) (received 2) + 2 ≤ (received 0).toNat := by
  have hpayload : getPacketPayload packet = 1 + (headerAt packet 1).getHeaderSize.toNat := rfl
  have hsource : getPacketShortSourceAddress packet + (getPacketSourceAddressSize packet).toNat ≤
      getPacketPayload packet + 2 := sourceAddress_end_le packet
  have htwo : frame_check_sequence_size.toNat = 2 := rfl
  have hwhole : (received 0 + 1).toNat = (received 0).toNat + 1 ↔ received 0 ≠ 255 := by
    have hone : (1 : UInt8).toNat = 1 := rfl
    have hlast : (255 : UInt8).toNat = 255 := rfl
    have hlt := (received 0).toNat_lt
    rw [ne_eq, ← UInt8.toNat_inj, UInt8.toNat_add, hone, hlast]
    omega
  -- From three bytes on, the control bytes are those that were received.
  have hcontrol (hthree : 3 ≤ (received 0 + 1).toNat) : packet 0 = received 0 ∧
      (headerAt packet 1).getHeaderSize.toNat = headerSizeOf (received 1) (received 2) := by
    rw [getHeaderSize_headerAt, h 0 (by omega), h 1 (by omega), h 2 (by omega)]
    exact ⟨rfl, rfl⟩
  constructor
  · intro hinspect
    have hsize := hinspect.size_eq
    have hend := hinspect.payload_le
    have hexact := hinspect.payloadSize_eq
    have hheader := two_le_headerSizeOf (packet 1) (packet 2)
    rw [← getHeaderSize_headerAt] at hheader
    obtain ⟨hlength, hequal⟩ := hcontrol (by omega)
    rw [hlength] at hexact
    exact ⟨hwhole.mp hsize, by omega⟩
  · rintro ⟨hne, hle⟩
    have hsize := hwhole.mpr hne
    have hheader := two_le_headerSizeOf (received 1) (received 2)
    obtain ⟨hlength, hequal⟩ := hcontrol (by omega)
    have hexact := toNat_getPacketPayloadSize packet (by rw [hlength]; omega)
    rw [hlength] at hexact
    have hlast : getPacketPayload packet + 2 ≤ (received 0 + 1).toNat := by omega
    exact ⟨hsize, by omega, Nat.le_trans hsource hlast, Nat.le_trans hsource hlast,
      by rw [hlength]; omega⟩

end Packet

namespace Mrf

-- A caller asks for the size of what has been received and fetches as much.
def receive (impl : Mrf) (buffer : BytePointer) : Driver (Mrf × UInt8 × BytePointer) := do
  let (impl, size) ← impl.getReceivedMessageSize
  let (impl, buffer) ← impl.fetchMessageBlocking buffer size
  return (impl, size, buffer)

-- The buffer is filled from the start of the RX FIFO on.
theorem receive_returns (softwareReset : Chip → Memories) (impl : Mrf) (chip : Chip)
    (buffer : BytePointer) :
    let long := chip.memories.long
    let size := long mrf_rx_fifo_start.toNat + 1
    ∃ ops impl', (Chip.machine softwareReset).Returns (impl.receive buffer) ⟨.deselected, chip⟩ ops
      (impl', size, Memory.overwrite buffer 0 (long.contents mrf_rx_fifo_start.toNat size.toNat))
      ⟨.deselected, chip⟩ := by
  intro long size
  obtain ⟨io, hsize⟩ := impl.getReceivedMessageSize_transacts (Chip.device softwareReset) Chip.occur
    (I := fun _ => True) (s := chip) trivial trivial
  obtain ⟨io', hfetch⟩ := fetchMessageBlocking_transacts (Chip.device softwareReset) Chip.occur
    (I := fun _ => True) { impl with io } buffer size (s := chip) trivial trivial
  rw [Chip.readLongs_eq] at hsize hfetch
  obtain ⟨ops, -, hsize⟩ := hsize.returns .deselected
  obtain ⟨ops', -, hfetch⟩ := (hfetch.map fun r => (r.1, size, r.2)).returns .deselected
  exact ⟨ops ++ ops', _, hsize.bind hfetch⟩

variable [BitManipulation]

-- Whatever is in the RX FIFO, what is fetched of it can be inspected exactly if
-- the length byte is below 255 and covers the header and the check sequence.
theorem received_inspectable_iff (softwareReset : Chip → Memories) (impl : Mrf) (chip : Chip)
    (buffer : BytePointer) :
    let received : BytePointer := fun i => chip.memories.long (mrf_rx_fifo_start.toNat + i)
    ∃ ops impl' size packet, (Chip.machine softwareReset).Returns (impl.receive buffer)
        ⟨.deselected, chip⟩ ops (impl', size, packet) ⟨.deselected, chip⟩ ∧
      (∀ i < size.toNat, packet i = received i) ∧
      (∀ i, size.toNat ≤ i → packet i = buffer i) ∧
      (Inspectable packet (received 0) size ↔
        received 0 ≠ 255 ∧ headerSizeOf (received 1) (received 2) + 2 ≤ (received 0).toNat) := by
  intro received
  obtain ⟨ops, impl', hreturns⟩ := impl.receive_returns softwareReset chip buffer
  have hfilled (i : Nat) (hi : i < (received 0 + 1).toNat) := Memory.overwrite_contents_of_lt buffer
    chip.memories.long 0 mrf_rx_fifo_start.toNat _ i hi
  simp only [Nat.zero_add] at hfilled
  refine ⟨ops, impl', _, _, hreturns, hfilled, fun i hi => ?_, inspectable_iff _ hfilled⟩
  exact Memory.overwrite_of_not_mem _ _ _ _ (.inr (by rw [Memory.length_contents]; omega))

omit [BitManipulation] in
-- A frame with two extended addresses and compressed pan ids is complete
-- without any pan id, but a pan id is counted.
theorem received_packet_overrun : ¬∀ (chip : Chip) ops impl size packet bus,
    (Chip.machine fun _ => ⟨fun _ => 0, fun _ => 0⟩).Returns
      (zeroed.receive fun _ => 0) ⟨.deselected, chip⟩ ops (impl, size, packet) bus →
    @Inspectable BitManipulation.reference packet (chip.memories.long mrf_rx_fifo_start.toNat) size := by
  intro h
  let fifo : List UInt8 := [21, 0x41, 0xEC, 7, 1, 2, 3, 4, 5, 6, 7, 8, 8, 7, 6, 5, 4, 3, 2, 1, 0xAB, 0xCD]
  obtain ⟨ops, impl, hreturns⟩ := receive_returns (fun _ => ⟨fun _ => 0, fun _ => 0⟩) _
    ⟨⟨fun _ => 0, fun i => fifo.getD (i - mrf_rx_fifo_start.toNat) 0⟩, []⟩ _
  have hend := @Inspectable.payload_le BitManipulation.reference _ _ _ (h _ _ _ _ _ _ hreturns)
  revert hend
  decide +kernel

end Mrf

end Mac802154
