import Mac802154.Reception
import Mac802154.TransmitImage

namespace Mac802154

open Library FrameHeader802154

-- A received packet: the length, the header, the payload and the check sequence.
def packetOf (fields : HeaderFields) (payload : List UInt8) (fcs : Vector UInt8 2) : List UInt8 :=
  UInt8.ofNat (fields.toBytes.length + payload.length + 2) ::
    (fields.toBytes ++ payload ++ fcs.toList)

-- What is sent is the image behind its two lengths.
theorem contents_of_image {long : Memory} {fields : HeaderFields} {payload : BytePointer} {n : Nat}
    (h : long.StartsWith (image fields payload n)) :
    long 1 = UInt8.ofNat (fields.toBytes.length + n) ∧
      long.contents 2 (fields.toBytes.length + n) =
        fields.toBytes ++ (List.range n).map payload := by
  rw [Memory.StartsWith, length_image, Nat.add_assoc, Nat.add_comm, Memory.contents_succ,
    Memory.contents_succ] at h
  exact List.cons.inj (List.cons.inj h).2

section Inspection

variable [BitManipulation] {packet : BytePointer} {fields : HeaderFields} {payload : List UInt8}
  {fcs : Vector UInt8 2}
  (h : Memory.contents packet 0 (fields.toBytes.length + payload.length + 3) =
    packetOf fields payload fcs)

include h

omit [BitManipulation] in
private theorem packet_parts :
    packet 0 = UInt8.ofNat (fields.toBytes.length + payload.length + 2) ∧
      Memory.contents packet 1 fields.toBytes.length = fields.toBytes ∧
      Memory.contents packet (1 + fields.toBytes.length) payload.length = payload := by
  rw [show fields.toBytes.length + payload.length + 3 =
      fields.toBytes.length + (payload.length + 2) + 1 by omega, Memory.contents_succ,
    Memory.contents_append, Memory.contents_append, packetOf, List.append_assoc] at h
  obtain ⟨hlength, hrest⟩ := List.cons.inj h
  obtain ⟨hheader, hbehind⟩ := List.append_inj hrest (Memory.length_contents _ _ _)
  exact ⟨hlength, hheader, (List.append_inj hbehind (Memory.length_contents _ _ _)).1⟩

omit [BitManipulation] in
theorem packet_represents : (headerAt packet 1).Represents fields :=
  headerAt_represents 1 (packet_parts h).2.1

theorem getPacketPayload_eq : getPacketPayload packet = 1 + fields.toBytes.length :=
  congrArg (1 + ·) (packet_represents h).getHeaderSize

theorem getPacketPayload_contents :
    Memory.contents packet (getPacketPayload packet) payload.length = payload := by
  rw [getPacketPayload_eq h]
  exact (packet_parts h).2.2

theorem getPacketPayloadSize_eq (hfit : fields.toBytes.length + payload.length ≤ 125) :
    (getPacketPayloadSize packet).toNat = payload.length := by
  have hheader := (packet_represents h).getHeaderSize
  have hlength : (packet 0).toNat = fields.toBytes.length + payload.length + 2 := by
    rw [(packet_parts h).1]
    exact UInt8.toNat_ofNat_of_lt' (by unfold UInt8.size; omega)
  rw [toNat_getPacketPayloadSize packet (by omega)]
  omega

theorem getPacketSourceAddressSize_eq :
    (getPacketSourceAddressSize packet).toNat = fields.source.toList.length :=
  (packet_represents h).getSourceAddressSize

theorem packetAddress_eq :
    packetAddressIsShort packet = !fields.source.isExtended ∧
      packetAddressIsLong packet = fields.source.isExtended := by
  have hsize : (headerAt packet 1).getSourceAddressSize.toNat = fields.source.toList.length :=
    getPacketSourceAddressSize_eq h
  simp only [packetAddressIsShort, packetAddressIsLong, ← UInt8.toNat_inj, hsize]
  cases fields.source with
  | short bytes => simp
  | extended bytes => simp

-- Both functions for the source address point to the same place.
theorem sourceAddress_contents :
    Memory.contents packet (getPacketShortSourceAddress packet)
        (getPacketSourceAddressSize packet).toNat = fields.source.toList ∧
      Memory.contents packet (getPacketExtendedSourceAddress packet)
        (getPacketSourceAddressSize packet).toNat = fields.source.toList := by
  have hr := packet_represents h
  have hslice := hr.slice_source
  have hinside : (headerAt packet 1).getSourceAddressPtr +
      (headerAt packet 1).getSourceAddressSize.toNat ≤ MAXIMUM_HEADER_SIZE := by
    have hle := fields.length_toBytes_le
    rw [fields.length_toBytes] at hle
    rw [getSourceAddressPtr, hr.getSourceAddressOffset, hr.getSourceAddressSize,
      fields.length_beforeSource]
    omega
  rw [toList_headerAt, Memory.slice_contents _ _ _ _ _ hinside] at hslice
  exact ⟨hslice, hslice⟩

end Inspection

namespace Mrf

variable [BitManipulation] {senderReset receiverReset : Chip → Memories}

-- The bytes that a sender has put on the air come back out of the packet, as
-- long as the packet is in the receiver's RX FIFO.
theorem received_packet_round_trip (sender receiver : Mrf) (memories : Memories)
    (config : Mac802154Config) (calls : List SetterCall) (payload : BytePointer) (n : Nat)
    (hfit : (selectedFields config calls).toBytes.length + n ≤ 125) (ms : List (Move ChipEvent))
    (long : Memory) (hsent : .transmission long ∈ ((Chip.machine senderReset).run
      (sender.transmit config (calls ++ [.setPayload payload n]))
      ⟨.deselected, ⟨memories, []⟩⟩ ms).2.device.history)
    (chip : Chip) (fcs : Vector UInt8 2) (buffer : BytePointer) :
    let source := selectedSource config calls
    let m := (selectedFields config calls).toBytes.length
    let received := UInt8.ofNat (m + n + 2) :: (long.contents 2 (m + n) ++ fcs.toList)
    chip.memories.long.contents mrf_rx_fifo_start.toNat (m + n + 3) = received →
    ∃ ops receiver' size packet,
      (Chip.machine receiverReset).Returns (receiver.receive buffer) ⟨.deselected, chip⟩ ops
        (receiver', size, packet) ⟨.deselected, chip⟩ ∧
      size.toNat = m + n + 3 ∧
      Memory.contents packet 0 (m + n + 3) = received ∧
      (∀ i, m + n + 3 ≤ i → packet i = buffer i) ∧
      (getPacketPayloadSize packet).toNat = n ∧
      Memory.contents packet (getPacketPayload packet) n = (List.range n).map payload ∧
      (getPacketSourceAddressSize packet).toNat = (if source.isExtended then 8 else 2) ∧
      packetAddressIsShort packet = !source.isExtended ∧
      packetAddressIsLong packet = source.isExtended ∧
      Memory.contents packet (getPacketShortSourceAddress packet)
        (getPacketSourceAddressSize packet).toNat = source.toList ∧
      Memory.contents packet (getPacketExtendedSourceAddress packet)
        (getPacketSourceAddressSize packet).toNat = source.toList := by
  intro source m received hreceived
  have hbytes : long.contents 2 (m + n) =
      (selectedFields config calls).toBytes ++ (List.range n).map payload :=
    (contents_of_image
      (transmit_image sender memories config calls payload n (by omega) ms long hsent)).2
  have hpacket : received = packetOf (selectedFields config calls) ((List.range n).map payload) fcs := by
    simp only [received, hbytes, packetOf, List.length_map, List.length_range, m]
  have hlength : chip.memories.long mrf_rx_fifo_start.toNat = UInt8.ofNat (m + n + 2) := by
    rw [Memory.contents_succ] at hreceived
    exact (List.cons.inj hreceived).1
  have hsize : (chip.memories.long mrf_rx_fifo_start.toNat + 1).toNat = m + n + 3 := by
    have hm : m + n ≤ 125 := hfit
    have hone : (1 : UInt8).toNat = 1 := rfl
    rw [hlength, UInt8.toNat_add, UInt8.toNat_ofNat_of_lt' (by unfold UInt8.size; omega), hone]
    omega
  obtain ⟨ops, receiver', hreturns⟩ := receiver.receive_returns receiverReset chip buffer
  have hfilled := Memory.contents_overwrite buffer 0
    (chip.memories.long.contents mrf_rx_fifo_start.toNat (m + n + 3))
  rw [Memory.length_contents, hreceived] at hfilled
  rw [hsize, hreceived] at hreturns
  have hwhole : Memory.contents (Memory.overwrite buffer 0 received) 0
      (m + ((List.range n).map payload).length + 3) =
        packetOf (selectedFields config calls) ((List.range n).map payload) fcs := by
    rw [List.length_map, List.length_range, hfilled, hpacket]
  have hpayload := getPacketPayload_contents hwhole
  have hpayloadSize := getPacketPayloadSize_eq hwhole (by rw [List.length_map, List.length_range]; exact hfit)
  rw [List.length_map, List.length_range] at hpayload hpayloadSize
  have hsourceSize : source.toList.length = if source.isExtended then 8 else 2 := by
    cases source <;> simp
  have hbehind (i : Nat) (hi : m + n + 3 ≤ i) : Memory.overwrite buffer 0 received i = buffer i := by
    refine Memory.overwrite_of_not_mem _ _ _ _ (.inr ?_)
    rw [← hreceived, Memory.length_contents]
    omega
  exact ⟨ops, receiver', _, _, hreturns, hsize, hfilled, hbehind, hpayloadSize, hpayload,
    (getPacketSourceAddressSize_eq hwhole).trans hsourceSize, (packetAddress_eq hwhole).1,
    (packetAddress_eq hwhole).2, (sourceAddress_contents hwhole).1, (sourceAddress_contents hwhole).2⟩

omit [BitManipulation] in
theorem received_packet_round_trip_hi :
    let fifo : List UInt8 := [19, 0x41, 0xE8, 0, 0xCC, 0xDD, 1, 2, 8, 7, 6, 5, 4, 3, 2, 1,
      0x68, 0x69, 0xAB, 0xCD]
    let chip : Chip := ⟨⟨fun _ => 0, fun i => fifo.getD (i - mrf_rx_fifo_start.toNat) 0⟩, []⟩
    ∃ ops receiver size packet, (Chip.machine fun _ => ⟨fun _ => 0, fun _ => 0⟩).Returns
        (zeroed.receive fun _ => 0) ⟨.deselected, chip⟩ ops (receiver, size, packet)
        ⟨.deselected, chip⟩ ∧
      size.toNat = 20 ∧
      Memory.contents packet (@getPacketPayload BitManipulation.reference packet) 2 = [0x68, 0x69] ∧
      Memory.contents packet (@getPacketExtendedSourceAddress BitManipulation.reference packet) 8 =
        [8, 7, 6, 5, 4, 3, 2, 1] := by
  intro fifo chip
  let config : Mac802154Config := ⟨#v[0xAA, 0xAA], #v[8, 7, 6, 5, 4, 3, 2, 1], #v[0xCC, 0xDD], 12⟩
  let calls : List SetterCall := [.setShortDestinationAddress #v[1, 2], .useExtendedSourceAddress]
  let payload : BytePointer := fun i => [0x68, 0x69].getD i 0
  obtain ⟨ms, long, hsent⟩ := @transmit_sends BitManipulation.reference
    (fun _ => ⟨fun _ => 0, fun _ => 0⟩) zeroed config (calls ++ [.setPayload payload 2])
    ⟨.deselected, ⟨⟨fun _ => 0, fun _ => 0⟩, []⟩⟩
  have hbytes : long.contents 2 17 =
      (selectedFields config calls).toBytes ++ (List.range 2).map payload :=
    (contents_of_image (@transmit_image BitManipulation.reference _ zeroed _ config calls payload 2
      (by decide) ms long hsent)).2
  have hreceived : chip.memories.long.contents mrf_rx_fifo_start.toNat 20 =
      19 :: (long.contents 2 17 ++ [0xAB, 0xCD]) := by
    rw [hbytes]
    decide +kernel
  obtain ⟨ops, receiver, size, packet, hreturns, hsize, -, -, -, hpayload, hlength, -, -, -, hsource⟩ :=
    @received_packet_round_trip BitManipulation.reference _ (fun _ => ⟨fun _ => 0, fun _ => 0⟩)
      zeroed zeroed _ config calls payload 2 (by decide) ms long hsent chip #v[0xAB, 0xCD]
      (fun _ => 0) hreceived
  rw [hlength] at hsource
  exact ⟨ops, receiver, size, packet, hreturns, hsize, hpayload, hsource⟩

end Mrf

end Mac802154
