import Mac802154.Library.Network
import Mac802154.Fetching
import Mac802154.RoundTrip
import Mac802154.Transmissions

namespace Mac802154

open Library FrameHeader802154

-- A caller with its driver and its chip.
abbrev Node := Session PeripheralOp PeripheralOp.Response (Bus Chip) System Call Answer

-- What happens at a node without the others.
inductive NodeMove where
  | call (c : Call)
  | act
  | transmissionFinished

def NodeMove.inSession : NodeMove → SessionMove Call ChipEvent
  | .call c => .call c
  | .act => .act
  | .transmissionFinished => .event .transmissionFinished

-- A transmission as it gets into the RX FIFO of a receiver: the length counts
-- the check sequence too, and what is behind the payload is the receiver's.
def received (long : Memory) (noise : Nat → UInt8) : Vector UInt8 mrf_rx_fifo_length :=
  Vector.ofFn fun i =>
    if i.val = 0 then long 1 + frame_check_sequence_size
    else if i.val ≤ (long 1).toNat then long (i.val + 1)
    else noise i.val

theorem getD_received (long : Memory) (noise : Nat → UInt8) (i : Nat) (hi : i < mrf_rx_fifo_length) :
    (received long noise).toList.getD i 0 =
      if i = 0 then long 1 + frame_check_sequence_size
      else if i ≤ (long 1).toNat then long (i + 1)
      else noise i := by
  rw [List.getD_eq_getElem?_getD, received, Vector.toList_ofFn, List.getElem?_ofFn, dif_pos hi,
    Option.getD_some]

theorem frameLength_received (long : Memory) (noise : Nat → UInt8) :
    frameLength (received long noise) = long 1 + frame_check_sequence_size := by
  have hfirst := getD_received long noise 0 (by decide)
  rwa [if_pos rfl, List.getD_eq_getElem?_getD, ← List.head?_eq_getElem?,
    ← List.headD_eq_head?_getD] at hfirst

theorem Faithful.suffix {start : System} {later earlier : List Happening}
    (h : Faithful start (later ++ earlier)) : Faithful start earlier := by
  induction later with
  | nil => exact h
  | cons happening later ih =>
      apply ih
      cases happening with
      | transmission long => exact h.2
      | _ => exact h

theorem mem_sent {long : Memory} {history : List Happening} :
    long ∈ sent history ↔ .transmission long ∈ history := by
  induction history with
  | nil => simp [sent]
  | cons happening history ih =>
      cases happening with
      | transmission other => simp [sent, ih, or_comm]
      | _ => simp [sent, ih]

-- What the driver cannot take away from the record, whatever it does.
structure Lasting (P : List Happening → Prop) : Prop where
  statusRead : ∀ history, P history → P (.statusRead :: history)
  softwareReset : ∀ history, P history → P (.softwareReset :: history)
  transmission : ∀ long history, P history → P (.transmission long :: history)
  returned : ∀ c answer history, P history → P (.returned c answer :: history)

namespace Lasting

variable [BitManipulation] (softwareReset : Chip → Memories) {P : List Happening → Prop}
  (h : Lasting P)

include h

omit [BitManipulation] in
private theorem device : (Chip.device softwareReset).Keeps fun chip => P chip.history where
  readShort address chip hs := by
    simp only [Chip.device]
    split
    · exact h.statusRead _ hs
    · exact hs
  writeShort address value chip hs := by
    simp only [Chip.device]
    split
    · exact h.softwareReset _ hs
    · split
      · exact h.transmission _ _ hs
      · exact hs
  readLong _ _ hs := hs
  writeLong _ _ _ hs := hs

theorem run {session : Node} (hs : P session.world.device.history)
    (moves : List (SessionMove Call ChipEvent))
    (hevent : ∀ e, .event e ∈ moves → ∀ chip, P chip.history → P (Chip.occur e chip).history) :
    P (Session.run (Chip.machine softwareReset) System.component session moves).world.device.history :=
  Session.run_world (M := Chip.machine softwareReset) (P := fun bus => P bus.device.history)
    (fun op bus hb => (h.device softwareReset).perform op bus hb)
    (fun c answer _ hb => h.returned c answer _ hb) hs moves
    fun e he bus hb => hevent e he bus.device hb

end Lasting

theorem Lasting.mem (happening : Happening) : Lasting (happening ∈ ·) where
  statusRead _ := List.mem_cons_of_mem _
  softwareReset _ := List.mem_cons_of_mem _
  transmission _ _ := List.mem_cons_of_mem _
  returned _ _ _ := List.mem_cons_of_mem _

section Nodes

variable [BitManipulation] (softwareReset : Chip → Memories)

def node : Station Node NodeMove Memory (Nat → UInt8) where
  step m session := Session.move (Chip.machine softwareReset) System.component session m.inSession
  emitted session := sent session.world.device.history
  receive long noise session := Session.move (Chip.machine softwareReset) System.component session
    (.event (.arrival (received long noise)))

-- What has been transmitted stays on record.
theorem sent_run (session : Node) (moves : List (SessionMove Call ChipEvent)) :
    sent session.world.device.history ⊆
      sent (Session.run (Chip.machine softwareReset) System.component session moves).world.device.history := by
  intro long hlong
  rw [mem_sent] at hlong ⊢
  refine (Lasting.mem (.transmission long)).run softwareReset hlong moves fun e _ chip hs => ?_
  cases e with
  | arrival frame =>
      simp only [Chip.occur]
      split
      · exact List.mem_cons_of_mem _ hs
      · exact hs
  | transmissionFinished => exact List.mem_cons_of_mem _ hs

theorem node_keeps : (node softwareReset).Keeps :=
  ⟨fun m session => sent_run softwareReset session [m.inSession],
    fun long noise session => sent_run softwareReset session [.event (.arrival (received long noise))]⟩

-- Only events put an arrival on record.
theorem arrival_of_move (system : System) (memories : Memories)
    (moves : List (SessionMove Call ChipEvent)) {frame : Vector UInt8 mrf_rx_fifo_length}
    (h : .arrival frame ∈ (System.run softwareReset system memories moves).world.device.history) :
    .event (.arrival frame) ∈ moves := by
  have hlasting : Lasting fun history => .arrival frame ∈ history → .event (.arrival frame) ∈ moves :=
    ⟨fun _ hs ha => hs (by simpa using ha), fun _ hs ha => hs (by simpa using ha),
      fun _ _ hs ha => hs (by simpa using ha), fun _ _ _ hs ha => hs (by simpa using ha)⟩
  have hnil : .arrival frame ∈ ([] : List Happening) → .event (.arrival frame) ∈ moves :=
    fun ha => by cases ha
  refine @Lasting.run _ softwareReset _ hlasting ⟨system, ⟨.deselected, ⟨memories, []⟩⟩, none⟩ hnil
    moves (fun e he chip hs => ?_) h
  cases e with
  | arrival other =>
      simp only [Chip.occur]
      split
      · intro ha
        rcases List.mem_cons.mp ha with heq | ha
        · cases heq
          exact he
        · exact hs ha
      · exact hs
  | transmissionFinished =>
      exact fun ha => hs ((List.mem_cons.mp ha).resolve_left fun he => by cases he)

end Nodes

section Networks

variable [BitManipulation] {ι : Type} [DecidableEq ι] (softwareReset : Chip → Memories)

-- Any number of callers, each with a driver and a chip that has no record yet.
def network (systems : ι → System) (memories : ι → Memories)
    (moves : List (NetworkMove ι NodeMove (Nat → UInt8))) : ι → Node :=
  Network.run (node softwareReset) (fun i => ⟨systems i, ⟨.deselected, ⟨memories i, []⟩⟩, none⟩) moves

variable (systems : ι → System) (memories : ι → Memories)
  (moves : List (NetworkMove ι NodeMove (Nat → UInt8)))

-- Each node is in a session of its own, and all that arrives there has been
-- transmitted by some node.
theorem network_session (i : ι) :
    ∃ seen, network softwareReset systems memories moves i =
        System.run softwareReset (systems i) (memories i) seen ∧
      ∀ frame, .event (.arrival frame) ∈ seen → ∃ j long noise, frame = received long noise ∧
        .transmission long ∈ (network softwareReset systems memories moves j).world.device.history := by
  obtain ⟨seen, hrun, hseen⟩ := Network.run_station (node_keeps softwareReset)
    (fun i => ⟨systems i, ⟨.deselected, ⟨memories i, []⟩⟩, none⟩) moves i
  let inSession : StationMove NodeMove Memory (Nat → UInt8) → SessionMove Call ChipEvent
    | .own m => m.inSession
    | .receive long noise => .event (.arrival (received long noise))
  refine ⟨seen.map inSession, hrun.trans ?_, fun frame hframe => ?_⟩
  · unfold Station.run System.run Session.run
    rw [List.foldl_map]
    congr 1
    funext session m
    cases m <;> rfl
  · obtain ⟨m, hm, he⟩ := List.mem_map.mp hframe
    cases m with
    | own m => cases m <;> cases he
    | receive long noise =>
        have hframe' : received long noise = frame := ChipEvent.arrival.inj (SessionMove.event.inj he)
        obtain ⟨j, hj⟩ := hseen long noise hm
        exact ⟨j, long, noise, hframe'.symm, mem_sent.mp hj⟩

theorem arrival_of_transmission {i : ι} {frame : Vector UInt8 mrf_rx_fifo_length}
    (h : .arrival frame ∈ (network softwareReset systems memories moves i).world.device.history) :
    ∃ j long noise, frame = received long noise ∧
      .transmission long ∈ (network softwareReset systems memories moves j).world.device.history := by
  obtain ⟨seen, hrun, hseen⟩ := network_session softwareReset systems memories moves i
  rw [hrun] at h
  exact hseen frame (arrival_of_move softwareReset (systems i) (memories i) seen h)

-- Whatever is transmitted in a network, its sender has composed.
theorem transmission_carries {j : ι} {long : Memory}
    (h : .transmission long ∈ (network softwareReset systems memories moves j).world.device.history) :
    ∃ later past, (network softwareReset systems memories moves j).world.device.history =
        later ++ .transmission long :: past ∧
      Carries (systems j) past long := by
  obtain ⟨later, past, hhistory⟩ := List.append_of_mem h
  obtain ⟨seen, hrun, -⟩ := network_session softwareReset systems memories moves j
  have hfaithful := @System.run_faithful _ softwareReset (systems j) (memories j) seen
  rw [← hrun, hhistory] at hfaithful
  exact ⟨later, past, hhistory, (Faithful.suffix hfaithful).1⟩

end Networks

-- What the functions for received packets find in a packet of this size: the
-- payload of a message and its source address.
structure Conveys [BitManipulation] (fields : HeaderFields) (payload : BytePointer) (n : Nat)
    (packet : BytePointer) (size : UInt8) : Prop where
  size_eq : size.toNat = fields.toBytes.length + n + 3
  payloadSize : (getPacketPayloadSize packet).toNat = n
  payload : Memory.contents packet (getPacketPayload packet) n = (List.range n).map payload
  sourceSize : (getPacketSourceAddressSize packet).toNat = fields.source.toList.length
  short : packetAddressIsShort packet = !fields.source.isExtended
  extended : packetAddressIsLong packet = fields.source.isExtended
  shortSource : Memory.contents packet (getPacketShortSourceAddress packet)
    (getPacketSourceAddressSize packet).toNat = fields.source.toList
  extendedSource : Memory.contents packet (getPacketExtendedSourceAddress packet)
    (getPacketSourceAddressSize packet).toNat = fields.source.toList

section Packet

variable {fields : HeaderFields} {payload : BytePointer} {n : Nat} {long : Memory}
  (hlong : long.StartsWith (image fields payload n)) (hfit : fields.toBytes.length + n ≤ 125)

include hlong hfit

theorem toNat_of_image : (long 1).toNat = fields.toBytes.length + n := by
  rw [(contents_of_image hlong).1]
  exact UInt8.toNat_ofNat_of_lt' (by unfold UInt8.size; omega)

variable {noise : Nat → UInt8} {packet : BytePointer} {size : UInt8} (hsize : size = long 1 + 3)
  (hpacket : ∀ i < size.toNat, i < mrf_rx_fifo_length →
    packet i = (received long noise).toList.getD i 0)

include hsize hpacket

theorem contents_of_received : size.toNat = fields.toBytes.length + n + 3 ∧
    Memory.contents packet 0 (fields.toBytes.length + ((List.range n).map payload).length + 3) =
      packetOf fields ((List.range n).map payload)
        #v[packet (fields.toBytes.length + n + 1), packet (fields.toBytes.length + n + 2)] := by
  have hthree : (3 : UInt8).toNat = 3 := rfl
  have hfifo : mrf_rx_fifo_length = 144 := rfl
  have hnat := toNat_of_image hlong hfit
  obtain ⟨hlength, hrest⟩ := contents_of_image hlong
  rw [packetOf, List.length_map, List.length_range, ← hrest]
  generalize fields.toBytes.length + n = whole at *
  have hwhole : size.toNat = whole + 3 := by
    rw [hsize, UInt8.toNat_add, hthree]
    omega
  have hreceived (i : Nat) (hi : i < whole + 3) :=
    (hpacket i (by omega) (by omega)).trans (getD_received long noise i (by omega))
  refine ⟨hwhole, ?_⟩
  rw [show whole + 3 = whole + 2 + 1 by omega, Memory.contents_succ, Memory.contents_append]
  congr 1
  · rw [hreceived 0 (by omega), if_pos rfl, hlength, UInt8.ofNat_add whole 2]
    rfl
  · congr 1
    · refine Memory.contents_shift fun i hi => ?_
      rw [hreceived (0 + 1 + i) (by omega), if_neg (by omega), if_pos (by omega)]
      congr 1
      omega
    · rw [show 0 + 1 + whole = whole + 1 by omega]
      rfl

theorem conveys_of_received [BitManipulation] : Conveys fields payload n packet size := by
  obtain ⟨hwhole, hcontents⟩ := contents_of_received hlong hfit hsize hpacket
  have hpayload := getPacketPayload_contents hcontents
  have hpayloadSize := getPacketPayloadSize_eq hcontents
    (by rw [List.length_map, List.length_range]; exact hfit)
  rw [List.length_map, List.length_range] at hpayload hpayloadSize
  obtain ⟨hshort, hextended⟩ := packetAddress_eq hcontents
  obtain ⟨hshortSource, hextendedSource⟩ := sourceAddress_contents hcontents
  exact ⟨hwhole, hpayloadSize, hpayload, getPacketSourceAddressSize_eq hcontents, hshort, hextended,
    hshortSource, hextendedSource⟩

end Packet

theorem latestArrival_of_not_mem {later earlier : List Happening}
    (harrival : ∀ frame, .arrival frame ∉ later) (hreset : .softwareReset ∉ later) :
    latestArrival (later ++ earlier) = latestArrival earlier := by
  induction later with
  | nil => rfl
  | cons happening later ih =>
      have hrest := ih (fun frame h => harrival frame (List.mem_cons_of_mem _ h))
        fun h => hreset (List.mem_cons_of_mem _ h)
      cases happening with
      | arrival frame => exact absurd List.mem_cons_self (harrival frame)
      | softwareReset => exact absurd List.mem_cons_self hreset
      | _ => exact hrest

namespace System

variable [BitManipulation] {softwareReset : Chip → Memories}

-- If nothing arrives between the size and the fetch, both are those of one frame.
theorem fetched_frame
    (hreset : ∀ chip, (softwareReset chip).short mrf_register_interrupt_status.toNat >>> 3 &&& 1 = 0)
    (system : System) (memories : Memories) (moves : List (SessionMove Call ChipEvent))
    {later between' between earlier : List Happening} {buffer : BytePointer} {size : UInt8}
    {fetched configured : Answer}
    (hhistory : (run softwareReset system memories moves).world.device.history =
      later ++ .returned (.fetchPacketBlocking buffer size) fetched ::
        (between' ++ .returned .getReceivedPacketSize (.size size) ::
          (between ++ .returned .newPacketAvailable (.flag true) :: earlier)))
    (hconfigured : .returned .configure configured ∈ earlier)
    (hbetween : .softwareReset ∉ between) (hbetween' : .softwareReset ∉ between')
    (harrival : ∀ frame, .arrival frame ∉ between') :
    ∃ packet frame, fetched = .packet packet ∧
      .arrival frame ∈ (run softwareReset system memories moves).world.device.history ∧
      size = frameLength frame + frame_length_field_size ∧
      ∀ i < size.toNat, i < mrf_rx_fifo_length → packet i = frame.toList.getD i 0 := by
  have hanswered : Answered (run softwareReset system memories moves).world.device.history :=
    (run_buffers system memories moves).answered
  rw [hhistory] at hanswered
  obtain ⟨⟨packet, hpacket, -, hbytes⟩, hrest⟩ := Answered.suffix hanswered
  obtain ⟨hsize, -⟩ := Answered.suffix hrest
  have hpolled : (run softwareReset system memories moves).world.device.history =
      (later ++ .returned (.fetchPacketBlocking buffer size) fetched ::
        (between' ++ .returned .getReceivedPacketSize (.size size) :: between)) ++
        .returned .newPacketAvailable (.flag true) :: earlier := by
    rw [hhistory]
    simp only [List.append_assoc, List.cons_append]
  obtain ⟨frame, hframe⟩ := latestArrival_of_poll hreset system memories moves hpolled hconfigured
  obtain ⟨latest, hlatest⟩ := latestArrival_append hframe hbetween
  have hsized : latestArrival (.returned .getReceivedPacketSize (.size size) ::
      (between ++ .returned .newPacketAvailable (.flag true) :: earlier)) = some latest := hlatest
  have hfetch := (latestArrival_of_not_mem harrival hbetween').trans hsized
  refine ⟨packet, latest, hpacket, ?_, Answer.size.inj (hsize latest hlatest),
    hbytes latest hfetch⟩
  rw [hhistory]
  exact List.mem_append_right _ (List.mem_cons_of_mem _ (mem_of_latestArrival hfetch))

variable {ι : Type} [DecidableEq ι]

-- In a network of any number of drivers, whatever the calls and whatever the
-- network delivers, loses, repeats or reorders: a caller that has configured its
-- driver, polled a packet, asked for its size and fetched it, with no arrival in
-- between, has got a transmission of some node, byte by byte. If that node's
-- caller had configured its driver and set a payload since, and the header has
-- had the same size from then on, the packet conveys this payload.
theorem fetched_packet_was_composed
    (hreset : ∀ chip, (softwareReset chip).short mrf_register_interrupt_status.toNat >>> 3 &&& 1 = 0)
    (systems : ι → System) (memories : ι → Memories)
    (moves : List (NetworkMove ι NodeMove (Nat → UInt8))) (i : ι)
    (later between' between earlier : List Happening) (buffer : BytePointer) (size : UInt8)
    (fetched configured : Answer)
    (hhistory : (network softwareReset systems memories moves i).world.device.history =
      later ++ .returned (.fetchPacketBlocking buffer size) fetched ::
        (between' ++ .returned .getReceivedPacketSize (.size size) ::
          (between ++ .returned .newPacketAvailable (.flag true) :: earlier)))
    (hconfigured : .returned .configure configured ∈ earlier)
    (hbetween : .softwareReset ∉ between) (hbetween' : .softwareReset ∉ between')
    (harrival : ∀ frame, .arrival frame ∉ between') :
    ∃ packet j after long past noise, fetched = .packet packet ∧
      (network softwareReset systems memories moves j).world.device.history =
        after ++ .transmission long :: past ∧
      size = long 1 + 3 ∧
      (∀ i < size.toNat, i < mrf_rx_fifo_length →
        packet i = (received long noise).toList.getD i 0) ∧
      ∀ used calls before payload n,
        (callerOf (systems j).config past).configured = some (used, calls) →
        SetsLast calls before payload n →
        selectedHeaderSize used before = selectedHeaderSize used calls →
        selectedHeaderSize used calls + n ≤ 125 →
          Conveys (selectedFields used calls) payload n packet size := by
  obtain ⟨seen, hrun, -⟩ := network_session softwareReset systems memories moves i
  have hhistory' := hhistory
  rw [hrun] at hhistory'
  obtain ⟨packet, frame, hpacket, hframe, hsize, hbytes⟩ := fetched_frame hreset (systems i)
    (memories i) seen hhistory' hconfigured hbetween hbetween' harrival
  rw [← hrun] at hframe
  obtain ⟨j, long, noise, rfl, hlong⟩ :=
    arrival_of_transmission softwareReset systems memories moves hframe
  obtain ⟨after, past, hpast, hcarries⟩ :=
    transmission_carries softwareReset systems memories moves hlong
  have hlength : size = long 1 + 3 := by
    rw [hsize, frameLength_received, UInt8.add_assoc]
    rfl
  refine ⟨packet, j, after, long, past, noise, hpacket, hpast, hlength, hbytes, ?_⟩
  intro used calls before payload n hused hlast hkept hfit
  have himage := (hcarries used calls hused).whole before payload n hlast (by omega) hkept
  exact conveys_of_received himage hfit hlength hbytes

omit [BitManipulation] in
-- What a run that can be computed shows of its record: a poll, the size, and a
-- fetch with this size.
def plainFetch : List Happening → Option UInt8
  | .returned (.fetchPacketBlocking _ size) (.packet _) ::
      .returned .getReceivedPacketSize (.size size') ::
      .returned .newPacketAvailable (.flag true) :: _ =>
      if size = size' then some size else none
  | _ => none

omit [BitManipulation] in
theorem eq_of_plainFetch {history : List Happening} {size : UInt8}
    (h : plainFetch history = some size) : ∃ buffer packet,
      history = [] ++ .returned (.fetchPacketBlocking buffer size) (.packet packet) ::
        ([] ++ .returned .getReceivedPacketSize (.size size) ::
          ([] ++ .returned .newPacketAvailable (.flag true) :: history.drop 3)) := by
  unfold plainFetch at h
  split at h
  · rename_i buffer size' packet size'' earlier
    by_cases he : size' = size''
    · rw [if_pos he] at h
      cases he
      cases h
      exact ⟨buffer, packet, rfl⟩
    · rw [if_neg he] at h
      cases h
  · cases h

omit [BitManipulation] in
-- The calls of a caller that sends these two bytes to a short address.
def saysHello : Option (Mac802154Config × List SetterCall) → Bool
  | some (_, [.setShortDestinationAddress _, .setPayload payload 2]) =>
      payload 0 == 0x68 && payload 1 == 0x69
  | _ => false

omit [BitManipulation] in
theorem eq_of_saysHello {configured : Option (Mac802154Config × List SetterCall)}
    (h : saysHello configured = true) : ∃ used address payload,
      configured = some (used, [.setShortDestinationAddress address, .setPayload payload 2]) ∧
      (List.range 2).map payload = [0x68, 0x69] := by
  unfold saysHello at h
  split at h
  · rename_i used address payload
    rw [Bool.and_eq_true, beq_iff_eq, beq_iff_eq] at h
    refine ⟨used, address, payload, rfl, ?_⟩
    rw [← h.1, ← h.2]
    rfl
  · cases h

omit [BitManipulation] in
-- There is no transmission of other calls.
def onlyHello (config : Mac802154Config) : List Happening → Bool
  | [] => true
  | .transmission _ :: history =>
      saysHello (callerOf config history).configured && onlyHello config history
  | _ :: history => onlyHello config history

omit [BitManipulation] in
theorem saysHello_of_onlyHello {config : Mac802154Config} {after past : List Happening}
    {long : Memory} (h : onlyHello config (after ++ .transmission long :: past) = true) :
    saysHello (callerOf config past).configured = true := by
  induction after with
  | nil => exact (Bool.and_eq_true_iff.mp h).1
  | cons happening after ih =>
      apply ih
      cases happening with
      | transmission other => exact (Bool.and_eq_true_iff.mp h).2
      | _ => exact h

-- One of two nodes sends two bytes, and the other one receives them.
def helloMoves : List (NetworkMove Bool NodeMove (Nat → UInt8)) :=
  let alone (i : Bool) : List NodeMove → List (NetworkMove Bool NodeMove (Nat → UInt8)) := List.map (.own i)
  alone true (.call .configure :: List.replicate 121 .act) ++
    alone false (.call .configure :: List.replicate 121 .act ++
      .call (.setter (.setShortDestinationAddress #v[1, 2])) ::
      .call (.setter (.setPayload (fun i => [0x68, 0x69].getD i 0) 2)) :: .call .sendBlocking ::
      List.replicate 12 .act) ++
    .deliver false 0 (fun _ => 0xAB) true ::
    alone true (.call .newPacketAvailable :: List.replicate 4 .act ++ .call .getReceivedPacketSize ::
      List.replicate 4 .act ++ .call (.fetchPacketBlocking (fun _ => 0) 14) :: List.replicate 4 .act)

def helloRecord (i : Bool) : List Happening :=
  (@network BitManipulation.reference Bool _ (fun _ => ⟨fun _ => 0, fun _ => 0⟩)
    (fun _ => ⟨Mrf.zeroed, { Mrf.zeroed.config with channel := 12 }⟩)
    (fun _ => ⟨fun _ => 0, fun _ => 0⟩) helloMoves i).world.device.history

omit [BitManipulation] in
theorem fetched_packet_was_composed_hello :
    ∃ buffer packet j long noise,
      .returned (.fetchPacketBlocking buffer 14) (.packet packet) ∈ helloRecord true ∧
      .transmission long ∈ helloRecord j ∧
      (∀ i < 14, packet i = (received long noise).toList.getD i 0) ∧
      Memory.contents packet (@getPacketPayload BitManipulation.reference packet) 2 =
        [0x68, 0x69] := by
  have hfetch : plainFetch (helloRecord true) = some 14 := by decide +kernel
  have hhello : ∀ j, onlyHello { Mrf.zeroed.config with channel := 12 } (helloRecord j) = true := by
    decide +kernel
  obtain ⟨buffer, packet, hhistory⟩ := eq_of_plainFetch hfetch
  obtain ⟨packet', j, after, long, past, noise, hpacket, hsent, -, hbytes, hconveys⟩ :=
    @fetched_packet_was_composed BitManipulation.reference _ Bool _ (fun _ => rfl) _ _ _ true
      [] [] [] _ buffer 14 _ .nothing hhistory (configured_of_any (by decide +kernel)) (by simp)
      (by simp) (by simp)
  obtain rfl : packet = packet' := Answer.packet.inj hpacket
  have hsent' : helloRecord j = after ++ .transmission long :: past := hsent
  have hcalls := hhello j
  rw [hsent'] at hcalls
  obtain ⟨used, address, payload, hused, hpayload⟩ :=
    eq_of_saysHello (saysHello_of_onlyHello hcalls)
  have hle := (selectedFields used [.setShortDestinationAddress address]).length_toBytes_le
  have hmessage := hconveys used _ [.setShortDestinationAddress address] payload 2 hused
    ⟨[], rfl, by simp⟩ rfl (Nat.le_trans (Nat.add_le_add_right hle 2) (by decide))
  refine ⟨buffer, packet, j, long, noise, ?_, ?_, fun i hi => hbytes i hi ?_, ?_⟩
  · rw [hhistory]
    exact List.mem_cons_self
  · rw [hsent']
    exact List.mem_append_right _ List.mem_cons_self
  · exact Nat.lt_trans hi (by decide)
  · rw [← hpayload]
    exact @Conveys.payload BitManipulation.reference _ _ _ _ _ hmessage

end System

end Mac802154
