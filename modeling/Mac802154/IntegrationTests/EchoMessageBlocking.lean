import Mac802154.IntegrationTests.Replies

namespace Mac802154.EchoMessageBlocking

open Library FrameHeader802154 Client

def config : Mac802154Config where
  short_source_address := Vector.ofFn fun i => [0xAA, 0xAA].getD i 0
  extended_source_address := Vector.ofFn fun i =>
    [0x11, 0x22, 0x33, 0x44, 0x55, 0x66, 0x77, 0x88].getD i 0
  pan_id := Vector.ofFn fun i => [0xCC, 0xDD].getD i 0
  channel := 12

def waitForPacket : Client Call Answer Unit :=
  .repeatUntil (fun _ => do
    let answer ← ask .newPacketAvailable
    return ((), answer.toFlag)) () .ret

variable [BitManipulation] (stack : Nat → BytePointer)

-- One round of the endless loop. The array is new in each round, and until the
-- packet is fetched it holds what its memory held before.
def round (i : Nat) : Client Call Answer (Nat × Bool) := do
  waitForPacket
  let size ← ask .getReceivedPacketSize
  let fetched ← ask (.fetchPacketBlocking (stack i) size.toSize)
  let packet := fetched.toPacket
  let _ ← ask (.setter (.setShortDestinationAddress (shortSourceOf packet)))
  let _ ← ask (.setter (.setPayload (payloadOf packet) (getPacketPayloadSize packet).toNat))
  let _ ← ask .sendBlocking
  return (i + 1, false)

def main : Client Call Answer Unit := do
  let _ ← ask (.overwriteConfig config)
  let _ ← ask .configure
  Program.repeatUntil (round stack) 0 fun _ => .ret ()

section Conversation

-- The reply to a packet has been set up, and nothing has been called since the
-- poll but what that takes.
def Ready (start : Mac802154Config) (entries : List (Call × Answer)) : Prop :=
  ∃ buffer sized fetched answer answer' rest,
    let packet := fetched.toPacket
    entries = (.setter (.setPayload (payloadOf packet) (getPacketPayloadSize packet).toNat), answer') ::
      (.setter (.setShortDestinationAddress (shortSourceOf packet)), answer) ::
      (.fetchPacketBlocking buffer sized.toSize, fetched) :: (.getReceivedPacketSize, sized) ::
      (.newPacketAvailable, .flag true) :: rest ∧
    Configured start config rest

def Allowed (start : Mac802154Config) (entries : List (Call × Answer)) (c : Call) : Prop :=
  c = .sendBlocking → Ready start entries

variable {start : Mac802154Config}

theorem waitForPacket_conducts :
    Conducts (Allowed start) (Configured start config) waitForPacket fun _ entries =>
      ∃ rest, entries = (.newPacketAvailable, .flag true) :: rest ∧ Configured start config rest := by
  refine .repeatUntil (J := fun _ => Configured start config) (fun _ => ?_) (fun _ => .ret fun _ hs => hs) ()
  refine .bind_ask (fun _ _ he => by cases he) fun answer => .ret ?_
  rintro _ ⟨rest, rfl, hs⟩
  cases hflag : answer.toFlag with
  | false => exact hs.cons rfl
  | true => exact ⟨rest, by rw [Answer.eq_of_toFlag hflag], hs⟩

theorem round_conducts (i : Nat) :
    Conducts (Allowed start) (Configured start config) (round stack i) fun r entries =>
      r.2 = false ∧ Configured start config entries := by
  refine .bind waitForPacket_conducts fun _ => ?_
  refine .bind_ask (fun _ _ he => by cases he) fun sized => ?_
  refine .bind_ask (fun _ _ he => by cases he) fun fetched => ?_
  refine .bind_ask (fun _ _ he => by cases he) fun answer => ?_
  refine .bind_ask (fun _ _ he => by cases he) fun answer' => ?_
  refine .bind_ask ?_ fun sent => .ret ?_
  · rintro _ ⟨_, rfl, _, rfl, _, rfl, _, rfl, rest, rfl, hs⟩ -
    exact ⟨stack i, sized, fetched, answer, answer', rest, rfl, hs⟩
  · rintro _ ⟨_, rfl, _, rfl, _, rfl, _, rfl, _, rfl, rest, rfl, hs⟩
    have hfetched : Configured start config ((.fetchPacketBlocking (stack i) sized.toSize, fetched) ::
        (.getReceivedPacketSize, sized) :: (.newPacketAvailable, .flag true) :: rest) :=
      .cons (.cons (.cons hs rfl) rfl) rfl
    exact ⟨rfl, .cons (.setter (.setter hfetched fun _ => rfl) fun _ => rfl) rfl⟩

theorem main_conducts : Conducts (Allowed start) (· = []) (main stack) fun _ _ => False := by
  refine .bind_ask (fun _ _ he => by cases he) fun answer => ?_
  refine .bind_ask (fun _ _ he => by cases he) fun answer' => ?_
  refine Conducts.consequence (.repeatUntil (J := fun _ => Configured start config)
    (R := fun _ _ => False) (fun i => (round_conducts stack i).consequence (fun _ hs => hs) ?_)
    (fun _ => .ret fun _ hs => hs) 0) ?_ fun _ _ hs => hs
  · rintro ⟨i, done⟩ entries ⟨rfl, hs⟩
    exact hs
  · rintro _ ⟨_, rfl, _, rfl, rfl⟩
    exact .begin answer answer' []

end Conversation

-- What a transmission carries, once the reply has been set up.
theorem startsWith_of_ready {start : System} {past : List Happening} {long : Memory}
    {buffer : BytePointer} {sized fetched answer answer' : Answer} {rest : List (Call × Answer)}
    (hsaid : said past = (.setter (.setPayload (payloadOf fetched.toPacket)
        (getPacketPayloadSize fetched.toPacket).toNat), answer') ::
      (.setter (.setShortDestinationAddress (shortSourceOf fetched.toPacket)), answer) ::
      (.fetchPacketBlocking buffer sized.toSize, fetched) :: (.getReceivedPacketSize, sized) ::
      (.newPacketAvailable, .flag true) :: rest)
    (hrest : Configured start.config config rest) (hcarries : Carries start past long) :
    long.StartsWith (reply config fetched.toPacket) := by
  obtain ⟨-, calls, hcalls, hsource⟩ := hrest
  have hused : (callerOf start.config past).configured = some (config,
      calls ++ [.setShortDestinationAddress (shortSourceOf fetched.toPacket)] ++
        [.setPayload (payloadOf fetched.toPacket) (getPacketPayloadSize fetched.toPacket).toNat]) := by
    rw [callerOf_said, hsaid]
    simp only [replay, List.map_cons, callerOf]
    rw [show (callerOf start.config (rest.map fun entry => .returned entry.1 entry.2)).configured =
      some (config, calls) from hcalls]
    rfl
  exact (hcarries config _ hused).reply hsource

variable {softwareReset : Chip → Memories}
  (hreset : ∀ chip, (softwareReset chip).short mrf_register_interrupt_status.toNat >>> 3 &&& 1 = 0)

include hreset

private theorem reply_of_transmission (system : System) (memories : Memories)
    (ms : List (Move ChipEvent)) {later past : List Happening} {long : Memory}
    (hhistory : (drive softwareReset system memories (main stack) ms).session.world.device.history =
      later ++ .transmission long :: past) :
    ∃ packet first last, Fetches past packet first last ∧
      long.StartsWith (reply config packet) := by
  obtain ⟨buffer, sized, fetched, answer, answer', rest, hsaid, hrest⟩ :=
    allowed_of_transmission (main_conducts stack) system memories ms hhistory rfl
  obtain ⟨hrecorded, hanswered, hattributed, hsilent, hkept, hcarries⟩ :=
    record_of_transmission hreset system memories (main stack) ms hhistory
  obtain ⟨configured, hconfigured⟩ := hrest.1
  obtain ⟨first, last, hfetches⟩ := @fetches_of_said past [_, _] rest buffer fetched sized configured
    hrecorded hanswered hattributed hsilent hkept hsaid (by simp) hconfigured
  exact ⟨fetched.toPacket, first, last, hfetches, startsWith_of_ready hsaid hrest hcarries⟩

-- In every run of the program, whatever arrives and whenever: it never stops, and
-- each of its transmissions is the reply to a packet that it has fetched since
-- the transmission before, and for which there has been an arrival since then.
theorem transmissions_echo (system : System) (memories : Memories) (ms : List (Move ChipEvent)) :
    let driven := drive softwareReset system memories (main stack) ms
    driven.client.isRunning ∧
      ∀ later long past, driven.session.world.device.history = later ++ .transmission long :: past →
        ∃ packet first last, Fetches past packet first last ∧
          long.StartsWith (reply config packet) := by
  intro driven
  constructor
  · obtain ⟨-, -, hrunning | ⟨_, -, hfalse⟩⟩ := Driven.run_conducts (said_records softwareReset)
      (main_conducts stack : Conducts (Allowed system.config) _ _ _) system
      ⟨.deselected, ⟨memories, []⟩⟩ rfl ms
    · exact hrunning
    · exact hfalse.elim
  · intro later long past hhistory
    exact reply_of_transmission stack hreset system memories ms hhistory

-- Two bytes from the address 0xBBBC arrive.
def helloMoves : List (Move ChipEvent) :=
  List.replicate 124 .act ++ .event (.arrival (Vector.ofFn fun i =>
    [13, 0x41, 0xA8, 7, 0xCC, 0xDD, 0xAA, 0xAA, 0xBB, 0xBC, 0x68, 0x69, 1, 2].getD i 0)) ::
    List.replicate 40 .act

omit [BitManipulation] in
def helloDriven : Driven PeripheralOp PeripheralOp.Response (Bus Chip) System Call Answer Unit :=
  @drive BitManipulation.reference (fun _ => ⟨fun _ => 0, fun _ => 0⟩) _
    ⟨Mrf.zeroed, Mrf.zeroed.config⟩ ⟨fun _ => 0, fun _ => 0⟩
    (@main BitManipulation.reference fun _ _ => 0) helloMoves

omit [BitManipulation] hreset in
theorem transmissions_echo_hello :
    ∃ later long past packet first last,
      helloDriven.session.world.device.history = later ++ .transmission long :: past ∧
      Fetches past packet first last ∧ long.contents 11 2 = [0x68, 0x69] ∧
      long.StartsWith (@reply BitManipulation.reference config packet) := by
  have hsent : (sent helloDriven.session.world.device.history).map (·.contents 11 2) =
      [[0x68, 0x69]] := by decide +kernel
  obtain ⟨long, hlong, hpayload⟩ := List.mem_map.mp
    (hsent.symm ▸ List.mem_cons_self : [0x68, 0x69] ∈ (sent _).map (·.contents 11 2))
  obtain ⟨later, past, hhistory⟩ := List.append_of_mem (mem_sent.mp hlong)
  unfold helloDriven at hhistory ⊢
  obtain ⟨-, hecho⟩ := @transmissions_echo BitManipulation.reference (fun _ _ => 0)
    (fun _ => ⟨fun _ => 0, fun _ => 0⟩) (fun _ => rfl) ⟨Mrf.zeroed, Mrf.zeroed.config⟩
    ⟨fun _ => 0, fun _ => 0⟩ helloMoves
  obtain ⟨packet, first, last, hfetches, hcontents⟩ := hecho later long past hhistory
  exact ⟨later, long, past, packet, first, last, hhistory, hfetches, hpayload, hcontents⟩

variable {ι : Type} [DecidableEq ι]

-- In a network of any number of programs, whatever they are and whatever the
-- network delivers, loses, repeats or reorders: the program replies to what some
-- node has transmitted and it has not replied to yet. Unless another frame has
-- arrived between the two reads, a message from a short address goes back to that
-- address with its payload.
theorem network_echo (systems : ι → System) (memories : ι → Memories)
    (clients : ι → Client Call Answer Unit) (moves : List (NetworkMove ι ProgramMove (Nat → UInt8)))
    (i : ι) (hclient : clients i = main stack) (later past : List Happening) (long : Memory)
    (hhistory : (programs softwareReset systems memories clients moves i).session.world.device.history =
      later ++ .transmission long :: past) :
    ∃ packet first last j after sent past' noise, Fetches past packet first last ∧
      last = received sent noise ∧
      (programs softwareReset systems memories clients moves j).session.world.device.history =
        after ++ .transmission sent :: past' ∧
      ∀ used calls before payload n address,
        (callerOf (systems j).config past').configured = some (used, calls) →
        SetsLast calls before payload n →
        selectedHeaderSize used before = selectedHeaderSize used calls →
        selectedHeaderSize used calls + n ≤ 125 →
        selectedSource used calls = .short address →
        first = last → long.StartsWith (image (fieldsTo config address) payload n) := by
  obtain ⟨ms, hdrive, -⟩ := programs_drive softwareReset systems memories clients moves i
  have hhistory' := hhistory
  rw [hdrive, hclient] at hhistory'
  obtain ⟨packet, first, last, hfetches, hcontents⟩ :=
    reply_of_transmission stack hreset (systems i) (memories i) ms hhistory'
  have hmem : .arrival last ∈
      (programs softwareReset systems memories clients moves i).session.world.device.history := by
    rw [hhistory]
    exact List.mem_append_right _ (List.mem_cons_of_mem _ hfetches.mem)
  obtain ⟨j, after, sent, past', noise, rfl, hsent, hcarries⟩ :=
    programs_arrival systems memories clients moves hreset hmem
  refine ⟨packet, first, _, j, after, sent, past', noise, hfetches, rfl, hsent, ?_⟩
  intro used calls before payload n address hused hlast hkept hfit hsource hframes
  subst hframes
  have hlength : frameLength (received sent noise) + frame_length_field_size = sent 1 + 3 := by
    rw [frameLength_received, UInt8.add_assoc]
    rfl
  have himage := (hcarries used calls hused).whole before payload n hlast (by omega) hkept
  have hconveys := conveys_of_received himage hfit hlength hfetches.packet_eq
  rwa [hconveys.reply_eq hsource config] at hcontents

omit [BitManipulation] in
-- The other node sends two bytes.
def hello : Client Call Answer Unit := do
  let _ ← ask (.overwriteConfig
    { config with short_source_address := Vector.ofFn fun i => [0xBB, 0xBC].getD i 0 })
  let _ ← ask .configure
  let _ ← ask (.setter (.setShortDestinationAddress config.short_source_address))
  let _ ← ask (.setter (.setPayload (fun i => [0x68, 0x69].getD i 0) 2))
  let _ ← ask .sendBlocking
  return ()

def helloNetworkMoves : List (NetworkMove Bool ProgramMove (Nat → UInt8)) :=
  List.replicate 124 (.own true .act) ++ List.replicate 140 (.own false .act) ++
    .deliver false 0 (fun _ => 0xAB) true :: List.replicate 40 (.own true .act)

omit [BitManipulation] in
def helloPrograms :
    Bool → Driven PeripheralOp PeripheralOp.Response (Bus Chip) System Call Answer Unit :=
  @programs BitManipulation.reference (fun _ => ⟨fun _ => 0, fun _ => 0⟩) _ _
    (fun _ => ⟨Mrf.zeroed, Mrf.zeroed.config⟩) (fun _ => ⟨fun _ => 0, fun _ => 0⟩)
    (fun i => if i then @main BitManipulation.reference fun _ _ => 0 else hello) helloNetworkMoves

omit [BitManipulation] hreset in
def helloRecord (i : Bool) : List Happening :=
  (helloPrograms i).session.world.device.history

-- What has arrived is the same frame each time.
def arrivesOnly (frame : Vector UInt8 mrf_rx_fifo_length) (history : List Happening) : Bool :=
  history.all fun happening => match happening with
    | .arrival other => other == frame
    | _ => true

omit [BitManipulation] hreset in
theorem eq_of_arrivesOnly {frame other : Vector UInt8 mrf_rx_fifo_length} {history : List Happening}
    (h : arrivesOnly frame history = true) (hmem : .arrival other ∈ history) : other = frame :=
  eq_of_beq (List.all_eq_true.mp h _ hmem)

omit [BitManipulation] hreset in
-- Both nodes send no other payload, so the reply is of these two bytes.
theorem network_echo_hello :
    ∃ later long past packet frame address payload,
      helloRecord true = later ++ .transmission long :: past ∧
      Fetches past packet frame frame ∧ (List.range 2).map payload = [0x68, 0x69] ∧
      long.StartsWith (image (fieldsTo config address) payload 2) := by
  obtain ⟨hsent, harrives, hhello⟩ : 0 < (sent (helloRecord true)).length ∧
      arrivesOnly (Vector.ofFn fun i => [13, 0x41, 0xA8, 0, 0xCC, 0xDD, 0xAA, 0xAA,
        0xBB, 0xBC, 0x68, 0x69].getD i 0xAB) (helloRecord true) = true ∧
      ∀ j, System.onlyHello Mrf.zeroed.config (helloRecord j) = true := by decide +kernel
  obtain ⟨long, hlong⟩ := List.exists_mem_of_length_pos hsent
  obtain ⟨later, past, hhistory⟩ := List.append_of_mem (mem_sent.mp hlong)
  have hprograms := hhistory
  unfold helloRecord helloPrograms at hprograms
  obtain ⟨packet, first, last, j, after, transmission, past', noise, hfetches, -, hfrom, hreply⟩ :=
    @network_echo BitManipulation.reference (fun _ _ => 0) (fun _ => ⟨fun _ => 0, fun _ => 0⟩)
      (fun _ => rfl) Bool _ (fun _ => ⟨Mrf.zeroed, Mrf.zeroed.config⟩)
      (fun _ => ⟨fun _ => 0, fun _ => 0⟩)
      (fun i => if i then @main BitManipulation.reference fun _ _ => 0 else hello)
      helloNetworkMoves true rfl later past long hprograms
  have hpast (other : Vector UInt8 mrf_rx_fifo_length) (hmem : .arrival other ∈ past) :
      .arrival other ∈ helloRecord true := by
    rw [hhistory]
    exact List.mem_append_right _ (List.mem_cons_of_mem _ hmem)
  have hframes : first = last :=
    (eq_of_arrivesOnly harrives (hpast _ hfetches.mem_first)).trans
      (eq_of_arrivesOnly harrives (hpast _ hfetches.mem)).symm
  have hfrom' : helloRecord j = after ++ .transmission transmission :: past' := hfrom
  have hcalls := hhello j
  rw [hfrom'] at hcalls
  obtain ⟨used, destination, payload, hused, hpayload⟩ :=
    System.eq_of_saysHello (System.saysHello_of_onlyHello hcalls)
  have hle := (selectedFields used [.setShortDestinationAddress destination]).length_toBytes_le
  subst hframes
  exact ⟨later, long, past, packet, first, used.short_source_address, payload, hhistory, hfetches,
    hpayload, hreply used _ [.setShortDestinationAddress destination] payload 2 _ hused
      ⟨[], rfl, by simp⟩ rfl (Nat.le_trans (Nat.add_le_add_right hle 2) (by decide)) rfl rfl⟩

end Mac802154.EchoMessageBlocking
