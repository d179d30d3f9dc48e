import Mac802154.Client

namespace Mac802154

open Library FrameHeader802154 Client

variable [BitManipulation]

-- What a program hands on that takes the pointers into a packet.
def payloadOf (packet : BytePointer) : BytePointer :=
  fun i => packet (getPacketPayload packet + i)

def shortSourceOf (packet : BytePointer) : Vector UInt8 2 :=
  Vector.ofFn fun i => packet (getPacketShortSourceAddress packet + i)

-- The fields of a message to a short address, from the configured short address.
def fieldsTo (config : Mac802154Config) (address : Vector UInt8 2) : HeaderFields where
  acknowledgementRequest := false
  sequenceNumber := some 0
  panId := config.pan_id
  destination := .short address
  source := .short config.short_source_address

-- The frame that sends the payload of a packet back to where it came from.
def reply (config : Mac802154Config) (packet : BytePointer) : List UInt8 :=
  image (fieldsTo config (shortSourceOf packet)) (payloadOf packet)
    (getPacketPayloadSize packet).toNat

theorem map_payloadOf (packet : BytePointer) (n : Nat) :
    (List.range n).map (payloadOf packet) =
      Memory.contents packet (getPacketPayload packet) n := by
  apply List.ext_getElem
  · simp
  · intro i hi hi'
    simp [payloadOf, Memory.contents]

theorem toList_shortSourceOf (packet : BytePointer) : (shortSourceOf packet).toList =
    Memory.contents packet (getPacketShortSourceAddress packet) 2 := by
  rw [shortSourceOf, Vector.toList_ofFn, Memory.contents_succ, Memory.contents_succ]
  rfl

-- The reply to a packet that conveys a message from a short address.
theorem Conveys.reply_eq {fields : HeaderFields} {payload packet : BytePointer} {n : Nat}
    {size : UInt8} (h : Conveys fields payload n packet size) {address : Vector UInt8 2}
    (hsource : fields.source = .short address) (config : Mac802154Config) :
    reply config packet = image (fieldsTo config address) payload n := by
  have hpayload : (List.range n).map (payloadOf packet) = (List.range n).map payload := by
    rw [map_payloadOf, h.payload]
  have haddress : shortSourceOf packet = address := by
    have hbytes := h.shortSource
    rw [h.sourceSize, hsource, Address.length_toList_short, ← toList_shortSourceOf] at hbytes
    exact Vector.toList_inj.mp hbytes
  rw [reply, h.payloadSize, haddress, image, hpayload]
  rfl

section Selected

variable {config : Mac802154Config} {calls : List SetterCall}
  (hsource : selectedSource config calls = .short config.short_source_address)

include hsource

omit [BitManipulation] in
theorem selectedFields_reply (address : Vector UInt8 2) :
    selectedFields config (calls ++ [.setShortDestinationAddress address]) =
      fieldsTo config address := by
  have hnext : selectedSource config (calls ++ [.setShortDestinationAddress address]) =
      selectedSource config calls := List.foldl_append
  have hdestination : selectedDestination (calls ++ [.setShortDestinationAddress address]) =
      .short address := List.foldl_append
  rw [selectedFields, hnext, hdestination, hsource]
  rfl

omit [BitManipulation] hsource in
theorem selectedFields_setPayload (payload : BytePointer) (n : Nat) :
    selectedFields config (calls ++ [.setPayload payload n]) = selectedFields config calls := by
  have hsource : selectedSource config (calls ++ [.setPayload payload n]) =
      selectedSource config calls := List.foldl_append
  have hdestination : selectedDestination (calls ++ [.setPayload payload n]) =
      selectedDestination calls := List.foldl_append
  rw [selectedFields, hsource, hdestination]
  rfl

-- The address first and then the payload.
theorem FrameOf.reply {packet pointer : BytePointer} {long : Memory}
    (h : FrameOf config (calls ++ [.setShortDestinationAddress (shortSourceOf packet)] ++
      [.setPayload (payloadOf packet) (getPacketPayloadSize packet).toNat]) pointer long) :
    long.StartsWith (Mac802154.reply config packet) := by
  have hwhole := h.whole (calls ++ [.setShortDestinationAddress (shortSourceOf packet)])
    (payloadOf packet) (getPacketPayloadSize packet).toNat ⟨[], rfl, by simp⟩
    (getPacketPayloadSize packet).toNat_lt
    (by rw [selectedHeaderSize, selectedHeaderSize, selectedFields_setPayload])
  rwa [selectedFields_setPayload, selectedFields_reply hsource] at hwhole

end Selected

-- The calls that have to do with what is to be sent.
def composes : Call → Bool
  | .configure => true
  | .setter _ => true
  | _ => false

-- A program has configured its driver so, and has not selected another source
-- address since.
def Configured (start config : Mac802154Config) (entries : List (Call × Answer)) : Prop :=
  (∃ answer, (.configure, answer) ∈ entries) ∧
    ∃ calls, (callerOf start (replay entries)).configured = some (config, calls) ∧
      selectedSource config calls = .short config.short_source_address

namespace Configured

omit [BitManipulation]

variable {start config : Mac802154Config} {entries : List (Call × Answer)}

theorem begin (answer answer' : Answer) (entries : List (Call × Answer)) :
    Configured start config ((.configure, answer') :: (.overwriteConfig config, answer) :: entries) :=
  ⟨⟨answer', List.mem_cons_self⟩, [], rfl, rfl⟩

theorem cons (h : Configured start config entries) {c : Call} {answer : Answer}
    (hc : composes c = false) : Configured start config ((c, answer) :: entries) := by
  obtain ⟨⟨configured, hmem⟩, calls, hcalls, hsource⟩ := h
  refine ⟨⟨configured, List.mem_cons_of_mem _ hmem⟩, calls, ?_, hsource⟩
  cases c with
  | configure => cases hc
  | setter call => cases hc
  | _ => exact hcalls

theorem setter (h : Configured start config entries) {call : SetterCall} {answer : Answer}
    (hcall : ∀ current, call.source config current = current) :
    Configured start config ((.setter call, answer) :: entries) := by
  obtain ⟨⟨configured, hmem⟩, calls, hcalls, hsource⟩ := h
  refine ⟨⟨configured, List.mem_cons_of_mem _ hmem⟩, calls ++ [call], ?_, ?_⟩
  · simp only [replay, List.map_cons, callerOf]
    exact congrArg (Option.map _) hcalls
  · rw [selectedSource, List.foldl_append]
    exact (hcall _).trans hsource

end Configured

end Mac802154
