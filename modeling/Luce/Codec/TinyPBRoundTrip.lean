/-
This file compares the two directions of the TinyPB coder.

What the encoder writes for a message is decoded to the same message, if its texts have no
NUL and fit the arrays of the decoder. What the decoder accepts is encoded again to the
same packet up to the check sum, if its texts have no NUL; but where the packet has no
identity the encoder puts one.
-/

import Luce.Codec.TinyPBPackets

namespace Luce.Codec

/-- The bytes and their terminator fit an array of this size. -/
structure IsText (capacity : Nat) (data : Bytes) : Prop where
  nonzero : (0 : Byte) ∉ data
  fits : data.length < capacity

theorem IsText.terminated {capacity : Nat} {data : Bytes} (text : IsText capacity data) :
    Terminated capacity data :=
  ⟨text.fits.le, fun full => absurd full text.fits.ne⟩

/-- What the decoder can give back of a message with an identity. -/
structure Encodable (message : TinyPBProtocol) : Prop where
  msgId : IsText 100 message.msgId
  methodName : IsText 512 message.methodName
  errInfo : IsText 512 message.errInfo
  small : 26 + message.msgId.length + message.methodName.length + message.errInfo.length +
    message.pbData.length < 2 ^ 31

theorem Encodable.readable {message : TinyPBProtocol} (encodable : Encodable message) :
    (Packet.ofMessage message).Readable where
  checkSum := length_getNetInt32 1
  small := encodable.small
  msgId := encodable.msgId.terminated
  methodName := encodable.methodName.terminated
  errInfo := encodable.errInfo.terminated

theorem message_ofMessage {message : TinyPBProtocol} (encodable : Encodable message) :
    (Packet.ofMessage message).message = { withLengths message with checkSum := 0 } := by
  simp only [Packet.message, Packet.ofMessage, withLengths, cString_eq_iff.mpr encodable.msgId.nonzero,
    cString_eq_iff.mpr encodable.methodName.nonzero, cString_eq_iff.mpr encodable.errInfo.nonzero]

theorem decode_image {inBuffer : Buffer} {packet : Packet} (readable : packet.Readable)
    (same : inBuffer.bytes = packet.image) (outMessage : Option TinyPBProtocol) :
    decode inBuffer outMessage = .ok (some packet.message) := by
  rw [decode, decodeMessage_of_readable readable same]

/-- A message whose texts have no NUL and fit the decoder's arrays is encoded to a buffer of
its length, and what is decoded from that is the message that the encoder leaves, with all
its fields, except for the check sum, which is not read. -/
theorem decode_encode (message : TinyPBProtocol) (encodable : Encodable (withMsgId message))
    (outMessage : Option TinyPBProtocol) :
    ∃ buffer, encode message .empty = .ok (withLengths (withMsgId message), buffer) ∧
      (withLengths (withMsgId message)).pkLen.toInt = buffer.bytes.length ∧
      decode buffer outMessage =
        .ok (some { withLengths (withMsgId message) with checkSum := 0 }) := by
  obtain ⟨buffer, encoded, same⟩ := encode_empty encodable.small
  refine ⟨buffer, encoded, ?_, ?_⟩
  · rw [same, Packet.length_image (length_getNetInt32 1)]
    exact Int32.toInt_ofNat_of_lt encodable.small
  · rw [decode_image encodable.readable same, message_ofMessage encodable]

/-- The method and the payload come back, and the message gets an identity. -/
theorem decode_encode_get :
    ∃ buffer, encode ⟨[], 0, 0, 0, ascii "get", -5, 0, [], [1, 0, 2], 0, false⟩ .empty =
        .ok (⟨ascii "123456789", 41, 9, 3, ascii "get", -5, 0, [], [1, 0, 2], 0, true⟩, buffer) ∧
      decode buffer none = .ok
        (some ⟨ascii "123456789", 41, 9, 3, ascii "get", -5, 0, [], [1, 0, 2], 0, true⟩) := by
  obtain ⟨buffer, encoded, -, decoded⟩ :=
    decode_encode ⟨[], 0, 0, 0, ascii "get", -5, 0, [], [1, 0, 2], 0, false⟩
      ⟨⟨by decide, by decide⟩, ⟨by decide, by decide⟩, ⟨by decide, by decide⟩, by decide⟩ none
  exact ⟨buffer, encoded, decoded⟩

/-! ### Encoding what has been decoded -/

theorem readable_of_decode {inBuffer : Buffer} {message : TinyPBProtocol}
    (accepted : decode inBuffer none = .ok (some message)) :
    ∃ packet : Packet, packet.Readable ∧ inBuffer.bytes = packet.image ∧
      message = packet.message := by
  rw [decode] at accepted
  split at accepted
  case h_1 decoded =>
    cases accepted
    exact readable_of_decodeMessage decoded
  case h_2 => cases accepted
  case h_3 => cases accepted

/-- The texts of the packet have no NUL, so that they are decoded whole. -/
structure Packet.Plain (packet : Packet) : Prop where
  msgId : (0 : Byte) ∉ packet.msgId
  methodName : (0 : Byte) ∉ packet.methodName
  errInfo : (0 : Byte) ∉ packet.errInfo

/-- A packet whose texts are decoded as long as it says they are. -/
theorem Packet.Readable.plain {packet : Packet} (readable : packet.Readable)
    (msgId : packet.message.msgIdLen.toInt = packet.message.msgId.length)
    (methodName : packet.message.methodNameLen.toInt = packet.message.methodName.length)
    (errInfo : packet.message.errInfoLen.toInt = packet.message.errInfo.length) :
    packet.Plain := by
  have small := readable.small
  have whole : ∀ text : Bytes, text.length ≤ packet.size →
      (Int32.ofNat text.length).toInt = (cString text).length → (0 : Byte) ∉ text := by
    intro text part same
    rw [Int32.toInt_ofNat_of_lt (by omega)] at same
    exact length_cString_eq_iff.mp (Int.ofNat_inj.mp same.symm)
  constructor
  · exact whole _ (by rw [Packet.size]; omega) msgId
  · exact whole _ (by rw [Packet.size]; omega) methodName
  · exact whole _ (by rw [Packet.size]; omega) errInfo

/-- What the message of a plain packet is encoded to, if it has an identity. -/
theorem ofMessage_message {packet : Packet} (plain : packet.Plain) :
    Packet.ofMessage packet.message = { packet with checkSum := getNetInt32 1 } := by
  simp only [Packet.ofMessage, Packet.message, cString_eq_iff.mpr plain.msgId,
    cString_eq_iff.mpr plain.methodName, cString_eq_iff.mpr plain.errInfo]

theorem withMsgId_of_nonempty {message : TinyPBProtocol} (nonempty : message.msgId ≠ []) :
    withMsgId message = message := by
  rw [withMsgId, if_neg (by simpa using nonempty)]

theorem withMsgId_of_empty {message : TinyPBProtocol} (empty : message.msgId = []) :
    withMsgId message = { message with msgId := ascii "123456789" } := by
  rw [withMsgId, if_pos (by simp [empty])]

/-- A packet that has no identity is encoded with the default one. -/
theorem encode_default {packet : Packet} (plain : packet.Plain) (empty : packet.msgId = [])
    (small : packet.size + 9 < 2 ^ 31) :
    ∃ encoded buffer, encode packet.message .empty = .ok (encoded, buffer) ∧ buffer.bytes =
      { packet with msgId := ascii "123456789", checkSum := getNetInt32 1 : Packet }.image := by
  have missing : packet.message.msgId = [] := by rw [Packet.message, empty]; rfl
  have same : Packet.ofMessage (withMsgId packet.message) =
      { packet with msgId := ascii "123456789", checkSum := getNetInt32 1 } := by
    rw [withMsgId_of_empty missing]
    change { Packet.ofMessage packet.message with msgId := ascii "123456789" } = _
    rw [ofMessage_message plain]
  have nine : (ascii "123456789").length = 9 := rfl
  have fits : (Packet.ofMessage (withMsgId packet.message)).size < 2 ^ 31 := by
    rw [same]
    simp only [Packet.size, empty, List.length_nil] at small ⊢
    omega
  obtain ⟨buffer, encoded, image⟩ := encode_empty fits
  exact ⟨_, buffer, encoded, image.trans (congrArg Packet.image same)⟩

/-- A packet that has an identity is encoded as it is, up to the check sum. -/
theorem encode_identified {packet : Packet} (readable : packet.Readable) (plain : packet.Plain)
    (nonempty : packet.msgId ≠ []) :
    ∃ buffer, encode packet.message .empty = .ok (packet.message, buffer) ∧
      buffer.bytes = { packet with checkSum := getNetInt32 1 : Packet }.image := by
  have identity : packet.message.msgId ≠ [] := by
    rw [Packet.message, cString_eq_iff.mpr plain.msgId]
    exact nonempty
  have same : Packet.ofMessage (withMsgId packet.message) =
      { packet with checkSum := getNetInt32 1 } := by
    rw [withMsgId_of_nonempty identity, ofMessage_message plain]
  have kept : withLengths (withMsgId packet.message) = packet.message := by
    rw [withLengths, same, withMsgId_of_nonempty identity]
    simp only [Packet.message, Packet.size, cString_eq_iff.mpr plain.msgId,
      cString_eq_iff.mpr plain.methodName, cString_eq_iff.mpr plain.errInfo]
  have fits : (Packet.ofMessage (withMsgId packet.message)).size < 2 ^ 31 := same ▸ readable.small
  obtain ⟨buffer, encoded, image⟩ := encode_empty fits
  exact ⟨buffer, by rw [encoded, kept], image.trans (congrArg Packet.image same)⟩

/-- Whatever the decoder accepts is a packet. If its texts have no NUL, then encoding the
message again gives the packet with another check sum, if it has an identity, and otherwise
the packet with the default identity in it, as long as an `int` can measure it. -/
theorem encode_decode (inBuffer : Buffer) (message : TinyPBProtocol)
    (accepted : decode inBuffer none = .ok (some message)) :
    ∃ packet : Packet, packet.Readable ∧ inBuffer.bytes = packet.image ∧
      message = packet.message ∧ (packet.Plain →
        (packet.msgId ≠ [] → ∃ buffer front, encode message .empty = .ok (message, buffer) ∧
          inBuffer.bytes = front ++ packet.checkSum ++ [pbEnd] ∧
          buffer.bytes = front ++ getNetInt32 1 ++ [pbEnd]) ∧
        (packet.msgId = [] → packet.size + 9 < 2 ^ 31 →
          ∃ encoded buffer, encode message .empty = .ok (encoded, buffer) ∧ buffer.bytes =
            { packet with msgId := ascii "123456789", checkSum := getNetInt32 1 : Packet }.image)) := by
  obtain ⟨packet, readable, same, rfl⟩ := readable_of_decode accepted
  refine ⟨packet, readable, same, rfl, fun plain => ⟨fun nonempty => ?_, encode_default plain⟩⟩
  obtain ⟨buffer, encoded, image⟩ := encode_identified readable plain nonempty
  exact ⟨buffer, _, encoded, same, image⟩

/-- A packet with an identity, of texts without a NUL, comes back with its check sum set. -/
theorem encode_decode_ping :
    ∃ buffer, encode ⟨[55], 30, 1, 2, [104, 105], 0, 0, [], [9], 0, true⟩ .empty =
        .ok (⟨[55], 30, 1, 2, [104, 105], 0, 0, [], [9], 0, true⟩, buffer) ∧
      buffer.bytes = [2, 0, 0, 0, 30, 0, 0, 0, 1, 55, 0, 0, 0, 2, 104, 105, 0, 0, 0, 0, 0, 0, 0, 0,
        9, 0, 0, 0, 1, 3] := by
  obtain ⟨packet, readable, -, message, again⟩ := encode_decode ⟨[2, 0, 0, 0, 30, 0, 0, 0, 1, 55,
    0, 0, 0, 2, 104, 105, 0, 0, 0, 0, 0, 0, 0, 0, 9, 1, 2, 3, 4, 3], by decide⟩
    ⟨[55], 30, 1, 2, [104, 105], 0, 0, [], [9], 0, true⟩ (by decide)
  have plain : packet.Plain := by
    apply readable.plain <;> rw [← message] <;> decide
  have identified : packet.msgId ≠ [] := by
    intro empty
    have nothing : packet.message.msgId = [] := by rw [Packet.message, empty]; rfl
    rw [← message] at nothing
    cases nothing
  obtain ⟨buffer, front, encoded, before, after⟩ := (again plain).1 identified
  have parts : [2, 0, 0, 0, 30, 0, 0, 0, 1, 55, 0, 0, 0, 2, 104, 105, 0, 0, 0, 0, 0, 0, 0, 0, 9] ++
      [1, 2, 3, 4, 3] = front ++ (packet.checkSum ++ [pbEnd]) := by
    rw [← List.append_assoc]
    exact before
  have length : [1, 2, 3, 4, 3].length = (packet.checkSum ++ [pbEnd]).length := by
    rw [List.length_append, readable.checkSum]
    rfl
  obtain ⟨rfl, -⟩ := List.append_inj' parts length
  exact ⟨buffer, encoded, after⟩

/-- The packet with nothing in it is encoded again with an identity that it did not have. -/
theorem encode_decode_changes :
    ¬ ∀ (inBuffer : Buffer) (message : TinyPBProtocol), decode inBuffer none = .ok (some message) →
      ∃ encoded buffer front checkSum again, checkSum.length = 4 ∧ again.length = 4 ∧
        encode message .empty = .ok (encoded, buffer) ∧
        inBuffer.bytes = front ++ checkSum ++ [pbEnd] ∧ buffer.bytes = front ++ again ++ [pbEnd] := by
  intro undoes
  obtain ⟨encoded, buffer, front, checkSum, again, four, fourAgain, encodes, before, after⟩ :=
    undoes ⟨[2, 0, 0, 0, 26, 0, 0, 0, 0, 0, 0, 0, 0, 0, 0, 0, 0, 0, 0, 0, 0, 0, 0, 0, 0, 3], by decide⟩
      ⟨[], 26, 0, 0, [], 0, 0, [], [], 0, true⟩ (by decide)
  have small : (Packet.ofMessage (withMsgId ⟨[], 26, 0, 0, [], 0, 0, [], [], 0, true⟩)).size <
      2 ^ 31 := by decide
  obtain ⟨other, encodesToo, image⟩ := encode_empty small
  obtain ⟨-, rfl⟩ := Prod.mk.inj (Except.ok.inj (encodes.symm.trans encodesToo))
  have longer := congrArg List.length (after.symm.trans image)
  have length := congrArg List.length before
  rw [Packet.length_image (length_getNetInt32 1), List.length_append, List.length_append,
    fourAgain] at longer
  rw [List.length_append, List.length_append, four] at length
  exact absurd (length.trans longer) (by decide)

end Luce.Codec
