import PcdLab.Lib.LittleEndian

/-! # Wire formats

The three encodings which clients and servers share: the length header of the TCP
frames, the sequence-numbered payload and its acknowledgement. Decoders slice
without checking first, so a string that is too short makes them panic; this is
the `none` of `fromBytes`.
-/

namespace PcdLab.Shared.Wire

open Lib

abbrev Bytes := List UInt8

/-- `MAX_BLOCK_SIZE`: the receive buffer of the UDP servers. -/
def maxBlockSize : Nat := 65535

inductive Transport where
  | tcp
  | udp
  | udpStopAndWait
  | quic
  | quicStopAndWait
  deriving Repr, DecidableEq

/-- A `usize` length. On the wire it is cut to a `u32`. -/
structure LenHeader where
  len : Nat
  deriving Repr, DecidableEq

namespace LenHeader

def toBytes (self : LenHeader) : Bytes := LittleEndian.encode 4 (self.len % 2 ^ 32)

/-- The argument is a `[u8; 4]`. -/
def fromBytes (bytes : Bytes) : LenHeader := ⟨LittleEndian.decode bytes⟩

@[simp] theorem length_toBytes (h : LenHeader) : h.toBytes.length = 4 :=
  LittleEndian.length_encode 4 _

theorem fromBytes_toBytes (h : LenHeader) : fromBytes h.toBytes = ⟨h.len % 2 ^ 32⟩ := by
  have fits : h.len % 2 ^ 32 < 256 ^ 4 := Nat.mod_lt _ (by decide)
  simp only [fromBytes, toBytes, LittleEndian.decode_encode_of_lt fits]

theorem toBytes_fromBytes {w : Bytes} (four : w.length = 4) : (fromBytes w).toBytes = w := by
  have fits : LittleEndian.decode w < 2 ^ 32 := by
    have bound := LittleEndian.decode_lt w
    rwa [four] at bound
  have back := LittleEndian.encode_decode w
  rw [four] at back
  rw [toBytes, fromBytes, Nat.mod_eq_of_lt fits, back]

/-- The cut to a `u32` is harmless exactly below 2^32. -/
theorem fromBytes_toBytes_eq_self (h : LenHeader) : fromBytes h.toBytes = h ↔ h.len < 2 ^ 32 := by
  rw [fromBytes_toBytes]
  constructor
  · intro same
    have cut : h.len % 2 ^ 32 = h.len := congrArg len same
    have bound : h.len % 2 ^ 32 < 2 ^ 32 := Nat.mod_lt _ (by decide)
    rwa [cut] at bound
  · intro fits
    rw [Nat.mod_eq_of_lt fits]

/-- What the server takes for the end of a transfer. -/
theorem fromBytes_toBytes_eq_zero (h : LenHeader) :
    (fromBytes h.toBytes).len = 0 ↔ 2 ^ 32 ∣ h.len := by
  rw [fromBytes_toBytes, Nat.dvd_iff_mod_eq_zero]

end LenHeader

structure UdpPayload where
  seq : UInt64
  data : Bytes
  deriving Repr, DecidableEq

structure UdpAck where
  seq : UInt64
  deriving Repr, DecidableEq

/-- `u64::to_le_bytes`. -/
def seqBytes (seq : UInt64) : Bytes := LittleEndian.encode 8 seq.toNat

/-- `u64::from_le_bytes(bytes[..8].try_into().unwrap())`, which needs eight bytes. -/
def seqFromBytes (bytes : Bytes) : Option UInt64 :=
  let front := bytes.take 8
  if front.length = 8 then some (UInt64.ofNat (LittleEndian.decode front)) else none

@[simp] theorem length_seqBytes (seq : UInt64) : (seqBytes seq).length = 8 :=
  LittleEndian.length_encode 8 _

theorem seqFromBytes_seqBytes (seq : UInt64) (more : Bytes) :
    seqFromBytes (seqBytes seq ++ more) = some seq := by
  have front : (seqBytes seq ++ more).take 8 = seqBytes seq :=
    List.take_left' (length_seqBytes seq)
  have decoded : LittleEndian.decode (seqBytes seq) = seq.toNat :=
    LittleEndian.decode_encode_of_lt (w := 8) seq.toNat_lt
  simp only [seqFromBytes, front, length_seqBytes, if_true, decoded, UInt64.ofNat_toNat]

theorem seqFromBytes_eq_none (bytes : Bytes) : seqFromBytes bytes = none ↔ bytes.length < 8 := by
  simp only [seqFromBytes, ite_eq_right_iff, reduceCtorEq, imp_false, List.length_take]
  omega

/-- Every string of eight bytes or more starts with the encoding of a number. -/
theorem seqFromBytes_of_le {w : Bytes} (long : 8 ≤ w.length) :
    ∃ seq, seqFromBytes w = some seq ∧ seqBytes seq = w.take 8 := by
  have eight : (w.take 8).length = 8 := List.length_take_of_le long
  have fits : LittleEndian.decode (w.take 8) < 2 ^ 64 := by
    have bound := LittleEndian.decode_lt (w.take 8)
    rwa [eight] at bound
  refine ⟨UInt64.ofNat (LittleEndian.decode (w.take 8)), if_pos eight, ?_⟩
  have back := LittleEndian.encode_decode (w.take 8)
  rw [eight] at back
  rw [seqBytes, UInt64.toNat_ofNat_of_lt' fits, back]

namespace UdpPayload

def toBytes (self : UdpPayload) : Bytes := seqBytes self.seq ++ self.data

def fromBytes (bytes : Bytes) : Option UdpPayload :=
  (seqFromBytes bytes).map fun seq => ⟨seq, bytes.drop 8⟩

@[simp] theorem length_toBytes (p : UdpPayload) : p.toBytes.length = 8 + p.data.length := by
  simp only [toBytes, List.length_append, length_seqBytes]

/-- What follows the payload in the slice handed over is read as part of its data. -/
theorem fromBytes_toBytes_append (p : UdpPayload) (more : Bytes) :
    fromBytes (p.toBytes ++ more) = some ⟨p.seq, p.data ++ more⟩ := by
  have rest : (seqBytes p.seq ++ (p.data ++ more)).drop 8 = p.data ++ more :=
    List.drop_left' (length_seqBytes p.seq)
  simp only [fromBytes, toBytes, List.append_assoc, seqFromBytes_seqBytes, Option.map_some, rest]

theorem fromBytes_toBytes (p : UdpPayload) : fromBytes p.toBytes = some p := by
  simpa only [List.append_nil] using fromBytes_toBytes_append p []

theorem fromBytes_eq_none (w : Bytes) : fromBytes w = none ↔ w.length < 8 := by
  rw [fromBytes, Option.map_eq_none_iff, seqFromBytes_eq_none]

theorem toBytes_fromBytes {w : Bytes} (long : 8 ≤ w.length) :
    ∃ p, fromBytes w = some p ∧ p.toBytes = w := by
  obtain ⟨seq, decoded, front⟩ := seqFromBytes_of_le long
  refine ⟨⟨seq, w.drop 8⟩, ?_, ?_⟩
  · rw [fromBytes, decoded, Option.map_some]
  · rw [toBytes, front, List.take_append_drop]

theorem toBytes_injective {p q : UdpPayload} (same : p.toBytes = q.toBytes) : p = q := by
  have decoded := congrArg fromBytes same
  rw [fromBytes_toBytes, fromBytes_toBytes] at decoded
  exact Option.some.inj decoded

end UdpPayload

namespace UdpAck

def toBytes (self : UdpAck) : Bytes := seqBytes self.seq

def fromBytes (bytes : Bytes) : Option UdpAck := (seqFromBytes bytes).map UdpAck.mk

@[simp] theorem length_toBytes (a : UdpAck) : a.toBytes.length = 8 := length_seqBytes a.seq

theorem fromBytes_toBytes (a : UdpAck) : fromBytes a.toBytes = some a := by
  have decoded := seqFromBytes_seqBytes a.seq []
  rw [List.append_nil] at decoded
  simp only [fromBytes, toBytes, decoded, Option.map_some]

theorem toBytes_injective {a c : UdpAck} (same : a.toBytes = c.toBytes) : a = c := by
  have decoded := congrArg fromBytes same
  rw [fromBytes_toBytes, fromBytes_toBytes] at decoded
  exact Option.some.inj decoded

theorem fromBytes_eq_none (w : Bytes) : fromBytes w = none ↔ w.length < 8 := by
  rw [fromBytes, Option.map_eq_none_iff, seqFromBytes_eq_none]

/-- What follows the number is ignored. -/
theorem toBytes_fromBytes {w : Bytes} (long : 8 ≤ w.length) :
    ∃ a, fromBytes w = some a ∧ a.toBytes = w.take 8 := by
  obtain ⟨seq, decoded, front⟩ := seqFromBytes_of_le long
  refine ⟨⟨seq⟩, ?_, front⟩
  rw [fromBytes, decoded, Option.map_some]

end UdpAck

/-- In all three formats decoding undoes encoding, as far as the width of the header goes, and
    encoding undoes decoding, up to what the decoder of acks ignores. -/
theorem codecs_inverse :
    (∀ p : UdpPayload, UdpPayload.fromBytes p.toBytes = some p) ∧
    (∀ w : Bytes, 8 ≤ w.length → ∃ p, UdpPayload.fromBytes w = some p ∧ p.toBytes = w) ∧
    (∀ a : UdpAck, UdpAck.fromBytes a.toBytes = some a) ∧
    (∀ w : Bytes, 8 ≤ w.length → ∃ a, UdpAck.fromBytes w = some a ∧ a.toBytes = w.take 8) ∧
    (∀ w : Bytes, w.length = 4 → (LenHeader.fromBytes w).toBytes = w) ∧
    ∀ h : LenHeader, (LenHeader.fromBytes h.toBytes).len = h.len % 2 ^ 32 ∧
      (LenHeader.fromBytes h.toBytes = h ↔ h.len < 2 ^ 32) ∧
      ((LenHeader.fromBytes h.toBytes).len = 0 ↔ 2 ^ 32 ∣ h.len) := by
  refine ⟨UdpPayload.fromBytes_toBytes, fun w => UdpPayload.toBytes_fromBytes,
    UdpAck.fromBytes_toBytes, fun w => UdpAck.toBytes_fromBytes,
    fun w => LenHeader.toBytes_fromBytes, fun h => ⟨?_, ?_, ?_⟩⟩
  · rw [LenHeader.fromBytes_toBytes]
  · exact LenHeader.fromBytes_toBytes_eq_self h
  · exact LenHeader.fromBytes_toBytes_eq_zero h

/-- An ack with one byte too many. -/
theorem codecs_inverse_nine_bytes :
    ∃ a, UdpAck.fromBytes [1, 0, 0, 0, 0, 0, 0, 0, 9] = some a ∧
      a.toBytes = [1, 0, 0, 0, 0, 0, 0, 0] :=
  codecs_inverse.2.2.2.1 [1, 0, 0, 0, 0, 0, 0, 0, 9] (by decide)

end PcdLab.Shared.Wire
