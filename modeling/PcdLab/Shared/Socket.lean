import PcdLab.Shared.Wire

/-! # Sockets

The operations of the runtime below the programs, as far as they use them. A
datagram is handed over whole up to the size of the buffer given, and a stream is
read in exact portions. Failures are told apart only where the programs do.
-/

namespace PcdLab.Shared.Socket

open Wire

/-- A source address, as `recv_from` reports it. -/
structure SocketAddr where
  ip : UInt32
  port : UInt16
  deriving Repr, DecidableEq

inductive IoError where
  | unexpectedEof
  | os (code : Nat)
  deriving Repr, DecidableEq

/-- How far an `async fn` has come: it runs, or has returned `Ok` or `Err`, or panicked. -/
inductive Outcome (ε ρ : Type) where
  | running
  | ok (value : ρ)
  | err (error : ε)
  | panicked
  deriving Repr, DecidableEq

/-- How the program was compiled, which decides what unsigned arithmetic does on overflow. -/
inductive Profile where
  | debug
  | release
  deriving Repr, DecidableEq

/-- `a - b` on 64 bits: below zero it panics, or wraps around. -/
def Profile.sub : Profile → Nat → Nat → Option Nat
  | .debug, a, b => if b ≤ a then some (a - b) else none
  | .release, a, b => some ((a + 2 ^ 64 - b) % 2 ^ 64)

/-- `recv_from` into a zeroed buffer of `size` bytes: the length received, and the buffer. -/
def recvFrom (size : Nat) (datagram : Bytes) : Nat × Bytes :=
  (min datagram.length size,
    datagram.take size ++ List.replicate (size - datagram.length) 0)

/-- `read_exact` on what is left of a stream: the next `n` bytes and the rest. -/
def readExact (n : Nat) (stream : Bytes) : Except IoError (Bytes × Bytes) :=
  if n ≤ stream.length then .ok (stream.take n, stream.drop n) else .error .unexpectedEof

/-- A datagram that fits is received whole, and the rest of the buffer keeps its zeros. -/
theorem recvFrom_of_le {size : Nat} {datagram : Bytes} (fits : datagram.length ≤ size) :
    recvFrom size datagram =
      (datagram.length, datagram ++ List.replicate (size - datagram.length) 0) := by
  simp only [recvFrom, Nat.min_eq_left fits, List.take_of_length_le fits]

/-- A datagram that fills the buffer is cut to it. -/
theorem recvFrom_of_ge {size : Nat} {datagram : Bytes} (fills : size ≤ datagram.length) :
    recvFrom size datagram = (size, datagram.take size) := by
  simp only [recvFrom, Nat.min_eq_right fills, Nat.sub_eq_zero_of_le fills, List.replicate_zero,
    List.append_nil]

/-- Whatever was received, the buffer has its own length. -/
theorem length_recvFrom (size : Nat) (datagram : Bytes) :
    (recvFrom size datagram).2.length = size := by
  simp only [recvFrom, List.length_append, List.length_take, List.length_replicate]
  omega

theorem Profile.sub_of_le (profile : Profile) {a b : Nat} (le : b ≤ a) (fits : a < 2 ^ 64) :
    profile.sub a b = some (a - b) := by
  cases profile with
  | debug => exact if_pos le
  | release =>
      have shift : a + 2 ^ 64 - b = (a - b) + 2 ^ 64 := by omega
      simp only [sub, shift, Nat.add_mod_right, Nat.mod_eq_of_lt (by omega : a - b < 2 ^ 64)]

theorem readExact_append {n : Nat} {front rest : Bytes} (size : front.length = n) :
    readExact n (front ++ rest) = .ok (front, rest) := by
  have long : n ≤ (front ++ rest).length := by rw [List.length_append]; omega
  rw [readExact, if_pos long, List.take_left' size, List.drop_left' size]

theorem readExact_short {n : Nat} {stream : Bytes} (short : stream.length < n) :
    readExact n stream = .error .unexpectedEof := by
  rw [readExact, if_neg (by omega)]

theorem readExact_error {n : Nat} {stream : Bytes} {e : IoError}
    (failed : readExact n stream = .error e) : e = .unexpectedEof := by
  unfold readExact at failed
  split at failed
  · cases failed
  · cases failed
    rfl

theorem readExact_ok {n : Nat} {stream front rest : Bytes}
    (read : readExact n stream = .ok (front, rest)) :
    stream = front ++ rest ∧ front.length = n := by
  unfold readExact at read
  split at read
  · rename_i long
    obtain ⟨rfl, rfl⟩ := Prod.mk.inj (Except.ok.inj read)
    exact ⟨(List.take_append_drop n stream).symm, List.length_take_of_le long⟩
  · cases read

end PcdLab.Shared.Socket
