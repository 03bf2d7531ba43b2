import Dragonmouth.Transports.ReadBack

/-!
# Streams that are cut off

A TCP stream may end after any number of bytes. What a client then receives are the
messages that had been written whole, and the stream ends as if the server had closed
it. The loss of a QUIC connection is an error of its own and not the end of a stream;
a reader ends at any error, so that of QUIC it only matters that a part of a frame is
never taken for a frame.

## Main results

- `tcp_read_cut`: what is received of a TCP stream that is cut off
- `QuicClient.breaks_frame`: a part of a frame is not received
-/

namespace Dragonmouth.Transports

open Framing
open Plugin (RecvItem RecvError)
open Encoding (Prost)

section

variable {stream : Pieces UInt8} {back : Bytes} {value n : ℕ}

theorem recvU64_short (hn : n < 8) (h : stream.flatten = (writeU64 value ++ back).take n) :
    recvU64 stream = .error .unexpectedEof := by
  have hshort : stream.flatten.length < 8 := by
    rw [h, List.length_take]
    exact Nat.lt_of_le_of_lt (Nat.min_le_left _ _) hn
  rw [recvU64, readExact_short hshort]

theorem recvU64_take (hvalue : value < 2 ^ 64) (hn : 8 ≤ n)
    (h : stream.flatten = (writeU64 value ++ back).take n) :
    ∃ rest, recvU64 stream = .ok (value, rest) ∧ rest.flatten = back.take (n - 8) := by
  have hlength : (writeU64 value).length = 8 := length_bigEndian 8 value
  rw [List.take_append, hlength, List.take_of_length_le (by omega)] at h
  exact recvU64_writeU64 hvalue h

theorem recvExact_short (short : ReceiveError) {buffer : Bytes} (hn : n < buffer.length)
    (h : stream.flatten = buffer.take n) :
    recvExact short buffer.length stream = .error short := by
  have hshort : stream.flatten.length < buffer.length := by
    rw [h, List.length_take]
    exact Nat.lt_of_le_of_lt (Nat.min_le_left _ _) hn
  rw [recvExact, readExact_short hshort]

end

theorem length_writeU64 (value : ℕ) : (writeU64 value).length = 8 := length_bigEndian 8 value

-- ════════════════════════════════════════════════════════════════════════
-- TCP
-- ════════════════════════════════════════════════════════════════════════

section

variable {P : Prost} {decode : Bytes → Except String ℤ}

theorem TcpClient.breaks_error (hP : P.Varints) (error : RecvError) :
    Breaks (TcpClient.recv decode) (TcpServer.sendError P error) (· = .unexpectedEof) := by
  intro stream n hn hstream
  refine ⟨.unexpectedEof, ?_, rfl⟩
  rw [TcpServer.sendError, List.append_assoc] at hn hstream
  rw [TcpClient.recv]
  by_cases hfirst : n < 8
  · rw [recvU64_short hfirst hstream]
    rfl
  · have hmax : u64Max < 2 ^ 64 := Nat.sub_lt (Nat.two_pow_pos 64) Nat.one_pos
    obtain ⟨stream₁, hread₁, hstream₁⟩ := recvU64_take hmax (Nat.le_of_not_lt hfirst) hstream
    rw [hread₁]
    simp only [Except.bind, bind, if_true]
    by_cases hsecond : n - 8 < 8
    · rw [recvU64_short hsecond hstream₁]
    · obtain ⟨stream₂, hread₂, hstream₂⟩ := recvU64_take (length_quicSubscribeClose hP error)
        (Nat.le_of_not_lt hsecond) hstream₁
      rw [List.length_append, List.length_append, length_writeU64, length_writeU64] at hn
      simp only [hread₂, recvExact_short .unexpectedEof (n := n - 8 - 8) (by omega) hstream₂]

theorem TcpClient.breaks_close (hP : P.Varints) (close : Option RecvError) :
    Breaks (TcpClient.recv decode) (close.toList.flatMap (TcpServer.sendError P))
      (· = .unexpectedEof) := by
  cases close with
  | none => exact fun _ _ hn => absurd hn (Nat.not_lt_zero _)
  | some error =>
    rw [Option.toList_some, List.flatMap_singleton]
    exact breaks_error hP error

end

-- ════════════════════════════════════════════════════════════════════════
-- QUIC
-- ════════════════════════════════════════════════════════════════════════

section

variable {P : Prost} {decode : Bytes → Except String ℤ}

/-- The error at a frame of which the stream has only a part: within a header or within
the payload. -/
def ReceiveError.CutOff (error : ReceiveError) : Prop :=
  error = .unexpectedEof ∨ error = .finishedEarly

theorem QuicClient.breaks_frame (frame : Frame) (hid : frame.id < 2 ^ 64)
    (hlen : (frame.payload P).length < 2 ^ 64) :
    Breaks (QuicClient.recv decode) (frame.bytes P) ReceiveError.CutOff := by
  intro stream n hn hstream
  rw [Frame.bytes, List.append_assoc] at hn hstream
  rw [QuicClient.recv]
  by_cases hfirst : n < 8
  · rw [recvU64_short hfirst hstream]
    exact ⟨.unexpectedEof, rfl, .inl rfl⟩
  · obtain ⟨stream₁, hread₁, hstream₁⟩ := recvU64_take hid (Nat.le_of_not_lt hfirst) hstream
    rw [hread₁]
    simp only [Except.bind, bind]
    by_cases hsecond : n - 8 < 8
    · rw [recvU64_short hsecond hstream₁]
      exact ⟨.unexpectedEof, rfl, .inl rfl⟩
    · obtain ⟨stream₂, hread₂, hstream₂⟩ :=
        recvU64_take hlen (Nat.le_of_not_lt hsecond) hstream₁
      rw [List.length_append, List.length_append, length_writeU64, length_writeU64] at hn
      simp only [hread₂, recvExact_short .finishedEarly (n := n - 8 - 8) (by omega) hstream₂]
      exact ⟨.finishedEarly, rfl, .inr rfl⟩

theorem QuicClient.breaks_close (hP : P.Varints) (close : Option RecvError) :
    Breaks (QuicClient.recv decode)
      (close.toList.flatMap fun error => (Frame.close error).bytes P) ReceiveError.CutOff := by
  cases close with
  | none => exact fun _ _ hn => absurd hn (Nat.not_lt_zero _)
  | some error =>
    rw [Option.toList_some, List.flatMap_singleton]
    exact breaks_frame (.close error) (Nat.sub_lt (Nat.two_pow_pos 64) Nat.one_pos)
      (length_quicSubscribeClose hP error)

end

end Dragonmouth.Transports
