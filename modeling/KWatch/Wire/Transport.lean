import KWatch.Wire.Frame

/-! # Transport headers

The fixed TCP, UDP and ICMP headers as they lie on the wire. Every byte string that is long enough
starts with a header, so a decoding of all headers is a decoding of all payloads.
-/

namespace KWatch

/-- A TCP header without options; fields that nothing here reads are kept as bytes. -/
structure TcpHeader where
  source : UInt16
  dest : UInt16
  seqAckOff : Frame
  seqAckOff_length : seqAckOff.length = 9
  flags : UInt8
  winCheckUrg : Frame
  winCheckUrg_length : winCheckUrg.length = 6

structure UdpHeader where
  source : UInt16
  dest : UInt16
  lenCheck : Frame
  lenCheck_length : lenCheck.length = 4

structure IcmpHeader where
  type : UInt8
  code : UInt8
  checkRest : Frame
  checkRest_length : checkRest.length = 6

namespace TcpHeader

def encode (T : TcpHeader) : Frame :=
  wire16 T.source ++ (wire16 T.dest ++ (T.seqAckOff ++ T.flags :: T.winCheckUrg))

@[simp] theorem length_encode (T : TcpHeader) : T.encode.length = 20 := by
  simp [encode, T.seqAckOff_length, T.winCheckUrg_length]

end TcpHeader

namespace UdpHeader

def encode (U : UdpHeader) : Frame := wire16 U.source ++ (wire16 U.dest ++ U.lenCheck)

@[simp] theorem length_encode (U : UdpHeader) : U.encode.length = 8 := by
  simp [encode, U.lenCheck_length]

end UdpHeader

namespace IcmpHeader

def encode (I : IcmpHeader) : Frame := I.type :: I.code :: I.checkRest

@[simp] theorem length_encode (I : IcmpHeader) : I.encode.length = 8 := by
  simp [encode, I.checkRest_length]

end IcmpHeader

theorem exists_wire16 {s : Frame} (h : 2 ≤ s.length) :
    ∃ x t, s = wire16 x ++ t ∧ t.length = s.length - 2 := by
  rcases s with _ | ⟨b₀, _ | ⟨b₁, t⟩⟩
  · simp at h
  · simp at h
  · exact ⟨bpfNtohs (le16 b₀ b₁), t, by rw [wire16_bpfNtohs_le16]; rfl, by simp⟩

/-- A TCP header and a UDP header start with two ports. -/
theorem exists_ports {s : Frame} (h : 4 ≤ s.length) :
    ∃ source dest t, s = wire16 source ++ (wire16 dest ++ t) ∧ t.length = s.length - 4 := by
  obtain ⟨source, s', rfl, hs⟩ := exists_wire16 (s := s) (by omega)
  obtain ⟨dest, t, rfl, ht⟩ := exists_wire16 (s := s') (by omega)
  exact ⟨source, dest, t, rfl, by omega⟩

/-- A payload starts with a TCP header exactly when it has 20 bytes. -/
theorem exists_tcp_iff (s : Frame) : (∃ (T : TcpHeader) (r : Frame), s = T.encode ++ r) ↔
    20 ≤ s.length := by
  constructor
  · rintro ⟨T, r, rfl⟩
    simp
  · intro h
    obtain ⟨source, dest, s, rfl, hs⟩ := exists_ports (s := s) (by omega)
    simp only [List.length_append, length_wire16] at h
    obtain ⟨flags, t, ht⟩ := List.exists_cons_of_length_pos (l := s.drop 9) (by simp; omega)
    have htl := congrArg List.length ht
    simp only [List.length_drop, List.length_cons] at htl
    refine ⟨⟨source, dest, s.take 9, by simp; omega, flags, t.take 6, by simp; omega⟩, t.drop 6, ?_⟩
    simp only [TcpHeader.encode, List.append_assoc, List.cons_append, List.take_append_drop]
    rw [← ht, List.take_append_drop]

theorem exists_udp_iff (s : Frame) : (∃ (U : UdpHeader) (r : Frame), s = U.encode ++ r) ↔
    8 ≤ s.length := by
  constructor
  · rintro ⟨U, r, rfl⟩
    simp
  · intro h
    obtain ⟨source, dest, s, rfl, hs⟩ := exists_ports (s := s) (by omega)
    simp only [List.length_append, length_wire16] at h
    refine ⟨⟨source, dest, s.take 4, by simp; omega⟩, s.drop 4, ?_⟩
    simp only [UdpHeader.encode, List.append_assoc, List.take_append_drop]

end KWatch
